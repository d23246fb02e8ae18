import Drift.Server.AdmissionRuns

/-!
# The worker fails closed

The health of a worker is stored twice: in the flag under `"health"`, which `mark_unhealthy` drops
without the lock, and in the last field of the global record, which almost every operation copies. Once
either says that the worker is unhealthy it stays so. The one place that writes `True` into the global
record is the end of a successful `acquire`, which has seen both under the same lock; a flag that is
dropped meanwhile stays dropped.

* `healthDiscipline` — what accesses may do: without the lock they drop the flag, with it they raise
  nothing;
* `Closes` — the postcondition of every operation: what it detects leaves the worker unhealthy, and an
  operation that asks for admission is refused if the worker was unhealthy at its start;
* `IsOperation.meets` — each operation keeps to the discipline and has the postcondition;
* `fails_closed` — for pools of any operations, in any interleaving of their accesses.
-/

namespace Drift.Server

open Drift.Lib Program

/-- Without the lock an operation at most drops the flag. With it, it does not raise the flag, and it
leaves an unhealthy worker unhealthy. -/
def healthDiscipline : Discipline Records where
  free s s' := s' = s ∨ s' = { s with health := false }
  held s s' := (s'.health = true → s.health = true) ∧ (s.healthy = false → s'.healthy = false)

/-- The outcome reports corruption that the operation has detected, or is the end of
`mark_unhealthy`. -/
def Detects (outcome : Outcome) : Prop :=
  outcome = .ok .poisoned ∨ outcome = .error .corrupted ∨ outcome = .error .raised

/-- The outcome is a refusal, or a snapshot that reports an unhealthy worker. -/
def Refuses : Outcome → Prop
  | .error _ => True
  | .ok (.snapshot counters) => counters.healthy = false
  | .ok _ => False

/-- The postcondition of an operation that started in an unhealthy worker if `u` holds. -/
def Closes (guarded : Bool) (u : Prop) (outcome : Outcome) (s : Records) : Prop :=
  (guarded = true → u → Refuses outcome) ∧ (Detects outcome → s.healthy = false)

/-- The precondition. -/
def UnhealthyIf (u : Prop) (s : Records) : Prop := u → s.healthy = false

/-! ### What is stable -/

theorem free_cases {s s' : Records} (h : healthDiscipline.free s s') :
    s' = s ∨ s' = { s with health := false } := h

theorem refl_guar (holding : Bool) (s : Records) : healthDiscipline.guar holding s s := by
  cases holding with
  | false => exact Or.inl rfl
  | true => exact ⟨id, id⟩

theorem stable_unhealthy (holding : Bool) :
    healthDiscipline.Stable holding fun s => s.healthy = false := by
  rintro s s' (hfree | ⟨-, -, hheld⟩) hs
  · rcases free_cases hfree with rfl | rfl
    · exact hs
    · exact Records.healthy_of_health rfl
  · exact hheld hs

theorem stable_unhealthyIf (u : Prop) (holding : Bool) :
    healthDiscipline.Stable holding (UnhealthyIf u) :=
  (stable_unhealthy holding).imp_left u

theorem stable_closes (guarded : Bool) (u : Prop) (outcome : Outcome) (holding : Bool) :
    healthDiscipline.Stable holding (Closes guarded u outcome) := by
  intro s s' hs h
  exact ⟨h.1, fun hdetects => stable_unhealthy holding s s' hs (h.2 hdetects)⟩

/-- Under the lock the others change nothing but the flag. -/
theorem stable_held {P : Records → Prop} (h : ∀ s, P s → P { s with health := false }) :
    healthDiscipline.Stable true P := by
  rintro s s' (hfree | ⟨hfalse, -⟩) hs
  · rcases free_cases hfree with rfl | rfl
    · exact hs
    · exact h s hs
  · cases hfalse

/-- A section that has found the worker healthy: it was not unhealthy at the start, and the global
record still says so. -/
def FoundHealthy (u : Prop) (s : Records) : Prop :=
  ¬ u ∧ ∃ g, s.global = some g ∧ g.healthy = true

theorem stable_foundHealthy (u : Prop) : healthDiscipline.Stable true (FoundHealthy u) :=
  stable_held fun _ hs => hs

/-! ### What a section may write -/

/-- A global record may be written that is no healthier than the one that is there. -/
theorem held_put_global {s : Records} {g r : GlobalRecord} (hg : s.global = some g)
    (hr : r.healthy = true → g.healthy = true) :
    healthDiscipline.guar true s { s with global := some r } := by
  refine ⟨id, fun hs => ?_⟩
  by_contra hnow
  obtain ⟨hhealth, r', hr', hrh⟩ := Records.healthy_iff.mp (eq_true_of_ne_false hnow)
  cases hr'
  have hbefore : s.healthy = true := Records.healthy_iff.mpr ⟨hhealth, g, hg, hr hrh⟩
  exact Bool.noConfusion (hbefore.symm.trans hs)

theorem held_of_same {s s' : Records} (hhealth : s'.health = s.health) (hglobal : s'.global = s.global) :
    healthDiscipline.guar true s s' := by
  refine ⟨fun h => hhealth ▸ h, fun h => ?_⟩
  rw [Records.healthy, hhealth, hglobal]
  exact h

theorem FoundHealthy.put_global {u : Prop} {s : Records} (h : FoundHealthy u s) (r : GlobalRecord) :
    healthDiscipline.guar true s { s with global := some r } := by
  obtain ⟨-, g, hg, hhealthy⟩ := h
  exact held_put_global hg fun _ => hhealthy

variable {guarded : Bool} {u : Prop} {P : Records → Prop}

/-- A refusal that detects nothing may end any section. -/
theorem done_refused {r : Rejection} (hcorrupted : r ≠ .corrupted) (hraised : r ≠ .raised)
    (holding : Bool) :
    (Program.done (.error r) : Operation).Meets healthDiscipline holding holding P
      (Closes guarded u) := by
  refine Meets.done fun s _ => ⟨fun _ _ => trivial, fun hdetects => ?_⟩
  rcases hdetects with h | h | h
  · cases h
  · exact absurd (Except.error.inj h) hcorrupted
  · exact absurd (Except.error.inj h) hraised

/-- Whatever detects nothing may end a section that has found the worker healthy. -/
theorem done_found {outcome : Outcome} (h : ¬ Detects outcome) (hP : ∀ s, P s → ¬ u) (holding : Bool) :
    (Program.done outcome : Operation).Meets healthDiscipline holding holding P (Closes guarded u) :=
  Meets.done fun s hs => ⟨fun _ hu => absurd hu (hP s hs), fun hdetects => absurd hdetects h⟩

/-- Anything that refuses, or is not asked to, may end a section that leaves the worker unhealthy. -/
theorem done_unhealthy {outcome : Outcome} (h : guarded = true → u → Refuses outcome)
    (hP : ∀ s, P s → s.healthy = false) (holding : Bool) :
    (Program.done outcome : Operation).Meets healthDiscipline holding holding P (Closes guarded u) :=
  Meets.done fun s hs => ⟨h, fun _ => hP s hs⟩

/-- `_mark_unhealthy_locked` leaves the worker unhealthy. -/
theorem markUnhealthyLocked_meets {outcome : Outcome} (h : guarded = true → u → Refuses outcome) :
    (markUnhealthyLocked (.done outcome)).Meets healthDiscipline true true P (Closes guarded u) := by
  have hdown : healthDiscipline.Stable true fun s => s.health = false := stable_held fun _ _ => rfl
  refine Meets.write (R := fun s => s.health = false) (fun s _ => ?_) (fun _ _ => rfl) hdown ?_
  · exact ⟨fun hraised => Bool.noConfusion hraised, fun _ => Records.healthy_of_health rfl⟩
  refine Meets.read (refl_guar true) fun s hs => ⟨fun s => s.health = false, hs, hdown, ?_⟩
  refine Meets.write (R := fun s => s.health = false) (fun s hs => ?_) (fun _ hs => hs) hdown ?_
  · exact ⟨id, fun _ => Records.healthy_of_health hs⟩
  exact done_unhealthy h (fun s hs => Records.healthy_of_health hs) true

/-- `_is_healthy_locked`: when it says yes, the worker was healthy at that moment. -/
theorem isHealthyLocked_meets {k : Bool → Operation} {Q : Outcome → Records → Prop}
    (hP : healthDiscipline.Stable true P) (hu : ∀ s, P s → UnhealthyIf u s)
    (htrue : (k true).Meets healthDiscipline true true (fun s => P s ∧ FoundHealthy u s) Q)
    (hfalse : (k false).Meets healthDiscipline true true P Q) :
    (isHealthyLocked k).Meets healthDiscipline true true P Q := by
  refine Meets.read (refl_guar true) fun s hs => ?_
  refine ⟨fun t => P t ∧ t.global = s.global, ⟨hs, rfl⟩, hP.and (stable_held fun _ h => h), ?_⟩
  refine Meets.read (refl_guar true) fun t ht => ?_
  cases hhealthy : t.health && s.global.any GlobalRecord.healthy with
  | false => exact ⟨P, ht.1, hP, hfalse⟩
  | true =>
    rw [← ht.2] at hhealthy
    have hnot : ¬ u := fun h => Bool.noConfusion (Eq.trans (Eq.symm hhealthy) (hu t ht.1 h))
    obtain ⟨-, hglobal⟩ := Records.healthy_iff.mp hhealthy
    exact ⟨_, ⟨ht.1, hnot, hglobal⟩, hP.and (stable_foundHealthy u), htrue⟩

/-! ### The operations -/

variable {policy : AdmissionPolicy}

/-- `mark_unhealthy` leaves the worker unhealthy, also if the lock cannot be had. -/
theorem markUnhealthy_meets {outcome : Outcome} (h : guarded = true → u → Refuses outcome) :
    (markUnhealthy outcome).Meets healthDiscipline false false P (Closes guarded u) := by
  refine Meets.write (R := fun s => s.healthy = false) (fun s _ => Or.inr rfl)
    (fun s _ => Records.healthy_of_health rfl) (stable_unhealthy false) ?_
  refine Meets.locked (fun a => stable_closes guarded u a false) (markUnhealthyLocked_meets h) ?_
  exact done_unhealthy h (fun _ hs => hs) false

/-- An operation that marks the worker unhealthy when its section has ended in a certain way. -/
theorem bind_markUnhealthy_meets {p : Operation} {k : Outcome → Operation}
    {R : Outcome → Records → Prop} (hp : p.Meets healthDiscipline false false P R)
    (hk : ∀ a, (k a = .done a ∧ ∀ s, R a s → Closes guarded u a s) ∨
      ∃ b, k a = markUnhealthy b ∧ (guarded = true → u → Refuses b)) :
    (p.bind k).Meets healthDiscipline false false P (Closes guarded u) := by
  refine hp.bind fun a => ?_
  rcases hk a with ⟨hdone, hclosed⟩ | ⟨b, hmark, hrefuses⟩
  · rw [hdone]
    exact Meets.done hclosed
  · rw [hmark]
    exact markUnhealthy_meets hrefuses

/-- `_reject` copies the health that the section has found. -/
theorem reject_meets (g : GlobalRecord) (now : ℚ) :
    (reject g now).Meets healthDiscipline true true (FoundHealthy u) (Closes guarded u) := by
  refine Meets.write (R := fun _ => True) (fun s hs => hs.put_global _) (fun _ _ => trivial)
    (fun _ _ _ _ => trivial) ?_
  exact done_refused (by decide) (by decide) true

theorem pruneLoop_meets {k : Operation}
    (hk : k.Meets healthDiscipline true true (FoundHealthy u) (Closes guarded u)) :
    ∀ candidates, (pruneLoop policy k candidates).Meets healthDiscipline true true (FoundHealthy u)
      (Closes guarded u)
  | [] => hk
  | candidate :: candidates => by
    refine Meets.read (refl_guar true) fun s hs =>
      ⟨FoundHealthy u, hs, stable_foundHealthy u, ?_⟩
    split
    · exact hk
    · exact Meets.write (fun s _ => held_of_same rfl rfl) (fun s hs => hs) (stable_foundHealthy u)
        (pruneLoop_meets hk candidates)

theorem pruneInactivePeers_meets {k : Operation} {now : ℚ}
    (hk : k.Meets healthDiscipline true true (FoundHealthy u) (Closes guarded u)) :
    (pruneInactivePeers policy now k).Meets healthDiscipline true true (FoundHealthy u)
      (Closes guarded u) :=
  Meets.read (refl_guar true) fun _ hs =>
    ⟨FoundHealthy u, hs, stable_foundHealthy u, pruneLoop_meets hk _⟩

/-- The one section that writes that the worker is healthy has found it so. -/
theorem admitSession_meets (peerKey : String) (now : ℚ) (g : GlobalRecord) (peer : PeerRecord) :
    (admitSession policy peerKey now g peer).Meets healthDiscipline true true (FoundHealthy u)
      (Closes guarded u) := by
  unfold admitSession
  split
  · exact done_refused (by decide) (by decide) true
  split
  · exact reject_meets g now
  split
  · exact reject_meets g now
  split
  · exact reject_meets g now
  · refine Meets.write (R := fun _ => ¬ u) (fun s hs => hs.put_global _) (fun s hs => hs.1)
      (fun _ _ _ hs => hs) ?_
    refine Meets.write (R := fun _ => ¬ u) (fun s _ => held_of_same rfl rfl) (fun s hs => hs)
      (fun _ _ _ hs => hs) ?_
    exact done_found (fun h => by rcases h with h | h | h <;> cases h) (fun _ hs => hs) true

theorem acquireSection_meets (peerKey : String) (now : ℚ) :
    (acquireSection policy peerKey now).Meets healthDiscipline true true (UnhealthyIf u)
      (Closes guarded u) := by
  refine Meets.read (refl_guar true) fun s hs => ?_
  refine ⟨fun t => UnhealthyIf u t ∧ t.global = s.global, ⟨hs, rfl⟩,
    (stable_unhealthyIf u true).and (stable_held fun _ h => h), ?_⟩
  refine isHealthyLocked_meets ((stable_unhealthyIf u true).and (stable_held fun _ h => h))
    (fun _ h => h.1) ?_ ?_
  · -- the record that was read first is the one that says the worker is healthy
    simp only [Bool.not_true, Bool.false_eq_true, if_false]
    cases hglobal : s.global with
    | none =>
      refine Meets.done fun t ht => ?_
      obtain ⟨⟨-, hsame⟩, -, g, hg, -⟩ := ht
      exact absurd (hsame.symm.trans hg) (by intro h; cases h)
    | some g =>
      refine Meets.mono (P := FoundHealthy u) ?_ fun t ht => ht.2
      simp only
      split
      · exact done_refused (by decide) (by decide) true
      refine Meets.read (refl_guar true) fun t ht =>
        ⟨FoundHealthy u, ht, stable_foundHealthy u, ?_⟩
      split
      · exact admitSession_meets peerKey now _ _
      · refine pruneInactivePeers_meets ?_
        refine Meets.read (refl_guar true) fun r hr =>
          ⟨FoundHealthy u, hr, stable_foundHealthy u, ?_⟩
        split
        · exact reject_meets _ now
        · exact admitSession_meets peerKey now _ _
  · exact done_refused (by decide) (by decide) true

theorem acquire_meets (peerKey : String) (now : Option ℚ) :
    (acquire policy peerKey now).Meets healthDiscipline false false (UnhealthyIf u)
      (Closes guarded u) := by
  cases now with
  | none => exact done_refused (by decide) (by decide) false
  | some now =>
    refine bind_markUnhealthy_meets (R := Closes guarded u) ?_ fun a => ?_
    · exact Meets.locked (fun a => stable_closes guarded u a false) (acquireSection_meets peerKey now)
        (done_refused (by decide) (by decide) false)
    · split
      · exact Or.inr ⟨_, rfl, fun _ _ => trivial⟩
      · exact Or.inl ⟨rfl, fun _ hs => hs⟩

/-! The operations that give back are not asked to refuse. They mark the worker unhealthy whatever the
error of their section is, the lock that cannot be had included. -/

/-- What a section has established, unless it is an error, which its operation answers by
`mark_unhealthy`. -/
def ClosesOrErrs (u : Prop) (outcome : Outcome) (s : Records) : Prop :=
  (∃ r, outcome = .error r) ∨ Closes false u outcome s

theorem stable_closesOrErrs (u : Prop) (outcome : Outcome) :
    healthDiscipline.Stable false (ClosesOrErrs u outcome) :=
  fun s s' hs h => h.imp_right (stable_closes false u outcome false s s' hs)

/-- A section whose operation marks the worker unhealthy on every error. -/
theorem giveBack_meets {body : Operation} {k : Outcome → Operation}
    (hbody : body.Meets healthDiscipline true true P (Closes false u))
    (herror : ∀ r, k (.error r) = markUnhealthy (.ok .poisoned)) (hok : ∀ a, k (.ok a) = .done (.ok a)) :
    ((locked body (.done (.error .raised))).bind k).Meets healthDiscipline false false P
      (Closes false u) := by
  refine bind_markUnhealthy_meets (R := ClosesOrErrs u) ?_ fun outcome => ?_
  · refine Meets.locked (stable_closesOrErrs u) (hbody.imp fun _ _ h => Or.inr h) ?_
    exact Meets.done fun _ _ => Or.inl ⟨_, rfl⟩
  · cases outcome with
    | error r => exact Or.inr ⟨_, herror r, fun h => Bool.noConfusion h⟩
    | ok a =>
      refine Or.inl ⟨hok a, fun s hs => ?_⟩
      obtain ⟨r, hr⟩ | hclosed := hs
      · cases hr
      · exact hclosed

/-- What has been given back detects nothing. -/
theorem done_givenBack (holding : Bool) :
    (Program.done (.ok .done) : Operation).Meets healthDiscipline holding holding P
      (Closes false u) :=
  Meets.done fun _ _ => ⟨fun h => Bool.noConfusion h, fun h => by rcases h with h | h | h <;> cases h⟩

theorem stable_global (r : Option GlobalRecord) :
    healthDiscipline.Stable true fun s => s.global = r :=
  stable_held fun _ h => h

/-- A release without an active lease. -/
theorem releasePoisoned_meets (g : GlobalRecord) :
    (Program.write (fun s : Records => { s with global := some { g with healthy := false } })
      (.done (.ok .poisoned)) : Operation).Meets healthDiscipline true true
        (fun s => s.global = some g) (Closes false u) := by
  refine Meets.write (R := fun s => s.healthy = false) (fun s hs => ?_) (fun s _ => ?_)
    (stable_unhealthy true) ?_
  · exact held_put_global hs fun h => Bool.noConfusion h
  · show (s.health && false) = false
    exact Bool.and_false _
  · exact done_unhealthy (fun h => Bool.noConfusion h) (fun _ hs => hs) true

theorem releaseSection_meets (peerKey : String) (now : ℚ) :
    (releaseSection peerKey now).Meets healthDiscipline true true P (Closes false u) := by
  refine Meets.read (refl_guar true) fun s _ =>
    ⟨fun t => t.global = s.global, rfl, stable_global s.global, ?_⟩
  cases s.global with
  | none =>
    refine Meets.done fun t ht => ⟨fun h => Bool.noConfusion h, fun _ => ?_⟩
    rw [Records.healthy, ht]
    exact Bool.and_false _
  | some g =>
    refine Meets.read (refl_guar true) fun t ht =>
      ⟨fun t => t.global = some g, ht, stable_global (some g), ?_⟩
    split
    · split
      · exact releasePoisoned_meets g
      · refine Meets.write (R := fun _ => True) (fun s hs => held_put_global hs id)
          (fun _ _ => trivial) (fun _ _ _ _ => trivial) ?_
        refine Meets.write (R := fun _ => True) (fun s _ => held_of_same rfl rfl)
          (fun _ _ => trivial) (fun _ _ _ _ => trivial) ?_
        exact done_givenBack true
    · exact releasePoisoned_meets g

theorem release_meets (peerKey : String) (now : Option ℚ) :
    (release peerKey now).Meets healthDiscipline false false P (Closes false u) := by
  cases now with
  | none => exact markUnhealthy_meets fun h => Bool.noConfusion h
  | some now => exact giveBack_meets (releaseSection_meets peerKey now) (fun _ => rfl) fun _ => rfl

theorem unregisterSession_meets (key : String) (handlerIndex : Int) (routeToken : String) :
    (unregisterSession key handlerIndex routeToken).Meets healthDiscipline false false P
      (Closes false u) := by
  refine giveBack_meets ?_ (fun _ => rfl) fun _ => rfl
  refine Meets.read (refl_guar true) fun s _ =>
    ⟨fun _ => True, trivial, fun _ _ _ _ => trivial, ?_⟩
  split
  · exact markUnhealthyLocked_meets fun h => Bool.noConfusion h
  · exact Meets.write (R := fun _ => True) (fun s _ => held_of_same rfl rfl) (fun _ _ => trivial)
      (fun _ _ _ _ => trivial) (done_givenBack true)

theorem releasePush_meets :
    releasePush.Meets healthDiscipline false false P (Closes false u) := by
  refine giveBack_meets ?_ (fun _ => rfl) fun _ => rfl
  refine Meets.read (refl_guar true) fun s _ =>
    ⟨fun _ => True, trivial, fun _ _ _ _ => trivial, ?_⟩
  split
  · exact markUnhealthyLocked_meets fun h => Bool.noConfusion h
  split
  · exact markUnhealthyLocked_meets fun h => Bool.noConfusion h
  · exact Meets.write (R := fun _ => True) (fun s _ => held_of_same rfl rfl) (fun _ _ => trivial)
      (fun _ _ _ _ => trivial) (done_givenBack true)

/-! The operations that ask for something go on only where they have found the worker healthy. -/

/-- A section that begins with `_is_healthy_locked` and refuses otherwise. -/
theorem asking_meets {k : Operation}
    (hk : k.Meets healthDiscipline true true (FoundHealthy u) (Closes guarded u)) :
    (locked (isHealthyLocked fun healthy => if !healthy then .done (.error .unavailable) else k)
      (.done (.error .unavailable))).Meets healthDiscipline false false (UnhealthyIf u)
        (Closes guarded u) := by
  refine Meets.locked (fun a => stable_closes guarded u a false) ?_
    (done_refused (by decide) (by decide) false)
  refine isHealthyLocked_meets (stable_unhealthyIf u true) (fun _ h => h) ?_ ?_
  · exact hk.mono fun _ h => h.2
  · exact done_refused (by decide) (by decide) true

/-- Reading keeps what the section has found. -/
theorem found_read {γ : Type} {f : Records → γ} {k : γ → Operation}
    (hk : ∀ c, (k c).Meets healthDiscipline true true (FoundHealthy u) (Closes guarded u)) :
    (Program.read f k).Meets healthDiscipline true true (FoundHealthy u) (Closes guarded u) :=
  Meets.read (refl_guar true) fun _ hs => ⟨FoundHealthy u, hs, stable_foundHealthy u, hk _⟩

/-- A section that has found the worker healthy and ends well. -/
theorem found_done {a : Answer} (h : a ≠ .poisoned) :
    (Program.done (.ok a) : Operation).Meets healthDiscipline true true (FoundHealthy u)
      (Closes guarded u) := by
  refine done_found (fun hdetects => ?_) (fun _ hs => hs.1) true
  rcases hdetects with heq | heq | heq
  · exact h (Except.ok.inj heq)
  · cases heq
  · cases heq

theorem requireHealthy_meets :
    requireHealthy.Meets healthDiscipline false false (UnhealthyIf u) (Closes guarded u) := by
  refine Meets.read (refl_guar false) fun s hs =>
    ⟨UnhealthyIf u, hs, stable_unhealthyIf u false, ?_⟩
  split
  · exact done_refused (by decide) (by decide) false
  · refine Meets.locked (fun a => stable_closes guarded u a false) ?_
      (done_refused (by decide) (by decide) false)
    refine isHealthyLocked_meets (stable_unhealthyIf u true) (fun _ h => h) ?_ ?_
    · exact (found_done (by decide)).mono fun _ h => h.2
    · exact done_refused (by decide) (by decide) true

theorem registerSession_meets (key : String) (handlerIndex : Int) (routeToken : String) :
    (registerSession policy key handlerIndex routeToken).Meets healthDiscipline false false
      (UnhealthyIf u) (Closes guarded u) := by
  unfold registerSession
  split
  · exact done_refused (by decide) (by decide) false
  refine asking_meets (found_read fun present => ?_)
  split
  · exact done_refused (by decide) (by decide) true
  refine found_read fun routes => ?_
  split
  · exact done_refused (by decide) (by decide) true
  · exact Meets.write (fun s _ => held_of_same rfl rfl) (fun s hs => hs) (stable_foundHealthy u)
      (found_done (by intro h; cases h))

theorem resolveSession_meets (key : String) :
    (resolveSession key).Meets healthDiscipline false false (UnhealthyIf u) (Closes guarded u) := by
  refine asking_meets (found_read fun route => ?_)
  split
  · exact found_done (by intro h; cases h)
  split
  · exact markUnhealthyLocked_meets fun _ _ => trivial
  · exact found_done (by intro h; cases h)

theorem reservePushLocked_meets {k : Operation}
    (hk : k.Meets healthDiscipline true true (FoundHealthy u) (Closes guarded u)) :
    (reservePushLocked policy k).Meets healthDiscipline true true (FoundHealthy u)
      (Closes guarded u) := by
  refine found_read fun pending => ?_
  split
  · exact markUnhealthyLocked_meets fun _ _ => trivial
  split
  · exact markUnhealthyLocked_meets fun _ _ => trivial
  split
  · exact done_refused (by decide) (by decide) true
  · exact Meets.write (fun s _ => held_of_same rfl rfl) (fun s hs => hs) (stable_foundHealthy u) hk

theorem reserveOutboundPush_meets :
    (reserveOutboundPush policy).Meets healthDiscipline false false (UnhealthyIf u)
      (Closes guarded u) :=
  asking_meets (reservePushLocked_meets (found_done (by decide)))

theorem reservePush_meets (key : String) :
    (reservePush policy key).Meets healthDiscipline false false (UnhealthyIf u)
      (Closes guarded u) := by
  refine asking_meets (found_read fun route => ?_)
  split
  · exact done_refused (by decide) (by decide) true
  split
  · exact markUnhealthyLocked_meets fun _ _ => trivial
  · exact reservePushLocked_meets (found_done (by intro h; cases h))

/-- The end of `_snapshot`, once it has seen whether the worker is healthy. -/
theorem snapshotTail_meets {healthy : Bool} (g : GlobalRecord)
    (hP : ∀ s, P s → healthy = true → ¬ u) (hstable : healthDiscipline.Stable true P) :
    (Program.read Records.pendingPushes fun pending =>
      match pending with
      | none => markUnhealthyLocked (.done (.error .corrupted))
      | some n =>
        if n < 0 then
          markUnhealthyLocked (.done (.error .corrupted))
        else
          read trackedPeerCount fun peers =>
          read activeSessionRoutes fun routes =>
          .done (.ok (.snapshot ⟨g.active, peers, routes, n, g.accepted, g.rejected, healthy⟩)) :
      Operation).Meets healthDiscipline true true P (Closes guarded u) := by
  refine Meets.read (refl_guar true) fun s hs => ⟨P, hs, hstable, ?_⟩
  split
  · exact markUnhealthyLocked_meets fun _ _ => trivial
  split
  · exact markUnhealthyLocked_meets fun _ _ => trivial
  refine Meets.read (refl_guar true) fun s hs => ⟨P, hs, hstable, ?_⟩
  refine Meets.read (refl_guar true) fun s hs => ⟨P, hs, hstable, ?_⟩
  refine Meets.done fun s hs => ⟨fun _ hu => ?_, fun h => by rcases h with h | h | h <;> cases h⟩
  show healthy = false
  exact eq_false_of_ne_true fun htrue => hP s hs htrue hu

theorem snapshot_meets :
    snapshot.Meets healthDiscipline false false (UnhealthyIf u) (Closes guarded u) := by
  refine bind_markUnhealthy_meets (R := Closes guarded u) ?_ fun a => ?_
  · refine Meets.locked (fun a => stable_closes guarded u a false) ?_
      (done_refused (by decide) (by decide) false)
    refine Meets.read (refl_guar true) fun s hs =>
      ⟨fun t => UnhealthyIf u t ∧ t.global = s.global, ⟨hs, rfl⟩,
        (stable_unhealthyIf u true).and (stable_global s.global), ?_⟩
    cases s.global with
    | none =>
      refine Meets.done fun t ht => ⟨fun _ _ => trivial, fun _ => ?_⟩
      rw [Records.healthy, ht.2]
      exact Bool.and_false _
    | some g =>
      have hstable := (stable_unhealthyIf u true).and (stable_global (some g))
      refine isHealthyLocked_meets hstable (fun _ h => h.1) ?_ ?_
      · exact snapshotTail_meets g (fun _ h _ => h.2.1) (hstable.and (stable_foundHealthy u))
      · exact snapshotTail_meets g (fun _ _ h => Bool.noConfusion h) hstable
  · split
    · exact Or.inr ⟨_, rfl, fun _ _ => trivial⟩
    · exact Or.inl ⟨rfl, fun _ hs => hs⟩

/-! ### Pools of operations -/

/-- The operations that are refused, or report so, in an unhealthy worker. -/
inductive Asks (policy : AdmissionPolicy) : Operation → Prop
  | acquire (peerKey : String) (now : Option ℚ) : Asks policy (acquire policy peerKey now)
  | requireHealthy : Asks policy requireHealthy
  | registerSession (key : String) (handlerIndex : Int) (routeToken : String) :
      Asks policy (registerSession policy key handlerIndex routeToken)
  | resolveSession (key : String) : Asks policy (resolveSession key)
  | reserveOutboundPush : Asks policy (reserveOutboundPush policy)
  | reservePush (key : String) : Asks policy (reservePush policy key)
  | snapshot : Asks policy snapshot

/-- The operations of `AdmissionState`. -/
inductive IsOperation (policy : AdmissionPolicy) : Operation → Prop
  | asks {p : Operation} : Asks policy p → IsOperation policy p
  | release (peerKey : String) (now : Option ℚ) : IsOperation policy (release peerKey now)
  | markUnhealthy : IsOperation policy (markUnhealthy (.ok .poisoned))
  | unregisterSession (key : String) (handlerIndex : Int) (routeToken : String) :
      IsOperation policy (unregisterSession key handlerIndex routeToken)
  | releasePush : IsOperation policy releasePush

theorem Asks.meets {p : Operation} (h : Asks policy p) :
    p.Meets healthDiscipline false false (UnhealthyIf u) (Closes guarded u) := by
  cases h with
  | acquire peerKey now => exact acquire_meets peerKey now
  | requireHealthy => exact requireHealthy_meets
  | registerSession key handlerIndex routeToken =>
    exact registerSession_meets key handlerIndex routeToken
  | resolveSession key => exact resolveSession_meets key
  | reserveOutboundPush => exact reserveOutboundPush_meets
  | reservePush key => exact reservePush_meets key
  | snapshot => exact snapshot_meets

/-- Each operation keeps to the discipline, and what it detects leaves the worker unhealthy. -/
theorem IsOperation.meets {p : Operation} (h : IsOperation policy p) :
    p.Meets healthDiscipline false false (fun _ => True) (Closes false False) := by
  cases h with
  | asks hasks => exact hasks.meets.mono fun _ _ h => h.elim
  | release peerKey now => exact release_meets peerKey now
  | markUnhealthy => exact markUnhealthy_meets fun h => Bool.noConfusion h
  | unregisterSession key handlerIndex routeToken =>
    exact unregisterSession_meets key handlerIndex routeToken
  | releasePush => exact releasePush_meets

/-- The shared state before any operation has started. -/
def Quiet (records : Records) : Pool Records Outcome := ⟨records, none, []⟩

/-- Operations of any handlers, started at any time. -/
def Runs (policy : AdmissionPolicy) : Pool Records Outcome → PoolAction Records Outcome → Prop :=
  Pool.Spawns (IsOperation policy)

abbrev admissionMachine : Machine (Pool Records Outcome) (PoolAction Records Outcome) :=
  poolMachine Records Outcome

/-- The programs of a pool keep to the discipline from where they stand, and detect nothing without
marking the worker. -/
theorem reach_meets {records : Records} {s : Pool Records Outcome}
    (h : admissionMachine.Reach (Runs policy) (Quiet records) s) :
    s.Meets healthDiscipline (fun _ => Closes false False) ∧ s.InRange := by
  have hquiet : (Quiet records).Meets healthDiscipline fun _ => Closes false False :=
    fun i p hp => by cases hp
  have hnone : (Quiet records).InRange := fun i hi => by cases hi
  obtain ⟨hmeets, hrange, -, -⟩ := hquiet.reach hnone (fun p hp j _ => hp.meets) h
  exact ⟨hmeets, hrange⟩

/-- An operation that waits to start in an unhealthy worker will be refused. -/
theorem meets_of_unhealthy {s : Pool Records Outcome} {i : Nat} {p : Operation}
    (hmeets : s.Meets healthDiscipline fun _ => Closes false False)
    (hunhealthy : s.shared.healthy = false) (hp : s.threads[i]? = some p) (hasks : Asks policy p) :
    s.Meets healthDiscipline fun j => Closes true (j = i) := by
  intro j q hq
  obtain ⟨P, hP, hstable, hq'⟩ := hmeets j q hq
  by_cases hj : j = i
  · subst hj
    cases hp.symm.trans hq
    have hstarts : p.Meets healthDiscipline false false (UnhealthyIf (j = j)) (Closes true (j = j)) :=
      hasks.meets
    have hfree : s.holds j = false :=
      hq'.holding_eq hstarts hP fun _ => hunhealthy
    rw [hfree]
    exact ⟨UnhealthyIf (j = j), fun _ => hunhealthy, stable_unhealthyIf _ false, hstarts⟩
  · refine ⟨P, hP, hstable, hq'.imp fun outcome t ht => ?_⟩
    exact ⟨fun _ h => absurd h hj, ht.2⟩

/-- Once the worker is unhealthy it stays so, and what asks for admission later is refused. -/
theorem refused_of_unhealthy {records : Records} {s s' : Pool Records Outcome}
    (hreach : admissionMachine.Reach (Runs policy) (Quiet records) s)
    (hunhealthy : s.shared.healthy = false) (hreach' : admissionMachine.Reach (Runs policy) s s') :
    s'.shared.healthy = false ∧
      ∀ (i : Nat) (p : Operation) (outcome : Outcome), s.threads[i]? = some p → Asks policy p →
        s'.threads[i]? = some (.done outcome) → Refuses outcome := by
  obtain ⟨hmeets, hrange⟩ := reach_meets hreach
  refine ⟨?_, fun i p outcome hp hasks hdone => ?_⟩
  · obtain ⟨-, -, -, hkept⟩ := hmeets.reach hrange (fun p hp j _ => hp.meets) hreach'
    exact hkept _ (stable_unhealthy false) hunhealthy
  · have hi : i < s.threads.length := (List.getElem?_eq_some_iff.mp hp).1
    have hbegun := meets_of_unhealthy hmeets hunhealthy hp hasks
    obtain ⟨hmeets', -⟩ := hbegun.reach hrange
      (fun q hq j hj => hq.meets.imp fun a t ht =>
        ⟨fun _ h => absurd hi (by omega), ht.2⟩) hreach'
    exact (hmeets'.result hdone).1 rfl rfl

/-- A handler has given the worker up while another one was about to ask for a session. -/
def givenUp : Pool Records Outcome where
  shared := { Records.initial .single 0 with health := false }
  holder := none
  threads := [acquire .single "peer:a" (some 1),
    locked (markUnhealthyLocked (.done (.ok .poisoned))) (.done (.ok .poisoned))]

/-- The other one is refused. -/
def turnedAway : Pool Records Outcome :=
  { givenUp with
    threads := [.done (.error .unavailable),
      locked (markUnhealthyLocked (.done (.ok .poisoned))) (.done (.ok .poisoned))] }

end Drift.Server
