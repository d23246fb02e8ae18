import Drift.Node.AutomaticPlacement
import Drift.Node.WorkerSafety

/-!
# Automatic placement and the intent to run

`pause_worker_for_reconfiguration` clears the flag that says that a worker is to run; only
`replace_launch` sets it again, from a local variable of the reconcile. A call that raises in between
loses the variable, and the next reconcile reads the cleared flag: the worker gets its new launch and
stays stopped.

`IntentKept` is what the loop maintains where no call raises at such a moment. A worker that is not in
hand and is intended to run is wanted; for the one in hand the `start` argument is `some true`.

* `placement_keeps_intent` — the runs without such a call;
* `raising_pause_loses_intent` — one that has it.
-/

namespace Drift.Node

open Drift.Lib

variable {W : Type} [DecidableEq W]

/-! ### The flags of a worker -/

/-- What takes the intent to run a worker back: the policy, a pause or the shutdown. -/
theorem Worker.desiredRunning_cleared {r r' : Worker} {c : Change} (hnext : r.next c = some r')
    (hdesired : r.desiredRunning = true) (hcleared : r'.desiredRunning = false) :
    c = .disown ∨ (∃ bySchedule, c = .refuse bySchedule false) ∨
      (∃ operatorAction, c = .beginPause operatorAction) ∨ c = .shutDown := by
  have hchanged : r'.desiredRunning ≠ r.desiredRunning := by
    rw [hdesired, hcleared]
    exact Bool.false_ne_true
  cases c with
  | disown => exact Or.inl rfl
  | refuse bySchedule deferred =>
    obtain rfl := Option.some.inj hnext
    cases deferred with
    | false => exact Or.inr (Or.inl ⟨bySchedule, rfl⟩)
    | true => exact absurd (Bool.true_and _) hchanged
  | beginPause operatorAction => exact Or.inr (Or.inr (Or.inl ⟨operatorAction, rfl⟩))
  | shutDown => exact Or.inr (Or.inr (Or.inr rfl))
  | exit exited | resume bySchedule =>
    obtain rfl := Option.some.inj hnext
    exact absurd rfl hchanged
  | refresh now =>
    obtain rfl := Option.some.inj hnext
    obtain h | ⟨_, _, _, -, -, h⟩ := r.refresh_cases now <;> exact absurd (by rw [h]) hchanged
  | want =>
    simp only [Worker.next] at hnext
    split at hnext
    · obtain rfl := Option.some.inj hnext
      exact (Bool.noConfusion hcleared)
    · cases hnext
  | start | failToStart now =>
    simp only [Worker.next] at hnext
    split at hnext
    · cases hnext
    · obtain rfl := Option.some.inj hnext
      exact absurd rfl hchanged
  | suspendForSchedule | suspendForResource =>
    obtain rfl := Option.some.inj hnext
    refine absurd ?_ hchanged
    simp only [Worker.suspendForSchedule, Worker.suspendForResource, Worker.stopForPolicy]
    split
    · rfl
    · split <;> rfl
  | pauseTerminated i =>
    obtain ⟨p, -, -, rfl⟩ := Worker.pauseTerminated_cases hnext
    refine absurd ?_ hchanged
    simp only [Worker.dropProcess]
    split <;> rfl
  | pauseJoined i =>
    obtain ⟨_, _, rfl | ⟨_, rfl⟩⟩ := Worker.pauseJoined_cases (Or.inl hnext) <;>
      exact absurd rfl hchanged
  | pauseTimedOut i =>
    obtain ⟨_, _, rfl | ⟨_, rfl⟩⟩ := Worker.pauseJoined_cases (Or.inr hnext) <;>
      exact absurd rfl hchanged
  | pauseFailed i | suspensionFailed i =>
    simp only [Worker.next, Worker.pauseFailed, Worker.suspensionFailed] at hnext
    split at hnext
    · obtain rfl := Option.some.inj hnext
      exact absurd rfl hchanged
    · cases hnext
  | suspensionTerminated i =>
    simp only [Worker.next, Worker.suspensionTerminated] at hnext
    split at hnext
    · split at hnext
      · cases hnext
      · obtain rfl := Option.some.inj hnext
        refine absurd ?_ hchanged
        simp only [Worker.endSuspension, Worker.dropProcess]
        split <;> rfl
    · cases hnext
  | assign launch wanted =>
    -- only a worker that is not wanted is assigned a launch
    simp only [Worker.next] at hnext
    split at hnext
    · cases hnext
    · next hbusy => exact absurd (by simp [Worker.busy, hdesired]) hbusy

/-! ### The calls of the reconcile -/

namespace Supervisor

/-- Whether `replace_launch` raises. -/
def refusesReplace (s : Supervisor W) (w : W) (exited : W → List Nat) (now : Rat) : Bool :=
  decide (w ∉ s.workers) || s.closed || (((s.exit exited).worker w).refresh now).busy

/-- The flags of a worker are as they were. -/
def SameFlags (r r' : Worker) : Prop :=
  r'.desiredRunning = r.desiredRunning ∧ r'.operatorPaused = r.operatorPaused

theorem refresh_flags (r : Worker) (now : Rat) : SameFlags r (r.refresh now) := by
  obtain h | ⟨p, state, nextRestartAt, -, -, h⟩ := r.refresh_cases now
  · rw [h]
    exact ⟨rfl, rfl⟩
  · rw [h]
    exact ⟨rfl, rfl⟩

/-- A spawn that defers what it cannot do keeps the flags of an admitted worker, and raises only where
the supervisor is closed. -/
theorem deferred_spawn {s : Supervisor W} {w : W} (a : SpawnAnswers W)
    (hadmitted : (s.worker w).launch.policyAdmitted = true) :
    SameFlags (s.worker w) ((s.spawnLocked w true true a).2.worker w) ∧
      (s.closed = false → ∃ started, (s.spawnLocked w true true a).1 = .ok started) := by
  rw [spawnLocked_eq]
  obtain ⟨honly, exited, hself⟩ := s.spawnPlan_free w a
  have hfits := s.spawnPlan_fits w a
  cases hplan : (s.spawnPlan w a).1 with
  | disown =>
    rw [hplan] at hfits
    have hrefused : (s.worker w).launch.policyAdmitted = false := by
      have : (s.spawnPlan w a).2.worker w = (s.worker w).exit exited := hself
      simpa [SpawnPlan.Fits, this, Worker.exit] using hfits
    rw [hadmitted] at hrefused
    cases hrefused
  | refuse bySchedule reason =>
    cases bySchedule <;> simp [carryOut, hself, SameFlags, Worker.refuse, Worker.exit]
  | closed =>
    refine ⟨by simp [carryOut, hself, SameFlags, Worker.exit], fun hopen => ?_⟩
    -- the plan is made with the supervisor's own flag
    have hclosed : s.closed = true := by
      revert hplan
      unfold spawnPlan
      rw [hadmitted]
      simp only [Bool.true_eq_false, if_false]
      split
      · simp
      split
      · simp
      split
      · next hclosed => exact fun _ => hclosed
      · simp only
        split
        · simp
        split <;> simp
    rw [hopen] at hclosed
    cases hclosed
  | running => simp [carryOut, hself, SameFlags, Worker.exit]
  | start => simp [carryOut, hself, SameFlags, Worker.start, Worker.exit]
  | failToStart => simp [carryOut, hself, SameFlags, Worker.failToStart, Worker.exit]

/-- `replace_launch` leaves the other workers' flags alone. -/
theorem replaceLaunch_others {s : Supervisor W} {w w' : W} (hne : w' ≠ w) (launch : WorkerLaunch)
    (start : Option Bool) (exited : W → List Nat) (now : Rat) (a : SpawnAnswers W) :
    SameFlags (s.worker w') ((s.replaceLaunch w launch start exited now a).2.worker w') := by
  have hpart : WorkerPart Machine.always w s (s.replaceLaunch w launch start exited now a).2 :=
    replaceLaunch_part (fun _ _ _ => trivial) fun _ => spawnMeets_always _ _ _ _ _
  obtain ⟨exited', hexit⟩ := hpart.others w' hne
  rw [hexit]
  exact ⟨rfl, rfl⟩

/-- A `replace_launch` that raises leaves the flags of its worker alone. -/
theorem replaceLaunch_refused {s : Supervisor W} {w : W} (launch : WorkerLaunch)
    (start : Option Bool) {exited : W → List Nat} {now : Rat} (a : SpawnAnswers W)
    (h : s.refusesReplace w exited now = true) :
    (∃ e, (s.replaceLaunch w launch start exited now a).1 = .error e) ∧
      SameFlags (s.worker w) ((s.replaceLaunch w launch start exited now a).2.worker w) := by
  unfold replaceLaunch
  split
  · exact ⟨⟨_, rfl⟩, rfl, rfl⟩
  next hmem =>
  split
  · exact ⟨⟨_, rfl⟩, rfl, rfl⟩
  next hopen =>
  have hbusy : (((s.exit exited).worker w).refresh now).busy = true := by
    simpa [refusesReplace, hmem, hopen] using h
  simp only [hbusy, if_true, put_worker_self]
  obtain ⟨hdesired, hpaused⟩ := refresh_flags ((s.exit exited).worker w) now
  exact ⟨⟨_, rfl⟩, hdesired, hpaused⟩

/-- One that does not raise writes the intent it was given, for a launch that is admitted and a worker
that the operator has not paused. -/
theorem replaceLaunch_accepted {s : Supervisor W} {w : W} (launch : WorkerLaunch)
    (start : Option Bool) {exited : W → List Nat} {now : Rat} (a : SpawnAnswers W)
    (h : s.refusesReplace w exited now = false) :
    (∃ changed, (s.replaceLaunch w launch start exited now a).1 = .ok changed) ∧
      ((s.replaceLaunch w launch start exited now a).2.worker w).desiredRunning =
        (start.getD launch.autoStart && !(s.worker w).operatorPaused && launch.policyAdmitted) ∧
      ((s.replaceLaunch w launch start exited now a).2.worker w).operatorPaused =
        (s.worker w).operatorPaused := by
  simp only [refusesReplace, Bool.or_eq_false_iff, decide_eq_false_iff_not, not_not] at h
  obtain ⟨⟨hmem, hopen⟩, hidle⟩ := h
  unfold replaceLaunch
  rw [if_neg (not_not.mpr hmem), if_neg (by simp [hopen])]
  simp only [hidle, Bool.false_eq_true, if_false]
  obtain ⟨-, hpaused⟩ := refresh_flags ((s.exit exited).worker w) now
  have hpaused' : (((s.exit exited).worker w).refresh now).operatorPaused =
      (s.worker w).operatorPaused := hpaused
  rw [hpaused']
  generalize hshould : (start.getD launch.autoStart && !(s.worker w).operatorPaused) = should
  split
  · next hspawn =>
    simp only [Bool.and_eq_true] at hspawn
    obtain ⟨-, hshould', hadmitted⟩ := hspawn
    generalize hput : (s.exit exited).put w
      { (((s.exit exited).worker w).refresh now).assign launch with
        desiredRunning := should && launch.policyAdmitted } = t
    have hself : t.worker w = { (((s.exit exited).worker w).refresh now).assign launch with
        desiredRunning := should && launch.policyAdmitted } := by
      rw [← hput, put_worker_self]
    obtain ⟨⟨hdesired, hkept⟩, hok⟩ := deferred_spawn (s := t) (w := w) a
      (by rw [hself]; exact hadmitted)
    obtain ⟨started, hstarted⟩ := hok (by rw [← hput]; exact hopen)
    refine ⟨⟨decide ((((s.exit exited).worker w).refresh now).launch ≠ launch), ?_⟩, ?_, ?_⟩
    · simp only [hstarted, Except.map]
    · show ((t.spawnLocked w true true a).2.worker w).desiredRunning = _
      rw [hdesired, hself]
    · show ((t.spawnLocked w true true a).2.worker w).operatorPaused = _
      rw [hkept, hself]
      exact hpaused'
  · refine ⟨⟨_, rfl⟩, ?_, ?_⟩
    · rw [put_worker_self]
    · rw [put_worker_self]
      exact hpaused'

end Supervisor

/-! ### The condition -/

namespace PlacementState

open Supervisor

/-- The worker for which a call raises, `pause_worker_for_reconfiguration` or `replace_launch`. -/
def raisesFor (s : PlacementState W) : PlacementEvent W → Option W
  | .pauseEnds e _ =>
    match s.reconcile with
    | .waiting _ hand _ =>
      if e.raises (s.supervisor.worker hand.worker) then some hand.worker else none
    | _ => none
  | .replace exited now _ =>
    match s.reconcile with
    | .replacing _ hand =>
      if s.supervisor.refusesReplace hand.worker exited now then some hand.worker else none
    | _ => none
  | _ => none

/-- **The condition**: no call raises for a worker that is intended to run once the reconcile has
cleared its flag. -/
def KeepsIntent (s : PlacementState W) (l : PlacementEvent W) : Prop :=
  ∀ w ∈ s.raisesFor l, s.intended w = true → (s.supervisor.worker w).desiredRunning = true

instance (s : PlacementState W) (l : PlacementEvent W) : Decidable (s.KeepsIntent l) :=
  inferInstanceAs (Decidable (∀ w ∈ s.raisesFor l, _ → _))

/-! ### The invariant -/

/-- A worker that is intended to run is wanted. -/
def Wanted (s : PlacementState W) (w : W) : Prop :=
  s.intended w = true → (s.supervisor.worker w).desiredRunning = true

/-- The workers that are intended to run had launches that the policy admitted. -/
def AdmittedBefore (s : PlacementState W) (round : Round W) : Prop :=
  ∀ w launch, s.intended w = true → round.previous w = some launch → launch.policyAdmitted = true

/-- Every worker but the one in hand is wanted if it is intended to run, and that one is going to be
started. -/
def TurnKept (s : PlacementState W) (round : Round W) (hand : InHand W) : Prop :=
  s.AdmittedBefore round ∧ (∀ w ≠ hand.worker, s.Wanted w) ∧
    (s.intended hand.worker = true → hand.start = some true)

/-- What the loop maintains, by where it stands. -/
def PhaseKept (s : PlacementState W) : Prop :=
  match s.reconcile with
  | .idle | .planning => ∀ w, s.Wanted w
  | .turning round => s.AdmittedBefore round ∧ ∀ w, s.Wanted w
  | .pausing round hand | .waiting round hand _ | .replacing round hand => s.TurnKept round hand

/-- **The invariant.** -/
structure IntentKept (s : PlacementState W) : Prop where
  sound : Each Worker.Sound s.supervisor
  unpaused : ∀ w, s.intended w = true → (s.supervisor.worker w).operatorPaused = false
  phase : s.PhaseKept

/-! ### Steps -/

variable {s s' : PlacementState W}

omit [DecidableEq W] in
theorem Wanted.of_flags {w : W} (h : s.Wanted w) (hintended : s'.intended w = true → s.intended w = true)
    (hflags : SameFlags (s.supervisor.worker w) (s'.supervisor.worker w)) : s'.Wanted w := by
  intro hw
  rw [hflags.1]
  exact h (hintended hw)

omit [DecidableEq W] in
/-- What the reconcile maintains survives what takes intents back and leaves the flags of the workers
that are still intended to run. -/
theorem PhaseKept.of_kept (h : s.PhaseKept) (hreconcile : s'.reconcile = s.reconcile)
    (hintended : ∀ w, s'.intended w = true → s.intended w = true)
    (hflag : ∀ w, s'.intended w = true → (s.supervisor.worker w).desiredRunning = true →
      (s'.supervisor.worker w).desiredRunning = true) : s'.PhaseKept := by
  have hwanted : ∀ w, s.Wanted w → s'.Wanted w := fun w hw hw' => hflag w hw' (hw (hintended w hw'))
  have hbefore : ∀ round, s.AdmittedBefore round → s'.AdmittedBefore round :=
    fun round hround w launch hw => hround w launch (hintended w hw)
  have hturn : ∀ round hand, s.TurnKept round hand → s'.TurnKept round hand :=
    fun round hand hkept => ⟨hbefore round hkept.1, fun w hne => hwanted w (hkept.2.1 w hne),
      fun hw => hkept.2.2 (hintended _ hw)⟩
  unfold PhaseKept at h ⊢
  rw [hreconcile]
  cases hphase : s.reconcile with
  | idle | planning =>
    rw [hphase] at h
    exact fun w => hwanted w (h w)
  | turning round =>
    rw [hphase] at h
    exact ⟨hbefore round h.1, fun w => hwanted w (h.2 w)⟩
  | pausing round hand | waiting round hand _ | replacing round hand =>
    rw [hphase] at h
    exact hturn round hand h

/-- Every worker is sound, whatever the service does: a step of it is a region of the supervisor, or
leaves the supervisor alone. -/
theorem next_supervisor {l : PlacementEvent W} (hnext : s.next l = some s') :
    s'.supervisor = s.supervisor ∨ ∃ ev, s.supervisor.next ev = some s'.supervisor := by
  cases l with
  | other ev =>
    simp only [next] at hnext
    split at hnext
    · cases hnext
    · obtain ⟨t, ht, rfl⟩ := Option.map_eq_some_iff.mp hnext
      exact Or.inr ⟨ev, ht⟩
  | start | fail | plan launches | finish =>
    simp only [next] at hnext
    split at hnext
    · obtain rfl := Option.some.inj hnext
      exact Or.inl rfl
    · cases hnext
  | turn exited now =>
    simp only [next] at hnext
    split at hnext
    · split at hnext
      · obtain rfl := Option.some.inj hnext
        exact Or.inl rfl
      · split at hnext
        · obtain rfl := Option.some.inj hnext
          exact Or.inl rfl
        · obtain rfl := Option.some.inj hnext
          exact Or.inr ⟨.snapshots exited now, rfl⟩
    · cases hnext
  | pause =>
    simp only [next] at hnext
    split at hnext
    · obtain ⟨t, ht, rfl⟩ := Option.map_eq_some_iff.mp hnext
      exact Or.inr ⟨_, ht⟩
    · cases hnext
  | pauseEnds e i =>
    simp only [next] at hnext
    split at hnext
    · split at hnext
      · obtain ⟨t, ht, rfl⟩ := Option.map_eq_some_iff.mp hnext
        exact Or.inr ⟨_, ht⟩
      · cases hnext
    · cases hnext
  | replace exited now a =>
    simp only [next] at hnext
    split at hnext
    · next round hand hphase =>
      have hregion : s.supervisor.next
          (.replaceLaunch hand.worker hand.launch hand.start exited now a) =
            some (s.supervisor.replaceLaunch hand.worker hand.launch hand.start exited now a).2 := rfl
      split at hnext
      · next _ t hreplace =>
        obtain rfl := Option.some.inj hnext
        rw [hreplace] at hregion
        exact Or.inr ⟨_, hregion⟩
      · next _ t hreplace =>
        obtain rfl := Option.some.inj hnext
        rw [hreplace] at hregion
        exact Or.inr ⟨_, hregion⟩
    · cases hnext

theorem sound_next {l : PlacementEvent W} (h : Each Worker.Sound s.supervisor)
    (hnext : s.next l = some s') : Each Worker.Sound s'.supervisor := by
  obtain hsame | ⟨ev, hev⟩ := next_supervisor hnext
  · rw [hsame]
    exact h
  · intro w
    exact (h w).reach (next_reach (fun _ _ _ => trivial) (s.supervisor.meets_always ev) hev w)

/-- The regions that end a pause leave the flags of every worker alone. -/
theorem pauseEnds_flags {t t' : Supervisor W} {e : PauseEnd} {w : W} {i : Nat}
    (h : t.next (e.event w i) = some t') (w' : W) : SameFlags (t.worker w') (t'.worker w') := by
  have hput : ∀ r : Worker, SameFlags (t.worker w) r → SameFlags (t.worker w') ((t.put w r).worker w') := by
    intro r hr
    by_cases hw : w' = w
    · rw [hw, put_worker_self]
      exact hr
    · rw [put_worker_ne t r hw]
      exact ⟨rfl, rfl⟩
  cases e with
  | terminated =>
    obtain ⟨r, hr, rfl⟩ := Option.map_eq_some_iff.mp h
    obtain ⟨p, -, -, rfl⟩ := Worker.pauseTerminated_cases hr
    refine hput _ ?_
    unfold Worker.dropProcess
    split <;> exact ⟨rfl, rfl⟩
  | failed =>
    obtain ⟨r, hr, rfl⟩ := Option.map_eq_some_iff.mp h
    refine hput _ ?_
    unfold Worker.pauseFailed at hr
    split at hr
    · obtain rfl := Option.some.inj hr
      exact ⟨rfl, rfl⟩
    · cases hr
  | joined =>
    obtain ⟨r, hr, rfl⟩ := Option.map_eq_some_iff.mp h
    obtain ⟨_, _, rfl | ⟨_, rfl⟩⟩ := Worker.pauseJoined_cases (Or.inl hr)
    · exact hput _ ⟨rfl, rfl⟩
    · exact hput _ ⟨rfl, rfl⟩
  | timedOut =>
    obtain ⟨r, hr, rfl⟩ := Option.map_eq_some_iff.mp h
    obtain ⟨_, _, rfl | ⟨_, rfl⟩⟩ := Worker.pauseJoined_cases (Or.inr hr)
    · exact hput _ ⟨rfl, rfl⟩
    · exact hput _ ⟨rfl, rfl⟩

theorem snapshots_flags (t : Supervisor W) (exited : W → List Nat) (now : W → Rat) (w : W) :
    SameFlags (t.worker w) ((t.snapshots exited now).worker w) ∧
      ((t.snapshots exited now).worker w).launch = (t.worker w).launch := by
  have hworker : (t.snapshots exited now).worker w =
      if w ∈ t.workers then ((t.worker w).exit (exited w)).refresh (now w)
      else (t.worker w).exit (exited w) := rfl
  rw [hworker]
  split
  · refine ⟨refresh_flags ((t.worker w).exit (exited w)) (now w), ?_⟩
    obtain h | ⟨p, state, nextRestartAt, -, -, h⟩ :=
      ((t.worker w).exit (exited w)).refresh_cases (now w)
    · exact congrArg (·.launch) h
    · exact congrArg (·.launch) h
  · exact ⟨⟨rfl, rfl⟩, rfl⟩

/-- The part of the invariant that steps are looked at for. -/
def Kept (s : PlacementState W) : Prop :=
  (∀ w, s.intended w = true → (s.supervisor.worker w).operatorPaused = false) ∧ s.PhaseKept

theorem IntentKept.other {ev : SupervisorEvent W} (h : s.IntentKept)
    (hnext : s.next (.other ev) = some s') : s'.Kept := by
  simp only [PlacementState.next] at hnext
  split at hnext
  · cases hnext
  obtain ⟨t, -, rfl⟩ := Option.map_eq_some_iff.mp hnext
  have hkept : ∀ w, (s.intended w && keepsIntent s.supervisor t w) = true →
      s.intended w = true ∧ (t.worker w).operatorPaused = false ∧
        ((s.supervisor.worker w).desiredRunning = true → (t.worker w).desiredRunning = true) := by
    intro w hw
    simp only [keepsIntent, Bool.and_eq_true, Bool.or_eq_true, Bool.not_eq_true'] at hw
    refine ⟨hw.1, hw.2.1.1, fun hdesired => ?_⟩
    exact hw.2.1.2.resolve_left (by rw [hdesired]; exact Bool.noConfusion)
  exact ⟨fun w hw => (hkept w hw).2.1,
    h.phase.of_kept rfl (fun w hw => (hkept w hw).1) fun w hw => (hkept w hw).2.2⟩

theorem IntentKept.start (h : s.IntentKept) (hnext : s.next .start = some s') : s'.Kept := by
  simp only [PlacementState.next] at hnext
  split at hnext
  · next hreconcile =>
    obtain rfl := Option.some.inj hnext
    have hphase : ∀ w, s.Wanted w := by
      have := h.phase
      rwa [PhaseKept, hreconcile] at this
    have hnew : ∀ w, (s.intended w || (s.supervisor.worker w).desiredRunning &&
        !(s.supervisor.worker w).operatorPaused) = true →
        (s.supervisor.worker w).operatorPaused = false ∧
          (s.supervisor.worker w).desiredRunning = true := by
      intro w hw
      rcases Bool.or_eq_true_iff.mp hw with hw | hw
      · exact ⟨h.unpaused w hw, hphase w hw⟩
      · simp only [Bool.and_eq_true, Bool.not_eq_true'] at hw
        exact ⟨hw.2, hw.1⟩
    exact ⟨fun w hw => (hnew w hw).1, fun w hw => (hnew w hw).2⟩
  · cases hnext

theorem IntentKept.plan {launches : List (W × WorkerLaunch)} (h : s.IntentKept)
    (hnext : s.next (.plan launches) = some s') : s'.Kept := by
  simp only [PlacementState.next] at hnext
  split at hnext
  · next hreconcile =>
    obtain rfl := Option.some.inj hnext
    have hphase : ∀ w, s.Wanted w := by
      have := h.phase
      rwa [PhaseKept, hreconcile] at this
    refine ⟨h.unpaused, fun w launch hw hprevious => ?_, hphase⟩
    -- a worker that is wanted has an admitted launch
    simp only [currentLaunches] at hprevious
    split at hprevious
    · obtain rfl := Option.some.inj hprevious
      exact (h.sound w).wanted (hphase w hw)
    · cases hprevious
  · cases hnext

theorem IntentKept.turn {exited : W → List Nat} {now : W → Rat} (h : s.IntentKept)
    (hnext : s.next (.turn exited now) = some s') : s'.Kept := by
  simp only [PlacementState.next] at hnext
  split at hnext
  · next previous w launch todo hreconcile =>
    obtain ⟨hbefore, hwanted⟩ : s.AdmittedBefore ⟨previous, (w, launch) :: todo⟩ ∧
        ∀ w, s.Wanted w := by
      have := h.phase
      rwa [PhaseKept, hreconcile] at this
    split at hnext
    · obtain rfl := Option.some.inj hnext
      exact ⟨h.unpaused, hbefore, hwanted⟩
    next before hprevious =>
    split at hnext
    · obtain rfl := Option.some.inj hnext
      exact ⟨h.unpaused, hbefore, hwanted⟩
    have hflags := fun w' => (snapshots_flags s.supervisor exited now w').1
    have hunpaused : ∀ w', s.intended w' = true →
        ((s.supervisor.snapshots exited now).worker w').operatorPaused = false :=
      fun w' hw' => (hflags w').2.trans (h.unpaused w' hw')
    have hwanted' : ∀ w', s.intended w' = true →
        ((s.supervisor.snapshots exited now).worker w').desiredRunning = true :=
      fun w' hw' => (hflags w').1.trans (hwanted w' hw')
    -- the snapshot of a worker that is intended to run reads the flag as set
    have hstart : s.intended w = true →
        (takeInHand before launch w ((s.supervisor.snapshots exited now).worker w)).1.start =
          some true := by
      intro hw
      simp [takeInHand, hunpaused w hw, hbefore w before hw hprevious, hwanted' w hw]
    obtain rfl := Option.some.inj hnext
    refine ⟨hunpaused, ?_⟩
    have hturn : ∀ t : PlacementState W, t.intended = s.intended →
        t.supervisor = s.supervisor.snapshots exited now → t.TurnKept ⟨previous, todo⟩
          (takeInHand before launch w ((s.supervisor.snapshots exited now).worker w)).1 := by
      intro t hintended hsupervisor
      refine ⟨fun w' launch' hw' => hbefore w' launch' (hintended ▸ hw'), fun w' _ hw' => ?_,
        fun hw => hstart (hintended ▸ hw)⟩
      rw [hsupervisor]
      exact hwanted' w' (hintended ▸ hw')
    unfold PhaseKept
    simp only
    split <;> rename_i hphase <;> split at hphase <;> cases hphase <;> exact hturn _ rfl rfl
  · cases hnext

theorem IntentKept.pause (h : s.IntentKept) (hnext : s.next .pause = some s') : s'.Kept := by
  simp only [PlacementState.next] at hnext
  split at hnext
  · next round hand hreconcile =>
    obtain ⟨hbefore, hothers, hstart⟩ : s.TurnKept round hand := by
      have := h.phase
      rwa [PhaseKept, hreconcile] at this
    obtain ⟨t, ht, rfl⟩ := Option.map_eq_some_iff.mp hnext
    -- only the flag of the worker in hand is cleared
    have hpaused : ∀ w, (t.worker w).operatorPaused = (s.supervisor.worker w).operatorPaused ∧
        (w ≠ hand.worker → (t.worker w).desiredRunning = (s.supervisor.worker w).desiredRunning) := by
      intro w
      simp only [Supervisor.next] at ht
      split at ht
      · obtain rfl := Option.some.inj ht
        by_cases hw : w = hand.worker
        · rw [hw, put_worker_self]
          obtain ⟨r₀, rfl, ⟨_, _, hr⟩ | ⟨_, hr⟩ | ⟨_, _, hr⟩⟩ :=
            Worker.beginPause_cases (s.supervisor.worker hand.worker) false <;>
          · rw [hr]
            exact ⟨Bool.or_false _, fun hne => absurd rfl hne⟩
        · rw [put_worker_ne _ _ hw]
          exact ⟨rfl, fun _ => rfl⟩
      · obtain rfl := Option.some.inj ht
        exact ⟨rfl, fun _ => rfl⟩
    refine ⟨fun w hw => (hpaused w).1.trans (h.unpaused w hw), ?_⟩
    have hturn : ∀ s' : PlacementState W, s'.intended = s.intended → s'.supervisor = t →
        s'.TurnKept round hand := by
      intro s' hintended hsupervisor
      refine ⟨fun w launch hw => hbefore w launch (hintended ▸ hw), fun w hne hw => ?_,
        fun hw => hstart (hintended ▸ hw)⟩
      rw [hsupervisor, (hpaused w).2 hne]
      exact hothers w hne (hintended ▸ hw)
    unfold PhaseKept afterPause
    simp only
    split <;> rename_i hphase <;> split at hphase <;> cases hphase <;> exact hturn _ rfl rfl
  · cases hnext

theorem IntentKept.pauseEnds {e : PauseEnd} {i : Nat} (h : s.IntentKept)
    (hok : s.KeepsIntent (.pauseEnds e i)) (hnext : s.next (.pauseEnds e i) = some s') : s'.Kept := by
  simp only [PlacementState.next] at hnext
  split at hnext
  · next round hand pause hreconcile =>
    obtain ⟨hbefore, hothers, hstart⟩ : s.TurnKept round hand := by
      have := h.phase
      rwa [PhaseKept, hreconcile] at this
    have hkeeps : e.raises (s.supervisor.worker hand.worker) = true → s.Wanted hand.worker := by
      intro hraises
      refine hok hand.worker ?_
      simp [raisesFor, hreconcile, hraises]
    split at hnext
    · obtain ⟨t, ht, rfl⟩ := Option.map_eq_some_iff.mp hnext
      have hflags := pauseEnds_flags ht
      refine ⟨fun w hw => (hflags w).2.trans (h.unpaused w hw), ?_⟩
      unfold PhaseKept
      cases hraises : e.raises (s.supervisor.worker hand.worker) with
      | false =>
        exact ⟨hbefore, fun w hne hw => (hflags w).1.trans (hothers w hne hw), hstart⟩
      | true =>
        -- the reconcile is given up, so the worker in hand has to be wanted
        intro w hw
        refine (hflags w).1.trans ?_
        by_cases hne : w = hand.worker
        · rw [hne] at hw ⊢
          exact hkeeps hraises hw
        · exact hothers w hne hw
    · cases hnext
  · cases hnext

theorem IntentKept.replace {exited : W → List Nat} {now : Rat} {a : SpawnAnswers W}
    (h : s.IntentKept) (hok : s.KeepsIntent (.replace exited now a))
    (hnext : s.next (.replace exited now a) = some s') : s'.Kept := by
  simp only [PlacementState.next] at hnext
  split at hnext
  · next round hand hreconcile =>
    obtain ⟨hbefore, hothers, hstart⟩ : s.TurnKept round hand := by
      have := h.phase
      rwa [PhaseKept, hreconcile] at this
    have hkeeps : s.supervisor.refusesReplace hand.worker exited now = true →
        s.Wanted hand.worker := by
      intro hrefuses
      refine hok hand.worker ?_
      simp [raisesFor, hreconcile, hrefuses]
    have hne := fun w (hw : w ≠ hand.worker) =>
      replaceLaunch_others (s := s.supervisor) hw hand.launch hand.start exited now a
    cases hrefuses : s.supervisor.refusesReplace hand.worker exited now with
    | true =>
      obtain ⟨⟨error, herror⟩, hself⟩ := replaceLaunch_refused hand.launch hand.start a hrefuses
      split at hnext
      · next hreplace =>
        rw [hreplace] at herror
        cases herror
      next t hreplace =>
      rw [hreplace] at hself hne
      obtain rfl := Option.some.inj hnext
      have hflags : ∀ w, SameFlags (s.supervisor.worker w) (t.worker w) := by
        intro w
        by_cases hw : w = hand.worker
        · rw [hw]
          exact hself
        · exact hne w hw
      refine ⟨fun w hw => (hflags w).2.trans (h.unpaused w hw), fun w hw => (hflags w).1.trans ?_⟩
      by_cases hw' : w = hand.worker
      · rw [hw'] at hw ⊢
        exact hkeeps hrefuses hw
      · exact hothers w hw' hw
    | false =>
      obtain ⟨⟨changed, hchanged⟩, hdesired, hpaused⟩ := replaceLaunch_accepted
        hand.launch hand.start a hrefuses
      split at hnext
      case h_2 hreplace =>
        rw [hreplace] at hchanged
        cases hchanged
      next t hreplace =>
      rw [hreplace] at hdesired hpaused hne
      obtain rfl := Option.some.inj hnext
      have hintended : ∀ w, (s.intended w && (decide (w ≠ hand.worker) || hand.launch.policyAdmitted)) =
          true → s.intended w = true ∧ (w = hand.worker → hand.launch.policyAdmitted = true) := by
        intro w hw
        simp only [Bool.and_eq_true, Bool.or_eq_true, decide_eq_true_eq] at hw
        exact ⟨hw.1, fun hself => hw.2.resolve_left (not_not.mpr hself)⟩
      refine ⟨fun w hw => ?_, fun w launch hw => hbefore w launch (hintended w hw).1, fun w hw => ?_⟩
      · by_cases hself : w = hand.worker
        · rw [hself]
          exact hpaused.trans (h.unpaused _ (hself ▸ (hintended w hw).1))
        · exact (hne w hself).2.trans (h.unpaused w (hintended w hw).1)
      · by_cases hself : w = hand.worker
        · obtain ⟨hw, hadmitted⟩ := hintended w hw
          rw [hself] at hw ⊢
          show (t.worker hand.worker).desiredRunning = true
          rw [hdesired, hstart hw, h.unpaused _ hw, hadmitted hself]
          rfl
        · exact (hne w hself).1.trans (hothers w hself (hintended w hw).1)
  · cases hnext

/-- **Every step under the condition maintains the intents.** -/
theorem IntentKept.next {l : PlacementEvent W} (h : s.IntentKept) (hok : s.KeepsIntent l)
    (hnext : s.next l = some s') : s'.IntentKept := by
  have hsound := sound_next h.sound hnext
  obtain ⟨hunpaused, hphase⟩ : (∀ w, s'.intended w = true →
      (s'.supervisor.worker w).operatorPaused = false) ∧ s'.PhaseKept := by
    cases l with
    | other ev => exact h.other hnext
    | start => exact h.start hnext
    | fail =>
      simp only [PlacementState.next] at hnext
      split at hnext
      · next hreconcile =>
        obtain rfl := Option.some.inj hnext
        have hphase := h.phase
        rw [PhaseKept, hreconcile] at hphase
        exact ⟨h.unpaused, hphase⟩
      · cases hnext
    | plan launches => exact h.plan hnext
    | turn exited now => exact h.turn hnext
    | pause => exact h.pause hnext
    | pauseEnds e i => exact h.pauseEnds hok hnext
    | replace exited now a => exact h.replace hok hnext
    | finish =>
      simp only [PlacementState.next] at hnext
      split at hnext
      · obtain rfl := Option.some.inj hnext
        exact ⟨fun _ hw => (Bool.false_ne_true hw).elim, fun _ hw => (Bool.false_ne_true hw).elim⟩
      · cases hnext
  exact ⟨hsound, hunpaused, hphase⟩

omit [DecidableEq W] in
theorem IntentKept.wanted (h : s.IntentKept) {round : Round W} (hreconcile : s.reconcile = .turning round)
    (w : W) : s.Wanted w := by
  have hphase := h.phase
  rw [PhaseKept, hreconcile] at hphase
  exact hphase.2 w

omit [DecidableEq W] in
theorem intentKept_initial (workers : List W) (hnodup : workers.Nodup) (launches : W → WorkerLaunch) :
    (initial workers hnodup launches).IntentKept where
  sound := initial_sound workers hnodup launches
  unpaused _ hw := (Bool.false_ne_true hw).elim
  phase _ hw := (Bool.false_ne_true hw).elim

end PlacementState

open PlacementState

/-- **Automatic placement keeps the intent to run.** In a run in which no call raises for a worker that
is intended to run once the reconcile has cleared its flag: when a reconcile completes, every worker is
wanted that was wanted before a reconcile and that since then neither the operator nor the policy took
from those that are to run. -/
theorem placement_keeps_intent (workers : List W) (hnodup : workers.Nodup)
    (launches : W → WorkerLaunch) {s s' : PlacementState W}
    (hreach : (placementMachine W).Reach KeepsIntent (initial workers hnodup launches) s)
    (hfinish : s.next .finish = some s') (w : W) (hintended : s.intended w = true) :
    (s'.supervisor.worker w).desiredRunning = true := by
  have hkept : s.IntentKept := hreach.invariant (intentKept_initial workers hnodup launches)
    fun _ _ _ hkept hok hnext => hkept.next hok hnext
  simp only [PlacementState.next] at hfinish
  split at hfinish
  · next hreconcile =>
    obtain rfl := Option.some.inj hfinish
    exact hkept.wanted hreconcile w hintended
  · cases hfinish

/-- The launch that automatic placement gives a worker. -/
def placedLaunch (blocks : String) : WorkerLaunch :=
  { sampleLaunch with
    automatic := true
    blockIndices := some blocks
    placementReason := some "coverage"
    placement := ⟨rfl, rfl⟩ }

/-- The service over one worker. -/
def onePlaced : PlacementState Unit :=
  initial [()] (List.nodup_singleton ()) fun _ => placedLaunch "0:4"

/-- The service has started the worker, and a reconcile that moves it has begun its pause. -/
def moving : List (PlacementEvent Unit) :=
  [.other (.startService fun _ => answering .allowed), .start, .plan [((), placedLaunch "4:8")],
    .turn (fun _ => []) fun _ => 0, .pause]

/-- The rest of a reconcile, up to its return. -/
def replaced : PlacementEvent Unit := .replace (fun _ => []) 0 (answering .allowed)

/-- A worker that is moved while it runs. -/
theorem placement_keeps_intent_moved :
    ∃ s s' : PlacementState Unit, s.next .finish = some s' ∧ s.intended () = true ∧
      (s.supervisor.worker ()).launch = placedLaunch "4:8" ∧
      (s'.supervisor.worker ()).desiredRunning = true := by
  have hrun : ((placementMachine Unit).run onePlaced
      (moving ++ [.other (.exits fun _ => [0]), .pauseEnds .terminated 0, replaced])).map
        (fun s => ((s.next .finish).isSome, s.intended (), (s.supervisor.worker ()).launch)) =
      some (true, true, placedLaunch "4:8") := by
    decide +kernel
  have halong : (placementMachine Unit).Along KeepsIntent onePlaced
      (moving ++ [.other (.exits fun _ => [0]), .pauseEnds .terminated 0, replaced]) := by
    decide +kernel
  obtain ⟨s, hrun, hview⟩ := Option.map_eq_some_iff.mp hrun
  simp only [Prod.mk.injEq] at hview
  obtain ⟨hfinish, hintended, hlaunch⟩ := hview
  obtain ⟨s', hfinish⟩ := Option.isSome_iff_exists.mp hfinish
  exact ⟨s, s', hfinish, hintended, hlaunch, placement_keeps_intent [()] (by decide)
    (fun _ => placedLaunch "0:4") (Machine.reach_of_run hrun halong) hfinish () hintended⟩

/-- **A pause that raises loses the intent.** The process does not stop in time and the reconcile is
given up; the process ends, and the next reconcile gives the worker its new blocks, but leaves it
stopped. -/
theorem raising_pause_loses_intent :
    ∃ s s' : PlacementState Unit, (placementMachine Unit).Reach Machine.always onePlaced s ∧
      s.next .finish = some s' ∧ s.intended () = true ∧
      (s'.supervisor.worker ()).launch = placedLaunch "4:8" ∧
      (s'.supervisor.worker ()).desiredRunning = false := by
  have hrun : ((placementMachine Unit).run onePlaced
      (moving ++ [.pauseEnds .failed 0, .other (.exits fun _ => [0]), .start,
        .plan [((), placedLaunch "4:8")], .turn (fun _ => []) fun _ => 0, replaced])).map
        (fun s => ((s.next .finish).map fun s' => ((s'.supervisor.worker ()).launch,
          (s'.supervisor.worker ()).desiredRunning), s.intended ())) =
      some (some (placedLaunch "4:8", false), true) := by
    decide +kernel
  obtain ⟨s, hrun, hview⟩ := Option.map_eq_some_iff.mp hrun
  simp only [Prod.mk.injEq] at hview
  obtain ⟨hfinish, hintended⟩ := hview
  obtain ⟨s', hfinish, hview⟩ := Option.map_eq_some_iff.mp hfinish
  simp only [Prod.mk.injEq] at hview
  exact ⟨s, s', Machine.reach_always_of_run hrun, hfinish, hintended, hview⟩

end Drift.Node
