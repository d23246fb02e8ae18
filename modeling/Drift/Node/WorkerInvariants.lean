import Drift.Node.WorkerChanges

/-!
# Invariants of a worker

What the changes of a worker keep, each with the condition on changes it needs.

* `Sound` — a process that runs is the recorded one, and a worker that is wanted is admitted by the
  policy; no condition;
* `Stopping` under `LeavesNothing` — a process whose worker is not wanted is being stopped;
* `Agrees` under `KeepsAgreement` — unless something is stopping it, a worker with a process is running.
-/

namespace Drift.Node

open Drift.Lib

/-- An element stays in a list when another one is taken out. -/
theorem mem_eraseIdx_of_ne {α : Type} {l : List α} {i : Nat} {x y : α} (hx : l[i]? = some x)
    (hy : y ∈ l) (hne : y ≠ x) : y ∈ l.eraseIdx i := by
  obtain ⟨j, hj⟩ := List.mem_iff_getElem?.mp hy
  refine List.mem_eraseIdx_iff_getElem?.mpr ⟨j, fun hij => hne ?_, hj⟩
  rw [hij, hx] at hj
  exact (Option.some.inj hj).symm

namespace Worker

/-- Something is under way that ends only when the process has ended: a suspension of it, or a pause
that terminates it. -/
def Stops (r : Worker) (p : Nat) : Prop :=
  (∃ j ∈ r.suspensions, j.process = p) ∨ Pause.terminating p ∈ r.pauses

instance (r : Worker) (p : Nat) : Decidable (r.Stops p) :=
  inferInstanceAs (Decidable ((∃ j ∈ r.suspensions, j.process = p) ∨ Pause.terminating p ∈ r.pauses))

/-- **What every worker keeps**, whatever happens. -/
structure Sound (r : Worker) : Prop where
  /-- A process that runs is the recorded one. -/
  recorded : ∀ p ∈ r.live, r.process = some p
  /-- A worker that is wanted is admitted by the policy. -/
  wanted : r.desiredRunning = true → r.launch.policyAdmitted = true
  /-- The numbers of the processes have been given out. -/
  numbered : ∀ p ∈ r.live, p < r.processes

theorem alive_of_process {r : Worker} {p : Nat} (hprocess : r.process = some p) (hp : p ∈ r.live) :
    r.alive = true := by
  rw [alive, hprocess]
  exact decide_eq_true hp

/-- Nothing runs where the record has no process. -/
theorem Sound.not_live {r : Worker} (h : r.Sound) (hprocess : r.process = none) (p : Nat) :
    p ∉ r.live := fun hp => by
  have hrecorded := h.recorded p hp
  rw [hprocess] at hrecorded
  cases hrecorded

/-- What runs is the recorded process. -/
theorem Sound.eq_of_process {r : Worker} (h : r.Sound) {p q : Nat} (hprocess : r.process = some q)
    (hp : p ∈ r.live) : q = p := by
  have hrecorded := h.recorded p hp
  rw [hprocess] at hrecorded
  exact Option.some.inj hrecorded

/-- Where the record's process does not run, nothing does. -/
theorem Sound.not_live_of_not_alive {r : Worker} (h : r.Sound) (hdead : r.alive = false) (p : Nat) :
    p ∉ r.live := fun hp => by
  rw [alive_of_process (h.recorded p hp) hp] at hdead
  cases hdead

/-- Dropping a process that has ended leaves the others recorded. -/
theorem Sound.recorded_dropProcess {r : Worker} (h : r.Sound) {q : Nat} (hq : q ∉ r.live) :
    ∀ p ∈ r.live, (r.dropProcess q).process = some p := by
  intro p hp
  have hprocess := h.recorded p hp
  unfold dropProcess
  split
  · next hsame =>
    rw [hsame] at hprocess
    exact absurd (Option.some.inj hprocess ▸ hp) hq
  · exact hprocess

/-- What a request to stop for policy does: nothing but for the state while another stop thread is there
or the record has no process, and else a thread is started for the process. -/
theorem stopForPolicy_cases (r : Worker) :
    (∃ t, r.suspensionStopThread = some t ∧ r.stopForPolicy = r) ∨
    (r.process = none ∧ r.stopForPolicy = { r with state := .paused }) ∨
    ∃ p, r.process = some p ∧ r.stopForPolicy = { r with
      state := .stopping
      suspensionStopThread := some r.threads
      threads := r.threads + 1
      suspensions := r.suspensions ++ [⟨r.threads, p⟩] } := by
  unfold stopForPolicy
  split
  · next t hthread => exact Or.inl ⟨t, hthread, rfl⟩
  · split
    · next hprocess => exact Or.inr (Or.inl ⟨hprocess, rfl⟩)
    · next p hprocess => exact Or.inr (Or.inr ⟨p, hprocess, rfl⟩)

/-- What the first region of a pause does. -/
theorem beginPause_cases (r : Worker) (operatorAction : Bool) :
    ∃ r₀ : Worker, r₀ = { r with
        operatorPaused := r.operatorPaused || operatorAction
        desiredRunning := false
        scheduleSuspended := false
        resourceSuspended := false } ∧
      ((∃ t, r.suspensionStopThread = some t ∧
          r.beginPause operatorAction = { r₀ with pauses := r.pauses ++ [.joining t] }) ∨
        (r.process = none ∧ r.beginPause operatorAction = { r₀ with state := .paused }) ∨
        ∃ p, r.process = some p ∧ r.beginPause operatorAction =
          { r₀ with state := .stopping, pauses := r.pauses ++ [.terminating p] }) := by
  refine ⟨_, rfl, ?_⟩
  unfold beginPause
  simp only
  split
  · next t hthread => exact Or.inl ⟨t, hthread, rfl⟩
  · split
    · next hprocess => exact Or.inr (Or.inl ⟨hprocess, rfl⟩)
    · next p hprocess => exact Or.inr (Or.inr ⟨p, hprocess, rfl⟩)

/-- What the last region of a pause does that terminated a process. -/
theorem pauseTerminated_cases {r r' : Worker} {i : Nat} (h : r.pauseTerminated i = some r') :
    ∃ p, r.pauses[i]? = some (.terminating p) ∧ p ∉ r.live ∧
      r' = { r.dropProcess p with state := .paused, pauses := r.pauses.eraseIdx i } := by
  unfold pauseTerminated at h
  split at h
  · next p hpause =>
    split at h
    · cases h
    · next hdead => exact ⟨p, hpause, hdead, (Option.some.inj h).symm⟩
  · cases h

/-- What the last region of a pause does that joined a suspension, or gives up joining it. -/
theorem pauseJoined_cases {r r' : Worker} {i : Nat}
    (h : r.pauseJoined i = some r' ∨ r.pauseTimedOut i = some r') :
    ∃ t, r.pauses[i]? = some (.joining t) ∧
      (r' = { r with pauses := r.pauses.eraseIdx i } ∨
        r.process = none ∧ r' = { r with state := .paused, pauses := r.pauses.eraseIdx i }) := by
  unfold pauseJoined pauseTimedOut at h
  rcases h with h | h
  · split at h
    · next t hpause =>
      refine ⟨t, hpause, ?_⟩
      split at h
      · cases h
      split at h
      · exact Or.inl (Option.some.inj h).symm
      · next hnone => exact Or.inr ⟨by simpa using hnone, (Option.some.inj h).symm⟩
    · cases h
  · split at h
    · next t hpause =>
      refine ⟨t, hpause, ?_⟩
      split at h
      · exact Or.inl (Option.some.inj h).symm
      · cases h
    · cases h

/-- What the region of a suspension does whose process ended. -/
theorem suspensionTerminated_cases {r r' : Worker} {i : Nat}
    (h : r.suspensionTerminated i = some r') :
    ∃ j, r.suspensions[i]? = some j ∧ j.process ∉ r.live ∧
      r' = { r.dropProcess j.process with state := .paused }.endSuspension i j.thread := by
  unfold suspensionTerminated at h
  split at h
  · next j hj =>
    split at h
    · cases h
    · next hdead => exact ⟨j, hj, hdead, (Option.some.inj h).symm⟩
  · cases h

@[simp] theorem stopForPolicy_desiredRunning (r : Worker) :
    r.stopForPolicy.desiredRunning = r.desiredRunning := by
  rcases r.stopForPolicy_cases with ⟨_, _, heq⟩ | ⟨_, heq⟩ | ⟨_, _, heq⟩ <;> rw [heq]

@[simp] theorem dropProcess_live (r : Worker) (p : Nat) : (r.dropProcess p).live = r.live := by
  unfold dropProcess
  split <;> rfl

@[simp] theorem dropProcess_desiredRunning (r : Worker) (p : Nat) :
    (r.dropProcess p).desiredRunning = r.desiredRunning := by
  unfold dropProcess
  split <;> rfl

@[simp] theorem dropProcess_launch (r : Worker) (p : Nat) : (r.dropProcess p).launch = r.launch := by
  unfold dropProcess
  split <;> rfl

@[simp] theorem dropProcess_scheduleSuspended (r : Worker) (p : Nat) :
    (r.dropProcess p).scheduleSuspended = r.scheduleSuspended := by
  unfold dropProcess
  split <;> rfl

@[simp] theorem dropProcess_suspensions (r : Worker) (p : Nat) :
    (r.dropProcess p).suspensions = r.suspensions := by
  unfold dropProcess
  split <;> rfl

@[simp] theorem dropProcess_processes (r : Worker) (p : Nat) :
    (r.dropProcess p).processes = r.processes := by
  unfold dropProcess
  split <;> rfl

@[simp] theorem dropProcess_pauses (r : Worker) (p : Nat) : (r.dropProcess p).pauses = r.pauses := by
  unfold dropProcess
  split <;> rfl

/-! ### Soundness -/

theorem Sound.stopForPolicy {r : Worker} (h : r.Sound) : r.stopForPolicy.Sound := by
  rcases r.stopForPolicy_cases with ⟨_, _, heq⟩ | ⟨_, heq⟩ | ⟨_, _, heq⟩ <;>
  · rw [heq]
    exact ⟨h.recorded, h.wanted, h.numbered⟩

/-- **Every change keeps a worker sound.** -/
theorem Sound.next {r r' : Worker} {c : Change} (h : r.Sound) (hnext : r.next c = some r') :
    r'.Sound := by
  cases c with
  | exit exited =>
    obtain rfl := Option.some.inj hnext
    exact ⟨fun p hp => h.recorded p (List.mem_of_mem_filter hp), h.wanted,
      fun p hp => h.numbered p (List.mem_of_mem_filter hp)⟩
  | refresh now =>
    obtain rfl := Option.some.inj hnext
    rcases r.refresh_cases now with heq | ⟨p, _, _, hprocess, hdead, heq⟩
    · rw [heq]
      exact h
    · rw [heq]
      exact ⟨fun q hq => absurd (h.eq_of_process hprocess hq ▸ hq) hdead, h.wanted, h.numbered⟩
  | disown =>
    simp only [Worker.next] at hnext
    split at hnext
    · cases hnext
    · obtain rfl := Option.some.inj hnext
      exact ⟨h.recorded, fun hdesired => (by cases hdesired), h.numbered⟩
  | want =>
    simp only [Worker.next] at hnext
    split at hnext
    · next hadmitted =>
      obtain rfl := Option.some.inj hnext
      exact ⟨h.recorded, fun _ => hadmitted, h.numbered⟩
    · cases hnext
  | refuse bySchedule deferred =>
    obtain rfl := Option.some.inj hnext
    exact ⟨h.recorded, fun hdesired => h.wanted (Bool.and_eq_true_iff.mp hdesired).2, h.numbered⟩
  | start =>
    simp only [Worker.next] at hnext
    split at hnext
    · cases hnext
    · next hstart =>
      obtain rfl := Option.some.inj hnext
      simp only [Bool.or_eq_true, not_or, Bool.not_eq_true] at hstart
      refine ⟨fun p hp => ?_, h.wanted, fun p hp => ?_⟩
      · rcases List.mem_cons.mp hp with rfl | hp
        · rfl
        · exact absurd hp (h.not_live_of_not_alive hstart.1 p)
      · rcases List.mem_cons.mp hp with rfl | hp
        · exact Nat.lt_succ_self _
        · exact Nat.lt_succ_of_lt (h.numbered p hp)
  | failToStart now =>
    simp only [Worker.next] at hnext
    split at hnext
    · cases hnext
    · next hdead =>
      obtain rfl := Option.some.inj hnext
      have hdead := h.not_live_of_not_alive (by simpa using hdead)
      exact ⟨fun p hp => absurd hp (hdead p), h.wanted, h.numbered⟩
  | resume bySchedule =>
    obtain rfl := Option.some.inj hnext
    exact ⟨h.recorded, h.wanted, h.numbered⟩
  | suspendForSchedule | suspendForResource =>
    obtain rfl := Option.some.inj hnext
    exact Sound.stopForPolicy ⟨h.recorded, h.wanted, h.numbered⟩
  | beginPause operatorAction =>
    obtain rfl := Option.some.inj hnext
    obtain ⟨r₀, rfl, ⟨_, _, heq⟩ | ⟨_, heq⟩ | ⟨_, _, heq⟩⟩ := r.beginPause_cases operatorAction <;>
    · rw [heq]
      exact ⟨h.recorded, fun hdesired => (by cases hdesired), h.numbered⟩
  | pauseTerminated i =>
    obtain ⟨p, _, hdead, rfl⟩ := pauseTerminated_cases hnext
    refine ⟨fun q hq => ?_, fun hdesired => ?_, fun q hq => ?_⟩
    · exact h.recorded_dropProcess hdead q (by simpa using hq)
    · simpa using h.wanted (by simpa using hdesired)
    · simpa using h.numbered q (by simpa using hq)
  | pauseFailed i =>
    simp only [Worker.next, pauseFailed] at hnext
    split at hnext
    · obtain rfl := Option.some.inj hnext
      exact ⟨h.recorded, h.wanted, h.numbered⟩
    · cases hnext
  | pauseJoined i =>
    obtain ⟨_, _, rfl | ⟨_, rfl⟩⟩ := pauseJoined_cases (Or.inl hnext) <;>
      exact ⟨h.recorded, h.wanted, h.numbered⟩
  | pauseTimedOut i =>
    obtain ⟨_, _, rfl | ⟨_, rfl⟩⟩ := pauseJoined_cases (Or.inr hnext) <;>
      exact ⟨h.recorded, h.wanted, h.numbered⟩
  | suspensionTerminated i =>
    obtain ⟨j, _, hdead, rfl⟩ := suspensionTerminated_cases hnext
    refine ⟨fun q hq => ?_, fun hdesired => ?_, fun q hq => ?_⟩
    · exact h.recorded_dropProcess hdead q (by simpa [endSuspension] using hq)
    · simpa [endSuspension] using h.wanted (by simpa [endSuspension] using hdesired)
    · simpa [endSuspension] using h.numbered q (by simpa [endSuspension] using hq)
  | suspensionFailed i =>
    simp only [Worker.next, suspensionFailed] at hnext
    split at hnext
    · obtain rfl := Option.some.inj hnext
      exact ⟨h.recorded, h.wanted, h.numbered⟩
    · cases hnext
  | assign launch wanted =>
    simp only [Worker.next] at hnext
    split at hnext
    · cases hnext
    · obtain rfl := Option.some.inj hnext
      exact ⟨h.recorded, fun hdesired => (Bool.and_eq_true_iff.mp hdesired).2, h.numbered⟩
  | shutDown =>
    obtain rfl := Option.some.inj hnext
    exact ⟨h.recorded, fun hdesired => (by cases hdesired), h.numbered⟩

theorem Sound.reach {ok : Worker → Change → Prop} {r r' : Worker} (h : r.Sound)
    (hreach : workerMachine.Reach ok r r') : r'.Sound :=
  hreach.invariant h fun _ _ _ h _ hnext => h.next hnext

/-! ### Stopping what is not wanted -/

/-- The stop thread of the record, if there is one, stops the process that runs. -/
def Current (r : Worker) : Prop :=
  ∀ t ∈ r.suspensionStopThread, ∀ p ∈ r.live, ∃ j ∈ r.suspensions, j.thread = t ∧ j.process = p

/-- The condition under which no process is left behind. -/
def LeavesNothing (r : Worker) : Change → Prop
  | .refuse _ _ => ∀ p ∈ r.live, r.Stops p
  | .suspendForSchedule | .suspendForResource | .beginPause _ => r.Current
  | .pauseFailed _ | .suspensionFailed _ | .shutDown => False
  | _ => True

theorem leavesFree_leavesNothing : LeavesFree LeavesNothing := by
  intro r c hfree
  cases c <;> trivial

/-- A process that is not wanted, or whose worker is suspended by the schedule, is being stopped. -/
structure Stopping (r : Worker) : Prop extends Sound r where
  unwanted : ∀ p ∈ r.live, r.desiredRunning = false → r.Stops p
  suspended : ∀ p ∈ r.live, r.scheduleSuspended = true → r.Stops p

theorem Stops.mono {r r' : Worker} {p : Nat} (h : r.Stops p)
    (hsuspensions : r.suspensions ⊆ r'.suspensions) (hpauses : r.pauses ⊆ r'.pauses) :
    r'.Stops p := by
  rcases h with ⟨j, hj, hprocess⟩ | hpause
  · exact Or.inl ⟨j, hsuspensions hj, hprocess⟩
  · exact Or.inr (hpauses hpause)

/-- A process is still stopped when a pause of another one, or a call that only joined, returns. -/
theorem Stops.erasePause {r : Worker} {p i : Nat} {x : Pause} (h : r.Stops p)
    (hx : r.pauses[i]? = some x) (hne : x ≠ .terminating p) :
    (∃ j ∈ r.suspensions, j.process = p) ∨ Pause.terminating p ∈ r.pauses.eraseIdx i :=
  h.imp_right fun hpause => mem_eraseIdx_of_ne hx hpause hne.symm

/-- A process is still stopped when a suspension of another one ends. -/
theorem Stops.eraseSuspension {r : Worker} {p i : Nat} {j : Suspension} (h : r.Stops p)
    (hj : r.suspensions[i]? = some j) (hne : j.process ≠ p) :
    (∃ j ∈ r.suspensions.eraseIdx i, j.process = p) ∨ Pause.terminating p ∈ r.pauses := by
  refine h.imp_left ?_
  rintro ⟨j', hj', hprocess⟩
  exact ⟨j', mem_eraseIdx_of_ne hj hj' fun hsame => hne (hsame ▸ hprocess), hprocess⟩

/-- **After a request to stop for policy every process that runs is being stopped.** -/
theorem stopForPolicy_stops {r : Worker} (h : r.Sound) (hcurrent : r.Current) :
    ∀ p ∈ r.stopForPolicy.live, r.stopForPolicy.Stops p := by
  rcases r.stopForPolicy_cases with ⟨t, hthread, heq⟩ | ⟨hprocess, heq⟩ | ⟨q, hprocess, heq⟩
  · rw [heq]
    intro p hp
    obtain ⟨j, hj, -, hstops⟩ := hcurrent t hthread p hp
    exact Or.inl ⟨j, hj, hstops⟩
  · rw [heq]
    exact fun p hp => absurd hp (h.not_live hprocess p)
  · rw [heq]
    intro p hp
    obtain rfl := h.eq_of_process hprocess hp
    exact Or.inl ⟨_, List.mem_append_right _ (List.mem_singleton_self _), rfl⟩

/-- The same for the first region of a pause. -/
theorem beginPause_stops {r : Worker} (h : r.Sound) (hcurrent : r.Current) (operatorAction : Bool) :
    ∀ p ∈ (r.beginPause operatorAction).live, (r.beginPause operatorAction).Stops p := by
  obtain ⟨r₀, rfl, ⟨t, hthread, heq⟩ | ⟨hprocess, heq⟩ | ⟨q, hprocess, heq⟩⟩ :=
    r.beginPause_cases operatorAction
  · rw [heq]
    intro p hp
    obtain ⟨j, hj, -, hstops⟩ := hcurrent t hthread p hp
    exact Or.inl ⟨j, hj, hstops⟩
  · rw [heq]
    exact fun p hp => absurd hp (h.not_live hprocess p)
  · rw [heq]
    intro p hp
    obtain rfl := h.eq_of_process hprocess hp
    exact Or.inr (List.mem_append_right _ (List.mem_singleton_self _))

theorem Stopping.of_all {r : Worker} (h : r.Sound) (hall : ∀ p ∈ r.live, r.Stops p) : r.Stopping :=
  ⟨h, fun p hp _ => hall p hp, fun p hp _ => hall p hp⟩

/-- **Every change that leaves nothing behind keeps stopping what is not wanted.** -/
theorem Stopping.next {r r' : Worker} {c : Change} (h : r.Stopping) (hok : LeavesNothing r c)
    (hnext : r.next c = some r') : r'.Stopping := by
  have hsound := h.toSound.next hnext
  cases c with
  | exit exited =>
    obtain rfl := Option.some.inj hnext
    exact ⟨hsound, fun p hp => h.unwanted p (List.mem_of_mem_filter hp),
      fun p hp => h.suspended p (List.mem_of_mem_filter hp)⟩
  | refresh now =>
    obtain rfl := Option.some.inj hnext
    rcases r.refresh_cases now with heq | ⟨_, _, _, _, _, heq⟩
    · rw [heq]
      exact h
    · rw [heq] at hsound ⊢
      exact ⟨hsound, h.unwanted, h.suspended⟩
  | disown =>
    simp only [Worker.next] at hnext
    split at hnext
    · cases hnext
    · next hadmitted =>
      obtain rfl := Option.some.inj hnext
      -- a worker the policy does not admit was not wanted before
      have hdesired : r.desiredRunning = false := by
        cases hcase : r.desiredRunning with
        | false => rfl
        | true => exact absurd (h.wanted hcase) hadmitted
      exact ⟨hsound, fun p hp _ => h.unwanted p hp hdesired, h.suspended⟩
  | want =>
    simp only [Worker.next] at hnext
    split at hnext
    · obtain rfl := Option.some.inj hnext
      exact ⟨hsound, fun _ _ hdesired => (by cases hdesired), h.suspended⟩
    · cases hnext
  | refuse bySchedule deferred =>
    obtain rfl := Option.some.inj hnext
    exact .of_all hsound hok
  | start =>
    simp only [Worker.next] at hnext
    split at hnext
    · cases hnext
    · next hstart =>
      obtain rfl := Option.some.inj hnext
      simp only [Bool.or_eq_true, Bool.not_eq_true', not_or, Bool.not_eq_false] at hstart
      refine ⟨hsound, fun _ _ hdesired => ?_, fun _ _ hsuspended => by cases hsuspended⟩
      rw [show r.desiredRunning = false from hdesired] at hstart
      cases hstart.2
  | failToStart now =>
    simp only [Worker.next] at hnext
    split at hnext
    · cases hnext
    · obtain rfl := Option.some.inj hnext
      exact ⟨hsound, h.unwanted, h.suspended⟩
  | resume bySchedule =>
    obtain rfl := Option.some.inj hnext
    refine ⟨hsound, h.unwanted, fun p hp hsuspended => h.suspended p hp ?_⟩
    cases bySchedule with
    | true => cases hsuspended
    | false => exact hsuspended
  | suspendForSchedule | suspendForResource =>
    obtain rfl := Option.some.inj hnext
    exact .of_all hsound (stopForPolicy_stops ⟨h.recorded, h.wanted, h.numbered⟩ hok)
  | beginPause operatorAction =>
    obtain rfl := Option.some.inj hnext
    exact .of_all hsound (beginPause_stops h.toSound hok operatorAction)
  | pauseTerminated i =>
    obtain ⟨q, hpause, hdead, rfl⟩ := pauseTerminated_cases hnext
    have hrest : ∀ p ∈ r.live, r.Stops p → Stops { r.dropProcess q with
        state := .paused, pauses := r.pauses.eraseIdx i } p := by
      intro p hp hstops
      have hne : Pause.terminating q ≠ .terminating p := by
        rintro ⟨⟩
        exact hdead hp
      simpa [Stops] using hstops.erasePause hpause hne
    refine ⟨hsound, fun p hp hdesired => ?_, fun p hp hsuspended => ?_⟩
    · simp only [dropProcess_live, dropProcess_desiredRunning] at hp hdesired
      exact hrest p hp (h.unwanted p hp hdesired)
    · simp only [dropProcess_live, dropProcess_scheduleSuspended] at hp hsuspended
      exact hrest p hp (h.suspended p hp hsuspended)
  | pauseFailed i => exact hok.elim
  | pauseJoined i =>
    obtain ⟨t, hpause, rfl | ⟨_, rfl⟩⟩ := pauseJoined_cases (Or.inl hnext) <;>
      exact ⟨hsound, fun p hp hdesired => (h.unwanted p hp hdesired).erasePause hpause (by simp),
        fun p hp hsuspended => (h.suspended p hp hsuspended).erasePause hpause (by simp)⟩
  | pauseTimedOut i =>
    obtain ⟨t, hpause, rfl | ⟨_, rfl⟩⟩ := pauseJoined_cases (Or.inr hnext) <;>
      exact ⟨hsound, fun p hp hdesired => (h.unwanted p hp hdesired).erasePause hpause (by simp),
        fun p hp hsuspended => (h.suspended p hp hsuspended).erasePause hpause (by simp)⟩
  | suspensionTerminated i =>
    obtain ⟨j, hj, hdead, rfl⟩ := suspensionTerminated_cases hnext
    have hrest : ∀ p ∈ r.live, r.Stops p → Stops ({ r.dropProcess j.process with
        state := .paused }.endSuspension i j.thread) p := by
      intro p hp hstops
      have hne : j.process ≠ p := fun hsame => hdead (hsame ▸ hp)
      simpa [Stops, endSuspension] using hstops.eraseSuspension hj hne
    refine ⟨hsound, fun p hp hdesired => ?_, fun p hp hsuspended => ?_⟩
    · simp only [endSuspension, dropProcess_live, dropProcess_desiredRunning] at hp hdesired
      exact hrest p hp (h.unwanted p hp hdesired)
    · simp only [endSuspension, dropProcess_live, dropProcess_scheduleSuspended] at hp hsuspended
      exact hrest p hp (h.suspended p hp hsuspended)
  | suspensionFailed i => exact hok.elim
  | assign launch wanted =>
    simp only [Worker.next] at hnext
    split at hnext
    · cases hnext
    · next hbusy =>
      obtain rfl := Option.some.inj hnext
      -- a worker that is not busy has no process
      simp only [busy, Bool.or_eq_true, Option.isSome_iff_ne_none, not_or, not_not] at hbusy
      have hnone := h.not_live hbusy.1.1.1.2
      exact .of_all hsound fun p hp => absurd hp (hnone p)
  | shutDown => exact hok.elim

/-! ### States that agree with the process -/

/-- The condition under which the state agrees with the process. -/
def KeepsAgreement (r : Worker) : Change → Prop
  | .refuse _ _ => ∀ p ∈ r.live, r.Stops p
  | .start => ∀ p, ¬ r.Stops p
  | .pauseFailed _ | .suspensionFailed _ | .shutDown => False
  | _ => True

theorem leavesFree_keepsAgreement : LeavesFree KeepsAgreement := by
  intro r c hfree
  cases c <;> trivial

/-- Unless something is stopping it, a worker with a process is running; and what is being stopped is
the process that runs. -/
structure Agrees (r : Worker) : Prop extends Sound r where
  running : ∀ p ∈ r.live, (∃ q, r.Stops q) ∨ r.state = .running
  current : ∀ p ∈ r.live, ∀ q, r.Stops q → q = p

/-- Nothing to say about a worker without a process. -/
theorem Agrees.of_dead {r : Worker} (h : r.Sound) (hdead : ∀ p, p ∉ r.live) : r.Agrees :=
  ⟨h, fun p hp => absurd hp (hdead p), fun p hp => absurd hp (hdead p)⟩

/-- A change that keeps what is being stopped, and the state, or stops something. -/
theorem Agrees.keep {r r' : Worker} (h : r.Agrees) (hsound : r'.Sound) (hlive : r'.live = r.live)
    (hstops : ∀ p, r'.Stops p ↔ r.Stops p)
    (hstate : r'.state = r.state ∨ ∀ p ∈ r.live, ∃ q, r.Stops q) : r'.Agrees := by
  refine ⟨hsound, fun p hp => ?_, fun p hp q hq => ?_⟩
  · rw [hlive] at hp
    rcases hstate with hstate | hstate
    · rw [hstate]
      exact (h.running p hp).imp_left fun ⟨q, hq⟩ => ⟨q, (hstops q).mpr hq⟩
    · obtain ⟨q, hq⟩ := hstate p hp
      exact Or.inl ⟨q, (hstops q).mpr hq⟩
  · rw [hlive] at hp
    exact h.current p hp q ((hstops q).mp hq)

theorem Agrees.stopForPolicy {r : Worker} (h : r.Agrees) : r.stopForPolicy.Agrees := by
  have hsound := h.toSound.stopForPolicy
  rcases r.stopForPolicy_cases with ⟨t, _, heq⟩ | ⟨hprocess, heq⟩ | ⟨q, hprocess, heq⟩
  · rw [heq]
    exact h
  · rw [heq] at hsound ⊢
    exact .of_dead hsound (h.not_live hprocess)
  · rw [heq] at hsound ⊢
    refine ⟨hsound, fun p _ => Or.inl ⟨q, Or.inl ⟨_, List.mem_append_right _
      (List.mem_singleton_self _), rfl⟩⟩, fun p hp q' hstops => ?_⟩
    -- the process that runs is the recorded one, and so is the one that is stopped now
    rcases hstops with ⟨j, hj, rfl⟩ | hpause
    · rcases List.mem_append.mp hj with hj | hj
      · exact h.current p hp _ (Or.inl ⟨j, hj, rfl⟩)
      · rw [List.mem_singleton.mp hj]
        exact h.eq_of_process hprocess hp
    · exact h.current p hp q' (Or.inr hpause)

/-- A pause that joined a suspension stops nothing itself. -/
theorem Agrees.pauseJoined {r r' : Worker} {i : Nat} (h : r.Agrees)
    (hnext : r.pauseJoined i = some r' ∨ r.pauseTimedOut i = some r') (hsound : r'.Sound) :
    r'.Agrees := by
  obtain ⟨t, hpause, rfl | ⟨hprocess, rfl⟩⟩ := pauseJoined_cases hnext
  · refine h.keep hsound rfl (fun p => ⟨fun hstops => ?_, fun hstops => ?_⟩) (Or.inl rfl)
    · exact hstops.imp_right fun hmem => List.mem_of_mem_eraseIdx hmem
    · exact hstops.erasePause hpause (by simp)
  · exact .of_dead hsound (h.not_live hprocess)

/-- **Every change under the condition keeps the state and the process in agreement.** -/
theorem Agrees.next {r r' : Worker} {c : Change} (h : r.Agrees) (hok : KeepsAgreement r c)
    (hnext : r.next c = some r') : r'.Agrees := by
  have hsound := h.toSound.next hnext
  cases c with
  | exit exited =>
    obtain rfl := Option.some.inj hnext
    exact ⟨hsound, fun p hp => h.running p (List.mem_of_mem_filter hp),
      fun p hp => h.current p (List.mem_of_mem_filter hp)⟩
  | refresh now =>
    obtain rfl := Option.some.inj hnext
    rcases r.refresh_cases now with heq | ⟨p, _, _, hprocess, hdead, heq⟩
    · rw [heq]
      exact h
    · rw [heq] at hsound ⊢
      exact .of_dead hsound fun q hq => hdead (h.eq_of_process hprocess hq ▸ hq)
  | disown =>
    simp only [Worker.next] at hnext
    split at hnext
    · cases hnext
    · obtain rfl := Option.some.inj hnext
      exact h.keep hsound rfl (fun _ => Iff.rfl) (Or.inl rfl)
  | want =>
    simp only [Worker.next] at hnext
    split at hnext
    · obtain rfl := Option.some.inj hnext
      exact h.keep hsound rfl (fun _ => Iff.rfl) (Or.inl rfl)
    · cases hnext
  | refuse bySchedule deferred =>
    obtain rfl := Option.some.inj hnext
    exact h.keep hsound rfl (fun _ => Iff.rfl) (Or.inr fun p hp => ⟨p, hok p hp⟩)
  | start =>
    simp only [Worker.next] at hnext
    split at hnext
    · cases hnext
    · obtain rfl := Option.some.inj hnext
      exact ⟨hsound, fun _ _ => Or.inr rfl, fun _ _ q hstops => absurd hstops (hok q)⟩
  | failToStart now =>
    simp only [Worker.next] at hnext
    split at hnext
    · cases hnext
    · next hdead =>
      obtain rfl := Option.some.inj hnext
      exact .of_dead hsound (h.not_live_of_not_alive (by simpa using hdead))
  | resume bySchedule =>
    obtain rfl := Option.some.inj hnext
    exact h.keep hsound rfl (fun _ => Iff.rfl) (Or.inl rfl)
  | suspendForSchedule | suspendForResource =>
    obtain rfl := Option.some.inj hnext
    exact Agrees.stopForPolicy ⟨⟨h.recorded, h.wanted, h.numbered⟩, h.running, h.current⟩
  | beginPause operatorAction =>
    obtain rfl := Option.some.inj hnext
    obtain ⟨r₀, rfl, ⟨t, _, heq⟩ | ⟨hprocess, heq⟩ | ⟨q, hprocess, heq⟩⟩ :=
      r.beginPause_cases operatorAction
    · rw [heq] at hsound ⊢
      exact h.keep hsound rfl (fun _ => by simp [Stops]) (Or.inl rfl)
    · rw [heq] at hsound ⊢
      exact .of_dead hsound (h.not_live hprocess)
    · rw [heq] at hsound ⊢
      refine ⟨hsound, fun p _ => Or.inl ⟨q, Or.inr (List.mem_append_right _
        (List.mem_singleton_self _))⟩, fun p hp q' hstops => ?_⟩
      rcases hstops with hsuspension | hpause
      · exact h.current p hp q' (Or.inl hsuspension)
      · rcases List.mem_append.mp hpause with hpause | hpause
        · exact h.current p hp q' (Or.inr hpause)
        · obtain rfl := Pause.terminating.inj (List.mem_singleton.mp hpause)
          exact h.eq_of_process hprocess hp
  | pauseTerminated i =>
    obtain ⟨q, hpause, hdead, rfl⟩ := pauseTerminated_cases hnext
    -- a process that runs would be the one that was stopped, and has ended
    refine .of_dead hsound fun p hp => ?_
    have hp : p ∈ r.live := by simpa using hp
    have hsame := h.current p hp q (Or.inr (List.mem_of_getElem? hpause))
    exact hdead (hsame ▸ hp)
  | pauseFailed i => exact hok.elim
  | pauseJoined i => exact h.pauseJoined (Or.inl hnext) hsound
  | pauseTimedOut i => exact h.pauseJoined (Or.inr hnext) hsound
  | suspensionTerminated i =>
    obtain ⟨j, hj, hdead, rfl⟩ := suspensionTerminated_cases hnext
    refine .of_dead hsound fun p hp => ?_
    have hp : p ∈ r.live := by simpa [endSuspension] using hp
    have hsame := h.current p hp j.process (Or.inl ⟨j, List.mem_of_getElem? hj, rfl⟩)
    exact hdead (hsame ▸ hp)
  | suspensionFailed i => exact hok.elim
  | assign launch wanted =>
    simp only [Worker.next] at hnext
    split at hnext
    · cases hnext
    · obtain rfl := Option.some.inj hnext
      exact h.keep hsound rfl (fun _ => Iff.rfl) (Or.inl rfl)
  | shutDown => exact hok.elim

end Worker

end Drift.Node
