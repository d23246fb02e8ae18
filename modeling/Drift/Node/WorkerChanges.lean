import Drift.Node.WorkerSupervisor

/-!
# A worker on its own

Every region of the supervisor changes a worker in a few elementary ways. `workerMachine` has these
*changes* as its steps, and `Supervisor.next_reach` says that a step of the supervisor takes each worker
along a run of this machine: the supervisor refines one such machine for each worker. What holds of a
worker is then proved once for each change.

A condition `ok` on changes gives a condition on the supervisor's steps, `Meets ok`: every change that
is made in the step meets `ok` in the worker at that moment.

* `Change`, `Worker.next`, `workerMachine` — the worker;
* `Supervisor.spawnPlan`, `Supervisor.turnPlan` — what a spawn, and a turn of the monitor, is going to
  do, and in which state;
* `Meets`, `Supervisor.next_reach` — the refinement.
-/

namespace Drift.Node

open Drift.Lib

/-- An elementary change of a worker. -/
inductive Change
  | exit (exited : List Nat)
  | refresh (now : Rat)
  /-- The launch is not admitted by the policy. -/
  | disown
  | want
  /-- `_spawn_locked` finds the schedule closed, or else a resource unavailable. -/
  | refuse (bySchedule deferred : Bool)
  | start
  | failToStart (now : Rat)
  | resume (bySchedule : Bool)
  | suspendForSchedule
  | suspendForResource
  | beginPause (operatorAction : Bool)
  | pauseTerminated (i : Nat)
  | pauseFailed (i : Nat)
  | pauseJoined (i : Nat)
  | pauseTimedOut (i : Nat)
  | suspensionTerminated (i : Nat)
  | suspensionFailed (i : Nat)
  | assign (launch : WorkerLaunch) (wanted : Bool)
  | shutDown

/-- The changes no condition is ever put on. -/
def Change.free : Change → Bool
  | exit _ | refresh _ | disown | want | failToStart _ | resume _ | assign _ _ => true
  | _ => false

/-- The changes before a turn of the monitor decides. -/
def Change.quiet : Change → Bool
  | exit _ | refresh _ | resume _ => true
  | _ => false

namespace Worker

/-- The record after a refusal. A spawn that does not defer takes the worker's intent back. -/
def refuse (r : Worker) (bySchedule deferred : Bool) : Worker :=
  { r with
    state := .paused
    scheduleSuspended := if bySchedule then deferred && r.desiredRunning else r.scheduleSuspended
    resourceSuspended := if bySchedule then r.resourceSuspended else deferred && r.desiredRunning
    desiredRunning := deferred && r.desiredRunning }

/-- The record after a suspension is over. -/
def resume (r : Worker) (bySchedule : Bool) : Worker :=
  { r with
    scheduleSuspended := if bySchedule then false else r.scheduleSuspended
    resourceSuspended := if bySchedule then r.resourceSuspended else false }

/-- The worker after a change, `none` where the supervisor never makes it. -/
def next (r : Worker) : Change → Option Worker
  | .exit exited => some (r.exit exited)
  | .refresh now => some (r.refresh now)
  | .disown =>
    if r.launch.policyAdmitted then none else some { r with desiredRunning := false }
  | .want =>
    if r.launch.policyAdmitted then some { r with operatorPaused := false, desiredRunning := true }
    else none
  | .refuse bySchedule deferred => some (r.refuse bySchedule deferred)
  | .start => if r.alive || !r.desiredRunning then none else some r.start
  | .failToStart now => if r.alive then none else some (r.failToStart now)
  | .resume bySchedule => some (r.resume bySchedule)
  | .suspendForSchedule => some r.suspendForSchedule
  | .suspendForResource => some r.suspendForResource
  | .beginPause operatorAction => some (r.beginPause operatorAction)
  | .pauseTerminated i => r.pauseTerminated i
  | .pauseFailed i => r.pauseFailed i
  | .pauseJoined i => r.pauseJoined i
  | .pauseTimedOut i => r.pauseTimedOut i
  | .suspensionTerminated i => r.suspensionTerminated i
  | .suspensionFailed i => r.suspensionFailed i
  | .assign launch wanted =>
    if r.busy then none
    else some { r.assign launch with desiredRunning := wanted && launch.policyAdmitted }
  | .shutDown => some { r with
      desiredRunning := false, scheduleSuspended := false, resourceSuspended := false }

end Worker

namespace Worker

@[simp] theorem exit_nil (r : Worker) : r.exit [] = r := by
  simp [exit]

@[simp] theorem exit_exit (r : Worker) (exited exited' : List Nat) :
    (r.exit exited).exit exited' = r.exit (exited ++ exited') := by
  simp [exit, List.filter_filter, Bool.and_comm]

/-- What refreshing does: the process of the record is dropped if it has ended. -/
theorem refresh_cases (r : Worker) (now : Rat) :
    r.refresh now = r ∨ ∃ p state nextRestartAt, r.process = some p ∧ p ∉ r.live ∧
      r.refresh now = { r with process := none, state := state, nextRestartAt := nextRestartAt } := by
  unfold refresh
  split
  · exact Or.inl rfl
  next p hprocess =>
  split
  · exact Or.inl rfl
  split
  · exact Or.inl rfl
  next hdead =>
  split
  · exact Or.inr ⟨p, .crashed, _, hprocess, hdead, rfl⟩
  · exact Or.inr ⟨p, .paused, r.nextRestartAt, hprocess, hdead, rfl⟩

end Worker

/-- A worker as a machine. -/
def workerMachine : Machine Worker Change := ⟨Worker.next⟩

/-- A condition on changes that leaves the free ones alone. -/
def LeavesFree (ok : Worker → Change → Prop) : Prop :=
  ∀ r c, c.free = true → ok r c

/-- A run of free changes. -/
abbrev FreeReach : Worker → Worker → Prop :=
  workerMachine.Reach fun _ c => c.free = true

/-- One free change. -/
theorem freeReach_next {r r' : Worker} (c : Change) (hfree : c.free = true)
    (h : r.next c = some r') : FreeReach r r' :=
  Machine.Reach.refl.tail hfree h

theorem LeavesFree.reach {ok : Worker → Change → Prop} (h : LeavesFree ok) {r r' : Worker}
    (hreach : FreeReach r r') : workerMachine.Reach ok r r' :=
  hreach.mono fun r c hfree => h r c hfree

/-- A run of quiet changes. -/
abbrev QuietReach : Worker → Worker → Prop :=
  workerMachine.Reach fun _ c => c.quiet = true

theorem quietReach_next {r r' : Worker} (c : Change) (hquiet : c.quiet = true)
    (h : r.next c = some r') : QuietReach r r' :=
  Machine.Reach.refl.tail hquiet h

theorem QuietReach.free {r r' : Worker} (h : QuietReach r r') : FreeReach r r' :=
  h.mono fun _ c hquiet => by cases c <;> trivial

/-- What quiet changes leave alone. Processes can only exit. -/
structure Worker.Quiet (r r' : Worker) : Prop where
  launch : r'.launch = r.launch
  desiredRunning : r'.desiredRunning = r.desiredRunning
  processes : r'.processes = r.processes
  live : ∀ p ∈ r'.live, p ∈ r.live

theorem QuietReach.quiet {r r' : Worker} (h : QuietReach r r') : r.Quiet r' := by
  refine h.invariant ⟨rfl, rfl, rfl, fun _ hp => hp⟩ fun r₁ c r₂ hinv hquiet hnext => ?_
  obtain ⟨hlaunch, hdesired, hprocesses, hlive⟩ := hinv
  cases c with
  | exit exited =>
    obtain rfl := Option.some.inj hnext
    exact ⟨hlaunch, hdesired, hprocesses, fun p hp => hlive p (List.mem_of_mem_filter hp)⟩
  | refresh now =>
    obtain rfl := Option.some.inj hnext
    rcases r₁.refresh_cases now with heq | ⟨_, _, _, _, _, heq⟩ <;>
    · rw [heq]
      exact ⟨hlaunch, hdesired, hprocesses, hlive⟩
  | resume bySchedule =>
    obtain rfl := Option.some.inj hnext
    exact ⟨hlaunch, hdesired, hprocesses, hlive⟩
  | _ => cases hquiet

/-- One change that meets the condition. -/
theorem reach_next {ok : Worker → Change → Prop} {r r' : Worker} {c : Change} (hok : ok r c)
    (h : r.next c = some r') : workerMachine.Reach ok r r' :=
  Machine.Reach.refl.tail hok h

namespace Supervisor

variable {W : Type} [DecidableEq W]

/-! ### Other workers -/

@[simp] theorem put_worker_self (s : Supervisor W) (w : W) (r : Worker) : (s.put w r).worker w = r := by
  simp [put]

@[simp] theorem put_worker_ne (s : Supervisor W) {w w' : W} (r : Worker) (h : w' ≠ w) :
    (s.put w r).worker w' = s.worker w' := by
  simp [put, h]

@[simp] theorem put_workers (s : Supervisor W) (w : W) (r : Worker) :
    (s.put w r).workers = s.workers := rfl

@[simp] theorem put_started (s : Supervisor W) (w : W) (r : Worker) :
    (s.put w r).started = s.started := rfl

@[simp] theorem put_closed (s : Supervisor W) (w : W) (r : Worker) :
    (s.put w r).closed = s.closed := rfl

omit [DecidableEq W] in
@[simp] theorem exit_worker (s : Supervisor W) (exited : W → List Nat) (w : W) :
    (s.exit exited).worker w = (s.worker w).exit (exited w) := rfl

omit [DecidableEq W] in
@[simp] theorem exit_workers (s : Supervisor W) (exited : W → List Nat) :
    (s.exit exited).workers = s.workers := rfl

omit [DecidableEq W] in
@[simp] theorem exit_started (s : Supervisor W) (exited : W → List Nat) :
    (s.exit exited).started = s.started := rfl

omit [DecidableEq W] in
@[simp] theorem exit_closed (s : Supervisor W) (exited : W → List Nat) :
    (s.exit exited).closed = s.closed := rfl

/-- What a part of a region about one worker does to the others: some of their processes exit. -/
structure OnlyExits (w : W) (s s' : Supervisor W) : Prop where
  workers : s'.workers = s.workers
  closed : s'.closed = s.closed
  started : s'.started = s.started
  monitoring : s'.monitoring = s.monitoring
  others : ∀ w' ≠ w, ∃ exited, s'.worker w' = (s.worker w').exit exited

/-! ### Plans -/

/-- What `_spawn_locked` does in the end. -/
inductive SpawnPlan
  | disown
  | refuse (bySchedule : Bool) (reason : Refusal)
  | closed
  | running
  | start
  | failToStart
  deriving DecidableEq

/-- The way `_spawn_locked` goes, and the supervisor when it gets there. -/
def spawnPlan (s : Supervisor W) (w : W) (a : SpawnAnswers W) : SpawnPlan × Supervisor W :=
  if (s.worker w).launch.policyAdmitted = false then (.disown, s)
  else
    match a.schedule.refusal with
    | some reason => (.refuse true reason, s)
    | none =>
      let s := s.exit a.resources.exited
      match s.resourceStatus w a.resources with
      | some reason => (.refuse false reason, s)
      | none =>
        if s.closed then (.closed, s)
        else
          let r := (s.worker w).exit a.exited
          (if r.alive then .running else if a.popen then .start else .failToStart, s.put w r)

/-- The end of `_spawn_locked`. -/
def carryOut (plan : SpawnPlan) (s : Supervisor W) (w : W) (deferSchedule deferResources : Bool)
    (now : Rat) : Except SupervisorError Bool × Supervisor W :=
  let r := s.worker w
  match plan with
  | .disown =>
    (.error (.policy (.launch r.launch.policyReason)), s.put w { r with desiredRunning := false })
  | .refuse bySchedule reason =>
    let deferred := if bySchedule then deferSchedule else deferResources
    (if deferred then .ok false else .error (.policy reason), s.put w (r.refuse bySchedule deferred))
  | .closed => (.error .closed, s)
  | .running => (.ok false, s)
  | .start => (.ok true, s.put w r.start)
  | .failToStart => (.ok false, s.put w (r.failToStart now))

theorem put_put (s : Supervisor W) (w : W) (r r' : Worker) : (s.put w r).put w r' = s.put w r' := by
  unfold put
  simp

/-- **A spawn does what it plans.** -/
theorem spawnLocked_eq (s : Supervisor W) (w : W) (deferSchedule deferResources : Bool)
    (a : SpawnAnswers W) :
    s.spawnLocked w deferSchedule deferResources a =
      carryOut (s.spawnPlan w a).1 (s.spawnPlan w a).2 w deferSchedule deferResources a.now := by
  unfold spawnLocked spawnPlan
  simp only
  cases hadmitted : (s.worker w).launch.policyAdmitted with
  | false => rfl
  | true =>
  simp only [Bool.true_eq_false, if_false]
  cases a.schedule.refusal with
  | some reason => cases deferSchedule <;> rfl
  | none =>
  simp only
  generalize s.exit a.resources.exited = s₁
  cases s₁.resourceStatus w a.resources with
  | some reason => cases deferResources <;> rfl
  | none =>
  simp only
  cases s₁.closed with
  | true => rfl
  | false =>
    simp only [Bool.false_eq_true, if_false]
    cases ((s₁.worker w).exit a.exited).alive <;> cases a.popen <;> simp [carryOut, put_put]

/-- What a turn of the monitor does in the end. -/
inductive TurnPlan
  | leave
  | suspendForSchedule
  | suspendForResource
  | spawn
  deriving DecidableEq

/-- The way a turn goes, and the supervisor when it gets there. -/
def turnPlan (scheduleAdmitted : Bool) (answers : W → TurnAnswers W) (s : Supervisor W) (w : W) :
    TurnPlan × Supervisor W :=
  let a := answers w
  let s := s.exit a.exited
  let r := (s.worker w).refresh a.now
  if scheduleAdmitted = false then
    (if r.desiredRunning && (r.process.isSome || r.state = .paused) then .suspendForSchedule
      else .leave, s.put w r)
  else if r.scheduleSuspended then
    if r.suspensionStopThread.isSome || r.process.isSome then (.leave, s.put w r)
    else (if r.desiredRunning then .spawn else .leave, s.put w (r.resume true))
  else
    let s := (s.put w r).exit a.resources.exited
    let refused := (s.resourceStatus w a.resources).isSome
    let r := (s.worker w).exit a.polled
    if refused && r.desiredRunning && r.alive then (.suspendForResource, s.put w r)
    else if r.resourceSuspended then
      if r.suspensionStopThread.isSome || r.process.isSome || refused then (.leave, s.put w r)
      else (if r.desiredRunning then .spawn else .leave, s.put w (r.resume false))
    else if r.desiredRunning && r.process.isNone && r.launch.autoRestart &&
        decide (r.nextRestartAt ≤ a.clock) then
      (.spawn, s.put w r)
    else (.leave, s.put w r)

/-- The end of a turn. -/
def carryOutTurn (plan : TurnPlan) (s : Supervisor W) (w : W) (a : SpawnAnswers W) :
    Except SupervisorError Unit × Supervisor W :=
  match plan with
  | .leave => (.ok (), s)
  | .suspendForSchedule => (.ok (), s.put w (s.worker w).suspendForSchedule)
  | .suspendForResource => (.ok (), s.put w (s.worker w).suspendForResource)
  | .spawn =>
    ((s.spawnLocked w false true a).1.map fun _ => (), (s.spawnLocked w false true a).2)

/-- **A turn does what it plans.** -/
theorem turn_eq (scheduleAdmitted : Bool) (answers : W → TurnAnswers W) (s : Supervisor W) (w : W) :
    turn scheduleAdmitted answers s w =
      carryOutTurn (turnPlan scheduleAdmitted answers s w).1
        (turnPlan scheduleAdmitted answers s w).2 w (answers w).spawn := by
  unfold turn turnPlan
  simp only
  generalize ((s.exit (answers w).exited).worker w).refresh (answers w).now = r
  cases scheduleAdmitted with
  | false =>
    simp only [if_true]
    split <;> simp [carryOutTurn, put_put]
  | true =>
  simp only [Bool.true_eq_false, if_false]
  cases hsuspended : r.scheduleSuspended with
  | true =>
    simp only [if_true]
    split
    · rfl
    · cases hdesired : r.desiredRunning <;> simp [carryOutTurn, hdesired, Worker.resume]
  | false =>
  simp only [Bool.false_eq_true, if_false]
  generalize ((s.exit (answers w).exited).put w r).exit (answers w).resources.exited = s₁
  generalize (s₁.resourceStatus w (answers w).resources).isSome = refused
  generalize (s₁.worker w).exit (answers w).polled = r₁
  split
  · simp only [carryOutTurn, put_worker_self, put_put]
  cases hresource : r₁.resourceSuspended with
  | true =>
    simp only [if_true]
    split
    · rfl
    · cases hdesired : r₁.desiredRunning <;> simp [carryOutTurn, hdesired, Worker.resume]
  | false =>
    simp only [Bool.false_eq_true, if_false]
    split <;> rfl

/-! ### Free parts -/

omit [DecidableEq W] in
theorem OnlyExits.refl (w : W) (s : Supervisor W) : OnlyExits w s s where
  workers := rfl
  closed := rfl
  started := rfl
  monitoring := rfl
  others _ _ := ⟨[], by simp⟩

omit [DecidableEq W] in
theorem OnlyExits.trans {w : W} {s s' s'' : Supervisor W} (h : OnlyExits w s s')
    (h' : OnlyExits w s' s'') : OnlyExits w s s'' where
  workers := h'.workers.trans h.workers
  closed := h'.closed.trans h.closed
  started := h'.started.trans h.started
  monitoring := h'.monitoring.trans h.monitoring
  others w' hne := by
    obtain ⟨exited, hexited⟩ := h.others w' hne
    obtain ⟨exited', hexited'⟩ := h'.others w' hne
    exact ⟨exited ++ exited', by rw [hexited', hexited, Worker.exit_exit]⟩

theorem onlyExits_put (s : Supervisor W) (w : W) (r : Worker) : OnlyExits w s (s.put w r) where
  workers := rfl
  closed := rfl
  started := rfl
  monitoring := rfl
  others _ hne := ⟨[], by simp [hne]⟩

omit [DecidableEq W] in
theorem onlyExits_exit (s : Supervisor W) (w : W) (exited : W → List Nat) :
    OnlyExits w s (s.exit exited) where
  workers := rfl
  closed := rfl
  started := rfl
  monitoring := rfl
  others w' _ := ⟨exited w', rfl⟩

/-- Until its end, a spawn only sees processes exit. -/
theorem spawnPlan_free (s : Supervisor W) (w : W) (a : SpawnAnswers W) :
    OnlyExits w s (s.spawnPlan w a).2 ∧
      ∃ exited, (s.spawnPlan w a).2.worker w = (s.worker w).exit exited := by
  unfold spawnPlan
  have hsame : ∃ exited, s.worker w = (s.worker w).exit exited := ⟨[], by simp⟩
  split
  · exact ⟨.refl _ _, hsame⟩
  split
  · exact ⟨.refl _ _, hsame⟩
  have hexit := onlyExits_exit s w a.resources.exited
  simp only
  split
  · exact ⟨hexit, _, rfl⟩
  split
  · exact ⟨hexit, _, rfl⟩
  · refine ⟨hexit.trans (onlyExits_put _ _ _), a.resources.exited w ++ a.exited, ?_⟩
    simp

theorem quietReach_exit (r : Worker) (exited : List Nat) : QuietReach r (r.exit exited) :=
  quietReach_next (.exit exited) rfl rfl

/-- Until its end, a turn refreshes the record, sees processes exit and ends a suspension. -/
theorem turnPlan_quiet (scheduleAdmitted : Bool) (answers : W → TurnAnswers W) (s : Supervisor W)
    (w : W) :
    OnlyExits w s (turnPlan scheduleAdmitted answers s w).2 ∧
      QuietReach (s.worker w) ((turnPlan scheduleAdmitted answers s w).2.worker w) := by
  have hexit := onlyExits_exit s w (answers w).exited
  have hrefresh : QuietReach (s.worker w)
      (((s.exit (answers w).exited).worker w).refresh (answers w).now) :=
    (quietReach_exit _ _).trans (quietReach_next (.refresh (answers w).now) rfl rfl)
  unfold turnPlan
  simp only
  generalize hr : ((s.exit (answers w).exited).worker w).refresh (answers w).now = r at hrefresh
  have hput : OnlyExits w s ((s.exit (answers w).exited).put w r) :=
    hexit.trans (onlyExits_put _ _ _)
  have hresume : ∀ bySchedule, QuietReach (s.worker w) (r.resume bySchedule) := fun bySchedule =>
    hrefresh.trans (quietReach_next (.resume bySchedule) rfl rfl)
  split
  · exact ⟨hput, by rwa [put_worker_self]⟩
  split
  · split
    · exact ⟨hput, by rwa [put_worker_self]⟩
    · exact ⟨hexit.trans (onlyExits_put _ _ _), by rw [put_worker_self]; exact hresume true⟩
  -- the resources are read, and the worker's own process is polled
  have hread := hput.trans (onlyExits_exit _ w (answers w).resources.exited)
  have hpolled : QuietReach (s.worker w)
      ((((s.exit (answers w).exited).put w r).exit (answers w).resources.exited).worker w |>.exit
        (answers w).polled) := by
    rw [exit_worker, put_worker_self]
    exact (hrefresh.trans (quietReach_exit _ _)).trans (quietReach_exit _ _)
  generalize ((s.exit (answers w).exited).put w r).exit (answers w).resources.exited = s₁ at hread hpolled
  split
  · exact ⟨hread.trans (onlyExits_put _ _ _), by rwa [put_worker_self]⟩
  split
  · split
    · exact ⟨hread.trans (onlyExits_put _ _ _), by rwa [put_worker_self]⟩
    · refine ⟨hread.trans (onlyExits_put _ _ _), ?_⟩
      rw [put_worker_self]
      exact hpolled.trans (quietReach_next (.resume false) rfl rfl)
  split
  · exact ⟨hread.trans (onlyExits_put _ _ _), by rwa [put_worker_self]⟩
  · exact ⟨hread.trans (onlyExits_put _ _ _), by rwa [put_worker_self]⟩

/-! ### Conditions -/

/-- Every change a spawn makes meets `ok`. -/
def SpawnMeets (ok : Worker → Change → Prop) (s : Supervisor W) (w : W)
    (deferSchedule deferResources : Bool) (a : SpawnAnswers W) : Prop :=
  let r := (s.spawnPlan w a).2.worker w
  match (s.spawnPlan w a).1 with
  | .refuse bySchedule _ =>
    ok r (.refuse bySchedule (if bySchedule then deferSchedule else deferResources))
  | .start => ok r .start
  | _ => True

/-- Every change a turn of the monitor makes meets `ok`. -/
def TurnMeets (ok : Worker → Change → Prop) (scheduleAdmitted : Bool)
    (answers : W → TurnAnswers W) (s : Supervisor W) (w : W) : Prop :=
  let s' := (turnPlan scheduleAdmitted answers s w).2
  match (turnPlan scheduleAdmitted answers s w).1 with
  | .leave => True
  | .suspendForSchedule => ok (s'.worker w) .suspendForSchedule
  | .suspendForResource => ok (s'.worker w) .suspendForResource
  | .spawn => SpawnMeets ok s' w false true (answers w).spawn

/-- Every change a turn of `start_service` makes meets `ok`. -/
def ServiceTurnMeets (ok : Worker → Change → Prop) (answers : W → SpawnAnswers W)
    (s : Supervisor W) (w : W) : Prop :=
  (s.worker w).desiredRunning = true → SpawnMeets ok s w true true (answers w)

/-- The supervisor when `start_worker` spawns. -/
def wanted (s : Supervisor W) (w : W) : Supervisor W :=
  s.put w { s.worker w with operatorPaused := false, desiredRunning := true }

/-- The supervisor when `replace_launch` spawns. -/
def replaced (s : Supervisor W) (w : W) (launch : WorkerLaunch) (exited : W → List Nat)
    (now : Rat) : Supervisor W :=
  let s := s.exit exited
  s.put w { ((s.worker w).refresh now).assign launch with desiredRunning := true }

/-- **Every change a step makes meets `ok`.** -/
def Meets (ok : Worker → Change → Prop) (s : Supervisor W) : SupervisorEvent W → Prop
  | .exits _ | .reconfigure _ _ _ _ | .snapshots _ _ => True
  | .startService answers =>
    s.started = false →
      Turns (serviceTurn answers) (ServiceTurnMeets ok answers) s.workers { s with started := true }
  | .monitor schedule answers =>
    Turns (turn schedule.refusal.isNone answers) (TurnMeets ok schedule.refusal.isNone answers)
      s.workers s
  | .startWorker w a =>
    (s.worker w).launch.policyAdmitted = true → SpawnMeets ok (s.wanted w) w false false a
  | .beginPause w operatorAction => ok (s.worker w) (.beginPause operatorAction)
  | .pauseTerminated w i => ok (s.worker w) (.pauseTerminated i)
  | .pauseFailed w i => ok (s.worker w) (.pauseFailed i)
  | .pauseJoined w i => ok (s.worker w) (.pauseJoined i)
  | .pauseTimedOut w i => ok (s.worker w) (.pauseTimedOut i)
  | .suspensionTerminated w i => ok (s.worker w) (.suspensionTerminated i)
  | .suspensionFailed w i => ok (s.worker w) (.suspensionFailed i)
  | .replaceLaunch w launch _ exited now a =>
    launch.policyAdmitted = true → SpawnMeets ok (s.replaced w launch exited now) w true true a
  | .beginShutdown => ∀ w, ok (s.worker w) .shutDown

/-! ### The refinement -/

section

variable {ok : Worker → Change → Prop}

/-- What one worker's part of a region does to all workers. -/
structure WorkerPart (ok : Worker → Change → Prop) (w : W) (s s' : Supervisor W) : Prop
    extends OnlyExits w s s' where
  self : workerMachine.Reach ok (s.worker w) (s'.worker w)

omit [DecidableEq W] in
theorem WorkerPart.refl (w : W) (s : Supervisor W) : WorkerPart ok w s s :=
  ⟨.refl w s, .refl⟩

omit [DecidableEq W] in
theorem WorkerPart.trans {w : W} {s s' s'' : Supervisor W} (h : WorkerPart ok w s s')
    (h' : WorkerPart ok w s' s'') : WorkerPart ok w s s'' :=
  ⟨h.toOnlyExits.trans h'.toOnlyExits, h.self.trans h'.self⟩

omit [DecidableEq W] in
theorem WorkerPart.of_free (hfree : LeavesFree ok) {w : W} {s s' : Supervisor W}
    (honly : OnlyExits w s s') (hself : FreeReach (s.worker w) (s'.worker w)) :
    WorkerPart ok w s s' :=
  ⟨honly, hfree.reach hself⟩

/-- One change of one worker. -/
theorem WorkerPart.put {s : Supervisor W} {w : W} {r : Worker} {c : Change}
    (hok : ok (s.worker w) c) (h : (s.worker w).next c = some r) : WorkerPart ok w s (s.put w r) :=
  ⟨onlyExits_put s w r, by rw [put_worker_self]; exact reach_next hok h⟩

omit [DecidableEq W] in
theorem WorkerPart.reach (hfree : LeavesFree ok) {w : W} {s s' : Supervisor W}
    (h : WorkerPart ok w s s') (w' : W) :
    workerMachine.Reach ok (s.worker w') (s'.worker w') := by
  by_cases hw : w' = w
  · rw [hw]
    exact h.self
  · obtain ⟨exited, hexited⟩ := h.others w' hw
    rw [hexited]
    exact hfree.reach ((quietReach_exit _ _).free)

/-- What a plan says about the worker. -/
def SpawnPlan.Fits (r : Worker) : SpawnPlan → Prop
  | .disown => r.launch.policyAdmitted = false
  | .start | .failToStart => r.alive = false
  | .refuse _ _ | .closed | .running => True

theorem spawnPlan_fits (s : Supervisor W) (w : W) (a : SpawnAnswers W) :
    (s.spawnPlan w a).1.Fits ((s.spawnPlan w a).2.worker w) := by
  unfold spawnPlan
  cases hadmitted : (s.worker w).launch.policyAdmitted with
  | false => exact hadmitted
  | true =>
  simp only [Bool.true_eq_false, if_false]
  cases a.schedule.refusal with
  | some reason => trivial
  | none =>
  simp only
  generalize s.exit a.resources.exited = s₁
  cases s₁.resourceStatus w a.resources with
  | some reason => trivial
  | none =>
  simp only
  cases s₁.closed with
  | true => trivial
  | false =>
    simp only [Bool.false_eq_true, if_false, put_worker_self]
    cases halive : ((s₁.worker w).exit a.exited).alive with
    | true => trivial
    | false => cases a.popen <;> exact halive

/-- A spawn of a worker that is wanted. -/
theorem spawnLocked_part (hfree : LeavesFree ok) {s : Supervisor W} {w : W}
    {deferSchedule deferResources : Bool} {a : SpawnAnswers W}
    (hdesired : (s.worker w).desiredRunning = true)
    (hmeets : SpawnMeets ok s w deferSchedule deferResources a) :
    WorkerPart ok w s (s.spawnLocked w deferSchedule deferResources a).2 := by
  rw [spawnLocked_eq]
  obtain ⟨honly, exited, hself⟩ := s.spawnPlan_free w a
  have hfits := s.spawnPlan_fits w a
  have hplan : WorkerPart ok w s (s.spawnPlan w a).2 :=
    .of_free hfree honly (by rw [hself]; exact (quietReach_exit _ _).free)
  have hwanted : ((s.spawnPlan w a).2.worker w).desiredRunning = true := by
    rw [hself]
    exact hdesired
  unfold SpawnMeets at hmeets
  generalize (s.spawnPlan w a).2 = s₁ at hplan hwanted hmeets hfits
  refine hplan.trans ?_
  cases hcase : (s.spawnPlan w a).1 with
  | disown =>
    rw [hcase] at hfits
    have hnext : (s₁.worker w).next .disown =
        some { s₁.worker w with desiredRunning := false } :=
      if_neg (by rw [show (s₁.worker w).launch.policyAdmitted = false from hfits]; decide)
    exact .put (hfree _ .disown rfl) hnext
  | refuse bySchedule reason =>
    rw [hcase] at hmeets
    exact .put hmeets rfl
  | closed => exact .refl _ _
  | running => exact .refl _ _
  | start =>
    rw [hcase] at hmeets hfits
    have hnext : (s₁.worker w).next .start = some (s₁.worker w).start :=
      if_neg (by rw [show (s₁.worker w).alive = false from hfits, hwanted]; decide)
    exact .put hmeets hnext
  | failToStart =>
    rw [hcase] at hfits
    have hnext : (s₁.worker w).next (.failToStart a.now) =
        some ((s₁.worker w).failToStart a.now) :=
      if_neg (by rw [show (s₁.worker w).alive = false from hfits]; decide)
    exact .put (hfree _ (.failToStart a.now) rfl) hnext

/-- The plan of a turn is to spawn only where the worker is wanted. -/
theorem turnPlan_spawn (scheduleAdmitted : Bool) (answers : W → TurnAnswers W)
    (s : Supervisor W) (w : W) (h : (turnPlan scheduleAdmitted answers s w).1 = .spawn) :
    let r := (turnPlan scheduleAdmitted answers s w).2.worker w
    r.desiredRunning = true ∧ r.process = none ∧ scheduleAdmitted = true := by
  revert h
  unfold turnPlan
  simp only
  generalize ((s.exit (answers w).exited).worker w).refresh (answers w).now = r
  cases scheduleAdmitted with
  | false =>
    simp only [if_true]
    split <;> simp
  | true =>
  simp only [Bool.true_eq_false, if_false]
  split
  · split
    · simp
    · next hidle =>
      cases hdesired : r.desiredRunning <;> simp_all [Worker.resume]
  generalize ((s.exit (answers w).exited).put w r).exit (answers w).resources.exited = s₁
  generalize (s₁.resourceStatus w (answers w).resources).isSome = refused
  generalize (s₁.worker w).exit (answers w).polled = r₁
  split
  · simp
  split
  · split
    · simp
    · next hidle =>
      cases hdesired : r₁.desiredRunning <;> simp_all [Worker.resume]
  split
  · next hdue =>
    intro _
    simp only [Bool.and_eq_true, Option.isNone_iff_eq_none] at hdue
    rw [put_worker_self]
    exact ⟨hdue.1.1.1, hdue.1.1.2, trivial⟩
  · simp

/-- A turn of the monitor. -/
theorem turn_part (hfree : LeavesFree ok) {scheduleAdmitted : Bool} {answers : W → TurnAnswers W}
    {s : Supervisor W} {w : W} (hmeets : TurnMeets ok scheduleAdmitted answers s w) :
    WorkerPart ok w s (turn scheduleAdmitted answers s w).2 := by
  rw [turn_eq]
  obtain ⟨honly, hself⟩ := turnPlan_quiet scheduleAdmitted answers s w
  have hplan := WorkerPart.of_free hfree honly hself.free
  unfold TurnMeets at hmeets
  have hspawn := turnPlan_spawn scheduleAdmitted answers s w
  generalize (turnPlan scheduleAdmitted answers s w).2 = s₁ at hplan hmeets hspawn
  refine hplan.trans ?_
  cases hcase : (turnPlan scheduleAdmitted answers s w).1 with
  | leave => exact .refl _ _
  | suspendForSchedule =>
    rw [hcase] at hmeets
    exact .put hmeets rfl
  | suspendForResource =>
    rw [hcase] at hmeets
    exact .put hmeets rfl
  | spawn =>
    rw [hcase] at hmeets
    exact spawnLocked_part hfree (hspawn hcase).1 hmeets

theorem serviceTurn_part (hfree : LeavesFree ok) {answers : W → SpawnAnswers W}
    {s : Supervisor W} {w : W} (hmeets : ServiceTurnMeets ok answers s w) :
    WorkerPart ok w s (serviceTurn answers s w).2 := by
  unfold serviceTurn
  split
  · next hdesired => exact spawnLocked_part hfree hdesired (hmeets hdesired)
  · exact .refl _ _

omit [DecidableEq W] in
/-- A loop over the workers. -/
theorem forEach_reach (hfree : LeavesFree ok)
    {body : Supervisor W → W → Except SupervisorError Unit × Supervisor W}
    {P : Supervisor W → W → Prop} {ws : List W} {s : Supervisor W} (hturns : Turns body P ws s)
    (hbody : ∀ s w, P s w → WorkerPart ok w s (body s w).2) (w : W) :
    workerMachine.Reach ok (s.worker w) ((forEach body ws s).2.worker w) :=
  forEach_invariant (fun s' => workerMachine.Reach ok (s.worker w) (s'.worker w)) .refl hturns
    fun s₁ w' _ hreach hP => hreach.trans ((hbody s₁ w' hP).reach hfree w)

/-- The assignment of a launch to a worker that is not busy. -/
theorem assign_next {r : Worker} (hbusy : r.busy = false) (launch : WorkerLaunch) :
    r.next (.assign launch false) = some (r.assign launch) := by
  have hdesired : r.desiredRunning = false := by
    simp only [Worker.busy, Bool.or_eq_false_iff] at hbusy
    exact hbusy.1.1.1.1
  show (if r.busy = true then none else
    some { r.assign launch with desiredRunning := false && launch.policyAdmitted }) = _
  rw [if_neg (by simp [hbusy])]
  simp [Worker.assign, hdesired]

/-- After the first loop of `reconfigure` no worker of it is busy. -/
theorem quiesce_idle {now : W → Rat} {ws : List W} {s s' : Supervisor W} (hnodup : ws.Nodup)
    (h : forEach (quiesceTurn now) ws s = (.ok (), s')) :
    (∀ w ∈ ws, (s'.worker w).busy = false) ∧ ∀ w ∉ ws, s'.worker w = s.worker w := by
  induction ws generalizing s with
  | nil =>
    obtain rfl : s = s' := by simpa [forEach] using h
    exact ⟨by simp, fun _ _ => rfl⟩
  | cons w ws ih =>
    rw [forEach_cons] at h
    obtain ⟨hnot, hnodup⟩ := List.nodup_cons.mp hnodup
    by_cases hbusy : ((s.worker w).refresh (now w)).busy = true
    · simp [quiesceTurn, hbusy, Except.isOk, Except.toBool] at h
    · simp only [Bool.not_eq_true] at hbusy
      rw [if_pos (by simp [quiesceTurn, hbusy, Except.isOk, Except.toBool])] at h
      obtain ⟨hidle, hrest⟩ := ih hnodup h
      refine ⟨fun w' hw' => ?_, fun w' hw' => ?_⟩
      · rcases List.mem_cons.mp hw' with rfl | hw'
        · rw [hrest w' hnot]
          simpa [quiesceTurn] using hbusy
        · exact hidle w' hw'
      · obtain ⟨hne, hw'⟩ := not_or.mp (fun h => hw' (List.mem_cons.mpr h))
        rw [hrest w' hw']
        simp [quiesceTurn, hne]

/-- What `replace_launch` does: it stops before a spawn, or it spawns the worker under the new launch,
which the operator has not paused. -/
theorem replaceLaunch_cases (hfree : LeavesFree ok) (s : Supervisor W) (w : W) (launch : WorkerLaunch)
    (start : Option Bool) (exited : W → List Nat) (now : Rat) (a : SpawnAnswers W) :
    WorkerPart ok w s (s.replaceLaunch w launch start exited now a).2 ∨
      launch.policyAdmitted = true ∧ w ∈ s.workers ∧ (s.worker w).operatorPaused = false ∧
        WorkerPart ok w s (s.replaced w launch exited now) ∧
        (s.replaceLaunch w launch start exited now a).2 =
          ((s.replaced w launch exited now).spawnLocked w true true a).2 := by
  have hexit : WorkerPart ok w s (s.exit exited) :=
    .of_free hfree (onlyExits_exit s w exited) ((quietReach_exit _ _).free)
  unfold replaceLaunch
  split
  · exact Or.inl (.refl _ _)
  next hw =>
  split
  · exact Or.inl (.refl _ _)
  simp only
  have hrefresh : WorkerPart ok w (s.exit exited)
      ((s.exit exited).put w (((s.exit exited).worker w).refresh now)) :=
    .put (hfree _ (.refresh now) rfl) rfl
  split
  · exact Or.inl (hexit.trans hrefresh)
  next hbusy =>
  have hpaused : (((s.exit exited).worker w).refresh now).operatorPaused =
      (s.worker w).operatorPaused := by
    rcases ((s.exit exited).worker w).refresh_cases now with heq | ⟨_, _, _, _, _, heq⟩ <;>
    · rw [heq]
      rfl
  generalize hshould : (start.getD launch.autoStart &&
    !(((s.exit exited).worker w).refresh now).operatorPaused) = shouldStart
  generalize hr : ((s.exit exited).worker w).refresh now = r at hrefresh hbusy hpaused hshould
  -- refreshed, the worker is not busy, and is assigned the launch
  have hassign : r.next (.assign launch shouldStart) =
      some { r.assign launch with desiredRunning := shouldStart && launch.policyAdmitted } :=
    if_neg (by simpa using hbusy)
  have hself : workerMachine.Reach ok ((s.exit exited).worker w)
      { r.assign launch with desiredRunning := shouldStart && launch.policyAdmitted } := by
    have hreach := hrefresh.self
    rw [put_worker_self] at hreach
    exact hreach.tail (hfree _ (.assign launch shouldStart) rfl) hassign
  have hput : WorkerPart ok w s ((s.exit exited).put w
      { r.assign launch with desiredRunning := shouldStart && launch.policyAdmitted }) :=
    hexit.trans ⟨onlyExits_put _ _ _, by rwa [put_worker_self]⟩
  split
  · next hstart =>
    simp only [Bool.and_eq_true] at hstart
    obtain ⟨-, hshouldStart, hadmitted⟩ := hstart
    have hreplaced : (s.exit exited).put w
        { r.assign launch with desiredRunning := shouldStart && launch.policyAdmitted } =
          s.replaced w launch exited now := by
      rw [replaced, hshouldStart, hadmitted, ← hr]
      rfl
    rw [hshouldStart, Bool.and_eq_true, Bool.not_eq_true', hpaused] at hshould
    rw [hreplaced] at hput ⊢
    exact Or.inr ⟨hadmitted, not_not.mp hw, hshould.2, hput, rfl⟩
  · exact Or.inl hput

theorem replaceLaunch_part (hfree : LeavesFree ok) {s : Supervisor W} {w : W}
    {launch : WorkerLaunch} {start : Option Bool} {exited : W → List Nat} {now : Rat}
    {a : SpawnAnswers W}
    (hmeets : launch.policyAdmitted = true →
      SpawnMeets ok (s.replaced w launch exited now) w true true a) :
    WorkerPart ok w s (s.replaceLaunch w launch start exited now a).2 := by
  rcases replaceLaunch_cases hfree s w launch start exited now a with
    hpart | ⟨hadmitted, -, -, hreplaced, heq⟩
  · exact hpart
  · rw [heq]
    exact hreplaced.trans (spawnLocked_part hfree (by simp [replaced]) (hmeets hadmitted))

theorem reconfigure_reach (hfree : LeavesFree ok) {s : Supervisor W}
    {launches : Dict W WorkerLaunch} {persisted : Bool} {exited : W → List Nat} {now : W → Rat}
    (w : W) :
    workerMachine.Reach ok (s.worker w)
      ((s.reconfigure launches persisted exited now).2.worker w) := by
  have hexit : workerMachine.Reach ok (s.worker w) ((s.exit exited).worker w) :=
    hfree.reach ((quietReach_exit _ _).free)
  have hturns : Turns (quiesceTurn now) (fun _ _ => True) s.workers (s.exit exited) :=
    .of_forall fun _ _ => trivial
  have hloop := forEach_reach hfree hturns
    (fun s w _ => .put (hfree _ (.refresh (now w)) rfl) rfl) w
  unfold reconfigure
  split
  · exact .refl
  split
  · exact .refl
  rcases hresult : forEach (quiesceTurn now) s.workers (s.exit exited) with ⟨result, s₁⟩
  rw [hresult] at hloop
  cases result with
  | error e => exact hexit.trans hloop
  | ok u =>
    simp only
    split
    · exact hexit.trans hloop
    simp only
    cases launches.lookup w with
    | none => exact hexit.trans hloop
    | some launch =>
      simp only
      split
      · next hmem =>
        have hworkers : s₁.workers = s.workers := by
          have hkept : (forEach (quiesceTurn now) s.workers (s.exit exited)).2.workers = s.workers :=
            forEach_keeps (fun s : Supervisor W => s.workers) fun _ _ => rfl
          rwa [hresult] at hkept
        have hidle := (quiesce_idle s.workers_nodup hresult).1 w (hworkers ▸ hmem)
        exact (hexit.trans hloop).tail (hfree _ (.assign launch false) rfl)
          (assign_next hidle launch)
      · exact hexit.trans hloop

/-- **The supervisor refines a machine for each worker.** A step whose changes all meet `ok` takes
every worker along a run of such changes. -/
theorem next_reach (hfree : LeavesFree ok) {s s' : Supervisor W} {ev : SupervisorEvent W}
    (hmeets : Meets ok s ev) (hstep : s.next ev = some s') (w : W) :
    workerMachine.Reach ok (s.worker w) (s'.worker w) := by
  have hlast : ∀ {w' : W} {c : Change}, ok (s.worker w') c →
      ((s.worker w').next c).map (s.put w') = some s' →
      workerMachine.Reach ok (s.worker w) (s'.worker w) := by
    intro w' c hok hmap
    obtain ⟨r, hnext, rfl⟩ := Option.map_eq_some_iff.mp hmap
    exact (WorkerPart.put hok hnext).reach hfree w
  cases ev with
  | exits exited =>
    obtain rfl := Option.some.inj hstep
    exact hfree.reach ((quietReach_exit _ _).free)
  | startService answers =>
    obtain rfl := Option.some.inj hstep
    unfold startService
    split
    · exact .refl
    split
    · exact .refl
    · next hstarted =>
      have hloop := forEach_reach hfree (hmeets (by simpa using hstarted))
        (fun s w h => serviceTurn_part hfree h) w
      rcases hresult : forEach (serviceTurn answers) s.workers { s with started := true } with
        ⟨result, s₁⟩
      rw [hresult] at hloop
      cases result <;> exact hloop
  | monitor schedule answers =>
    have hloop := forEach_reach hfree hmeets (fun s w h => turn_part hfree h) w
    simp only [next, iteration] at hstep
    split at hstep
    · rcases hresult : forEach (turn schedule.refusal.isNone answers) s.workers s with ⟨result, s₁⟩
      rw [hresult] at hstep hloop
      cases result <;>
      · obtain rfl := Option.some.inj hstep
        exact hloop
    · cases hstep
  | startWorker w' a =>
    obtain rfl := Option.some.inj hstep
    unfold startWorker
    simp only
    split
    · exact .refl
    split
    · next hadmitted =>
      have hnext : (s.worker w').next .disown = some { s.worker w' with desiredRunning := false } :=
        if_neg (by rw [hadmitted]; decide)
      exact (WorkerPart.put (hfree _ .disown rfl) hnext).reach hfree w
    · next hadmitted =>
      simp only [Bool.not_eq_false] at hadmitted
      have hwant : (s.worker w').next .want =
          some { s.worker w' with operatorPaused := false, desiredRunning := true } :=
        if_pos hadmitted
      have hspawn : WorkerPart ok w' (s.wanted w') ((s.wanted w').spawnLocked w' false false a).2 :=
        spawnLocked_part hfree (by simp [wanted]) (hmeets hadmitted)
      exact ((WorkerPart.put (hfree _ .want rfl) hwant).trans hspawn).reach hfree w
  | beginPause w' operatorAction =>
    simp only [next] at hstep
    split at hstep
    · obtain rfl := Option.some.inj hstep
      exact (WorkerPart.put hmeets rfl).reach hfree w
    · obtain rfl := Option.some.inj hstep
      exact .refl
  | pauseTerminated w' i => exact hlast hmeets hstep
  | pauseFailed w' i => exact hlast hmeets hstep
  | pauseJoined w' i => exact hlast hmeets hstep
  | pauseTimedOut w' i => exact hlast hmeets hstep
  | suspensionTerminated w' i => exact hlast hmeets hstep
  | suspensionFailed w' i => exact hlast hmeets hstep
  | replaceLaunch w' launch start exited now a =>
    obtain rfl := Option.some.inj hstep
    exact (replaceLaunch_part hfree hmeets).reach hfree w
  | reconfigure launches persisted exited now =>
    obtain rfl := Option.some.inj hstep
    exact reconfigure_reach hfree w
  | snapshots exited now =>
    obtain rfl := Option.some.inj hstep
    have hexit : FreeReach (s.worker w) ((s.worker w).exit (exited w)) := (quietReach_exit _ _).free
    show workerMachine.Reach ok (s.worker w)
      (if w ∈ s.workers then ((s.worker w).exit (exited w)).refresh (now w)
        else (s.worker w).exit (exited w))
    split
    · exact hfree.reach (hexit.trans (freeReach_next (.refresh (now w)) rfl rfl))
    · exact hfree.reach hexit
  | beginShutdown =>
    obtain rfl := Option.some.inj hstep
    unfold beginShutdown
    split
    · exact .refl
    · show workerMachine.Reach ok (s.worker w) (if w ∈ s.workers then _ else s.worker w)
      split
      · exact reach_next (hmeets w) rfl
      · exact .refl

/-- A property of every worker. -/
def Each (P : Worker → Prop) (s : Supervisor W) : Prop := ∀ w, P (s.worker w)

/-- **The run rule.** What every change under the condition keeps holds of every worker in every state
that steps under the condition reach. -/
theorem each_of_reach {P : Worker → Prop} (hfree : LeavesFree ok) {s₀ s : Supervisor W}
    (hinit : Each P s₀)
    (hnext : ∀ r c r', P r → ok r c → r.next c = some r' → P r')
    (hreach : (supervisorMachine W).Reach (Meets ok) s₀ s) : Each P s := by
  refine hreach.invariant hinit fun s ev s' heach hmeets hstep => ?_
  intro w
  exact (next_reach hfree hmeets hstep w).invariant (heach w) hnext

theorem spawnMeets_always (s : Supervisor W) (w : W)
    (deferSchedule deferResources : Bool) (a : SpawnAnswers W) :
    SpawnMeets Machine.always s w deferSchedule deferResources a := by
  unfold SpawnMeets
  simp only
  split <;> trivial

theorem turnMeets_always (scheduleAdmitted : Bool) (answers : W → TurnAnswers W)
    (s : Supervisor W) (w : W) : TurnMeets Machine.always scheduleAdmitted answers s w := by
  unfold TurnMeets
  simp only
  split
  · trivial
  · trivial
  · trivial
  · exact spawnMeets_always _ _ _ _ _

/-- The condition that everything meets is met by every step. -/
theorem meets_always (s : Supervisor W) (ev : SupervisorEvent W) : Meets Machine.always s ev := by
  cases ev with
  | startService answers =>
    exact fun _ => .of_forall fun s w _ => s.spawnMeets_always w true true (answers w)
  | monitor schedule answers =>
    exact .of_forall fun s w => turnMeets_always _ answers s w
  | startWorker w a => exact fun _ => spawnMeets_always _ _ _ _ _
  | replaceLaunch w launch start exited now a => exact fun _ => spawnMeets_always _ _ _ _ _
  | beginShutdown => exact fun _ => trivial
  | _ => trivial

/-- **A worker in a completed loop.** Before and after its own turn, the turns of the others only see
its processes exit. -/
theorem forEach_turn {body : Supervisor W → W → Except SupervisorError Unit × Supervisor W}
    {P : Supervisor W → W → Prop} {ws : List W} (hnodup : ws.Nodup)
    (hbody : ∀ s w, P s w → OnlyExits w s (body s w).2) {w : W} (hw : w ∈ ws) {s s' : Supervisor W}
    (hturns : Turns body P ws s) (h : forEach body ws s = (.ok (), s')) :
    ∃ s₁ exited exited', s₁.worker w = (s.worker w).exit exited ∧ P s₁ w ∧
      s'.worker w = ((body s₁ w).2.worker w).exit exited' := by
  induction ws generalizing s with
  | nil => cases hw
  | cons w' ws ih =>
    obtain ⟨hnot, hnodup⟩ := List.nodup_cons.mp hnodup
    have hok : (body s w').1.isOk = true := by
      have hcompleted : (forEach body (w' :: ws) s).1.isOk = true := by rw [h]; rfl
      exact (forEach_isOk_iff.mp hcompleted).1
    rw [forEach_cons, if_pos hok] at h
    by_cases hsame : w = w'
    · subst hsame
      have hrest : ∃ exited', (forEach body ws (body s w).2).2.worker w =
          ((body s w).2.worker w).exit exited' := by
        refine forEach_invariant
          (fun s' => ∃ exited', s'.worker w = ((body s w).2.worker w).exit exited')
          ⟨[], by simp⟩ (hturns.2 hok) fun s₁ w₁ hw₁ hexits hP => ?_
        obtain ⟨exited', hexited'⟩ := hexits
        have hne : w ≠ w₁ := fun heq => hnot (heq ▸ hw₁)
        obtain ⟨exited'', hexited''⟩ := (hbody s₁ w₁ hP).others w hne
        exact ⟨exited' ++ exited'', by rw [hexited'', hexited', Worker.exit_exit]⟩
      rw [h] at hrest
      obtain ⟨exited', hexited'⟩ := hrest
      exact ⟨s, [], exited', by simp, hturns.1, hexited'⟩
    · have hmem : w ∈ ws := (List.mem_cons.mp hw).resolve_left hsame
      obtain ⟨s₁, exited, exited', hbefore, hP, hafter⟩ := ih hnodup hmem (hturns.2 hok) h
      obtain ⟨exited₀, hexited₀⟩ := (hbody s w' hturns.1).others w hsame
      exact ⟨s₁, exited₀ ++ exited, exited',
        by rw [hbefore, hexited₀, Worker.exit_exit], hP, hafter⟩

end

end Supervisor

end Drift.Node
