import Mathlib
import Drift.Lib.Machine
import Drift.Lib.Loop
import Drift.Lib.Dict

/-!
# The worker supervisor

`WorkerSupervisor` runs the contribution workers of a node as processes. One lock protects its
records; the monitor thread, the operator's calls, and the threads that wait for a process to end each
take it for a while. Every such region of the source is one step here, with the answers of the schedule,
the telemetry and the operating system as its arguments. Regions of different threads interleave
freely.

A worker is its record together with what goes on outside the lock: the processes that run, the threads
that suspend it, and the calls of `_pause_worker` between their two regions. A process exits at any
moment; inside a region the exits that a `poll` sees are among the region's answers. `restart_worker` is
a pause and a start, and takes the lock in these only.

* `Worker.refresh`, `Worker.suspend`, `Supervisor.spawnLocked`, `Supervisor.turn` — the parts of regions;
* `Supervisor.next` — every region as a step.
-/

namespace Drift.Node

open Drift.Lib

/-- `WorkerState`. -/
inductive WorkerState
  | paused | starting | running | stopping | crashed
  deriving DecidableEq, Repr

/-- The VRAM fields of a launch, which are given together or not at all. -/
structure VramReservation where
  maxVramBytes : Nat
  vramDevice : String
  vramPoolBytes : Nat
  positive : 0 < maxVramBytes
  covers : maxVramBytes ≤ vramPoolBytes
  deriving DecidableEq

/-- `WorkerLaunch`, as `__post_init__` admits it. -/
structure WorkerLaunch where
  workerId : String
  modelId : String
  command : List String
  autoStart : Bool
  autoRestart : Bool
  restartBackoff : Rat
  policyAdmitted : Bool
  policyReason : Option String
  preferred : Bool
  automatic : Bool
  blockIndices : Option String
  placementReason : Option String
  maxDiskBytes : Option Nat
  vram : Option VramReservation
  maxBandwidthMbps : Option Rat
  maxPowerWatts : Option Rat
  environment : List (String × String)
  named : workerId ≠ "" ∧ command ≠ []
  backoff_pos : 0 < restartBackoff
  reason : if policyAdmitted then policyReason = none else ∃ r ∈ policyReason, r ≠ ""
  placement : if automatic then blockIndices.isSome ∧ placementReason.isSome
    else blockIndices = none ∧ placementReason = none
  limits : (∀ n ∈ maxDiskBytes, 0 < n) ∧ (∀ x ∈ maxBandwidthMbps, 0 < x) ∧ ∀ x ∈ maxPowerWatts, 0 < x
  environment_names : ∀ v ∈ environment, v.1 ≠ ""
  deriving DecidableEq

/-- Why a worker may not run. -/
inductive Refusal
  | launch (reason : Option String)
  | scheduleNotEvaluated
  | outsideSchedule
  | vramReserved (device : String)
  | telemetryUnavailable (label : String)
  | budgetExceeded (label unit : String) (value limit : Rat)
  deriving DecidableEq, Repr

/-- What the supervisor raises. -/
inductive SupervisorError
  | policy (reason : Refusal)
  | closed
  | notFound
  | busy
  | workerSet
  | persist
  deriving DecidableEq, Repr

/-- A call of the schedule callback: it can raise, or return something else than a truth value. -/
inductive ScheduleAnswer
  | allowed | outside | failed
  deriving DecidableEq, Repr

/-- `_schedule_status`: the reason if the schedule is closed. -/
def ScheduleAnswer.refusal : ScheduleAnswer → Option Refusal
  | allowed => none
  | outside => some .outsideSchedule
  | failed => some .scheduleNotEvaluated

/-- The answers `_resource_status_locked` gets. -/
structure ResourceAnswers (W : Type) where
  /-- The processes that exited when they are polled for their VRAM. -/
  exited : W → List Nat
  bandwidthMbps : Option Rat
  powerWatts : Option Rat

/-- The answers `_spawn_locked` gets. -/
structure SpawnAnswers (W : Type) where
  schedule : ScheduleAnswer
  resources : ResourceAnswers W
  /-- The worker's processes that exited when its own one is polled. -/
  exited : List Nat
  /-- Whether `popen` returns a process. -/
  popen : Bool
  now : Rat

/-- `_measured_budget_status_locked`. A reading that raises or is not a number is `none`. -/
def measuredBudgetStatus (label unit : String) (limit value : Option Rat) : Option Refusal :=
  match limit with
  | none => none
  | some limit =>
    match value with
    | none => some (.telemetryUnavailable label)
    | some value =>
      if value < 0 then some (.telemetryUnavailable label)
      else if limit < value then some (.budgetExceeded label unit value limit)
      else none

/-! ### A worker -/

/-- `_WorkerRecord`. Processes and threads are numbered in the order they are started. -/
structure WorkerRecord where
  launch : WorkerLaunch
  state : WorkerState
  desiredRunning : Bool
  operatorPaused : Bool
  process : Option Nat
  nextRestartAt : Rat
  scheduleSuspended : Bool
  resourceSuspended : Bool
  suspensionStopThread : Option Nat

/-- A thread in `_finish_suspension`, and the process it terminates. -/
structure Suspension where
  thread : Nat
  process : Nat
  deriving DecidableEq, Repr

/-- A call of `_pause_worker` between its regions. -/
inductive Pause
  | terminating (process : Nat)
  | joining (thread : Nat)
  deriving DecidableEq, Repr

/-- A record, and what goes on outside the lock. -/
structure Worker extends WorkerRecord where
  /-- The processes of the worker that run. -/
  live : List Nat
  suspensions : List Suspension
  pauses : List Pause
  processes : Nat
  threads : Nat

namespace Worker

/-- `record.process is not None and record.process.poll() is None`. -/
def alive (r : Worker) : Bool := r.process.any (· ∈ r.live)

/-- Some processes exit. -/
def exit (r : Worker) (exited : List Nat) : Worker :=
  { r with live := r.live.filter (· ∉ exited) }

/-- `_refresh_locked`. -/
def refresh (r : Worker) (now : Rat) : Worker :=
  match r.process with
  | none => r
  | some process =>
    if r.state = .stopping then r
    else if process ∈ r.live then r
    else if r.desiredRunning then
      { r with process := none, state := .crashed, nextRestartAt := now + r.launch.restartBackoff }
    else { r with process := none, state := .paused }

/-- The part of `_suspend_locked` after the flags are set. -/
def stopForPolicy (r : Worker) : Worker :=
  match r.suspensionStopThread with
  | some _ => r
  | none =>
    match r.process with
    | none => { r with state := .paused }
    | some process =>
      { r with
        state := .stopping
        suspensionStopThread := some r.threads
        threads := r.threads + 1
        suspensions := r.suspensions ++ [⟨r.threads, process⟩] }

/-- `_suspend_locked(record, schedule=True)`. -/
def suspendForSchedule (r : Worker) : Worker :=
  { r with scheduleSuspended := true }.stopForPolicy

/-- `_suspend_locked(record, resource=True)`. -/
def suspendForResource (r : Worker) : Worker :=
  { r with resourceSuspended := true }.stopForPolicy

/-- The record after `popen` returned a process, which runs from then on. -/
def start (r : Worker) : Worker :=
  { r with
    process := some r.processes
    state := .running
    scheduleSuspended := false
    resourceSuspended := false
    live := r.processes :: r.live
    processes := r.processes + 1 }

/-- The record after `popen` raised. -/
def failToStart (r : Worker) (now : Rat) : Worker :=
  { r with process := none, state := .crashed, nextRestartAt := now + r.launch.restartBackoff }

/-- The checks of `replace_launch` and `reconfigure` on a worker that has to be paused. -/
def busy (r : Worker) : Bool :=
  r.desiredRunning || r.process.isSome || r.suspensionStopThread.isSome || r.state = .starting ||
    r.state = .stopping

/-- The assignments `replace_launch` and `reconfigure` have in common. -/
def assign (r : Worker) (launch : WorkerLaunch) : Worker :=
  { r with launch := launch, scheduleSuspended := false, resourceSuspended := false }

/-- The first region of `_pause_worker`. -/
def beginPause (r : Worker) (operatorAction : Bool) : Worker :=
  let r := { r with
    operatorPaused := r.operatorPaused || operatorAction
    desiredRunning := false
    scheduleSuspended := false
    resourceSuspended := false }
  match r.suspensionStopThread with
  | some thread => { r with pauses := r.pauses ++ [.joining thread] }
  | none =>
    match r.process with
    | none => { r with state := .paused }
    | some process => { r with state := .stopping, pauses := r.pauses ++ [.terminating process] }

/-- The process of a record is dropped if it is the given one. -/
def dropProcess (r : Worker) (process : Nat) : Worker :=
  if r.process = some process then { r with process := none } else r

/-- The last region of a pause, once the process it terminates has ended. -/
def pauseTerminated (r : Worker) (i : Nat) : Option Worker :=
  match r.pauses[i]? with
  | some (.terminating process) =>
    if process ∈ r.live then none
    else some { r.dropProcess process with state := .paused, pauses := r.pauses.eraseIdx i }
  | _ => none

/-- The last region of a pause whose process did not end. -/
def pauseFailed (r : Worker) (i : Nat) : Option Worker :=
  match r.pauses[i]? with
  | some (.terminating _) => some { r with state := .crashed, pauses := r.pauses.eraseIdx i }
  | _ => none

/-- The last region of a pause that joined a suspension, which raises if the record has a process. -/
def pauseJoined (r : Worker) (i : Nat) : Option Worker :=
  match r.pauses[i]? with
  | some (.joining thread) =>
    if r.suspensions.any (·.thread = thread) then none
    else if r.process.isSome then some { r with pauses := r.pauses.eraseIdx i }
    else some { r with state := .paused, pauses := r.pauses.eraseIdx i }
  | _ => none

/-- A pause gives up joining a suspension. -/
def pauseTimedOut (r : Worker) (i : Nat) : Option Worker :=
  match r.pauses[i]? with
  | some (.joining thread) =>
    if r.suspensions.any (·.thread = thread) then some { r with pauses := r.pauses.eraseIdx i }
    else none
  | _ => none

/-- A suspension thread ends. -/
def endSuspension (r : Worker) (i thread : Nat) : Worker :=
  { r with
    suspensions := r.suspensions.eraseIdx i
    suspensionStopThread :=
      if r.suspensionStopThread = some thread then none else r.suspensionStopThread }

/-- The region of `_finish_suspension`, once the process has ended. -/
def suspensionTerminated (r : Worker) (i : Nat) : Option Worker :=
  match r.suspensions[i]? with
  | some j =>
    if j.process ∈ r.live then none
    else some ({ r.dropProcess j.process with state := .paused }.endSuspension i j.thread)
  | none => none

/-- The region of `_finish_suspension` if the process did not end. -/
def suspensionFailed (r : Worker) (i : Nat) : Option Worker :=
  match r.suspensions[i]? with
  | some j =>
    some ({ r with
      scheduleSuspended := false, resourceSuspended := false, state := .crashed }.endSuspension
        i j.thread)
  | none => none

end Worker

/-! ### The supervisor -/

/-- `WorkerSupervisor`. `workers` are the keys of `_records` in their order. -/
structure Supervisor (W : Type) where
  workers : List W
  workers_nodup : workers.Nodup
  worker : W → Worker
  started : Bool
  /-- Whether the monitor thread is in its loop. -/
  monitoring : Bool
  closed : Bool

namespace Supervisor

variable {W : Type} [DecidableEq W]

/-- `__init__`. -/
def initial (workers : List W) (hnodup : workers.Nodup) (launches : W → WorkerLaunch) :
    Supervisor W where
  workers := workers
  workers_nodup := hnodup
  worker w :=
    { launch := launches w
      state := .paused
      desiredRunning := (launches w).autoStart && (launches w).policyAdmitted
      operatorPaused := false
      process := none
      nextRestartAt := 0
      scheduleSuspended := false
      resourceSuspended := false
      suspensionStopThread := none
      live := []
      suspensions := []
      pauses := []
      processes := 0
      threads := 0 }
  started := false
  monitoring := false
  closed := false

/-- The supervisor with one worker changed. -/
def put (s : Supervisor W) (w : W) (r : Worker) : Supervisor W :=
  { s with worker := Function.update s.worker w r }

omit [DecidableEq W] in
/-- Processes of any workers exit. -/
def exit (s : Supervisor W) (exited : W → List Nat) : Supervisor W :=
  { s with worker := fun w => (s.worker w).exit (exited w) }

/-- The VRAM of a device that the processes of the other workers hold. -/
def reservedVram (s : Supervisor W) (w : W) (device : String) : Nat :=
  ((s.workers.filter fun other => other ≠ w ∧ (s.worker other).alive).map fun other =>
    match (s.worker other).launch.vram with
    | none => 0
    | some v => if v.vramDevice = device then v.maxVramBytes else 0).sum

/-- The VRAM part of `_resource_status_locked`. -/
def vramStatus (s : Supervisor W) (w : W) : Option Refusal :=
  match (s.worker w).launch.vram with
  | none => none
  | some v =>
    if v.vramPoolBytes < s.reservedVram w v.vramDevice + v.maxVramBytes then
      some (.vramReserved v.vramDevice)
    else none

/-- `_resource_status_locked`, once the exits its polls see have happened. -/
def resourceStatus (s : Supervisor W) (w : W) (a : ResourceAnswers W) : Option Refusal :=
  let launch := (s.worker w).launch
  s.vramStatus w
    <|> measuredBudgetStatus "bandwidth" "Mbps" launch.maxBandwidthMbps a.bandwidthMbps
    <|> measuredBudgetStatus "power" "W" launch.maxPowerWatts a.powerWatts

/-- `_spawn_locked`, with `defer_outside_schedule` and `defer_unavailable_resources`. -/
def spawnLocked (s : Supervisor W) (w : W) (deferSchedule deferResources : Bool)
    (a : SpawnAnswers W) : Except SupervisorError Bool × Supervisor W :=
  let r := s.worker w
  if r.launch.policyAdmitted = false then
    (.error (.policy (.launch r.launch.policyReason)), s.put w { r with desiredRunning := false })
  else
    match a.schedule.refusal with
    | some reason =>
      let r := { r with
        state := .paused, scheduleSuspended := deferSchedule && r.desiredRunning }
      if deferSchedule then (.ok false, s.put w r)
      else (.error (.policy reason), s.put w { r with desiredRunning := false })
    | none =>
      let s := s.exit a.resources.exited
      let r := s.worker w
      match s.resourceStatus w a.resources with
      | some reason =>
        let r := { r with
          state := .paused, resourceSuspended := deferResources && r.desiredRunning }
        if deferResources then (.ok false, s.put w r)
        else (.error (.policy reason), s.put w { r with desiredRunning := false })
      | none =>
        if s.closed then (.error .closed, s)
        else
          let r := r.exit a.exited
          if r.alive then (.ok false, s.put w r)
          else if a.popen then (.ok true, s.put w r.start)
          else (.ok false, s.put w (r.failToStart a.now))

/-! ### The monitor -/

/-- The answers one turn of the monitor's loop gets. -/
structure TurnAnswers (W : Type) where
  /-- The processes that exited when the record is refreshed. -/
  exited : W → List Nat
  now : Rat
  resources : ResourceAnswers W
  /-- The worker's processes that exited when its own one is polled. -/
  polled : List Nat
  /-- The time that is compared with `next_restart_at`. -/
  clock : Rat
  spawn : SpawnAnswers W

/-- The body of the monitor's loop over the records. `scheduleAdmitted` is the answer from the top of
the iteration. -/
def turn (scheduleAdmitted : Bool) (answers : W → TurnAnswers W) (s : Supervisor W) (w : W) :
    Except SupervisorError Unit × Supervisor W :=
  let a := answers w
  let s := s.exit a.exited
  let r := (s.worker w).refresh a.now
  if scheduleAdmitted = false then
    if r.desiredRunning && (r.process.isSome || r.state = .paused) then
      (.ok (), s.put w r.suspendForSchedule)
    else (.ok (), s.put w r)
  else if r.scheduleSuspended then
    if r.suspensionStopThread.isSome || r.process.isSome then (.ok (), s.put w r)
    else
      let s := s.put w { r with scheduleSuspended := false }
      if r.desiredRunning then
        let (result, s) := s.spawnLocked w false true a.spawn
        (result.map fun _ => (), s)
      else (.ok (), s)
  else
    let s := (s.put w r).exit a.resources.exited
    let refused := (s.resourceStatus w a.resources).isSome
    let r := (s.worker w).exit a.polled
    if refused && r.desiredRunning && r.alive then (.ok (), s.put w r.suspendForResource)
    else if r.resourceSuspended then
      if r.suspensionStopThread.isSome || r.process.isSome || refused then (.ok (), s.put w r)
      else
        let s := s.put w { r with resourceSuspended := false }
        if r.desiredRunning then
          let (result, s) := s.spawnLocked w false true a.spawn
          (result.map fun _ => (), s)
        else (.ok (), s)
    else if r.desiredRunning && r.process.isNone && r.launch.autoRestart &&
        decide (r.nextRestartAt ≤ a.clock) then
      let (result, s) := (s.put w r).spawnLocked w false true a.spawn
      (result.map fun _ => (), s)
    else (.ok (), s.put w r)

/-- The region of an iteration of `_monitor_loop`, after the schedule was asked at its top. -/
def iteration (s : Supervisor W) (schedule : ScheduleAnswer) (answers : W → TurnAnswers W) :
    Except SupervisorError Unit × Supervisor W :=
  forEach (turn schedule.refusal.isNone answers) s.workers s

/-! ### The operations -/

/-- The body of the loop of `start_service`. -/
def serviceTurn (answers : W → SpawnAnswers W) (s : Supervisor W) (w : W) :
    Except SupervisorError Unit × Supervisor W :=
  if (s.worker w).desiredRunning then
    let (result, s) := s.spawnLocked w true true (answers w)
    (result.map fun _ => (), s)
  else (.ok (), s)

/-- `start_service`. The monitor is started after the loop. -/
def startService (s : Supervisor W) (answers : W → SpawnAnswers W) :
    Except SupervisorError Unit × Supervisor W :=
  if s.closed then (.error .closed, s)
  else if s.started then (.ok (), s)
  else
    match forEach (serviceTurn answers) s.workers { s with started := true } with
    | (.error e, s) => (.error e, s)
    | (.ok (), s) => (.ok (), { s with monitoring := true })

/-- `start_worker`. -/
def startWorker (s : Supervisor W) (w : W) (a : SpawnAnswers W) :
    Except SupervisorError Bool × Supervisor W :=
  let r := s.worker w
  if w ∉ s.workers then (.error .notFound, s)
  else if r.launch.policyAdmitted = false then
    (.error (.policy (.launch r.launch.policyReason)), s.put w { r with desiredRunning := false })
  else
    (s.put w { r with operatorPaused := false, desiredRunning := true }).spawnLocked w false false a

/-- `replace_launch`. The start argument is `none` where the launch's own `auto_start` counts. -/
def replaceLaunch (s : Supervisor W) (w : W) (launch : WorkerLaunch) (start : Option Bool)
    (exited : W → List Nat) (now : Rat) (a : SpawnAnswers W) :
    Except SupervisorError Bool × Supervisor W :=
  if w ∉ s.workers then (.error .notFound, s)
  else if s.closed then (.error .closed, s)
  else
    let s := s.exit exited
    let r := (s.worker w).refresh now
    if r.busy then (.error .busy, s.put w r)
    else
      let changed := decide (r.launch ≠ launch)
      let shouldStart := start.getD launch.autoStart && !r.operatorPaused
      let s := s.put w
        { r.assign launch with desiredRunning := shouldStart && launch.policyAdmitted }
      if s.started && (shouldStart && launch.policyAdmitted) then
        let (result, s) := s.spawnLocked w true true a
        (result.map fun _ => changed, s)
      else (.ok changed, s)

/-- The body of the first loop of `reconfigure`. -/
def quiesceTurn (now : W → Rat) (s : Supervisor W) (w : W) :
    Except SupervisorError Unit × Supervisor W :=
  let r := (s.worker w).refresh (now w)
  (if r.busy then .error .busy else .ok (), s.put w r)

/-- `reconfigure`: `launches` are those of the settings by their normalized ids, and `persisted` says
whether the callback returns. -/
def reconfigure (s : Supervisor W) (launches : Dict W WorkerLaunch) (persisted : Bool)
    (exited : W → List Nat) (now : W → Rat) : Except SupervisorError Unit × Supervisor W :=
  if s.closed then (.error .closed, s)
  else if ¬ ((∀ w ∈ s.workers, w ∈ launches.keys) ∧ ∀ w ∈ launches.keys, w ∈ s.workers) then
    (.error .workerSet, s)
  else
    match forEach (quiesceTurn now) s.workers (s.exit exited) with
    | (.error e, s) => (.error e, s)
    | (.ok (), s) =>
      if persisted = false then (.error .persist, s)
      else
        (.ok (), { s with
          worker := fun w =>
            match launches.lookup w with
            | none => s.worker w
            | some launch => if w ∈ s.workers then (s.worker w).assign launch else s.worker w })

/-- `snapshots` refreshes every record. -/
def snapshots (s : Supervisor W) (exited : W → List Nat) (now : W → Rat) : Supervisor W :=
  let s := s.exit exited
  { s with worker := fun w => if w ∈ s.workers then (s.worker w).refresh (now w) else s.worker w }

/-- The first region of `shutdown`. An iteration of the monitor that is waiting for the lock still
runs. -/
def beginShutdown (s : Supervisor W) : Supervisor W :=
  if s.closed then s
  else
    { s with
      closed := true
      worker := fun w =>
        if w ∈ s.workers then
          { s.worker w with
            desiredRunning := false, scheduleSuspended := false, resourceSuspended := false }
        else s.worker w }

/-! ### Steps -/

end Supervisor

/-- The regions, with their arguments and answers. -/
inductive SupervisorEvent (W : Type)
  | exits (exited : W → List Nat)
  | startService (answers : W → SpawnAnswers W)
  | monitor (schedule : ScheduleAnswer) (answers : W → Supervisor.TurnAnswers W)
  | startWorker (w : W) (a : SpawnAnswers W)
  | beginPause (w : W) (operatorAction : Bool)
  | pauseTerminated (w : W) (i : Nat)
  | pauseFailed (w : W) (i : Nat)
  | pauseJoined (w : W) (i : Nat)
  | pauseTimedOut (w : W) (i : Nat)
  | suspensionTerminated (w : W) (i : Nat)
  | suspensionFailed (w : W) (i : Nat)
  | replaceLaunch (w : W) (launch : WorkerLaunch) (start : Option Bool) (exited : W → List Nat)
      (now : Rat) (a : SpawnAnswers W)
  | reconfigure (launches : Dict W WorkerLaunch) (persisted : Bool) (exited : W → List Nat)
      (now : W → Rat)
  | snapshots (exited : W → List Nat) (now : W → Rat)
  | beginShutdown

namespace Supervisor

variable {W : Type} [DecidableEq W]

/-- The step of a region. The last region of a pause or of a suspension is enabled when what it waits
for has happened; the monitor iterates until an iteration raises. -/
def next (s : Supervisor W) : SupervisorEvent W → Option (Supervisor W)
  | .exits exited => some (s.exit exited)
  | .startService answers => some (s.startService answers).2
  | .monitor schedule answers =>
    if s.monitoring then
      match s.iteration schedule answers with
      | (.ok (), s') => some s'
      | (.error _, s') => some { s' with monitoring := false }
    else none
  | .startWorker w a => some (s.startWorker w a).2
  | .beginPause w operatorAction =>
    if w ∈ s.workers then some (s.put w ((s.worker w).beginPause operatorAction)) else some s
  | .pauseTerminated w i => ((s.worker w).pauseTerminated i).map (s.put w)
  | .pauseFailed w i => ((s.worker w).pauseFailed i).map (s.put w)
  | .pauseJoined w i => ((s.worker w).pauseJoined i).map (s.put w)
  | .pauseTimedOut w i => ((s.worker w).pauseTimedOut i).map (s.put w)
  | .suspensionTerminated w i => ((s.worker w).suspensionTerminated i).map (s.put w)
  | .suspensionFailed w i => ((s.worker w).suspensionFailed i).map (s.put w)
  | .replaceLaunch w launch start exited now a =>
    some (s.replaceLaunch w launch start exited now a).2
  | .reconfigure launches persisted exited now =>
    some (s.reconfigure launches persisted exited now).2
  | .snapshots exited now => some (s.snapshots exited now)
  | .beginShutdown => some s.beginShutdown

end Supervisor

/-- The supervisor as a machine. -/
def supervisorMachine (W : Type) [DecidableEq W] : Machine (Supervisor W) (SupervisorEvent W) :=
  ⟨Supervisor.next⟩

end Drift.Node
