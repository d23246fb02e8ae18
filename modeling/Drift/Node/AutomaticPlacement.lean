import Drift.Node.WorkerChanges

/-!
# Automatic placement

`reconcile` of the automatic-placement service plans the launches of the automatic workers and then goes
over the workers one by one: a worker whose launch has changed is paused, and gets its new launch with
the intent that it had before. Between these calls the supervisor's other threads take the lock as they
like. A call that raises ends the reconcile; the service logs that and calls it again.

How the launches are planned is left open, so a reconcile may end with any launches for its workers, or
raise before it touches one. To speak of the run the state also keeps, for each worker, whether it is
intended to run: it was wanted before a reconcile, none has been completed since, and neither the
operator nor the policy has taken that back.

* `Reconcile`, `PlacementState.next` — the loop, step by step;
* `placementMachine` — all interleavings with the supervisor.
-/

namespace Drift.Node

open Drift.Lib

variable {W : Type} [DecidableEq W]

/-! ### The state -/

/-- The loop over the workers: the launches they had before, and those still to be gone over. -/
structure Round (W : Type) where
  previous : W → Option WorkerLaunch
  todo : List (W × WorkerLaunch)

/-- The worker in hand: its new launch, and the `start` argument. -/
structure InHand (W : Type) where
  worker : W
  launch : WorkerLaunch
  start : Option Bool

/-- Where `reconcile` stands. -/
inductive Reconcile (W : Type)
  | idle
  | planning
  | turning (round : Round W)
  | pausing (round : Round W) (hand : InHand W)
  | waiting (round : Round W) (hand : InHand W) (pause : Pause)
  | replacing (round : Round W) (hand : InHand W)

structure PlacementState (W : Type) where
  supervisor : Supervisor W
  reconcile : Reconcile W
  intended : W → Bool

/-- How the wait of a pause ends. -/
inductive PauseEnd
  | terminated | failed | joined | timedOut
  deriving DecidableEq, Repr

/-- The region that ends a pause. -/
def PauseEnd.event : PauseEnd → W → Nat → SupervisorEvent W
  | .terminated, w, i => .pauseTerminated w i
  | .failed, w, i => .pauseFailed w i
  | .joined, w, i => .pauseJoined w i
  | .timedOut, w, i => .pauseTimedOut w i

/-- Whether `_pause_worker` then raises. -/
def PauseEnd.raises (e : PauseEnd) (r : Worker) : Bool :=
  match e with
  | .terminated => false
  | .failed | .timedOut => true
  | .joined => r.process.isSome

inductive PlacementEvent (W : Type)
  /-- A region of another thread. -/
  | other (ev : SupervisorEvent W)
  | start
  /-- The reconcile raises while it plans. -/
  | fail
  | plan (launches : List (W × WorkerLaunch))
  | turn (exited : W → List Nat) (now : W → Rat)
  | pause
  | pauseEnds (e : PauseEnd) (i : Nat)
  | replace (exited : W → List Nat) (now : Rat) (a : SpawnAnswers W)
  | finish

/-! ### Steps -/

/-- `current_launches`: the launches of the automatic workers. -/
def currentLaunches (s : Supervisor W) (w : W) : Option WorkerLaunch :=
  if w ∈ s.workers ∧ (s.worker w).launch.automatic = true then some (s.worker w).launch else none

/-- Whether a region leaves the intent to run a worker as it was: the operator has not paused it, its
flag was not taken back, and the supervisor is not closed. -/
def keepsIntent (s s' : Supervisor W) (w : W) : Bool :=
  !(s'.worker w).operatorPaused && (!(s.worker w).desiredRunning || (s'.worker w).desiredRunning) &&
    !s'.closed

/-- A region that only the reconcile enters. -/
def reconcileOnly : SupervisorEvent W → Bool
  | .beginPause _ operatorAction => !operatorAction
  | .replaceLaunch _ _ _ _ _ _ => true
  | _ => false

namespace PlacementState

/-- The worker in hand of the next turn, and whether it has to be paused. -/
def takeInHand (previous launch : WorkerLaunch) (w : W) (r : Worker) : InHand W × Bool :=
  let start :=
    if r.operatorPaused then some false
    else if previous.policyAdmitted = false then none
    else some r.desiredRunning
  (⟨w, launch, start⟩,
    r.desiredRunning || decide (r.state ∈ [WorkerState.starting, .running, .stopping]))

/-- The worker in hand has been paused, or is being. -/
def afterPause (round : Round W) (hand : InHand W) (r : Worker) : Reconcile W :=
  match r.suspensionStopThread, r.process with
  | some thread, _ => .waiting round hand (.joining thread)
  | none, some process => .waiting round hand (.terminating process)
  | none, none => .replacing round hand

def next (s : PlacementState W) : PlacementEvent W → Option (PlacementState W)
  | .other ev =>
    if reconcileOnly ev then none
    else
      (s.supervisor.next ev).map fun t =>
        { s with supervisor := t, intended := fun w => s.intended w && keepsIntent s.supervisor t w }
  | .start =>
    match s.reconcile with
    | .idle => some { s with
        reconcile := .planning
        intended := fun w => s.intended w ||
          ((s.supervisor.worker w).desiredRunning && !(s.supervisor.worker w).operatorPaused) }
    | _ => none
  | .fail =>
    match s.reconcile with
    | .planning => some { s with reconcile := .idle }
    | _ => none
  | .plan launches =>
    match s.reconcile with
    | .planning => some { s with
        reconcile := .turning ⟨currentLaunches s.supervisor, launches.filter (·.2.automatic)⟩ }
    | _ => none
  | .turn exited now =>
    match s.reconcile with
    | .turning ⟨previous, (w, launch) :: todo⟩ =>
      match previous w with
      | none => some { s with reconcile := .turning ⟨previous, todo⟩ }
      | some before =>
        if before = launch then some { s with reconcile := .turning ⟨previous, todo⟩ }
        else
          let t := s.supervisor.snapshots exited now
          let (hand, pauses) := takeInHand before launch w (t.worker w)
          some { s with
            supervisor := t
            reconcile := if pauses then .pausing ⟨previous, todo⟩ hand
              else .replacing ⟨previous, todo⟩ hand }
    | _ => none
  | .pause =>
    match s.reconcile with
    | .pausing round hand =>
      (s.supervisor.next (.beginPause hand.worker false)).map fun t =>
        { s with
          supervisor := t
          reconcile := afterPause round hand (s.supervisor.worker hand.worker) }
    | _ => none
  | .pauseEnds e i =>
    match s.reconcile with
    | .waiting round hand pause =>
      let r := s.supervisor.worker hand.worker
      if r.pauses[i]? = some pause then
        (s.supervisor.next (e.event hand.worker i)).map fun t =>
          { s with
            supervisor := t
            reconcile := if e.raises r then .idle else .replacing round hand }
      else none
    | _ => none
  | .replace exited now a =>
    match s.reconcile with
    | .replacing round hand =>
      match s.supervisor.replaceLaunch hand.worker hand.launch hand.start exited now a with
      | (.ok _, t) => some { s with
          supervisor := t
          reconcile := .turning round
          -- a placement that is not admitted excludes the worker
          intended := fun w => s.intended w && (decide (w ≠ hand.worker) || hand.launch.policyAdmitted) }
      | (.error _, t) => some { s with supervisor := t, reconcile := .idle }
    | _ => none
  | .finish =>
    match s.reconcile with
    | .turning ⟨_, []⟩ => some { s with reconcile := .idle, intended := fun _ => false }
    | _ => none

/-- A new supervisor, and no reconcile yet. -/
def initial (workers : List W) (hnodup : workers.Nodup) (launches : W → WorkerLaunch) :
    PlacementState W where
  supervisor := .initial workers hnodup launches
  reconcile := .idle
  intended _ := false

end PlacementState

/-- The service and the supervisor. -/
def placementMachine (W : Type) [DecidableEq W] : Machine (PlacementState W) (PlacementEvent W) :=
  ⟨PlacementState.next⟩

end Drift.Node
