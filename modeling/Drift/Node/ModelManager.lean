import Mathlib.Data.List.MinMax
import Mathlib.Data.Prod.Lex
import Mathlib.Data.String.Basic
import Mathlib.Order.WithBot
import Drift.Lib.Machine

/-!
# The model manager

`ModelManager` holds at most one runtime for each registered model and at most `max_loaded_models` in
all. Its calls run concurrently: a lock for each model serializes `load` and `unload` of that model, a
manager lock covers each look at the records and is dropped around the slow loader and closer calls.

A step of the model is one section under the manager lock. Taking a model's lock and the section that
follows are one step, and so are the return of a loader or closer and the section that records it:
that a call is slower changes nothing for the others. The wait on the condition variable is a turn of
the loop that is not enabled. What a closer or a loader does is an answer from outside.

* `ModelRecord`, `Call`, `ManagerState` — the records, the calls in flight, the leases;
* `loadStep`, `unloadStep`, `shutdownStep` — the methods, section by section;
* `managerMachine` — any number of calls, in any order of steps.
-/

namespace Drift.Node

open Drift.Lib

/-- `ModelState`. -/
inductive ModelState
  | known
  | downloading
  | loading
  | ready
  | degraded
  | unavailable
  | unloading
  | stopping
  deriving DecidableEq, Repr

/-- `_ModelRecord`. A runtime is the number of the loader call that returned it. -/
structure ModelRecord where
  state : ModelState
  runtime : Option Nat
  lastUsedAt : Option Int
  activeRequests : Nat
  closeFailed : Bool
  /-- `load_lock` is held. -/
  loadLock : Bool
  deriving DecidableEq, Repr

/-- A record as it is registered. -/
def ModelRecord.fresh : ModelRecord where
  state := .known
  runtime := none
  lastUsedAt := none
  activeRequests := 0
  closeFailed := false
  loadLock := false

/-- The calls, by the section they are to run next. -/
inductive Call
  /-- `load`, before its model's lock. -/
  | load (model : String)
  /-- `_reserve_runtime_slot`, at the top of its loop. -/
  | reserving (model : String)
  /-- The closer of an eviction is running. -/
  | evicting (model candidate : String) (runtime : Nat)
  /-- The loader is running. -/
  | loading (model : String)
  /-- Shutdown won against the loader, and the closer of the new runtime is running. -/
  | closingNew (model : String) (runtime : Nat)
  /-- `unload`, before its model's lock. -/
  | unload (model : String)
  | unloading (model : String) (runtime : Nat)
  | shutdown
  /-- The loop of `shutdown` over the records that are left. -/
  | shutdownLoop (rest : List String)
  /-- `runtime = record.runtime` is done, `record.runtime = None` is not. -/
  | clearing (model : String) (runtime : Option Nat) (rest : List String)
  | shutdownClosing (model : String) (runtime : Nat) (rest : List String)
  | ended
  deriving DecidableEq, Repr

/-- A lease, by what its `release` has done: nothing, set the flag, run the callback. -/
inductive LeaseStatus
  | outstanding
  | returning
  | released
  deriving DecidableEq, Repr

/-- `LoadedModel`, with the record its callback is bound to. -/
structure Lease where
  model : String
  runtime : Nat
  status : LeaseStatus
  deriving DecidableEq, Repr

/-- `ModelManager` with its calls and leases. The last three fields are the history of loaders and
closers: the model each runtime was loaded for, the runtimes whose close was called, and those whose
close returned. -/
structure ManagerState where
  models : List String
  record : String → ModelRecord
  closed : Bool
  calls : List Call
  leases : List Lease
  loadedFor : List String
  closeCalled : List Nat
  closeReturned : List Nat

/-- No models, no calls. -/
def ManagerState.initial : ManagerState where
  models := []
  record _ := .fresh
  closed := false
  calls := []
  leases := []
  loadedFor := []
  closeCalled := []
  closeReturned := []

/-- How the loader or the closer that a step waits for ends, and the clock. -/
structure Answer where
  succeeds : Bool
  now : Int
  deriving DecidableEq, Repr

namespace ManagerState

variable (s : ManagerState)

/-- Replace one record. -/
def put (model : String) (r : ModelRecord) : ManagerState :=
  { s with record := Function.update s.record model r }

/-- The model's lock is taken, or released. -/
def setLock (model : String) (held : Bool) : ManagerState :=
  s.put model { s.record model with loadLock := held }

/-- A record counts as resident. -/
def isResident (model : String) : Bool :=
  (s.record model).runtime.isSome || (s.record model).state == .loading ||
    (s.record model).state == .unloading

/-- `_resident_count_locked`. -/
def residentCount : Nat := s.models.countP s.isResident

/-- The closer of a runtime is called. -/
def startClose (runtime : Nat) : ManagerState :=
  { s with closeCalled := s.closeCalled ++ [runtime] }

/-- It returns, if it does not raise. -/
def endClose (runtime : Nat) (succeeds : Bool) : ManagerState :=
  if succeeds then { s with closeReturned := s.closeReturned ++ [runtime] } else s

/-- A runtime is taken out of its record to be closed, by `unload` or an eviction. -/
def take (model : String) (runtime : Nat) : ManagerState :=
  (s.put model { s.record model with runtime := none, state := .unloading }).startClose runtime

/-- What `unload` and an eviction do after the closer: forget the runtime, or put it back. -/
def afterClose (model : String) (runtime : Nat) (succeeds : Bool) : ManagerState :=
  (if succeeds then
    s.put model { s.record model with state := .known, closeFailed := false }
  else
    s.put model { s.record model with
      runtime := some runtime, state := .unavailable, closeFailed := true }).endClose runtime succeeds

/-- `_lease_locked`. -/
def lease (model : String) (runtime : Nat) (now : Int) : ManagerState :=
  { s.put model { s.record model with
      activeRequests := (s.record model).activeRequests + 1, lastUsedAt := some now } with
    leases := s.leases ++ [⟨model, runtime, .outstanding⟩] }

/-- `_release_lease`. -/
def releaseLease (model : String) (now : Int) : ManagerState :=
  if (s.record model).activeRequests > 0 then
    s.put model { s.record model with
      activeRequests := (s.record model).activeRequests - 1, lastUsedAt := some now }
  else
    s

/-- The idle records other than the target, in the order of registration. -/
def idle (target : String) : List String :=
  s.models.filter fun m =>
    m != target && (s.record m).runtime.isSome && (s.record m).activeRequests == 0 &&
      ((s.record m).state == .ready || (s.record m).state == .degraded)

/-- The order of the keys of eviction. -/
instance evictionOrder : Preorder (WithBot Int ×ₗ String) :=
  @Prod.Lex.instPreorder (WithBot Int) String
    (@WithBot.instPreorder Int Int.instLinearOrder.toPreorder) String.instLinearOrder.toPreorder

/-- The key of the eviction order: least recently used first, never used before all others. -/
def evictionKey (casefold : String → String) (model : String) : WithBot Int ×ₗ String :=
  toLex ((s.record model).lastUsedAt, casefold model)

/-- The idle record with the least key. -/
def evictionCandidate (casefold : String → String) (target : String) : Option String :=
  (s.idle target).argmin (s.evictionKey casefold)

/-- There is room for one more runtime. -/
def hasRoom (maxLoadedModels : Option Nat) : Bool :=
  match maxLoadedModels with
  | none => true
  | some limit => s.residentCount < limit

end ManagerState

/-! ### The methods -/

section Methods

variable (maxLoadedModels : Option Nat) (casefold : String → String)

/-- `load` up to `_reserve_runtime_slot`. The model's lock must be free. -/
def loadEntry (s : ManagerState) (model : String) (now : Int) : Option (ManagerState × Call) :=
  if (s.record model).loadLock then
    none
  else if s.closed then
    some (s, .ended)
  else
    match (s.record model).runtime with
    | some runtime =>
      if (s.record model).closeFailed then some (s, .ended) else some (s.lease model runtime now, .ended)
    | none => some (s.setLock model true, .reserving model)

/-- A turn of the loop of `_reserve_runtime_slot`; `none` is the wait. -/
def reserveTurn (s : ManagerState) (model : String) : Option (ManagerState × Call) :=
  if s.closed then
    some (s.setLock model false, .ended)
  else if s.hasRoom maxLoadedModels then
    some (s.put model { s.record model with state := .loading }, .loading model)
  else
    match s.evictionCandidate casefold model with
    | some candidate =>
      match (s.record candidate).runtime with
      | some runtime => some (s.take candidate runtime, .evicting model candidate runtime)
      | none => none
    | none =>
      if s.models.any fun m => (s.record m).closeFailed then
        some (s.setLock model false, .ended)
      else
        none

/-- The end of an eviction: the next turn, or the error. -/
def evictionEnd (s : ManagerState) (model candidate : String) (runtime : Nat) (succeeds : Bool) :
    ManagerState × Call :=
  if succeeds then
    (s.afterClose candidate runtime true, .reserving model)
  else
    ((s.afterClose candidate runtime false).setLock model false, .ended)

/-- The loader has returned a new runtime: it is published under a lease, or closed if the manager
has been shut down. -/
def publish (s : ManagerState) (model : String) (now : Int) : ManagerState × Call :=
  let runtime := s.loadedFor.length
  let s := { s with loadedFor := s.loadedFor ++ [model] }
  if s.closed then
    ((s.put model { s.record model with state := .stopping }).startClose runtime,
      .closingNew model runtime)
  else
    (((s.put model { s.record model with
        runtime := some runtime, state := .ready, closeFailed := false }).lease model runtime now).setLock
          model false, .ended)

/-- The loader has raised. -/
def loaderFailed (s : ManagerState) (model : String) : ManagerState × Call :=
  ((s.put model { s.record model with
      state := if s.closed then .stopping else .unavailable }).setLock model false, .ended)

/-- `unload` up to its closer. The model's lock must be free. -/
def unloadEntry (s : ManagerState) (model : String) : Option (ManagerState × Call) :=
  if (s.record model).loadLock then
    none
  else if s.closed || (s.record model).activeRequests != 0 || (s.record model).closeFailed then
    some (s, .ended)
  else
    match (s.record model).runtime with
    | none => some (s, .ended)
    | some runtime => some ((s.take model runtime).setLock model true, .unloading model runtime)

/-- `shutdown` up to its loop. -/
def shutdownEntry (s : ManagerState) : ManagerState × Call :=
  if s.closed then
    (s, .ended)
  else
    ({ s with
        closed := true
        record := fun m => { s.record m with state := .stopping } }, .shutdownLoop s.models)

/-- A turn of the loop of `shutdown`, up to the read of the record's runtime. -/
def shutdownTurn (s : ManagerState) : List String → Option (ManagerState × Call)
  | [] => some (s, .ended)
  | model :: rest =>
    if (s.record model).loadLock then
      none
    else
      some (s.setLock model true, .clearing model (s.record model).runtime rest)

/-- `record.runtime = None`, and the closer of what was read before. -/
def shutdownClear (s : ManagerState) (model : String) (runtime : Option Nat) (rest : List String) :
    ManagerState × Call :=
  let s := s.put model { s.record model with runtime := none }
  match runtime with
  | none => (s.setLock model false, .shutdownLoop rest)
  | some runtime => (s.startClose runtime, .shutdownClosing model runtime rest)

/-- The next step of a call. -/
def callStep (s : ManagerState) (a : Answer) : Call → Option (ManagerState × Call)
  | .load model => loadEntry s model a.now
  | .reserving model => reserveTurn maxLoadedModels casefold s model
  | .evicting model candidate runtime => some (evictionEnd s model candidate runtime a.succeeds)
  | .loading model => some (if a.succeeds then publish s model a.now else loaderFailed s model)
  | .closingNew model runtime => some ((s.endClose runtime a.succeeds).setLock model false, .ended)
  | .unload model => unloadEntry s model
  | .unloading model runtime => some ((s.afterClose model runtime a.succeeds).setLock model false, .ended)
  | .shutdown => some (shutdownEntry s)
  | .shutdownLoop rest => shutdownTurn s rest
  | .clearing model runtime rest => some (shutdownClear s model runtime rest)
  | .shutdownClosing model runtime rest =>
    some ((s.endClose runtime a.succeeds).setLock model false, .shutdownLoop rest)
  | .ended => none

end Methods

/-! ### Runs -/

/-- A step: a registration, a new call, a step of a call in flight, or one of the two halves of the
release of a lease. -/
inductive ManagerAction
  | register (model : String)
  | load (model : String)
  | unload (model : String)
  | shutdown
  | advance (call : Nat) (answer : Answer)
  | returnLease (lease : Nat)
  | releaseLease (lease : Nat) (now : Int)
  deriving DecidableEq, Repr

/-- The calls that a registered model's identifier can start, as `_record_for` lets them. -/
def startCall (s : ManagerState) (model : String) (c : Call) : Option ManagerState :=
  if s.closed || model ∉ s.models then none else some { s with calls := s.calls ++ [c] }

/-- A step of a manager. -/
def managerNext (maxLoadedModels : Option Nat) (casefold : String → String) (s : ManagerState) :
    ManagerAction → Option ManagerState
  | .register model =>
    if s.closed || model ∈ s.models then
      none
    else
      some { s with models := s.models ++ [model], record := Function.update s.record model .fresh }
  | .load model => startCall s model (.load model)
  | .unload model => startCall s model (.unload model)
  | .shutdown => some { s with calls := s.calls ++ [.shutdown] }
  | .advance i a =>
    match s.calls[i]? with
    | none => none
    | some c =>
      match callStep maxLoadedModels casefold s a c with
      | none => none
      | some (s', c') => some { s' with calls := s.calls.set i c' }
  | .returnLease k =>
    match s.leases[k]? with
    | some ⟨model, runtime, .outstanding⟩ =>
      some { s with leases := s.leases.set k ⟨model, runtime, .returning⟩ }
    | _ => none
  | .releaseLease k now =>
    match s.leases[k]? with
    | some ⟨model, runtime, .returning⟩ =>
      some { s.releaseLease model now with leases := s.leases.set k ⟨model, runtime, .released⟩ }
    | _ => none

/-- All runs of a manager with this limit. -/
def managerMachine (maxLoadedModels : Option Nat) (casefold : String → String) :
    Machine ManagerState ManagerAction :=
  ⟨managerNext maxLoadedModels casefold⟩

end Drift.Node
