import Drift.Lib.Copies
import Drift.Lib.Machine

/-!
# The steps that a session takes

A session takes its requests from two sources, the stream of its client and the queue of requests that
other servers push to it. `_iterate_inference_steps` keeps one task for each, waits for the first of them
that is done, and yields the requests whose step ids are new. It is an asynchronous generator: between its
suspensions nothing else runs, and while it is suspended requests arrive, tasks end, and the consumer may
ask for the next request or give it up.

* `StepIterator` — the generator at a suspension, its two sources, and what has happened;
* `consider` — the body of the loop up to the next suspension;
* `iteratorMachine` — the runs, for every order of arrivals, ends of tasks and resumptions;
* `steps_deduplicated` — what is yielded of what is taken, and what becomes of the rest.
-/

namespace Drift.Server

open Drift.Lib

variable {κ : Type*}

/-! ### Requests -/

/-- The value under `"step_id"`. Step ids are looked up in a set, so that two are the same where Python
finds them equal, and some values cannot be looked up. -/
inductive StepIdValue (κ : Type*)
  | null
  | unhashable
  | hashed (k : κ)
  deriving DecidableEq, Repr

/-- The metadata of a request. Empty metadata is an empty dictionary. -/
inductive StepMetadata (κ : Type*)
  | malformed
  | notADict
  | dict (stepId : StepIdValue κ)
  deriving DecidableEq, Repr

/-- A request, as far as the iterator looks at it. -/
structure StepRequest (κ : Type*) where
  /-- `_require_bounded_inference_request` lets it pass. -/
  bounded : Bool
  /-- It has tensors. -/
  tensors : Bool
  metadata : StepMetadata κ
  deriving DecidableEq, Repr

namespace StepRequest

variable (r : StepRequest κ)

/-- The step id, if it is one. -/
def stepId : Option κ :=
  match r.metadata with
  | .dict (.hashed k) => some k
  | _ => none

/-- The iterator gets past its checks: the request is not the end of the stream, nor is it refused. -/
def proceeds : Bool :=
  r.bounded && r.tensors &&
    match r.metadata with
    | .dict .null | .dict (.hashed _) => true
    | _ => false

end StepRequest

/-! ### Sources -/

inductive StepSource
  | direct
  | push
  deriving DecidableEq, Repr

/-- A task that takes the next request of a source. It fails when the stream ends or breaks, or when the
session is gone. -/
inductive StepTask (κ : Type*)
  | absent
  | pending
  | done (r : StepRequest κ)
  | failed
  deriving DecidableEq, Repr

namespace StepTask

/-- The request that the task has taken. -/
def held : StepTask κ → List (StepRequest κ)
  | .done r => [r]
  | _ => []

def isDone : StepTask κ → Bool
  | .done _ | .failed => true
  | _ => false

/-- `asyncio.create_task`, unless there is a task. -/
def ensure : StepTask κ → StepTask κ
  | .absent => .pending
  | task => task

/-- `cancel`, unless the task is done. What has arrived stays with the source. -/
def cancel : StepTask κ → StepTask κ
  | .pending => .absent
  | task => task

@[simp] theorem held_absent : (absent : StepTask κ).held = [] := rfl

@[simp] theorem held_pending : (pending : StepTask κ).held = [] := rfl

@[simp] theorem held_done (r : StepRequest κ) : (done r).held = [r] := rfl

@[simp] theorem held_failed : (failed : StepTask κ).held = [] := rfl

@[simp] theorem held_ensure (task : StepTask κ) : task.ensure.held = task.held := by
  cases task <;> rfl

@[simp] theorem held_cancel (task : StepTask κ) : task.cancel.held = task.held := by
  cases task <;> rfl

end StepTask

/-- A source: all requests that have arrived there, those that no task has taken, and the task. -/
structure StepStream (κ : Type*) where
  arrived : List (StepRequest κ)
  waiting : List (StepRequest κ)
  task : StepTask κ

namespace StepStream

def arrive (st : StepStream κ) (r : StepRequest κ) : StepStream κ :=
  { st with arrived := st.arrived ++ [r], waiting := st.waiting ++ [r] }

/-- The task takes a request. -/
def finish (st : StepStream κ) : Option (StepStream κ) :=
  match st.task, st.waiting with
  | .pending, r :: waiting => some { st with waiting := waiting, task := .done r }
  | _, _ => none

def fail (st : StepStream κ) : Option (StepStream κ) :=
  match st.task with
  | .pending => some { st with task := .failed }
  | _ => none

/-- The requests that were taken before, the one that the task holds, and those that wait are all that
have arrived, in order. -/
def Conserved (st : StepStream κ) (taken : List (StepRequest κ)) : Prop :=
  taken ++ st.task.held ++ st.waiting = st.arrived

theorem Conserved.arrive {st : StepStream κ} {taken : List (StepRequest κ)} (h : st.Conserved taken)
    (r : StepRequest κ) : (st.arrive r).Conserved taken := by
  show taken ++ st.task.held ++ (st.waiting ++ [r]) = st.arrived ++ [r]
  rw [← h, List.append_assoc _ st.waiting]

theorem Conserved.finish {st st' : StepStream κ} {taken : List (StepRequest κ)} (h : st.Conserved taken)
    (hst' : st.finish = some st') : st'.Conserved taken := by
  unfold StepStream.finish at hst'
  split at hst'
  · next r waiting htask hwaiting =>
    cases hst'
    rw [Conserved, htask, hwaiting, StepTask.held_pending, List.append_nil] at h
    show taken ++ [r] ++ waiting = st.arrived
    rw [List.append_assoc, List.singleton_append]
    exact h
  · cases hst'

/-- Putting the task away that holds nothing, or making one. -/
theorem Conserved.setTask {st : StepStream κ} {taken : List (StepRequest κ)} (h : st.Conserved taken)
    {task : StepTask κ} (htask : task.held = st.task.held) :
    ({ st with task := task } : StepStream κ).Conserved taken := by
  show taken ++ task.held ++ st.waiting = st.arrived
  rw [htask]
  exact h

theorem Conserved.fail {st st' : StepStream κ} {taken : List (StepRequest κ)} (h : st.Conserved taken)
    (hst' : st.fail = some st') : st'.Conserved taken := by
  unfold StepStream.fail at hst'
  split at hst'
  · next htask =>
    cases hst'
    refine h.setTask ?_
    rw [htask]
    rfl
  · cases hst'

/-- Taking what the task holds. -/
theorem Conserved.take {st : StepStream κ} {taken : List (StepRequest κ)} (h : st.Conserved taken)
    {r : StepRequest κ} (htask : st.task = .done r) :
    ({ st with task := .absent } : StepStream κ).Conserved (taken ++ [r]) := by
  rw [Conserved, htask] at h
  show taken ++ [r] ++ [] ++ st.waiting = st.arrived
  rw [List.append_nil]
  exact h

end StepStream

/-! ### What the iterator has looked at -/

/-- The requests that were taken from a source and looked at. -/
def taken (source : StepSource) (considered : List (StepSource × StepRequest κ)) :
    List (StepRequest κ) :=
  (considered.filter fun c => c.1 = source).map Prod.snd

/-- The requests that were looked at and got past the checks. -/
def proceeding (considered : List (StepSource × StepRequest κ)) : List (StepRequest κ) :=
  (considered.map Prod.snd).filter StepRequest.proceeds

theorem taken_append_self (source : StepSource) (considered : List (StepSource × StepRequest κ))
    (r : StepRequest κ) : taken source (considered ++ [(source, r)]) = taken source considered ++ [r] := by
  rw [taken, List.filter_append, List.map_append]
  simp [taken]

theorem taken_append_other {source source' : StepSource} (h : source' ≠ source)
    (considered : List (StepSource × StepRequest κ)) (r : StepRequest κ) :
    taken source (considered ++ [(source', r)]) = taken source considered := by
  rw [taken, List.filter_append, List.map_append]
  simp [taken, h]

theorem proceeding_append {source : StepSource} {r : StepRequest κ} (h : r.proceeds = true)
    (considered : List (StepSource × StepRequest κ)) :
    proceeding (considered ++ [(source, r)]) = proceeding considered ++ [r] := by
  rw [proceeding, List.map_append, List.filter_append]
  simp [proceeding, h]

theorem proceeding_append_of_not {source : StepSource} {r : StepRequest κ} (h : r.proceeds = false)
    (considered : List (StepSource × StepRequest κ)) :
    proceeding (considered ++ [(source, r)]) = proceeding considered := by
  rw [proceeding, List.map_append, List.filter_append]
  simp [proceeding, h]

/-! ### The generator -/

variable [DecidableEq κ]

/-- How the generator has ended. -/
inductive IteratorEnd
  /-- The user has ended the stream. -/
  | finished
  | timedOut
  /-- A request is refused, or a task has failed. -/
  | raised
  /-- The consumer has given the generator up. -/
  | closed
  deriving DecidableEq, Repr

/-- Where the generator is suspended. -/
inductive IteratorPoint (κ : Type*)
  | start (firstRequest : StepRequest κ)
  /-- At the `yield`, with the step id that is not yet in the set. -/
  | yielding (stepId : Option κ)
  | waiting
  | ended (how : IteratorEnd)
  deriving DecidableEq, Repr

/-- The generator, its sources, the requests it has looked at, and those it has yielded. -/
structure StepIterator (κ : Type*) where
  hasSession : Bool
  requests : StepStream κ
  pushes : StepStream κ
  point : IteratorPoint κ
  processedStepIds : List κ
  considered : List (StepSource × StepRequest κ)
  yielded : List (StepRequest κ)

namespace StepIterator

variable (s : StepIterator κ)

def initial (hasSession : Bool) (firstRequest : StepRequest κ) : StepIterator κ where
  hasSession := hasSession
  requests := ⟨[firstRequest], [], .absent⟩
  pushes := ⟨[], [], .absent⟩
  point := .start firstRequest
  processedStepIds := []
  considered := []
  yielded := []

/-- The generator ends, and cancels the tasks that are not done. -/
def leave (how : IteratorEnd) : StepIterator κ :=
  { s with
    requests := { s.requests with task := s.requests.task.cancel }
    pushes := { s.pushes with task := s.pushes.task.cancel }
    point := .ended how }

/-- The tasks are made that there are not, and the generator waits. -/
def wait : StepIterator κ :=
  { s with
    requests := { s.requests with task := s.requests.task.ensure }
    pushes := { s.pushes with task := s.pushes.task.ensure }
    point := .waiting }

/-- The body of the loop for a request, up to the next suspension. -/
def consider (source : StepSource) (request : StepRequest κ) : StepIterator κ :=
  let s := { s with considered := s.considered ++ [(source, request)] }
  if !request.bounded then
    s.leave .raised
  else if !request.tensors then
    s.leave .finished
  else
    match request.metadata with
    | .malformed | .notADict => s.leave .raised
    | .dict .unhashable => s.leave .raised
    | .dict .null => { s with yielded := s.yielded ++ [request], point := .yielding none }
    | .dict (.hashed stepId) =>
      if stepId ∈ s.processedStepIds then
        s.wait
      else
        { s with yielded := s.yielded ++ [request], point := .yielding (some stepId) }

/-- The consumer asks for the next request. -/
def resume : Option (StepIterator κ) :=
  match s.point with
  | .start firstRequest => some (s.consider .direct firstRequest)
  | .yielding stepId =>
    some { s with processedStepIds := stepId.toList ++ s.processedStepIds }.wait
  | .waiting | .ended _ => none

/-- `asyncio.wait` returns. The direct request goes first, and with no task done the time is up. -/
def wake : Option (StepIterator κ) :=
  match s.point with
  | .waiting =>
    some <| match s.requests.task, s.pushes.task with
      | .done request, _ =>
        { s with requests := { s.requests with task := .absent } }.consider .direct request
      | .failed, _ => s.leave .raised
      | _, .done request =>
        { s with pushes := { s.pushes with task := .absent } }.consider .push request
      | _, .failed => s.leave .raised
      | _, _ => s.leave .timedOut
  | _ => none

/-- The consumer gives the generator up. -/
def close : Option (StepIterator κ) :=
  match s.point with
  -- of a generator that was never started nothing runs
  | .start _ | .ended _ => none
  | .yielding _ | .waiting => some (s.leave .closed)

end StepIterator

inductive IteratorAction (κ : Type*)
  /-- A request arrives at a source. Without a session there are no pushes. -/
  | arrive (source : StepSource) (r : StepRequest κ)
  /-- The task of a source ends. -/
  | finish (source : StepSource)
  | fail (source : StepSource)
  | resume
  | wake
  | close

def StepIterator.next (s : StepIterator κ) : IteratorAction κ → Option (StepIterator κ)
  | .arrive .direct r => some { s with requests := s.requests.arrive r }
  | .arrive .push r => if s.hasSession then some { s with pushes := s.pushes.arrive r } else none
  | .finish .direct => s.requests.finish.map fun st => { s with requests := st }
  | .finish .push => s.pushes.finish.map fun st => { s with pushes := st }
  | .fail .direct => s.requests.fail.map fun st => { s with requests := st }
  | .fail .push => if s.hasSession then s.pushes.fail.map fun st => { s with pushes := st } else none
  | .resume => s.resume
  | .wake => s.wake
  | .close => s.close

/-- The runs of the generator. -/
def iteratorMachine (κ : Type*) [DecidableEq κ] : Machine (StepIterator κ) (IteratorAction κ) :=
  ⟨StepIterator.next⟩

/-! ### The invariant -/

/-- The first request, until it is looked at. -/
def IteratorPoint.first : IteratorPoint κ → List (StepRequest κ)
  | .start firstRequest => [firstRequest]
  | _ => []

/-- The step id that is yielded and not yet in the set. -/
def IteratorPoint.unrecorded : IteratorPoint κ → List κ
  | .yielding stepId => stepId.toList
  | _ => []

/-- What has been looked at is what was taken, what was yielded are the first copies of it, and a request
that does not proceed is the last one. -/
structure StepIterator.Inv (s : StepIterator κ) : Prop where
  requests : s.requests.Conserved (taken .direct s.considered ++ s.point.first)
  pushes : s.pushes.Conserved (taken .push s.considered)
  yielded : s.yielded = keepFirst StepRequest.stepId [] (proceeding s.considered)
  recorded : (∃ how, s.point = .ended how) ∨ ∀ k, k ∈ s.processedStepIds ++ s.point.unrecorded ↔
    k ∈ (proceeding s.considered).filterMap StepRequest.stepId
  proceeds : (∃ how, s.point = .ended how) ∨ ∀ c ∈ s.considered, c.2.proceeds = true
  last : ∀ c ∈ s.considered.dropLast, c.2.proceeds = true

/-- The iterator is about to look at a request that it has taken from a source. -/
structure StepIterator.Holds (s : StepIterator κ) (source : StepSource) (request : StepRequest κ) :
    Prop where
  requests : s.requests.Conserved (taken .direct (s.considered ++ [(source, request)]))
  pushes : s.pushes.Conserved (taken .push (s.considered ++ [(source, request)]))
  yielded : s.yielded = keepFirst StepRequest.stepId [] (proceeding s.considered)
  recorded : ∀ k, k ∈ s.processedStepIds ↔
    k ∈ (proceeding s.considered).filterMap StepRequest.stepId
  proceeds : ∀ c ∈ s.considered, c.2.proceeds = true

namespace StepIterator

variable {s s' : StepIterator κ} {source : StepSource} {request : StepRequest κ}

/-- The generator ends at a request that does not proceed. -/
theorem Holds.stops (h : s.Holds source request) (hstops : request.proceeds = false)
    (how : IteratorEnd) :
    ({ s with considered := s.considered ++ [(source, request)] }.leave how).Inv where
  requests := by
    show StepStream.Conserved _ (_ ++ [])
    rw [List.append_nil]
    exact h.requests.setTask (StepTask.held_cancel _)
  pushes := h.pushes.setTask (StepTask.held_cancel _)
  yielded := by
    show s.yielded = keepFirst _ [] (proceeding (s.considered ++ [(source, request)]))
    rw [proceeding_append_of_not hstops]
    exact h.yielded
  recorded := Or.inl ⟨how, rfl⟩
  proceeds := Or.inl ⟨how, rfl⟩
  last := by
    show ∀ c ∈ (s.considered ++ [(source, request)]).dropLast, c.2.proceeds = true
    rw [List.dropLast_concat]
    exact h.proceeds

/-- What has been looked at when the request proceeds. -/
theorem Holds.proceeds_append (h : s.Holds source request) (hproceeds : request.proceeds = true) :
    ∀ c ∈ s.considered ++ [(source, request)], c.2.proceeds = true := by
  intro c hc
  rcases List.mem_append.mp hc with hc | hc
  · exact h.proceeds c hc
  · rw [List.mem_singleton.mp hc]
    exact hproceeds

theorem Holds.copy (h : s.Holds source request) (hproceeds : request.proceeds = true) {k : κ}
    (hk : request.stepId = some k) (hcopy : k ∈ s.processedStepIds) :
    ({ s with considered := s.considered ++ [(source, request)] }.wait).Inv where
  requests := by
    show StepStream.Conserved _ (_ ++ [])
    rw [List.append_nil]
    exact h.requests.setTask (StepTask.held_ensure _)
  pushes := h.pushes.setTask (StepTask.held_ensure _)
  yielded := by
    show s.yielded = keepFirst _ [] (proceeding (s.considered ++ [(source, request)]))
    rw [proceeding_append hproceeds,
      keepFirst_concat_copy hk _ [] (Or.inr ((h.recorded k).mp hcopy))]
    exact h.yielded
  recorded := Or.inr fun i => by
    show i ∈ s.processedStepIds ++ [] ↔ i ∈ (proceeding (s.considered ++ [(source, request)])).filterMap _
    rw [proceeding_append hproceeds, List.append_nil, List.filterMap_append, List.mem_append,
      ← h.recorded i]
    refine ⟨Or.inl, fun hi => hi.elim id fun hi => ?_⟩
    obtain ⟨r, hr, hi⟩ := List.mem_filterMap.mp hi
    rw [List.mem_singleton.mp hr, hk] at hi
    cases hi
    exact hcopy
  proceeds := Or.inr (h.proceeds_append hproceeds)
  last := fun c hc => h.proceeds_append hproceeds c (List.dropLast_subset _ hc)

theorem Holds.fresh (h : s.Holds source request) (hproceeds : request.proceeds = true)
    (hfresh : ∀ k, request.stepId = some k → k ∉ s.processedStepIds) :
    ({ s with
        considered := s.considered ++ [(source, request)]
        yielded := s.yielded ++ [request]
        point := .yielding request.stepId } : StepIterator κ).Inv where
  requests := by
    show StepStream.Conserved _ (_ ++ [])
    rw [List.append_nil]
    exact h.requests
  pushes := h.pushes
  yielded := by
    show s.yielded ++ [request] = keepFirst _ [] (proceeding (s.considered ++ [(source, request)]))
    rw [proceeding_append hproceeds, keepFirst_concat_new, h.yielded]
    exact fun k hk => ⟨List.not_mem_nil, fun hmem => hfresh k hk ((h.recorded k).mpr hmem)⟩
  recorded := Or.inr fun k => by
    show k ∈ s.processedStepIds ++ request.stepId.toList ↔
      k ∈ (proceeding (s.considered ++ [(source, request)])).filterMap _
    rw [proceeding_append hproceeds, List.filterMap_append, List.mem_append, List.mem_append,
      ← h.recorded k, List.mem_filterMap]
    simp
  proceeds := Or.inr (h.proceeds_append hproceeds)
  last := fun c hc => h.proceeds_append hproceeds c (List.dropLast_subset _ hc)

/-- **The body of the loop.** -/
theorem Holds.consider (h : s.Holds source request) : (s.consider source request).Inv := by
  unfold StepIterator.consider
  simp only
  split
  · next hbounded =>
    refine h.stops ?_ .raised
    rw [Bool.not_eq_true'] at hbounded
    rw [StepRequest.proceeds, hbounded]
    rfl
  next hbounded =>
  split
  · next htensors =>
    refine h.stops ?_ .finished
    rw [Bool.not_eq_true'] at htensors
    rw [StepRequest.proceeds, htensors, Bool.and_false]
    rfl
  next htensors =>
  rw [Bool.not_eq_true', Bool.not_eq_false] at hbounded htensors
  split
  · next hmetadata =>
    refine h.stops ?_ .raised
    rw [StepRequest.proceeds, hmetadata, Bool.and_false]
  · next hmetadata =>
    refine h.stops ?_ .raised
    rw [StepRequest.proceeds, hmetadata, Bool.and_false]
  · next hmetadata =>
    refine h.stops ?_ .raised
    rw [StepRequest.proceeds, hmetadata, Bool.and_false]
  · next hmetadata =>
    have hstepId : request.stepId = none := by rw [StepRequest.stepId, hmetadata]
    have hproceeds : request.proceeds = true := by
      rw [StepRequest.proceeds, hbounded, htensors, hmetadata]
      rfl
    have hinv := h.fresh hproceeds fun k hk => by
      rw [hstepId] at hk
      cases hk
    rw [hstepId] at hinv
    exact hinv
  · next k hmetadata =>
    have hstepId : request.stepId = some k := by rw [StepRequest.stepId, hmetadata]
    have hproceeds : request.proceeds = true := by
      rw [StepRequest.proceeds, hbounded, htensors, hmetadata]
      rfl
    split
    · next hcopy => exact h.copy hproceeds hstepId hcopy
    · next hnew =>
      have hinv := h.fresh hproceeds fun i hi => by
        rw [hstepId] at hi
        cases hi
        exact hnew
      rw [hstepId] at hinv
      exact hinv

/-- Giving up where no request is held back. -/
theorem Inv.leave (h : s.Inv) (hfirst : s.point.first = []) (how : IteratorEnd) : (s.leave how).Inv where
  requests := by
    have hrequests := h.requests
    rw [hfirst] at hrequests
    exact hrequests.setTask (StepTask.held_cancel _)
  pushes := h.pushes.setTask (StepTask.held_cancel _)
  yielded := h.yielded
  recorded := Or.inl ⟨how, rfl⟩
  proceeds := Or.inl ⟨how, rfl⟩
  last := h.last

/-- Before a task or the consumer goes on, all that has been looked at proceeds and is recorded. -/
theorem Inv.running (h : s.Inv) (hpoint : ∀ how, s.point ≠ .ended how) :
    (∀ k, k ∈ s.processedStepIds ++ s.point.unrecorded ↔
      k ∈ (proceeding s.considered).filterMap StepRequest.stepId) ∧
      ∀ c ∈ s.considered, c.2.proceeds = true :=
  ⟨h.recorded.resolve_left fun ⟨how, hhow⟩ => hpoint how hhow,
    h.proceeds.resolve_left fun ⟨how, hhow⟩ => hpoint how hhow⟩

theorem Inv.ids (h : s.Inv) (hpoint : ∀ how, s.point ≠ .ended how) (hnone : s.point.unrecorded = []) :
    ∀ k, k ∈ s.processedStepIds ↔ k ∈ (proceeding s.considered).filterMap StepRequest.stepId := by
  intro k
  have hrecorded := (h.running hpoint).1 k
  rw [hnone, List.append_nil] at hrecorded
  exact hrecorded

theorem Inv.resume (h : s.Inv) (hs' : s.resume = some s') : s'.Inv := by
  unfold StepIterator.resume at hs'
  split at hs'
  · next firstRequest hpoint =>
    cases hs'
    have hrunning : ∀ how, s.point ≠ .ended how := by rw [hpoint]; intro how hhow; cases hhow
    have hrequests := h.requests
    rw [hpoint] at hrequests
    refine Holds.consider ⟨?_, ?_, h.yielded, h.ids hrunning (by rw [hpoint]; rfl),
      (h.running hrunning).2⟩
    · rw [taken_append_self]
      exact hrequests
    · rw [taken_append_other (by decide)]
      exact h.pushes
  · next stepId hpoint =>
    cases hs'
    obtain ⟨hrecorded, hproceeds⟩ := h.running (by rw [hpoint]; intro how hhow; cases hhow)
    rw [hpoint] at hrecorded
    have hrequests := h.requests
    rw [hpoint] at hrequests
    refine ⟨hrequests.setTask (StepTask.held_ensure _), h.pushes.setTask (StepTask.held_ensure _),
      h.yielded, Or.inr fun k => ?_, Or.inr hproceeds, h.last⟩
    -- the id that was yielded is now in the set
    show k ∈ (stepId.toList ++ s.processedStepIds) ++ [] ↔ k ∈ (proceeding s.considered).filterMap _
    rw [List.append_nil, ← hrecorded k, List.mem_append, List.mem_append, or_comm]
    rfl
  · cases hs'
  · cases hs'

theorem Inv.wake (h : s.Inv) (hs' : s.wake = some s') : s'.Inv := by
  unfold StepIterator.wake at hs'
  split at hs'
  swap
  · cases hs'
  next hpoint =>
  cases hs'
  have hrunning : ∀ how, s.point ≠ .ended how := by rw [hpoint]; intro how hhow; cases hhow
  have hids := h.ids hrunning (by rw [hpoint]; rfl)
  have hproceeds := (h.running hrunning).2
  have hrequests := h.requests
  rw [hpoint] at hrequests
  replace hrequests : s.requests.Conserved (taken .direct s.considered ++ []) := hrequests
  rw [List.append_nil] at hrequests
  have hfirst : s.point.first = [] := by rw [hpoint]; rfl
  split
  · next request pushTask htask =>
    refine Holds.consider ⟨?_, ?_, h.yielded, hids, hproceeds⟩
    · rw [taken_append_self]
      exact hrequests.take htask
    · rw [taken_append_other (by decide)]
      exact h.pushes
  · exact h.leave hfirst .raised
  · next request htask _ _ =>
    refine Holds.consider ⟨?_, ?_, h.yielded, hids, hproceeds⟩
    · rw [taken_append_other (by decide)]
      exact hrequests
    · rw [taken_append_self]
      exact h.pushes.take htask
  · exact h.leave hfirst .raised
  · exact h.leave hfirst .timedOut

/-- What happens at a source leaves the generator alone. -/
theorem Inv.setRequests (h : s.Inv) {st : StepStream κ}
    (hst : ∀ taken, s.requests.Conserved taken → st.Conserved taken) :
    ({ s with requests := st } : StepIterator κ).Inv :=
  ⟨hst _ h.requests, h.pushes, h.yielded, h.recorded, h.proceeds, h.last⟩

theorem Inv.setPushes (h : s.Inv) {st : StepStream κ}
    (hst : ∀ taken, s.pushes.Conserved taken → st.Conserved taken) :
    ({ s with pushes := st } : StepIterator κ).Inv :=
  ⟨h.requests, hst _ h.pushes, h.yielded, h.recorded, h.proceeds, h.last⟩

/-- The step lemma. -/
theorem Inv.next (h : s.Inv) {action : IteratorAction κ} (hs' : s.next action = some s') : s'.Inv := by
  cases action with
  | arrive source r =>
    cases source with
    | direct =>
      cases hs'
      exact h.setRequests fun _ hconserved => hconserved.arrive r
    | push =>
      obtain ⟨-, hs'⟩ := Option.ite_none_right_eq_some.mp hs'
      cases hs'
      exact h.setPushes fun _ hconserved => hconserved.arrive r
  | finish source =>
    cases source with
    | direct =>
      obtain ⟨st, hst, rfl⟩ := Option.map_eq_some_iff.mp hs'
      exact h.setRequests fun _ hconserved => hconserved.finish hst
    | push =>
      obtain ⟨st, hst, rfl⟩ := Option.map_eq_some_iff.mp hs'
      exact h.setPushes fun _ hconserved => hconserved.finish hst
  | fail source =>
    cases source with
    | direct =>
      obtain ⟨st, hst, rfl⟩ := Option.map_eq_some_iff.mp hs'
      exact h.setRequests fun _ hconserved => hconserved.fail hst
    | push =>
      obtain ⟨-, hs'⟩ := Option.ite_none_right_eq_some.mp hs'
      obtain ⟨st, hst, rfl⟩ := Option.map_eq_some_iff.mp hs'
      exact h.setPushes fun _ hconserved => hconserved.fail hst
  | resume => exact h.resume hs'
  | wake => exact h.wake hs'
  | close =>
    replace hs' : s.close = some s' := hs'
    unfold StepIterator.close at hs'
    split at hs'
    · cases hs'
    · cases hs'
    · next hpoint =>
      cases hs'
      exact h.leave (by rw [hpoint]; rfl) .closed
    · next hpoint =>
      cases hs'
      exact h.leave (by rw [hpoint]; rfl) .closed

theorem inv_initial (hasSession : Bool) (firstRequest : StepRequest κ) :
    (initial hasSession firstRequest).Inv where
  requests := rfl
  pushes := rfl
  yielded := rfl
  recorded := Or.inr fun _ => Iff.rfl
  proceeds := Or.inr fun _ hc => absurd hc List.not_mem_nil
  last := fun _ hc => absurd hc List.not_mem_nil

/-- The run lemma. -/
theorem inv_of_reach {hasSession : Bool} {firstRequest : StepRequest κ}
    (h : (iteratorMachine κ).Reach Machine.always (initial hasSession firstRequest) s) : s.Inv :=
  h.invariant (inv_initial hasSession firstRequest) fun _ _ _ hinv _ hnext => hinv.next hnext

end StepIterator

/-! ### What is yielded -/

/-- A request that proceeds is yielded, or another one with its step id is. -/
theorem yielded_of_proceeds {considered : List (StepSource × StepRequest κ)}
    {c : StepSource × StepRequest κ} (hc : c ∈ considered) (hproceeds : c.2.proceeds = true) :
    (c.2.stepId = none → c.2 ∈ keepFirst StepRequest.stepId [] (proceeding considered)) ∧
      ∀ k, c.2.stepId = some k →
        ∃ r ∈ keepFirst StepRequest.stepId [] (proceeding considered), r.stepId = some k := by
  have hmem : c.2 ∈ proceeding considered :=
    List.mem_filter.mpr ⟨List.mem_map_of_mem hc, hproceeds⟩
  refine ⟨fun hnone => mem_keepFirst_of_none hnone _ [] hmem, fun k hk => ?_⟩
  refine List.mem_filterMap.mp ((mem_keys_keepFirst _ []).mpr ⟨List.not_mem_nil, ?_⟩)
  exact List.mem_filterMap.mpr ⟨c.2, hmem, hk⟩

/-- **De-duplication of steps.** In every run, for all orders in which requests arrive at the two sources,
tasks end, and the consumer goes on or gives up:

* no step id is yielded twice;
* what is yielded is the first request of each step id, and every one without, among those that were
  looked at and proceed;
* what was looked at of each source, what its task holds and what waits are all that has arrived there,
  in order, so that until the iteration ends nothing is lost;
* what was looked at and proceeds is yielded, or one with its step id is;
* what does not proceed, the end of the stream or a request that is refused, ends the iteration. -/
theorem steps_deduplicated {hasSession : Bool} {firstRequest : StepRequest κ} {s : StepIterator κ}
    (h : (iteratorMachine κ).Reach Machine.always (.initial hasSession firstRequest) s) :
    (s.yielded.filterMap StepRequest.stepId).Nodup ∧
      s.yielded = keepFirst StepRequest.stepId [] (proceeding s.considered) ∧
      taken .direct s.considered ++ s.point.first ++ s.requests.task.held ++ s.requests.waiting =
        s.requests.arrived ∧
      taken .push s.considered ++ s.pushes.task.held ++ s.pushes.waiting = s.pushes.arrived ∧
      (∀ c ∈ s.considered, c.2.proceeds = true →
        (c.2.stepId = none → c.2 ∈ s.yielded) ∧
          ∀ k, c.2.stepId = some k → ∃ r ∈ s.yielded, r.stepId = some k) ∧
      ∀ c ∈ s.considered, c.2.proceeds = false →
        (∃ how, s.point = .ended how) ∧ s.considered.getLast? = some c := by
  have hinv := StepIterator.inv_of_reach h
  have hyielded := hinv.yielded
  refine ⟨?_, hyielded, hinv.requests, hinv.pushes, fun c hc hproceeds => ?_, fun c hc hstops => ?_⟩
  · rw [hyielded]
    exact nodup_keys_keepFirst _ []
  · rw [hyielded]
    exact yielded_of_proceeds hc hproceeds
  · constructor
    · refine hinv.proceeds.resolve_right fun hall => ?_
      rw [hall c hc] at hstops
      cases hstops
    · -- all but the last one proceed
      obtain ⟨before, last, hconsidered⟩ := List.eq_nil_or_concat' s.considered |>.resolve_left
        (List.ne_nil_of_mem hc)
      have hlast := hinv.last
      rw [hconsidered, List.dropLast_concat] at hlast
      rw [hconsidered] at hc ⊢
      rw [List.getLast?_concat]
      rcases List.mem_append.mp hc with hbefore | hc
      · rw [hlast c hbefore] at hstops
        cases hstops
      · rw [List.mem_singleton.mp hc]

/-- A request of a step. -/
def stepRequest (k : Nat) : StepRequest Nat := ⟨true, true, .dict (.hashed k)⟩

/-- The request that ends a stream. -/
def endRequest : StepRequest Nat := ⟨true, false, .dict .null⟩

/-- The copy of a step is pushed after the client has sent it. -/
def lateCopy : StepIterator Nat :=
  ((iteratorMachine Nat).run (.initial true (stepRequest 0))
    [.resume, .arrive .push (stepRequest 0), .resume, .finish .push, .wake]).getD
      (.initial true (stepRequest 0))

theorem steps_deduplicated_late_copy :
    lateCopy.considered = [(.direct, stepRequest 0), (.push, stepRequest 0)] ∧
      (lateCopy.yielded.filterMap StepRequest.stepId).Nodup ∧
      lateCopy.yielded = keepFirst StepRequest.stepId [] (proceeding lateCopy.considered) := by
  have hreach : (iteratorMachine Nat).Reach Machine.always (.initial true (stepRequest 0)) lateCopy :=
    Machine.reach_getD (by decide) (Machine.along_always _ _)
  obtain ⟨hnodup, hyielded, -⟩ := steps_deduplicated hreach
  exact ⟨by decide, hnodup, hyielded⟩

/-- The user ends the stream while a pushed request has been taken by its task. -/
def endedEarly : StepIterator Nat :=
  ((iteratorMachine Nat).run (.initial true (stepRequest 0))
    [.resume, .resume, .arrive .direct endRequest, .arrive .push (stepRequest 1), .finish .direct,
      .finish .push, .wake]).getD (.initial true (stepRequest 0))

/-- Neither of the two is yielded. -/
theorem taken_and_not_yielded :
    (iteratorMachine Nat).Reach Machine.always (.initial true (stepRequest 0)) endedEarly ∧
      endedEarly.point = .ended .finished ∧
      taken .direct endedEarly.considered = [stepRequest 0, endRequest] ∧
      endedEarly.pushes.task = .done (stepRequest 1) ∧ endedEarly.pushes.waiting = [] ∧
      endedEarly.yielded = [stepRequest 0] :=
  ⟨Machine.reach_getD (by decide) (Machine.along_always _ _), by decide, by decide, by decide,
    by decide, by decide⟩

end Drift.Server
