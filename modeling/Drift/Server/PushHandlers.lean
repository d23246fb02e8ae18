import Drift.Lib.Processes
import Drift.Server.AdmissionSlots

/-!
# Pushed activations

The connection handlers of a public worker are processes. A server pushes its outputs to the next one by
`rpc_push`, which may reach another handler than the one that runs the session, and then goes through
that one's event queue. A push takes one of the shared slots before anything is queued, in a section that
also reads the route of the session, and whoever takes the activation out of its queue, or gives it up,
gives the slot back.

Every coroutine is a state of its own, and a step is what it does up to the next operation on the
shared records, or that operation. Steps of different coroutines interleave in any order: those of one
event loop interleave less. Failures that the source allows for, such as a bad uid, a task that cannot be
created or is cancelled, and a lock that times out, are answers from outside. The requests themselves are
left out, for no step reads them: an activation is its slot.

* `ManagedSession`, `PushHandler`, `Coroutine` — sessions, what handlers keep of them, what runs;
* `PushState.advance` — `rpc_push`, the listener, `_get_from_session_queue`, `_managed_session` and the
  tasks for outputs, step by step;
* `pushMachine` — all interleavings.
-/

namespace Drift.Server

open Drift.Lib

/-! ### The state -/

/-- `(Event.PUSH, session_id, (route_token, request))`. -/
structure PushEvent where
  sessionId : String
  routeToken : String
  slot : Nat
  deriving DecidableEq, Repr

/-- What a handler keeps: the queues of its sessions, by number of the session, their tokens, and its
event queue. -/
structure PushHandler where
  sessionQueues : Dict String Nat
  sessionTokens : Dict String String
  events : List PushEvent

/-- One generation of a session. The queue holds activations, and `None` once the session has ended. -/
structure ManagedSession where
  handlerIndex : Nat
  sessionId : String
  sessionKey : String
  routeToken : String
  localQueue : List (Option Nat)
  deriving DecidableEq, Repr

/-- What runs. The argument `slot` is a slot that the coroutine has to hand over or to give back. -/
inductive Coroutine
  /-- `rpc_push`, from its beginning. -/
  | pushing (handlerIndex : Nat) (sessionId : Option String)
  | reserving (handlerIndex : Nat) (sessionId : Option String)
  | handingOver (handlerIndex : Nat) (sessionId : String) (owner : Int) (routeToken : String)
      (slot : Nat)
  /-- The owner of a route is no handler. -/
  | marking (slot : Nat)
  /-- `release_push` is the last thing to do. -/
  | releasing (slot : Nat)
  /-- `_listen_to_event_queue`. -/
  | listening (handlerIndex : Nat)
  | delivering (handlerIndex : Nat) (event : PushEvent)
  | dropping (handlerIndex : Nat) (slot : Nat)
  /-- `_get_from_session_queue`, waiting at a queue. -/
  | getting (session : Nat)
  /-- `_create_output_push_task`, and the task. -/
  | reservingOutbound
  | creating (slot : Nat)
  | outbound (slot : Nat)
  /-- `_managed_session`. -/
  | registering (session : Nat)
  | serving (session : Nat)
  | unlisting (session : Nat)
  | draining (session : Nat)
  | drained (session : Nat) (slot : Nat)
  | ended
  deriving DecidableEq, Repr

/-- The slot that a coroutine holds. -/
def Coroutine.slot : Coroutine → Option Nat
  | .handingOver _ _ _ _ slot | .marking slot | .releasing slot | .dropping _ slot | .creating slot
  | .outbound slot | .drained _ slot => some slot
  | .delivering _ event => some event.slot
  | _ => none

/-- A reservation, with the route that was registered for its session at that moment. -/
inductive Reservation
  | inbound (sessionId : String) (route : Option RouteRecord)
  | outbound
  deriving DecidableEq

/-- The shared records, the handlers, all sessions ever opened, what runs, and to speak of the run: the
reservations ever made, by slot, and the slots given back, in order. -/
structure PushState where
  records : Records
  handlers : List PushHandler
  sessions : List ManagedSession
  coroutines : List Coroutine
  reservations : List Reservation
  released : List Nat

/-- The answers to the requests for the lock, and whether what comes from outside fails. -/
structure PushAnswer where
  lock : List Bool
  fails : Bool
  deriving DecidableEq, Repr

/-! ### Queues -/

/-- The queue that an activation for a route goes to: that of the generation with its token. -/
def PushHandler.routedQueue (handler : PushHandler) (sessionId routeToken : String) : Option Nat :=
  if handler.sessionTokens.lookup sessionId = some routeToken then
    handler.sessionQueues.lookup sessionId
  else
    none

/-- The handler keeps nothing of the session any more. -/
def PushHandler.forget (handler : PushHandler) (sessionId : String) : PushHandler :=
  { handler with
    sessionQueues := handler.sessionQueues.erase sessionId
    sessionTokens := handler.sessionTokens.erase sessionId }

namespace PushState

variable (policy : AdmissionPolicy) (sha256 : String → String)

/-- The queue of a session is replaced. -/
def setQueue (s : PushState) (i : Nat) (session : ManagedSession) (queue : List (Option Nat)) :
    PushState :=
  { s with sessions := s.sessions.set i { session with localQueue := queue } }

/-- `put_nowait`; `none` is the full queue. -/
def putNowait (s : PushState) (i slot : Nat) : Option PushState :=
  match s.sessions[i]? with
  | none => none
  | some session =>
    if session.localQueue.length < policy.maxPendingPushes then
      some (s.setQueue i session (session.localQueue ++ [some slot]))
    else
      none

/-- `release_push` for a slot. -/
def release (s : PushState) (a : PushAnswer) (slot : Nat) : PushState :=
  { s with
    records := (releasePush.run a.lock s.records).2
    released := s.released ++ [slot] }

/-! ### The coroutines -/

/-- `rpc_push` once it has a slot: `_check_uids` and `_put_into_session_queue`. -/
def handOver (s : PushState) (a : PushAnswer) (handlerIndex : Nat) (sessionId : String) (owner : Int)
    (routeToken : String) (slot : Nat) : PushState × Coroutine :=
  if a.fails then
    (s, .releasing slot)
  else if ¬(0 ≤ owner ∧ owner < s.handlers.length) then
    (s, .marking slot)
  else if owner = handlerIndex then
    match s.handlers[handlerIndex]?.bind (·.routedQueue sessionId routeToken) with
    | none => (s, .releasing slot)
    | some i =>
      match s.putNowait policy i slot with
      | none => (s, .releasing slot)
      | some s' => (s', .ended)
  else
    match s.handlers[owner.toNat]? with
    | none => (s, .marking slot)
    | some handler =>
      if handler.events.length < policy.maxPendingPushes then
        ({ s with
          handlers := s.handlers.set owner.toNat
            { handler with events := handler.events ++ [⟨sessionId, routeToken, slot⟩] } }, .ended)
      else
        (s, .releasing slot)

/-- A turn of the listener, once it has an event. -/
def deliver (s : PushState) (handlerIndex : Nat) (event : PushEvent) : PushState × Coroutine :=
  match s.handlers[handlerIndex]?.bind (·.routedQueue event.sessionId event.routeToken) with
  | none => (s, .dropping handlerIndex event.slot)
  | some i =>
    match s.putNowait policy i event.slot with
    | none => (s, .dropping handlerIndex event.slot)
    | some s' => (s', .listening handlerIndex)

/-- The next step of a coroutine, and where it then stands; `none` while it has to wait. -/
def advance (s : PushState) (a : PushAnswer) : Coroutine → Option (PushState × Coroutine)
  | .pushing handlerIndex sessionId =>
    match requireHealthy.run a.lock s.records with
    | (.ok _, records) => some ({ s with records := records }, .reserving handlerIndex sessionId)
    | (.error _, records) => some ({ s with records := records }, .ended)
  | .reserving handlerIndex sessionId =>
    -- a request that is too large or whose metadata is no dictionary reserves nothing
    if a.fails then
      some (s, .ended)
    else
      match sessionId, sessionKey sha256 sessionId with
      | some id, some key =>
        match (reservePush policy key).run a.lock s.records with
        | (.ok (.route owner routeToken), records) =>
          some ({ s with
            records := records
            reservations := s.reservations ++ [.inbound id (s.records.sessions.lookup key)] },
            .handingOver handlerIndex id owner routeToken s.reservations.length)
        | (_, records) => some ({ s with records := records }, .ended)
      | _, _ => some (s, .ended)
  | .handingOver handlerIndex sessionId owner routeToken slot =>
    some (s.handOver policy a handlerIndex sessionId owner routeToken slot)
  | .marking slot =>
    some ({ s with records := ((markUnhealthy (.ok .poisoned)).run a.lock s.records).2 },
      .releasing slot)
  | .releasing slot => some (s.release a slot, .ended)
  | .listening handlerIndex =>
    match s.handlers[handlerIndex]? with
    | none => none
    | some handler =>
      match handler.events with
      | [] => none
      | event :: events =>
        some ({ s with handlers := s.handlers.set handlerIndex { handler with events := events } },
          .delivering handlerIndex event)
  | .delivering handlerIndex event => some (s.deliver policy handlerIndex event)
  | .dropping handlerIndex slot => some (s.release a slot, .listening handlerIndex)
  | .getting i =>
    -- a task that is cancelled leaves the queue as it is
    if a.fails then
      some (s, .ended)
    else
      match s.sessions[i]? with
      | none => none
      | some session =>
        match session.localQueue with
        | [] => none
        | none :: queue => some (s.setQueue i session queue, .ended)
        | some slot :: queue => some (s.setQueue i session queue, .releasing slot)
  | .reservingOutbound =>
    match (reserveOutboundPush policy).run a.lock s.records with
    | (.ok _, records) =>
      some ({ s with records := records, reservations := s.reservations ++ [.outbound] },
        .creating s.reservations.length)
    | (.error _, records) => some ({ s with records := records }, .ended)
  | .creating slot => some (s, if a.fails then .releasing slot else .outbound slot)
  -- the task is done in one way or another, and its callback is called
  | .outbound slot => some (s, .releasing slot)
  | .registering i =>
    match s.sessions[i]? with
    | none => none
    | some session =>
      match (registerSession policy session.sessionKey session.handlerIndex session.routeToken).run
          a.lock s.records with
      | (.ok _, records) => some ({ s with records := records }, .serving i)
      | (.error _, records) => some ({ s with records := records }, .unlisting i)
  | .serving i =>
    match s.sessions[i]? with
    | none => none
    | some session =>
      some ({ s with
        records := ((unregisterSession session.sessionKey session.handlerIndex session.routeToken).run
          a.lock s.records).2 }, .unlisting i)
  | .unlisting i =>
    match s.sessions[i]? with
    | none => none
    | some session =>
      match s.handlers[session.handlerIndex]? with
      | none => none
      | some handler =>
        some ({ s with
          handlers := s.handlers.set session.handlerIndex (handler.forget session.sessionId) },
          .draining i)
  | .draining i =>
    match s.sessions[i]? with
    | none => none
    | some session =>
      match session.localQueue with
      | [] => some (s.setQueue i session [none], .ended)
      | none :: queue => some (s.setQueue i session queue, .draining i)
      | some slot :: queue => some (s.setQueue i session queue, .drained i slot)
  | .drained i slot => some (s.release a slot, .draining i)
  | .ended => none

end PushState

/-! ### All interleavings -/

/-- What can happen: a request, an output to push, a session opened with a token that was drawn for it,
a task that waits for the queue of a session, an operation of another part of the worker on the shared
records, and a step of a coroutine. -/
inductive PushAction
  | push (handlerIndex : Nat) (sessionId : Option String)
  | output
  | openSession (handlerIndex : Nat) (sessionId : Option String) (routeToken : String)
  | get (handlerIndex : Nat) (sessionId : String)
  | operation (p : Operation) (lock : List Bool)
  | advance (i : Nat) (a : PushAnswer)

namespace PushState

variable (policy : AdmissionPolicy) (sha256 : String → String)

/-- A coroutine is started. -/
def start (s : PushState) (c : Coroutine) : PushState := { s with coroutines := s.coroutines ++ [c] }

/-- `_managed_session` up to the registration. -/
def openSession (s : PushState) (handlerIndex : Nat) (handler : PushHandler)
    (sessionId sessionKey routeToken : String) : PushState :=
  { s with
    sessions := s.sessions ++ [⟨handlerIndex, sessionId, sessionKey, routeToken, []⟩]
    handlers := s.handlers.set handlerIndex
      { handler with
        sessionQueues := handler.sessionQueues.insert sessionId s.sessions.length
        sessionTokens := handler.sessionTokens.insert sessionId routeToken }
    coroutines := s.coroutines ++ [.registering s.sessions.length] }

def next (s : PushState) : PushAction → Option PushState
  | .push handlerIndex sessionId => some (s.start (.pushing handlerIndex sessionId))
  | .output => some (s.start .reservingOutbound)
  | .openSession handlerIndex sessionId routeToken =>
    match s.handlers[handlerIndex]?, sessionId, sessionKey sha256 sessionId with
    | some handler, some id, some key =>
      if id ∈ handler.sessionQueues then some s
      else some (s.openSession handlerIndex handler id key routeToken)
    | _, _, _ => some s
  | .get handlerIndex sessionId =>
    match s.handlers[handlerIndex]?.bind (·.sessionQueues.lookup sessionId) with
    | none => some s
    | some i => some (s.start (.getting i))
  | .operation p lock => some { s with records := (p.run lock s.records).2 }
  | .advance i a =>
    match s.coroutines[i]? with
    | none => none
    | some c => (s.advance policy sha256 a c).map fun r =>
        { r.1 with coroutines := s.coroutines.set i r.2 }

/-- A new worker, whose handlers listen. -/
def initial (now : ℚ) (handlers : Nat) : PushState where
  records := .initial policy now
  handlers := List.replicate handlers ⟨∅, ∅, []⟩
  sessions := []
  coroutines := (List.range handlers).map .listening
  reservations := []
  released := []

end PushState

/-- The handlers of a worker. -/
def pushMachine (policy : AdmissionPolicy) (sha256 : String → String) :
    Machine PushState PushAction :=
  ⟨PushState.next policy sha256⟩

/-- The other parts of the worker keep to the operations on leases and health. -/
def Handling (policy : AdmissionPolicy) : PushState → PushAction → Prop
  | _, .operation p _ => Elsewhere policy p
  | _, _ => True

end Drift.Server
