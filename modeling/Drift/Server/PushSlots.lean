import Drift.Server.PushHandlers

/-!
# Push slots are conserved

A slot is taken by a reservation and then held at one place at a time: in the queue of a session, in an
event queue, or by a coroutine. A step moves it from one place to another, or makes one reservation, or
gives one slot back. So every reservation is held once or was released once, and in a healthy worker the
shared count of pending pushes is the number of slots that are held.

* `SlotStep` — what a step does to the slots, `advance_slots`;
* `Conserved` — the invariant;
* `push_slots_conserved` — what holds in every run.
-/

namespace Drift.Server

open Drift.Lib

variable {policy : AdmissionPolicy} {sha256 : String → String} {s s' : PushState}

/-! ### Where the slots are -/

/-- The slots in a session's queue. -/
def ManagedSession.slots (session : ManagedSession) : List Nat := session.localQueue.filterMap id

/-- The slots in an event queue. -/
def PushHandler.slots (handler : PushHandler) : List Nat := handler.events.map PushEvent.slot

/-- All slots that are held. -/
def PushState.held (s : PushState) : List Nat :=
  s.sessions.flatMap ManagedSession.slots ++ s.handlers.flatMap PushHandler.slots ++
    s.coroutines.filterMap Coroutine.slot

/-- How many slots of a kind the queues hold. -/
def PushState.stored (s : PushState) (p : Nat → Bool) : Nat :=
  (s.sessions.map fun m => m.slots.countP p).sum + (s.handlers.map fun h => h.slots.countP p).sum

/-- Whether a coroutine holds one. -/
def Coroutine.holds (c : Coroutine) (p : Nat → Bool) : Nat := if c.slot.any p then 1 else 0

/-- How many are held. -/
def PushState.tally (s : PushState) (p : Nat → Bool) : Nat :=
  s.stored p + s.coroutines.countP fun c => c.slot.any p

theorem countP_held (s : PushState) (p : Nat → Bool) : s.held.countP p = s.tally p := by
  unfold PushState.held PushState.tally PushState.stored
  rw [List.countP_append, List.countP_append, List.countP_flatMap, List.countP_flatMap,
    List.countP_filterMap]
  congr 1
  refine List.countP_congr fun c _ => ?_
  cases c.slot <;> simp

/-- A queue that changes moves the count by what it holds. -/
theorem stored_setQueue {i : Nat} {session : ManagedSession} (hi : s.sessions[i]? = some session)
    (queue : List (Option Nat)) (p : Nat → Bool) :
    (s.setQueue i session queue).stored p + (session.localQueue.filterMap id).countP p =
      s.stored p + (queue.filterMap id).countP p := by
  have hset := sum_map_set_add (b := { session with localQueue := queue })
    (fun m : ManagedSession => m.slots.countP p) hi
  unfold PushState.stored PushState.setQueue
  simp only [ManagedSession.slots] at hset ⊢
  omega

theorem stored_setHandler {i : Nat} {handler k : PushHandler}
    (hi : s.handlers[i]? = some handler) (p : Nat → Bool) :
    ({ s with handlers := s.handlers.set i k } : PushState).stored p +
        handler.slots.countP p =
      s.stored p + k.slots.countP p := by
  have hset := sum_map_set_add (b := k) (fun h : PushHandler => h.slots.countP p) hi
  unfold PushState.stored
  simp only at hset ⊢
  omega

/-- An activation that is put into a session's queue. -/
theorem stored_putNowait {i slot : Nat} (h : s.putNowait policy i slot = some s') (p : Nat → Bool) :
    s'.stored p = s.stored p + (if p slot then 1 else 0) := by
  unfold PushState.putNowait at h
  split at h
  · cases h
  next session hi =>
  split at h
  · cases h
    have hset := stored_setQueue hi (session.localQueue ++ [some slot]) p
    rw [List.filterMap_append, List.countP_append] at hset
    simp only [List.filterMap_cons, id, List.filterMap_nil, List.countP_singleton] at hset
    omega
  · cases h

theorem putNowait_eq {i slot : Nat} (h : s.putNowait policy i slot = some s') :
    s'.records = s.records ∧ s'.reservations = s.reservations ∧ s'.released = s.released ∧
      s'.coroutines = s.coroutines := by
  unfold PushState.putNowait at h
  split at h
  · cases h
  split at h
  · cases h
    exact ⟨rfl, rfl, rfl, rfl⟩
  · cases h

/-! ### What a step does -/

/-- The shared records of a step that leaves the slots alone: it leaves the worker unhealthy, or the
count as it was. -/
def KeepsPending (r r' : Records) : Prop :=
  r'.healthy = true → r.healthy = true ∧ r'.pendingPushes = r.pendingPushes

theorem KeepsPending.refl (r : Records) : KeepsPending r r := fun h => ⟨h, rfl⟩

/-- What a step of a coroutine from `c` to `c'` does to the slots. -/
inductive SlotStep (policy : AdmissionPolicy) (s : PushState) (a : PushAnswer) (c : Coroutine)
    (s' : PushState) (c' : Coroutine) : Prop
  /-- A slot moves, or nothing does. -/
  | moves (hstored : ∀ p, s'.stored p + c'.holds p = s.stored p + c.holds p)
      (hreservations : s'.reservations = s.reservations) (hreleased : s'.released = s.released)
      (hrecords : KeepsPending s.records s'.records)
  /-- A slot is taken. -/
  | reserves (reservation : Reservation) (n : Int) (hstored : ∀ p, s'.stored p = s.stored p)
      (hslot : c.slot = none) (hslot' : c'.slot = some s.reservations.length)
      (hreservations : s'.reservations = s.reservations ++ [reservation])
      (hreleased : s'.released = s.released) (hhealthy : s.records.healthy = true)
      (hpending : s.records.pendingPushes = some n) (hroom : n < policy.maxPendingPushes)
      (hpending' : s'.records.pendingPushes = some (n + 1))
  /-- A slot is given back. -/
  | releases (slot : Nat) (hslot : c.slot = some slot) (hslot' : c'.slot = none)
      (hs' : s' = s.release a slot)

/-- A step that touches neither queues nor slots. -/
theorem SlotStep.quiet {a : PushAnswer} {c c' : Coroutine} (hslot : c'.slot = c.slot)
    {records : Records} (hrecords : KeepsPending s.records records) :
    SlotStep policy s a c { s with records := records } c' := by
  refine .moves (fun p => ?_) rfl rfl hrecords
  unfold Coroutine.holds
  rw [hslot]
  rfl

/-- A step that only moves the coroutine. -/
theorem SlotStep.same {a : PushAnswer} {c c' : Coroutine} (hslot : c'.slot = c.slot) :
    SlotStep policy s a c s c' := by
  refine .moves (fun p => ?_) rfl rfl (KeepsPending.refl _)
  unfold Coroutine.holds
  rw [hslot]

theorem Coroutine.holds_some {c : Coroutine} {slot : Nat} (h : c.slot = some slot) (p : Nat → Bool) :
    c.holds p = if p slot then 1 else 0 := by
  unfold Coroutine.holds
  rw [h]
  rfl

theorem Coroutine.holds_none {c : Coroutine} (h : c.slot = none) (p : Nat → Bool) : c.holds p = 0 := by
  unfold Coroutine.holds
  rw [h]
  rfl

/-- `rpc_push` hands its slot over, or keeps it to give it back. -/
theorem handOver_slots {a : PushAnswer} {handlerIndex : Nat} {sessionId routeToken : String}
    {owner : Int} {slot : Nat} :
    SlotStep policy s a (.handingOver handlerIndex sessionId owner routeToken slot)
      (s.handOver policy a handlerIndex sessionId owner routeToken slot).1
      (s.handOver policy a handlerIndex sessionId owner routeToken slot).2 := by
  have hsame : ∀ c', c'.slot = some slot →
      SlotStep policy s a (.handingOver handlerIndex sessionId owner routeToken slot) s c' :=
    fun c' hslot => SlotStep.same hslot
  unfold PushState.handOver
  split
  · exact hsame _ rfl
  split
  · exact hsame _ rfl
  split
  · split
    · exact hsame _ rfl
    split
    · exact hsame _ rfl
    · next t ht =>
      obtain ⟨hrecords, hreservations, hreleased, -⟩ := putNowait_eq ht
      refine .moves (fun p => ?_) hreservations hreleased ?_
      · rw [stored_putNowait ht, Coroutine.holds_none rfl, Coroutine.holds_some rfl, Nat.add_zero]
      · rw [hrecords]
        exact KeepsPending.refl _
  split
  · exact hsame _ rfl
  next handler hhandler =>
  split
  · refine .moves (fun p => ?_) rfl rfl (KeepsPending.refl _)
    have hset := stored_setHandler (k := { handler with
      events := handler.events ++ [⟨sessionId, routeToken, slot⟩] }) hhandler p
    unfold PushHandler.slots at hset
    rw [List.map_append, List.countP_append, List.map_singleton, List.countP_singleton] at hset
    rw [Coroutine.holds_none rfl, Coroutine.holds_some rfl]
    simp only at hset ⊢
    omega
  · exact hsame _ rfl

/-- The listener puts its event into a queue, or keeps the slot to give it back. -/
theorem deliver_slots {a : PushAnswer} {handlerIndex : Nat} {event : PushEvent} :
    SlotStep policy s a (.delivering handlerIndex event) (s.deliver policy handlerIndex event).1
      (s.deliver policy handlerIndex event).2 := by
  have hdropped : SlotStep policy s a (.delivering handlerIndex event) s
      (.dropping handlerIndex event.slot) := SlotStep.same rfl
  unfold PushState.deliver
  split
  · exact hdropped
  split
  · exact hdropped
  · next t ht =>
    obtain ⟨hrecords, hreservations, hreleased, -⟩ := putNowait_eq ht
    refine .moves (fun p => ?_) hreservations hreleased ?_
    · rw [stored_putNowait ht, Coroutine.holds_none rfl, Coroutine.holds_some rfl, Nat.add_zero]
    · rw [hrecords]
      exact KeepsPending.refl _

/-- An entry taken out of a queue is held by the coroutine, if it is an activation. -/
theorem setQueue_slots {a : PushAnswer} {c c' : Coroutine} {i : Nat} {session : ManagedSession}
    {entry : Option Nat} {queue : List (Option Nat)} (hi : s.sessions[i]? = some session)
    (hqueue : session.localQueue = entry :: queue) (hslot : c.slot = none) (hslot' : c'.slot = entry) :
    SlotStep policy s a c (s.setQueue i session queue) c' := by
  refine .moves (fun p => ?_) rfl rfl (KeepsPending.refl _)
  have hset := stored_setQueue hi queue p
  rw [hqueue] at hset
  rw [Coroutine.holds_none hslot]
  cases entry with
  | none =>
    rw [Coroutine.holds_none hslot']
    simpa using hset
  | some slot =>
    rw [Coroutine.holds_some hslot']
    simp only [List.filterMap_cons, id, List.countP_cons] at hset
    omega

/-- What an operation that keeps the routes and slots does to the count. -/
theorem keepsPending_of_operation {p : Operation} (h : IsOperation policy p) {answers : List Bool}
    {r : Records} (hkept : (p.run answers r).2.pendingPushes = r.pendingPushes) :
    KeepsPending r (p.run answers r).2 :=
  fun hhealthy => ⟨h.healthy_of_run hhealthy, hkept⟩

theorem Elsewhere.keepsPending {p : Operation} (h : Elsewhere policy p) (answers : List Bool)
    (r : Records) : KeepsPending r (p.run answers r).2 :=
  keepsPending_of_operation h.isOperation (congrArg Prod.fst (h.keeps.run answers r))

/-- The reservation of a slot, and the one that is refused. -/
theorem reserved_slots {a : PushAnswer} {c d : Coroutine} {granted : Answer}
    {result : Outcome × Records} (h : Reserved policy s.records granted result)
    (hslot : c.slot = none) :
    (∀ reservation, d.slot = some s.reservations.length → result.1 = .ok granted →
      SlotStep policy s a c { s with
        records := result.2, reservations := s.reservations ++ [reservation] } d) ∧
    (d.slot = none → result.1 ≠ .ok granted →
      SlotStep policy s a c { s with records := result.2 } d) := by
  cases h with
  | refused r =>
    refine ⟨fun _ _ h => (by cases h), fun hslot' _ => ?_⟩
    exact SlotStep.same (hslot'.trans hslot.symm)
  | corrupted r =>
    refine ⟨fun _ _ h => (by cases h), fun hslot' _ => ?_⟩
    refine SlotStep.quiet (hslot'.trans hslot.symm) fun hhealthy => ?_
    exact Bool.noConfusion (hhealthy.symm.trans s.records.poison_healthy)
  | taken n hhealthy hpending hn hroom =>
    refine ⟨fun reservation hslot' _ => ?_, fun _ h => absurd rfl h⟩
    exact .reserves reservation n (fun _ => rfl) hslot hslot' rfl rfl hhealthy hpending hroom rfl

/-- A step of `rpc_push` that asks for a slot. -/
theorem reserving_slots {a : PushAnswer} {handlerIndex : Nat} {sessionId : Option String}
    {c' : Coroutine} (h : s.advance policy sha256 a (.reserving handlerIndex sessionId) = some (s', c')) :
    SlotStep policy s a (.reserving handlerIndex sessionId) s' c' := by
  simp only [PushState.advance] at h
  split at h
  · cases h
    exact SlotStep.same rfl
  split at h
  case h_2 =>
    cases h
    exact SlotStep.same rfl
  next id key hkey =>
  have hcases := reservePush_cases policy key a.lock s.records
  generalize (reservePush policy key).run a.lock s.records = result at h hcases
  rcases hcases with ⟨r, hrefused | hcorrupted⟩ | ⟨owner, routeToken, -, -, hreserved⟩
  · rw [hrefused] at h
    cases h
    exact SlotStep.same rfl
  · rw [hcorrupted] at h
    cases h
    refine SlotStep.quiet ?_ fun hhealthy => ?_
    · rfl
    · exact Bool.noConfusion (hhealthy.symm.trans s.records.poison_healthy)
  · have htaken : ∀ reservation, _ := (reserved_slots hreserved (a := a)
      (c := .reserving handlerIndex (some id))
      (d := .handingOver handlerIndex id owner routeToken s.reservations.length) rfl).1
    have hrefused := (reserved_slots hreserved (a := a) (c := .reserving handlerIndex (some id))
      (d := .ended) rfl).2 rfl
    cases hreserved with
    | refused r =>
      cases h
      exact hrefused (by intro h; cases h)
    | corrupted r =>
      cases h
      exact hrefused (by intro h; cases h)
    | taken n hhealthy hpending hn hroom =>
      cases h
      exact htaken _ rfl rfl

/-- **What a step does to the slots.** -/
theorem advance_slots {a : PushAnswer} {c c' : Coroutine}
    (h : s.advance policy sha256 a c = some (s', c')) : SlotStep policy s a c s' c' := by
  cases c with
  | pushing handlerIndex sessionId =>
    have hkept := (show Elsewhere policy _ from .requireHealthy).keepsPending a.lock s.records
    simp only [PushState.advance] at h
    generalize requireHealthy.run a.lock s.records = result at h hkept
    split at h <;> cases h
    · refine SlotStep.quiet ?_ hkept
      rfl
    · refine SlotStep.quiet ?_ hkept
      rfl
  | reserving handlerIndex sessionId => exact reserving_slots h
  | handingOver handlerIndex sessionId owner routeToken slot =>
    obtain ⟨rfl, rfl⟩ := Prod.mk.inj (Option.some.inj h)
    exact handOver_slots
  | marking slot =>
    cases h
    have hmark : Elsewhere policy _ := .markUnhealthy
    refine SlotStep.quiet ?_ (hmark.keepsPending a.lock s.records)
    rfl
  | releasing slot =>
    cases h
    exact .releases slot rfl rfl rfl
  | listening handlerIndex =>
    simp only [PushState.advance] at h
    split at h
    · cases h
    next handler hhandler =>
    split at h
    · cases h
    next event events hevents =>
    cases h
    refine .moves (fun p => ?_) rfl rfl (KeepsPending.refl _)
    have hset := stored_setHandler (k := { handler with events := events }) hhandler p
    unfold PushHandler.slots at hset
    rw [hevents, List.map_cons, List.countP_cons] at hset
    rw [Coroutine.holds_some rfl, Coroutine.holds_none rfl]
    simp only at hset ⊢
    omega
  | delivering handlerIndex event =>
    obtain ⟨rfl, rfl⟩ := Prod.mk.inj (Option.some.inj h)
    exact deliver_slots
  | dropping handlerIndex slot =>
    cases h
    exact .releases slot rfl rfl rfl
  | getting i =>
    simp only [PushState.advance] at h
    split at h
    · cases h
      exact SlotStep.same rfl
    split at h
    · cases h
    next session hi =>
    split at h
    · cases h
    · next queue hqueue =>
      cases h
      exact setQueue_slots hi hqueue rfl rfl
    · next slot queue hqueue =>
      cases h
      exact setQueue_slots hi hqueue rfl rfl
  | reservingOutbound =>
    have hcases := reserveOutboundPush_cases policy a.lock s.records
    simp only [PushState.advance] at h
    generalize (reserveOutboundPush policy).run a.lock s.records = result at h hcases
    have htaken : ∀ reservation, _ := (reserved_slots hcases (a := a) (c := .reservingOutbound)
      (d := .creating s.reservations.length) rfl).1
    have hrefused := (reserved_slots hcases (a := a) (c := .reservingOutbound) (d := .ended) rfl).2 rfl
    cases hcases with
    | refused r =>
      cases h
      exact hrefused (by intro h; cases h)
    | corrupted r =>
      cases h
      exact hrefused (by intro h; cases h)
    | taken n hhealthy hpending hn hroom =>
      cases h
      exact htaken _ rfl rfl
  | creating slot =>
    obtain ⟨rfl, rfl⟩ := Prod.mk.inj (Option.some.inj h)
    apply SlotStep.same
    split <;> rfl
  | outbound slot =>
    cases h
    exact SlotStep.same rfl
  | registering i =>
    simp only [PushState.advance] at h
    split at h
    · cases h
    next session hi =>
    have hcases := registerSession_cases policy session.sessionKey session.handlerIndex
      session.routeToken a.lock s.records
    rcases hcases with ⟨r, hrefused⟩ | ⟨hhealthy, -, hregistered⟩
    · rw [hrefused] at h
      cases h
      exact SlotStep.same rfl
    · rw [hregistered] at h
      cases h
      refine SlotStep.quiet ?_ fun _ => ⟨hhealthy, rfl⟩
      rfl
  | serving i =>
    simp only [PushState.advance] at h
    split at h
    · cases h
    next session hi =>
    cases h
    have hcases := unregisterSession_cases session.sessionKey session.handlerIndex
      session.routeToken a.lock s.records
    refine SlotStep.quiet ?_ ?_
    · rfl
    rcases hcases with ⟨hunhealthy, -⟩ | ⟨-, hremoved⟩
    · exact fun hhealthy => Bool.noConfusion (hhealthy.symm.trans hunhealthy)
    · rw [hremoved]
      exact fun hhealthy => ⟨hhealthy, rfl⟩
  | unlisting i =>
    simp only [PushState.advance] at h
    split at h
    · cases h
    next session hi =>
    split at h
    · cases h
    next handler hhandler =>
    cases h
    refine .moves (fun p => ?_) rfl rfl (KeepsPending.refl _)
    have hset := stored_setHandler (k := handler.forget session.sessionId) hhandler p
    rw [Coroutine.holds_none rfl, Coroutine.holds_none rfl]
    exact Nat.add_right_cancel hset
  | draining i =>
    simp only [PushState.advance] at h
    split at h
    · cases h
    next session hi =>
    split at h
    · next hqueue =>
      cases h
      refine .moves (fun p => ?_) rfl rfl (KeepsPending.refl _)
      have hset := stored_setQueue hi [none] p
      rw [hqueue] at hset
      exact hset
    · next queue hqueue =>
      cases h
      exact setQueue_slots hi hqueue rfl rfl
    · next slot queue hqueue =>
      cases h
      exact setQueue_slots hi hqueue rfl rfl
  | drained i slot =>
    cases h
    exact .releases slot rfl rfl rfl
  | ended => cases h

/-! ### The invariant -/

/-- **The slots are conserved.** Every reservation is held once or was released once, and in a healthy
worker the shared count is the number of those that are held. -/
structure Conserved (policy : AdmissionPolicy) (s : PushState) : Prop where
  ledger : ∀ p, s.released.countP p + s.tally p = (List.range s.reservations.length).countP p
  counted : s.records.healthy = true →
    s.records.pendingPushes = some ((s.tally fun _ => true : Nat) : Int) ∧
      s.tally (fun _ => true) ≤ policy.maxPendingPushes

/-- The count after a step of a coroutine. -/
theorem tally_set {i : Nat} {c d : Coroutine} (hi : s.coroutines[i]? = some c) (t : PushState)
    (p : Nat → Bool) :
    ({ t with coroutines := s.coroutines.set i d } : PushState).tally p + c.holds p + s.stored p =
      s.tally p + d.holds p + t.stored p := by
  have hset := countP_set_add (b := d) (fun c : Coroutine => c.slot.any p) hi
  show t.stored p + (s.coroutines.set i d).countP (fun c => c.slot.any p) + _ + _ = _
  unfold Coroutine.holds PushState.tally
  omega

/-- What a step of a coroutine does to the slots keeps them conserved. -/
theorem SlotStep.conserved {a : PushAnswer} {i : Nat} {c d : Coroutine} {t u : PushState}
    (h : SlotStep policy s a c t d) (hi : s.coroutines[i]? = some c) (hs : Conserved policy s)
    (hu : u = { t with coroutines := s.coroutines.set i d }) : Conserved policy u := by
  have htally : ∀ p, u.tally p + c.holds p + s.stored p = s.tally p + d.holds p + t.stored p := by
    rw [hu]
    exact tally_set hi t
  have hurecords : u.records = t.records := by rw [hu]
  have hureservations : u.reservations = t.reservations := by rw [hu]
  have hureleased : u.released = t.released := by rw [hu]
  clear hu
  cases h with
  | moves hstored hreservations hreleased hrecords =>
    have hsame : ∀ p, u.tally p = s.tally p := by
      intro p
      have hp := htally p
      have hq := hstored p
      omega
    refine ⟨fun p => ?_, fun hhealthy => ?_⟩
    · rw [hsame, hureleased, hureservations, hreleased, hreservations]
      exact hs.ledger p
    · rw [hurecords] at hhealthy ⊢
      obtain ⟨hbefore, hpending⟩ := hrecords hhealthy
      rw [hsame, hpending]
      exact hs.counted hbefore
  | reserves reservation n hstored hslot hslot' hreservations hreleased hhealthy hpending hroom
      hpending' =>
    have hmore : ∀ p, u.tally p = s.tally p + if p s.reservations.length then 1 else 0 := by
      intro p
      have hp := htally p
      rw [hstored, Coroutine.holds_none hslot, Coroutine.holds_some hslot'] at hp
      omega
    refine ⟨fun p => ?_, fun _ => ?_⟩
    · -- the new reservation is the next slot
      have hledger := hs.ledger p
      rw [hmore, hureleased, hureservations, hreleased, hreservations, List.length_append,
        List.length_singleton, List.range_succ, List.countP_append, List.countP_singleton]
      omega
    · obtain ⟨hcounted, hmax⟩ := hs.counted hhealthy
      obtain rfl : n = ((s.tally fun _ => true : Nat) : Int) :=
        Option.some.inj (hpending.symm.trans hcounted)
      rw [hmore, hurecords, hpending']
      simp only [if_true, Nat.cast_add, Nat.cast_one, true_and]
      omega
  | releases slot hslot hslot' ht =>
    have hrecords : u.records = (releasePush.run a.lock s.records).2 := by
      rw [hurecords, ht]
      rfl
    have hless : ∀ p, u.tally p + (if p slot then 1 else 0) = s.tally p := by
      intro p
      have hstored : t.stored p = s.stored p := by
        rw [ht]
        rfl
      have hp := htally p
      rw [Coroutine.holds_some hslot, Coroutine.holds_none hslot', hstored] at hp
      omega
    refine ⟨fun p => ?_, fun hhealthy => ?_⟩
    · have hledger := hs.ledger p
      have hp := hless p
      rw [hureleased, hureservations, ht]
      show (s.released ++ [slot]).countP p + _ = (List.range s.reservations.length).countP p
      rw [List.countP_append, List.countP_singleton]
      omega
    · rw [hrecords] at hhealthy ⊢
      rcases (releasePush_cases a.lock s.records).2 with ⟨hunhealthy, -⟩ | ⟨n, hn, hpos, hgiven⟩
      · exact Bool.noConfusion (hhealthy.symm.trans hunhealthy)
      · rw [hgiven] at hhealthy ⊢
        obtain ⟨hcounted, hmax⟩ := hs.counted hhealthy
        obtain rfl : n = ((s.tally fun _ => true : Nat) : Int) :=
          Option.some.inj (hn.symm.trans hcounted)
        have hone := hless fun _ => true
        rw [if_pos rfl] at hone
        rw [Option.some.injEq]
        omega

/-- A coroutine that starts without a slot. -/
theorem start_conserved {c : Coroutine} (hslot : c.slot = none) (hs : Conserved policy s) :
    Conserved policy (s.start c) := by
  have htally : ∀ p, (s.start c).tally p = s.tally p := by
    intro p
    show s.stored p + (s.coroutines ++ [c]).countP (fun c => c.slot.any p) = _
    rw [List.countP_append, List.countP_singleton, hslot]
    rfl
  refine ⟨fun p => ?_, fun hhealthy => ?_⟩
  · rw [htally]
    exact hs.ledger p
  · rw [htally]
    exact hs.counted hhealthy

/-- A session opens with an empty queue. -/
theorem openSession_conserved {handlerIndex : Nat} {handler : PushHandler}
    {sessionId sessionKey routeToken : String} (hi : s.handlers[handlerIndex]? = some handler)
    (hs : Conserved policy s) :
    Conserved policy (s.openSession handlerIndex handler sessionId sessionKey routeToken) := by
  have htally : ∀ p, (s.openSession handlerIndex handler sessionId sessionKey routeToken).tally p =
      s.tally p := by
    intro p
    have hset := stored_setHandler (k := { handler with
      sessionQueues := handler.sessionQueues.insert sessionId s.sessions.length
      sessionTokens := handler.sessionTokens.insert sessionId routeToken }) hi p
    have hslots := Nat.add_right_cancel hset
    unfold PushState.stored at hslots
    unfold PushState.openSession PushState.tally PushState.stored
    simp only [List.map_append, List.sum_append, List.countP_append, ManagedSession.slots,
      List.map_singleton, List.sum_singleton, List.filterMap_nil, List.countP_nil,
      List.countP_singleton, Coroutine.slot, Option.any_none, Nat.add_zero] at hslots ⊢
    rw [hslots]
    rfl
  refine ⟨fun p => ?_, fun hhealthy => ?_⟩
  · rw [htally]
    exact hs.ledger p
  · rw [htally]
    exact hs.counted hhealthy

theorem initial_conserved (now : ℚ) (handlers : Nat) :
    Conserved policy (.initial policy now handlers) := by
  have htally : ∀ p, (PushState.initial policy now handlers).tally p = 0 := by
    intro p
    unfold PushState.tally PushState.stored PushState.initial
    have hlistening : ((List.range handlers).map Coroutine.listening).countP
        (fun c => c.slot.any p) = 0 := by
      rw [List.countP_map, List.countP_eq_zero]
      intro i _ h
      cases h
    rw [hlistening, List.map_replicate, List.sum_replicate]
    simp [PushHandler.slots]
  refine ⟨fun p => ?_, fun _ => ?_⟩
  · rw [htally]
    rfl
  · rw [htally]
    exact ⟨rfl, Nat.zero_le _⟩

/-- **Every step conserves the slots.** -/
theorem Conserved.step {l : PushAction} (hs : Conserved policy s) (hl : Handling policy s l)
    (h : (pushMachine policy sha256).next s l = some s') : Conserved policy s' := by
  cases l with
  | push handlerIndex sessionId =>
    cases h
    exact start_conserved rfl hs
  | output =>
    cases h
    exact start_conserved rfl hs
  | openSession handlerIndex sessionId routeToken =>
    simp only [pushMachine, PushState.next] at h
    split at h
    · next handler id key hhandler _ =>
      split at h
      · cases h
        exact hs
      · cases h
        exact openSession_conserved hhandler hs
    · cases h
      exact hs
  | get handlerIndex sessionId =>
    simp only [pushMachine, PushState.next] at h
    split at h
    · cases h
      exact hs
    · cases h
      exact start_conserved rfl hs
  | operation p lock =>
    cases h
    refine ⟨hs.ledger, fun hhealthy => ?_⟩
    obtain ⟨hbefore, hpending⟩ := Elsewhere.keepsPending hl lock s.records hhealthy
    show (p.run lock s.records).2.pendingPushes = _ ∧ _
    rw [hpending]
    exact hs.counted hbefore
  | advance i a =>
    simp only [pushMachine, PushState.next] at h
    split at h
    · cases h
    next c hi =>
    obtain ⟨⟨t, d⟩, hadvance, rfl⟩ := Option.map_eq_some_iff.mp h
    exact (advance_slots hadvance).conserved hi hs rfl

theorem Conserved.of_reach {now : ℚ} {handlers : Nat}
    (h : (pushMachine policy sha256).Reach (Handling policy) (.initial policy now handlers) s) :
    Conserved policy s :=
  h.invariant (initial_conserved now handlers) fun _ _ _ hs hl hnext => hs.step hl hnext

/-! ### What is held where -/

/-- Why a coroutine holds a slot. -/
inductive Place
  /-- It delivers an event. -/
  | event
  /-- It is a task that pushes outputs. -/
  | task
  /-- It has reserved the slot, and handed nothing over yet. -/
  | reserved
  /-- It is about to give the slot back. -/
  | returning
  deriving DecidableEq

def Coroutine.place : Coroutine → Option Place
  | .delivering _ _ => some .event
  | .outbound _ => some .task
  | .handingOver _ _ _ _ _ | .creating _ => some .reserved
  | .marking _ | .releasing _ | .dropping _ _ | .drained _ _ => some .returning
  | _ => none

namespace PushState

/-- The coroutines that hold a slot for a reason. -/
def countAt (s : PushState) (place : Place) : Nat := s.coroutines.countP fun c => c.place = some place

/-- The requests queued in the local queues of the sessions. -/
def queued (s : PushState) : Nat := (s.sessions.map fun m => m.slots.length).sum

/-- The events in flight between handlers. -/
def inFlight (s : PushState) : Nat := (s.handlers.map fun h => h.events.length).sum + s.countAt .event

/-- The tasks for outputs that are not done. -/
def unfinished (s : PushState) : Nat := s.countAt .task

/-- The reservations not handed over, and those on the way back. -/
def underway (s : PushState) : Nat := s.countAt .reserved + s.countAt .returning

/-- All requests, events, tasks and reservations that a pending push stands for. -/
def pending (s : PushState) : Nat := s.queued + s.inFlight + s.unfinished + s.underway

end PushState

/-- A coroutine that holds a slot holds it for one reason. -/
theorem holds_eq_place : ∀ l : List Coroutine,
    (l.countP fun c => c.slot.any fun _ => true) =
      l.countP (fun c => c.place = some .event) + l.countP (fun c => c.place = some .task) +
        l.countP (fun c => c.place = some .reserved) + l.countP (fun c => c.place = some .returning)
  | [] => rfl
  | c :: l => by
    have hone : (if (c.slot.any fun _ => true) = true then 1 else 0) =
        (if decide (c.place = some .event) = true then 1 else 0) +
          (if decide (c.place = some .task) = true then 1 else 0) +
          (if decide (c.place = some .reserved) = true then 1 else 0) +
          (if decide (c.place = some .returning) = true then 1 else 0) := by
      cases c <;> rfl
    have hrest := holds_eq_place l
    simp only [List.countP_cons]
    omega

/-- The slots that are held are what the pending pushes stand for. -/
theorem tally_eq_pending (s : PushState) : (s.tally fun _ => true) = s.pending := by
  have hplaces := holds_eq_place s.coroutines
  unfold PushState.tally PushState.stored PushState.pending PushState.queued PushState.inFlight
    PushState.unfinished PushState.underway PushState.countAt
  simp only [List.countP_true, PushHandler.slots, List.length_map] at hplaces ⊢
  omega

/-- Whoever holds a slot in a healthy worker can give it back. -/
theorem Conserved.release_healthy (hs : Conserved policy s) (hhealthy : s.records.healthy = true)
    {c : Coroutine} {slot : Nat} (hc : c ∈ s.coroutines) (hslot : c.slot = some slot)
    {answers : List Bool} (hgranted : answers.headD true = true) :
    (releasePush.run answers s.records).2.healthy = true := by
  obtain ⟨hcounted, -⟩ := hs.counted hhealthy
  have hone : 1 ≤ s.tally fun _ => true := by
    have hpos : 0 < s.coroutines.countP fun c => c.slot.any fun _ => true :=
      List.countP_pos_iff.mpr ⟨c, hc, by rw [hslot]; rfl⟩
    unfold PushState.tally
    omega
  rcases (releasePush_cases answers s.records).2 with ⟨-, hlow⟩ | ⟨n, -, -, hgiven⟩
  · have := hlow hgranted _ hcounted
    omega
  · rw [hgiven]
    exact hhealthy

/-- **Push slots are conserved.** In every reachable state each reservation is held at one place or has
been released, once; in a healthy one the shared count is the number of requests that are queued, events
in flight, tasks that are not done and reservations underway, it is within the bound, and no
`release_push` that is granted the lock leaves the worker unhealthy. -/
theorem push_slots_conserved {now : ℚ} {handlers : Nat}
    (h : (pushMachine policy sha256).Reach (Handling policy) (.initial policy now handlers) s) :
    (s.released ++ s.held).Perm (List.range s.reservations.length) ∧
      (s.records.healthy = true →
        s.records.pendingPushes = some (s.pending : Int) ∧
          s.pending ≤ policy.maxPendingPushes ∧
          ∀ c ∈ s.coroutines, ∀ slot, c.slot = some slot → ∀ answers : List Bool,
            answers.headD true = true → (releasePush.run answers s.records).2.healthy = true) := by
  have hs := Conserved.of_reach h
  refine ⟨?_, fun hhealthy => ?_⟩
  · rw [List.perm_iff_count]
    intro slot
    rw [List.count_append]
    have hledger := hs.ledger (· == slot)
    rw [← countP_held] at hledger
    exact hledger
  · have hcounted := hs.counted hhealthy
    rw [tally_eq_pending] at hcounted
    exact ⟨hcounted.1, hcounted.2, fun c hc slot hslot answers hgranted =>
      hs.release_healthy hhealthy hc hslot hgranted⟩

def PushAction.isOperation : PushAction → Bool
  | .operation _ _ => true
  | _ => false

/-- Nothing is asked of the steps of handlers. -/
theorem along_handling : ∀ (s : PushState) (actions : List PushAction),
    (∀ l ∈ actions, l.isOperation = false) →
      (pushMachine policy sha256).Along (Handling policy) s actions
  | _, [], _ => trivial
  | s, l :: actions, h => by
    refine ⟨?_, fun t _ => along_handling t actions fun l hl => h l (List.mem_cons_of_mem _ hl)⟩
    have hl := h l List.mem_cons_self
    cases l with
    | operation p lock => cases hl
    | _ => trivial

/-- A session on the first of two handlers, and a push that reaches the second: it is delivered through
the event queue of the first and waits in the queue of the session. -/
def pushedActions : List PushAction :=
  [.openSession 0 (some "s") "0123456789abcdef0123456789abcdef", .advance 2 ⟨[], false⟩, .push 1 (some "s")] ++
    List.replicate 3 (.advance 3 ⟨[], false⟩) ++ List.replicate 2 (.advance 0 ⟨[], false⟩)

def pushed : PushState :=
  ((pushMachine .single id).run (.initial .single 0 2) pushedActions).getD (.initial .single 0 2)

theorem push_slots_conserved_pushed :
    (pushed.queued = 1 ∧ pushed.records.healthy = true) ∧
    (pushed.released ++ pushed.held).Perm (List.range pushed.reservations.length) ∧
      (pushed.records.healthy = true →
        pushed.records.pendingPushes = some (pushed.pending : Int) ∧
          pushed.pending ≤ AdmissionPolicy.single.maxPendingPushes ∧
          ∀ c ∈ pushed.coroutines, ∀ slot, c.slot = some slot → ∀ answers : List Bool,
            answers.headD true = true →
              (releasePush.run answers pushed.records).2.healthy = true) := by
  have hreach : (pushMachine .single id).Reach (Handling .single) (.initial .single 0 2) pushed :=
    Machine.reach_getD (by decide +kernel) (along_handling _ _ (by decide))
  exact ⟨by decide +kernel, push_slots_conserved hreach⟩
end Drift.Server
