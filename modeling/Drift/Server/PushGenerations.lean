import Drift.Server.PushSlots

/-!
# Generations of a session

A session that is closed and opened again under its old identity, on the same handler or on another, is
a new generation with a new token. A push reads the token that is registered when it takes its slot, and
carries it along: through the event queue of another handler, and up to the queue of the session, which
it only enters if the handler still lists that token.

* `ReservedFor` — the route that a reservation read;
* `Routed`, `Coroutine.Addressed` — what is queued, in flight or handed over keeps to that route;
* `Exclusive` — whoever serves a session is registered, and is the only one;
* `session_generations_isolated` — what holds in every run.
-/

namespace Drift.Server

open Drift.Lib

variable {policy : AdmissionPolicy} {sha256 : String → String} {s s' : PushState}

/-! ### Routes of reservations -/

/-- The slot was reserved for the session while the route with the token was registered. -/
def PushState.ReservedFor (s : PushState) (slot : Nat) (sessionId : String) (owner : Int)
    (routeToken : String) : Prop :=
  s.reservations[slot]? = some (.inbound sessionId (some (some (owner, routeToken))))

/-- What a coroutine hands over keeps to the route of its slot. -/
def Coroutine.Addressed (s : PushState) : Coroutine → Prop
  | .handingOver _ sessionId owner routeToken slot => s.ReservedFor slot sessionId owner routeToken
  | .delivering handlerIndex event =>
    s.ReservedFor event.slot event.sessionId handlerIndex event.routeToken
  | _ => True

/-- What is queued keeps to the route of its slot, and a handler lists its own sessions. -/
structure Routed (s : PushState) : Prop where
  queued : ∀ (i : Nat) (session : ManagedSession), s.sessions[i]? = some session →
    ∀ slot, some slot ∈ session.localQueue →
      s.ReservedFor slot session.sessionId session.handlerIndex session.routeToken
  events : ∀ (i : Nat) (handler : PushHandler), s.handlers[i]? = some handler →
    ∀ event ∈ handler.events, s.ReservedFor event.slot event.sessionId i event.routeToken
  listed : ∀ (i : Nat) (handler : PushHandler), s.handlers[i]? = some handler →
    ∀ (sessionId routeToken : String) (n : Nat),
      handler.sessionQueues.lookup sessionId = some n →
      handler.sessionTokens.lookup sessionId = some routeToken →
      ∃ session, s.sessions[n]? = some session ∧ session.sessionId = sessionId ∧
        session.handlerIndex = i ∧ session.routeToken = routeToken

theorem PushState.ReservedFor.mono {slot : Nat} {sessionId routeToken : String} {owner : Int}
    (h : s.ReservedFor slot sessionId owner routeToken)
    (hreservations : s.reservations <+: s'.reservations) :
    s'.ReservedFor slot sessionId owner routeToken := by
  obtain ⟨more, hmore⟩ := hreservations
  unfold PushState.ReservedFor at h ⊢
  rw [← hmore]
  exact List.getElem?_append_left (List.getElem?_eq_some_iff.mp h).1 ▸ h

theorem Coroutine.Addressed.mono {c : Coroutine} (h : c.Addressed s)
    (hreservations : s.reservations <+: s'.reservations) : c.Addressed s' := by
  unfold Coroutine.Addressed at h ⊢
  split
  · exact PushState.ReservedFor.mono h hreservations
  · exact PushState.ReservedFor.mono h hreservations
  · trivial

/-- A step that leaves handlers and sessions alone. -/
theorem Routed.mono (hs : Routed s) (hhandlers : s'.handlers = s.handlers)
    (hsessions : s'.sessions = s.sessions) (hreservations : s.reservations <+: s'.reservations) :
    Routed s' where
  queued := by
    intro i session hi slot hslot
    rw [hsessions] at hi
    exact (hs.queued i session hi slot hslot).mono hreservations
  events := by
    intro i handler hi event hevent
    rw [hhandlers] at hi
    exact (hs.events i handler hi event hevent).mono hreservations
  listed := by
    intro i handler hi
    rw [hhandlers] at hi
    rw [hsessions]
    exact hs.listed i handler hi

/-- A session's queue is replaced by one that holds activations for its route only. -/
theorem Routed.setQueue {i : Nat} {session : ManagedSession} {queue : List (Option Nat)}
    (hs : Routed s) (hi : s.sessions[i]? = some session)
    (hqueue : ∀ slot, some slot ∈ queue →
      s.ReservedFor slot session.sessionId session.handlerIndex session.routeToken) :
    Routed (s.setQueue i session queue) where
  queued := by
    intro j m hj slot hslot
    unfold PushState.setQueue at hj
    rw [List.getElem?_set] at hj
    split at hj
    · split at hj
      · cases hj
        exact hqueue slot hslot
      · cases hj
    · exact hs.queued j m hj slot hslot
  events := hs.events
  listed := by
    intro j handler hj sessionId routeToken n hn htoken
    obtain ⟨m, hm, hsessionId, hhandler, hrouteToken⟩ :=
      hs.listed j handler hj sessionId routeToken n hn htoken
    by_cases hin : i = n
    · subst hin
      obtain rfl : session = m := Option.some.inj (hi.symm.trans hm)
      refine ⟨{ session with localQueue := queue }, ?_, hsessionId, hhandler, hrouteToken⟩
      show (s.sessions.set i _)[i]? = _
      rw [List.getElem?_set_self (List.getElem?_eq_some_iff.mp hi).1]
    · refine ⟨m, ?_, hsessionId, hhandler, hrouteToken⟩
      show (s.sessions.set i _)[n]? = _
      rw [List.getElem?_set_ne hin, hm]

/-- A handler is replaced by one that lists no more, with events for its own sessions. -/
theorem Routed.setHandler {i : Nat} {handler k : PushHandler} (hs : Routed s)
    (hi : s.handlers[i]? = some handler)
    (hevents : ∀ event ∈ k.events, s.ReservedFor event.slot event.sessionId i event.routeToken)
    (hlisted : ∀ (sessionId routeToken : String) (n : Nat),
      k.sessionQueues.lookup sessionId = some n → k.sessionTokens.lookup sessionId = some routeToken →
        handler.sessionQueues.lookup sessionId = some n ∧
          handler.sessionTokens.lookup sessionId = some routeToken) :
    Routed { s with handlers := s.handlers.set i k } where
  queued := hs.queued
  events := by
    intro j m hj event hevent
    have hj : (s.handlers.set i k)[j]? = some m := hj
    rw [List.getElem?_set] at hj
    split at hj
    · next hij =>
      split at hj
      · cases hj
        subst hij
        exact hevents event hevent
      · cases hj
    · exact hs.events j m hj event hevent
  listed := by
    intro j m hj sessionId routeToken n hn htoken
    have hj : (s.handlers.set i k)[j]? = some m := hj
    rw [List.getElem?_set] at hj
    split at hj
    · next hij =>
      split at hj
      · cases hj
        subst hij
        obtain ⟨hn', htoken'⟩ := hlisted sessionId routeToken n hn htoken
        exact hs.listed i handler hi sessionId routeToken n hn' htoken'
      · cases hj
    · exact hs.listed j m hj sessionId routeToken n hn htoken

/-- The queue that an activation for a route goes to is the queue of that generation. -/
theorem Routed.of_routedQueue (hs : Routed s) {i n : Nat} {sessionId routeToken : String}
    (h : s.handlers[i]?.bind (·.routedQueue sessionId routeToken) = some n) :
    ∃ session, s.sessions[n]? = some session ∧ session.sessionId = sessionId ∧
      session.handlerIndex = i ∧ session.routeToken = routeToken := by
  obtain ⟨handler, hi, hrouted⟩ := Option.bind_eq_some_iff.mp h
  unfold PushHandler.routedQueue at hrouted
  split at hrouted
  · next htoken => exact hs.listed i handler hi sessionId routeToken n hrouted htoken
  · cases hrouted

/-- An activation is put into the queue of its generation. -/
theorem Routed.putNowait (hs : Routed s) {i n slot : Nat} {sessionId routeToken : String}
    (hrouted : s.handlers[i]?.bind (·.routedQueue sessionId routeToken) = some n)
    (hslot : s.ReservedFor slot sessionId i routeToken)
    (h : s.putNowait policy n slot = some s') : Routed s' := by
  obtain ⟨session, hn, rfl, rfl, rfl⟩ := hs.of_routedQueue hrouted
  unfold PushState.putNowait at h
  rw [hn] at h
  simp only at h
  split at h
  · cases h
    refine hs.setQueue hn fun slot' hmem => ?_
    rcases List.mem_append.mp hmem with hold | hnew
    · exact hs.queued n session hn slot' hold
    · obtain rfl : slot' = slot := Option.some.inj (List.mem_singleton.mp hnew)
      exact hslot
  · cases h

/-! ### What a step does to routes -/

/-- After a step what is queued, and what the coroutine carries, keeps to its route. -/
structure Carries (s s' : PushState) (d : Coroutine) : Prop where
  routed : Routed s'
  addressed : d.Addressed s'
  reservations : s.reservations <+: s'.reservations

/-- A step that leaves handlers, sessions and reservations alone. -/
theorem Carries.quiet {d : Coroutine} (hs : Routed s) (hhandlers : s'.handlers = s.handlers)
    (hsessions : s'.sessions = s.sessions) (hreservations : s'.reservations = s.reservations)
    (hd : d.Addressed s') : Carries s s' d := by
  have hpre : s.reservations <+: s'.reservations := by rw [hreservations]
  exact ⟨hs.mono hhandlers hsessions hpre, hd, hpre⟩

/-- `rpc_push` hands an activation over to the generation of its route. -/
theorem handOver_carries {a : PushAnswer} {handlerIndex : Nat} {sessionId routeToken : String}
    {owner : Int} {slot : Nat} (hs : Routed s)
    (hslot : s.ReservedFor slot sessionId owner routeToken) :
    Carries s (s.handOver policy a handlerIndex sessionId owner routeToken slot).1
      (s.handOver policy a handlerIndex sessionId owner routeToken slot).2 := by
  have hkept : ∀ d : Coroutine, d.Addressed s → Carries s s d :=
    fun d hd => Carries.quiet hs rfl rfl rfl hd
  unfold PushState.handOver
  split
  · exact hkept _ trivial
  split
  · exact hkept _ trivial
  next howner =>
  split
  · next hself =>
    subst hself
    split
    · exact hkept _ trivial
    next n hrouted =>
    split
    · exact hkept _ trivial
    · next t ht =>
      refine ⟨hs.putNowait hrouted hslot ht, trivial, ?_⟩
      rw [(putNowait_eq ht).2.1]
  split
  · exact hkept _ trivial
  next handler hhandler =>
  split
  · refine ⟨hs.setHandler hhandler (fun event hevent => ?_) (fun _ _ _ hn ht => ⟨hn, ht⟩), trivial,
      List.prefix_refl _⟩
    rcases List.mem_append.mp hevent with hold | hnew
    · exact hs.events _ handler hhandler event hold
    · obtain rfl := List.mem_singleton.mp hnew
      show s.ReservedFor slot sessionId _ routeToken
      rw [Int.toNat_of_nonneg (not_not.mp howner).1]
      exact hslot
  · exact hkept _ trivial

/-- The listener delivers an event to the generation of its route. -/
theorem deliver_carries {handlerIndex : Nat} {event : PushEvent} (hs : Routed s)
    (hslot : s.ReservedFor event.slot event.sessionId handlerIndex event.routeToken) :
    Carries s (s.deliver policy handlerIndex event).1 (s.deliver policy handlerIndex event).2 := by
  unfold PushState.deliver
  split
  · exact Carries.quiet hs rfl rfl rfl trivial
  next n hrouted =>
  split
  · exact Carries.quiet hs rfl rfl rfl trivial
  · next t ht =>
    refine ⟨hs.putNowait hrouted hslot ht, trivial, ?_⟩
    rw [(putNowait_eq ht).2.1]

/-- An entry is taken out of a queue. -/
theorem setQueue_carries {i : Nat} {session : ManagedSession} {entry : Option Nat}
    {queue : List (Option Nat)} {d : Coroutine} (hs : Routed s) (hi : s.sessions[i]? = some session)
    (hqueue : session.localQueue = entry :: queue) (hd : d.Addressed (s.setQueue i session queue)) :
    Carries s (s.setQueue i session queue) d := by
  refine ⟨hs.setQueue hi fun slot hslot => ?_, hd, List.prefix_refl _⟩
  apply hs.queued i session hi slot
  rw [hqueue]
  exact List.mem_cons_of_mem entry hslot

/-- `rpc_push` reads the route in the section that takes the slot. -/
theorem reserving_carries {a : PushAnswer} {handlerIndex : Nat} {sessionId : Option String}
    {d : Coroutine} (hs : Routed s)
    (h : s.advance policy sha256 a (.reserving handlerIndex sessionId) = some (s', d)) :
    Carries s s' d := by
  simp only [PushState.advance] at h
  split at h
  · cases h
    exact Carries.quiet hs rfl rfl rfl trivial
  split at h
  case h_2 =>
    cases h
    exact Carries.quiet hs rfl rfl rfl trivial
  next id key hkey =>
  have hcases := reservePush_cases policy key a.lock s.records
  generalize (reservePush policy key).run a.lock s.records = result at h hcases
  rcases hcases with ⟨r, hrefused | hcorrupted⟩ | ⟨owner, routeToken, hroute, -, hreserved⟩
  · rw [hrefused] at h
    cases h
    exact Carries.quiet hs rfl rfl rfl trivial
  · rw [hcorrupted] at h
    cases h
    exact Carries.quiet hs rfl rfl rfl trivial
  · cases hreserved with
    | refused r =>
      cases h
      exact Carries.quiet hs rfl rfl rfl trivial
    | corrupted r =>
      cases h
      exact Carries.quiet hs rfl rfl rfl trivial
    | taken n _ _ _ _ =>
      cases h
      refine ⟨hs.mono rfl rfl (List.prefix_append _ _), ?_, List.prefix_append _ _⟩
      -- the route that was read is the one that the reservation records
      show (s.reservations ++ [_])[s.reservations.length]? = _
      rw [List.getElem?_concat_length, hroute]

/-- **What a step does to routes.** -/
theorem advance_carries {a : PushAnswer} {c d : Coroutine} (hs : Routed s) (hc : c.Addressed s)
    (h : s.advance policy sha256 a c = some (s', d)) : Carries s s' d := by
  cases c with
  | pushing handlerIndex sessionId =>
    simp only [PushState.advance] at h
    split at h <;> cases h
    · exact Carries.quiet hs rfl rfl rfl trivial
    · exact Carries.quiet hs rfl rfl rfl trivial
  | reserving handlerIndex sessionId => exact reserving_carries hs h
  | handingOver handlerIndex sessionId owner routeToken slot =>
    obtain ⟨rfl, rfl⟩ := Prod.mk.inj (Option.some.inj h)
    exact handOver_carries hs hc
  | marking slot =>
    cases h
    exact Carries.quiet hs rfl rfl rfl trivial
  | releasing slot =>
    cases h
    exact Carries.quiet hs rfl rfl rfl trivial
  | listening handlerIndex =>
    simp only [PushState.advance] at h
    split at h
    · cases h
    next handler hhandler =>
    split at h
    · cases h
    next event events hevents =>
    cases h
    have hqueued : ∀ e ∈ event :: events, s.ReservedFor e.slot e.sessionId handlerIndex e.routeToken :=
      hevents ▸ hs.events handlerIndex handler hhandler
    refine ⟨hs.setHandler hhandler (fun e he => ?_) (fun _ _ _ hn ht => ⟨hn, ht⟩), ?_,
      List.prefix_refl _⟩
    · exact hqueued e (List.mem_cons_of_mem event he)
    · exact hqueued event List.mem_cons_self
  | delivering handlerIndex event =>
    obtain ⟨rfl, rfl⟩ := Prod.mk.inj (Option.some.inj h)
    exact deliver_carries hs hc
  | dropping handlerIndex slot =>
    cases h
    exact Carries.quiet hs rfl rfl rfl trivial
  | getting i =>
    simp only [PushState.advance] at h
    split at h
    · cases h
      exact Carries.quiet hs rfl rfl rfl trivial
    split at h
    · cases h
    next session hi =>
    split at h
    · cases h
    · next queue hqueue =>
      cases h
      exact setQueue_carries hs hi hqueue trivial
    · next slot queue hqueue =>
      cases h
      exact setQueue_carries hs hi hqueue trivial
  | reservingOutbound =>
    simp only [PushState.advance] at h
    split at h <;> cases h
    · exact ⟨hs.mono rfl rfl (List.prefix_append _ _), trivial, List.prefix_append _ _⟩
    · exact Carries.quiet hs rfl rfl rfl trivial
  | creating slot =>
    obtain ⟨rfl, rfl⟩ := Prod.mk.inj (Option.some.inj h)
    apply Carries.quiet hs rfl rfl rfl
    split <;> trivial
  | outbound slot =>
    cases h
    exact Carries.quiet hs rfl rfl rfl trivial
  | registering i =>
    simp only [PushState.advance] at h
    split at h
    · cases h
    split at h <;> cases h
    · exact Carries.quiet hs rfl rfl rfl trivial
    · exact Carries.quiet hs rfl rfl rfl trivial
  | serving i =>
    simp only [PushState.advance] at h
    split at h
    · cases h
    · cases h
      exact Carries.quiet hs rfl rfl rfl trivial
  | unlisting i =>
    simp only [PushState.advance] at h
    split at h
    · cases h
    next session hi =>
    split at h
    · cases h
    next handler hhandler =>
    cases h
    refine ⟨hs.setHandler hhandler (hs.events _ handler hhandler) (fun id token n hn ht => ?_),
      trivial, List.prefix_refl _⟩
    -- what is still listed is another session
    unfold PushHandler.forget at hn ht
    by_cases hid : id = session.sessionId
    · subst hid
      rw [AList.lookup_erase] at hn
      cases hn
    · rw [AList.lookup_erase_ne hid] at hn ht
      exact ⟨hn, ht⟩
  | draining i =>
    simp only [PushState.advance] at h
    split at h
    · cases h
    next session hi =>
    split at h
    · cases h
      refine ⟨hs.setQueue hi fun slot hslot => ?_, trivial, List.prefix_refl _⟩
      cases List.mem_singleton.mp hslot
    · next queue hqueue =>
      cases h
      exact setQueue_carries hs hi hqueue trivial
    · next slot queue hqueue =>
      cases h
      exact setQueue_carries hs hi hqueue trivial
  | drained i slot =>
    cases h
    exact Carries.quiet hs rfl rfl rfl trivial
  | ended => cases h

/-! ### All coroutines -/

/-- **Activations keep to their routes.** -/
structure Isolated (s : PushState) : Prop where
  routed : Routed s
  addressed : ∀ c ∈ s.coroutines, c.Addressed s

/-- A coroutine that starts with nothing to hand over. -/
theorem start_isolated {c : Coroutine} (hc : c.Addressed s) (hs : Isolated s) :
    Isolated (s.start c) where
  routed := hs.routed.mono rfl rfl (List.prefix_refl _)
  addressed := by
    intro d hd
    rcases List.mem_append.mp hd with hold | hnew
    · exact (hs.addressed d hold).mono (List.prefix_refl _)
    · obtain rfl := List.mem_singleton.mp hnew
      exact hc.mono (List.prefix_refl _)

/-- A session opens: the handler lists it under its own number. -/
theorem openSession_isolated {handlerIndex : Nat} {handler : PushHandler}
    {sessionId sessionKey routeToken : String} (hi : s.handlers[handlerIndex]? = some handler)
    (hs : Isolated s) :
    Isolated (s.openSession handlerIndex handler sessionId sessionKey routeToken) where
  routed := by
    refine ⟨fun i m hm slot hslot => ?_, fun i k hk event hevent => ?_,
      fun i k hk id token n hn htoken => ?_⟩
    · -- the new session has an empty queue
      have hm : (s.sessions ++ [_])[i]? = some m := hm
      rcases lt_or_ge i s.sessions.length with hlt | hge
      · rw [List.getElem?_append_left hlt] at hm
        exact hs.routed.queued i m hm slot hslot
      · rw [List.getElem?_append_right hge, List.getElem?_singleton] at hm
        split at hm
        · cases hm
          cases hslot
        · cases hm
    · have hk : (s.handlers.set handlerIndex _)[i]? = some k := hk
      rw [List.getElem?_set] at hk
      split at hk
      · next hij =>
        split at hk
        · cases hk
          subst hij
          exact hs.routed.events _ handler hi event hevent
        · cases hk
      · exact hs.routed.events i k hk event hevent
    · -- what was listed is listed still, and the new session is the last one
      have hold : ∀ k', s.handlers[i]? = some k' → k'.sessionQueues.lookup id = some n →
          k'.sessionTokens.lookup id = some token →
          ∃ m, (s.openSession handlerIndex handler sessionId sessionKey routeToken).sessions[n]? =
            some m ∧ m.sessionId = id ∧ m.handlerIndex = i ∧ m.routeToken = token := by
        intro k' hk' hn' htoken'
        obtain ⟨m, hm, hrest⟩ := hs.routed.listed i k' hk' id token n hn' htoken'
        refine ⟨m, ?_, hrest⟩
        show (s.sessions ++ [_])[n]? = some m
        rw [List.getElem?_append_left (List.getElem?_eq_some_iff.mp hm).1, hm]
      have hk : (s.handlers.set handlerIndex _)[i]? = some k := hk
      rw [List.getElem?_set] at hk
      split at hk
      · next hij =>
        split at hk
        · cases hk
          subst hij
          by_cases hid : id = sessionId
          · subst hid
            rw [AList.lookup_insert] at hn htoken
            cases hn
            cases htoken
            refine ⟨_, List.getElem?_concat_length, rfl, rfl, rfl⟩
          · rw [AList.lookup_insert_ne hid] at hn htoken
            exact hold handler hi hn htoken
        · cases hk
      · exact hold k hk hn htoken
  addressed := by
    intro d hd
    rcases List.mem_append.mp hd with hold | hnew
    · exact (hs.addressed d hold).mono (List.prefix_refl _)
    · obtain rfl := List.mem_singleton.mp hnew
      trivial

theorem initial_isolated (now : ℚ) (handlers : Nat) :
    Isolated (.initial policy now handlers) where
  routed := by
    refine ⟨fun i m hm => ?_, fun i k hk event hevent => ?_, fun i k hk id token n hn => ?_⟩
    · cases hm
    · obtain rfl := List.eq_of_mem_replicate (List.mem_of_getElem? hk)
      cases hevent
    · obtain rfl := List.eq_of_mem_replicate (List.mem_of_getElem? hk)
      cases hn
  addressed := by
    intro c hc
    obtain ⟨i, -, rfl⟩ := List.mem_map.mp hc
    trivial

theorem Isolated.step {l : PushAction} (hs : Isolated s)
    (h : (pushMachine policy sha256).next s l = some s') : Isolated s' := by
  cases l with
  | push handlerIndex sessionId =>
    cases h
    exact start_isolated trivial hs
  | output =>
    cases h
    exact start_isolated trivial hs
  | openSession handlerIndex sessionId routeToken =>
    simp only [pushMachine, PushState.next] at h
    split at h
    · next handler id key hhandler _ =>
      split at h
      · cases h
        exact hs
      · cases h
        exact openSession_isolated hhandler hs
    · cases h
      exact hs
  | get handlerIndex sessionId =>
    simp only [pushMachine, PushState.next] at h
    split at h
    · cases h
      exact hs
    · cases h
      exact start_isolated trivial hs
  | operation p lock =>
    cases h
    exact ⟨hs.routed.mono rfl rfl (List.prefix_refl _),
      fun c hc => (hs.addressed c hc).mono (List.prefix_refl _)⟩
  | advance i a =>
    simp only [pushMachine, PushState.next] at h
    split at h
    · cases h
    next c hi =>
    obtain ⟨⟨t, d⟩, hadvance, rfl⟩ := Option.map_eq_some_iff.mp h
    have hcarries := advance_carries hs.routed (hs.addressed c (List.mem_of_getElem? hi)) hadvance
    refine ⟨hcarries.routed.mono rfl rfl (List.prefix_refl _), ?_⟩
    apply forall_mem_set
    · exact hcarries.addressed.mono (List.prefix_refl _)
    · intro e he
      exact (hs.addressed e he).mono hcarries.reservations

theorem Isolated.of_reach {ok : PushState → PushAction → Prop} {now : ℚ} {handlers : Nat}
    (h : (pushMachine policy sha256).Reach ok (.initial policy now handlers) s) : Isolated s :=
  h.invariant (initial_isolated now handlers) fun _ _ _ hs _ hnext => hs.step hnext

/-! ### Registered sessions -/

/-- A session without its queue: what tells generations apart. -/
def ManagedSession.generation (session : ManagedSession) : ManagedSession :=
  { session with localQueue := [] }

def PushState.generations (s : PushState) : List ManagedSession :=
  s.sessions.map ManagedSession.generation

/-- The coroutine serves a session with the key. -/
def serves (generations : List ManagedSession) (key : String) : Coroutine → Bool
  | .serving i => generations[i]?.any fun session => session.sessionKey = key
  | _ => false

/-- The route of a generation is the one registered under its key. -/
def Registered (r : Records) (session : ManagedSession) : Prop :=
  r.sessions.lookup session.sessionKey = some (some ((session.handlerIndex : Int), session.routeToken))

/-- **Whoever serves a session is registered, and is the only one.** -/
structure Exclusive (sha256 : String → String) (s : PushState) : Prop where
  keyed : ∀ session ∈ s.generations,
    sessionKey sha256 (some session.sessionId) = some session.sessionKey
  registered : ∀ i, .serving i ∈ s.coroutines →
    ∃ session, s.generations[i]? = some session ∧ Registered s.records session
  one : ∀ key, s.coroutines.countP (serves s.generations key) ≤ 1

theorem setQueue_generations {i : Nat} {session : ManagedSession} (hi : s.sessions[i]? = some session)
    (queue : List (Option Nat)) : (s.setQueue i session queue).generations = s.generations := by
  obtain ⟨hlt, rfl⟩ := List.getElem?_eq_some_iff.mp hi
  unfold PushState.setQueue PushState.generations
  rw [List.map_set]
  have hlt' : i < (s.sessions.map ManagedSession.generation).length := by
    rwa [List.length_map]
  have hself : ({ s.sessions[i] with localQueue := queue } : ManagedSession).generation =
      (s.sessions.map ManagedSession.generation)[i] := by
    rw [List.getElem_map]
    rfl
  rw [hself, List.set_getElem_self]

theorem putNowait_generations {i slot : Nat} (h : s.putNowait policy i slot = some s') :
    s'.generations = s.generations := by
  unfold PushState.putNowait at h
  split at h
  · cases h
  next session hi =>
  split at h
  · cases h
    exact setQueue_generations hi _
  · cases h

/-- The coroutine serves a session. -/
def Coroutine.isServing : Coroutine → Bool
  | .serving _ => true
  | _ => false

/-- What a step of a coroutine from `c` to `d` does to the registered routes. -/
inductive RouteStep (s : PushState) (c : Coroutine) (s' : PushState) (d : Coroutine) : Prop
  | quiet (hroutes : s'.records.sessions = s.records.sessions) (hd : d.isServing = false)
  | registers (i : Nat) (session : ManagedSession) (hi : s.generations[i]? = some session)
      (hc : c.isServing = false) (hd : d = .serving i)
      (hfree : s.records.sessions.lookup session.sessionKey = none)
      (hroutes : s'.records.sessions = s.records.sessions.insert session.sessionKey
        (some ((session.handlerIndex : Int), session.routeToken)))
  | unregisters (i : Nat) (session : ManagedSession) (hi : s.generations[i]? = some session)
      (hc : c = .serving i) (hd : d.isServing = false)
      (hroutes : s'.records.sessions = s.records.sessions.erase session.sessionKey)

theorem Elsewhere.sessions_run {p : Operation} (h : Elsewhere policy p) (answers : List Bool)
    (r : Records) : (p.run answers r).2.sessions = r.sessions :=
  congrArg Prod.snd (h.keeps.run answers r)

/-- A reservation leaves the routes alone. -/
theorem Reserved.sessions {granted : Answer} {r : Records} {result : Outcome × Records}
    (h : Reserved policy r granted result) : result.2.sessions = r.sessions := by
  cases h with
  | refused _ => rfl
  | corrupted _ => rfl
  | taken n _ _ _ _ => rfl

variable (policy) in
theorem reservePush_sessions (key : String) (answers : List Bool) (r : Records) :
    ((reservePush policy key).run answers r).2.sessions = r.sessions := by
  rcases reservePush_cases policy key answers r with
    ⟨e, hrefused | hcorrupted⟩ | ⟨owner, routeToken, -, -, hreserved⟩
  · rw [hrefused]
  · rw [hcorrupted]
    rfl
  · exact hreserved.sessions

theorem handOver_routes {a : PushAnswer} {c : Coroutine} {handlerIndex : Nat}
    {sessionId routeToken : String} {owner : Int} {slot : Nat} :
    (s.handOver policy a handlerIndex sessionId owner routeToken slot).1.generations = s.generations ∧
      RouteStep s c (s.handOver policy a handlerIndex sessionId owner routeToken slot).1
        (s.handOver policy a handlerIndex sessionId owner routeToken slot).2 := by
  unfold PushState.handOver
  split
  · exact ⟨rfl, .quiet rfl rfl⟩
  split
  · exact ⟨rfl, .quiet rfl rfl⟩
  split
  · split
    · exact ⟨rfl, .quiet rfl rfl⟩
    split
    · exact ⟨rfl, .quiet rfl rfl⟩
    · next t ht =>
      refine ⟨putNowait_generations ht, .quiet ?_ rfl⟩
      rw [(putNowait_eq ht).1]
  split
  · exact ⟨rfl, .quiet rfl rfl⟩
  split
  · exact ⟨rfl, .quiet rfl rfl⟩
  · exact ⟨rfl, .quiet rfl rfl⟩

theorem deliver_routes {c : Coroutine} {handlerIndex : Nat} {event : PushEvent} :
    (s.deliver policy handlerIndex event).1.generations = s.generations ∧
      RouteStep s c (s.deliver policy handlerIndex event).1 (s.deliver policy handlerIndex event).2 := by
  unfold PushState.deliver
  split
  · exact ⟨rfl, .quiet rfl rfl⟩
  split
  · exact ⟨rfl, .quiet rfl rfl⟩
  · next t ht =>
    refine ⟨putNowait_generations ht, .quiet ?_ rfl⟩
    rw [(putNowait_eq ht).1]

/-- **What a step does to the registered routes.** -/
theorem advance_routes {a : PushAnswer} {c d : Coroutine}
    (h : s.advance policy sha256 a c = some (s', d)) :
    s'.generations = s.generations ∧ RouteStep s c s' d := by
  cases c with
  | pushing handlerIndex sessionId =>
    have hkept := (show Elsewhere policy _ from .requireHealthy).sessions_run a.lock s.records
    simp only [PushState.advance] at h
    generalize requireHealthy.run a.lock s.records = result at h hkept
    split at h <;> cases h
    · exact ⟨rfl, .quiet hkept rfl⟩
    · exact ⟨rfl, .quiet hkept rfl⟩
  | reserving handlerIndex sessionId =>
    simp only [PushState.advance] at h
    split at h
    · cases h
      exact ⟨rfl, .quiet rfl rfl⟩
    split at h
    case h_2 =>
      cases h
      exact ⟨rfl, .quiet rfl rfl⟩
    next id key hkey =>
    have hkept := reservePush_sessions policy key a.lock s.records
    generalize (reservePush policy key).run a.lock s.records = result at h hkept
    split at h <;> cases h
    · exact ⟨rfl, .quiet hkept rfl⟩
    · exact ⟨rfl, .quiet hkept rfl⟩
  | handingOver handlerIndex sessionId owner routeToken slot =>
    obtain ⟨rfl, rfl⟩ := Prod.mk.inj (Option.some.inj h)
    exact handOver_routes
  | marking slot =>
    cases h
    have hmark : Elsewhere policy _ := .markUnhealthy
    exact ⟨rfl, .quiet (hmark.sessions_run a.lock s.records) rfl⟩
  | releasing slot =>
    cases h
    exact ⟨rfl, .quiet (releasePush_cases a.lock s.records).1 rfl⟩
  | listening handlerIndex =>
    simp only [PushState.advance] at h
    split at h
    · cases h
    split at h
    · cases h
    · cases h
      exact ⟨rfl, .quiet rfl rfl⟩
  | delivering handlerIndex event =>
    obtain ⟨rfl, rfl⟩ := Prod.mk.inj (Option.some.inj h)
    exact deliver_routes
  | dropping handlerIndex slot =>
    cases h
    exact ⟨rfl, .quiet (releasePush_cases a.lock s.records).1 rfl⟩
  | getting i =>
    simp only [PushState.advance] at h
    split at h
    · cases h
      exact ⟨rfl, .quiet rfl rfl⟩
    split at h
    · cases h
    next session hi =>
    split at h
    · cases h
    · cases h
      exact ⟨setQueue_generations hi _, .quiet rfl rfl⟩
    · cases h
      exact ⟨setQueue_generations hi _, .quiet rfl rfl⟩
  | reservingOutbound =>
    have hkept := (reserveOutboundPush_cases policy a.lock s.records).sessions
    simp only [PushState.advance] at h
    generalize (reserveOutboundPush policy).run a.lock s.records = result at h hkept
    split at h <;> cases h
    · exact ⟨rfl, .quiet hkept rfl⟩
    · exact ⟨rfl, .quiet hkept rfl⟩
  | creating slot =>
    obtain ⟨rfl, rfl⟩ := Prod.mk.inj (Option.some.inj h)
    refine ⟨rfl, .quiet rfl ?_⟩
    split <;> rfl
  | outbound slot =>
    cases h
    exact ⟨rfl, .quiet rfl rfl⟩
  | registering i =>
    simp only [PushState.advance] at h
    split at h
    · cases h
    next session hi =>
    have hcases := registerSession_cases policy session.sessionKey session.handlerIndex
      session.routeToken a.lock s.records
    rcases hcases with ⟨r, hrefused⟩ | ⟨-, hfree, hregistered⟩
    · rw [hrefused] at h
      cases h
      exact ⟨rfl, .quiet rfl rfl⟩
    · rw [hregistered] at h
      cases h
      refine ⟨rfl, .registers i session.generation ?_ rfl rfl hfree rfl⟩
      unfold PushState.generations
      rw [List.getElem?_map, hi]
      rfl
  | serving i =>
    simp only [PushState.advance] at h
    split at h
    · cases h
    next session hi =>
    cases h
    refine ⟨rfl, ?_⟩
    rcases unregisterSession_cases session.sessionKey session.handlerIndex session.routeToken a.lock
      s.records with ⟨-, hkept⟩ | ⟨-, hremoved⟩
    · exact .quiet hkept rfl
    · refine .unregisters i session.generation ?_ rfl rfl ?_
      · unfold PushState.generations
        rw [List.getElem?_map, hi]
        rfl
      · show ((unregisterSession _ _ _).run a.lock s.records).2.sessions = _
        rw [hremoved]
        rfl
  | unlisting i =>
    simp only [PushState.advance] at h
    split at h
    · cases h
    split at h
    · cases h
    · cases h
      exact ⟨rfl, .quiet rfl rfl⟩
  | draining i =>
    simp only [PushState.advance] at h
    split at h
    · cases h
    next session hi =>
    split at h
    · cases h
      exact ⟨setQueue_generations hi _, .quiet rfl rfl⟩
    · cases h
      exact ⟨setQueue_generations hi _, .quiet rfl rfl⟩
    · cases h
      exact ⟨setQueue_generations hi _, .quiet rfl rfl⟩
  | drained i slot =>
    cases h
    exact ⟨rfl, .quiet (releasePush_cases a.lock s.records).1 rfl⟩
  | ended => cases h

/-! ### One live generation -/

theorem serves_serving (generations : List ManagedSession) (key : String) (i : Nat) :
    serves generations key (.serving i) =
      generations[i]?.any fun session => decide (session.sessionKey = key) :=
  rfl

theorem serves_isServing {generations : List ManagedSession} {key : String} {c : Coroutine}
    (h : serves generations key c = true) :
    ∃ i session, c = .serving i ∧ generations[i]? = some session ∧ session.sessionKey = key := by
  cases c with
  | serving i =>
    rw [serves_serving] at h
    cases hi : generations[i]? with
    | none =>
      rw [hi] at h
      cases h
    | some session =>
      rw [hi] at h
      exact ⟨i, session, rfl, hi, of_decide_eq_true h⟩
  | _ => cases h

theorem serves_of_key {generations : List ManagedSession} {i : Nat} {session : ManagedSession}
    (hi : generations[i]? = some session) :
    serves generations session.sessionKey (.serving i) = true := by
  rw [serves_serving, hi]
  exact decide_eq_true rfl

theorem serves_of_not_serving {generations : List ManagedSession} {key : String} {c : Coroutine}
    (h : c.isServing = false) : serves generations key c = false := by
  cases c with
  | serving i => cases h
  | _ => rfl

/-- Nobody serves a session whose key is free. -/
theorem Exclusive.none_serves (hs : Exclusive sha256 s) {key : String}
    (hfree : s.records.sessions.lookup key = none) :
    s.coroutines.countP (serves s.generations key) = 0 := by
  rw [List.countP_eq_zero]
  intro c hc hserves
  obtain ⟨i, session, rfl, hi, rfl⟩ := serves_isServing hserves
  obtain ⟨session', hi', hregistered⟩ := hs.registered i hc
  obtain rfl : session = session' := Option.some.inj (hi.symm.trans hi')
  cases hfree.symm.trans hregistered

/-- A step of a coroutine keeps live generations exclusive. -/
theorem RouteStep.exclusive {i : Nat} {c d : Coroutine} {t u : PushState} (h : RouteStep s c t d)
    (hgenerations : t.generations = s.generations) (hi : s.coroutines[i]? = some c)
    (hs : Exclusive sha256 s) (hu : u = { t with coroutines := s.coroutines.set i d }) :
    Exclusive sha256 u := by
  have hugenerations : u.generations = s.generations := by
    rw [hu]
    exact hgenerations
  have huroutes : u.records.sessions = t.records.sessions := by rw [hu]
  have hucoroutines : u.coroutines = s.coroutines.set i d := by rw [hu]
  have hset := fun key => countP_set_add (b := d) (serves s.generations key) hi
  refine ⟨fun session hsession => hs.keyed session (hugenerations ▸ hsession), ?_, ?_⟩
  · intro j hj
    rw [hugenerations]
    rw [hucoroutines] at hj
    unfold Registered
    rw [huroutes]
    rcases mem_set_cases hj with hnew | ⟨k, hk, hold⟩
    · -- the coroutine that has moved serves only if it has just been registered
      cases h with
      | quiet _ hd =>
        rw [← hnew] at hd
        cases hd
      | unregisters _ _ _ _ hd _ =>
        rw [← hnew] at hd
        cases hd
      | registers n session hn _ hd _ hroutes =>
        rw [hd] at hnew
        cases hnew
        refine ⟨session, hn, ?_⟩
        rw [hroutes, AList.lookup_insert]
    · obtain ⟨session, hsession, hregistered⟩ := hs.registered j (List.mem_of_getElem? hold)
      refine ⟨session, hsession, ?_⟩
      cases h with
      | quiet hroutes _ =>
        rw [hroutes]
        exact hregistered
      | registers n new hn _ _ hfree hroutes =>
        rw [hroutes, AList.lookup_insert_ne]
        · exact hregistered
        · intro hkey
          rw [← hkey] at hfree
          cases hfree.symm.trans hregistered
      | unregisters n gone hn hc _ hroutes =>
        rw [hroutes, AList.lookup_erase_ne]
        · exact hregistered
        · -- two coroutines would serve sessions of one key
          intro hkey
          have hgone := serves_of_key hn
          rw [← hkey, ← hc] at hgone
          have htwo := two_le_countP hk hold hi (serves_of_key hsession) hgone
          have hone := hs.one session.sessionKey
          omega
  · intro key
    rw [hugenerations, hucoroutines]
    have hkey := hset key
    have hone := hs.one key
    cases h with
    | quiet _ hd =>
      rw [serves_of_not_serving hd, if_neg Bool.false_ne_true] at hkey
      omega
    | unregisters _ _ _ _ hd _ =>
      rw [serves_of_not_serving hd, if_neg Bool.false_ne_true] at hkey
      omega
    | registers n session hn _ hd hfree _ =>
      by_cases hsame : session.sessionKey = key
      · subst hsame
        have hnone := hs.none_serves hfree
        split at hkey <;> split at hkey <;> omega
      · have hother : serves s.generations key d = false := by
          rw [hd, serves_serving, hn]
          exact decide_eq_false hsame
        rw [hother, if_neg Bool.false_ne_true] at hkey
        omega

/-- A step that adds a coroutine that serves nobody, and perhaps a session. -/
theorem Exclusive.grow {c : Coroutine} (more : List ManagedSession) (hs : Exclusive sha256 s)
    (hc : c.isServing = false) (hgenerations : s'.generations = s.generations ++ more)
    (hmore : ∀ session ∈ more, sessionKey sha256 (some session.sessionId) = some session.sessionKey)
    (hrecords : s'.records = s.records) (hcoroutines : s'.coroutines = s.coroutines ++ [c]) :
    Exclusive sha256 s' where
  keyed := by
    intro session hsession
    rw [hgenerations] at hsession
    rcases List.mem_append.mp hsession with hold | hnew
    · exact hs.keyed session hold
    · exact hmore session hnew
  registered := by
    intro i hi
    rw [hcoroutines] at hi
    rcases List.mem_append.mp hi with hold | hnew
    · obtain ⟨session, hsession, hregistered⟩ := hs.registered i hold
      refine ⟨session, ?_, hrecords ▸ hregistered⟩
      rw [hgenerations, List.getElem?_append_left (List.getElem?_eq_some_iff.mp hsession).1]
      exact hsession
    · rw [← List.mem_singleton.mp hnew] at hc
      cases hc
  one := by
    intro key
    rw [hcoroutines, List.countP_append, List.countP_singleton, serves_of_not_serving hc,
      if_neg Bool.false_ne_true]
    refine le_trans (Nat.le_of_eq (List.countP_congr fun e he => ?_)) (hs.one key)
    -- whoever serves, serves a session that was there
    cases e with
    | serving i =>
      obtain ⟨session, hsession, -⟩ := hs.registered i he
      rw [serves_serving, serves_serving, hgenerations,
        List.getElem?_append_left (List.getElem?_eq_some_iff.mp hsession).1]
    | _ => exact Iff.rfl

theorem initial_exclusive (now : ℚ) (handlers : Nat) :
    Exclusive sha256 (.initial policy now handlers) where
  keyed := by
    intro session hsession
    cases hsession
  registered := by
    intro i hi
    obtain ⟨j, -, hj⟩ := List.mem_map.mp hi
    cases hj
  one := by
    intro key
    have hnone : ((List.range handlers).map Coroutine.listening).countP
        (serves (PushState.initial policy now handlers).generations key) = 0 := by
      rw [List.countP_map, List.countP_eq_zero]
      intro i _ h
      cases h
    exact le_trans (Nat.le_of_eq hnone) (Nat.zero_le 1)

theorem Exclusive.step {l : PushAction} (hs : Exclusive sha256 s) (hl : Handling policy s l)
    (h : (pushMachine policy sha256).next s l = some s') : Exclusive sha256 s' := by
  have hstart : ∀ c : Coroutine, c.isServing = false → Exclusive sha256 (s.start c) := by
    intro c hc
    refine hs.grow [] hc ?_ ?_ rfl rfl
    · exact (List.append_nil _).symm
    · intro session hsession
      cases hsession
  cases l with
  | push handlerIndex sessionId =>
    cases h
    exact hstart _ rfl
  | output =>
    cases h
    exact hstart _ rfl
  | openSession handlerIndex sessionId routeToken =>
    simp only [pushMachine, PushState.next] at h
    split at h
    · next handler id key hhandler hkey =>
      split at h
      · cases h
        exact hs
      · cases h
        refine hs.grow (c := .registering s.sessions.length)
          [⟨handlerIndex, id, key, routeToken, []⟩] rfl ?_ ?_ rfl rfl
        · unfold PushState.generations PushState.openSession
          rw [List.map_append]
          rfl
        · intro session hsession
          obtain rfl := List.mem_singleton.mp hsession
          exact hkey
    · cases h
      exact hs
  | get handlerIndex sessionId =>
    simp only [pushMachine, PushState.next] at h
    split at h
    · cases h
      exact hs
    · cases h
      exact hstart _ rfl
  | operation p lock =>
    cases h
    refine ⟨hs.keyed, fun i hi => ?_, hs.one⟩
    obtain ⟨session, hsession, hregistered⟩ := hs.registered i hi
    refine ⟨session, hsession, ?_⟩
    show (p.run lock s.records).2.sessions.lookup _ = _
    rw [Elsewhere.sessions_run hl]
    exact hregistered
  | advance i a =>
    simp only [pushMachine, PushState.next] at h
    split at h
    · cases h
    next c hi =>
    obtain ⟨⟨t, d⟩, hadvance, rfl⟩ := Option.map_eq_some_iff.mp h
    obtain ⟨hgenerations, hroutes⟩ := advance_routes hadvance
    exact hroutes.exclusive hgenerations hi hs rfl

theorem Exclusive.of_reach {now : ℚ} {handlers : Nat}
    (h : (pushMachine policy sha256).Reach (Handling policy) (.initial policy now handlers) s) :
    Exclusive sha256 s :=
  h.invariant (initial_exclusive now handlers) fun _ _ _ hs hl hnext => hs.step hl hnext

/-- A generation is live: its session is served. -/
def PushState.Live (s : PushState) (i : Nat) (session : ManagedSession) : Prop :=
  s.sessions[i]? = some session ∧ .serving i ∈ s.coroutines

theorem generation_of_session {i : Nat} {session : ManagedSession}
    (hi : s.sessions[i]? = some session) : s.generations[i]? = some session.generation := by
  unfold PushState.generations
  rw [List.getElem?_map, hi]
  rfl

/-- Two live generations of one session are one. -/
theorem Exclusive.live_unique (hs : Exclusive sha256 s) {i j : Nat} {m n : ManagedSession}
    (hi : s.Live i m) (hj : s.Live j n) (hsame : m.sessionId = n.sessionId) : i = j := by
  obtain ⟨him, hicoroutine⟩ := hi
  obtain ⟨hjn, hjcoroutine⟩ := hj
  have hmgen := generation_of_session him
  have hngen := generation_of_session hjn
  have hkey : m.sessionKey = n.sessionKey := by
    have hm := hs.keyed _ (List.mem_of_getElem? hmgen)
    have hn := hs.keyed _ (List.mem_of_getElem? hngen)
    have hm : sessionKey sha256 (some m.sessionId) = some m.sessionKey := hm
    have hn : sessionKey sha256 (some n.sessionId) = some n.sessionKey := hn
    rw [hsame] at hm
    exact Option.some.inj (hm.symm.trans hn)
  by_contra hne
  obtain ⟨k, hk⟩ := List.mem_iff_getElem?.mp hicoroutine
  obtain ⟨l, hl⟩ := List.mem_iff_getElem?.mp hjcoroutine
  have hkl : k ≠ l := by
    rintro rfl
    exact hne (Coroutine.serving.inj (Option.some.inj (hk.symm.trans hl)))
  have hserves := serves_of_key hngen
  have hkey : m.generation.sessionKey = n.generation.sessionKey := hkey
  rw [← hkey] at hserves
  have htwo := two_le_countP hkl hk hl (serves_of_key hmgen) hserves
  have hone := hs.one m.generation.sessionKey
  omega

/-- **Generations of a session are isolated.** In every reachable state what the queue of a generation
holds was reserved while the route of that generation was registered, so that with tokens that differ
it was reserved for no other; and of the generations of a session, on whatever handlers, at most one is
live, whose route is the registered one. -/
theorem session_generations_isolated {now : ℚ} {handlers : Nat}
    (h : (pushMachine policy sha256).Reach (Handling policy) (.initial policy now handlers) s) :
    (∀ (i : Nat) (session : ManagedSession), s.sessions[i]? = some session →
      ∀ slot, some slot ∈ session.localQueue →
        s.ReservedFor slot session.sessionId session.handlerIndex session.routeToken) ∧
    ((s.sessions.map ManagedSession.routeToken).Nodup →
      ∀ (i j : Nat) (m n : ManagedSession) (slot : Nat), s.sessions[i]? = some m →
        s.sessions[j]? = some n → s.ReservedFor slot m.sessionId m.handlerIndex m.routeToken →
          some slot ∈ n.localQueue → i = j) ∧
    (∀ (i j : Nat) (m n : ManagedSession), s.Live i m → s.Live j n → m.sessionId = n.sessionId →
      i = j) ∧
    ∀ (i : Nat) (session : ManagedSession), s.Live i session → Registered s.records session := by
  have hisolated := Isolated.of_reach h
  have hexclusive := Exclusive.of_reach h
  refine ⟨hisolated.routed.queued, ?_, fun i j m n hi hj hsame => hexclusive.live_unique hi hj hsame,
    ?_⟩
  · intro htokens i j m n slot hi hj hreserved hslot
    have hqueued := hisolated.routed.queued j n hj slot hslot
    obtain ⟨-, htoken⟩ : m.sessionId = n.sessionId ∧
        (m.handlerIndex : Int) = n.handlerIndex ∧ m.routeToken = n.routeToken := by
      have hsame := Option.some.inj (hreserved.symm.trans hqueued)
      simp only [Reservation.inbound.injEq, Option.some.injEq, Prod.mk.injEq] at hsame
      exact hsame
    have hitoken : (s.sessions.map ManagedSession.routeToken)[i]? = some m.routeToken := by
      rw [List.getElem?_map, hi]
      rfl
    have hjtoken : (s.sessions.map ManagedSession.routeToken)[j]? = some n.routeToken := by
      rw [List.getElem?_map, hj]
      rfl
    rw [htoken.2, ← hjtoken] at hitoken
    exact (List.getElem?_inj (by
      rw [List.length_map]
      exact (List.getElem?_eq_some_iff.mp hi).1) htokens).mp hitoken
  · intro i session hlive
    obtain ⟨generation, hi, hregistered⟩ := hexclusive.registered i hlive.2
    obtain rfl : session.generation = generation :=
      Option.some.inj ((generation_of_session hlive.1).symm.trans hi)
    exact hregistered

/-- A session on the first of two handlers gets a push through the second, and is closed and opened
again on the second while the event is in flight. The event is dropped, and the next push is delivered. -/
def reopenedActions : List PushAction :=
  [.openSession 0 (some "s") "0123456789abcdef0123456789abcdef", .advance 2 ⟨[], false⟩,
      .push 1 (some "s")] ++
    List.replicate 3 (.advance 3 ⟨[], false⟩) ++ List.replicate 3 (.advance 2 ⟨[], false⟩) ++
    [.openSession 1 (some "s") "00000000000000000000000000000000", .advance 4 ⟨[], false⟩] ++
    List.replicate 3 (.advance 0 ⟨[], false⟩) ++ [.push 1 (some "s")] ++
    List.replicate 3 (.advance 5 ⟨[], false⟩)

def reopened : PushState :=
  ((pushMachine .single id).run (.initial .single 0 2) reopenedActions).getD (.initial .single 0 2)

/-- The second generation, with the second activation in its queue. -/
def reopenedSession : ManagedSession :=
  ⟨1, "s", "session:s", "00000000000000000000000000000000", [some 1]⟩

theorem session_generations_isolated_reopened :
    (reopened.sessions.map ManagedSession.localQueue = [[none], [some 1]] ∧ reopened.released = [0]) ∧
      reopened.ReservedFor 1 "s" 1 "00000000000000000000000000000000" ∧
      (∀ (i : Nat) (session : ManagedSession), reopened.Live i session → session.sessionId = "s" →
        i = 1) ∧
      Registered reopened.records reopenedSession := by
  have hreach : (pushMachine .single id).Reach (Handling .single) (.initial .single 0 2) reopened :=
    Machine.reach_getD (by decide +kernel) (along_handling _ _ (by decide))
  obtain ⟨hqueued, -, hlive, hregistered⟩ := session_generations_isolated hreach
  have hsecond : reopened.Live 1 reopenedSession := ⟨by decide +kernel, by decide +kernel⟩
  refine ⟨by decide +kernel, ?_, fun i session hi hsession => ?_, hregistered 1 _ hsecond⟩
  · exact hqueued 1 reopenedSession hsecond.1 1 List.mem_cons_self
  · exact hlive i 1 session reopenedSession hi hsecond hsession

end Drift.Server
