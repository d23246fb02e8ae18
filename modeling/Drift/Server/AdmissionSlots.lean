import Drift.Server.AdmissionHealth

/-!
# Routes and push slots on their own

What the operations on session routes and push slots do to the records when no other one comes in
between: the cases of each, with what it leaves as it was. None of them makes an unhealthy worker
healthy, and the operations on leases leave routes and slots alone.

* `reservePush_cases`, `releasePush_cases`, … — one lemma for each operation;
* `Elsewhere` — the operations that touch neither routes nor slots.
-/

namespace Drift.Server

open Drift.Lib Program

variable {policy : AdmissionPolicy}

/-- An operation on its own does not make an unhealthy worker healthy. -/
theorem IsOperation.healthy_of_run {p : Operation} (h : IsOperation policy p) {answers : List Bool}
    {s : Records} (hafter : (p.run answers s).2.healthy = true) : s.healthy = true := by
  by_contra hbefore
  have hunhealthy := eq_false_of_ne_true hbefore
  have hkept := h.meets.run_stable (stable_unhealthy false) answers trivial hunhealthy
  exact Bool.noConfusion (hafter.symm.trans hkept)

/-! ### Asking -/

/-- A section that begins with `_is_healthy_locked` and refuses otherwise. -/
theorem asking_run {k : Operation} (hk : k.LockFree) (answers : List Bool) (s : Records) :
    (locked (isHealthyLocked fun healthy => if !healthy then .done (.error .unavailable) else k)
        (.done (.error .unavailable))).run answers s =
      if answers.headD true && s.healthy then k.run answers.tail s else (.error .unavailable, s) := by
  have hfree : (isHealthyLocked fun healthy =>
      if !healthy then .done (.error .unavailable) else k).LockFree := by
    refine isHealthyLocked_lockFree fun healthy => ?_
    split
    · trivial
    · exact hk
  rw [run_locked hfree]
  cases answers.headD true with
  | false => rfl
  | true =>
    rw [if_pos rfl, isHealthyLocked_run]
    cases s.healthy <;> rfl

/-- What reserving a slot can do: it is refused, the worker marked unhealthy or not, or takes a slot. -/
inductive Reserved (policy : AdmissionPolicy) (s : Records) (granted : Answer) : Outcome × Records → Prop
  | refused (r : Rejection) : Reserved policy s granted (.error r, s)
  | corrupted (r : Rejection) : Reserved policy s granted (.error r, s.poison)
  | taken (n : Int) (hhealthy : s.healthy = true) (hpending : s.pendingPushes = some n) (hn : 0 ≤ n)
      (hroom : n < policy.maxPendingPushes) :
      Reserved policy s granted (.ok granted, { s with pendingPushes := some (n + 1) })

theorem markUnhealthyLocked_lockFree {k : Operation} (h : k.LockFree) :
    (markUnhealthyLocked k).LockFree :=
  lockFree_write (lockFree_read fun _ => lockFree_write h)

theorem reservePushLocked_lockFree {k : Operation} (h : k.LockFree) :
    (reservePushLocked policy k).LockFree := by
  refine lockFree_read fun pending => ?_
  split
  · exact markUnhealthyLocked_lockFree trivial
  split
  · exact markUnhealthyLocked_lockFree trivial
  split
  · trivial
  · exact lockFree_write h

theorem reservePushLocked_cases {a : Answer} {answers : List Bool} {s : Records}
    (hhealthy : s.healthy = true) :
    Reserved policy s a ((reservePushLocked policy (.done (.ok a))).run answers s) := by
  rw [reservePushLocked, run_read]
  split
  · exact .corrupted _
  next n hpending =>
  split
  · exact .corrupted _
  next hn =>
  split
  · exact .refused _
  next hroom =>
  exact .taken n hhealthy hpending (not_lt.mp hn) (not_le.mp hroom)

variable (policy) in
theorem reserveOutboundPush_cases (answers : List Bool) (s : Records) :
    Reserved policy s .done ((reserveOutboundPush policy).run answers s) := by
  have hfree : (reservePushLocked policy (.done (.ok .done))).LockFree := by
    apply reservePushLocked_lockFree
    trivial
  rw [reserveOutboundPush, asking_run hfree]
  split
  · next h => exact reservePushLocked_cases (Bool.and_eq_true_iff.mp h).2
  · exact .refused _

/-- A valid route is the record itself. -/
theorem validatedRoute_eq_some {record : RouteRecord} {owner : Int} {routeToken : String}
    (h : validatedRoute record = some (owner, routeToken)) :
    record = some (owner, routeToken) ∧ 0 ≤ owner := by
  unfold validatedRoute at h
  split at h
  · cases h
  split at h
  · cases h
  next howner =>
  split at h
  · cases h
  · cases h
    exact ⟨rfl, not_lt.mp howner⟩

variable (policy) in
/-- `reserve_push` is refused, or takes a slot for the route that is registered. -/
theorem reservePush_cases (key : String) (answers : List Bool) (s : Records) :
    (∃ r, (reservePush policy key).run answers s = (.error r, s) ∨
        (reservePush policy key).run answers s = (.error r, s.poison)) ∨
      ∃ owner routeToken, s.sessions.lookup key = some (some (owner, routeToken)) ∧ 0 ≤ owner ∧
        Reserved policy s (.route owner routeToken) ((reservePush policy key).run answers s) := by
  rw [reservePush, asking_run]
  case hk =>
    refine lockFree_read fun route => ?_
    split
    · trivial
    split
    · exact markUnhealthyLocked_lockFree trivial
    · exact reservePushLocked_lockFree trivial
  split
  next h =>
    rw [run_read]
    split
    · exact Or.inl ⟨_, Or.inl rfl⟩
    next record hrecord =>
    split
    · exact Or.inl ⟨_, Or.inr rfl⟩
    · next owner routeToken hvalid =>
      obtain ⟨rfl, howner⟩ := validatedRoute_eq_some hvalid
      exact Or.inr ⟨owner, routeToken, hrecord, howner,
        reservePushLocked_cases (Bool.and_eq_true_iff.mp h).2⟩
  next => exact Or.inl ⟨_, Or.inl rfl⟩

/-! ### Routes -/

variable (policy) in
/-- What registering a session can do. -/
theorem registerSession_cases (key : String) (handlerIndex : Int) (routeToken : String)
    (answers : List Bool) (s : Records) :
    (∃ r, (registerSession policy key handlerIndex routeToken).run answers s = (.error r, s)) ∨
      s.healthy = true ∧ s.sessions.lookup key = none ∧
        (registerSession policy key handlerIndex routeToken).run answers s =
          (.ok (.registered key routeToken),
            { s with sessions := s.sessions.insert key (some (handlerIndex, routeToken)) }) := by
  unfold registerSession
  split
  · exact Or.inl ⟨_, rfl⟩
  rw [asking_run]
  case hk =>
    refine lockFree_read fun present => ?_
    split
    · trivial
    refine lockFree_read fun routes => ?_
    split
    · trivial
    · exact lockFree_write trivial
  split
  next h =>
    rw [run_read]
    split
    · exact Or.inl ⟨_, rfl⟩
    next habsent =>
    rw [run_read]
    split
    · exact Or.inl ⟨_, rfl⟩
    · refine Or.inr ⟨(Bool.and_eq_true_iff.mp h).2, ?_, rfl⟩
      exact AList.lookup_eq_none.mpr fun hmem => habsent (decide_eq_true hmem)
  next => exact Or.inl ⟨_, rfl⟩

/-- What an operation that gives something back can do when its section is not granted the lock, or
ends in an error. -/
theorem giveBack_run {body : Operation} {k : Outcome → Operation} (hbody : body.LockFree)
    (herror : ∀ r, k (.error r) = markUnhealthy (.ok .poisoned)) (hok : ∀ a, k (.ok a) = .done (.ok a))
    (answers : List Bool) (s : Records) (hends : ∃ a, (body.run answers.tail s).1 = .ok a) :
    ((locked body (.done (.error .raised))).bind k).run answers s =
      if answers.headD true then body.run answers.tail s
      else (markUnhealthy (.ok .poisoned)).run answers.tail s := by
  obtain ⟨a, ha⟩ := hends
  rw [run_locked_bind hbody]
  split
  · rw [ha, hok, run_done, ← ha]
  · show (k (.error .raised)).run answers.tail s = _
    rw [herror]

/-- Marking the worker unhealthy leaves routes and slots alone. -/
theorem markUnhealthy_keeps (result : Outcome) :
    (markUnhealthy result).Keeps fun s => (s.pendingPushes, s.sessions) := by
  refine Keeps.write (fun _ => rfl) (Keeps.locked ?_ trivial)
  exact Keeps.write (fun _ => rfl) (Keeps.read fun _ => Keeps.write (fun _ => rfl) trivial)

/-- `unregister_session` removes exactly the route it is given, or leaves the worker unhealthy. -/
theorem unregisterSession_cases (key : String) (handlerIndex : Int) (routeToken : String)
    (answers : List Bool) (s : Records) :
    (((unregisterSession key handlerIndex routeToken).run answers s).2.healthy = false ∧
        ((unregisterSession key handlerIndex routeToken).run answers s).2.sessions = s.sessions) ∨
      s.sessions.lookup key = some (some (handlerIndex, routeToken)) ∧
        ((unregisterSession key handlerIndex routeToken).run answers s).2 =
          { s with sessions := s.sessions.erase key } := by
  unfold unregisterSession
  rw [giveBack_run]
  case hbody =>
    refine lockFree_read fun route => ?_
    split
    · exact markUnhealthyLocked_lockFree trivial
    · exact lockFree_write trivial
  case herror => exact fun _ => rfl
  case hok => exact fun _ => rfl
  case hends =>
    rw [run_read]
    split
    · exact ⟨_, rfl⟩
    · exact ⟨_, rfl⟩
  split
  · rw [run_read]
    split
    · exact Or.inl ⟨rfl, rfl⟩
    · next hroute => exact Or.inr ⟨not_not.mp hroute, rfl⟩
  · left
    refine ⟨markUnhealthy_unhealthy _ _ _, ?_⟩
    exact congrArg Prod.snd ((markUnhealthy_keeps _).run answers.tail s)

/-- `release_push` that is granted the lock gives a slot back, and else the worker is unhealthy. -/
theorem releasePush_cases (answers : List Bool) (s : Records) :
    ((releasePush.run answers s).2.sessions = s.sessions) ∧
      ((releasePush.run answers s).2.healthy = false ∧
          (answers.headD true = true → ∀ n, s.pendingPushes = some n → n < 1) ∨
        ∃ n, s.pendingPushes = some n ∧ 1 ≤ n ∧
          (releasePush.run answers s).2 = { s with pendingPushes := some (n - 1) }) := by
  unfold releasePush
  rw [giveBack_run]
  case hbody =>
    refine lockFree_read fun pending => ?_
    split
    · exact markUnhealthyLocked_lockFree trivial
    split
    · exact markUnhealthyLocked_lockFree trivial
    · exact lockFree_write trivial
  case herror => exact fun _ => rfl
  case hok => exact fun _ => rfl
  case hends =>
    rw [run_read]
    split
    · exact ⟨_, rfl⟩
    split
    · exact ⟨_, rfl⟩
    · exact ⟨_, rfl⟩
  split
  · next hgranted =>
    rw [run_read]
    split
    · next hnone =>
      refine ⟨rfl, Or.inl ⟨rfl, fun _ n hn => ?_⟩⟩
      exact absurd (hnone.symm.trans hn) (by intro h; cases h)
    next n hpending =>
    split
    · next hlow =>
      refine ⟨rfl, Or.inl ⟨rfl, fun _ m hm => ?_⟩⟩
      cases hpending.symm.trans hm
      exact hlow
    · next hhigh => exact ⟨rfl, Or.inr ⟨n, hpending, not_lt.mp hhigh, rfl⟩⟩
  · next htimedOut =>
    refine ⟨congrArg Prod.snd ((markUnhealthy_keeps _).run answers.tail s),
      Or.inl ⟨markUnhealthy_unhealthy _ _ _, fun hgranted => absurd hgranted htimedOut⟩⟩

/-! ### Elsewhere -/

/-- The operations that touch neither routes nor slots. -/
inductive Elsewhere (policy : AdmissionPolicy) : Operation → Prop
  | acquire (peerKey : String) (now : Option ℚ) : Elsewhere policy (acquire policy peerKey now)
  | release (peerKey : String) (now : Option ℚ) : Elsewhere policy (release peerKey now)
  | requireHealthy : Elsewhere policy requireHealthy
  | resolveSession (key : String) : Elsewhere policy (resolveSession key)
  | snapshot : Elsewhere policy snapshot
  | markUnhealthy : Elsewhere policy (markUnhealthy (.ok .poisoned))

theorem Elsewhere.isOperation {p : Operation} (h : Elsewhere policy p) : IsOperation policy p := by
  cases h with
  | acquire peerKey now => exact .asks (.acquire peerKey now)
  | release peerKey now => exact .release peerKey now
  | requireHealthy => exact .asks .requireHealthy
  | resolveSession key => exact .asks (.resolveSession key)
  | snapshot => exact .asks .snapshot
  | markUnhealthy => exact .markUnhealthy

/-- The routes and the slots. -/
def Records.pushes (s : Records) : Option Int × Dict String RouteRecord := (s.pendingPushes, s.sessions)

theorem isHealthyLocked_keeps {k : Bool → Operation} (h : ∀ b, (k b).Keeps Records.pushes) :
    (isHealthyLocked k).Keeps Records.pushes :=
  Keeps.read fun _ => Keeps.read fun _ => h _

theorem markUnhealthyLocked_keeps {k : Operation} (h : k.Keeps Records.pushes) :
    (markUnhealthyLocked k).Keeps Records.pushes :=
  Keeps.write (fun _ => rfl) (Keeps.read fun _ => Keeps.write (fun _ => rfl) h)

theorem admitSession_keeps (peerKey : String) (now : ℚ) (g : GlobalRecord) (peer : PeerRecord) :
    (admitSession policy peerKey now g peer).Keeps Records.pushes := by
  unfold admitSession
  split
  · trivial
  split
  · exact Keeps.write (fun _ => rfl) trivial
  split
  · exact Keeps.write (fun _ => rfl) trivial
  split
  · exact Keeps.write (fun _ => rfl) trivial
  · exact Keeps.write (fun _ => rfl) (Keeps.write (fun _ => rfl) trivial)

theorem pruneLoop_keeps {k : Operation} (h : k.Keeps Records.pushes) :
    ∀ candidates, (pruneLoop policy k candidates).Keeps Records.pushes
  | [] => h
  | candidate :: candidates => by
    refine Keeps.read fun count => ?_
    split
    · exact h
    · exact Keeps.write (fun _ => rfl) (pruneLoop_keeps h candidates)

theorem acquire_keeps (peerKey : String) (now : Option ℚ) :
    (acquire policy peerKey now).Keeps Records.pushes := by
  cases now with
  | none => trivial
  | some now =>
  refine Keeps.bind (Keeps.locked ?_ trivial) fun outcome => ?_
  · refine Keeps.read fun record => isHealthyLocked_keeps fun healthy => ?_
    split
    · trivial
    split
    · trivial
    split
    · trivial
    refine Keeps.read fun peer => ?_
    split
    · exact admitSession_keeps peerKey now _ _
    refine Keeps.read fun peers => pruneLoop_keeps (Keeps.read fun count => ?_) _
    split
    · exact Keeps.write (fun _ => rfl) trivial
    · exact admitSession_keeps peerKey now _ _
  · split
    · exact markUnhealthy_keeps _
    · trivial

theorem release_keeps (peerKey : String) (now : Option ℚ) :
    (release peerKey now).Keeps Records.pushes := by
  cases now with
  | none => exact markUnhealthy_keeps _
  | some now =>
  refine Keeps.bind (Keeps.locked ?_ trivial) fun outcome => ?_
  · refine Keeps.read fun record => ?_
    split
    · trivial
    refine Keeps.read fun peer => ?_
    split
    · split
      · exact Keeps.write (fun _ => rfl) trivial
      · exact Keeps.write (fun _ => rfl) (Keeps.write (fun _ => rfl) trivial)
    · exact Keeps.write (fun _ => rfl) trivial
  · split
    · exact markUnhealthy_keeps _
    · trivial

theorem Elsewhere.keeps {p : Operation} (h : Elsewhere policy p) : p.Keeps Records.pushes := by
  cases h with
  | acquire peerKey now => exact acquire_keeps peerKey now
  | release peerKey now => exact release_keeps peerKey now
  | markUnhealthy => exact markUnhealthy_keeps _
  | requireHealthy =>
    refine Keeps.read fun health => ?_
    split
    · trivial
    · refine Keeps.locked (isHealthyLocked_keeps fun healthy => ?_) trivial
      trivial
  | resolveSession key =>
    refine Keeps.locked (isHealthyLocked_keeps fun healthy => ?_) trivial
    split
    · trivial
    refine Keeps.read fun route => ?_
    split
    · trivial
    split
    · exact markUnhealthyLocked_keeps trivial
    · trivial
  | snapshot =>
    refine Keeps.bind (Keeps.locked ?_ trivial) fun outcome => ?_
    · refine Keeps.read fun record => ?_
      split
      · trivial
      refine isHealthyLocked_keeps fun healthy => Keeps.read fun pending => ?_
      split
      · exact markUnhealthyLocked_keeps trivial
      split
      · exact markUnhealthyLocked_keeps trivial
      · exact Keeps.read fun _ => Keeps.read fun _ => trivial
    · split
      · exact markUnhealthy_keeps _
      · trivial

end Drift.Server
