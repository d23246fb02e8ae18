import Mathlib.Algebra.Order.Ring.Rat
import Mathlib.Data.Prod.Lex
import Mathlib.Data.String.Basic
import Drift.Lib.Dict
import Drift.Lib.Program
import Drift.Lib.TokenBucket

/-!
# Admission to a public worker

`AdmissionState` keeps what the connection handlers of a public worker share: session leases with two
token buckets, the routes of sessions, the slots for pushed activations, and whether the worker is
healthy. The records live in one dictionary of a manager process. Every operation works on them under
one lock that may time out, except for the flag that `mark_unhealthy` drops before it asks for the lock.

An operation is a `Program` whose accesses are the accesses to the dictionary, in the order of the
source. Its prefixes of keys are the fields of `Records`. Rates, tokens and clock readings are exact
(`ℚ`); the peer and session keys, hashes in the source, come from outside.

* `AdmissionPolicy.postInit` — which policies are accepted, and the errors;
* `Records` — the shared dictionary;
* `acquire`, `release`, … — the operations.
-/

namespace Drift.Server

open Drift.Lib

/-! ### The policy -/

/-- `AdmissionPolicy`. -/
structure AdmissionPolicy where
  maxActiveSessions : Nat
  maxActiveSessionsPerPeer : Nat
  globalSessionRate : ℚ
  globalSessionBurst : Nat
  peerSessionRate : ℚ
  peerSessionBurst : Nat
  maxTrackedPeers : Nat
  trackedPeerTtl : ℚ
  maxPendingPushes : Nat
  deriving Repr

namespace AdmissionPolicy

variable (policy : AdmissionPolicy)

/-- The integers of the policy, with their upper bounds. -/
def integerBounds : List (String × Nat × Nat) :=
  [("max_active_sessions", policy.maxActiveSessions, 128),
    ("max_active_sessions_per_peer", policy.maxActiveSessionsPerPeer, 128),
    ("global_session_burst", policy.globalSessionBurst, 1024),
    ("peer_session_burst", policy.peerSessionBurst, 1024),
    ("max_tracked_peers", policy.maxTrackedPeers, 65536),
    ("max_pending_pushes", policy.maxPendingPushes, 64)]

/-- The numbers of the policy, with their upper bounds as they are printed. -/
def numberBounds : List (String × ℚ × ℚ × String) :=
  [("global_session_rate", policy.globalSessionRate, 1024, "1024.0"),
    ("peer_session_rate", policy.peerSessionRate, 1024, "1024.0"),
    ("tracked_peer_ttl", policy.trackedPeerTtl, 86400, "86400.0")]

def checkInteger : String × Nat × Nat → Except String Unit
  | (name, value, upperBound) =>
    if 1 ≤ value ∧ value ≤ upperBound then .ok ()
    else .error s!"{name} must be an integer between 1 and {upperBound}"

def checkNumber : String × ℚ × ℚ × String → Except String Unit
  | (name, value, upperBound, printed) =>
    if 0 < value ∧ value ≤ upperBound then .ok ()
    else .error s!"{name} must be a finite number between 0 and {printed}"

/-- `__post_init__`. -/
def postInit : Except String Unit := do
  policy.integerBounds.forM checkInteger
  policy.numberBounds.forM checkNumber
  if policy.maxActiveSessionsPerPeer > policy.maxActiveSessions then
    .error "max_active_sessions_per_peer cannot exceed max_active_sessions"
  else if policy.maxTrackedPeers < policy.maxActiveSessions then
    .error "max_tracked_peers cannot be less than max_active_sessions"
  else if policy.trackedPeerTtl < policy.peerSessionBurst / policy.peerSessionRate then
    .error "tracked_peer_ttl must cover a complete per-peer token-bucket refill"
  else
    .ok ()

/-- The policy is accepted. -/
def Accepted : Prop := policy.postInit = .ok ()

instance : Decidable policy.Accepted :=
  match h : policy.postInit with
  | .ok () => isTrue h
  | .error _ => isFalse fun hok => by rw [Accepted, h] at hok; cases hok

/-- A loop of checks that goes through has passed each of them. -/
theorem forM_eq_ok {α : Type} {check : α → Except String Unit} :
    ∀ {l : List α}, l.forM check = .ok () → ∀ a ∈ l, check a = .ok ()
  | [], _, a, ha => by cases ha
  | b :: l, h, a, ha => by
    replace h : (check b >>= fun _ => l.forM check) = .ok () := h
    cases hb : check b with
    | error e =>
      rw [hb] at h
      cases h
    | ok u =>
      rw [hb] at h
      rcases List.mem_cons.mp ha with rfl | ha
      · exact hb
      · exact forM_eq_ok h a ha

theorem checkNumber_eq_ok {name printed : String} {value upperBound : ℚ}
    (h : checkNumber (name, value, upperBound, printed) = .ok ()) : 0 < value ∧ value ≤ upperBound := by
  simp only [checkNumber] at h
  split at h
  · assumption
  · cases h

theorem checkInteger_eq_ok {name : String} {value upperBound : Nat}
    (h : checkInteger (name, value, upperBound) = .ok ()) : 1 ≤ value ∧ value ≤ upperBound := by
  simp only [checkInteger] at h
  split at h
  · assumption
  · cases h

/-- A policy with one of everything. -/
def single : AdmissionPolicy := ⟨1, 1, 1, 1, 1, 1, 1, 1, 1⟩

theorem single_accepted : single.Accepted := by decide +kernel

/-- What an accepted policy has been checked for. -/
theorem Accepted.checks {policy : AdmissionPolicy} (h : policy.Accepted) :
    (∀ e ∈ policy.integerBounds, checkInteger e = .ok ()) ∧
      (∀ e ∈ policy.numberBounds, checkNumber e = .ok ()) ∧
      policy.maxActiveSessionsPerPeer ≤ policy.maxActiveSessions ∧
      policy.maxActiveSessions ≤ policy.maxTrackedPeers ∧
      policy.peerSessionBurst / policy.peerSessionRate ≤ policy.trackedPeerTtl := by
  unfold Accepted postInit at h
  cases hints : policy.integerBounds.forM checkInteger with
  | error e =>
    rw [hints] at h
    cases h
  | ok u =>
  cases hnums : policy.numberBounds.forM checkNumber with
  | error e =>
    rw [hints, hnums] at h
    cases h
  | ok u' =>
  rw [hints, hnums] at h
  replace h : (if policy.maxActiveSessionsPerPeer > policy.maxActiveSessions then _ else _) = _ := h
  split at h
  · cases h
  split at h
  · cases h
  split at h
  · cases h
  next hper htracked httl =>
  exact ⟨forM_eq_ok hints, forM_eq_ok hnums, not_lt.mp hper, not_lt.mp htracked, not_lt.mp httl⟩

theorem Accepted.rates {policy : AdmissionPolicy} (h : policy.Accepted) :
    0 < policy.globalSessionRate ∧ 0 < policy.peerSessionRate := by
  have hnumbers := h.checks.2.1
  unfold numberBounds at hnumbers
  exact ⟨(checkNumber_eq_ok (hnumbers _ (.head _))).1,
    (checkNumber_eq_ok (hnumbers _ (.tail _ (.head _)))).1⟩

/-- An accepted policy lets every peer have a session. -/
theorem Accepted.peerLimits {policy : AdmissionPolicy} (h : policy.Accepted) :
    1 ≤ policy.maxActiveSessionsPerPeer ∧ 1 ≤ policy.peerSessionBurst := by
  have hintegers := h.checks.1
  unfold integerBounds at hintegers
  exact ⟨(checkInteger_eq_ok (hintegers _ (.tail _ (.head _)))).1,
    (checkInteger_eq_ok (hintegers _ (.tail _ (.tail _ (.tail _ (.head _)))))).1⟩

/-- The two buckets. -/
def globalRate : Rate ℚ := ⟨policy.globalSessionRate, policy.globalSessionBurst⟩

def peerRate : Rate ℚ := ⟨policy.peerSessionRate, policy.peerSessionBurst⟩

end AdmissionPolicy

/-! ### The records -/

/-- The record under `"global"`. -/
structure GlobalRecord where
  active : Nat
  tokens : ℚ
  updated : ℚ
  accepted : Nat
  rejected : Nat
  healthy : Bool
  deriving DecidableEq, Repr

/-- A record under `"peer:"`. -/
structure PeerRecord where
  active : Nat
  tokens : ℚ
  updated : ℚ
  lastSeen : ℚ
  deriving DecidableEq, Repr

/-- A record under `"session:"`: the handler that owns the session and the token of its generation, or
something that is not such a pair. -/
abbrev RouteRecord := Option (Int × String)

/-- The shared dictionary. What is not of the expected type is `none` where the source checks for it. -/
structure Records where
  /-- `records["health"] is True`. -/
  health : Bool
  global : Option GlobalRecord
  pendingPushes : Option Int
  peers : Dict String PeerRecord
  sessions : Dict String RouteRecord

/-- The records of a new worker. -/
def Records.initial (policy : AdmissionPolicy) (now : ℚ) : Records where
  health := true
  global := some ⟨0, policy.globalSessionBurst, now, 0, 0, true⟩
  pendingPushes := some 0
  peers := ∅
  sessions := ∅

/-- Why an operation is refused. The last two are reported like the first one: corruption that the
operation has detected, and an exception in its section. -/
inductive Rejection
  | unavailable
  | overload
  | alreadyActive
  | pushTarget
  | sessionIdentity
  | corrupted
  | raised
  deriving DecidableEq, Repr

/-- The texts of `AdmissionRejected`. -/
def Rejection.message : Rejection → String
  | .unavailable | .corrupted | .raised => "public worker admission state is unavailable"
  | .overload => "public worker admission is temporarily unavailable"
  | .alreadyActive => "public worker session identity is already active"
  | .pushTarget => "public worker push target is unavailable"
  | .sessionIdentity => "public worker session identity is invalid"

/-- The aggregate counters of `snapshot`. -/
structure Snapshot where
  activeSessions : Nat
  trackedPeers : Nat
  activeSessionRoutes : Nat
  pendingPushes : Int
  acceptedSessions : Nat
  rejectedSessions : Nat
  healthy : Bool
  deriving DecidableEq, Repr

/-- What an operation returns. -/
inductive Answer
  /-- `None`, after the operation has done what it is for. -/
  | done
  /-- `None`, after the operation has detected corruption. -/
  | poisoned
  | lease (peerKey : String)
  | registered (sessionKey routeToken : String)
  | owner (handlerIndex : Option Int)
  | route (handlerIndex : Int) (routeToken : String)
  | snapshot (counters : Snapshot)
  deriving DecidableEq, Repr

abbrev Outcome := Except Rejection Answer

abbrev Operation := Program Records Outcome

/-! ### Parts of the operations -/

open Program

/-- `_is_healthy_locked`. -/
def isHealthyLocked (k : Bool → Operation) : Operation :=
  read Records.global fun record =>
  read Records.health fun health =>
  k (health && record.any GlobalRecord.healthy)

/-- `_mark_unhealthy_locked`. -/
def markUnhealthyLocked (k : Operation) : Operation :=
  write (fun s => { s with health := false }) <|
  read Records.global fun record =>
  write (fun s => { s with
    global := some <| match record with
      | some r => { r with healthy := false }
      | none => ⟨0, 0, 0, 0, 0, false⟩ }) k

/-- `_refill`; `none` is the clock that has gone backwards. -/
def refill (rate : Rate ℚ) (tokens updatedAt now : ℚ) : Option ℚ :=
  if now < updatedAt then none else some (rate.refill tokens updatedAt now)

/-- `_reject`, and the error of its callers. -/
def reject (record : GlobalRecord) (now : ℚ) : Operation :=
  write (fun s => { s with
    global := some { record with updated := now, rejected := record.rejected + 1 } }) <|
  .done (.error .overload)

/-- The records of peers that `_prune_inactive_peers` may drop, oldest first. -/
def pruneCandidates (policy : AdmissionPolicy) (now : ℚ) (peers : Dict String PeerRecord) :
    List (ℚ ×ₗ String) :=
  Dict.sorted ((peers.entries.filter fun e =>
    e.2.active == 0 && policy.trackedPeerTtl ≤ now - e.2.lastSeen).map fun e =>
      toLex (e.2.lastSeen, e.1))

/-- `tracked_peer_count`. -/
def trackedPeerCount (s : Records) : Nat := s.peers.entries.length

/-- The loop of `_prune_inactive_peers`. -/
def pruneLoop (policy : AdmissionPolicy) (k : Operation) : List (ℚ ×ₗ String) → Operation
  | [] => k
  | candidate :: candidates =>
    read trackedPeerCount fun count =>
    if count < policy.maxTrackedPeers then
      k
    else
      write (fun s => { s with peers := s.peers.erase (ofLex candidate).2 }) <|
      pruneLoop policy k candidates

/-- `_prune_inactive_peers`. -/
def pruneInactivePeers (policy : AdmissionPolicy) (now : ℚ) (k : Operation) : Operation :=
  read Records.peers fun peers => pruneLoop policy k (pruneCandidates policy now peers)

/-- `acquire` from the refill of the peer's bucket on. -/
def admitSession (policy : AdmissionPolicy) (peerKey : String) (now : ℚ) (global : GlobalRecord)
    (peer : PeerRecord) : Operation :=
  match refill policy.peerRate peer.tokens peer.updated now with
  | none => .done (.error .unavailable)
  | some peerTokens =>
    if global.active ≥ policy.maxActiveSessions then
      reject global now
    else if peer.active ≥ policy.maxActiveSessionsPerPeer then
      reject global now
    else if global.tokens < 1 ∨ peerTokens < 1 then
      reject global now
    else
      write (fun s => { s with
        global := some ⟨global.active + 1, global.tokens - 1, now, global.accepted + 1, global.rejected,
          true⟩ }) <|
      write (fun s => { s with
        peers := s.peers.insert peerKey ⟨peer.active + 1, peerTokens - 1, now, now⟩ }) <|
      .done (.ok (.lease peerKey))

/-- The locked section of `acquire`. -/
def acquireSection (policy : AdmissionPolicy) (peerKey : String) (now : ℚ) : Operation :=
  read Records.global fun record =>
  isHealthyLocked fun healthy =>
  if !healthy then
    .done (.error .unavailable)
  else
    match record with
    | none => .done (.error .raised)
    | some global =>
      match refill policy.globalRate global.tokens global.updated now with
      | none => .done (.error .unavailable)
      | some globalTokens =>
        let global := { global with tokens := globalTokens, updated := now }
        read (fun s => s.peers.lookup peerKey) fun
          | some peer => admitSession policy peerKey now global peer
          | none =>
            pruneInactivePeers policy now <|
            read trackedPeerCount fun count =>
            if count ≥ policy.maxTrackedPeers then
              reject global now
            else
              admitSession policy peerKey now global ⟨0, policy.peerSessionBurst, now, now⟩

/-- The locked section of `_release`. -/
def releaseSection (peerKey : String) (now : ℚ) : Operation :=
  read Records.global fun
    | none => .done (.error .raised)
    | some global =>
      read (fun s => s.peers.lookup peerKey) fun peer =>
      match peer with
      | some p =>
        if global.active < 1 ∨ p.active < 1 then
          write (fun s => { s with global := some { global with healthy := false } }) <|
          .done (.ok .poisoned)
        else
          write (fun s => { s with global := some { global with active := global.active - 1 } }) <|
          write (fun s => { s with
            peers := s.peers.insert peerKey { p with active := p.active - 1, lastSeen := now } }) <|
          .done (.ok .done)
      | none =>
        write (fun s => { s with global := some { global with healthy := false } }) <|
        .done (.ok .poisoned)

/-! ### The operations -/

/-- `mark_unhealthy`, which ends with the given result in the operation that calls it. -/
def markUnhealthy (result : Outcome) : Operation :=
  write (fun s => { s with health := false }) <|
  locked (markUnhealthyLocked (.done result)) (.done result)

/-- `acquire`. A clock that gives no number is refused before the lock is asked for. -/
def acquire (policy : AdmissionPolicy) (peerKey : String) : Option ℚ → Operation
  | none => .done (.error .unavailable)
  | some now =>
    (locked (acquireSection policy peerKey now) (.done (.error .unavailable))).bind fun
      | .error .raised => markUnhealthy (.error .raised)
      | outcome => .done outcome

/-- `_release`: whatever goes wrong marks the state unhealthy. -/
def release (peerKey : String) : Option ℚ → Operation
  | none => markUnhealthy (.ok .poisoned)
  | some now =>
    (locked (releaseSection peerKey now) (.done (.error .raised))).bind fun
      | .error _ => markUnhealthy (.ok .poisoned)
      | outcome => .done outcome

/-- `require_healthy`. -/
def requireHealthy : Operation :=
  read Records.health fun health =>
  if !health then
    .done (.error .unavailable)
  else
    locked
      (isHealthyLocked fun healthy => .done (if healthy then .ok .done else .error .unavailable))
      (.done (.error .unavailable))

/-- `_validated_route`. -/
def validatedRoute : RouteRecord → Option (Int × String)
  | none => none
  | some (owner, routeToken) =>
    if owner < 0 then
      none
    else if routeToken.length ≠ 32 ∨ routeToken.toList.any (fun c => c ∉ "0123456789abcdef".toList) then
      none
    else
      some (owner, routeToken)

/-- `_session_key`, with the hash as a parameter. An identity is `none` where it is no string that can
be encoded. -/
def sessionKey (sha256 : String → String) : Option String → Option String
  | none => none
  | some identity =>
    if 1 ≤ identity.utf8ByteSize ∧ identity.utf8ByteSize ≤ 256 then
      some ("session:" ++ sha256 identity)
    else
      none

/-- `active_session_routes`. -/
def activeSessionRoutes (s : Records) : Nat := s.sessions.entries.length

/-- `register_session` for a key, with the token that is given or drawn. -/
def registerSession (policy : AdmissionPolicy) (key : String) (handlerIndex : Int)
    (routeToken : String) : Operation :=
  if validatedRoute (some (handlerIndex, routeToken)) = none then
    .done (.error .unavailable)
  else
    locked
      (isHealthyLocked fun healthy =>
        if !healthy then
          .done (.error .unavailable)
        else
          read (fun s => decide (key ∈ s.sessions)) fun present =>
          if present then
            .done (.error .alreadyActive)
          else
            read activeSessionRoutes fun routes =>
            if routes ≥ policy.maxActiveSessions then
              .done (.error .overload)
            else
              write (fun s => { s with
                sessions := s.sessions.insert key (some (handlerIndex, routeToken)) }) <|
              .done (.ok (.registered key routeToken)))
      (.done (.error .unavailable))

/-- `unregister_session`. -/
def unregisterSession (key : String) (handlerIndex : Int) (routeToken : String) : Operation :=
  (locked
    (read (fun s => s.sessions.lookup key) fun route =>
      if route ≠ some (some (handlerIndex, routeToken)) then
        markUnhealthyLocked (.done (.ok .poisoned))
      else
        write (fun s => { s with sessions := s.sessions.erase key }) (.done (.ok .done)))
    (.done (.error .raised))).bind fun
      | .error _ => markUnhealthy (.ok .poisoned)
      | outcome => .done outcome

/-- `resolve_session`. -/
def resolveSession (key : String) : Operation :=
  locked
    (isHealthyLocked fun healthy =>
      if !healthy then
        .done (.error .unavailable)
      else
        read (fun s => s.sessions.lookup key) fun route =>
        match route with
        | none => .done (.ok (.owner none))
        | some record =>
          match validatedRoute record with
          | none => markUnhealthyLocked (.done (.error .corrupted))
          | some (owner, _) => .done (.ok (.owner (some owner))))
    (.done (.error .unavailable))

/-- `_reserve_push_locked`, and what follows. -/
def reservePushLocked (policy : AdmissionPolicy) (k : Operation) : Operation :=
  read Records.pendingPushes fun pending =>
  match pending with
  | none => markUnhealthyLocked (.done (.error .corrupted))
  | some n =>
    if n < 0 then
      markUnhealthyLocked (.done (.error .corrupted))
    else if n ≥ policy.maxPendingPushes then
      .done (.error .overload)
    else
      write (fun s => { s with pendingPushes := some (n + 1) }) k

/-- `reserve_outbound_push`. -/
def reserveOutboundPush (policy : AdmissionPolicy) : Operation :=
  locked
    (isHealthyLocked fun healthy =>
      if !healthy then
        .done (.error .unavailable)
      else
        reservePushLocked policy (.done (.ok .done)))
    (.done (.error .unavailable))

/-- `reserve_push`. -/
def reservePush (policy : AdmissionPolicy) (key : String) : Operation :=
  locked
    (isHealthyLocked fun healthy =>
      if !healthy then
        .done (.error .unavailable)
      else
        read (fun s => s.sessions.lookup key) fun route =>
        match route with
        | none => .done (.error .pushTarget)
        | some record =>
          match validatedRoute record with
          | none => markUnhealthyLocked (.done (.error .corrupted))
          | some (owner, routeToken) => reservePushLocked policy (.done (.ok (.route owner routeToken))))
    (.done (.error .unavailable))

/-- `release_push`. -/
def releasePush : Operation :=
  (locked
    (read Records.pendingPushes fun pending =>
      match pending with
      | none => markUnhealthyLocked (.done (.ok .poisoned))
      | some n =>
        if n < 1 then
          markUnhealthyLocked (.done (.ok .poisoned))
        else
          write (fun s => { s with pendingPushes := some (n - 1) }) (.done (.ok .done)))
    (.done (.error .raised))).bind fun
      | .error _ => markUnhealthy (.ok .poisoned)
      | outcome => .done outcome

/-- `_snapshot`. -/
def snapshotSection : Operation :=
  read Records.global fun
    | none => .done (.error .raised)
    | some global =>
      isHealthyLocked fun healthy =>
      read Records.pendingPushes fun pending =>
      match pending with
      | none => markUnhealthyLocked (.done (.error .corrupted))
      | some n =>
        if n < 0 then
          markUnhealthyLocked (.done (.error .corrupted))
        else
          read trackedPeerCount fun peers =>
          read activeSessionRoutes fun routes =>
          .done (.ok (.snapshot ⟨global.active, peers, routes, n, global.accepted, global.rejected,
            healthy⟩))

/-- `snapshot`. -/
def snapshot : Operation :=
  (locked snapshotSection (.done (.error .unavailable))).bind fun
    | .error .raised => markUnhealthy (.error .raised)
    | outcome => .done outcome

end Drift.Server
