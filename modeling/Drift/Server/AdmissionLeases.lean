import Drift.Lib.Processes
import Drift.Server.AdmissionRuns

/-!
# Sessions of a public worker

Runs of `acquire` and of the release of leases by any peers, in which each section under the lock is one
step. A lease is released once: `AdmissionLease.release` notes that before it calls `_release`, so that
there is a time in between at which the lease still counts. The counters of the two records agree with
the leases, and stay within the limits of the policy, for as long as the worker is healthy.

* `leaseMachine` — the runs;
* `lease_step` — what a step does that leaves the worker healthy;
* `Counted` — the invariant that relates the records and the leases;
* `sessions_counted` — the counters in every reachable healthy state.
-/

namespace Drift.Server

open Drift.Lib Program

/-! ### Runs -/

/-- A lease: granted, with the release noted, and released. -/
inductive LeaseStatus
  | granted
  | releasing
  | released
  deriving DecidableEq, Repr

/-- `AdmissionLease`. -/
structure AdmissionLease where
  peerKey : String
  status : LeaseStatus
  deriving DecidableEq, Repr

/-- The lease counts as an active session. -/
def AdmissionLease.active (lease : AdmissionLease) : Bool := lease.status ≠ .released

/-- The shared records, the leases of all handlers, and what is needed to speak of the run: how each
`acquire` has ended, whom it admitted and when, latest first, and the last clock reading under the
lock. -/
structure LeaseState where
  records : Records
  leases : List AdmissionLease
  decisions : List Outcome
  admissions : List (String × ℚ)
  clock : ℚ

/-- The steps. Each operation comes with its clock reading and the answers to its requests for the
lock. -/
inductive LeaseAction
  | acquire (peerKey : String) (now : Option ℚ) (answers : List Bool)
  /-- `AdmissionLease.release`, up to the call of `_release`. -/
  | release (i : Nat)
  /-- The call of `_release`. -/
  | finish (i : Nat) (now : Option ℚ) (answers : List Bool)
  /-- A handler that gives the worker up. -/
  | markUnhealthy (answers : List Bool)

namespace LeaseAction

/-- The clock reading of an operation that is granted the lock. -/
def reading : LeaseAction → Option ℚ
  | .acquire _ now answers | .finish _ now answers => if answers.headD true then now else none
  | .release _ | .markUnhealthy _ => none

end LeaseAction

namespace LeaseState

/-- A new worker. -/
def initial (policy : AdmissionPolicy) (now : ℚ) : LeaseState :=
  ⟨.initial policy now, [], [], [], now⟩

/-- What an `acquire` has brought. -/
def acquired (s : LeaseState) (now : Option ℚ) (result : Outcome × Records) : LeaseState :=
  let s := { s with records := result.2, decisions := s.decisions ++ [result.1] }
  match result.1, now with
  | .ok (.lease peerKey), some now =>
    { s with
      leases := s.leases ++ [⟨peerKey, .granted⟩]
      admissions := (peerKey, now) :: s.admissions }
  | _, _ => s

/-- A step, for a given `acquire`, but for the clock. -/
def effect (acquire : String → Option ℚ → Operation) (s : LeaseState) :
    LeaseAction → Option LeaseState
  | .acquire peerKey now answers =>
    some (s.acquired now ((acquire peerKey now).run answers s.records))
  | .release i =>
    match s.leases[i]? with
    | none => none
    | some lease =>
      if lease.status = .granted then
        some { s with leases := s.leases.set i { lease with status := .releasing } }
      else
        some s
  | .finish i now answers =>
    match s.leases[i]? with
    | none => none
    | some lease =>
      if lease.status = .releasing then
        some { s with
          records := ((release lease.peerKey now).run answers s.records).2
          leases := s.leases.set i { lease with status := .released } }
      else
        none
  | .markUnhealthy answers =>
    some { s with records := ((Server.markUnhealthy (.ok .poisoned)).run answers s.records).2 }

def next (acquire : String → Option ℚ → Operation) (s : LeaseState) (action : LeaseAction) :
    Option LeaseState :=
  (s.effect acquire action).map fun t => { t with clock := action.reading.getD s.clock }

end LeaseState

/-- Runs with any implementation of `acquire`. -/
def leaseMachineWith (acquire : String → Option ℚ → Operation) : Machine LeaseState LeaseAction :=
  ⟨LeaseState.next acquire⟩

/-- The runs of a worker. -/
def leaseMachine (policy : AdmissionPolicy) : Machine LeaseState LeaseAction :=
  leaseMachineWith (acquire policy)

/-! ### What a step does -/

/-- What a step does that leaves the worker healthy, whose global record before the step is `g`. -/
inductive LeaseStep (policy : AdmissionPolicy) (s : LeaseState) (action : LeaseAction)
    (g : GlobalRecord) (s' : LeaseState) : Prop
  /-- An `acquire` that leaves no trace, or a release that was noted before. -/
  | idle (hrecords : s'.records = s.records) (hleases : s'.leases = s.leases)
      (hadmissions : s'.admissions = s.admissions)
  /-- A release is noted. -/
  | noted (i : Nat) (lease : AdmissionLease) (hlease : s.leases[i]? = some lease)
      (hstatus : lease.status = .granted) (hrecords : s'.records = s.records)
      (hleases : s'.leases = s.leases.set i { lease with status := .releasing })
      (hadmissions : s'.admissions = s.admissions)
  /-- An `acquire` that is counted as rejected. -/
  | rejected (now : ℚ) (hreading : action.reading = some now) (peers : Dict String PeerRecord)
      (hclock : g.updated ≤ now)
      (hpeers : peers = s.records.peers ∨ peers = pruned policy now s.records.peers)
      (hrecords : s'.records =
        { s.records with peers := peers }.rejected (g.refilled policy now) now)
      (hleases : s'.leases = s.leases) (hadmissions : s'.admissions = s.admissions)
  /-- A session is admitted. -/
  | admitted (peerKey : String) (now : ℚ) (hreading : action.reading = some now) (peer : PeerRecord)
      (peers : Dict String PeerRecord) (hclock : g.updated ≤ now)
      (hpeer : s.records.peers.lookup peerKey = some peer ∧ peers = s.records.peers ∨
        s.records.peers.lookup peerKey = none ∧ peer = .fresh policy now ∧
          peers = pruned policy now s.records.peers ∧ peers.entries.length < policy.maxTrackedPeers)
      (hpeerClock : peer.updated ≤ now) (hlimits : ¬ Limited policy (g.refilled policy now) peer now)
      (hrecords : s'.records =
        { s.records with peers := peers }.admitted policy peerKey now (g.refilled policy now) peer)
      (hleases : s'.leases = s.leases ++ [⟨peerKey, .granted⟩])
      (hadmissions : s'.admissions = (peerKey, now) :: s.admissions)
  /-- A lease is given back. -/
  | released (i : Nat) (lease : AdmissionLease) (now : ℚ) (hreading : action.reading = some now)
      (hlease : s.leases[i]? = some lease) (hstatus : lease.status = .releasing) (peer : PeerRecord)
      (hpeer : s.records.peers.lookup lease.peerKey = some peer) (hactive : 0 < g.active)
      (hpeerActive : 0 < peer.active)
      (hrecords : s'.records = { s.records with
        global := some { g with active := g.active - 1 }
        peers := s.records.peers.insert lease.peerKey
          { peer with active := peer.active - 1, lastSeen := now } })
      (hleases : s'.leases = s.leases.set i { lease with status := .released })
      (hadmissions : s'.admissions = s.admissions)

/-- A step leaves the worker unhealthy and admits nobody, or is one of those above. -/
def Steps (policy : AdmissionPolicy) (s : LeaseState) (action : LeaseAction) (s' : LeaseState) : Prop :=
  (s'.records.healthy = false ∧ s'.admissions = s.admissions) ∨
    s.records.healthy = true ∧ ∃ g, s.records.global = some g ∧ LeaseStep policy s action g s'

/-- A step that changes nothing of note. -/
theorem Steps.idle {policy : AdmissionPolicy} {s s' : LeaseState} {action : LeaseAction}
    (hrecords : s'.records = s.records) (hleases : s'.leases = s.leases)
    (hadmissions : s'.admissions = s.admissions) : Steps policy s action s' := by
  cases hhealthy : s.records.healthy with
  | false =>
    left
    rw [hrecords]
    exact ⟨hhealthy, hadmissions⟩
  | true =>
    obtain ⟨-, g, hg, -⟩ := Records.healthy_iff.mp hhealthy
    exact Or.inr ⟨hhealthy, g, hg, .idle hrecords hleases hadmissions⟩

theorem steps_acquired {policy : AdmissionPolicy} {s s' : LeaseState} {peerKey : String}
    {now : Option ℚ} {answers : List Bool} {t : LeaseState}
    (ht : t = s.acquired now ((acquire policy peerKey now).run answers s.records))
    (hs' : s' = { t with clock := (LeaseAction.acquire peerKey now answers).reading.getD s.clock }) :
    Steps policy s (.acquire peerKey now answers) s' := by
  cases now with
  | none =>
    subst ht hs'
    exact Steps.idle rfl rfl rfl
  | some now =>
  rw [acquire_run] at ht
  by_cases hgranted : answers.headD true = true
  case neg =>
    rw [if_neg hgranted] at ht
    subst ht hs'
    exact Steps.idle rfl rfl rfl
  rw [if_pos hgranted] at ht
  have hreading : (LeaseAction.acquire peerKey (some now) answers).reading = some now := if_pos hgranted
  cases hhealthy : s.records.healthy with
  | false =>
    rw [acquireSection_run_unhealthy policy peerKey now answers.tail hhealthy] at ht
    subst ht hs'
    exact Steps.idle rfl rfl rfl
  | true =>
    obtain ⟨-, g, hg, -⟩ := Records.healthy_iff.mp hhealthy
    have hcases := acquireSection_cases policy peerKey now answers.tail hhealthy hg
    generalize (acquireSection policy peerKey now).run answers.tail s.records = result at ht hcases
    refine Or.inr ⟨hhealthy, g, hg, ?_⟩
    cases hcases with
    | refused r =>
      subst ht hs'
      exact .idle rfl rfl rfl
    | rejected peers hclock hpeers =>
      subst ht hs'
      exact .rejected now hreading peers hclock hpeers rfl rfl rfl
    | admitted peer peers hclock hpeer hpeerClock hlimits =>
      subst ht hs'
      exact .admitted peerKey now hreading peer peers hclock hpeer hpeerClock hlimits rfl rfl rfl

/-- **What a step does.** -/
theorem lease_steps {policy : AdmissionPolicy} {s s' : LeaseState} {action : LeaseAction}
    (h : (leaseMachine policy).next s action = some s') : Steps policy s action s' := by
  obtain ⟨t, ht, rfl⟩ := Option.map_eq_some_iff.mp h
  cases action with
  | acquire peerKey now answers => exact steps_acquired (Option.some.inj ht).symm rfl
  | release i =>
    simp only [LeaseState.effect] at ht
    split at ht
    · cases ht
    next lease hlease =>
    split at ht
    · next hstatus =>
      cases ht
      cases hhealthy : s.records.healthy with
      | false => exact Or.inl ⟨hhealthy, rfl⟩
      | true =>
        obtain ⟨-, g, hg, -⟩ := Records.healthy_iff.mp hhealthy
        exact Or.inr ⟨hhealthy, g, hg, .noted i lease hlease hstatus rfl rfl rfl⟩
    · cases ht
      exact Steps.idle rfl rfl rfl
  | finish i now answers =>
    simp only [LeaseState.effect] at ht
    split at ht
    · cases ht
    next lease hlease =>
    split at ht
    · next hstatus =>
      cases ht
      rcases release_cases lease.peerKey now answers s.records with hunhealthy | hreleased
      · exact Or.inl ⟨hunhealthy, rfl⟩
      obtain ⟨t, g, p, rfl, hgranted, hg, hp, hactive, hpeerActive, hrecords⟩ := hreleased
      cases hhealthy : s.records.healthy with
      | false =>
        left
        refine ⟨?_, rfl⟩
        show Records.healthy ((release lease.peerKey (some t)).run answers s.records).2 = false
        rw [hrecords]
        rw [Records.healthy, hg] at hhealthy
        exact hhealthy
      | true =>
        refine Or.inr ⟨hhealthy, g, hg, ?_⟩
        exact .released i lease t (if_pos hgranted) hlease hstatus p hp hactive hpeerActive hrecords rfl
          rfl
    · cases ht
  | markUnhealthy answers =>
    cases ht
    exact Or.inl ⟨markUnhealthy_unhealthy _ answers s.records, rfl⟩

theorem lease_clock {policy : AdmissionPolicy} {s s' : LeaseState} {action : LeaseAction}
    (h : (leaseMachine policy).next s action = some s') : s'.clock = action.reading.getD s.clock := by
  obtain ⟨t, -, rfl⟩ := Option.map_eq_some_iff.mp h
  rfl

/-! ### Counting -/

/-- The sessions of one peer. -/
def sessionsOf (leases : List AdmissionLease) (peerKey : String) : Nat :=
  leases.countP fun l => l.active && l.peerKey = peerKey

/-- All sessions. -/
def sessions (leases : List AdmissionLease) : Nat := leases.countP AdmissionLease.active

/-- The sessions that the records count for a peer. -/
def activeOf (peers : Dict String PeerRecord) (peerKey : String) : Nat :=
  (peers.lookup peerKey).elim 0 PeerRecord.active

/-- The records of the peers count the leases, within the limits of the policy. -/
structure CountedPeers (policy : AdmissionPolicy) (leases : List AdmissionLease)
    (peers : Dict String PeerRecord) : Prop where
  active : ∀ peerKey, activeOf peers peerKey = sessionsOf leases peerKey
  limit : ∀ peerKey peer, peers.lookup peerKey = some peer →
    peer.active ≤ policy.maxActiveSessionsPerPeer
  tokens : ∀ peerKey peer, peers.lookup peerKey = some peer →
    0 ≤ peer.tokens ∧ peer.tokens ≤ policy.peerSessionBurst
  tracked : peers.entries.length ≤ policy.maxTrackedPeers

/-- So do the records of the worker. -/
structure Counted (policy : AdmissionPolicy) (s : LeaseState) (g : GlobalRecord) : Prop where
  peers : CountedPeers policy s.leases s.records.peers
  total : g.active = sessions s.leases
  sum : g.active = Dict.sum PeerRecord.active s.records.peers
  limit : g.active ≤ policy.maxActiveSessions
  tokens : 0 ≤ g.tokens ∧ g.tokens ≤ policy.globalSessionBurst

variable {policy : AdmissionPolicy}

theorem Thinned.activeOf {peers peers' : Dict String PeerRecord} (h : Thinned peers peers')
    (peerKey : String) : activeOf peers' peerKey = activeOf peers peerKey := by
  unfold Server.activeOf
  rcases h.lookup peerKey with hsame | ⟨hnone, peer, hpeer, hactive⟩
  · rw [hsame]
  · rw [hnone, hpeer]
    exact hactive.symm

theorem Thinned.lookup_some {peers peers' : Dict String PeerRecord} (h : Thinned peers peers')
    {peerKey : String} {peer : PeerRecord} (hpeer : peers'.lookup peerKey = some peer) :
    peers.lookup peerKey = some peer := by
  rcases h.lookup peerKey with hsame | ⟨hnone, -⟩
  · rw [← hsame]
    exact hpeer
  · exact absurd (hnone.symm.trans hpeer) (by intro h; cases h)

/-- Dropping peers without sessions keeps the count. -/
theorem CountedPeers.thin {leases : List AdmissionLease} {peers peers' : Dict String PeerRecord}
    (h : CountedPeers policy leases peers) (hthin : Thinned peers peers') :
    CountedPeers policy leases peers' where
  active := fun peerKey => (hthin.activeOf peerKey).trans (h.active peerKey)
  limit := fun peerKey peer hpeer => h.limit peerKey peer (hthin.lookup_some hpeer)
  tokens := fun peerKey peer hpeer => h.tokens peerKey peer (hthin.lookup_some hpeer)
  tracked := Nat.le_trans hthin.length h.tracked

/-- A peer's record and its leases change together. -/
theorem CountedPeers.insert {leases leases' : List AdmissionLease} {peers : Dict String PeerRecord}
    {peerKey : String} {peer : PeerRecord} (h : CountedPeers policy leases peers)
    (hother : ∀ k, k ≠ peerKey → sessionsOf leases' k = sessionsOf leases k)
    (hself : peer.active = sessionsOf leases' peerKey)
    (hlimit : peer.active ≤ policy.maxActiveSessionsPerPeer)
    (htokens : 0 ≤ peer.tokens ∧ peer.tokens ≤ policy.peerSessionBurst)
    (htracked : (peers.insert peerKey peer).entries.length ≤ policy.maxTrackedPeers) :
    CountedPeers policy leases' (peers.insert peerKey peer) where
  active := fun k => by
    unfold activeOf
    rw [Dict.lookup_insert_eq]
    split
    · next hk =>
      rw [hk]
      exact hself
    · next hk => exact (h.active k).trans (hother k hk).symm
  limit := fun k peer' hpeer => by
    rw [Dict.lookup_insert_eq] at hpeer
    split at hpeer
    · cases hpeer
      exact hlimit
    · exact h.limit k peer' hpeer
  tokens := fun k peer' hpeer => by
    rw [Dict.lookup_insert_eq] at hpeer
    split at hpeer
    · cases hpeer
      exact htokens
    · exact h.tokens k peer' hpeer
  tracked := htracked

/-! ### The leases -/

theorem sessionsOf_append (leases : List AdmissionLease) (peerKey k : String) :
    sessionsOf (leases ++ [⟨peerKey, .granted⟩]) k =
      sessionsOf leases k + if peerKey = k then 1 else 0 := by
  unfold sessionsOf
  rw [List.countP_append, List.countP_singleton]
  simp [AdmissionLease.active]

theorem sessions_append (leases : List AdmissionLease) (peerKey : String) :
    sessions (leases ++ [⟨peerKey, .granted⟩]) = sessions leases + 1 := by
  unfold sessions
  rw [List.countP_append, List.countP_singleton]
  simp [AdmissionLease.active]

/-- A lease whose release is noted still counts. -/
theorem sessionsOf_noted {leases : List AdmissionLease} {i : Nat} {lease : AdmissionLease}
    (hlease : leases[i]? = some lease) (hstatus : lease.status = .granted) (k : String) :
    sessionsOf (leases.set i { lease with status := .releasing }) k = sessionsOf leases k := by
  have hset := countP_set_add (b := { lease with status := .releasing })
    (fun l => l.active && l.peerKey = k) hlease
  simp only [AdmissionLease.active, hstatus] at hset
  exact Nat.add_right_cancel hset

theorem sessions_noted {leases : List AdmissionLease} {i : Nat} {lease : AdmissionLease}
    (hlease : leases[i]? = some lease) (hstatus : lease.status = .granted) :
    sessions (leases.set i { lease with status := .releasing }) = sessions leases := by
  have hset := countP_set_add (b := { lease with status := .releasing })
    AdmissionLease.active hlease
  simp only [AdmissionLease.active, hstatus] at hset
  exact Nat.add_right_cancel hset

/-- A lease that is released no longer counts. -/
theorem sessionsOf_released {leases : List AdmissionLease} {i : Nat} {lease : AdmissionLease}
    (hlease : leases[i]? = some lease) (hstatus : lease.status = .releasing) (k : String) :
    sessionsOf (leases.set i { lease with status := .released }) k +
      (if lease.peerKey = k then 1 else 0) = sessionsOf leases k := by
  have hset := countP_set_add (b := { lease with status := .released })
    (fun l => l.active && l.peerKey = k) hlease
  simpa [sessionsOf, AdmissionLease.active, hstatus] using hset

theorem sessions_released {leases : List AdmissionLease} {i : Nat} {lease : AdmissionLease}
    (hlease : leases[i]? = some lease) (hstatus : lease.status = .releasing) :
    sessions (leases.set i { lease with status := .released }) + 1 = sessions leases := by
  have hset := countP_set_add (b := { lease with status := .released })
    AdmissionLease.active hlease
  simpa [sessions, AdmissionLease.active, hstatus] using hset

/-! ### The invariant -/

/-- A bucket that is within its bounds is so after a refill. -/
theorem refill_bounds {R : Rate ℚ} {tokens updated now : ℚ} (hrate : 0 ≤ R.rate) (hburst : 0 ≤ R.burst)
    (htokens : 0 ≤ tokens) (hclock : updated ≤ now) :
    0 ≤ R.refill tokens updated now ∧ R.refill tokens updated now ≤ R.burst :=
  ⟨R.refill_nonneg hrate hburst htokens hclock, R.refill_le_burst tokens updated now⟩

/-- Rejecting an `acquire` charges nothing. -/
theorem Counted.rejected {s s' : LeaseState} {g : GlobalRecord} (hpolicy : policy.Accepted)
    (h : Counted policy s g) {now : ℚ} {peers : Dict String PeerRecord} (hclock : g.updated ≤ now)
    (hthin : Thinned s.records.peers peers) {r : GlobalRecord}
    (hr : r = { g.refilled policy now with rejected := g.rejected + 1 })
    (hpeers : s'.records.peers = peers) (hleases : s'.leases = s.leases) : Counted policy s' r where
  peers := by
    rw [hpeers, hleases]
    exact h.peers.thin hthin
  total := by
    rw [hr, hleases]
    exact h.total
  sum := by
    rw [hr, hpeers, hthin.sum]
    exact h.sum
  limit := by
    rw [hr]
    exact h.limit
  tokens := by
    rw [hr]
    exact refill_bounds (R := policy.globalRate) hpolicy.rates.1.le (Nat.cast_nonneg _) h.tokens.1 hclock

/-- Admitting a session counts it in both records, and the limits were checked before. -/
theorem Counted.admitted {s s' : LeaseState} {g : GlobalRecord} (h : Counted policy s g)
    {peerKey : String} {now : ℚ} {peer : PeerRecord} {peers : Dict String PeerRecord}
    (hthin : Thinned s.records.peers peers) (hactive : activeOf peers peerKey = peer.active)
    (hroom : ∀ p, (peers.insert peerKey p).entries.length ≤ policy.maxTrackedPeers)
    (hlimits : ¬ Limited policy (g.refilled policy now) peer now)
    (hrecords : s'.records =
      { s.records with peers := peers }.admitted policy peerKey now (g.refilled policy now) peer)
    (hleases : s'.leases = s.leases ++ [⟨peerKey, .granted⟩]) :
    ∃ r, s'.records.global = some r ∧ Counted policy s' r := by
  unfold Limited at hlimits
  rw [not_or, not_or, not_or, not_le, not_le, not_lt, not_lt] at hlimits
  obtain ⟨hglobal, hpeer, htokens, hpeerTokens⟩ := hlimits
  have hcounted := h.peers.thin hthin
  have hsessions : peer.active = sessionsOf s.leases peerKey := hactive ▸ hcounted.active peerKey
  rw [hrecords]
  refine ⟨_, rfl, ?_⟩
  constructor
  case peers =>
    rw [hrecords, hleases]
    refine hcounted.insert (fun k hk => ?_) ?_ ?_ ?_ (hroom _)
    · rw [sessionsOf_append, if_neg (Ne.symm hk), Nat.add_zero]
    · rw [sessionsOf_append, if_pos rfl]
      exact congrArg (· + 1) hsessions
    · exact hpeer
    · have hburst := policy.peerRate.refill_le_burst peer.tokens peer.updated now
      have hbound : policy.peerRate.burst = policy.peerSessionBurst := rfl
      constructor <;> simp only <;> linarith
  case total =>
    rw [hleases, sessions_append]
    exact congrArg (· + 1) h.total
  case sum =>
    have hbefore := Dict.sum_eq_add_erase PeerRecord.active peerKey peers
    have hactive : (peers.lookup peerKey).elim 0 PeerRecord.active = peer.active := hactive
    rw [hrecords]
    show g.active + 1 = Dict.sum PeerRecord.active (peers.insert peerKey _)
    rw [Dict.sum_insert, h.sum, ← hthin.sum, hbefore, hactive]
    exact Nat.add_right_comm _ _ _
  case limit => exact hglobal
  case tokens =>
    have hburst := policy.globalRate.refill_le_burst g.tokens g.updated now
    have hbound : policy.globalRate.burst = policy.globalSessionBurst := rfl
    have htokens : 1 ≤ policy.globalRate.refill g.tokens g.updated now := htokens
    show 0 ≤ policy.globalRate.refill g.tokens g.updated now - 1 ∧
      policy.globalRate.refill g.tokens g.updated now - 1 ≤ _
    constructor <;> linarith

/-- Giving a lease back takes it out of both records. -/
theorem Counted.released {s s' : LeaseState} {g : GlobalRecord} (h : Counted policy s g) {i : Nat}
    {lease : AdmissionLease} (hlease : s.leases[i]? = some lease)
    (hstatus : lease.status = .releasing) {peer : PeerRecord}
    (hpeer : s.records.peers.lookup lease.peerKey = some peer) (hactive : 0 < g.active)
    (hpeerActive : 0 < peer.active) {now : ℚ}
    (hpeers : s'.records.peers = s.records.peers.insert lease.peerKey
      { peer with active := peer.active - 1, lastSeen := now })
    (hleases : s'.leases = s.leases.set i { lease with status := .released }) :
    Counted policy s' { g with active := g.active - 1 } := by
  have hself := sessionsOf_released hlease hstatus lease.peerKey
  have hcount : peer.active = sessionsOf s.leases lease.peerKey := by
    rw [← h.peers.active, activeOf, hpeer]
    rfl
  constructor
  case peers =>
    rw [hpeers, hleases]
    refine h.peers.insert (fun k hk => ?_) ?_ ?_ (h.peers.tokens _ peer hpeer) ?_
    · have hother := sessionsOf_released hlease hstatus k
      rw [if_neg (Ne.symm hk)] at hother
      exact hother
    · rw [if_pos rfl] at hself
      show peer.active - 1 = _
      omega
    · exact Nat.le_trans (Nat.sub_le _ _) (h.peers.limit _ peer hpeer)
    · rw [Dict.length_insert_of_lookup hpeer]
      exact h.peers.tracked
  case total =>
    have hall := sessions_released hlease hstatus
    have htotal := h.total
    rw [hleases]
    show g.active - 1 = _
    omega
  case sum =>
    have hbefore := Dict.sum_eq_add_erase PeerRecord.active lease.peerKey s.records.peers
    have hsum := h.sum
    rw [hpeer] at hbefore
    rw [hpeers, Dict.sum_insert]
    show g.active - 1 = peer.active - 1 + _
    have hold : (some peer).elim 0 PeerRecord.active = peer.active := rfl
    omega
  case limit => exact Nat.le_trans (Nat.sub_le _ _) h.limit
  case tokens => exact h.tokens

/-- **The step lemma.** -/
theorem Counted.step {s s' : LeaseState} {action : LeaseAction} {g : GlobalRecord}
    (hpolicy : policy.Accepted) (h : Counted policy s g) (hglobal : s.records.global = some g)
    (hstep : LeaseStep policy s action g s') : ∃ r, s'.records.global = some r ∧ Counted policy s' r := by
  cases hstep with
  | idle hrecords hleases =>
    rw [hrecords]
    refine ⟨g, hglobal, ?_⟩
    exact ⟨by rw [hrecords, hleases]; exact h.peers, by rw [hleases]; exact h.total,
      by rw [hrecords]; exact h.sum, h.limit, h.tokens⟩
  | noted i lease hlease hstatus hrecords hleases =>
    rw [hrecords]
    refine ⟨g, hglobal, ?_⟩
    have hof := sessionsOf_noted hlease hstatus
    refine ⟨?_, ?_, by rw [hrecords]; exact h.sum, h.limit, h.tokens⟩
    · rw [hrecords, hleases]
      exact ⟨fun k => (h.peers.active k).trans (hof k).symm, h.peers.limit, h.peers.tokens,
        h.peers.tracked⟩
    · rw [hleases, sessions_noted hlease hstatus]
      exact h.total
  | rejected now hreading peers hclock hpeers hrecords hleases =>
    have hthin : Thinned s.records.peers peers := by
      rcases hpeers with rfl | rfl
      · exact Thinned.refl _
      · exact thinned_pruned policy now _
    rw [hrecords]
    exact ⟨_, rfl, h.rejected hpolicy hclock hthin rfl (congrArg Records.peers hrecords) hleases⟩
  | admitted peerKey now hreading peer peers hclock hpeer hpeerClock hlimits hrecords hleases =>
    rcases hpeer with ⟨hpeer, rfl⟩ | ⟨hnone, rfl, rfl, hroom⟩
    · refine h.admitted (Thinned.refl _) ?_ (fun p => ?_) hlimits hrecords hleases
      · rw [activeOf, hpeer]
        rfl
      · rw [Dict.length_insert_of_lookup hpeer]
        exact h.peers.tracked
    · -- a peer that is not tracked has no sessions
      have hthin := thinned_pruned policy now s.records.peers
      refine h.admitted hthin ?_ (fun p => ?_) hlimits hrecords hleases
      · rw [hthin.activeOf, activeOf, hnone]
        rfl
      · exact Nat.le_trans (Dict.length_insert_le _ _ _) hroom
  | released i lease now hreading hlease hstatus peer hpeer hactive hpeerActive hrecords hleases =>
    rw [hrecords]
    exact ⟨_, rfl, h.released hlease hstatus hpeer hactive hpeerActive
      (congrArg Records.peers hrecords) hleases⟩

/-- The run lemma: as long as the worker is healthy its records count the leases. -/
theorem counted_reach (hpolicy : policy.Accepted) {now : ℚ} {s : LeaseState}
    (h : (leaseMachine policy).Reach Machine.always (.initial policy now) s)
    (hhealthy : s.records.healthy = true) :
    ∃ g, s.records.global = some g ∧ Counted policy s g := by
  induction h with
  | refl =>
    refine ⟨_, rfl, ⟨fun k => rfl, ?_, ?_, Nat.zero_le _⟩, rfl, rfl, Nat.zero_le _, ?_⟩
    · exact fun k p hp => by cases hp
    · exact fun k p hp => by cases hp
    · exact ⟨Nat.cast_nonneg _, le_refl _⟩
  | tail _ _ hnext ih =>
    rcases lease_steps hnext with ⟨hunhealthy, -⟩ | ⟨hbefore, g, hg, hstep⟩
    · exact Bool.noConfusion (hhealthy.symm.trans hunhealthy)
    · obtain ⟨g', hg', hcounted⟩ := ih hbefore
      cases hg.symm.trans hg'
      exact hcounted.step hpolicy hg hstep

/-- **The counters of sessions.** In every run of `acquire` and releases by any peers, in every state in
which the worker is healthy, both records count the sessions that are granted and not released, no peer
has more of them than it may have, nor has the worker, the tracked peers stay within their number, a
peer with a session is tracked, and no bucket is overdrawn or overfull. -/
theorem sessions_counted (hpolicy : policy.Accepted) {now : ℚ} {s : LeaseState}
    (h : (leaseMachine policy).Reach Machine.always (.initial policy now) s)
    (hhealthy : s.records.healthy = true) :
    ∃ g, s.records.global = some g ∧
      g.active = Dict.sum PeerRecord.active s.records.peers ∧
      g.active = s.leases.countP AdmissionLease.active ∧
      g.active ≤ policy.maxActiveSessions ∧
      0 ≤ g.tokens ∧ g.tokens ≤ policy.globalSessionBurst ∧
      (∀ peerKey peer, s.records.peers.lookup peerKey = some peer →
        peer.active ≤ policy.maxActiveSessionsPerPeer ∧
          0 ≤ peer.tokens ∧ peer.tokens ≤ policy.peerSessionBurst) ∧
      s.records.peers.entries.length ≤ policy.maxTrackedPeers ∧
      ∀ lease ∈ s.leases, lease.active = true →
        ∃ peer, s.records.peers.lookup lease.peerKey = some peer ∧
          peer.active = s.leases.countP fun l => l.active && l.peerKey = lease.peerKey := by
  obtain ⟨g, hg, hcounted⟩ := counted_reach hpolicy h hhealthy
  refine ⟨g, hg, hcounted.sum, hcounted.total, hcounted.limit, hcounted.tokens.1, hcounted.tokens.2,
    fun k p hp => ⟨hcounted.peers.limit k p hp, hcounted.peers.tokens k p hp⟩,
    hcounted.peers.tracked, fun lease hlease hactive => ?_⟩
  have hcount := hcounted.peers.active lease.peerKey
  have hpos : 0 < sessionsOf s.leases lease.peerKey := by
    refine List.countP_pos_iff.mpr ⟨lease, hlease, ?_⟩
    rw [hactive, decide_eq_true rfl]
    rfl
  rw [activeOf] at hcount
  cases hpeer : s.records.peers.lookup lease.peerKey with
  | none =>
    rw [hpeer] at hcount
    exact absurd hcount (Nat.ne_of_lt hpos)
  | some peer =>
    rw [hpeer] at hcount
    exact ⟨peer, rfl, hcount⟩

/-- A worker with its one session, which has turned another peer away. -/
def singleSession : LeaseState :=
  ((leaseMachine .single).run (.initial .single 0)
    [.acquire "peer:a" (some 1) [], .acquire "peer:b" (some 2) []]).getD (.initial .single 0)

theorem sessions_counted_single :
    singleSession.leases = [⟨"peer:a", .granted⟩] ∧
      ∃ g, singleSession.records.global = some g ∧
        g.active = Dict.sum PeerRecord.active singleSession.records.peers ∧
        g.active = singleSession.leases.countP AdmissionLease.active := by
  have hreach : (leaseMachine .single).Reach Machine.always (.initial .single 0) singleSession :=
    Machine.reach_getD (by decide +kernel) (Machine.along_always _ _)
  obtain ⟨g, hg, hsum, hcount, -⟩ :=
    sessions_counted AdmissionPolicy.single_accepted hreach (by decide +kernel)
  exact ⟨by decide +kernel, g, hg, hsum, hcount⟩

end Drift.Server
