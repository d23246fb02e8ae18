import Drift.Server.AdmissionLeases

/-!
# Clock readings of `acquire`

`acquire` and `_release` read the clock before they ask for the lock, so a handler may enter its section
after another one that has read the clock later. The section stores the reading it came with, and
`_refill` raises for a reading that is older than the stored one.

Handlers share one clock that never goes back. A call waits between its reading and its section, and any
call that waits may enter next.

* `clockedMachine` — the runs;
* `Finds` — what `acquire` asks for: health, capacity, a record for the peer, and a token in each bucket;
* `Behind` — the invariant: no record of a peer is newer than the global one;
* `accepted_iff` — when a call that finds all this is accepted.
-/

namespace Drift.Server

open Drift.Lib Program

/-! ### Runs -/

/-- A call that reads the clock: `acquire` of a peer, and `_release` of a lease. -/
inductive ClockedCall
  | acquire (peerKey : String)
  | release (i : Nat)
  deriving DecidableEq, Repr

/-- The section of a call that has read `now`. -/
def ClockedCall.action (now : ℚ) (answers : List Bool) : ClockedCall → LeaseAction
  | .acquire peerKey => .acquire peerKey (some now) answers
  | .release i => .finish i (some now) answers

/-- The clock of the host, the calls that have read it and wait for their sections, and what the handlers
share. -/
structure ClockedWorker where
  time : ℚ
  calls : List (ClockedCall × ℚ)
  shared : LeaseState

inductive ClockedAction
  /-- Time passes. -/
  | tick (elapsed : ℚ)
  /-- A handler calls `acquire` or `_release`, which reads the clock. -/
  | call (call : ClockedCall)
  /-- The `k`-th of the calls that wait asks for the lock and runs its section. -/
  | enter (k : Nat) (answers : List Bool)
  /-- `AdmissionLease.release`, up to the call of `_release`. -/
  | note (i : Nat)
  | markUnhealthy (answers : List Bool)

namespace ClockedWorker

/-- A new worker. -/
def initial (policy : AdmissionPolicy) (now : ℚ) : ClockedWorker := ⟨now, [], .initial policy now⟩

/-- A step of the shared state. -/
def share (policy : AdmissionPolicy) (s : ClockedWorker) (action : LeaseAction) :
    Option ClockedWorker :=
  ((leaseMachine policy).next s.shared action).map fun t => { s with shared := t }

def next (policy : AdmissionPolicy) (s : ClockedWorker) : ClockedAction → Option ClockedWorker
  | .tick elapsed => if 0 ≤ elapsed then some { s with time := s.time + elapsed } else none
  | .call call => some { s with calls := s.calls ++ [(call, s.time)] }
  | .enter k answers =>
    match s.calls[k]? with
    | none => none
    | some (call, now) =>
      { s with calls := s.calls.eraseIdx k }.share policy (call.action now answers)
  | .note i => s.share policy (.release i)
  | .markUnhealthy answers => s.share policy (.markUnhealthy answers)

end ClockedWorker

/-- The runs of the handlers of a worker. -/
def clockedMachine (policy : AdmissionPolicy) : Machine ClockedWorker ClockedAction :=
  ⟨ClockedWorker.next policy⟩

variable {policy : AdmissionPolicy}

theorem share_shared {s s' : ClockedWorker} {action : LeaseAction}
    (h : s.share policy action = some s') :
    (leaseMachine policy).next s.shared action = some s'.shared := by
  obtain ⟨t, ht, rfl⟩ := Option.map_eq_some_iff.mp h
  exact ht

/-- A step leaves what is shared, or makes one step with it. -/
theorem shared_cases {s s' : ClockedWorker} {action : ClockedAction}
    (h : (clockedMachine policy).next s action = some s') :
    s'.shared = s.shared ∨
      ∃ leaseAction, (leaseMachine policy).next s.shared leaseAction = some s'.shared := by
  replace h : s.next policy action = some s' := h
  cases action with
  | tick elapsed =>
    rw [ClockedWorker.next] at h
    split at h
    · cases h
      exact Or.inl rfl
    · cases h
  | call call =>
    cases h
    exact Or.inl rfl
  | enter k answers =>
    rw [ClockedWorker.next] at h
    split at h
    · cases h
    · next call now hcall =>
      exact Or.inr ⟨_, share_shared (s := { s with calls := s.calls.eraseIdx k }) h⟩
  | note i => exact Or.inr ⟨_, share_shared h⟩
  | markUnhealthy answers => exact Or.inr ⟨_, share_shared h⟩

/-- What is shared goes through a run of leases. -/
theorem shared_reach {start : ℚ} {s : ClockedWorker}
    (h : (clockedMachine policy).Reach Machine.always (.initial policy start) s) :
    (leaseMachine policy).Reach Machine.always (.initial policy start) s.shared := by
  induction h with
  | refl => exact .refl
  | tail _ _ hnext ih =>
    rcases shared_cases hnext with hsame | ⟨leaseAction, hstep⟩
    · rw [hsame]
      exact ih
    · exact ih.tail trivial hstep

/-! ### Records of peers are never newer than the global one -/

/-- No record of a peer was updated later than at the given time. -/
def Behind (updated : ℚ) (peers : Dict String PeerRecord) : Prop :=
  ∀ peerKey peer, peers.lookup peerKey = some peer → peer.updated ≤ updated

theorem Behind.thin {updated now : ℚ} {peers peers' : Dict String PeerRecord} (h : Behind updated peers)
    (hthin : Thinned peers peers') (hclock : updated ≤ now) : Behind now peers' :=
  fun peerKey peer hpeer => le_trans (h peerKey peer (hthin.lookup_some hpeer)) hclock

theorem Behind.insert {updated : ℚ} {peers : Dict String PeerRecord} (h : Behind updated peers)
    {peerKey : String} {peer : PeerRecord} (hpeer : peer.updated ≤ updated) :
    Behind updated (peers.insert peerKey peer) := by
  intro k peer' hpeer'
  rw [Dict.lookup_insert_eq] at hpeer'
  split at hpeer'
  · cases hpeer'
    exact hpeer
  · exact h k peer' hpeer'

/-- The step lemma. -/
theorem Behind.step {s s' : LeaseState} {action : LeaseAction} {g : GlobalRecord}
    (h : Behind g.updated s.records.peers) (hglobal : s.records.global = some g)
    (hstep : LeaseStep policy s action g s') :
    ∃ r, s'.records.global = some r ∧ Behind r.updated s'.records.peers := by
  cases hstep with
  | idle hrecords =>
    rw [hrecords]
    exact ⟨g, hglobal, h⟩
  | noted i lease hlease hstatus hrecords =>
    rw [hrecords]
    exact ⟨g, hglobal, h⟩
  | rejected now hreading peers hclock hpeers hrecords =>
    have hthin : Thinned s.records.peers peers := by
      rcases hpeers with rfl | rfl
      · exact Thinned.refl _
      · exact thinned_pruned policy now _
    rw [hrecords]
    exact ⟨_, rfl, h.thin hthin hclock⟩
  | admitted peerKey now hreading peer peers hclock hpeer hpeerClock hlimits hrecords =>
    have hthin : Thinned s.records.peers peers := by
      rcases hpeer with ⟨-, rfl⟩ | ⟨-, -, rfl, -⟩
      · exact Thinned.refl _
      · exact thinned_pruned policy now _
    rw [hrecords]
    exact ⟨_, rfl, (h.thin hthin hclock).insert (le_refl now)⟩
  | released i lease now hreading hlease hstatus peer hpeer hactive hpeerActive hrecords =>
    rw [hrecords]
    exact ⟨_, rfl, h.insert (h _ peer hpeer)⟩

/-- The run lemma. -/
theorem behind_reach {start : ℚ} {s : LeaseState}
    (h : (leaseMachine policy).Reach Machine.always (.initial policy start) s)
    (hhealthy : s.records.healthy = true) :
    ∃ g, s.records.global = some g ∧ Behind g.updated s.records.peers := by
  induction h with
  | refl => exact ⟨_, rfl, fun _ _ hpeer => by cases hpeer⟩
  | tail _ _ hnext ih =>
    rcases lease_steps hnext with ⟨hunhealthy, -⟩ | ⟨hbefore, g, hg, hstep⟩
    · exact Bool.noConfusion (hhealthy.symm.trans hunhealthy)
    · obtain ⟨g', hg', hbehind⟩ := ih hbefore
      cases hg.symm.trans hg'
      exact hbehind.step hg hstep

/-! ### What `acquire` asks for -/

/-- What a bucket holds for a call that has read `now`. A reading that is older than the stored one adds
nothing. -/
def tokensFor (rate : Rate ℚ) (tokens updated now : ℚ) : ℚ :=
  rate.refill tokens updated (max updated now)

/-- There is a record for a new peer: one that is free, or one of an idle peer. -/
def Trackable (policy : AdmissionPolicy) (now : ℚ) (peers : Dict String PeerRecord) : Prop :=
  peers.entries.length < policy.maxTrackedPeers ∨
    ∃ key peer, peers.lookup key = some peer ∧ peer.Idle policy now

/-- The peer can be tracked, has a session left, and a token. The bucket of a new peer is full. -/
def PeerFits (policy : AdmissionPolicy) (now : ℚ) (peers : Dict String PeerRecord) (peerKey : String) :
    Prop :=
  match peers.lookup peerKey with
  | some peer =>
    peer.active < policy.maxActiveSessionsPerPeer ∧
      1 ≤ tokensFor policy.peerRate peer.tokens peer.updated now
  | none => Trackable policy now peers

/-- What a call of `acquire` with the reading `now` finds when it is to be accepted. -/
structure Finds (policy : AdmissionPolicy) (s : Records) (peerKey : String) (now : ℚ)
    (g : GlobalRecord) : Prop where
  healthy : s.healthy = true
  global : s.global = some g
  capacity : g.active < policy.maxActiveSessions
  token : 1 ≤ tokensFor policy.globalRate g.tokens g.updated now
  peer : PeerFits policy now s.peers peerKey

theorem tokensFor_of_le {rate : Rate ℚ} {tokens updated now : ℚ} (h : updated ≤ now) :
    tokensFor rate tokens updated now = rate.refill tokens updated now := by
  rw [tokensFor, max_eq_right h]

/-! ### Room for a new peer -/

theorem prunedBy_of_lt {candidates : List (ℚ ×ₗ String)} {peers : Dict String PeerRecord}
    (h : peers.entries.length < policy.maxTrackedPeers) : prunedBy policy candidates peers = peers := by
  cases candidates with
  | nil => rfl
  | cons c candidates => rw [prunedBy, if_pos h]

theorem mem_pruneCandidates_of_idle {now : ℚ} {peers : Dict String PeerRecord} {key : String}
    {peer : PeerRecord} (hpeer : peers.lookup key = some peer) (hidle : peer.Idle policy now) :
    toLex (peer.lastSeen, key) ∈ pruneCandidates policy now peers := by
  rw [pruneCandidates, Dict.mem_sorted, List.mem_map]
  refine ⟨⟨key, peer⟩, List.mem_filter.mpr ⟨AList.mem_lookup_iff.mp hpeer, ?_⟩, rfl⟩
  rw [Bool.and_eq_true, beq_iff_eq, decide_eq_true_eq]
  exact hidle

/-- One idle peer is enough: the loop stops as soon as there is room. -/
theorem length_pruned_lt {now : ℚ} {peers : Dict String PeerRecord}
    (hlength : peers.entries.length ≤ policy.maxTrackedPeers) (h : Trackable policy now peers) :
    (pruned policy now peers).entries.length < policy.maxTrackedPeers := by
  by_cases hroom : peers.entries.length < policy.maxTrackedPeers
  · rw [pruned, prunedBy_of_lt hroom]
    exact hroom
  obtain ⟨key, peer, hpeer, hidle⟩ := h.resolve_left hroom
  have hmem := mem_pruneCandidates_of_idle hpeer hidle
  unfold pruned
  cases hcandidates : pruneCandidates policy now peers with
  | nil =>
    rw [hcandidates] at hmem
    exact absurd hmem List.not_mem_nil
  | cons c candidates =>
    have hc : c ∈ pruneCandidates policy now peers := by
      rw [hcandidates]
      exact List.mem_cons_self
    obtain ⟨dropped, hdropped, -⟩ := mem_pruneCandidates hc
    have hless : (peers.erase (ofLex c).2).entries.length < policy.maxTrackedPeers := by
      have hperm := (Dict.perm_erase hdropped).length_eq
      rw [List.length_cons] at hperm
      omega
    rw [prunedBy, if_neg hroom, prunedBy_of_lt hless]
    exact hless

/-! ### What `acquire` decides -/

/-- A call that finds what it asks for is admitted if its reading is not older than the records. -/
theorem acquireSection_admits {s : Records} {peerKey : String} {now : ℚ} {g : GlobalRecord}
    (hpolicy : policy.Accepted) (hfinds : Finds policy s peerKey now g)
    (hbehind : Behind g.updated s.peers) (htracked : s.peers.entries.length ≤ policy.maxTrackedPeers)
    (hclock : g.updated ≤ now) (answers : List Bool) :
    ((acquireSection policy peerKey now).run answers s).1 = .ok (.lease peerKey) := by
  have htoken := hfinds.token
  have hfits := hfinds.peer
  rw [tokensFor_of_le hclock] at htoken
  rw [acquireSection_run policy peerKey now answers hfinds.healthy hfinds.global,
    if_neg (not_lt.mpr hclock)]
  unfold PeerFits at hfits
  cases hpeer : s.peers.lookup peerKey with
  | some peer =>
    rw [hpeer] at hfits
    obtain ⟨hsessions, hpeerToken⟩ := hfits
    have hpeerClock : peer.updated ≤ now := le_trans (hbehind peerKey peer hpeer) hclock
    rw [tokensFor_of_le hpeerClock] at hpeerToken
    have hlimits : ¬ Limited policy (g.refilled policy now) peer now := by
      rintro (hglobal | hpeer | hempty | hempty)
      · exact absurd hfinds.capacity (not_lt.mpr hglobal)
      · exact absurd hsessions (not_lt.mpr hpeer)
      · exact absurd htoken (not_le.mpr hempty)
      · exact absurd hpeerToken (not_le.mpr hempty)
    simp only
    rw [admitSession_run, if_neg (not_lt.mpr hpeerClock), if_neg hlimits]
  | none =>
    rw [hpeer] at hfits
    have hroom := length_pruned_lt htracked hfits
    -- a new peer has a full bucket and no sessions
    obtain ⟨hsession, hburst⟩ := hpolicy.peerLimits
    have hfull : policy.peerRate.refill policy.peerSessionBurst now now = policy.peerSessionBurst := by
      have hgain : (policy.peerSessionBurst : ℚ) + (now - now) * policy.peerSessionRate =
          policy.peerSessionBurst := by rw [sub_self, zero_mul, add_zero]
      show min (policy.peerSessionBurst : ℚ) _ = _
      rw [show policy.peerRate.rate = policy.peerSessionRate from rfl, hgain, min_self]
    have hfresh : ¬ now < (PeerRecord.fresh policy now).updated := lt_irrefl now
    have hlimits : ¬ Limited policy (g.refilled policy now) (.fresh policy now) now := by
      rintro (hglobal | hpeer | hempty | hempty)
      · exact absurd hfinds.capacity (not_lt.mpr hglobal)
      · exact absurd hpeer (not_le.mpr hsession)
      · exact absurd htoken (not_le.mpr hempty)
      · rw [PeerRecord.fresh, hfull] at hempty
        have hone : (1 : ℚ) ≤ policy.peerSessionBurst := by exact_mod_cast hburst
        exact absurd hone (not_le.mpr hempty)
    simp only
    rw [if_neg (not_le.mpr hroom), admitSession_run, if_neg hfresh, if_neg hlimits]

theorem acquired_decisions (s : LeaseState) (now : Option ℚ) (result : Outcome × Records) :
    (s.acquired now result).decisions = s.decisions ++ [result.1] := by
  unfold LeaseState.acquired
  split <;> rfl

/-- A call with an older reading is turned away whatever it finds. -/
theorem acquireSection_refuses {s : Records} {peerKey : String} {now : ℚ} {g : GlobalRecord}
    (hhealthy : s.healthy = true) (hglobal : s.global = some g) (hclock : now < g.updated)
    (answers : List Bool) :
    (acquireSection policy peerKey now).run answers s = (.error .unavailable, s) := by
  rw [acquireSection_run policy peerKey now answers hhealthy hglobal, if_pos hclock]

/-- **Spurious rejections.** In every run of any number of handlers that share one clock, whatever the
order of the sections, a call of `acquire` that is granted the lock and finds a healthy worker with room
and tokens is accepted exactly if no section has stored a later reading than its own. -/
theorem accepted_iff (hpolicy : policy.Accepted) {start : ℚ} {s : ClockedWorker}
    (h : (clockedMachine policy).Reach Machine.always (.initial policy start) s) {k : Nat}
    {peerKey : String} {now : ℚ} (hcall : s.calls[k]? = some (.acquire peerKey, now))
    {g : GlobalRecord} (hfinds : Finds policy s.shared.records peerKey now g) {answers : List Bool}
    (hgranted : answers.headD true = true) :
    ∃ s' decision, (clockedMachine policy).next s (.enter k answers) = some s' ∧
      s'.shared.decisions = s.shared.decisions ++ [decision] ∧
      (decision = .ok (.lease peerKey) ↔ g.updated ≤ now) := by
  have hshared := shared_reach h
  obtain ⟨g', hg', hcounted⟩ := counted_reach hpolicy hshared hfinds.healthy
  obtain ⟨g'', hg'', hbehind⟩ := behind_reach hshared hfinds.healthy
  cases hfinds.global.symm.trans hg'
  cases hfinds.global.symm.trans hg''
  obtain ⟨s', hs', hdecisions⟩ : ∃ s', (clockedMachine policy).next s (.enter k answers) = some s' ∧
      s'.shared.decisions = s.shared.decisions ++
        [((acquireSection policy peerKey now).run answers.tail s.shared.records).1] := by
    show ∃ s', s.next policy (.enter k answers) = some s' ∧ _
    rw [ClockedWorker.next, hcall]
    refine ⟨_, rfl, ?_⟩
    have hrun := acquire_run policy peerKey now answers s.shared.records
    rw [if_pos hgranted] at hrun
    rw [← hrun]
    exact acquired_decisions s.shared (some now) _
  refine ⟨s', _, hs', hdecisions, ?_⟩
  constructor
  · intro haccepted
    by_contra hclock
    rw [acquireSection_refuses hfinds.healthy hfinds.global (not_le.mp hclock)] at haccepted
    cases haccepted
  · exact fun hclock =>
      acquireSection_admits hpolicy hfinds hbehind hcounted.peers.tracked hclock answers.tail

/-- A worker at its start, with one call that waits. -/
def oneCall : ClockedWorker :=
  ((clockedMachine .single).run (.initial .single 0) [.call (.acquire "peer:a")]).getD
    (.initial .single 0)

theorem accepted_iff_at_start :
    ∃ s' decision, (clockedMachine .single).next oneCall (.enter 0 []) = some s' ∧
      s'.shared.decisions = oneCall.shared.decisions ++ [decision] ∧
      (decision = .ok (.lease "peer:a") ↔ (0 : ℚ) ≤ 0) := by
  have hreach : (clockedMachine .single).Reach Machine.always (.initial .single 0) oneCall :=
    Machine.reach_getD (by rfl) (Machine.along_always _ _)
  have hroom : Trackable .single 0 oneCall.shared.records.peers := Or.inl (by decide)
  have hfinds : Finds .single oneCall.shared.records "peer:a" 0 ⟨0, 1, 0, 0, 0, true⟩ :=
    ⟨rfl, by decide +kernel, by decide, by decide +kernel, hroom⟩
  exact accepted_iff AdmissionPolicy.single_accepted hreach (by decide +kernel) hfinds rfl

/-- Room for two sessions, and two tokens in each bucket. -/
def twoSessions : AdmissionPolicy := ⟨2, 2, 1, 2, 1, 2, 2, 2, 1⟩

/-- The call that has read the clock first waits, and the second one has been admitted. -/
def overtaken : ClockedWorker :=
  ((clockedMachine twoSessions).run (.initial twoSessions 0)
    [.call (.acquire "peer:a"), .tick 1, .call (.acquire "peer:b"), .enter 1 []]).getD
      (.initial twoSessions 0)

/-- There are room and tokens for the first one too, and it is turned away. -/
theorem overtaken_call_is_rejected :
    twoSessions.Accepted ∧
      (clockedMachine twoSessions).Reach Machine.always (.initial twoSessions 0) overtaken ∧
      overtaken.calls[0]? = some (.acquire "peer:a", 0) ∧
      Finds twoSessions overtaken.shared.records "peer:a" 0 ⟨1, 1, 1, 1, 0, true⟩ ∧
      ((clockedMachine twoSessions).next overtaken (.enter 0 [])).map (·.shared.decisions) =
        some [.ok (.lease "peer:b"), .error .unavailable] := by
  have hroom : PeerFits twoSessions 0 overtaken.shared.records.peers "peer:a" := by
    have hnew : overtaken.shared.records.peers.lookup "peer:a" = none := by decide +kernel
    rw [PeerFits, hnew]
    exact Or.inl (by decide +kernel)
  refine ⟨by decide +kernel, Machine.reach_getD (by decide +kernel) (Machine.along_always _ _),
    by decide +kernel, ?_, by decide +kernel⟩
  exact ⟨by decide +kernel, by decide +kernel, by decide +kernel, by decide +kernel, hroom⟩

end Drift.Server
