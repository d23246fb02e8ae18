import Drift.Server.Admission

/-!
# Operations on their own

What an operation of `AdmissionState` does to the records when no other one comes in between. All of an
operation's accesses but the flag of `mark_unhealthy` are made under the lock, so that this is what it
does in any case: the flag is never read again once a section has found the worker healthy.

* `acquireSection_run`, `releaseSection_run` — the two sections of a lease, as equations;
* `Records.pruned` — the records of peers that `_prune_inactive_peers` leaves;
* `LeaseMachine` — runs of `acquire` and `release` by any peers.
-/

namespace Drift.Server

open Drift.Lib Program

/-- `_is_healthy_locked`, as a view of the records. -/
def Records.healthy (s : Records) : Bool := s.health && s.global.any GlobalRecord.healthy

theorem Records.healthy_of_health {s : Records} (h : s.health = false) : s.healthy = false := by
  rw [Records.healthy, h]
  rfl

theorem Records.healthy_iff {s : Records} :
    s.healthy = true ↔ s.health = true ∧ ∃ g, s.global = some g ∧ g.healthy = true := by
  rw [Records.healthy, Bool.and_eq_true, Option.any_eq_true]

/-- The records after `_mark_unhealthy_locked`. -/
def Records.poison (s : Records) : Records :=
  { s with
    health := false
    global := some <| match s.global with
      | some r => { r with healthy := false }
      | none => ⟨0, 0, 0, 0, 0, false⟩ }

theorem isHealthyLocked_run (k : Bool → Operation) (answers : List Bool) (s : Records) :
    (isHealthyLocked k).run answers s = (k s.healthy).run answers s := rfl

theorem markUnhealthyLocked_run (k : Operation) (answers : List Bool) (s : Records) :
    (markUnhealthyLocked k).run answers s = k.run answers s.poison := rfl

theorem Records.poison_healthy (s : Records) : s.poison.healthy = false := rfl

/-! ### Pruning -/

/-- The peers that the loop of `_prune_inactive_peers` leaves. -/
def prunedBy (policy : AdmissionPolicy) : List (ℚ ×ₗ String) → Dict String PeerRecord →
    Dict String PeerRecord
  | [], peers => peers
  | candidate :: candidates, peers =>
    if peers.entries.length < policy.maxTrackedPeers then peers
    else prunedBy policy candidates (peers.erase (ofLex candidate).2)

/-- The peers that `_prune_inactive_peers` leaves. -/
def pruned (policy : AdmissionPolicy) (now : ℚ) (peers : Dict String PeerRecord) :
    Dict String PeerRecord :=
  prunedBy policy (pruneCandidates policy now peers) peers

/-- The peer may be dropped. -/
def PeerRecord.Idle (policy : AdmissionPolicy) (now : ℚ) (peer : PeerRecord) : Prop :=
  peer.active = 0 ∧ policy.trackedPeerTtl ≤ now - peer.lastSeen

theorem mem_pruneCandidates {policy : AdmissionPolicy} {now : ℚ} {peers : Dict String PeerRecord}
    {candidate : ℚ ×ₗ String} (h : candidate ∈ pruneCandidates policy now peers) :
    ∃ peer, peers.lookup (ofLex candidate).2 = some peer ∧ peer.Idle policy now := by
  rw [pruneCandidates, Dict.mem_sorted, List.mem_map] at h
  obtain ⟨⟨key, peer⟩, hmem, rfl⟩ := h
  obtain ⟨hentry, hidle⟩ := List.mem_filter.mp hmem
  rw [Bool.and_eq_true, beq_iff_eq, decide_eq_true_eq] at hidle
  exact ⟨peer, AList.mem_lookup_iff.mpr hentry, hidle⟩

/-- What dropping an idle peer keeps, pruning keeps. -/
theorem pruned_induction {policy : AdmissionPolicy} {now : ℚ} {peers : Dict String PeerRecord}
    {P : Dict String PeerRecord → Prop} (h : P peers)
    (herase : ∀ d key peer, P d → peers.lookup key = some peer → peer.Idle policy now →
      P (d.erase key)) :
    P (pruned policy now peers) := by
  have hloop : ∀ (candidates : List (ℚ ×ₗ String)) (d : Dict String PeerRecord),
      (∀ c ∈ candidates, c ∈ pruneCandidates policy now peers) → P d →
        P (prunedBy policy candidates d) := by
    intro candidates
    induction candidates with
    | nil => exact fun _ _ hd => hd
    | cons c candidates ih =>
      intro d hmem hd
      rw [prunedBy]
      split
      · exact hd
      · obtain ⟨peer, hpeer, hidle⟩ := mem_pruneCandidates (hmem c List.mem_cons_self)
        exact ih _ (fun c' hc' => hmem c' (List.mem_cons_of_mem _ hc')) (herase d _ peer hd hpeer hidle)
  exact hloop _ _ (fun _ h => h) h

/-- A peer is left as it was, or was idle and is dropped. -/
theorem lookup_pruned (policy : AdmissionPolicy) (now : ℚ) (peers : Dict String PeerRecord)
    (key : String) :
    (pruned policy now peers).lookup key = peers.lookup key ∨
      (pruned policy now peers).lookup key = none ∧
        ∃ peer, peers.lookup key = some peer ∧ peer.Idle policy now := by
  refine pruned_induction (P := fun d => d.lookup key = peers.lookup key ∨
    d.lookup key = none ∧ ∃ peer, peers.lookup key = some peer ∧ peer.Idle policy now) (Or.inl rfl) ?_
  intro d key' peer hd hpeer hidle
  by_cases hkey : key = key'
  · subst hkey
    exact Or.inr ⟨AList.lookup_erase key d, peer, hpeer, hidle⟩
  · rw [AList.lookup_erase_ne hkey]
    exact hd

/-- Records of peers of which some without active sessions may have been dropped. -/
structure Thinned (peers peers' : Dict String PeerRecord) : Prop where
  lookup : ∀ key, peers'.lookup key = peers.lookup key ∨
    peers'.lookup key = none ∧ ∃ peer, peers.lookup key = some peer ∧ peer.active = 0
  sum : Dict.sum PeerRecord.active peers' = Dict.sum PeerRecord.active peers
  length : peers'.entries.length ≤ peers.entries.length

theorem Thinned.refl (peers : Dict String PeerRecord) : Thinned peers peers :=
  ⟨fun _ => Or.inl rfl, rfl, Nat.le_refl _⟩

theorem Thinned.erase {peers d : Dict String PeerRecord} (h : Thinned peers d) {key : String}
    {peer : PeerRecord} (hpeer : peers.lookup key = some peer) (hactive : peer.active = 0) :
    Thinned peers (d.erase key) where
  lookup := fun key' => by
    by_cases hkey : key' = key
    · subst hkey
      exact Or.inr ⟨AList.lookup_erase key' d, peer, hpeer, hactive⟩
    · rw [AList.lookup_erase_ne hkey]
      exact h.lookup key'
  sum := by
    have hnone : (d.lookup key).elim 0 PeerRecord.active = 0 := by
      rcases h.lookup key with hsame | ⟨hdropped, -⟩
      · rw [hsame, hpeer]
        exact hactive
      · rw [hdropped]
        rfl
    rw [← h.sum, Dict.sum_eq_add_erase PeerRecord.active key d, hnone, Nat.zero_add]
  length := Nat.le_trans (List.kerase_sublist key d.entries).length_le h.length

theorem thinned_pruned (policy : AdmissionPolicy) (now : ℚ) (peers : Dict String PeerRecord) :
    Thinned peers (pruned policy now peers) :=
  pruned_induction (Thinned.refl peers) fun _ _ _ hd hpeer hidle => hd.erase hpeer hidle.1

theorem pruneLoop_run (policy : AdmissionPolicy) (k : Operation) (answers : List Bool) :
    ∀ (candidates : List (ℚ ×ₗ String)) (s : Records),
      (pruneLoop policy k candidates).run answers s =
        k.run answers { s with peers := prunedBy policy candidates s.peers }
  | [], _ => rfl
  | candidate :: candidates, s => by
    rw [pruneLoop, run_read, prunedBy, trackedPeerCount]
    split
    · rfl
    · exact pruneLoop_run policy k answers candidates _

theorem pruneInactivePeers_run (policy : AdmissionPolicy) (now : ℚ) (k : Operation)
    (answers : List Bool) (s : Records) :
    (pruneInactivePeers policy now k).run answers s =
      k.run answers { s with peers := pruned policy now s.peers } :=
  pruneLoop_run policy k answers _ s

/-! ### Leases -/

/-- One of the limits that `acquire` checks after the refills is reached. -/
def Limited (policy : AdmissionPolicy) (global : GlobalRecord) (peer : PeerRecord) (now : ℚ) : Prop :=
  global.active ≥ policy.maxActiveSessions ∨ peer.active ≥ policy.maxActiveSessionsPerPeer ∨
    global.tokens < 1 ∨ policy.peerRate.refill peer.tokens peer.updated now < 1

instance (policy : AdmissionPolicy) (global : GlobalRecord) (peer : PeerRecord) (now : ℚ) :
    Decidable (Limited policy global peer now) :=
  inferInstanceAs (Decidable (_ ∨ _ ∨ _ ∨ _))

/-- The records after `_reject`. -/
def Records.rejected (s : Records) (global : GlobalRecord) (now : ℚ) : Records :=
  { s with global := some { global with updated := now, rejected := global.rejected + 1 } }

/-- The records after a session was admitted. -/
def Records.admitted (s : Records) (policy : AdmissionPolicy) (peerKey : String) (now : ℚ)
    (global : GlobalRecord) (peer : PeerRecord) : Records :=
  { s with
    global := some ⟨global.active + 1, global.tokens - 1, now, global.accepted + 1, global.rejected,
      true⟩
    peers := s.peers.insert peerKey
      ⟨peer.active + 1, policy.peerRate.refill peer.tokens peer.updated now - 1, now, now⟩ }

theorem admitSession_run (policy : AdmissionPolicy) (peerKey : String) (now : ℚ) (global : GlobalRecord)
    (peer : PeerRecord) (answers : List Bool) (s : Records) :
    (admitSession policy peerKey now global peer).run answers s =
      if now < peer.updated then (.error .unavailable, s)
      else if Limited policy global peer now then (.error .overload, s.rejected global now)
      else (.ok (.lease peerKey), s.admitted policy peerKey now global peer) := by
  unfold admitSession refill Limited
  by_cases hclock : now < peer.updated
  · rw [if_pos hclock, if_pos hclock]
    rfl
  rw [if_neg hclock, if_neg hclock]
  by_cases hactive : global.active ≥ policy.maxActiveSessions
  · simp only [hactive, true_or, if_true]
    rfl
  by_cases hpeer : peer.active ≥ policy.maxActiveSessionsPerPeer
  · simp only [hactive, hpeer, true_or, or_true, if_true, if_false]
    rfl
  by_cases htokens :
      global.tokens < 1 ∨ policy.peerRate.refill peer.tokens peer.updated now < 1
  · simp only [hactive, hpeer, htokens, or_true, if_true, if_false]
    rfl
  · simp only [hactive, hpeer, htokens, or_false, if_false]
    rfl

/-- The global record with its bucket refilled. -/
def GlobalRecord.refilled (global : GlobalRecord) (policy : AdmissionPolicy) (now : ℚ) :
    GlobalRecord :=
  { global with
    tokens := policy.globalRate.refill global.tokens global.updated now
    updated := now }

/-- The record that is made for a peer which is not tracked. -/
def PeerRecord.fresh (policy : AdmissionPolicy) (now : ℚ) : PeerRecord :=
  ⟨0, policy.peerSessionBurst, now, now⟩

/-- The section of `acquire` refuses an unhealthy worker. -/
theorem acquireSection_run_unhealthy (policy : AdmissionPolicy) (peerKey : String) (now : ℚ)
    (answers : List Bool) {s : Records} (h : s.healthy = false) :
    (acquireSection policy peerKey now).run answers s = (.error .unavailable, s) := by
  rw [acquireSection, run_read, isHealthyLocked_run, h]
  rfl

/-- The section of `acquire` in a healthy worker. -/
theorem acquireSection_run (policy : AdmissionPolicy) (peerKey : String) (now : ℚ)
    (answers : List Bool) {s : Records} {g : GlobalRecord} (h : s.healthy = true)
    (hg : s.global = some g) :
    (acquireSection policy peerKey now).run answers s =
      if now < g.updated then (.error .unavailable, s)
      else match s.peers.lookup peerKey with
        | some peer => (admitSession policy peerKey now (g.refilled policy now) peer).run answers s
        | none =>
          if (pruned policy now s.peers).entries.length ≥ policy.maxTrackedPeers then
            (.error .overload,
              { s with peers := pruned policy now s.peers }.rejected (g.refilled policy now) now)
          else
            (admitSession policy peerKey now (g.refilled policy now) (.fresh policy now)).run answers
              { s with peers := pruned policy now s.peers } := by
  rw [acquireSection, run_read, isHealthyLocked_run, h, hg]
  simp only [Bool.not_true, Bool.false_eq_true, if_false, refill]
  by_cases hclock : now < g.updated
  · rw [if_pos hclock, if_pos hclock]
    rfl
  rw [if_neg hclock, if_neg hclock]
  show Program.run (read _ _) answers s = _
  rw [run_read]
  cases s.peers.lookup peerKey with
  | some peer => rfl
  | none =>
    simp only
    rw [pruneInactivePeers_run, run_read]
    show Program.run (if (pruned policy now s.peers).entries.length ≥ _ then _ else _) answers _ = _
    split
    · rfl
    · rw [hg]
      rfl

/-- The section of `_release`. -/
theorem releaseSection_run (peerKey : String) (now : ℚ) (answers : List Bool) {s : Records}
    {g : GlobalRecord} (hg : s.global = some g) :
    (releaseSection peerKey now).run answers s =
      match s.peers.lookup peerKey with
      | some p =>
        if g.active < 1 ∨ p.active < 1 then
          (.ok .poisoned, { s with global := some { g with healthy := false } })
        else
          (.ok .done, { s with
            global := some { g with active := g.active - 1 }
            peers := s.peers.insert peerKey { p with active := p.active - 1, lastSeen := now } })
      | none => (.ok .poisoned, { s with global := some { g with healthy := false } }) := by
  rw [releaseSection, run_read, hg]
  show Program.run (read _ _) answers s = _
  rw [run_read]
  cases s.peers.lookup peerKey with
  | none => rfl
  | some p =>
    simp only
    split <;> rfl

/-! ### Whole operations -/

theorem markUnhealthy_run (result : Outcome) (answers : List Bool) (s : Records) :
    (markUnhealthy result).run answers s =
      (result, if answers.headD true then s.poison else { s with health := false }) := by
  have hfree : (markUnhealthyLocked (.done result)).LockFree := by
    refine lockFree_write (lockFree_read fun _ => lockFree_write ?_)
    trivial
  rw [markUnhealthy, run_write, run_locked hfree]
  split <;> rfl

theorem markUnhealthy_unhealthy (result : Outcome) (answers : List Bool) (s : Records) :
    ((markUnhealthy result).run answers s).2.healthy = false := by
  rw [markUnhealthy_run]
  split <;> rfl

theorem isHealthyLocked_lockFree {k : Bool → Operation} (h : ∀ b, (k b).LockFree) :
    (isHealthyLocked k).LockFree :=
  lockFree_read fun _ => lockFree_read fun _ => h _

theorem pruneLoop_lockFree {policy : AdmissionPolicy} {k : Operation} (h : k.LockFree) :
    ∀ candidates, (pruneLoop policy k candidates).LockFree
  | [] => h
  | candidate :: candidates => by
    refine lockFree_read fun count => ?_
    split
    · exact h
    · exact lockFree_write (pruneLoop_lockFree h candidates)

theorem admitSession_lockFree (policy : AdmissionPolicy) (peerKey : String) (now : ℚ)
    (global : GlobalRecord) (peer : PeerRecord) :
    (admitSession policy peerKey now global peer).LockFree := by
  unfold admitSession
  split
  · trivial
  split
  · exact lockFree_write trivial
  split
  · exact lockFree_write trivial
  split
  · exact lockFree_write trivial
  · exact lockFree_write (lockFree_write trivial)

theorem acquireSection_lockFree (policy : AdmissionPolicy) (peerKey : String) (now : ℚ) :
    (acquireSection policy peerKey now).LockFree := by
  refine lockFree_read fun record => isHealthyLocked_lockFree fun healthy => ?_
  split
  · trivial
  split
  · trivial
  split
  · trivial
  refine lockFree_read fun peer => ?_
  split
  · exact admitSession_lockFree policy peerKey now _ _
  refine lockFree_read fun peers => pruneLoop_lockFree (lockFree_read fun count => ?_) _
  split
  · exact lockFree_write trivial
  · exact admitSession_lockFree policy peerKey now _ _

theorem releaseSection_lockFree (peerKey : String) (now : ℚ) :
    (releaseSection peerKey now).LockFree := by
  refine lockFree_read fun record => ?_
  split
  · trivial
  refine lockFree_read fun peer => ?_
  split
  · split
    · exact lockFree_write trivial
    · exact lockFree_write (lockFree_write trivial)
  · exact lockFree_write trivial

theorem admitSession_not_raised (policy : AdmissionPolicy) (peerKey : String) (now : ℚ)
    (global : GlobalRecord) (peer : PeerRecord) (answers : List Bool) (s : Records) :
    ((admitSession policy peerKey now global peer).run answers s).1 ≠ .error .raised := by
  rw [admitSession_run]
  split
  · intro h
    cases h
  split
  · intro h
    cases h
  · intro h
    cases h

/-- The section of `acquire` raises nothing else: a healthy worker has a global record. -/
theorem acquireSection_not_raised (policy : AdmissionPolicy) (peerKey : String) (now : ℚ)
    (answers : List Bool) (s : Records) :
    ((acquireSection policy peerKey now).run answers s).1 ≠ .error .raised := by
  cases hhealthy : s.healthy with
  | false =>
    rw [acquireSection_run_unhealthy policy peerKey now answers hhealthy]
    intro h
    cases h
  | true =>
    obtain ⟨-, g, hg, -⟩ := Records.healthy_iff.mp hhealthy
    rw [acquireSection_run policy peerKey now answers hhealthy hg]
    split
    · intro h
      cases h
    split
    · exact admitSession_not_raised policy peerKey now _ _ answers s
    split
    · intro h
      cases h
    · exact admitSession_not_raised policy peerKey now _ _ answers _

/-- `acquire`: its section if the lock is granted. -/
theorem acquire_run (policy : AdmissionPolicy) (peerKey : String) (now : ℚ) (answers : List Bool)
    (s : Records) :
    (acquire policy peerKey (some now)).run answers s =
      if answers.headD true then (acquireSection policy peerKey now).run answers.tail s
      else (.error .unavailable, s) := by
  rw [acquire, run_locked_bind (acquireSection_lockFree policy peerKey now)]
  have hraised := acquireSection_not_raised policy peerKey now answers.tail s
  split
  · split
    · next h => exact absurd h hraised
    · rfl
  · rfl

/-- What the section of `acquire` can do in a healthy worker with the global record `g`. -/
inductive Acquired (policy : AdmissionPolicy) (peerKey : String) (now : ℚ) (s : Records)
    (g : GlobalRecord) : Outcome × Records → Prop
  | refused (r : Rejection) : Acquired policy peerKey now s g (.error r, s)
  | rejected (peers : Dict String PeerRecord) (hclock : g.updated ≤ now)
      (hpeers : peers = s.peers ∨ peers = pruned policy now s.peers) :
      Acquired policy peerKey now s g
        (.error .overload, { s with peers := peers }.rejected (g.refilled policy now) now)
  | admitted (peer : PeerRecord) (peers : Dict String PeerRecord) (hclock : g.updated ≤ now)
      (hpeer : s.peers.lookup peerKey = some peer ∧ peers = s.peers ∨
        s.peers.lookup peerKey = none ∧ peer = .fresh policy now ∧ peers = pruned policy now s.peers ∧
          peers.entries.length < policy.maxTrackedPeers)
      (hpeerClock : peer.updated ≤ now) (hlimits : ¬ Limited policy (g.refilled policy now) peer now) :
      Acquired policy peerKey now s g (.ok (.lease peerKey),
        { s with peers := peers }.admitted policy peerKey now (g.refilled policy now) peer)

theorem acquireSection_cases (policy : AdmissionPolicy) (peerKey : String) (now : ℚ)
    (answers : List Bool) {s : Records} {g : GlobalRecord} (h : s.healthy = true)
    (hg : s.global = some g) :
    Acquired policy peerKey now s g ((acquireSection policy peerKey now).run answers s) := by
  rw [acquireSection_run policy peerKey now answers h hg]
  split
  · exact .refused _
  next hclock =>
  split
  · next peer hpeer =>
    rw [admitSession_run]
    split
    · exact .refused _
    next hpeerClock =>
    split
    · exact .rejected s.peers (not_lt.mp hclock) (Or.inl rfl)
    · next hlimits =>
      exact .admitted peer s.peers (not_lt.mp hclock) (Or.inl ⟨hpeer, rfl⟩) (not_lt.mp hpeerClock)
        hlimits
  · next hpeer =>
    split
    · exact .rejected _ (not_lt.mp hclock) (Or.inr rfl)
    next hroom =>
    have hfresh : ¬ now < (PeerRecord.fresh policy now).updated := lt_irrefl now
    rw [admitSession_run, if_neg hfresh]
    split
    · exact .rejected _ (not_lt.mp hclock) (Or.inr rfl)
    · next hlimits =>
      exact .admitted _ _ (not_lt.mp hclock) (Or.inr ⟨hpeer, rfl, rfl, not_le.mp hroom⟩) (le_refl now)
        hlimits

/-- `_release` whose section ends well, and the other cases, which mark the worker unhealthy. -/
theorem release_run (peerKey : String) (now : ℚ) (answers : List Bool) (s : Records) :
    (release peerKey (some now)).run answers s =
      if answers.headD true then
        match (releaseSection peerKey now).run answers.tail s with
        | (.error _, s') => (markUnhealthy (.ok .poisoned)).run answers.tail s'
        | result => result
      else (markUnhealthy (.ok .poisoned)).run answers.tail s := by
  rw [release, run_locked_bind (releaseSection_lockFree peerKey now)]
  generalize (releaseSection peerKey now).run answers.tail s = result
  split
  · obtain ⟨_ | _, _⟩ := result <;> rfl
  · rfl

/-- `_release` leaves the worker unhealthy, or gives one active session back. -/
theorem release_cases (peerKey : String) (now : Option ℚ) (answers : List Bool) (s : Records) :
    ((release peerKey now).run answers s).2.healthy = false ∨
      ∃ t g p, now = some t ∧ answers.headD true = true ∧ s.global = some g ∧
        s.peers.lookup peerKey = some p ∧ 0 < g.active ∧ 0 < p.active ∧
        ((release peerKey now).run answers s).2 =
          { s with
            global := some { g with active := g.active - 1 }
            peers := s.peers.insert peerKey { p with active := p.active - 1, lastSeen := t } } := by
  cases now with
  | none => exact Or.inl (markUnhealthy_unhealthy _ answers s)
  | some t =>
  rw [release_run]
  by_cases hgranted : answers.headD true = true
  case neg =>
    rw [if_neg hgranted]
    exact Or.inl (markUnhealthy_unhealthy _ answers.tail s)
  rw [if_pos hgranted]
  cases hg : s.global with
  | none =>
    have hraised : (releaseSection peerKey t).run answers.tail s = (.error .raised, s) := by
      rw [releaseSection, run_read, hg]
      rfl
    rw [hraised]
    exact Or.inl (markUnhealthy_unhealthy _ _ _)
  | some g =>
    have hpoisoned : { s with global := some { g with healthy := false } }.healthy = false :=
      Bool.and_false _
    rw [releaseSection_run peerKey t answers.tail hg]
    cases hp : s.peers.lookup peerKey with
    | none => exact Or.inl hpoisoned
    | some p =>
      by_cases hcounts : g.active < 1 ∨ p.active < 1
      · simp only [hcounts, if_true]
        exact Or.inl hpoisoned
      · simp only [hcounts, if_false]
        exact Or.inr ⟨t, g, p, rfl, hgranted, rfl, rfl, by omega, by omega, rfl⟩

end Drift.Server
