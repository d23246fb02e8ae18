import Drift.Server.AdmissionLeases

/-!
# The rate of admissions

A worker meters its admissions with one token bucket for all peers and one for each. The bucket of a
peer is forgotten when its record is pruned, and made anew, full, when the peer comes back. The policy
makes that harmless: a peer is only dropped after it has been idle for as long as its bucket takes to
fill up.

* `Metered` — the invariant: every bucket admits what the law leaves room for, and a peer without a
  record could be given a full one;
* `admissionsConform` — the law, for all peers and for each;
* `acquireUnpruned` — `acquire` with records that are never pruned, to compare with;
* `admission_rate` — the law, and that pruning decides nothing.
-/

namespace Drift.Server

open Drift.Lib Program

/-! ### The law -/

/-- The clock readings under the lock do not go back. -/
def InOrder (s : LeaseState) (action : LeaseAction) : Prop :=
  ∀ now, action.reading = some now → s.clock ≤ now

instance (s : LeaseState) (action : LeaseAction) : Decidable (InOrder s action) :=
  match h : action.reading with
  | none => isTrue fun now hnow => by cases h.symm.trans hnow
  | some now => decidable_of_iff (s.clock ≤ now)
      ⟨fun hle now' hnow => Option.some.inj (h.symm.trans hnow) ▸ hle, fun hall => hall now h⟩

/-- When sessions were admitted, latest first. -/
def times (admissions : List (String × ℚ)) : List ℚ := admissions.map Prod.snd

/-- When sessions of one peer were admitted. -/
def timesOf (admissions : List (String × ℚ)) (peerKey : String) : List ℚ :=
  times (admissions.filter fun a => a.1 = peerKey)

/-- The admissions conform to the policy: all of them, and those of each peer. -/
def Conforming (policy : AdmissionPolicy) (admissions : List (String × ℚ)) : Prop :=
  policy.globalRate.Conforms (times admissions) ∧
    ∀ peerKey, policy.peerRate.Conforms (timesOf admissions peerKey)

theorem timesOf_cons (admissions : List (String × ℚ)) (peerKey k : String) (now : ℚ) :
    timesOf ((peerKey, now) :: admissions) k =
      if peerKey = k then now :: timesOf admissions k else timesOf admissions k := by
  unfold timesOf times
  rw [List.filter_cons]
  by_cases hk : peerKey = k
  · rw [if_pos hk, if_pos (decide_eq_true hk), List.map_cons]
  · rw [if_neg hk, if_neg (mt of_decide_eq_true hk)]

/-! ### The invariant -/

variable {policy : AdmissionPolicy}

/-- The bucket of a peer admits what the law leaves room for. Without a record it may be made anew, as
it would be full by now. -/
def MeteredPeer (policy : AdmissionPolicy) (history : List ℚ) (clock : ℚ) : Option PeerRecord → Prop
  | some peer => peer.updated ≤ peer.lastSeen ∧ peer.lastSeen ≤ clock ∧
      policy.peerRate.Admits history peer.updated peer.tokens
  | none => policy.peerRate.Admits history clock policy.peerSessionBurst

/-- The buckets admitSession what the law leaves room for. -/
structure Metered (policy : AdmissionPolicy) (s : LeaseState) (g : GlobalRecord) : Prop where
  updated : g.updated ≤ s.clock
  global : policy.globalRate.Admits (times s.admissions) g.updated g.tokens
  peers : ∀ peerKey, MeteredPeer policy (timesOf s.admissions peerKey) s.clock
    (s.records.peers.lookup peerKey)

theorem MeteredPeer.conforms {history : List ℚ} {clock : ℚ} {record : Option PeerRecord}
    (h : MeteredPeer policy history clock record) : policy.peerRate.Conforms history := by
  cases record with
  | none => exact Rate.Admits.conforms h
  | some peer => exact h.2.2.conforms

theorem Metered.conforming {s : LeaseState} {g : GlobalRecord} (h : Metered policy s g) :
    Conforming policy s.admissions :=
  ⟨h.global.conforms, fun peerKey => (h.peers peerKey).conforms⟩

/-- Time passes. -/
theorem MeteredPeer.later (hpolicy : policy.Accepted) {history : List ℚ} {clock now : ℚ}
    {record : Option PeerRecord} (h : MeteredPeer policy history clock record) (hnow : clock ≤ now) :
    MeteredPeer policy history now record := by
  cases record with
  | none => exact Rate.Admits.later h hpolicy.rates.2.le hnow
  | some peer => exact ⟨h.1, le_trans h.2.1 hnow, h.2.2⟩

/-- A bucket that may be pruned would be full. -/
theorem burst_le_of_idle (hpolicy : policy.Accepted) {peer : PeerRecord} {now : ℚ}
    (hidle : peer.Idle policy now) (hupdated : peer.updated ≤ peer.lastSeen) :
    (policy.peerSessionBurst : ℚ) ≤ (now - peer.updated) * policy.peerSessionRate := by
  have hrate := hpolicy.rates.2
  have httl : (policy.peerSessionBurst : ℚ) / policy.peerSessionRate ≤ now - peer.updated :=
    calc (policy.peerSessionBurst : ℚ) / policy.peerSessionRate
        ≤ policy.trackedPeerTtl := hpolicy.checks.2.2.2.2
      _ ≤ now - peer.lastSeen := hidle.2
      _ ≤ now - peer.updated := by linarith
  exact (div_le_iff₀ hrate).mp httl

/-- Pruning forgets nothing that matters. -/
theorem MeteredPeer.prune (hpolicy : policy.Accepted) {history : List ℚ} {clock now : ℚ}
    {peers : Dict String PeerRecord} {peerKey : String}
    (h : MeteredPeer policy history clock (peers.lookup peerKey)) (hnow : clock ≤ now)
    (htokens : ∀ peer, peers.lookup peerKey = some peer → 0 ≤ peer.tokens) :
    MeteredPeer policy history now ((pruned policy now peers).lookup peerKey) := by
  rcases lookup_pruned policy now peers peerKey with hsame | ⟨hnone, peer, hpeer, hidle⟩
  · rw [hsame]
    exact h.later hpolicy hnow
  · rw [hnone]
    rw [hpeer] at h
    obtain ⟨hupdated, hseen, hadmits⟩ := h
    exact hadmits.full hpolicy.rates.2.le (htokens peer hpeer)
      (le_trans (le_trans hupdated hseen) hnow) (burst_le_of_idle hpolicy hidle hupdated)

/-- The peers that a step leaves, pruned or not. -/
theorem MeteredPeer.left (hpolicy : policy.Accepted) {history : List ℚ} {clock now : ℚ}
    {peers left : Dict String PeerRecord} {peerKey : String}
    (h : MeteredPeer policy history clock (peers.lookup peerKey)) (hnow : clock ≤ now)
    (htokens : ∀ peer, peers.lookup peerKey = some peer → 0 ≤ peer.tokens)
    (hleft : left = peers ∨ left = pruned policy now peers) :
    MeteredPeer policy history now (left.lookup peerKey) := by
  rcases hleft with rfl | rfl
  · exact h.later hpolicy hnow
  · exact h.prune hpolicy hnow htokens

/-! ### The steps -/

theorem InOrder.clock_le {s : LeaseState} {action : LeaseAction} (h : InOrder s action) {clock : ℚ}
    (hclock : clock = action.reading.getD s.clock) : s.clock ≤ clock := by
  rw [hclock]
  cases hreading : action.reading with
  | none => exact le_refl _
  | some now => exact h now hreading

/-- A step that changes neither records nor admissions. -/
theorem Metered.same (hpolicy : policy.Accepted) {s s' : LeaseState} {g : GlobalRecord}
    (h : Metered policy s g) (hclock : s.clock ≤ s'.clock) (hrecords : s'.records = s.records)
    (hadmissions : s'.admissions = s.admissions) : Metered policy s' g where
  updated := le_trans h.updated hclock
  global := by
    rw [hadmissions]
    exact h.global
  peers := fun peerKey => by
    rw [hadmissions, hrecords]
    exact (h.peers peerKey).later hpolicy hclock

/-- Rejecting an `acquire` refills the bucket and charges nothing. -/
theorem Metered.rejected (hpolicy : policy.Accepted) {s s' : LeaseState} {g : GlobalRecord}
    (h : Metered policy s g) (hcounted : Counted policy s g) (hclock : s.clock ≤ s'.clock)
    {peers : Dict String PeerRecord}
    (hpeers : peers = s.records.peers ∨ peers = pruned policy s'.clock s.records.peers)
    (hleft : s'.records.peers = peers) (hadmissions : s'.admissions = s.admissions) :
    Metered policy s' { g.refilled policy s'.clock with rejected := g.rejected + 1 } where
  updated := le_refl _
  global := by
    rw [hadmissions]
    exact h.global.refill hpolicy.rates.1.le (le_trans h.updated hclock)
  peers := fun peerKey => by
    rw [hadmissions, hleft]
    exact (h.peers peerKey).left hpolicy hclock
      (fun peer hpeer => (hcounted.peers.tokens peerKey peer hpeer).1) hpeers

/-- Admitting a session takes a token out of both buckets. -/
theorem Metered.admitted (hpolicy : policy.Accepted) {s s' : LeaseState} {g : GlobalRecord}
    (h : Metered policy s g) (hcounted : Counted policy s g) (hclock : s.clock ≤ s'.clock)
    {peerKey : String} {peer : PeerRecord} {peers : Dict String PeerRecord}
    (hpeer : s.records.peers.lookup peerKey = some peer ∧ peers = s.records.peers ∨
      s.records.peers.lookup peerKey = none ∧ peer = .fresh policy s'.clock ∧
        peers = pruned policy s'.clock s.records.peers ∧
        peers.entries.length < policy.maxTrackedPeers)
    (hpeerClock : peer.updated ≤ s'.clock)
    (hlimits : ¬ Limited policy (g.refilled policy s'.clock) peer s'.clock)
    (hrecords : s'.records = { s.records with peers := peers }.admitted policy peerKey s'.clock
      (g.refilled policy s'.clock) peer)
    (hadmissions : s'.admissions = (peerKey, s'.clock) :: s.admissions) :
    ∃ r, s'.records.global = some r ∧ Metered policy s' r := by
  unfold Limited at hlimits
  rw [not_or, not_or, not_or, not_lt, not_lt] at hlimits
  obtain ⟨-, -, htokens, hpeerTokens⟩ := hlimits
  have hleft : peers = s.records.peers ∨ peers = pruned policy s'.clock s.records.peers := by
    rcases hpeer with ⟨-, hpeers⟩ | ⟨-, -, hpeers, -⟩
    · exact Or.inl hpeers
    · exact Or.inr hpeers
  -- the bucket of the peer before the refill, which is full if the peer has no record
  have hbucket : policy.peerRate.Admits (timesOf s.admissions peerKey) peer.updated peer.tokens := by
    have hbefore := h.peers peerKey
    rcases hpeer with ⟨hsome, -⟩ | ⟨hnone, rfl, -⟩
    · rw [hsome] at hbefore
      exact hbefore.2.2
    · rw [hnone] at hbefore
      exact hbefore.later hpolicy hclock
  have hlookup := congrArg Records.peers hrecords
  rw [hrecords]
  refine ⟨_, rfl, le_refl _, ?_, fun k => ?_⟩
  · rw [hadmissions]
    exact (h.global.refill hpolicy.rates.1.le (le_trans h.updated hclock)).take hpolicy.rates.1.le htokens
  · rw [hadmissions, timesOf_cons, hlookup]
    show MeteredPeer policy _ s'.clock ((peers.insert peerKey _).lookup k)
    rw [Dict.lookup_insert_eq]
    by_cases hk : k = peerKey
    · subst hk
      rw [if_pos rfl, if_pos rfl]
      refine ⟨le_refl _, le_refl _, ?_⟩
      exact (hbucket.refill hpolicy.rates.2.le hpeerClock).take hpolicy.rates.2.le hpeerTokens
    · rw [if_neg hk, if_neg (Ne.symm hk)]
      exact (h.peers k).left hpolicy hclock
        (fun p hp => (hcounted.peers.tokens k p hp).1) hleft

/-- Giving a lease back touches no bucket. -/
theorem Metered.released (hpolicy : policy.Accepted) {s s' : LeaseState} {g : GlobalRecord}
    (h : Metered policy s g) (hclock : s.clock ≤ s'.clock) {peerKey : String} {peer : PeerRecord}
    (hpeer : s.records.peers.lookup peerKey = some peer)
    (hpeers : s'.records.peers = s.records.peers.insert peerKey
      { peer with active := peer.active - 1, lastSeen := s'.clock })
    (hadmissions : s'.admissions = s.admissions) :
    Metered policy s' { g with active := g.active - 1 } where
  updated := le_trans h.updated hclock
  global := by
    rw [hadmissions]
    exact h.global
  peers := fun k => by
    rw [hadmissions, hpeers, Dict.lookup_insert_eq]
    split
    · next hk =>
      have hbefore := h.peers k
      rw [hk, hpeer] at hbefore
      obtain ⟨hupdated, hseen, hadmits⟩ := hbefore
      rw [hk]
      exact ⟨le_trans (le_trans hupdated hseen) hclock, le_refl _, hadmits⟩
    · exact (h.peers k).later hpolicy hclock

/-- **The step lemma.** -/
theorem Metered.step (hpolicy : policy.Accepted) {s s' : LeaseState} {action : LeaseAction}
    {g : GlobalRecord} (h : Metered policy s g) (hcounted : Counted policy s g)
    (hglobal : s.records.global = some g) (horder : InOrder s action)
    (hclock : s'.clock = action.reading.getD s.clock) (hstep : LeaseStep policy s action g s') :
    ∃ r, s'.records.global = some r ∧ Metered policy s' r := by
  have hle := horder.clock_le hclock
  cases hstep with
  | idle hrecords hleases hadmissions =>
    refine ⟨g, ?_, h.same hpolicy hle hrecords hadmissions⟩
    rw [hrecords]
    exact hglobal
  | noted i lease hlease hstatus hrecords hleases hadmissions =>
    refine ⟨g, ?_, h.same hpolicy hle hrecords hadmissions⟩
    rw [hrecords]
    exact hglobal
  | rejected now hreading peers hupdated hpeers hrecords hleases hadmissions =>
    obtain rfl : s'.clock = now := by
      rw [hclock, hreading]
      rfl
    refine ⟨_, congrArg Records.global hrecords, ?_⟩
    exact h.rejected hpolicy hcounted hle hpeers (congrArg Records.peers hrecords) hadmissions
  | admitted peerKey now hreading peer peers hupdated hpeer hpeerClock hlimits hrecords hleases
      hadmissions =>
    obtain rfl : s'.clock = now := by
      rw [hclock, hreading]
      rfl
    exact h.admitted hpolicy hcounted hle hpeer hpeerClock hlimits hrecords hadmissions
  | released i lease now hreading hlease hstatus peer hpeer hactive hpeerActive hrecords hleases
      hadmissions =>
    obtain rfl : s'.clock = now := by
      rw [hclock, hreading]
      rfl
    refine ⟨_, congrArg Records.global hrecords, ?_⟩
    exact h.released hpolicy hle hpeer (congrArg Records.peers hrecords) hadmissions

/-- A worker that is healthy counts its sessions and meters its admissions. -/
def Metering (policy : AdmissionPolicy) (s : LeaseState) : Prop :=
  s.records.healthy = true →
    ∃ g, s.records.global = some g ∧ Counted policy s g ∧ Metered policy s g

theorem Metering.step (hpolicy : policy.Accepted) {s s' : LeaseState} {action : LeaseAction}
    (h : Metering policy s) (horder : InOrder s action)
    (hnext : (leaseMachine policy).next s action = some s') : Metering policy s' := by
  intro hhealthy
  rcases lease_steps hnext with ⟨hunhealthy, -⟩ | ⟨hbefore, g, hg, hstep⟩
  · exact Bool.noConfusion (hhealthy.symm.trans hunhealthy)
  obtain ⟨g', hg', hcounted, hmetered⟩ := h hbefore
  cases hg.symm.trans hg'
  obtain ⟨r, hr, hcounted'⟩ := hcounted.step hpolicy hg hstep
  obtain ⟨r', hr', hmetered'⟩ := hmetered.step hpolicy hcounted hg horder (lease_clock hnext) hstep
  cases hr.symm.trans hr'
  exact ⟨r, hr, hcounted', hmetered'⟩

theorem metering_initial (hpolicy : policy.Accepted) (now : ℚ) :
    Metering policy (.initial policy now) := by
  intro hhealthy
  obtain ⟨g, hg, hcounted⟩ := counted_reach hpolicy .refl hhealthy
  cases hg
  refine ⟨_, rfl, hcounted, le_refl _, ?_, fun peerKey => ?_⟩
  · exact Rate.Admits.empty hpolicy.rates.1.le (Nat.cast_nonneg _) now
  · exact Rate.Admits.empty hpolicy.rates.2.le (Nat.cast_nonneg _) now

/-- The run lemma. An unhealthy worker admits nobody, so the law stays what it was. -/
theorem conforming_reach (hpolicy : policy.Accepted) {now : ℚ} {s : LeaseState}
    (h : (leaseMachine policy).Reach InOrder (.initial policy now) s) :
    Metering policy s ∧ Conforming policy s.admissions := by
  induction h with
  | refl =>
    refine ⟨metering_initial hpolicy now, ?_⟩
    obtain ⟨g, -, -, hmetered⟩ := metering_initial hpolicy now rfl
    exact hmetered.conforming
  | @tail t t' action _ horder hnext ih =>
    refine ⟨ih.1.step hpolicy horder hnext, ?_⟩
    rcases lease_steps hnext with ⟨-, hadmissions⟩ | ⟨hbefore, g, hg, hstep⟩
    · rw [hadmissions]
      exact ih.2
    · obtain ⟨g', hg', hcounted, hmetered⟩ := ih.1 hbefore
      cases hg.symm.trans hg'
      obtain ⟨r, -, hmetered'⟩ := hmetered.step hpolicy hcounted hg horder (lease_clock hnext) hstep
      exact hmetered'.conforming

/-! ### Records that are never pruned -/

/-- The section of `acquire` without pruning, and without a limit to the tracked peers. -/
def acquireSectionUnpruned (policy : AdmissionPolicy) (peerKey : String) (now : ℚ) : Operation :=
  read Records.global fun record =>
  isHealthyLocked fun healthy =>
  if !healthy then
    .done (.error .unavailable)
  else
    match record with
    | none => .done (.error .raised)
    | some global =>
      match refill policy.globalRate global.tokens global.updated now with
      | none => .done (.error .unavailable)
      | some globalTokens =>
        let global := { global with tokens := globalTokens, updated := now }
        read (fun s => s.peers.lookup peerKey) fun
          | some peer => admitSession policy peerKey now global peer
          | none => admitSession policy peerKey now global ⟨0, policy.peerSessionBurst, now, now⟩

/-- `acquire` with records that are never pruned. -/
def acquireUnpruned (policy : AdmissionPolicy) (peerKey : String) : Option ℚ → Operation
  | none => .done (.error .unavailable)
  | some now =>
    (locked (acquireSectionUnpruned policy peerKey now) (.done (.error .unavailable))).bind fun
      | .error .raised => markUnhealthy (.error .raised)
      | outcome => .done outcome

/-- There is room to track the peer of an `acquire`, once the idle ones are dropped. -/
def HasRoom (policy : AdmissionPolicy) (s : LeaseState) : LeaseAction → Prop
  | .acquire peerKey (some now) _ => s.records.peers.lookup peerKey = none →
      (pruned policy now s.records.peers).entries.length < policy.maxTrackedPeers
  | _ => True

instance (s : LeaseState) : ∀ action, Decidable (HasRoom policy s action)
  | .acquire peerKey (some now) _ => inferInstanceAs (Decidable
      (s.records.peers.lookup peerKey = none →
        (pruned policy now s.records.peers).entries.length < policy.maxTrackedPeers))
  | .acquire _ none _ => isTrue trivial
  | .release _ => isTrue trivial
  | .finish _ _ _ => isTrue trivial
  | .markUnhealthy _ => isTrue trivial

theorem acquireSectionUnpruned_run_unhealthy (peerKey : String) (now : ℚ) (answers : List Bool)
    {s : Records} (h : s.healthy = false) :
    (acquireSectionUnpruned policy peerKey now).run answers s = (.error .unavailable, s) := by
  rw [acquireSectionUnpruned, run_read, isHealthyLocked_run, h]
  rfl

theorem acquireSectionUnpruned_run (peerKey : String) (now : ℚ) (answers : List Bool) {s : Records}
    {g : GlobalRecord} (h : s.healthy = true) (hg : s.global = some g) :
    (acquireSectionUnpruned policy peerKey now).run answers s =
      if now < g.updated then (.error .unavailable, s)
      else (admitSession policy peerKey now (g.refilled policy now)
        ((s.peers.lookup peerKey).getD (.fresh policy now))).run answers s := by
  rw [acquireSectionUnpruned, run_read, isHealthyLocked_run, h, hg]
  simp only [Bool.not_true, Bool.false_eq_true, if_false, refill]
  by_cases hclock : now < g.updated
  · rw [if_pos hclock, if_pos hclock]
    rfl
  rw [if_neg hclock, if_neg hclock]
  show Program.run (read _ _) answers s = _
  rw [run_read]
  cases s.peers.lookup peerKey <;> rfl

theorem acquireSectionUnpruned_lockFree (peerKey : String) (now : ℚ) :
    (acquireSectionUnpruned policy peerKey now).LockFree := by
  refine lockFree_read fun record => isHealthyLocked_lockFree fun healthy => ?_
  split
  · trivial
  split
  · trivial
  split
  · trivial
  refine lockFree_read fun peer => ?_
  split
  · exact admitSession_lockFree policy peerKey now _ _
  · exact admitSession_lockFree policy peerKey now _ _

theorem acquireSectionUnpruned_not_raised (peerKey : String) (now : ℚ) (answers : List Bool)
    (s : Records) :
    ((acquireSectionUnpruned policy peerKey now).run answers s).1 ≠ .error .raised := by
  cases hhealthy : s.healthy with
  | false =>
    rw [acquireSectionUnpruned_run_unhealthy peerKey now answers hhealthy]
    intro h
    cases h
  | true =>
    obtain ⟨-, g, hg, -⟩ := Records.healthy_iff.mp hhealthy
    rw [acquireSectionUnpruned_run peerKey now answers hhealthy hg]
    split
    · intro h
      cases h
    · exact admitSession_not_raised policy peerKey now _ _ answers s

theorem acquireUnpruned_run (peerKey : String) (now : ℚ) (answers : List Bool) (s : Records) :
    (acquireUnpruned policy peerKey (some now)).run answers s =
      if answers.headD true then (acquireSectionUnpruned policy peerKey now).run answers.tail s
      else (.error .unavailable, s) := by
  rw [acquireUnpruned, run_locked_bind (acquireSectionUnpruned_lockFree peerKey now)]
  have hraised := @acquireSectionUnpruned_not_raised policy peerKey now answers.tail s
  split
  · split
    · next h => exact absurd h hraised
    · rfl
  · rfl

/-! ### The simulation -/

/-- A record that pruning would have dropped: without sessions, and with a bucket that would be full. -/
structure Stale (policy : AdmissionPolicy) (clock : ℚ) (peer : PeerRecord) : Prop where
  active : peer.active = 0
  updated : peer.updated ≤ clock
  tokens : 0 ≤ peer.tokens
  full : (policy.peerSessionBurst : ℚ) ≤ (clock - peer.updated) * policy.peerSessionRate

/-- The records of a worker, and those of one that never prunes. -/
structure Alike (policy : AdmissionPolicy) (clock : ℚ) (s s' : Records) : Prop where
  health : s'.health = s.health
  global : s'.global = s.global
  peers : ∀ peerKey, s'.peers.lookup peerKey = s.peers.lookup peerKey ∨
    s.peers.lookup peerKey = none ∧
      ∃ peer, s'.peers.lookup peerKey = some peer ∧ Stale policy clock peer

theorem Stale.later (hpolicy : policy.Accepted) {clock now : ℚ} {peer : PeerRecord}
    (h : Stale policy clock peer) (hnow : clock ≤ now) : Stale policy now peer where
  active := h.active
  updated := le_trans h.updated hnow
  tokens := h.tokens
  full := by
    have hrate := hpolicy.rates.2.le
    have hgain := mul_le_mul_of_nonneg_right (sub_le_sub_right hnow peer.updated) hrate
    exact le_trans h.full hgain

/-- The bucket of a stale record is full once it is refilled. -/
theorem Stale.refill {clock now : ℚ} {peer : PeerRecord} (hpolicy : policy.Accepted)
    (h : Stale policy clock peer) (hnow : clock ≤ now) :
    policy.peerRate.refill peer.tokens peer.updated now = policy.peerSessionBurst :=
  Rate.refill_eq_burst h.tokens (h.later hpolicy hnow).full

theorem Alike.healthy {clock : ℚ} {s s' : Records} (h : Alike policy clock s s') :
    s'.healthy = s.healthy := by
  rw [Records.healthy, Records.healthy, h.health, h.global]

theorem Alike.later (hpolicy : policy.Accepted) {clock now : ℚ} {s s' : Records}
    (h : Alike policy clock s s') (hnow : clock ≤ now) : Alike policy now s s' where
  health := h.health
  global := h.global
  peers := fun peerKey => (h.peers peerKey).imp_right fun ⟨hnone, peer, hpeer, hstale⟩ =>
    ⟨hnone, peer, hpeer, hstale.later hpolicy hnow⟩

/-- What is written to one peer's record in both keeps them alike. -/
theorem Alike.write {clock : ℚ} {s s' : Records} (h : Alike policy clock s s') (g : Option GlobalRecord)
    (peerKey : String) (peer : PeerRecord) :
    Alike policy clock { s with global := g, peers := s.peers.insert peerKey peer }
      { s' with global := g, peers := s'.peers.insert peerKey peer } where
  health := h.health
  global := rfl
  peers := fun k => by
    show (s'.peers.insert peerKey peer).lookup k = (s.peers.insert peerKey peer).lookup k ∨
      (s.peers.insert peerKey peer).lookup k = none ∧
        ∃ p, (s'.peers.insert peerKey peer).lookup k = some p ∧ Stale policy clock p
    rw [Dict.lookup_insert_eq, Dict.lookup_insert_eq]
    by_cases hk : k = peerKey
    · rw [if_pos hk, if_pos hk]
      exact Or.inl rfl
    · rw [if_neg hk, if_neg hk]
      exact h.peers k

theorem Alike.write_global {clock : ℚ} {s s' : Records} (h : Alike policy clock s s')
    (g : Option GlobalRecord) : Alike policy clock { s with global := g } { s' with global := g } :=
  ⟨h.health, rfl, h.peers⟩

/-- Two records for a peer between which `acquire` cannot tell at the moment `now`. -/
structure Even (policy : AdmissionPolicy) (now : ℚ) (peer peer' : PeerRecord) : Prop where
  active : peer'.active = peer.active
  updated : peer.updated ≤ now
  updated' : peer'.updated ≤ now
  tokens : policy.peerRate.refill peer'.tokens peer'.updated now =
    policy.peerRate.refill peer.tokens peer.updated now

theorem admitSession_alike {now : ℚ} {s s' : Records} (h : Alike policy now s s') (peerKey : String)
    (g : GlobalRecord) {peer peer' : PeerRecord} (heven : Even policy now peer peer')
    (answers : List Bool) :
    ((admitSession policy peerKey now g peer').run answers s').1 =
        ((admitSession policy peerKey now g peer).run answers s).1 ∧
      Alike policy now ((admitSession policy peerKey now g peer).run answers s).2
        ((admitSession policy peerKey now g peer').run answers s').2 := by
  have hlimited : Limited policy g peer' now ↔ Limited policy g peer now := by
    unfold Limited
    rw [heven.active, heven.tokens]
  rw [admitSession_run, admitSession_run, if_neg (not_lt.mpr heven.updated), if_neg (not_lt.mpr heven.updated')]
  by_cases hlimit : Limited policy g peer now
  · rw [if_pos hlimit, if_pos (hlimited.mpr hlimit)]
    exact ⟨rfl, h.write_global _⟩
  · rw [if_neg hlimit, if_neg (mt hlimited.mp hlimit)]
    refine ⟨rfl, ?_⟩
    unfold Records.admitted
    rw [heven.active, heven.tokens]
    exact h.write _ peerKey _

/-- Pruning leaves the records alike. -/
theorem Alike.prune (hpolicy : policy.Accepted) {clock now : ℚ} {s s' : Records}
    (h : Alike policy clock s s') (hnow : clock ≤ now)
    (hpeers : ∀ peerKey peer, s.peers.lookup peerKey = some peer →
      0 ≤ peer.tokens ∧ peer.updated ≤ peer.lastSeen ∧ peer.lastSeen ≤ clock) :
    Alike policy now { s with peers := pruned policy now s.peers } s' where
  health := h.health
  global := h.global
  peers := fun peerKey => by
    have hlater := (h.later hpolicy hnow).peers peerKey
    show s'.peers.lookup peerKey = (pruned policy now s.peers).lookup peerKey ∨
      (pruned policy now s.peers).lookup peerKey = none ∧
        ∃ p, s'.peers.lookup peerKey = some p ∧ Stale policy now p
    rcases lookup_pruned policy now s.peers peerKey with hsame | ⟨hdropped, peer, hpeer, hidle⟩
    · rw [hsame]
      exact hlater
    · right
      obtain ⟨htokens, hupdated, hseen⟩ := hpeers peerKey peer hpeer
      rcases hlater with hsame | ⟨hnone, -⟩
      · refine ⟨hdropped, peer, hsame.trans hpeer, hidle.1, ?_, htokens, ?_⟩
        · exact le_trans (le_trans hupdated hseen) hnow
        · exact burst_le_of_idle hpolicy hidle hupdated
      · exact absurd (hnone.symm.trans hpeer) (by intro h; cases h)

/-- **The decision is the same**, if the peer can be tracked. -/
theorem acquireSection_alike (hpolicy : policy.Accepted) {clock now : ℚ} {s s' : Records}
    (h : Alike policy clock s s') (hnow : clock ≤ now) (peerKey : String) (answers : List Bool)
    (hpeers : s.healthy = true → ∀ k peer, s.peers.lookup k = some peer →
      0 ≤ peer.tokens ∧ peer.updated ≤ peer.lastSeen ∧ peer.lastSeen ≤ clock)
    (hroom : s.peers.lookup peerKey = none →
      (pruned policy now s.peers).entries.length < policy.maxTrackedPeers) :
    ((acquireSectionUnpruned policy peerKey now).run answers s').1 =
        ((acquireSection policy peerKey now).run answers s).1 ∧
      Alike policy now ((acquireSection policy peerKey now).run answers s).2
        ((acquireSectionUnpruned policy peerKey now).run answers s').2 := by
  cases hhealthy : s.healthy with
  | false =>
    rw [acquireSection_run_unhealthy policy peerKey now answers hhealthy,
      acquireSectionUnpruned_run_unhealthy peerKey now answers (h.healthy.trans hhealthy)]
    exact ⟨rfl, h.later hpolicy hnow⟩
  | true =>
  obtain ⟨-, g, hg, -⟩ := Records.healthy_iff.mp hhealthy
  replace hpeers := hpeers hhealthy
  rw [acquireSection_run policy peerKey now answers hhealthy hg,
    acquireSectionUnpruned_run peerKey now answers (h.healthy.trans hhealthy) (h.global.trans hg)]
  by_cases hclock : now < g.updated
  · rw [if_pos hclock, if_pos hclock]
    exact ⟨rfl, h.later hpolicy hnow⟩
  rw [if_neg hclock, if_neg hclock]
  cases hpeer : s.peers.lookup peerKey with
  | some peer =>
    -- a tracked peer has the same record in both
    have hsame : s'.peers.lookup peerKey = some peer := by
      rcases h.peers peerKey with hsame | ⟨hnone, -⟩
      · exact hsame.trans hpeer
      · exact absurd (hnone.symm.trans hpeer) (by intro h; cases h)
    have hupdated : peer.updated ≤ now := by
      obtain ⟨-, hseen, hpast⟩ := hpeers peerKey peer hpeer
      exact le_trans (le_trans hseen hpast) hnow
    rw [hsame]
    exact admitSession_alike (h.later hpolicy hnow) peerKey _ ⟨rfl, hupdated, hupdated, rfl⟩ answers
  | none =>
    have hfresh : (PeerRecord.fresh policy now).updated ≤ now := le_refl now
    have hpruned := h.prune hpolicy hnow hpeers
    simp only
    rw [if_neg (not_le.mpr (hroom hpeer))]
    rcases h.peers peerKey with hsame | ⟨-, peer, hsome, hstale⟩
    · rw [hsame, hpeer]
      exact admitSession_alike hpruned peerKey _ ⟨rfl, hfresh, hfresh, rfl⟩ answers
    · -- the record that was dropped is as good as a new one
      rw [hsome]
      refine admitSession_alike hpruned peerKey _ ⟨hstale.active, hfresh, le_trans hstale.updated hnow, ?_⟩
        answers
      rw [hstale.refill hpolicy hnow]
      show _ = policy.peerRate.refill policy.peerSessionBurst now now
      rw [Rate.refill, sub_self, zero_mul, add_zero]
      exact (min_self _).symm

theorem markUnhealthy_alike {clock : ℚ} {s s' : Records} (h : Alike policy clock s s')
    (result : Outcome) (answers : List Bool) :
    Alike policy clock ((markUnhealthy result).run answers s).2
      ((markUnhealthy result).run answers s').2 := by
  rw [markUnhealthy_run, markUnhealthy_run]
  by_cases hgranted : answers.headD true = true
  · rw [if_pos hgranted, if_pos hgranted]
    refine ⟨rfl, ?_, h.peers⟩
    show some _ = some _
    rw [h.global]
  · rw [if_neg hgranted, if_neg hgranted]
    exact ⟨rfl, h.global, h.peers⟩

/-- A release does the same in both. -/
theorem release_alike {clock : ℚ} {s s' : Records} (h : Alike policy clock s s') (peerKey : String)
    (now : Option ℚ) (answers : List Bool) :
    Alike policy clock ((release peerKey now).run answers s).2
      ((release peerKey now).run answers s').2 := by
  cases now with
  | none => exact markUnhealthy_alike h _ answers
  | some now =>
  rw [release_run, release_run]
  by_cases hgranted : answers.headD true = true
  case neg =>
    rw [if_neg hgranted, if_neg hgranted]
    exact markUnhealthy_alike h _ answers.tail
  rw [if_pos hgranted, if_pos hgranted]
  cases hg : s.global with
  | none =>
    have hraised : ∀ t : Records, t.global = none →
        (releaseSection peerKey now).run answers.tail t = (.error .raised, t) := by
      intro t ht
      rw [releaseSection, run_read, ht]
      rfl
    rw [hraised s hg, hraised s' (h.global.trans hg)]
    exact markUnhealthy_alike h _ answers.tail
  | some g =>
    rw [releaseSection_run peerKey now answers.tail hg,
      releaseSection_run peerKey now answers.tail (h.global.trans hg)]
    rcases h.peers peerKey with hsame | ⟨hnone, peer, hsome, hstale⟩
    · rw [hsame]
      cases s.peers.lookup peerKey with
      | none => exact h.write_global _
      | some p =>
        by_cases hcounts : g.active < 1 ∨ p.active < 1
        · simp only [hcounts, if_true]
          exact h.write_global _
        · simp only [hcounts, if_false]
          exact h.write _ peerKey _
    · -- a dropped record has no session to give back
      have hcounts : g.active < 1 ∨ peer.active < 1 := Or.inr (by rw [hstale.active]; exact Nat.one_pos)
      rw [hnone, hsome]
      simp only [hcounts, if_true]
      exact h.write_global _

/-- Two runs side by side. -/
structure Paired (policy : AdmissionPolicy) (s s' : LeaseState) : Prop where
  records : Alike policy s.clock s.records s'.records
  leases : s'.leases = s.leases
  decisions : s'.decisions = s.decisions
  clock : s'.clock = s.clock

/-- What a metered worker knows of its peers. -/
theorem Metering.peers {s : LeaseState} (h : Metering policy s) (hhealthy : s.records.healthy = true)
    (peerKey : String) (peer : PeerRecord) (hpeer : s.records.peers.lookup peerKey = some peer) :
    0 ≤ peer.tokens ∧ peer.updated ≤ peer.lastSeen ∧ peer.lastSeen ≤ s.clock := by
  obtain ⟨g, -, hcounted, hmetered⟩ := h hhealthy
  have hmeter := hmetered.peers peerKey
  rw [hpeer] at hmeter
  exact ⟨(hcounted.peers.tokens peerKey peer hpeer).1, hmeter.1, hmeter.2.1⟩

/-- What two runs make of the results of their `acquire`. -/
theorem Paired.acquired {s s' : LeaseState} (h : Paired policy s s') {now : Option ℚ}
    {result result' : Outcome × Records} {clock : ℚ} (hsame : result'.1 = result.1)
    (halike : Alike policy clock result.2 result'.2) :
    Paired policy { s.acquired now result with clock := clock }
      { s'.acquired now result' with clock := clock } := by
  unfold LeaseState.acquired
  rw [hsame, h.decisions, h.leases]
  split
  · exact ⟨halike, rfl, rfl, rfl⟩
  · exact ⟨halike, rfl, rfl, rfl⟩

theorem Paired.acquire (hpolicy : policy.Accepted) {s s' : LeaseState} (h : Paired policy s s')
    (hmetering : Metering policy s) {peerKey : String} {now : Option ℚ} {answers : List Bool}
    (horder : InOrder s (.acquire peerKey now answers))
    (hroom : HasRoom policy s (.acquire peerKey now answers)) {clock : ℚ}
    (hclock : clock = (LeaseAction.acquire peerKey now answers).reading.getD s.clock) :
    Paired policy
      { s.acquired now ((acquire policy peerKey now).run answers s.records) with clock := clock }
      { s'.acquired now ((acquireUnpruned policy peerKey now).run answers s'.records) with
        clock := clock } := by
  have hle : s.clock ≤ clock := horder.clock_le hclock
  cases now with
  | none => exact h.acquired rfl (h.records.later hpolicy hle)
  | some now =>
  rw [acquire_run, acquireUnpruned_run]
  by_cases hgranted : answers.headD true = true
  case neg =>
    rw [if_neg hgranted, if_neg hgranted]
    exact h.acquired rfl (h.records.later hpolicy hle)
  rw [if_pos hgranted, if_pos hgranted]
  obtain rfl : clock = now := by
    rw [hclock, LeaseAction.reading, if_pos hgranted]
    rfl
  obtain ⟨hsame, halike⟩ := acquireSection_alike hpolicy h.records hle peerKey answers.tail
    hmetering.peers hroom
  exact h.acquired hsame halike

/-- **The step of the simulation.** -/
theorem Paired.next (hpolicy : policy.Accepted) {s s' t : LeaseState} (h : Paired policy s s')
    (hmetering : Metering policy s) {action : LeaseAction} (horder : InOrder s action)
    (hroom : HasRoom policy s action) (hnext : (leaseMachine policy).next s action = some t) :
    ∃ t', (leaseMachineWith (acquireUnpruned policy)).next s' action = some t' ∧
      Paired policy t t' := by
  obtain ⟨u, hu, rfl⟩ := Option.map_eq_some_iff.mp hnext
  have hle : s.clock ≤ action.reading.getD s.clock := horder.clock_le rfl
  show ∃ t', LeaseState.next (acquireUnpruned policy) s' action = some t' ∧ _
  unfold LeaseState.next
  rw [h.clock]
  cases action with
  | acquire peerKey now answers =>
    cases hu
    exact ⟨_, rfl, h.acquire hpolicy hmetering horder hroom rfl⟩
  | release i =>
    simp only [LeaseState.effect] at hu ⊢
    rw [h.leases]
    split at hu
    · cases hu
    next lease hlease =>
    split at hu
    · next hstatus =>
      cases hu
      rw [if_pos hstatus]
      exact ⟨_, rfl, h.records.later hpolicy hle, rfl, h.decisions, rfl⟩
    · next hstatus =>
      cases hu
      rw [if_neg hstatus]
      exact ⟨_, rfl, h.records.later hpolicy hle, h.leases, h.decisions, rfl⟩
  | finish i now answers =>
    simp only [LeaseState.effect] at hu ⊢
    rw [h.leases]
    split at hu
    · cases hu
    next lease hlease =>
    split at hu
    · next hstatus =>
      cases hu
      rw [if_pos hstatus]
      exact ⟨_, rfl, (release_alike h.records _ now answers).later hpolicy hle, rfl,
        h.decisions, rfl⟩
    · cases hu
  | markUnhealthy answers =>
    cases hu
    exact ⟨_, rfl, (markUnhealthy_alike h.records _ answers).later hpolicy hle, h.leases, h.decisions,
      rfl⟩

/-- The run of the simulation. -/
theorem Paired.run (hpolicy : policy.Accepted) {actions : List LeaseAction} {s s' t : LeaseState}
    (h : Paired policy s s') (hmetering : Metering policy s)
    (hrun : (leaseMachine policy).run s actions = some t)
    (halong : (leaseMachine policy).Along (fun s a => InOrder s a ∧ HasRoom policy s a) s actions) :
    ∃ t', (leaseMachineWith (acquireUnpruned policy)).run s' actions = some t' ∧
      Paired policy t t' := by
  induction actions generalizing s s' with
  | nil =>
    cases hrun
    exact ⟨s', rfl, h⟩
  | cons action actions ih =>
    obtain ⟨u, hnext, hrest⟩ := Option.bind_eq_some_iff.mp hrun
    obtain ⟨u', hnext', hpaired⟩ := h.next hpolicy hmetering halong.1.1 halong.1.2 hnext
    obtain ⟨t', hrun', hpaired'⟩ :=
      ih hpaired (hmetering.step hpolicy halong.1.1 hnext) hrest (halong.2 u hnext)
    refine ⟨t', ?_, hpaired'⟩
    show ((leaseMachineWith (acquireUnpruned policy)).next s' action).bind _ = _
    rw [hnext']
    exact hrun'

/-- **The rate of admissions.** In every run of `acquire` and releases by any peers, with clock readings
that do not go back, every window of time holds at most a burst and what is refilled in it, of all
admissions and of those of any one peer. Where every `acquire` finds room to track its peer, the
decisions of the run are those that would be made if no record were ever pruned. -/
theorem admission_rate (hpolicy : policy.Accepted) (now : ℚ) :
    (∀ s, (leaseMachine policy).Reach InOrder (.initial policy now) s →
      ∀ t length, 0 ≤ length →
        (Rate.within (s.admissions.map Prod.snd) t length : ℚ) ≤
            policy.globalSessionBurst + policy.globalSessionRate * length ∧
          ∀ peerKey,
            (Rate.within ((s.admissions.filter fun a => a.1 = peerKey).map Prod.snd) t length : ℚ) ≤
              policy.peerSessionBurst + policy.peerSessionRate * length) ∧
      ∀ actions s, (leaseMachine policy).run (.initial policy now) actions = some s →
        (leaseMachine policy).Along (fun s a => InOrder s a ∧ HasRoom policy s a)
          (.initial policy now) actions →
        ∃ s', (leaseMachineWith (acquireUnpruned policy)).run (.initial policy now) actions = some s' ∧
          s'.decisions = s.decisions := by
  refine ⟨fun s hreach t length hlength => ?_, fun actions s hrun halong => ?_⟩
  · obtain ⟨-, hall, hpeer⟩ := conforming_reach hpolicy hreach
    exact ⟨hall t length hlength, fun peerKey => hpeer peerKey t length hlength⟩
  · have hpaired : Paired policy (.initial policy now) (.initial policy now) :=
      ⟨⟨rfl, rfl, fun _ => Or.inl rfl⟩, rfl, rfl, rfl⟩
    obtain ⟨s', hrun', hpaired'⟩ := hpaired.run hpolicy (metering_initial hpolicy now) hrun halong
    exact ⟨s', hrun', hpaired'.decisions⟩

/-- At the rate of one session a second the worker has admitted one of three sessions that were asked
for within half a second. -/
def burst : LeaseState :=
  ((leaseMachine .single).run (.initial .single 0)
    [.acquire "peer:a" (some 1) [], .acquire "peer:a" (some (5 / 4)) [],
      .acquire "peer:b" (some (3 / 2)) []]).getD (.initial .single 0)

theorem admission_rate_burst :
    burst.decisions = [.ok (.lease "peer:a"), .error .overload, .error .overload] ∧
      (Rate.within (burst.admissions.map Prod.snd) 1 (1 / 2) : ℚ) ≤ 1 + 1 * (1 / 2) := by
  have hreach : (leaseMachine .single).Reach InOrder (.initial .single 0) burst :=
    Machine.reach_getD (by decide +kernel) (by decide +kernel)
  obtain ⟨hrate, -⟩ := admission_rate AdmissionPolicy.single_accepted 0
  obtain ⟨hall, -⟩ := hrate burst hreach 1 (1 / 2) (by decide +kernel)
  refine ⟨by decide +kernel, ?_⟩
  simpa [AdmissionPolicy.single] using hall

end Drift.Server
