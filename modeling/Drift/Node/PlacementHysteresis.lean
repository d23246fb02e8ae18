import Drift.Node.ContributionPlanner

/-!
# The hysteresis of automatic placement

`plan_changes` bounds how often the assignment of a planner changes, over every sequence of `plan` calls
with `propose` calls in between, as long as the assigned manifest stays eligible.

The decision is made in `propose` and the clocks are set in `commit`. What ties them together is
`Since`: since the last change, the clock of the assignment reads the time of that change, and the clock
of the switches does too, unless the change was the first assignment. `plan_cases` is the step: a call
either keeps the placement, and then both clocks, or it replaces an incumbent whose clocks have run out,
by a manifest with the margin.
-/

namespace Drift.Node

open Drift.Lib

/-! ### Runs of a planner -/

/-- A call of a planner. -/
inductive PlannerEvent
  | plan (candidates : List PlacementCandidate) (sharingEnabled : Bool) (now : Rat)
  | propose (candidates : List PlacementCandidate) (sharingEnabled : Bool) (now : Rat)

/-- The call commits what it proposes. -/
def PlannerEvent.isPlan : PlannerEvent → Bool
  | .plan .. => true
  | .propose .. => false

/-- The manifest and the block range of a decision. -/
def PlacementDecision.placement (d : PlacementDecision) : String × String :=
  (d.manifestDigest, d.blockIndices)

/-- A change of the committed placement. -/
structure PlacementChange where
  time : Rat
  candidates : List PlacementCandidate
  old : Option PlacementDecision
  new : PlacementDecision

/-- The change replaced another assignment. -/
def PlacementChange.isSwitch (c : PlacementChange) : Bool := c.old.isSome

namespace AutomaticContributionPlanner

variable (p : AutomaticContributionPlanner)

/-- The state after a call. -/
def after (s : PlannerState) : PlannerEvent → PlannerState
  | .plan candidates sharingEnabled now => (p.plan s candidates sharingEnabled now).2
  | .propose .. => s

/-- Planners as a machine. -/
def machine : Machine PlannerState PlannerEvent where
  next s e := some (p.after s e)

/-- The manifest that is assigned is eligible in the call, where the call evaluates its candidates. -/
def StaysEligible (s : PlannerState) : PlannerEvent → Prop
  | .plan candidates sharingEnabled _ =>
    ∀ d ∈ s.current, sharingEnabled = true → candidates.length ≤ maxAutomaticPlacementCandidates →
      (p.fresh candidates d.manifestDigest).isSome = true
  | .propose .. => True

instance (s : PlannerState) : ∀ e, Decidable (p.StaysEligible s e)
  | .plan candidates sharingEnabled _ =>
    inferInstanceAs (Decidable (∀ d ∈ s.current, sharingEnabled = true →
      candidates.length ≤ maxAutomaticPlacementCandidates →
      (p.fresh candidates d.manifestDigest).isSome = true))
  | .propose .. => isTrue trivial

/-- The change that a call makes, where it makes one. -/
def change (s : PlannerState) : PlannerEvent → Option PlacementChange
  | .plan candidates sharingEnabled now =>
    match (p.plan s candidates sharingEnabled now).2.current with
    | none => none
    | some d =>
      if s.current.map PlacementDecision.placement = some d.placement then none
      else some ⟨now, candidates, s.current, d⟩
  | .propose .. => none

/-- The changes of a run, in their order. -/
def changes : PlannerState → List PlannerEvent → List PlacementChange
  | _, [] => []
  | s, e :: es => (p.change s e).toList ++ changes (p.after s e) es

/-- What the `plan` calls of a run return. -/
def decisions : PlannerState → List PlannerEvent → List PlacementPlan
  | _, [] => []
  | s, .plan candidates sharingEnabled now :: es =>
    (p.plan s candidates sharingEnabled now).1 ::
      decisions (p.plan s candidates sharingEnabled now).2 es
  | s, .propose .. :: es => decisions s es

/-- Consecutive changes are apart: by the residency, and after a switch by the cooldown. -/
def Spaced (c c' : PlacementChange) : Prop :=
  p.minimumResidency ≤ c'.time - c.time ∧ (c.isSwitch = true → p.cooldown ≤ c'.time - c.time)

/-- A change of manifest has the margin over the evaluation of the manifest it leaves. -/
def HasMargin (c : PlacementChange) : Prop :=
  ∀ d ∈ c.old, c.new.manifestDigest ≠ d.manifestDigest →
    ∃ current, p.fresh c.candidates d.manifestDigest = some current ∧
      current.score + p.switchMargin ≤ c.new.score

/-- The clocks since a change. -/
structure Since (c : PlacementChange) (s : PlannerState) : Prop where
  current : s.current.isSome = true
  assigned : s.assignedAt = some c.time
  switched : c.isSwitch = true → s.lastSwitchAt = some c.time

variable {p} {s : PlannerState} {candidates : List PlacementCandidate} {sharingEnabled : Bool} {now : Rat}

/-! ### One call -/

/-- An incumbent that is replaced has its clocks run out, and loses to a margin. -/
theorem hold_cases {best incumbent current : PlacementDecision} {assignedAt : Rat}
    (hcurrent : s.current = some incumbent) (hassigned : s.assignedAt = some assignedAt)
    (hfresh : p.fresh candidates incumbent.manifestDigest = some current) :
    p.hold s candidates best now = incumbent ∨
      p.hold s candidates best now = best ∧ p.minimumResidency ≤ now - assignedAt ∧
        (∀ lastSwitchAt ∈ s.lastSwitchAt, p.cooldown ≤ now - lastSwitchAt) ∧
        (best.manifestDigest ≠ incumbent.manifestDigest →
          current.score + p.switchMargin ≤ best.score) := by
  have hdigest : current.manifestDigest = incumbent.manifestDigest := by
    have hfound := List.find?_some hfresh
    simpa using hfound
  unfold hold
  rw [hcurrent, hassigned]
  dsimp only
  rw [hfresh]
  dsimp only
  split_ifs with hclocks hmargin
  · exact Or.inl rfl
  · exact Or.inl rfl
  · right
    rw [not_or] at hclocks
    refine ⟨rfl, not_lt.mp hclocks.1, fun lastSwitchAt hlast => ?_, fun hne => ?_⟩
    · have hcooled := hclocks.2
      rw [hlast] at hcooled
      simpa using hcooled
    · rw [not_and] at hmargin
      rw [hdigest] at hmargin
      exact not_lt.mp (hmargin hne)

/-- What `propose` decides is what `hold` leaves of an evaluated candidate. -/
theorem propose_decision {d : PlacementDecision}
    (h : (p.propose s candidates sharingEnabled now).decision = some d) :
    sharingEnabled = true ∧ candidates.length ≤ maxAutomaticPlacementCandidates ∧
      ∃ best, d = p.hold s candidates best now := by
  unfold propose at h
  split at h
  · cases h
  next hsharing =>
  split at h
  · cases h
  next hlength =>
  split at h
  · cases h
  next first rest heligible =>
  refine ⟨by simpa using hsharing, not_lt.mp hlength, rest.foldl later first, ?_⟩
  exact (Option.some.inj h).symm

/-- **One `plan` call.** It keeps the placement and its clocks; or it makes the first assignment; or it
replaces an incumbent whose clocks have run out. -/
theorem plan_cases (hclock : s.current.isSome = true → s.assignedAt.isSome = true)
    (heligible : p.StaysEligible s (.plan candidates sharingEnabled now)) :
    let s' := (p.plan s candidates sharingEnabled now).2
    (s'.current.map PlacementDecision.placement = s.current.map PlacementDecision.placement ∧
        s'.assignedAt = s.assignedAt ∧ s'.lastSwitchAt = s.lastSwitchAt) ∨
      (s.current = none ∧ (∃ d, s'.current = some d) ∧ s'.assignedAt = some now ∧
        s'.lastSwitchAt = s.lastSwitchAt) ∨
      ∃ incumbent d assignedAt, s.current = some incumbent ∧ s.assignedAt = some assignedAt ∧
        s' = ⟨some d, some now, some now⟩ ∧ d.placement ≠ incumbent.placement ∧
        p.minimumResidency ≤ now - assignedAt ∧
        (∀ lastSwitchAt ∈ s.lastSwitchAt, p.cooldown ≤ now - lastSwitchAt) ∧
        p.HasMargin ⟨now, candidates, some incumbent, d⟩ := by
  dsimp only
  unfold plan
  dsimp only
  unfold PlannerState.commit
  cases hdecision : (p.propose s candidates sharingEnabled now).decision with
  | none => exact Or.inl ⟨rfl, rfl, rfl⟩
  | some d =>
    dsimp only
    obtain ⟨hsharing, hlength, best, hd⟩ := propose_decision hdecision
    cases hcurrent : s.current with
    | none => exact Or.inr (Or.inl ⟨rfl, ⟨d, rfl⟩, rfl, rfl⟩)
    | some incumbent =>
      dsimp only
      have hclock := hclock (by rw [hcurrent]; rfl)
      obtain ⟨assignedAt, hassigned⟩ := Option.isSome_iff_exists.mp hclock
      obtain ⟨current, hfresh⟩ := Option.isSome_iff_exists.mp
        (heligible incumbent hcurrent hsharing hlength)
      -- a decision that moves the placement is the best one, and was not held back
      have hmoved : d.placement ≠ incumbent.placement →
          p.minimumResidency ≤ now - assignedAt ∧
            (∀ lastSwitchAt ∈ s.lastSwitchAt, p.cooldown ≤ now - lastSwitchAt) ∧
            p.HasMargin ⟨now, candidates, some incumbent, d⟩ := by
        intro hne
        rcases hold_cases hcurrent hassigned hfresh with hheld | ⟨hbest, hresidency, hcooled, hmargin⟩
        · exact absurd (congrArg PlacementDecision.placement (hd.trans hheld)) hne
        · refine ⟨hresidency, hcooled, fun old hold hdigest => ?_⟩
          obtain rfl := Option.some.inj hold
          refine ⟨current, hfresh, ?_⟩
          show current.score + p.switchMargin ≤ d.score
          rw [hd, hbest]
          apply hmargin
          rw [← hbest, ← hd]
          exact hdigest
      split_ifs with hdigest hrange
      · have hne : d.placement ≠ incumbent.placement := fun heq => hdigest (congrArg Prod.fst heq)
        exact Or.inr (Or.inr ⟨incumbent, d, assignedAt, rfl, hassigned, rfl, hne, hmoved hne⟩)
      · have hne : d.placement ≠ incumbent.placement := fun heq => hrange (congrArg Prod.snd heq)
        exact Or.inr (Or.inr ⟨incumbent, d, assignedAt, rfl, hassigned, rfl, hne, hmoved hne⟩)
      · refine Or.inl ⟨congrArg some (Prod.ext ?_ ?_), rfl, rfl⟩
        · exact not_not.mp hdigest
        · exact not_not.mp hrange

/-- A call changes nothing, and then the clocks are what they were; or it makes a change, after which
they read its time. -/
theorem change_cases {e : PlannerEvent} (hclock : s.current.isSome = true → s.assignedAt.isSome = true)
    (heligible : p.StaysEligible s e) :
    (p.change s e = none ∧ (p.after s e).current.isSome = s.current.isSome ∧
        (p.after s e).assignedAt = s.assignedAt ∧ (p.after s e).lastSwitchAt = s.lastSwitchAt) ∨
      ∃ c, p.change s e = some c ∧ Since c (p.after s e) ∧ c.old = s.current ∧ p.HasMargin c ∧
        (∀ incumbent ∈ s.current, ∀ assignedAt ∈ s.assignedAt, p.minimumResidency ≤ c.time - assignedAt) ∧
        ∀ incumbent ∈ s.current, ∀ lastSwitchAt ∈ s.lastSwitchAt, p.cooldown ≤ c.time - lastSwitchAt := by
  cases e with
  | propose candidates sharingEnabled now => exact Or.inl ⟨rfl, rfl, rfl, rfl⟩
  | plan candidates sharingEnabled now =>
    have hcases := plan_cases hclock heligible
    dsimp only at hcases
    unfold change after
    dsimp only
    generalize (p.plan s candidates sharingEnabled now).2 = s' at hcases
    obtain ⟨hplacement, hassigned, hlast⟩ | ⟨hnone, ⟨d, hd⟩, hassigned, hlast⟩ |
      ⟨incumbent, d, assignedAt, hcurrent, hassigned, rfl, hne, hresidency, hcooled, hmargin⟩ := hcases
    · left
      have hsome : s'.current.isSome = s.current.isSome := by
        have hmap := congrArg Option.isSome hplacement
        rw [Option.isSome_map, Option.isSome_map] at hmap
        exact hmap
      refine ⟨?_, hsome, hassigned, hlast⟩
      cases hnew : s'.current with
      | none => rfl
      | some d =>
        rw [hnew] at hplacement
        exact if_pos hplacement.symm
    · right
      rw [hd, hnone]
      refine ⟨⟨now, candidates, none, d⟩, rfl, ⟨?_, hassigned, ?_⟩, rfl, ?_, ?_, ?_⟩
      · rw [hd]
        rfl
      · intro hswitch
        cases hswitch
      · intro old hold
        cases hold
      · intro incumbent hincumbent
        cases hincumbent
      · intro incumbent hincumbent
        cases hincumbent
    · right
      rw [hcurrent]
      refine ⟨⟨now, candidates, some incumbent, d⟩, ?_, ⟨rfl, rfl, fun _ => rfl⟩, rfl, hmargin, ?_, ?_⟩
      · exact if_neg fun heq => hne (Option.some.inj heq).symm
      · intro _ _ assignedAt' hassigned'
        rw [hassigned] at hassigned'
        obtain rfl := Option.some.inj hassigned'
        exact hresidency
      · intro _ _
        exact hcooled

/-! ### Runs -/

/-- The changes that follow a change are apart from it and from each other. -/
theorem changes_since {c : PlacementChange} (hsince : Since c s) {events : List PlannerEvent}
    (heligible : p.machine.Along p.StaysEligible s events) :
    (c :: p.changes s events).IsChain p.Spaced ∧ ∀ c' ∈ p.changes s events, p.HasMargin c' := by
  induction events generalizing c s with
  | nil => exact ⟨List.IsChain.singleton c, fun c' hc' => absurd hc' List.not_mem_nil⟩
  | cons e events ih =>
    have hrest := heligible.2 (p.after s e) rfl
    have hclock : s.current.isSome = true → s.assignedAt.isSome = true := by
      intro _
      rw [hsince.assigned]
      rfl
    unfold changes
    obtain ⟨hnone, hcurrent, hassigned, hlast⟩ | ⟨c', hsome, hsince', hold, hmargin, hresidency, hcooled⟩ :=
      change_cases hclock heligible.1
    · rw [hnone, Option.toList_none, List.nil_append]
      apply ih _ hrest
      exact ⟨hcurrent.trans hsince.current, hassigned.trans hsince.assigned,
        fun hswitch => hlast.trans (hsince.switched hswitch)⟩
    · rw [hsome, Option.toList_some, List.singleton_append]
      obtain ⟨incumbent, hincumbent⟩ := Option.isSome_iff_exists.mp hsince.current
      obtain ⟨hchain, hall⟩ := ih hsince' hrest
      refine ⟨List.IsChain.cons_cons ⟨?_, fun hswitch => ?_⟩ hchain, fun c'' hc'' => ?_⟩
      · exact hresidency incumbent hincumbent c.time hsince.assigned
      · exact hcooled incumbent hincumbent c.time (hsince.switched hswitch)
      · rcases List.mem_cons.mp hc'' with rfl | hmem
        · exact hmargin
        · exact hall c'' hmem

/-- The same before the first assignment. -/
theorem changes_spaced (hnone : s.current = none) {events : List PlannerEvent}
    (heligible : p.machine.Along p.StaysEligible s events) :
    (p.changes s events).IsChain p.Spaced ∧ ∀ c ∈ p.changes s events, p.HasMargin c := by
  induction events generalizing s with
  | nil => exact ⟨List.IsChain.nil, fun c hc => absurd hc List.not_mem_nil⟩
  | cons e events ih =>
    have hrest := heligible.2 (p.after s e) rfl
    have hclock : s.current.isSome = true → s.assignedAt.isSome = true := by
      intro hsome
      rw [hnone] at hsome
      cases hsome
    unfold changes
    obtain ⟨hkept, hcurrent, -⟩ | ⟨c, hsome, hsince, -, hmargin, -⟩ := change_cases hclock heligible.1
    · rw [hkept, Option.toList_none, List.nil_append]
      apply ih _ hrest
      rw [hnone] at hcurrent
      exact Option.not_isSome_iff_eq_none.mp (by rw [hcurrent]; exact Bool.false_ne_true)
    · rw [hsome, Option.toList_some, List.singleton_append]
      obtain ⟨hchain, hall⟩ := changes_since hsince hrest
      refine ⟨hchain, fun c' hc' => ?_⟩
      rcases List.mem_cons.mp hc' with rfl | hmem
      · exact hmargin
      · exact hall c' hmem

/-- **Proposals leave no trace.** The decisions of a run are those of its `plan` calls alone. -/
theorem decisions_filter (s : PlannerState) (events : List PlannerEvent) :
    p.decisions s events = p.decisions s (events.filter PlannerEvent.isPlan) := by
  induction events generalizing s with
  | nil => rfl
  | cons e events ih =>
    cases e with
    | plan candidates sharingEnabled now =>
      rw [List.filter_cons_of_pos (by rfl)]
      unfold decisions
      rw [ih]
    | propose candidates sharingEnabled now =>
      rw [List.filter_cons_of_neg (fun h => Bool.false_ne_true h)]
      exact ih s

/-! ### Main result -/

/-- **The changes of the committed placement are apart.** As long as the assigned manifest stays eligible,
two consecutive changes are at least the minimum residency apart, and at least the cooldown where the
earlier one was itself a switch; a manifest is only left for one with the margin over its fresh score; and
what is proposed without being committed influences no later decision. -/
theorem placement_changes_spaced (p : AutomaticContributionPlanner) (events : List PlannerEvent)
    (heligible : p.machine.Along p.StaysEligible .initial events) :
    (p.changes .initial events).IsChain p.Spaced ∧
      (∀ c ∈ p.changes .initial events, p.HasMargin c) ∧
      p.decisions .initial events = p.decisions .initial (events.filter PlannerEvent.isPlan) := by
  obtain ⟨hchain, hmargin⟩ := changes_spaced rfl heligible
  exact ⟨hchain, hmargin, decisions_filter .initial events⟩

end AutomaticContributionPlanner

/-! ### A migration -/

/-- A planner of one block. -/
def oneBlockPlanner : AutomaticContributionPlanner where
  numBlocks := 1
  jitterSeed := "node"
  minimumResidency := 900
  cooldown := 300
  switchMargin := 10
  maximumObservationAge := 90
  library :=
    { hashPrefix := fun payload =>
        ([("node\u0000sha256:1", 12591504440438071622), ("node\u0000sha256:2", 9388772368845165803),
          ("node\u0000sha256:1\u00000:1", 8329694305660979237),
          ("node\u0000sha256:1\u00001:2", 4064909465505529981),
          ("node\u0000sha256:2\u00000:1", 16689087361696572151),
          ("node\u0000sha256:2\u00001:2", 3055967957748241342)].lookup payload).getD 0
      log2 := id }
  num_blocks := by decide
  jitter_seed := by decide
  timing := by decide +kernel

/-- A model of two blocks. -/
def twoBlocks (manifestDigest : String) (replicaCounts : List Int) (h : manifestDigest ≠ "") :
    PlacementCandidate where
  modelId := "model"
  manifestDigest := manifestDigest
  priority := 0
  preferred := false
  artifactBytes := 1
  totalBlocks := 2
  health := [("status", .str "complete"), ("last_updated_age", .int 0),
    ("replica_counts", .arr (replicaCounts.map .int))]
  routeObservation := none
  remoteRouteObservation := none
  policyReason := none
  identity := ⟨by decide, h⟩
  blocks := by decide

/-- The models, by what they are covered. -/
def twoModels (first second : List Int) : List PlacementCandidate :=
  [twoBlocks "sha256:1" first (by decide), twoBlocks "sha256:2" second (by decide)]

/-- The first model is assigned; the second one loses its coverage, which does not count while the
assignment is young, and is assigned once the residency has elapsed. -/
def migration : List PlannerEvent :=
  [.plan (twoModels [1, 0] [2, 2]) true 0, .plan (twoModels [2, 2] [2, 0]) true 600,
    .propose (twoModels [2, 2] [2, 0]) true 1000, .plan (twoModels [2, 2] [2, 0]) true 1200]

theorem placement_changes_spaced_of_migration :
    (oneBlockPlanner.changes .initial migration).map (fun c => (c.time, c.new.placement)) =
        [(0, ("sha256:1", "1:2")), (1200, ("sha256:2", "1:2"))] ∧
      (oneBlockPlanner.changes .initial migration).IsChain oneBlockPlanner.Spaced :=
  ⟨by decide +kernel,
    (AutomaticContributionPlanner.placement_changes_spaced oneBlockPlanner migration
      (by decide +kernel)).1⟩

end Drift.Node
