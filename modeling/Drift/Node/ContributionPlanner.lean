import Drift.Node.RouteMetrics

/-!
# Automatic contribution placement

A node that shares its hardware serves one range of blocks of one model. The planner scores the models
it knows by their live coverage, a preference, a priority, what is known of their demand, and a share of
dispersion that is this node's own; within a model it takes the least covered window of its number of
blocks. What it has chosen it keeps for a while: it proposes the assignment it has until the minimum
residency and the cooldown have elapsed, and another model only with a margin.

* `evaluate` — one candidate, with the pass over its replica counts;
* `propose`, `commit`, `plan` — the decision, and the clocks it depends on.

Scores and clock readings are rational numbers. The first eight bytes of a SHA-256 digest and the
binary logarithm are parameters.
-/

namespace Drift.Node

open Drift.Lib Drift.Identity

def maxAutomaticPlacementCandidates : Nat := 32
def maxAutomaticPlacementBlocks : Nat := 512
def modelDispersionPoints : Rat := 32

/-- `PlacementCandidate`, as `__post_init__` admits it. -/
structure PlacementCandidate where
  modelId : String
  manifestDigest : String
  priority : Nat
  preferred : Bool
  artifactBytes : Nat
  totalBlocks : Nat
  health : List (String × Json)
  routeObservation : Option Json
  remoteRouteObservation : Option Json
  policyReason : Option String
  identity : modelId ≠ "" ∧ manifestDigest ≠ ""
  blocks : 1 ≤ totalBlocks ∧ totalBlocks ≤ maxAutomaticPlacementBlocks

/-- `PlacementDecision`. -/
structure PlacementDecision where
  modelId : String
  manifestDigest : String
  blockIndices : String
  artifactBytes : Nat
  replicaCounts : List Nat
  score : Rat
  reason : String
  deriving DecidableEq

/-- `PlacementPlan`. -/
structure PlacementPlan where
  decision : Option PlacementDecision
  reason : String
  evaluatedModels : Nat

/-- What the planner computes with and is not written here. -/
structure PlannerLibrary where
  /-- The first eight bytes of the SHA-256 digest of a text, as a number. -/
  hashPrefix : String → Fin (2 ^ 64)
  /-- `math.log2`. -/
  log2 : Rat → Rat

/-- The settings of an `AutomaticContributionPlanner`, as `__init__` admits them. -/
structure AutomaticContributionPlanner where
  numBlocks : Nat
  jitterSeed : String
  minimumResidency : Rat
  cooldown : Rat
  switchMargin : Rat
  maximumObservationAge : Rat
  library : PlannerLibrary
  num_blocks : 1 ≤ numBlocks ∧ numBlocks ≤ maxAutomaticPlacementBlocks
  jitter_seed : jitterSeed ≠ ""
  timing : 0 ≤ minimumResidency ∧ 0 ≤ cooldown ∧ 0 ≤ switchMargin ∧ 0 < maximumObservationAge

/-- What a planner remembers: `_current`, `_assigned_at` and `_last_switch_at`. -/
structure PlannerState where
  current : Option PlacementDecision
  assignedAt : Option Rat
  lastSwitchAt : Option Rat

/-- The state `__init__` leaves. -/
def PlannerState.initial : PlannerState := ⟨none, none, none⟩

/-! ### The pass over the replica counts -/

/-- The variables of the pass. The deque is listed from its front; keys compare as lists. -/
structure WindowScan where
  maxima : List Nat
  windowSum : Nat
  bestKey : Option (List Nat)
  bestStart : Nat

/-- The deque after one block: those it reaches are popped, and the block that leaves the full window is
at the front or gone. -/
def nextMaxima (numBlocks : Nat) (counts maxima : List Nat) (count index : Nat) : List Nat :=
  let maxima := (maxima.rdropWhile fun i => decide (counts.getD i 0 ≤ count)) ++ [index]
  if numBlocks ≤ index ∧ maxima.head? = some (index - numBlocks) then maxima.tail else maxima

/-- The sum after one block, without the one that leaves the full window. -/
def nextSum (numBlocks : Nat) (counts : List Nat) (windowSum count index : Nat) : Nat :=
  let windowSum := windowSum + count
  if numBlocks ≤ index then windowSum - counts.getD (index - numBlocks) 0 else windowSum

/-- One iteration of the pass, for windows of `numBlocks` blocks. -/
def WindowScan.step (numBlocks : Nat) (rank : Nat → Nat → Nat) (counts : List Nat) (scan : WindowScan)
    (item : Nat × Nat) : WindowScan :=
  let (count, index) := item
  let maxima := nextMaxima numBlocks counts scan.maxima count index
  let windowSum := nextSum numBlocks counts scan.windowSum count index
  if index + 1 < numBlocks then { scan with maxima := maxima, windowSum := windowSum }
  else
    let start := index + 1 - numBlocks
    let key := [counts.getD (maxima.headD 0) 0, windowSum, rank start (start + numBlocks), start]
    match scan.bestKey with
    | none => ⟨maxima, windowSum, some key, start⟩
    | some bestKey =>
      if key < bestKey then ⟨maxima, windowSum, some key, start⟩
      else { scan with maxima := maxima, windowSum := windowSum }

/-- The pass: where the least covered window starts. -/
def leastCoveredStart (numBlocks : Nat) (rank : Nat → Nat → Nat) (counts : List Nat) : Nat :=
  (counts.zipIdx.foldl (WindowScan.step numBlocks rank counts) ⟨[], 0, none, 0⟩).bestStart

/-- `counts`, where they are what a coverage observation may hold. -/
def readCounts (counts : Option Json) (totalBlocks : Nat) : Option (List Nat) := do
  let some (.arr items) := counts | none
  if items.length != totalBlocks then none
  else items.mapM fun
    | .int n => if n < 0 then none else some n.toNat
    | _ => none

namespace AutomaticContributionPlanner

variable (p : AutomaticContributionPlanner)

/-- `_jitter`. -/
def jitter (digest : String) : Rat :=
  modelDispersionPoints * (p.library.hashPrefix s!"{p.jitterSeed}\u0000{digest}" : Nat) / 2 ^ 64

/-- `_range_jitter`. -/
def rangeJitter (digest : String) (start stop : Nat) : Nat :=
  p.library.hashPrefix s!"{p.jitterSeed}\u0000{digest}\u0000{start}:{stop}"

/-- The pass over the replica counts, with this node's rank of the ranges. -/
def bestStart (digest : String) (counts : List Nat) : Nat :=
  leastCoveredStart p.numBlocks (p.rangeJitter digest) counts

/-! ### One candidate -/

/-- `_route_signal`. -/
def routeSignal (source : Option Json) (candidate : PlacementCandidate) (cap : Rat) :
    Rat × Option RouteUtilityObservation :=
  match source with
  | none => (0, none)
  | some source =>
    match validateRouteObservation source candidate.manifestDigest p.maximumObservationAge with
    | .error _ => (0, none)
    | .ok observation =>
      let demand := p.library.log2 (1 + observation.attemptsBucket) / p.library.log2 65
      let usefulTps : Rat := observation.usefulTokensPerSecondMilli / 1000
      let usefulThroughput := min 1 (p.library.log2 (1 + usefulTps) / p.library.log2 65)
      let reliability : Rat := observation.reliabilityMilli / 1000
      (cap * demand * usefulThroughput * reliability, some observation)

/-- What the reason says about an observation. -/
def demandReason (heading : String) : Option RouteUtilityObservation → String
  | none => ""
  | some o =>
    s!"; {heading} demand bucket {o.attemptsBucket}, useful throughput bucket " ++
      s!"{o.usefulTokensPerSecondMilli} milli-tokens/s, reliability {o.reliabilityMilli}/1000"

/-- Whether the age of a coverage observation is a number the planner accepts. -/
def isFresh (age : Option Json) : Bool :=
  match age with
  | some (.int n) => decide (0 ≤ n ∧ (n : Rat) ≤ p.maximumObservationAge)
  | some (.float _ q) => decide (0 ≤ q ∧ q ≤ p.maximumObservationAge)
  | _ => false

/-- `_evaluate`. -/
def evaluate (candidate : PlacementCandidate) : Except String PlacementDecision :=
  match candidate.policyReason with
  | some reason => .error reason
  | none =>
    if candidate.totalBlocks < p.numBlocks then
      .error s!"model has only {candidate.totalBlocks} blocks"
    else if !(match candidate.health.lookup "status" with
        | some (.str status) => status == "complete" || status == "incomplete"
        | _ => false) then
      .error "coverage observation is unavailable"
    else if !p.isFresh (candidate.health.lookup "last_updated_age") then
      .error "coverage observation is stale"
    else
      match readCounts (candidate.health.lookup "replica_counts") candidate.totalBlocks with
      | none => .error "coverage observation has invalid replica counts"
      | some counts =>
        let start := p.bestStart candidate.manifestDigest counts
        let window := (counts.drop start).take p.numBlocks
        let minimumReplicas := window.min?.getD 0
        let coveragePressure : Rat := (2 - minimumReplicas : Nat) * 100
        let preferenceBonus : Rat := if candidate.preferred then 20 else 0
        let priorityBonus : Rat := 10 / (candidate.priority + 1)
        let (localSignal, localObservation) := p.routeSignal candidate.routeObservation candidate 6
        let (remoteSignal, remoteObservation) :=
          p.routeSignal candidate.remoteRouteObservation candidate 2
        let stop := start + p.numBlocks
        .ok {
          modelId := candidate.modelId
          manifestDigest := candidate.manifestDigest
          blockIndices := s!"{start}:{stop}"
          artifactBytes := candidate.artifactBytes
          replicaCounts := window
          score := coveragePressure + preferenceBonus + priorityBonus + localSignal + remoteSignal +
            p.jitter candidate.manifestDigest
          reason := s!"selected {start}:{stop} from fresh verified coverage; " ++
            s!"minimum replicas {minimumReplicas}" ++ demandReason "local" localObservation ++
            demandReason "signed remote" remoteObservation }

/-! ### The decision -/

/-- The candidates that may be assigned, evaluated. -/
def eligible (candidates : List PlacementCandidate) : List PlacementDecision :=
  candidates.filterMap fun candidate => (p.evaluate candidate).toOption

/-- Why the others may not. -/
def rejected (candidates : List PlacementCandidate) : List String :=
  candidates.filterMap fun candidate =>
    match p.evaluate candidate with
    | .error reason => some s!"{candidate.modelId}: {reason}"
    | .ok _ => none

/-- The comparison of `max`, which keeps the first of equal ones: by score, then by digest. -/
def later (best item : PlacementDecision) : PlacementDecision :=
  if best.score < item.score ∨ (best.score = item.score ∧ best.manifestDigest < item.manifestDigest)
  then item else best

/-- The evaluation of a manifest: the first one where it occurs twice. -/
def fresh (candidates : List PlacementCandidate) (manifestDigest : String) : Option PlacementDecision :=
  (p.eligible candidates).find? (·.manifestDigest == manifestDigest)

/-- The assignment is held back, or replaced by the best one. -/
def hold (s : PlannerState) (candidates : List PlacementCandidate) (best : PlacementDecision)
    (now : Rat) : PlacementDecision :=
  match s.current, s.assignedAt with
  | some incumbent, some assignedAt =>
    match p.fresh candidates incumbent.manifestDigest with
    | none => best
    | some current =>
      -- without a switch the cooldown has elapsed for ever
      if now - assignedAt < p.minimumResidency ∨
          s.lastSwitchAt.any (fun lastSwitchAt => now - lastSwitchAt < p.cooldown) then incumbent
      else if best.manifestDigest ≠ current.manifestDigest ∧
          best.score < current.score + p.switchMargin then incumbent
      else best
  | _, _ => best

/-- `propose`. -/
def propose (s : PlannerState) (candidates : List PlacementCandidate) (sharingEnabled : Bool) (now : Rat) :
    PlacementPlan :=
  if !sharingEnabled then
    ⟨none, "sharing is disabled by contribution policy", candidates.length⟩
  else if maxAutomaticPlacementCandidates < candidates.length then
    ⟨none, s!"automatic placement candidate limit is {maxAutomaticPlacementCandidates}",
      candidates.length⟩
  else
    match p.eligible candidates with
    | [] =>
      let rejected := p.rejected candidates
      ⟨none, if rejected = [] then "no manifested models are configured" else "; ".intercalate rejected,
        candidates.length⟩
    | first :: rest =>
      let chosen := p.hold s candidates (rest.foldl later first) now
      ⟨some chosen, chosen.reason, candidates.length⟩

end AutomaticContributionPlanner

/-- `commit`. -/
def PlannerState.commit (s : PlannerState) (plan : PlacementPlan) (now : Rat) : PlannerState :=
  match plan.decision with
  | none => s
  | some decision =>
    match s.current with
    | none => { s with assignedAt := some now, current := some decision }
    | some current =>
      if decision.manifestDigest ≠ current.manifestDigest then
        ⟨some decision, some now, some now⟩
      else if decision.blockIndices ≠ current.blockIndices then
        -- a range handoff has the boundary of a migration
        ⟨some decision, some now, some now⟩
      else { s with current := some decision }

namespace AutomaticContributionPlanner

variable (p : AutomaticContributionPlanner)

/-- `plan`. -/
def plan (s : PlannerState) (candidates : List PlacementCandidate) (sharingEnabled : Bool) (now : Rat) :
    PlacementPlan × PlannerState :=
  let proposal := p.propose s candidates sharingEnabled now
  (proposal, s.commit proposal now)

end AutomaticContributionPlanner

end Drift.Node
