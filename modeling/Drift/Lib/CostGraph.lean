import Drift.Lib.Dict

/-!
# Cheapest walks

A graph is given by the costs of its edges, of which a later one replaces an earlier one between the same two nodes. A
search is described by what it promises of the walk that it finds.

* `CostGraph`, `Walk` — graphs, and walks with their costs;
* `Walk.append` — one walk after the other;
* `PathInfo`, `Finds` — what a search for a cheapest walk promises;
* `Walk.le_of_potential` — labels of the nodes that no edge exceeds bound the cost of every walk.
-/

namespace Drift.Lib

/-- The costs of the edges. -/
abbrev CostGraph (ν κ : Type*) := Dict (ν × ν) κ

namespace CostGraph

variable {ν κ : Type*} [DecidableEq ν]

/-- A walk to `target` from a node on: the nodes after that one, and the sum of the costs. -/
inductive Walk [Add κ] [Zero κ] (g : CostGraph ν κ) (target : ν) : ν → List ν → κ → Prop
  | done : Walk g target target [] 0
  | step {u v : ν} {rest : List ν} {c cost : κ} (hedge : AList.lookup (u, v) g = some c)
      (hrest : Walk g target v rest cost) : Walk g target u (v :: rest) (c + cost)

/-- What a search returns: all nodes of the walk, the two ends among them, and its cost. -/
structure PathInfo (ν κ : Type*) where
  nodes : List ν
  totalCost : κ

/-- What a search for a cheapest walk promises on a graph: it finds a walk where there is one; what it finds is a walk;
and if no edge has a negative cost then none is cheaper. -/
structure Finds [Add κ] [Zero κ] [LE κ] (findPath : CostGraph ν κ → ν → ν → Option (PathInfo ν κ))
    (g : CostGraph ν κ) (source target : ν) : Prop where
  exists_path : ∀ {rest cost}, Walk g target source rest cost → (findPath g source target).isSome = true
  walk : ∀ {path}, findPath g source target = some path →
    ∃ rest, path.nodes = source :: rest ∧ Walk g target source rest path.totalCost
  least : (∀ e c, AList.lookup e g = some c → 0 ≤ c) → ∀ {path rest cost}, findPath g source target = some path →
    Walk g target source rest cost → path.totalCost ≤ cost

/-- One walk after the other. -/
theorem Walk.append [AddMonoid κ] {g : CostGraph ν κ} {u v w : ν} {nodes nodes' : List ν} {c c' : κ}
    (h : Walk g v u nodes c) (h' : Walk g w v nodes' c') : Walk g w u (nodes ++ nodes') (c + c') := by
  induction h with
  | done =>
    rw [zero_add]
    exact h'
  | step hedge _ ih =>
    rw [add_assoc]
    exact .step hedge ih

theorem Walk.nonneg [AddMonoid κ] [Preorder κ] [AddLeftMono κ] {g : CostGraph ν κ}
    (h : ∀ e c, AList.lookup e g = some c → 0 ≤ c) {source target : ν} {nodes : List ν} {cost : κ}
    (hwalk : Walk g target source nodes cost) : 0 ≤ cost := by
  induction hwalk with
  | done => exact le_rfl
  | step hedge _ ih => exact add_nonneg (h _ _ hedge) ih

/-- Labels that rise by no more than the cost along each edge rise by no more than the cost along a walk. -/
theorem Walk.le_of_potential [AddMonoid κ] [Preorder κ] [AddRightMono κ] {g : CostGraph ν κ} {label : ν → κ}
    (h : ∀ u v c, AList.lookup (u, v) g = some c → label v ≤ label u + c) {source target : ν} {nodes : List ν}
    {cost : κ} (hwalk : Walk g target source nodes cost) : label target ≤ label source + cost := by
  induction hwalk with
  | done => rw [add_zero]
  | @step u v rest c cost hedge _ ih =>
    calc label target ≤ label v + cost := ih
      _ ≤ label u + c + cost := add_le_add_left (h u v c hedge) cost
      _ = label u + (c + cost) := add_assoc _ _ _

end CostGraph

end Drift.Lib
