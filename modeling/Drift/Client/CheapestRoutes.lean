import Drift.Client.LatencyRoute

/-!
# Cheapest routes

The walks of the inference graph are the routes: a walk follows each server to the end of its span, and so is given by
the servers that it visits. What a cheapest walk is read back as is a route that no other one is faster than.

* `Edge`, `lookup_graph_iff` — the edges of the graph, by kind;
* `walk_chain` — what a walk from a node of a server visits, what it costs and what is read off it;
* `Chain.walk` — the walk of a route;
* `min_latency_route` — when a route is returned, which one, and what is raised otherwise.
-/

namespace Drift.Client

open Drift.Lib Drift.Dht RemoteSequenceInfo

variable {s : RemoteSequenceInfo} {q : LatencyQuery}

/-! ### The table -/

/-- What the search relies on: no two spans are of one peer, and the spans at a block are those that contain it. -/
structure SpansListed (s : RemoteSequenceInfo) (q : LatencyQuery) : Prop where
  unique : ∀ {span span'}, span ∈ s.spansByPriority → span' ∈ s.spansByPriority → span.peerId = span'.peerId →
    span = span'
  mem_spansAt : ∀ {block : Nat} {span}, block < q.endIndex →
    (span ∈ s.spansAt block ↔ span ∈ s.spansByPriority ∧ span.start ≤ block ∧ (block : Int) < span.stop)

theorem RemoteSequenceInfo.FollowsInfos.spansListed (hfollows : s.FollowsInfos)
    (hstop : q.endIndex ≤ s.blockInfos.length) : SpansListed s q where
  unique {span span'} hspan hspan' heq := by
    obtain ⟨hpriority, -⟩ := hfollows
    rw [hpriority] at hspan hspan'
    exact List.inj_on_of_nodup_map (computeSpans_nodup s.blockInfos online) (mem_byLength.mp hspan)
      (mem_byLength.mp hspan') heq
  mem_spansAt {block span} hblock := by
    have hat : s.spansAt block = containing s.spansByPriority block := by
      unfold spansAt
      rw [hfollows.2, hfollows.1]
      show ((List.range s.blockInfos.length).map (containing (sortSpans s.blockInfos).1))[block]?.getD [] = _
      rw [List.getElem?_map, List.getElem?_range (hblock.trans_le hstop)]
      rfl
    rw [hat, mem_containing]

/-! ### The edges -/

theorem mem_blockRange {a b block : Nat} : block ∈ blockRange a b ↔ a ≤ block ∧ block < b := by
  unfold blockRange
  rw [List.mem_range'_1]
  omega

/-- The edges of the graph. -/
inductive Edge (s : RemoteSequenceInfo) (q : LatencyQuery) : RouteNode → RouteNode → ℚ → Prop
  | start {span : RemoteSpanInfo} (hspan : span ∈ s.spansAt q.startIndex) :
      Edge s q .start (.server span.peerId q.startIndex)
        (hopDelay (q.clientServerRtts.lookup span.peerId) q.cacheTokensNeeded span)
  | stop {span : RemoteSpanInfo} (hspan : span ∈ s.spansAt (q.endIndex - 1)) :
      Edge s q (.server span.peerId q.endIndex) .stop (rttToDelay (q.clientServerRtts.lookup span.peerId))
  | handover {block : Nat} {curSpan nextSpan : RemoteSpanInfo} (hstart : q.startIndex < block)
      (hblock : block < q.endIndex) (hcur : curSpan ∈ s.spansAt (block - 1)) (hends : curSpan.stop = block)
      (hnext : nextSpan ∈ s.spansAt block) :
      Edge s q (.server curSpan.peerId block) (.server nextSpan.peerId block)
        (hopDelay (nextRtt curSpan nextSpan) q.cacheTokensNeeded nextSpan)
  | compute {block : Nat} {span : RemoteSpanInfo} (hspan : span ∈ s.spansByPriority) (hstart : q.startIndex ≤ block)
      (hblock : block < q.endIndex) (hfirst : span.start ≤ block) (hlast : (block : Int) < span.stop) :
      Edge s q (.server span.peerId block) (.server span.peerId (block + 1)) (1 / spanRps span)

/-- The edges of a graph without a server whose rate is zero. -/
def edges (s : RemoteSequenceInfo) (q : LatencyQuery) : List ((RouteNode × RouteNode) × ℚ) :=
  s.startEdges q ++ s.stopEdges q ++ s.handoverEdges q ++ (s.computeSteps q).map fun step =>
    ((.server step.1.peerId step.2, .server step.1.peerId (step.2 + 1)), 1 / spanRps step.1)

theorem mem_computeSteps {step : RemoteSpanInfo × Nat} : step ∈ s.computeSteps q ↔
    step.1 ∈ s.spansByPriority ∧ (q.startIndex ≤ step.2 ∧ step.2 < q.endIndex) ∧
      step.1.start ≤ (step.2 : Int) ∧ (step.2 : Int) < step.1.stop := by
  unfold computeSteps
  rw [List.mem_flatMap]
  constructor
  · rintro ⟨span, hspan, hstep⟩
    obtain ⟨block, hblock, rfl⟩ := List.mem_map.mp hstep
    obtain ⟨hrange, hin⟩ := List.mem_filter.mp hblock
    exact ⟨hspan, mem_blockRange.mp hrange, of_decide_eq_true hin⟩
  · rintro ⟨hspan, hrange, hin⟩
    exact ⟨step.1, hspan, List.mem_map.mpr ⟨step.2, List.mem_filter.mpr
      ⟨mem_blockRange.mpr hrange, decide_eq_true hin⟩, rfl⟩⟩

theorem mem_edges {u v : RouteNode} {c : ℚ} : ((u, v), c) ∈ edges s q ↔ Edge s q u v c := by
  unfold edges
  rw [List.mem_append, List.mem_append, List.mem_append]
  constructor
  · rintro (((h | h) | h) | h)
    · obtain ⟨span, hspan, heq⟩ := List.mem_map.mp h
      cases heq
      exact .start hspan
    · obtain ⟨span, hspan, heq⟩ := List.mem_map.mp h
      cases heq
      exact .stop hspan
    · obtain ⟨block, hblock, h⟩ := List.mem_flatMap.mp h
      obtain ⟨curSpan, hcur, h⟩ := List.mem_flatMap.mp h
      obtain ⟨nextSpan, hnext, heq⟩ := List.mem_map.mp h
      obtain ⟨hcur, hends⟩ := List.mem_filter.mp hcur
      obtain ⟨hstart, hblock⟩ := mem_blockRange.mp hblock
      cases heq
      exact .handover hstart hblock hcur (of_decide_eq_true hends) hnext
    · obtain ⟨⟨span, block⟩, hstep, heq⟩ := List.mem_map.mp h
      obtain ⟨hspan, hrange, hfirst, hlast⟩ := mem_computeSteps.mp hstep
      cases heq
      exact .compute hspan hrange.1 hrange.2 hfirst hlast
  · intro h
    cases h with
    | start hspan => exact .inl (.inl (.inl (List.mem_map.mpr ⟨_, hspan, rfl⟩)))
    | stop hspan => exact .inl (.inl (.inr (List.mem_map.mpr ⟨_, hspan, rfl⟩)))
    | handover hstart hblock hcur hends hnext =>
      exact .inl (.inr (List.mem_flatMap.mpr ⟨_, mem_blockRange.mpr ⟨hstart, hblock⟩, List.mem_flatMap.mpr
        ⟨_, List.mem_filter.mpr ⟨hcur, decide_eq_true hends⟩, List.mem_map.mpr ⟨_, hnext, rfl⟩⟩⟩))
    | compute hspan hstart hblock hfirst hlast =>
      exact .inr (List.mem_map.mpr ⟨(_, _), mem_computeSteps.mpr ⟨hspan, ⟨hstart, hblock⟩, hfirst, hlast⟩, rfl⟩)

/-- Two nodes determine the delay between them. -/
theorem Edge.unique (hlisted : SpansListed s q) (hlt : q.startIndex < q.endIndex) {u v : RouteNode} {c c' : ℚ}
    (h : Edge s q u v c) (h' : Edge s q u v c') : c = c' := by
  have hpriority : ∀ {block : Nat} {span}, block < q.endIndex → span ∈ s.spansAt block → span ∈ s.spansByPriority :=
    fun hblock hspan => ((hlisted.mem_spansAt hblock).mp hspan).1
  generalize hu : u = u', hv : v = v' at h'
  cases h with
  | start hspan =>
    cases h' with
    | start hspan' =>
      injection hv with hpeer
      rw [hlisted.unique (hpriority hlt hspan) (hpriority hlt hspan') hpeer]
    | stop hspan' => cases hu
    | handover => cases hu
    | compute => cases hu
  | stop hspan =>
    cases h' with
    | start hspan' => cases hu
    | stop hspan' =>
      injection hu with hpeer
      rw [hpeer]
    | handover => cases hv
    | compute => cases hv
  | @handover block curSpan nextSpan hstart hblock hcur hends hnext =>
    cases h' with
    | start hspan' => cases hu
    | stop hspan' => cases hv
    | @handover block' curSpan' nextSpan' hstart' hblock' hcur' hends' hnext' =>
      injection hu with hpeer heq
      injection hv with hpeer' _
      rw [hlisted.unique (hpriority (by omega) hcur) (hpriority (by omega) hcur') hpeer,
        hlisted.unique (hpriority hblock hnext) (hpriority hblock' hnext') hpeer']
    | compute =>
      injection hu with _ heq
      injection hv with _ heq'
      omega
  | compute hspan hstart hblock hfirst hlast =>
    cases h' with
    | start hspan' => cases hu
    | stop hspan' => cases hv
    | handover =>
      injection hu with _ heq
      injection hv with _ heq'
      omega
    | compute hspan' hstart' hblock' hfirst' hlast' =>
      injection hu with hpeer _
      rw [hlisted.unique hspan hspan' hpeer]

/-- A server of the range is listed with a rate of zero. -/
def Stalls (s : RemoteSequenceInfo) (q : LatencyQuery) : Prop :=
  ∃ block span, q.startIndex ≤ block ∧ block < q.endIndex ∧ span ∈ s.spansAt block ∧ spanRps span = 0

theorem stalls_iff (hlisted : SpansListed s q) :
    Stalls s q ↔ ∃ step ∈ s.computeSteps q, spanRps step.1 = 0 := by
  constructor
  · rintro ⟨block, span, hstart, hblock, hspan, hzero⟩
    obtain ⟨hpriority, hin⟩ := (hlisted.mem_spansAt hblock).mp hspan
    exact ⟨(span, block), mem_computeSteps.mpr ⟨hpriority, ⟨hstart, hblock⟩, hin⟩, hzero⟩
  · rintro ⟨⟨span, block⟩, hstep, hzero⟩
    obtain ⟨hpriority, ⟨hstart, hblock⟩, hin⟩ := mem_computeSteps.mp hstep
    exact ⟨block, span, hstart, hblock, (hlisted.mem_spansAt hblock).mpr ⟨hpriority, hin⟩, hzero⟩

/-- The division by the rate of a server raises. -/
theorem buildInferenceGraph_of_stalls (hlisted : SpansListed s q) (hmissing : s.missingBlocks q = [])
    (hstalls : Stalls s q) : s.buildInferenceGraph q = .error .zeroDivision := by
  obtain ⟨step, hstep, hzero⟩ := (stalls_iff hlisted).mp hstalls
  have hraises : (s.computeSteps q).mapM computeEdge = .error .zeroDivision := by
    refine mapM_eq_error ⟨step, hstep, if_pos hzero⟩ fun step' _ e' he' => ?_
    unfold computeEdge at he'
    split at he'
    · cases he'
      rfl
    · cases he'
  unfold buildInferenceGraph
  rw [if_neg (not_not_intro hmissing), hraises]
  rfl

theorem buildInferenceGraph_eq (hlisted : SpansListed s q) (hmissing : s.missingBlocks q = [])
    (hstalls : ¬Stalls s q) : s.buildInferenceGraph q = .ok (Dict.ofPairs (edges s q)) := by
  have hmap : (s.computeSteps q).mapM computeEdge = .ok ((s.computeSteps q).map fun step =>
      ((.server step.1.peerId step.2, .server step.1.peerId (step.2 + 1)), 1 / spanRps step.1)) :=
    mapM_eq_map fun step hstep => if_neg fun hzero => hstalls ((stalls_iff hlisted).mpr ⟨step, hstep, hzero⟩)
  unfold buildInferenceGraph
  rw [if_neg (not_not_intro hmissing), hmap]
  rfl

theorem lookup_graph_iff (hlisted : SpansListed s q) (hlt : q.startIndex < q.endIndex) {u v : RouteNode} {c : ℚ} :
    AList.lookup (u, v) (Dict.ofPairs (edges s q) : CostGraph RouteNode ℚ) = some c ↔ Edge s q u v c := by
  rw [Dict.lookup_ofPairs_iff, mem_edges]
  rintro ⟨u, v⟩ c c' h h'
  exact (mem_edges.mp h).unique hlisted hlt (mem_edges.mp h')

/-! ### From walks to routes -/

theorem lookup_serverInfos (hlisted : SpansListed s q) {block : Nat} {span : RemoteSpanInfo}
    (hstart : q.startIndex ≤ block) (hblock : block < q.endIndex) (hspan : span ∈ s.spansAt block) :
    (s.serverInfos q).lookup span.peerId = some span.serverInfo := by
  have hmem : ∀ {peerId info}, (peerId, info) ∈ (blockRange q.startIndex q.endIndex).flatMap (fun block =>
      (s.spansAt block).map fun span => (span.peerId, span.serverInfo)) ↔
      ∃ block, (q.startIndex ≤ block ∧ block < q.endIndex) ∧
        ∃ span ∈ s.spansAt block, (span.peerId, span.serverInfo) = (peerId, info) := by
    intro peerId info
    rw [List.mem_flatMap]
    exact exists_congr fun block => and_congr mem_blockRange List.mem_map
  unfold serverInfos
  rw [Dict.lookup_ofPairs_iff, hmem]
  · exact ⟨block, ⟨hstart, hblock⟩, span, hspan, rfl⟩
  · intro peerId info info' h h'
    obtain ⟨block, hblock, span, hspan, heq⟩ := hmem.mp h
    obtain ⟨block', hblock', span', hspan', heq'⟩ := hmem.mp h'
    obtain ⟨rfl, rfl⟩ := Prod.mk.inj heq
    obtain ⟨hpeer, rfl⟩ := Prod.mk.inj heq'
    rw [hlisted.unique ((hlisted.mem_spansAt hblock.2).mp hspan).1 ((hlisted.mem_spansAt hblock'.2).mp hspan').1
      hpeer.symm]

/-- The servers that a route may go on with after a span. -/
def Onward (s : RemoteSequenceInfo) (endIndex : Nat) (span : RemoteSpanInfo) (tail : List RemoteSpanInfo) : Prop :=
  endIndex ≤ span.stop ∧ tail = [] ∨ span.stop < endIndex ∧ Chain s endIndex span.stop.toNat tail

theorem Onward.chain {endIndex current : Nat} {span : RemoteSpanInfo} {tail : List RemoteSpanInfo}
    (h : Onward s endIndex span tail) (hspan : span ∈ s.spansAt current) : Chain s endIndex current (span :: tail) := by
  obtain ⟨hstop, rfl⟩ | ⟨hstop, hrest⟩ := h
  · exact .last hspan hstop
  · exact .hop hspan hstop hrest

/-- The hop that is open when the loop has come to a node of its server. -/
def openHop (span : RemoteSpanInfo) (first block : Nat) : RemoteSpanInfo := { span with start := first, stop := block }

section AddNode

variable {infos : Dict String ServerInfo} {acc : List RemoteSpanInfo} {span : RemoteSpanInfo} {first block : Nat}

theorem addNode_nil (hinfo : infos.lookup span.peerId = some span.serverInfo) :
    addNode infos [] (.server span.peerId block) = .ok [openHop span block block] := by
  show beginSpan infos [] span.peerId block = _
  unfold beginSpan
  rw [hinfo]
  rfl

/-- A node of the same server moves the end of the hop. -/
theorem addNode_same (next : Nat) : addNode infos (acc ++ [openHop span first block]) (.server span.peerId next) =
    .ok (acc ++ [openHop span first next]) := by
  unfold addNode
  rw [List.getLast?_concat]
  dsimp only
  rw [if_neg (show ¬(openHop span first block).peerId ≠ span.peerId from not_not_intro rfl), List.dropLast_concat]
  rfl

/-- A node of another server begins a hop. -/
theorem addNode_next {nextSpan : RemoteSpanInfo} (hne : span.peerId ≠ nextSpan.peerId)
    (hinfo : infos.lookup nextSpan.peerId = some nextSpan.serverInfo) :
    addNode infos (acc ++ [openHop span first block]) (.server nextSpan.peerId block) =
      .ok (acc ++ [openHop span first block] ++ [openHop nextSpan block block]) := by
  unfold addNode
  rw [List.getLast?_concat]
  dsimp only
  rw [if_pos (show (openHop span first block).peerId ≠ nextSpan.peerId from hne)]
  unfold beginSpan
  rw [hinfo]
  rfl

end AddNode

open CostGraph in
/-- **What a walk from a node of a server is.** It runs to the end of the span of the server, and on along a route: with
the delays of that route, and its hops are what the loop reads off. -/
theorem walk_chain (hlisted : SpansListed s q) (hlt : q.startIndex < q.endIndex) {g : CostGraph RouteNode ℚ}
    (hg : ∀ {u v c}, AList.lookup (u, v) g = some c → Edge s q u v c) {rest : List RouteNode}
    {span : RemoteSpanInfo} (hspan : span ∈ s.spansByPriority) {block : Nat} {cost : ℚ}
    (hwalk : Walk g .stop (.server span.peerId block) rest cost) (hstart : q.startIndex ≤ block)
    (hfirst : span.start ≤ block) (hlast : block ≤ span.stop) (hblock : block ≤ q.endIndex) :
    ∃ tail, Onward s q.endIndex span tail ∧
      cost = ((min span.stop q.endIndex - block : Int) : ℚ) / spanRps span +
        q.chainDelay (some span) span.stop.toNat tail ∧
      ∀ acc first, rest.dropLast.foldlM (addNode (s.serverInfos q)) (acc ++ [openHop span first block]) =
        .ok (acc ++ hops q.endIndex first (span :: tail)) := by
  induction rest generalizing span block cost with
  | nil => cases hwalk
  | cons v rest ih =>
    cases hwalk with
    | @step _ _ _ c cost hedge hrest =>
    have hedge := hg hedge
    generalize hu : RouteNode.server span.peerId block = u at hedge
    cases hedge with
    | start => cases hu
    | @stop span' hspan' =>
      injection hu with hpeer hend
      obtain ⟨hpriority, -, hreaches⟩ := (hlisted.mem_spansAt (by omega)).mp hspan'
      obtain rfl := hlisted.unique hspan hpriority hpeer
      have hstop : (q.endIndex : Int) ≤ span.stop := by omega
      -- nothing leaves the end
      cases hrest with
      | step hedge' _ => cases hg hedge'
      | done =>
        refine ⟨[], .inl ⟨hstop, rfl⟩, ?_, fun acc first => ?_⟩
        · rw [min_eq_right hstop, hend, sub_self, Int.cast_zero, zero_div, zero_add, add_zero]
          rfl
        · show _ = Except.ok (acc ++ [{ span with start := first, stop := min span.stop q.endIndex }])
          rw [min_eq_right hstop, ← hend]
          rfl
    | @handover block' curSpan nextSpan hbefore hafter hcur hends hnext =>
      injection hu with hpeer heq
      obtain rfl := heq
      obtain rfl := hlisted.unique hspan ((hlisted.mem_spansAt (by omega)).mp hcur).1 hpeer
      obtain ⟨hnextSpan, hnextFirst, hnextLast⟩ := (hlisted.mem_spansAt hafter).mp hnext
      have htoNat : span.stop.toNat = block := by omega
      have hstops : span.stop < q.endIndex := by omega
      obtain ⟨tail, honward, hcost, hloop⟩ := ih hnextSpan hrest hstart hnextFirst hnextLast.le hafter.le
      have hne : span.peerId ≠ nextSpan.peerId := by
        intro hsame
        obtain rfl := hlisted.unique hspan hnextSpan hsame
        omega
      refine ⟨nextSpan :: tail, .inr ⟨hstops, htoNat.symm ▸ honward.chain hnext⟩, ?_, fun acc first => ?_⟩
      · rw [hcost, htoNat, min_eq_left hstops.le, hends, sub_self, Int.cast_zero, zero_div, zero_add]
        rfl
      · have hrest' : rest ≠ [] := by
          rintro rfl
          cases hrest
        rw [List.dropLast_cons_of_ne_nil hrest', List.foldlM_cons,
          addNode_next hne (lookup_serverInfos hlisted hstart hafter hnext)]
        refine (hloop _ block).trans ?_
        show _ = Except.ok (acc ++ ({ span with start := first, stop := min span.stop q.endIndex } ::
          hops q.endIndex span.stop.toNat (nextSpan :: tail)))
        rw [min_eq_left hstops.le, htoNat, List.append_assoc, List.singleton_append, hends]
        rfl
    | @compute block' span' hspan' hfrom hto hin hbefore =>
      injection hu with hpeer heq
      obtain rfl := heq
      obtain rfl := hlisted.unique hspan hspan' hpeer
      obtain ⟨tail, honward, hcost, hloop⟩ := ih hspan hrest (by omega) (by push_cast; omega) (by push_cast; omega) hto
      refine ⟨tail, honward, ?_, fun acc first => ?_⟩
      · rw [hcost, ← add_assoc, ← add_div]
        push_cast
        ring
      · have hrest' : rest ≠ [] := by
          rintro rfl
          cases hrest
        rw [List.dropLast_cons_of_ne_nil hrest', List.foldlM_cons, addNode_same]
        exact hloop acc first

/-! ### From routes to walks -/

namespace RemoteSequenceInfo

theorem mem_missingBlocks {block : Nat} : block ∈ s.missingBlocks q ↔
    (q.startIndex ≤ block ∧ block < q.endIndex) ∧ s.spansAt block = [] := by
  unfold missingBlocks
  rw [List.mem_filter, mem_blockRange, List.isEmpty_iff]

/-- A route always goes on: where no block is missing, there is one from every block. -/
theorem exists_chain (hlisted : SpansListed s q) (hmissing : s.missingBlocks q = []) {current : Nat}
    (hstart : q.startIndex ≤ current) (hlt : current < q.endIndex) : ∃ chain, Chain s q.endIndex current chain := by
  induction hn : q.endIndex - current using Nat.strong_induction_on generalizing current with
  | _ n ih =>
    have hne : s.spansAt current ≠ [] := by
      intro hnil
      have hmem := mem_missingBlocks.mpr ⟨⟨hstart, hlt⟩, hnil⟩
      rw [hmissing] at hmem
      cases hmem
    obtain ⟨span, hspan⟩ := List.exists_mem_of_ne_nil _ hne
    obtain ⟨-, -, hreaches⟩ := (hlisted.mem_spansAt hlt).mp hspan
    by_cases hstop : (q.endIndex : Int) ≤ span.stop
    · exact ⟨[span], .last hspan hstop⟩
    · -- the span ends later than it is entered, so less is left
      have hstop : span.stop < q.endIndex := Int.not_le.mp hstop
      have hless : q.endIndex - span.stop.toNat < n := by omega
      have hwithin : q.startIndex ≤ span.stop.toNat ∧ span.stop.toNat < q.endIndex := by omega
      obtain ⟨rest, hrest⟩ := ih _ hless hwithin.1 hwithin.2 rfl
      exact ⟨span :: rest, .hop hspan hstop hrest⟩

open CostGraph in
/-- The blocks of a server, one after the other. -/
theorem walk_blocks {g : CostGraph RouteNode ℚ} (hg : ∀ {u v c}, Edge s q u v c → AList.lookup (u, v) g = some c)
    {span : RemoteSpanInfo} (hspan : span ∈ s.spansByPriority) {first : Nat} (hstart : q.startIndex ≤ first)
    (hfirst : span.start ≤ first) (n : Nat) (hend : first + n ≤ q.endIndex)
    (hlast : ((first + n : Nat) : Int) ≤ span.stop) :
    ∃ nodes, Walk g (.server span.peerId (first + n)) (.server span.peerId first) nodes (n / spanRps span) := by
  induction n generalizing first with
  | zero => exact ⟨[], by simpa using Walk.done⟩
  | succ n ih =>
    have hlast' : ((first + 1 + n : Nat) : Int) ≤ span.stop := by
      rw [Nat.add_right_comm]
      exact hlast
    have hfirst' : span.start ≤ ((first + 1 : Nat) : Int) := by
      push_cast
      omega
    obtain ⟨nodes, hnodes⟩ := ih (Nat.le_succ_of_le hstart) hfirst' (by omega) hlast'
    refine ⟨.server span.peerId (first + 1) :: nodes, ?_⟩
    have hstep := Walk.step (hg (.compute hspan hstart (by omega) hfirst (by push_cast at hlast; omega))) hnodes
    rw [← add_div, Nat.add_right_comm first 1 n, Nat.add_assoc first n 1] at hstep
    rw [Nat.cast_succ, add_comm (n : ℚ) 1]
    exact hstep

open CostGraph in
/-- **Every route is a walk**, whose cost is the delay of the route. -/
theorem Chain.walk (hlisted : SpansListed s q) {g : CostGraph RouteNode ℚ}
    (hg : ∀ {u v c}, Edge s q u v c → AList.lookup (u, v) g = some c) {current : Nat} {chain : List RemoteSpanInfo}
    (hchain : Chain s q.endIndex current chain) (hstart : q.startIndex ≤ current) (hlt : current < q.endIndex)
    {before : Option RemoteSpanInfo} {u : RouteNode}
    (henter : ∀ span ∈ s.spansAt current, Edge s q u (.server span.peerId current)
      (hopDelay (q.rttFrom before span) q.cacheTokensNeeded span)) :
    ∃ nodes, Walk g .stop u nodes (q.chainDelay before current chain) := by
  induction hchain generalizing before u with
  | @last current span hspan hstop =>
    obtain ⟨hpriority, hfirst, -⟩ := (hlisted.mem_spansAt hlt).mp hspan
    obtain ⟨nodes, hnodes⟩ := walk_blocks hg hpriority hstart hfirst (q.endIndex - current) (by omega) (by omega)
    rw [Nat.add_sub_cancel' hlt.le, Nat.cast_sub hlt.le] at hnodes
    have hlast : span ∈ s.spansAt (q.endIndex - 1) :=
      (hlisted.mem_spansAt (by omega)).mpr ⟨hpriority, by omega, by omega⟩
    have happended := hnodes.append (.step (hg (.stop hlast)) .done)
    rw [add_zero] at happended
    refine ⟨.server span.peerId current :: (nodes ++ [.stop]), .step (hg (henter span hspan)) ?_⟩
    rw [min_eq_right hstop]
    push_cast
    exact happended
  | @hop current span rest hspan hstop hrest ih =>
    obtain ⟨hpriority, hfirst, hreaches⟩ := (hlisted.mem_spansAt hlt).mp hspan
    have hnat : ((span.stop.toNat : Nat) : Int) = span.stop := Int.toNat_of_nonneg (by omega)
    obtain ⟨nodes, hnodes⟩ := walk_blocks hg hpriority hstart hfirst (span.stop.toNat - current) (by omega) (by omega)
    rw [Nat.add_sub_cancel' (by omega : current ≤ span.stop.toNat), Nat.cast_sub (by omega)] at hnodes
    have hends : span ∈ s.spansAt (span.stop.toNat - 1) :=
      (hlisted.mem_spansAt (by omega)).mpr ⟨hpriority, by omega, by omega⟩
    have hleave : ∀ nextSpan ∈ s.spansAt span.stop.toNat, Edge s q (.server span.peerId span.stop.toNat)
        (.server nextSpan.peerId span.stop.toNat)
        (hopDelay (q.rttFrom (some span) nextSpan) q.cacheTokensNeeded nextSpan) :=
      fun nextSpan hnext => .handover (by omega) (by omega) hends hnat.symm hnext
    obtain ⟨nodes', hnodes'⟩ := ih (by omega) (by omega) hleave
    have happended := hnodes.append hnodes'
    rw [← Int.cast_natCast span.stop.toNat, hnat] at happended
    refine ⟨.server span.peerId current :: (nodes ++ nodes'), .step (hg (henter span hspan)) ?_⟩
    rw [min_eq_left hstop.le]
    push_cast
    exact happended

/-! ### What a route is -/

/-- The span of a session for a hop. -/
def hopSpan (hop : RemoteSpanInfo) : BlockSpan := ⟨hop.start.toNat, hop.stop.toNat⟩

/-- The hops of a route follow each other, none is empty, and the last one ends at `endIndex`. -/
theorem Chain.covers_hops (hlisted : SpansListed s q) {current : Nat} {chain : List RemoteSpanInfo}
    (hchain : Chain s q.endIndex current chain) (hlt : current < q.endIndex) :
    Covers current q.endIndex ((hops q.endIndex current chain).map hopSpan) ∧
      ∀ hop ∈ hops q.endIndex current chain, 0 < hop.length := by
  induction hchain with
  | @last current span hspan hstop =>
    refine ⟨⟨Int.toNat_natCast current, hlt, ?_⟩, fun hop hhop => ?_⟩
    · show q.endIndex ≤ (min span.stop q.endIndex).toNat
      omega
    · obtain rfl := List.mem_singleton.mp hhop
      show 0 < min span.stop q.endIndex - (current : Int)
      omega
  | @hop current span rest hspan hstop hrest ih =>
    obtain ⟨-, -, hreaches⟩ := (hlisted.mem_spansAt hlt).mp hspan
    obtain ⟨hcovers, hlength⟩ := ih (by omega)
    have hstops : (min span.stop q.endIndex).toNat = span.stop.toNat := congrArg Int.toNat (min_eq_left hstop.le)
    have hbefore : (current : Int).toNat < (min span.stop q.endIndex).toNat := by omega
    have hmeets : Covers (min span.stop q.endIndex).toNat q.endIndex
        ((hops q.endIndex span.stop.toNat rest).map hopSpan) := by
      rw [hstops]
      exact hcovers
    constructor
    · -- there is a next hop, so this one is not the last of the list
      cases hrest with
      | last hspan' hstop' => exact ⟨Int.toNat_natCast current, hbefore, hmeets⟩
      | hop hspan' hstop' hrest' => exact ⟨Int.toNat_natCast current, hbefore, hmeets⟩
    · intro hop hhop
      cases hhop with
      | head =>
        show 0 < min span.stop q.endIndex - (current : Int)
        omega
      | tail _ hhop => exact hlength hop hhop

end RemoteSequenceInfo

/-! ### Delays -/

/-- What `ServerInfo` checks of the fields that delays are made of. -/
structure RatesValid (info : ServerInfo) : Prop where
  inferenceRps : ∀ rps, inferenceRps info = some rps → 0 ≤ rps
  nextPings : ∀ pings, nextPings info = some pings → ∀ peerId value, pings.lookup peerId = some value →
    0 ≤ rttOf value

theorem rttToDelay_nonneg {rtt : Option (WithTop ℚ)} (h : ∀ r, rtt = some r → 0 ≤ r) : 0 ≤ rttToDelay rtt := by
  match rtt with
  | none => norm_num [rttToDelay]
  | some none => norm_num [rttToDelay]
  | some (some r) =>
    have hr : (0 : ℚ) ≤ r := WithTop.coe_le_coe.mp (h _ rfl)
    exact le_min (by linarith) (by norm_num)

/-- No hop takes less than the overhead. -/
theorem overheadDelay_le_hopDelay {rtt : Option (WithTop ℚ)} (h : ∀ r, rtt = some r → 0 ≤ r) (needed : Option Nat)
    (span : RemoteSpanInfo) : overheadDelay ≤ hopDelay rtt needed span := by
  have hdelay := rttToDelay_nonneg h
  unfold hopDelay allocDelay
  split_ifs <;> linarith

theorem overheadDelay_pos : 0 < overheadDelay := by norm_num [overheadDelay]

/-- No delay is negative, and the first hop takes its time. -/
theorem Edge.nonneg (hrtts : ∀ peerId rtt, q.clientServerRtts.lookup peerId = some rtt → 0 ≤ rtt)
    (hvalid : ∀ span ∈ s.spansByPriority, RatesValid span.serverInfo) (hlisted : SpansListed s q) {u v : RouteNode}
    {c : ℚ} (h : Edge s q u v c) : 0 ≤ c ∧ (u = .start → 0 < c) := by
  cases h with
  | start hspan =>
    exact ⟨overheadDelay_pos.le.trans (overheadDelay_le_hopDelay (hrtts _) _ _),
      fun _ => overheadDelay_pos.trans_le (overheadDelay_le_hopDelay (hrtts _) _ _)⟩
  | stop hspan => exact ⟨rttToDelay_nonneg (hrtts _), fun hu => by cases hu⟩
  | @handover block curSpan nextSpan hstart hblock hcur hends hnext =>
    have hcurSpan : curSpan ∈ s.spansByPriority := ((hlisted.mem_spansAt (by omega)).mp hcur).1
    have hrtt : ∀ r, nextRtt curSpan nextSpan = some r → 0 ≤ r := by
      intro r hr
      obtain ⟨pings, hpings, hr⟩ := Option.bind_eq_some_iff.mp hr
      obtain ⟨value, hvalue, rfl⟩ := Option.map_eq_some_iff.mp hr
      exact (hvalid curSpan hcurSpan).nextPings pings hpings _ value hvalue
    exact ⟨overheadDelay_pos.le.trans (overheadDelay_le_hopDelay hrtt _ _), fun hu => by cases hu⟩
  | compute hspan =>
    refine ⟨one_div_nonneg.mpr ?_, fun hu => by cases hu⟩
    unfold spanRps
    cases hrps : inferenceRps _ with
    | none => norm_num [defaultInferenceRps]
    | some rps => exact (hvalid _ hspan).inferenceRps rps hrps

/-! ### The search -/

theorem makeSequence_of_missing (hlt : q.startIndex < q.endIndex) (hmissing : s.missingBlocks q ≠ []) :
    s.makeSequenceWithMinLatency q = .error (.missingBlocks (s.missingBlocks q)) := by
  unfold makeSequenceWithMinLatency
  rw [if_neg hlt.ne, if_pos hmissing]

theorem makeSequence_of_stalls (hlisted : SpansListed s q) (hlt : q.startIndex < q.endIndex)
    (hmissing : s.missingBlocks q = []) (hstalls : Stalls s q) :
    s.makeSequenceWithMinLatency q = .error .zeroDivision := by
  unfold makeSequenceWithMinLatency
  rw [if_neg hlt.ne, if_neg (not_not_intro hmissing), buildInferenceGraph_of_stalls hlisted hmissing hstalls]
  rfl

/-- What the search returns: the route of a cheapest walk. -/
theorem makeSequence_of_path (hlisted : SpansListed s q) (hlt : q.startIndex < q.endIndex)
    (hmissing : s.missingBlocks q = []) (hstalls : ¬Stalls s q)
    (hrtts : ∀ peerId rtt, q.clientServerRtts.lookup peerId = some rtt → 0 ≤ rtt)
    (hvalid : ∀ span ∈ s.spansByPriority, RatesValid span.serverInfo)
    (hfind : CostGraph.Finds q.findPath (Dict.ofPairs (edges s q)) .start .stop) :
    ∃ chain, s.makeSequenceWithMinLatency q = .ok (hops q.endIndex q.startIndex chain) ∧
      Chain s q.endIndex q.startIndex chain ∧ ∀ chain', Chain s q.endIndex q.startIndex chain' →
        q.chainDelay none q.startIndex chain ≤ q.chainDelay none q.startIndex chain' := by
  have hgraph := fun {u v c} => lookup_graph_iff hlisted hlt (u := u) (v := v) (c := c)
  have hnonneg := fun {u v c} (h : Edge s q u v c) => h.nonneg hrtts hvalid hlisted
  -- every route is one of the walks to choose from
  have hwalks : ∀ {chain}, Chain s q.endIndex q.startIndex chain → ∃ nodes, CostGraph.Walk (Dict.ofPairs (edges s q))
      .stop .start nodes (q.chainDelay none q.startIndex chain) := fun hchain =>
    hchain.walk hlisted hgraph.mpr le_rfl hlt fun span hspan => .start hspan
  obtain ⟨chain₀, hchain₀⟩ := exists_chain hlisted hmissing le_rfl hlt
  obtain ⟨nodes₀, hnodes₀⟩ := hwalks hchain₀
  obtain ⟨path, hpath⟩ := Option.isSome_iff_exists.mp (hfind.exists_path hnodes₀)
  obtain ⟨rest, hnodes, hwalk⟩ := hfind.walk hpath
  generalize htotal : path.totalCost = total at hwalk
  cases hwalk with
  | @step _ v rest c cost hedge hrest =>
  have hedge := hgraph.mp hedge
  have hfirst := hnonneg hedge
  generalize hu : RouteNode.start = u at hedge
  cases hedge with
  | stop => cases hu
  | handover => cases hu
  | compute => cases hu
  | @start span hspan =>
    obtain ⟨hpriority, hbegins, hreaches⟩ := (hlisted.mem_spansAt hlt).mp hspan
    obtain ⟨tail, honward, hcost, hloop⟩ := walk_chain hlisted hlt hgraph.mp hpriority hrest le_rfl hbegins hreaches.le
      hlt.le
    have hchain := honward.chain hspan
    have hpositive : 0 < path.totalCost := by
      rw [htotal]
      exact add_pos_of_pos_of_nonneg (hfirst.2 rfl) (hrest.nonneg fun e c he => (hnonneg (hgraph.mp he)).1)
    refine ⟨span :: tail, ?_, hchain, fun chain' hchain' => ?_⟩
    · have hrest' : rest ≠ [] := by
        rintro rfl
        cases hrest
      unfold makeSequenceWithMinLatency
      rw [if_neg hlt.ne, if_neg (not_not_intro hmissing), buildInferenceGraph_eq hlisted hmissing hstalls]
      dsimp only [bind, Except.bind]
      rw [hpath]
      dsimp only
      rw [if_neg fun h => hpositive.ne' h.2.2, hnodes, List.drop_one, List.tail_cons,
        List.dropLast_cons_of_ne_nil hrest', List.foldlM_cons,
        addNode_nil (lookup_serverInfos hlisted le_rfl hlt hspan)]
      dsimp only [bind, Except.bind]
      have hread := hloop [] q.startIndex
      rw [List.nil_append] at hread
      rw [hread]
      show Except.ok (List.filter _ _) = _
      rw [List.nil_append, List.filter_eq_self.mpr fun hop hhop =>
        decide_eq_true ((hchain.covers_hops hlisted hlt).2 hop hhop)]
    · obtain ⟨nodes', hnodes'⟩ := hwalks hchain'
      calc q.chainDelay none q.startIndex (span :: tail) = path.totalCost := by
            rw [htotal, hcost]
            rfl
        _ ≤ q.chainDelay none q.startIndex chain' :=
            hfind.least (fun e c he => (hnonneg (hgraph.mp he)).1) hpath hnodes'

/-- The records of the spans are those that the blocks list. -/
theorem RemoteSequenceInfo.FollowsInfos.ratesValid (hfollows : s.FollowsInfos)
    (hvalid : ∀ info ∈ s.blockInfos, ∀ peerId record, info.servers.lookup peerId = some record → RatesValid record) :
    ∀ span ∈ s.spansByPriority, RatesValid span.serverInfo := by
  intro span hspan
  rw [hfollows.1] at hspan
  obtain ⟨block, hof⟩ := spanOf_of_mem (mem_byLength.mp hspan)
  obtain ⟨hlookup, -⟩ := Option.filter_eq_some_iff.mp hof.decides.lists
  obtain ⟨info, hinfo, hlookup⟩ := Option.bind_eq_some_iff.mp hlookup
  exact hvalid info (List.mem_of_getElem? hinfo) _ _ hlookup

/-- **Routes of least latency.** For every table that updates and removals lead to: a route is missing exactly when some
block of the range is in no span, all of which blocks the error names, or when a server of the range announces the rate
zero, by which the delays are divided. Otherwise the route covers the blocks of the range, each server but the last is
followed to the end of its span, and no such route is faster. -/
theorem min_latency_route (blockUids : List ModuleUid)
    (hreach : tableMachine.Reach Aligned (makeEmpty blockUids) s) (hlt : q.startIndex < q.endIndex)
    (hstop : q.endIndex ≤ s.blockInfos.length)
    (hfind : ∀ g, s.buildInferenceGraph q = .ok g → CostGraph.Finds q.findPath g .start .stop)
    (hrtts : ∀ peerId rtt, q.clientServerRtts.lookup peerId = some rtt → 0 ≤ rtt)
    (hvalid : ∀ info ∈ s.blockInfos, ∀ peerId record, info.servers.lookup peerId = some record → RatesValid record) :
    (∀ e, s.makeSequenceWithMinLatency q = .error e ↔
      s.missingBlocks q ≠ [] ∧ e = .missingBlocks (s.missingBlocks q) ∨
        s.missingBlocks q = [] ∧ Stalls s q ∧ e = .zeroDivision) ∧
    ∀ route, s.makeSequenceWithMinLatency q = .ok route →
      ∃ chain, Chain s q.endIndex q.startIndex chain ∧ route = hops q.endIndex q.startIndex chain ∧
        Covers q.startIndex q.endIndex (route.map hopSpan) ∧
        ∀ chain', Chain s q.endIndex q.startIndex chain' →
          q.chainDelay none q.startIndex chain ≤ q.chainDelay none q.startIndex chain' := by
  have hfollows : s.FollowsInfos := hreach.invariant (makeEmpty_follows blockUids) fun _ _ _ _ haligned hnext =>
    follows_next haligned hnext
  have hlisted : SpansListed s q := hfollows.spansListed hstop
  by_cases hmissing : s.missingBlocks q = []
  · by_cases hstalls : Stalls s q
    · have hraises := makeSequence_of_stalls hlisted hlt hmissing hstalls
      refine ⟨fun e => ?_, fun route hroute => ?_⟩
      · rw [hraises]
        constructor
        · intro h
          cases h
          exact .inr ⟨hmissing, hstalls, rfl⟩
        · rintro (⟨h, -⟩ | ⟨-, -, rfl⟩)
          · exact absurd hmissing h
          · rfl
      · rw [hraises] at hroute
        cases hroute
    · -- nothing is raised: the search finds a walk, as there is one
      obtain ⟨chain, hroute, hchain, hleast⟩ := makeSequence_of_path hlisted hlt hmissing hstalls hrtts
        (hfollows.ratesValid hvalid) (hfind _ (buildInferenceGraph_eq hlisted hmissing hstalls))
      refine ⟨fun e => ?_, fun route hroute' => ?_⟩
      · rw [hroute]
        constructor
        · intro h
          cases h
        · rintro (⟨h, -⟩ | ⟨-, h, -⟩)
          · exact absurd hmissing h
          · exact absurd h hstalls
      · obtain rfl := Except.ok.inj (hroute.symm.trans hroute')
        exact ⟨chain, hchain, rfl, (hchain.covers_hops hlisted hlt).1, hleast⟩
  · have hraises := makeSequence_of_missing hlt hmissing
    refine ⟨fun e => ?_, fun route hroute => ?_⟩
    · rw [hraises]
      constructor
      · intro h
        cases h
        exact .inl ⟨hmissing, rfl⟩
      · rintro (⟨-, rfl⟩ | ⟨h, -⟩)
        · rfl
        · exact absurd h hmissing
    · rw [hraises] at hroute
      cases hroute

/-! ### Three servers -/

/-- An online server of blocks from `first` on, with a rate if it has one. -/
def rateRecord (first last : Nat) (rate : List (String × Json)) : ServerInfo :=
  { staleRecord with startBlock := some first, endBlock := some last, otherFields := rate }

/-- Two blocks: a server of each, and a slow one of both. -/
def rateBlocks : List RemoteModuleInfo :=
  [⟨⟨"m", 0⟩, ((∅ : Dict String ServerInfo).insert "a" (rateRecord 0 1 [])).insert "c"
      (rateRecord 0 2 [("inference_rps", .int 4)])⟩,
    ⟨⟨"m", 1⟩, ((∅ : Dict String ServerInfo).insert "b" (rateRecord 1 2 [])).insert "c"
      (rateRecord 0 2 [("inference_rps", .int 4)])⟩]

def rateTable : RemoteSequenceInfo := ((makeEmpty [⟨"m", 0⟩, ⟨"m", 1⟩]).update rateBlocks).2

/-- The search on that table, from its first block to its last, by its cheapest walk. -/
def rateQuery : LatencyQuery where
  findPath _ _ _ := some ⟨[.start, .server "a" 0, .server "a" 1, .server "b" 1, .server "b" 2, .stop],
    168 / 1000 + (1 / 300 + (168 / 1000 + (1 / 300 + (15 / 100 + 0))))⟩
  clientServerRtts := ∅
  cacheTokensNeeded := none
  startIndex := 0
  endIndex := 2

/-- The costs of the cheapest walks to the nodes. -/
def rateLabel : RouteNode → ℚ
  | .start => 0
  | .server _ 0 => 168 / 1000
  | .server "a" _ => 168 / 1000 + 1 / 300
  | .server "b" block => 336 / 1000 + block / 300
  | .server _ block => 336 / 1000 + 1 / 300 + (block - 1) / 4
  | .stop => 486 / 1000 + 2 / 300

/-- No edge falls short of the labels, and the edges of the walk are there. -/
def RateChecked (g : CostGraph RouteNode ℚ) : Prop :=
  (∀ e ∈ g.entries, rateLabel e.1.2 ≤ rateLabel e.1.1 + e.2) ∧
    AList.lookup (.start, .server "a" 0) g = some (168 / 1000) ∧
    AList.lookup (.server "a" 0, .server "a" 1) g = some (1 / 300) ∧
    AList.lookup (.server "a" 1, .server "b" 1) g = some (168 / 1000) ∧
    AList.lookup (.server "b" 1, .server "b" 2) g = some (1 / 300) ∧
    AList.lookup (.server "b" 2, .stop) g = some (15 / 100)

instance (g : CostGraph RouteNode ℚ) : Decidable (RateChecked g) := by
  unfold RateChecked
  infer_instance

theorem finds_of_rateChecked {g : CostGraph RouteNode ℚ} (h : RateChecked g) :
    CostGraph.Finds rateQuery.findPath g .start .stop := by
  obtain ⟨hlabels, hstart, hfirst, hhop, hlast, hstop⟩ := h
  refine ⟨fun _ => rfl, fun {path} hpath => ?_, fun _ path rest cost hpath hwalk => ?_⟩
  · obtain rfl := Option.some.inj hpath
    exact ⟨_, rfl, .step hstart (.step hfirst (.step hhop (.step hlast (.step hstop .done))))⟩
  · obtain rfl := Option.some.inj hpath
    have hbound : rateLabel .stop ≤ rateLabel .start + cost := hwalk.le_of_potential fun u v c hedge =>
      hlabels ⟨(u, v), c⟩ (AList.mem_lookup_iff.mp hedge)
    refine le_of_eq_of_le ?_ (hbound.trans_eq (zero_add cost))
    norm_num [rateLabel]

theorem rateTable_reached : tableMachine.Reach Aligned (makeEmpty [⟨"m", 0⟩, ⟨"m", 1⟩]) rateTable :=
  Machine.Reach.refl.tail (show Aligned _ (.update rateBlocks) from rfl) rfl

/-- The route of the two servers of a block each is the fastest. -/
theorem min_latency_route_of_three_servers : ∃ route,
    rateTable.makeSequenceWithMinLatency rateQuery = .ok route ∧
      route.map (fun hop => (hop.peerId, hop.start, hop.stop)) = [("a", 0, 1), ("b", 1, 2)] ∧
      ∃ chain, Chain rateTable 2 0 chain ∧ route = hops 2 0 chain ∧ Covers 0 2 (route.map hopSpan) ∧
        ∀ chain', Chain rateTable 2 0 chain' →
          rateQuery.chainDelay none 0 chain ≤ rateQuery.chainDelay none 0 chain' := by
  have hchecked : ((rateTable.buildInferenceGraph rateQuery).toOption.map fun g => decide (RateChecked g)) =
      some true := by
    decide +kernel
  have hread : ((rateTable.makeSequenceWithMinLatency rateQuery).toOption.map fun route =>
      route.map fun hop => (hop.peerId, hop.start, hop.stop)) = some [("a", 0, 1), ("b", 1, 2)] := by
    decide +kernel
  have hvalid : ∀ info ∈ rateTable.blockInfos, ∀ e ∈ info.servers.entries,
      (inferenceRps e.2 = none ∨ inferenceRps e.2 = some 4) ∧ nextPings e.2 = none := by
    decide +kernel
  have hfinds : ∀ g, rateTable.buildInferenceGraph rateQuery = .ok g →
      CostGraph.Finds rateQuery.findPath g .start .stop := by
    intro g hg
    rw [hg] at hchecked
    exact finds_of_rateChecked (of_decide_eq_true (Option.some.inj hchecked))
  have hrates : ∀ info ∈ rateTable.blockInfos, ∀ peerId record, info.servers.lookup peerId = some record →
      RatesValid record := by
    intro info hinfo peerId record hrecord
    obtain ⟨hrps, hpings⟩ := hvalid info hinfo ⟨peerId, record⟩ (AList.mem_lookup_iff.mp hrecord)
    refine ⟨fun rps h => ?_, fun pings h => by rw [hpings] at h; cases h⟩
    obtain hnone | hfour := hrps
    · rw [hnone] at h
      cases h
    · obtain rfl := Option.some.inj (hfour.symm.trans h)
      norm_num
  cases hroute : rateTable.makeSequenceWithMinLatency rateQuery with
  | error e =>
    rw [hroute] at hread
    cases hread
  | ok route =>
    rw [hroute] at hread
    exact ⟨route, rfl, Option.some.inj hread, (min_latency_route [⟨"m", 0⟩, ⟨"m", 1⟩] rateTable_reached (q := rateQuery)
      (by decide) (by decide +kernel) hfinds (fun peerId rtt h => by cases h) hrates).2 route hroute⟩

end Drift.Client
