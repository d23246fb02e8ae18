import Drift.Lib.SlidingWindow
import Drift.Node.ContributionPlanner
import Mathlib.Algebra.Ring.Nat
import Mathlib.Data.List.Lex
import Mathlib.Data.List.MinMax

/-!
# The window that is placed

The pass over the replica counts looks at each block once. It is compared here with what it is for: the
evaluation of every window by the largest count in it, the sum of its counts, its rank and its start.

* `windowKey` — what a window is judged by;
* `Scanned` — what the variables of the pass hold after some blocks, kept by `Scanned.step`;
* `window_scan_optimal` — the pass selects the window the evaluation of all of them selects;
* `evaluate_repairs_iff` — when that window has a block without a replica.

The order is by the largest count first. A window may therefore be selected for its low maximum while
the only blocks without a replica are next to a block with many.
-/

namespace Drift.Node

open Drift.Lib Drift.Identity

/-- `counts[start : start + num_blocks]`. -/
def window (numBlocks : Nat) (counts : List Nat) (start : Nat) : List Nat :=
  (counts.drop start).take numBlocks

/-- What the window that starts at `start` is judged by. -/
def windowKey (numBlocks : Nat) (rank : Nat → Nat → Nat) (counts : List Nat) (start : Nat) : List Nat :=
  [(window numBlocks counts start).max?.getD 0, (window numBlocks counts start).sum,
    rank start (start + numBlocks), start]

variable {numBlocks : Nat} {rank : Nat → Nat → Nat} {counts : List Nat}

theorem window_eq (start : Nat) :
    window numBlocks counts start = (counts.take (start + numBlocks)).drop start := by
  rw [window, List.drop_take, Nat.add_sub_cancel_left]

theorem mem_window {start count : Nat} (hfits : start + numBlocks ≤ counts.length) :
    count ∈ window numBlocks counts start ↔
      ∃ i, start ≤ i ∧ i < start + numBlocks ∧ counts.getD i 0 = count := by
  rw [window, List.mem_iff_getElem]
  constructor
  · rintro ⟨i, hi, rfl⟩
    have hlt : i < numBlocks := lt_of_lt_of_le hi (List.length_take_le ..)
    refine ⟨start + i, by omega, by omega, ?_⟩
    rw [List.getElem_take, List.getElem_drop, List.getD_eq_getElem]
  · rintro ⟨i, hle, hlt, rfl⟩
    have hi : i - start < ((counts.drop start).take numBlocks).length := by
      rw [List.length_take, List.length_drop]
      omega
    refine ⟨i - start, hi, ?_⟩
    rw [List.getElem_take, List.getElem_drop, List.getD_eq_getElem]
    · congr 1
      omega
    · omega

/-- The value at the front of the deque is the maximum of its window. -/
theorem getD_front_eq_max {start : Nat} {q : List Nat} (hfits : start + numBlocks ≤ counts.length)
    (hn : 1 ≤ numBlocks)
    (h : MonotoneDeque (fun i => counts.getD i 0) start (start + numBlocks) q) :
    counts.getD (q.headD 0) 0 = (window numBlocks counts start).max?.getD 0 := by
  obtain ⟨m, rest, rfl, hle, hlt, hmax⟩ := h.front (by omega)
  have : (window numBlocks counts start).max? = some (counts.getD m 0) := by
    refine List.max?_eq_some_iff.mpr ⟨(mem_window hfits).mpr ⟨m, hle, hlt, rfl⟩, ?_⟩
    intro count hcount
    obtain ⟨i, hi, hi', rfl⟩ := (mem_window hfits).mp hcount
    exact hmax i hi hi'
  rw [this]
  rfl

/-! ### The pass -/

/-- **What the pass has found** after `seen` blocks: the deque and the sum are those of the window that
ends there, and the best window is the least of the complete ones so far. -/
structure Scanned (numBlocks : Nat) (rank : Nat → Nat → Nat) (counts : List Nat) (seen : Nat)
    (scan : WindowScan) : Prop where
  maxima : MonotoneDeque (fun i => counts.getD i 0) (seen - numBlocks) seen scan.maxima
  windowSum : scan.windowSum = ((counts.take seen).drop (seen - numBlocks)).sum
  before : seen < numBlocks → scan.bestKey = none
  best : numBlocks ≤ seen → scan.bestKey = some (windowKey numBlocks rank counts scan.bestStart) ∧
    scan.bestStart + numBlocks ≤ seen ∧
    ∀ start, start + numBlocks ≤ seen →
      windowKey numBlocks rank counts scan.bestStart ≤ windowKey numBlocks rank counts start

/-- Windows with one key are one window. -/
theorem windowKey_inj {start start' : Nat}
    (h : windowKey numBlocks rank counts start = windowKey numBlocks rank counts start') :
    start = start' := by
  simp only [windowKey, List.cons.injEq] at h
  exact h.2.2.2.1

/-- One block enters the sum, and the one that leaves the window leaves it. -/
theorem nextSum_eq {index : Nat} (hlt : index < counts.length) (hn : 1 ≤ numBlocks) :
    nextSum numBlocks counts ((counts.take index).drop (index - numBlocks)).sum counts[index] index =
      ((counts.take (index + 1)).drop (index + 1 - numBlocks)).sum := by
  have hgrow : ((counts.take (index + 1)).drop (index - numBlocks)).sum =
      ((counts.take index).drop (index - numBlocks)).sum + counts[index] := by
    rw [List.take_succ_eq_append_getElem hlt, List.drop_append_of_le_length, List.sum_append,
      List.sum_singleton]
    rw [List.length_take]
    omega
  unfold nextSum
  dsimp only
  split
  · rename_i hle
    have hcons : (counts.take (index + 1)).drop (index - numBlocks) =
        counts.getD (index - numBlocks) 0 :: (counts.take (index + 1)).drop (index + 1 - numBlocks) := by
      have hin : index - numBlocks < (counts.take (index + 1)).length := by
        rw [List.length_take]
        omega
      rw [List.drop_eq_getElem_cons hin, List.getElem_take, List.getD_eq_getElem,
        show index - numBlocks + 1 = index + 1 - numBlocks by omega]
    rw [← hgrow, hcons, List.sum_cons, Nat.add_sub_cancel_left]
  · rename_i hlt'
    rw [← hgrow, show index - numBlocks = index + 1 - numBlocks by omega]

/-- The deque stays that of the window. -/
theorem nextMaxima_monotone {index : Nat} {q : List Nat} (hlt : index < counts.length)
    (hn : 1 ≤ numBlocks)
    (h : MonotoneDeque (fun i => counts.getD i 0) (index - numBlocks) index q) :
    MonotoneDeque (fun i => counts.getD i 0) (index + 1 - numBlocks) (index + 1)
      (nextMaxima numBlocks counts q counts[index] index) := by
  have hpush := h.push (by omega)
  have hvalue : counts.getD index 0 = counts[index] := List.getD_eq_getElem _ _ hlt
  simp only [hvalue] at hpush
  unfold nextMaxima
  dsimp only
  rcases Nat.lt_or_ge index numBlocks with hpart | hfull
  · -- the window still grows, and nothing leaves it
    rw [if_neg fun hand => absurd hand.1 (by omega)]
    rwa [show index + 1 - numBlocks = index - numBlocks by omega]
  · have hexpire := hpush.expire
    rw [show index - numBlocks + 1 = index + 1 - numBlocks by omega] at hexpire
    simpa only [hfull, true_and] using hexpire

/-- **One iteration** keeps what the pass has found. -/
theorem Scanned.step {index : Nat} {scan : WindowScan} (h : Scanned numBlocks rank counts index scan)
    (hlt : index < counts.length) (hn : 1 ≤ numBlocks) :
    Scanned numBlocks rank counts (index + 1)
      (WindowScan.step numBlocks rank counts scan (counts[index], index)) := by
  have hmaxima := nextMaxima_monotone hlt hn h.maxima
  have hsum := nextSum_eq hlt hn
  rw [← h.windowSum] at hsum
  unfold WindowScan.step
  dsimp only
  split
  · rename_i hpart
    refine ⟨hmaxima, hsum, fun _ => h.before (by omega), fun hle => ?_⟩
    omega
  · rename_i hfull
    have hfits : index + 1 - numBlocks + numBlocks = index + 1 := by omega
    have hmaxima' : MonotoneDeque (fun i => counts.getD i 0) (index + 1 - numBlocks)
        (index + 1 - numBlocks + numBlocks)
        (nextMaxima numBlocks counts scan.maxima counts[index] index) := by
      rw [hfits]
      exact hmaxima
    -- the key the pass computes is that of the window that ends here
    have hkey : [counts.getD ((nextMaxima numBlocks counts scan.maxima counts[index] index).headD 0) 0,
        nextSum numBlocks counts scan.windowSum counts[index] index,
        rank (index + 1 - numBlocks) (index + 1 - numBlocks + numBlocks), index + 1 - numBlocks] =
        windowKey numBlocks rank counts (index + 1 - numBlocks) := by
      have hfront := getD_front_eq_max (hfits.le.trans hlt) hn hmaxima'
      rw [windowKey, ← hfront, window_eq, hfits, ← hsum]
    rw [hkey]
    -- another window that is complete by now was complete before, or is this one
    have hwindows : ∀ start, start + numBlocks ≤ index + 1 →
        start + numBlocks ≤ index ∨ start = index + 1 - numBlocks := by
      intro start hstart
      omega
    rcases Nat.lt_or_ge index numBlocks with hpart | hcomplete
    · rw [h.before hpart]
      refine ⟨hmaxima, hsum, fun hlt' => absurd hlt' hfull, fun _ => ⟨rfl, hfits.le, ?_⟩⟩
      intro start hstart
      rcases hwindows start hstart with hlt' | rfl
      · omega
      · exact le_rfl
    · obtain ⟨hbest, hstart, hleast⟩ := h.best hcomplete
      rw [hbest]
      dsimp only
      split
      · rename_i hless
        refine ⟨hmaxima, hsum, fun hlt' => absurd hlt' hfull, fun _ => ⟨rfl, hfits.le, ?_⟩⟩
        intro start hstart'
        rcases hwindows start hstart' with hlt' | rfl
        · exact (hless.trans_le (hleast start hlt')).le
        · exact le_rfl
      · rename_i hnot
        refine ⟨hmaxima, hsum, fun hlt' => absurd hlt' hfull,
          fun _ => ⟨rfl, Nat.le_succ_of_le hstart, ?_⟩⟩
        intro start hstart'
        rcases hwindows start hstart' with hlt' | rfl
        · exact hleast start hlt'
        · exact not_lt.mp hnot

/-- The whole pass. -/
theorem scanned_foldl (hn : 1 ≤ numBlocks) :
    Scanned numBlocks rank counts counts.length
      (counts.zipIdx.foldl (WindowScan.step numBlocks rank counts) ⟨[], 0, none, 0⟩) := by
  -- the blocks seen so far are a prefix of the counts
  have hprefix : ∀ seen, seen ≤ counts.length →
      Scanned numBlocks rank counts seen
        ((counts.zipIdx.take seen).foldl (WindowScan.step numBlocks rank counts) ⟨[], 0, none, 0⟩) := by
    intro seen
    induction seen with
    | zero =>
      intro _
      refine ⟨?_, by simp, fun _ => rfl, fun hle => by omega⟩
      rw [Nat.zero_sub]
      exact MonotoneDeque.nil _ 0
    | succ seen ih =>
      intro hle
      have hlt : seen < counts.zipIdx.length := by
        rw [List.length_zipIdx]
        omega
      rw [List.take_succ_eq_append_getElem hlt, List.foldl_append]
      have hstep := (ih (by omega)).step (by omega) hn
      rw [List.foldl_cons, List.foldl_nil, List.getElem_zipIdx, Nat.zero_add]
      exact hstep
  have hall := hprefix counts.length le_rfl
  rwa [List.take_of_length_le (List.length_zipIdx ..).le] at hall

/-- What the pass selects: a window, and the least of them. -/
theorem leastCoveredStart_least (hn : 1 ≤ numBlocks) (hle : numBlocks ≤ counts.length) :
    leastCoveredStart numBlocks rank counts + numBlocks ≤ counts.length ∧
      ∀ start, start + numBlocks ≤ counts.length →
        windowKey numBlocks rank counts (leastCoveredStart numBlocks rank counts) ≤
          windowKey numBlocks rank counts start :=
  ((scanned_foldl hn).best hle).2

/-- It is the window the evaluation of every window selects. -/
theorem argmin_windowKey (hn : 1 ≤ numBlocks) (hle : numBlocks ≤ counts.length) :
    (List.range (counts.length + 1 - numBlocks)).argmin (windowKey numBlocks rank counts) =
      some (leastCoveredStart numBlocks rank counts) := by
  obtain ⟨hfits, hleast⟩ := @leastCoveredStart_least _ rank _ hn hle
  have hmem : leastCoveredStart numBlocks rank counts < counts.length + 1 - numBlocks := by omega
  -- the two decisions of the order of keys are the same one
  convert (List.argmin_eq_some_iff (f := windowKey numBlocks rank counts)).mpr ⟨List.mem_range.mpr hmem, ?_, ?_⟩
  · intro start hstart
    have hlt := List.mem_range.mp hstart
    exact hleast start (by omega)
  · intro start hstart hback
    have hlt := List.mem_range.mp hstart
    have hforth := hleast start (by omega)
    rw [windowKey_inj (le_antisymm hback hforth)]

/-! ### The candidate -/

namespace AutomaticContributionPlanner

variable {p : AutomaticContributionPlanner} {candidate : PlacementCandidate}
  {decision : PlacementDecision}

/-- What is scored besides coverage. -/
def otherPoints (p : AutomaticContributionPlanner) (candidate : PlacementCandidate) : Rat :=
  (if candidate.preferred then 20 else 0) + 10 / (candidate.priority + 1) +
    (p.routeSignal candidate.routeObservation candidate 6).1 +
    (p.routeSignal candidate.remoteRouteObservation candidate 2).1 + p.jitter candidate.manifestDigest

theorem length_of_mapM {α β : Type} {f : α → Option β} {xs : List α} :
    ∀ {ys : List β}, xs.mapM f = some ys → ys.length = xs.length := by
  induction xs with
  | nil =>
    intro ys h
    cases h
    rfl
  | cons x xs ih =>
    intro ys h
    rw [List.mapM_cons] at h
    obtain ⟨y, -, h⟩ := Option.bind_eq_some_iff.mp h
    obtain ⟨rest, hrest, h⟩ := Option.bind_eq_some_iff.mp h
    cases h
    rw [List.length_cons, List.length_cons, ih hrest]

theorem length_of_readCounts {field : Option Json} {totalBlocks : Nat}
    (h : readCounts field totalBlocks = some counts) : counts.length = totalBlocks := by
  unfold readCounts at h
  split at h
  · rename_i items
    split_ifs at h with hlength
    rw [length_of_mapM h]
    simpa using hlength
  · cases h

/-- **A candidate that is accepted**: its counts are complete, and the range is where the pass ends. -/
theorem evaluate_ok (h : p.evaluate candidate = .ok decision) :
    ∃ counts, readCounts (candidate.health.lookup "replica_counts") candidate.totalBlocks = some counts ∧
      p.numBlocks ≤ counts.length ∧
      decision.blockIndices = s!"{p.bestStart candidate.manifestDigest counts}:{p.bestStart
        candidate.manifestDigest counts + p.numBlocks}" ∧
      decision.replicaCounts = window p.numBlocks counts (p.bestStart candidate.manifestDigest counts) ∧
      decision.score = (2 - decision.replicaCounts.min?.getD 0 : Nat) * 100 + p.otherPoints candidate := by
  unfold evaluate at h
  generalize hbonus : (if candidate.preferred = true then (20 : Rat) else 0) = bonus at h
  generalize hlocal : p.routeSignal candidate.routeObservation candidate 6 = signal at h
  generalize hremote : p.routeSignal candidate.remoteRouteObservation candidate 2 = remote at h
  split at h
  · cases h
  split_ifs at h with hblocks
  split at h
  · cases h
  rename_i counts hcounts
  cases h
  refine ⟨counts, hcounts, ?_, rfl, rfl, ?_⟩
  · rw [length_of_readCounts hcounts]
    exact not_lt.mp hblocks
  · unfold otherPoints
    rw [hbonus, hlocal, hremote]
    dsimp only
    ring

end AutomaticContributionPlanner

/-! ### Main results -/

/-- **The scan is optimal.** Over every list of counts, every size of the window and every rank, the one
pass selects what an evaluation of every window selects: the least by the largest count, the sum, the
rank and the start. A candidate that is accepted is placed there. -/
theorem window_scan_optimal :
    (∀ (numBlocks : Nat) (rank : Nat → Nat → Nat) (counts : List Nat),
      1 ≤ numBlocks → numBlocks ≤ counts.length →
      (List.range (counts.length + 1 - numBlocks)).argmin (windowKey numBlocks rank counts) =
        some (leastCoveredStart numBlocks rank counts)) ∧
    ∀ (p : AutomaticContributionPlanner) (candidate : PlacementCandidate) (decision : PlacementDecision),
      p.evaluate candidate = .ok decision →
      ∃ counts start, readCounts (candidate.health.lookup "replica_counts") candidate.totalBlocks =
          some counts ∧
        (List.range (counts.length + 1 - p.numBlocks)).argmin
            (windowKey p.numBlocks (p.rangeJitter candidate.manifestDigest) counts) = some start ∧
        decision.blockIndices = s!"{start}:{start + p.numBlocks}" ∧
        decision.replicaCounts = window p.numBlocks counts start := by
  refine ⟨fun numBlocks rank counts hn hle => argmin_windowKey hn hle, ?_⟩
  intro p candidate decision h
  obtain ⟨counts, hcounts, hle, hindices, hwindow, -⟩ := AutomaticContributionPlanner.evaluate_ok h
  exact ⟨counts, _, hcounts, argmin_windowKey p.num_blocks.1 hle, hindices, hwindow⟩

/-- The condition: a window with a block that has no replica comes before every window that is served
throughout. -/
def MissingFirst (numBlocks : Nat) (rank : Nat → Nat → Nat) (counts : List Nat) : Prop :=
  ∃ start, start + numBlocks ≤ counts.length ∧ 0 ∈ window numBlocks counts start ∧
    ∀ other, other + numBlocks ≤ counts.length → 0 ∉ window numBlocks counts other →
      windowKey numBlocks rank counts start < windowKey numBlocks rank counts other

/-- The window that is selected has such a block under the condition, and only then. -/
theorem zero_mem_window_iff (hn : 1 ≤ numBlocks) (hle : numBlocks ≤ counts.length) :
    0 ∈ window numBlocks counts (leastCoveredStart numBlocks rank counts) ↔
      MissingFirst numBlocks rank counts := by
  obtain ⟨hfits, hleast⟩ := @leastCoveredStart_least _ rank _ hn hle
  constructor
  · intro hzero
    refine ⟨_, hfits, hzero, ?_⟩
    intro other hother hserved
    refine lt_of_le_of_ne (hleast other hother) ?_
    intro heq
    rw [windowKey_inj heq] at hzero
    exact hserved hzero
  · rintro ⟨start, hstart, -, hbefore⟩
    by_contra hserved
    exact absurd (hbefore _ hfits hserved) (not_lt.mpr (hleast start hstart))

/-- A worker of a single block repairs what is missing: no window is below the empty one. -/
theorem missingFirst_one (hzero : 0 ∈ counts) : MissingFirst 1 rank counts := by
  obtain ⟨i, hi, hcount⟩ := List.mem_iff_getElem.mp hzero
  have hsingle : ∀ start, (hstart : start + 1 ≤ counts.length) →
      window 1 counts start = [counts[start]] := by
    intro start hstart
    rw [window, List.drop_eq_getElem_cons (by omega), List.take_succ_cons, List.take_zero]
  refine ⟨i, hi, ?_, ?_⟩
  · rw [hsingle i hi, hcount]
    exact List.mem_singleton_self 0
  · intro other hother hserved
    rw [hsingle other hother, List.mem_singleton] at hserved
    rw [windowKey, windowKey, hsingle i hi, hsingle other hother, hcount]
    exact List.Lex.rel (Nat.pos_of_ne_zero (Ne.symm hserved))

/-- **Placement repairs the bottleneck** where a window with a missing block comes first in the order by
the largest count, the sum, the rank and the start; and exactly there. The model then has its full
coverage pressure. -/
theorem evaluate_repairs_iff (p : AutomaticContributionPlanner) :
    (∀ (numBlocks : Nat) (rank : Nat → Nat → Nat) (counts : List Nat),
      1 ≤ numBlocks → numBlocks ≤ counts.length → 0 ∈ counts →
      (0 ∈ window numBlocks counts (leastCoveredStart numBlocks rank counts) ↔
        MissingFirst numBlocks rank counts)) ∧
    ∀ (candidate : PlacementCandidate) (decision : PlacementDecision) (counts : List Nat),
      p.evaluate candidate = .ok decision →
      readCounts (candidate.health.lookup "replica_counts") candidate.totalBlocks = some counts →
      0 ∈ counts →
      (0 ∈ decision.replicaCounts ∧ decision.score = 200 + p.otherPoints candidate ↔
        MissingFirst p.numBlocks (p.rangeJitter candidate.manifestDigest) counts) := by
  refine ⟨fun numBlocks rank counts hn hle _ => zero_mem_window_iff hn hle, ?_⟩
  intro candidate decision counts h hcounts _
  obtain ⟨read, hread, hle, -, hwindow, hscore⟩ := AutomaticContributionPlanner.evaluate_ok h
  obtain rfl : read = counts := Option.some.inj (hread.symm.trans hcounts)
  rw [hwindow]
  constructor
  · exact fun hand => (zero_mem_window_iff p.num_blocks.1 hle).mp hand.1
  · intro hfirst
    have hzero := (zero_mem_window_iff p.num_blocks.1 hle).mpr hfirst
    refine ⟨hzero, ?_⟩
    have hmin : decision.replicaCounts.min? = some 0 := by
      rw [hwindow]
      exact List.min?_eq_some_iff.mpr ⟨hzero, fun count _ => Nat.zero_le count⟩
    rw [hscore, hmin]
    norm_num

/-! ### A window beside the gap -/

theorem node_ne_empty : "node" ≠ "" := by decide

theorem two_blocks_admitted : 1 ≤ 2 ∧ 2 ≤ maxAutomaticPlacementBlocks := by decide

theorem planner_timing : (0 : Rat) ≤ 900 ∧ (0 : Rat) ≤ 300 ∧ (0 : Rat) ≤ 10 ∧ (0 : Rat) < 90 := by
  decide +kernel

/-- A planner of two blocks. -/
def twoBlockPlanner : AutomaticContributionPlanner where
  numBlocks := 2
  jitterSeed := "node"
  minimumResidency := 900
  cooldown := 300
  switchMargin := 10
  maximumObservationAge := 90
  library :=
    { hashPrefix := fun payload =>
        ([("node\u0000sha256:1", ⟨12591504440438071622, by decide⟩),
          ("node\u0000sha256:1\u00000:2", ⟨14414872111489736181, by decide⟩),
          ("node\u0000sha256:1\u00001:3", ⟨8095108049714429711, by decide⟩),
          ("node\u0000sha256:1\u00002:4", ⟨15025073609767214607, by decide⟩)].lookup payload).getD
          ⟨0, by decide⟩
      log2 := id }
  num_blocks := two_blocks_admitted
  jitter_seed := node_ne_empty
  timing := planner_timing

/-- A model of four blocks. -/
def fourBlocks (replicaCounts : List Int) : PlacementCandidate where
  modelId := "model"
  manifestDigest := "sha256:1"
  priority := 0
  preferred := false
  artifactBytes := 1
  totalBlocks := 4
  health := [("status", .str "incomplete"), ("last_updated_age", .int 0),
    ("replica_counts", .arr (replicaCounts.map .int))]
  routeObservation := none
  remoteRouteObservation := none
  policyReason := none
  identity := by decide
  blocks := by decide

/-- What a computation that succeeds has as its result. -/
theorem ok_of_map {ε α β : Type} {x : Except ε α} {f : α → β} {r : β} (h : x.toOption.map f = some r) :
    ∃ d, x = .ok d ∧ f d = r := by
  cases x with
  | error e => cases h
  | ok d => exact ⟨d, rfl, Option.some.inj h⟩

/-- The gap is in the middle, and the optimum of two blocks is on it. -/
theorem window_scan_optimal_of_gap :
    (List.range 3).argmin (windowKey 2 (fun _ _ => 0) [2, 0, 0, 2]) = some 1 ∧
      ∃ decision, twoBlockPlanner.evaluate (fourBlocks [2, 0, 0, 2]) = .ok decision ∧
        ∃ counts start, readCounts ((fourBlocks [2, 0, 0, 2]).health.lookup "replica_counts") 4 =
            some counts ∧
          (List.range (counts.length + 1 - 2)).argmin
            (windowKey 2 (twoBlockPlanner.rangeJitter "sha256:1") counts) = some start ∧
          decision.replicaCounts = window 2 counts start := by
  refine ⟨window_scan_optimal.1 2 _ [2, 0, 0, 2] (by decide) (by decide), ?_⟩
  obtain ⟨decision, hok, -⟩ := ok_of_map
    (show (twoBlockPlanner.evaluate (fourBlocks [2, 0, 0, 2])).toOption.map (·.blockIndices) =
      some "1:3" by decide +kernel)
  obtain ⟨counts, start, hcounts, hstart, -, hwindow⟩ :=
    window_scan_optimal.2 twoBlockPlanner _ decision hok
  exact ⟨decision, hok, counts, start, hcounts, hstart, hwindow⟩

/-- Beside the one block without a replica is one with nine: the worker goes to two blocks that are
served already, and the model stays incomplete. -/
theorem evaluate_leaves_the_gap :
    ∃ decision, twoBlockPlanner.evaluate (fourBlocks [0, 9, 1, 1]) = .ok decision ∧
      readCounts ((fourBlocks [0, 9, 1, 1]).health.lookup "replica_counts") 4 = some [0, 9, 1, 1] ∧
      decision.blockIndices = "2:4" ∧ decision.replicaCounts = [1, 1] := by
  obtain ⟨decision, hok, hplaced⟩ := ok_of_map
    (show (twoBlockPlanner.evaluate (fourBlocks [0, 9, 1, 1])).toOption.map
        (fun decision => (decision.blockIndices, decision.replicaCounts)) = some ("2:4", [1, 1]) by
      decide +kernel)
  have hparts := Prod.mk.inj hplaced
  exact ⟨decision, hok, by decide +kernel, hparts.1, hparts.2⟩

theorem evaluate_repairs_iff_of_gap :
    (0 ∈ window 2 [2, 0, 0, 2] (leastCoveredStart 2 (fun _ _ => 0) [2, 0, 0, 2]) ↔
        MissingFirst 2 (fun _ _ => 0) [2, 0, 0, 2]) ∧
      ∃ decision, twoBlockPlanner.evaluate (fourBlocks [2, 0, 0, 2]) = .ok decision ∧
        (0 ∈ decision.replicaCounts ∧
            decision.score = 200 + twoBlockPlanner.otherPoints (fourBlocks [2, 0, 0, 2]) ↔
          MissingFirst 2 (twoBlockPlanner.rangeJitter "sha256:1") [2, 0, 0, 2]) := by
  refine ⟨(evaluate_repairs_iff twoBlockPlanner).1 2 _ [2, 0, 0, 2] (by decide) (by decide)
    (by decide), ?_⟩
  obtain ⟨decision, hok, -⟩ := ok_of_map
    (show (twoBlockPlanner.evaluate (fourBlocks [2, 0, 0, 2])).toOption.map (·.blockIndices) =
      some "1:3" by decide +kernel)
  exact ⟨decision, hok, (evaluate_repairs_iff twoBlockPlanner).2 _ decision
    [2, 0, 0, 2] hok (by decide +kernel) (by decide)⟩

end Drift.Node
