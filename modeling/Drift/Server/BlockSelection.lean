import Drift.Lib.Leximin
import Drift.Lib.Outcome
import Mathlib.Algebra.Order.Ring.Rat
import Mathlib.Data.Prod.Lex
import Mathlib.Data.Finite.Prod
import Mathlib.Order.Interval.Finset.Nat
import Mathlib.Tactic.NormNum
import Mathlib.Tactic.Ring

/-!
# Choosing blocks

A server that is about to serve some blocks takes the window of blocks whose throughputs are the lowest,
in the order of the sorted throughputs, and the first of these. `should_choose_other_blocks` asks whether
it pays for a server to leave its place: it moves the server to its best window, and then lets all servers
of the swarm move, one after another and in a new order each time, until none of them wants to. What comes
out tells how good the present places are.

Throughputs are exact here. That the loop ends is seen from the throughputs in order: every move of a
server that has some makes them better. A server without any changes nothing, and is then at the place it
chooses.

* `computeThroughputs_eq`, `chooseBestStart_spec` — the sums, and what is chosen;
* `Advances` — what turns of servers keep, and what they raise;
* `potential_lt_of_pos`, `potential_lt_of_zero` — every move raises the potential;
* `balance_terminates`, `rebalancing_terminates` — the loop ends.
-/

namespace Drift.Server

open Drift.Lib

/-! ### Definitions -/

/-- What `RemoteSpanInfo` tells of a server. The range ends before `stop`. -/
structure ServerSpan (PeerId : Type) where
  peerId : PeerId
  start : Nat
  stop : Nat
  throughput : ℚ
  deriving DecidableEq

/-- What the functions raise. -/
inductive BalanceError
  | valueError
  | assertionError
  | keyError
  deriving DecidableEq

def eps : ℚ := 1 / 1000

/-- `throughputs[start:stop] += amount`. -/
def addToSlice (throughputs : List ℚ) (start stop : Nat) (amount : ℚ) : List ℚ :=
  throughputs.mapIdx fun i t => if start ≤ i ∧ i < stop then t + amount else t

/-- `throughputs.min()`. -/
def minimum (throughputs : List ℚ) : Except BalanceError ℚ :=
  match throughputs.min? with
  | none => .error .valueError
  | some least => .ok least

/-- `_choose_best_start`. -/
def chooseBestStart (throughputs : List ℚ) (numBlocks : Nat) : Except BalanceError Nat :=
  let options := (List.range (throughputs.length + 1 - numBlocks)).map fun i =>
    toLex (((throughputs.drop i).take numBlocks).insertionSort (· ≤ ·), i)
  match options.min? with
  | none => .error .valueError
  | some option => .ok (ofLex option).2

variable {PeerId : Type}

namespace ServerSpan

def length (span : ServerSpan PeerId) : Nat := span.stop - span.start

/-- `_move_span`. -/
def move (span : ServerSpan PeerId) (newStart : Nat) : ServerSpan PeerId :=
  { span with start := newStart, stop := newStart + span.length }

end ServerSpan

/-- The spans of the servers, and the throughput of each block. -/
structure Swarm (PeerId : Type) where
  spans : List (ServerSpan PeerId)
  throughputs : List ℚ
  deriving DecidableEq

section Loops

variable [LinearOrder PeerId]

/-- `compute_throughputs`. -/
def computeThroughputs (spans : List (ServerSpan PeerId)) (totalBlocks : Nat) : List ℚ :=
  (spans.insertionSort fun a b => a.peerId ≤ b.peerId).foldl
    (fun throughputs span => addToSlice throughputs span.start span.stop span.throughput)
    (List.replicate totalBlocks 0)

namespace Swarm

/-- `spans[peer_id]`. -/
def lookup (s : Swarm PeerId) (peerId : PeerId) : Option (ServerSpan PeerId) :=
  s.spans.find? fun span => span.peerId = peerId

/-- The throughputs of the others. What is taken away is a bit more than what the server has, so that it
prefers its place where all else is equal. -/
def without (s : Swarm PeerId) (span : ServerSpan PeerId) : List ℚ :=
  addToSlice s.throughputs span.start span.stop (-(span.throughput * (1 + eps)))

/-- The server moves, where it has another place to go to. -/
def settle (s : Swarm PeerId) (span : ServerSpan PeerId) (newStart : Nat) : Swarm PeerId :=
  let throughputs := addToSlice (s.without span) span.start span.stop (span.throughput * eps)
  let moved := if span.start ≠ newStart then span.move newStart else span
  { spans := s.spans.map fun other => if other.peerId = span.peerId then moved else other
    throughputs := addToSlice throughputs moved.start moved.stop moved.throughput }

/-- One iteration of the inner loop. The flag tells whether the server has moved. -/
def process (s : Swarm PeerId) (peerId : PeerId) : Except BalanceError (Swarm PeerId × Bool) :=
  match s.lookup peerId with
  | none => .error .keyError
  | some span => do
    let newStart ← chooseBestStart (s.without span) span.length
    return (s.settle span newStart, span.start ≠ newStart)

/-- The inner loop. -/
def pass : List PeerId → Swarm PeerId → Except BalanceError (Swarm PeerId × Bool)
  | [], s => .ok (s, false)
  | peerId :: servers, s => do
    let (s, moved) ← s.process peerId
    let (s, later) ← pass servers s
    return (s, moved || later)

/-- `list(spans.keys())`. -/
def servers (s : Swarm PeerId) : List PeerId := s.spans.map ServerSpan.peerId

/-- The outer loop, for a number of iterations at most. -/
def balance (shuffle : Nat → List PeerId → List PeerId) :
    Nat → Nat → Swarm PeerId → Except BalanceError (Option (Swarm PeerId))
  | 0, _, _ => .ok none
  | fuel + 1, round, s => do
    let (s, moved) ← s.pass (shuffle round s.servers)
    if moved then balance shuffle fuel (round + 1) s else return some s

end Swarm

/-- `should_choose_other_blocks`, of the spans that the module infos give. -/
def shouldChooseOtherBlocks (shuffle : Nat → List PeerId → List PeerId) (fuel : Nat)
    (localPeerId : PeerId) (spans : List (ServerSpan PeerId)) (totalBlocks : Nat)
    (balanceQuality : ℚ) : Except BalanceError (Option Bool) :=
  if 1 < balanceQuality then
    .ok (some true)
  else do
    let swarm : Swarm PeerId := ⟨spans, computeThroughputs spans totalBlocks⟩
    let initialThroughput ← minimum swarm.throughputs
    match swarm.lookup localPeerId with
    | none => .error .assertionError
    | some localSpan =>
      let least ← minimum (swarm.without localSpan)
      -- switching blocks would make the swarm disjoint
      if eps < initialThroughput ∧ least ≤ 0 then
        return some false
      let newStart ← chooseBestStart (swarm.without localSpan) localSpan.length
      if localSpan.start = newStart then
        return some false
      match ← (swarm.settle localSpan newStart).balance shuffle fuel 0 with
      | none => return none
      | some swarm =>
        let newThroughput ← minimum swarm.throughputs
        if newThroughput < initialThroughput ∨ newThroughput < eps then
          return some false
        return some (initialThroughput / newThroughput < balanceQuality - eps)

end Loops

/-! ### The throughputs of the blocks -/

/-- The throughput of a block: the sum of those of the servers that have it. -/
def load (spans : List (ServerSpan PeerId)) (i : Nat) : ℚ :=
  (spans.map fun span => if span.start ≤ i ∧ i < span.stop then span.throughput else 0).sum

theorem load_append (spans others : List (ServerSpan PeerId)) (i : Nat) :
    load (spans ++ others) i = load spans i + load others i := by
  rw [load, List.map_append, List.sum_append]
  rfl

theorem load_cons (span : ServerSpan PeerId) (spans : List (ServerSpan PeerId)) (i : Nat) :
    load (span :: spans) i =
      (if span.start ≤ i ∧ i < span.stop then span.throughput else 0) + load spans i := by
  rw [load, List.map_cons, List.sum_cons]
  rfl

theorem addToSlice_map_range (f : Nat → ℚ) (n start stop : Nat) (amount : ℚ) :
    addToSlice ((List.range n).map f) start stop amount =
      (List.range n).map fun i => f i + if start ≤ i ∧ i < stop then amount else 0 := by
  refine List.ext_getElem (by rw [addToSlice, List.length_mapIdx, List.length_map, List.length_map]) ?_
  intro i hi hi'
  simp only [addToSlice, List.getElem_mapIdx, List.getElem_map, List.getElem_range]
  split
  · rfl
  · rw [add_zero]

/-- Spans that are added one after another, in any order. -/
theorem foldl_addToSlice (n : Nat) (spans : List (ServerSpan PeerId)) :
    ∀ f : Nat → ℚ,
      spans.foldl (fun throughputs span => addToSlice throughputs span.start span.stop span.throughput)
          ((List.range n).map f) = (List.range n).map fun i => f i + load spans i := by
  induction spans with
  | nil =>
    intro f
    refine List.map_congr_left fun i _ => ?_
    exact (add_zero _).symm
  | cons span spans ih =>
    intro f
    rw [List.foldl_cons, addToSlice_map_range, ih]
    refine List.map_congr_left fun i _ => ?_
    rw [load_cons, add_assoc]

theorem computeThroughputs_eq [LinearOrder PeerId] (spans : List (ServerSpan PeerId)) (n : Nat) :
    computeThroughputs spans n = (List.range n).map (load spans) := by
  have hzero : List.replicate n (0 : ℚ) = (List.range n).map fun _ => 0 := by
    rw [List.map_const', List.length_range]
  rw [computeThroughputs, hzero, foldl_addToSlice]
  refine List.map_congr_left fun i _ => ?_
  rw [zero_add]
  exact ((List.perm_insertionSort _ spans).map _).sum_eq

/-! ### The best window -/

theorem coe_window (f : Nat → ℚ) {n i numBlocks : Nat} (h : i + numBlocks ≤ n) :
    (((((List.range n).map f).drop i).take numBlocks : List ℚ) : Multiset ℚ) =
      valuesAt f (Finset.Ico i (i + numBlocks)) := by
  have hwindow : ((List.range n).drop i).take numBlocks = List.range' i numBlocks := by
    rw [List.range_eq_range', List.drop_range', Nat.mul_one, Nat.zero_add]
    exact List.take_range'_of_length_ge (by omega)
  rw [← List.map_drop, ← List.map_take, hwindow, ← Multiset.map_coe, valuesAt]
  refine congrArg (Multiset.map f) ?_
  show _ = ((List.range' i (i + numBlocks - i) : List Nat) : Multiset Nat)
  rw [Nat.add_sub_cancel_left]

/-- The chosen window lies inside, and no other is worse. -/
theorem chooseBestStart_spec (f : Nat → ℚ) {n numBlocks : Nat} (h : numBlocks ≤ n) :
    ∃ newStart, chooseBestStart ((List.range n).map f) numBlocks = .ok newStart ∧
      newStart + numBlocks ≤ n ∧ ∀ i, i + numBlocks ≤ n →
        ¬ Leximin (valuesAt f (Finset.Ico i (i + numBlocks)))
          (valuesAt f (Finset.Ico newStart (newStart + numBlocks))) := by
  have hoptions : ∀ i, i + numBlocks ≤ n → i ∈ List.range (n + 1 - numBlocks) := fun i hi =>
    List.mem_range.mpr (by omega)
  let option : Nat → List ℚ ×ₗ Nat := fun i =>
    toLex (((((List.range n).map f).drop i).take numBlocks).insertionSort (· ≤ ·), i)
  obtain ⟨least, hleast⟩ : ∃ least, ((List.range (n + 1 - numBlocks)).map option).min? = some least := by
    refine Option.isSome_iff_exists.mp (List.isSome_min?_of_mem (a := option 0) ?_)
    exact List.mem_map_of_mem (hoptions 0 (by omega))
  obtain ⟨hmem, hle⟩ := List.min?_eq_some_iff.mp hleast
  obtain ⟨newStart, hin, rfl⟩ := List.mem_map.mp hmem
  have hinside : newStart + numBlocks ≤ n := by
    have hlt := List.mem_range.mp hin
    omega
  refine ⟨newStart, ?_, hinside, fun i hi hworse => ?_⟩
  · unfold chooseBestStart
    rw [List.length_map, List.length_range]
    dsimp only
    split
    · rename_i hnone
      cases hnone.symm.trans hleast
    · rename_i chosen hchosen
      obtain rfl := Option.some.inj (hchosen.symm.trans hleast)
      rfl
  · rw [← coe_window f hi, ← coe_window f hinside] at hworse
    have hlt := (insertionSort_lt_iff (by
      simp only [List.length_take, List.length_drop, List.length_map, List.length_range]
      omega)).mpr hworse
    have hnot := hle (option i) (List.mem_map_of_mem (hoptions i hi))
    exact absurd hnot (not_le.mpr (Prod.Lex.toLex_lt_toLex.mpr (.inl hlt)))

/-! ### Swarms -/

namespace ServerSpan

variable {span : ServerSpan PeerId}

theorem length_move (span : ServerSpan PeerId) (newStart : Nat) : (span.move newStart).length = span.length :=
  Nat.add_sub_cancel_left newStart span.length

theorem move_move (span : ServerSpan PeerId) (newStart other : Nat) :
    (span.move newStart).move other = span.move other := by
  rw [move, length_move]
  rfl

theorem move_start (h : span.start ≤ span.stop) : span.move span.start = span := by
  rw [move, length, Nat.add_sub_of_le h]

/-- A server that stays has moved to where it is. -/
theorem ite_move (h : span.start ≤ span.stop) (newStart : Nat) :
    (if span.start ≠ newStart then span.move newStart else span) = span.move newStart := by
  split
  · rfl
  · rename_i hstays
    rw [← not_not.mp hstays, move_start h]

end ServerSpan

namespace Swarm

/-- Every server has its own peer id and a nonempty range of blocks, and the throughputs of the blocks are
the sums of those of the servers. -/
structure Valid (n : Nat) (s : Swarm PeerId) : Prop where
  nodup : s.servers.Nodup
  inside : ∀ span ∈ s.spans, span.start < span.stop ∧ span.stop ≤ n
  nonneg : ∀ span ∈ s.spans, 0 ≤ span.throughput
  throughputs : s.throughputs = (List.range n).map (load s.spans)

variable {n : Nat} {s : Swarm PeerId} {span : ServerSpan PeerId}

/-- The server among the others. -/
theorem exists_others [DecidableEq PeerId] {spans : List (ServerSpan PeerId)}
    (hnodup : (spans.map ServerSpan.peerId).Nodup) (hmem : span ∈ spans) :
    ∃ before after, spans = before ++ span :: after ∧
      ∀ moved, (spans.map fun other => if other.peerId = span.peerId then moved else other) =
        before ++ moved :: after := by
  obtain ⟨before, after, rfl⟩ := List.append_of_mem hmem
  rw [List.map_append, List.map_cons, List.nodup_middle, List.nodup_cons, List.mem_append] at hnodup
  have hkeep : ∀ others : List (ServerSpan PeerId), span.peerId ∉ others.map ServerSpan.peerId →
      ∀ moved, (others.map fun other => if other.peerId = span.peerId then moved else other) = others := by
    intro others hothers moved
    refine (List.map_congr_left fun other hother => ?_).trans (List.map_id _)
    exact if_neg fun heq => hothers (List.mem_map.mpr ⟨other, hother, heq⟩)
  refine ⟨before, after, rfl, fun moved => ?_⟩
  rw [List.map_append, List.map_cons, if_pos rfl, hkeep before (fun h => hnodup.1 (.inl h)),
    hkeep after (fun h => hnodup.1 (.inr h))]

theorem load_cons_move (span : ServerSpan PeerId) (newStart : Nat) (spans : List (ServerSpan PeerId))
    (i : Nat) : load (span.move newStart :: spans) i =
      (if newStart ≤ i ∧ i < newStart + span.length then span.throughput else 0) + load spans i :=
  load_cons _ _ _

theorem without_eq (hs : s.Valid n) (span : ServerSpan PeerId) :
    s.without span = (List.range n).map fun i => load s.spans i -
      if span.start ≤ i ∧ i < span.stop then span.throughput + span.throughput * eps else 0 := by
  rw [without, hs.throughputs, addToSlice_map_range]
  refine List.map_congr_left fun i _ => ?_
  rw [sub_eq_add_neg, neg_ite, neg_zero, mul_add, mul_one]

/-- Where there is a server, there is a block. -/
theorem Valid.pos (hs : s.Valid n) {peerId : PeerId} (h : peerId ∈ s.servers) : 0 < n := by
  obtain ⟨span, hspan, -⟩ := List.mem_map.mp h
  obtain ⟨hlt, hstop⟩ := hs.inside span hspan
  exact (Nat.zero_le _).trans_lt (hlt.trans_le hstop)

/-! ### What grows with every move -/

/-- How many servers without throughput are at the place they would choose. -/
def settled (s : Swarm PeerId) : Nat :=
  s.spans.countP fun span =>
    span.throughput = 0 ∧ chooseBestStart s.throughputs span.length = .ok span.start

/-- The throughputs in order, and the servers without any. -/
def potential (s : Swarm PeerId) : List ℚ ×ₗ Nat :=
  toLex (s.throughputs.insertionSort (· ≤ ·), s.settled)

/-- What comes of a swarm by letting servers choose their places. -/
structure Advances (n : Nat) (s s' : Swarm PeerId) (moved : Bool) : Prop where
  valid : s'.Valid n
  servers : s'.servers = s.servers
  shapes : s'.spans.map (·.move 0) = s.spans.map (·.move 0)
  le : s.potential ≤ s'.potential
  lt : moved = true → s.potential < s'.potential

namespace Advances

variable {s' s'' : Swarm PeerId} {moved later : Bool}

theorem refl (hs : s.Valid n) : Advances n s s false where
  valid := hs
  servers := rfl
  shapes := rfl
  le := le_rfl
  lt := fun h => Bool.noConfusion h

theorem trans (h : Advances n s s' moved) (h' : Advances n s' s'' later) :
    Advances n s s'' (moved || later) where
  valid := h'.valid
  servers := h'.servers.trans h.servers
  shapes := h'.shapes.trans h.shapes
  le := h.le.trans h'.le
  lt := by
    intro hmoved
    rcases Bool.or_eq_true_iff.mp hmoved with hmoved | hlater
    · exact (h.lt hmoved).trans_le h'.le
    · exact h.le.trans_lt (h'.lt hlater)

end Advances

theorem minimum_eq_ok {throughputs : List ℚ} {least : ℚ} (h : minimum throughputs = .ok least) :
    least ∈ throughputs ∧ ∀ t ∈ throughputs, least ≤ t := by
  unfold minimum at h
  split at h
  · cases h
  · rename_i found hfound
    cases h
    exact List.min?_eq_some_iff.mp hfound

theorem exists_minimum (hpos : 0 < n) (f : Nat → ℚ) :
    ∃ least, minimum ((List.range n).map f) = .ok least := by
  have hmem : f 0 ∈ (List.range n).map f := List.mem_map_of_mem (List.mem_range.mpr hpos)
  obtain ⟨least, hleast⟩ := Option.isSome_iff_exists.mp (List.isSome_min?_of_mem hmem)
  exact ⟨least, by rw [minimum, hleast]⟩

/-- The lowest throughput does not fall. -/
theorem Advances.minimum_le {s' : Swarm PeerId} {moved : Bool} (hs : s.Valid n)
    (h : Advances n s s' moved) {least least' : ℚ} (hleast : minimum s.throughputs = .ok least)
    (hleast' : minimum s'.throughputs = .ok least') : least ≤ least' := by
  obtain ⟨-, hlow⟩ := minimum_eq_ok hleast
  obtain ⟨hmem', -⟩ := minimum_eq_ok hleast'
  have hlength : s.throughputs.length = s'.throughputs.length := by
    rw [hs.throughputs, h.valid.throughputs, List.length_map, List.length_map]
  have hexists : ∃ x ∈ s.throughputs, x ≤ least' := by
    rcases Prod.Lex.toLex_le_toLex.mp h.le with hlt | ⟨heq, -⟩
    · rw [insertionSort_lt_iff hlength] at hlt
      exact hlt.exists_le hmem'
    · dsimp only at heq
      refine ⟨least', ?_, le_rfl⟩
      rw [← List.mem_insertionSort (· ≤ ·), heq, List.mem_insertionSort]
      exact hmem'
  obtain ⟨x, hx, hle⟩ := hexists
  exact (hlow x hx).trans hle

/-- There are finitely many places for the servers of a swarm. -/
theorem finite_placements (n : Nat) (shapes : List (ServerSpan PeerId)) :
    {spans : List (ServerSpan PeerId) | spans.map (·.move 0) = shapes ∧
      ∀ span ∈ spans, span.start < span.stop ∧ span.stop ≤ n}.Finite := by
  induction shapes with
  | nil =>
    refine (Set.finite_singleton []).subset ?_
    rintro spans ⟨hshapes, -⟩
    exact List.map_eq_nil_iff.mp hshapes
  | cons shape shapes ih =>
    refine (((Set.finite_Iio n).image shape.move).image2 List.cons ih).subset ?_
    rintro spans ⟨hshapes, hinside⟩
    cases spans with
    | nil => cases hshapes
    | cons span spans =>
      obtain ⟨hshape, hrest⟩ := List.cons.inj hshapes
      obtain ⟨hspan, hothers⟩ := List.forall_mem_cons.mp hinside
      have hmove : shape.move span.start = span := by
        rw [← hshape, ServerSpan.move_move, ServerSpan.move_start hspan.1.le]
      exact ⟨span, ⟨span.start, hspan.1.trans_le hspan.2, hmove⟩, spans, ⟨hrest, hothers⟩, rfl⟩

/-- The placements of the servers that have a higher potential. -/
noncomputable def better (n : Nat) (s : Swarm PeerId) : Finset (List (ServerSpan PeerId)) :=
  (finite_placements n (s.spans.map (·.move 0))).toFinset.filter fun spans =>
    s.potential < potential ⟨spans, (List.range n).map (load spans)⟩

theorem mem_better {spans : List (ServerSpan PeerId)} :
    spans ∈ better n s ↔ (spans.map (·.move 0) = s.spans.map (·.move 0) ∧
      ∀ span ∈ spans, span.start < span.stop ∧ span.stop ≤ n) ∧
        s.potential < potential ⟨spans, (List.range n).map (load spans)⟩ := by
  rw [better, Finset.mem_filter, Set.Finite.mem_toFinset]
  exact Iff.rfl

theorem card_better_lt {s' : Swarm PeerId} {moved : Bool} (h : Advances n s s' moved)
    (hmoved : moved = true) : (better n s').card < (better n s).card := by
  refine Finset.card_lt_card (Finset.ssubset_iff_subset_ne.mpr ⟨?_, ?_⟩)
  · intro spans hspans
    obtain ⟨⟨hshapes, hinside⟩, hlt⟩ := mem_better.mp hspans
    exact mem_better.mpr ⟨⟨hshapes.trans h.shapes, hinside⟩, (h.lt hmoved).trans hlt⟩
  · intro heq
    -- the new placement itself is no longer among those above
    have hself : potential ⟨s'.spans, (List.range n).map (load s'.spans)⟩ = s'.potential := by
      rw [← h.valid.throughputs]
    have hmem : s'.spans ∈ better n s := mem_better.mpr
      ⟨⟨h.shapes, h.valid.inside⟩, hself ▸ h.lt hmoved⟩
    rw [← heq] at hmem
    exact absurd (mem_better.mp hmem).2 (hself ▸ lt_irrefl _)

/-! ### Servers that move -/

variable [LinearOrder PeerId]

theorem lookup_of_mem {peerId : PeerId} (h : peerId ∈ s.servers) :
    ∃ span ∈ s.spans, span.peerId = peerId ∧ s.lookup peerId = some span := by
  obtain ⟨span, hspan, rfl⟩ := List.mem_map.mp h
  obtain ⟨found, hfound⟩ : ∃ found,
      s.spans.find? (fun other => other.peerId = span.peerId) = some found :=
    Option.isSome_iff_exists.mp (List.find?_isSome.mpr ⟨span, hspan, decide_eq_true rfl⟩)
  have hpeer := List.find?_some hfound
  rw [decide_eq_true_eq] at hpeer
  exact ⟨found, List.mem_of_find?_eq_some hfound, hpeer, hfound⟩

theorem spans_settle (hs : s.Valid n) (hspan : span ∈ s.spans) (newStart : Nat) :
    (s.settle span newStart).spans =
      s.spans.map fun other => if other.peerId = span.peerId then span.move newStart else other := by
  show s.spans.map _ = _
  rw [ServerSpan.ite_move (hs.inside span hspan).1.le]

/-- The sum of the throughputs of a block, after the move. -/
theorem load_settle (hs : s.Valid n) (hspan : span ∈ s.spans) (newStart i : Nat) :
    load (s.settle span newStart).spans i =
      (load s.spans i - if span.start ≤ i ∧ i < span.stop then span.throughput else 0) +
        if newStart ≤ i ∧ i < newStart + span.length then span.throughput else 0 := by
  obtain ⟨before, after, hothers, hmap⟩ := exists_others hs.nodup hspan
  rw [spans_settle hs hspan, hmap, hothers, load_append, load_append, load_cons_move, load_cons]
  ring

theorem throughputs_settle (hs : s.Valid n) (hspan : span ∈ s.spans) (newStart : Nat) :
    (s.settle span newStart).throughputs =
      (List.range n).map (load (s.settle span newStart).spans) := by
  have hmoved := ServerSpan.ite_move (hs.inside span hspan).1.le newStart
  calc (s.settle span newStart).throughputs
    _ = addToSlice (addToSlice (s.without span) span.start span.stop (span.throughput * eps)) newStart
          (newStart + span.length) span.throughput := by
        unfold settle
        dsimp only
        rw [hmoved]
        rfl
    _ = (List.range n).map (load (s.settle span newStart).spans) := by
        rw [without_eq hs, addToSlice_map_range, addToSlice_map_range]
        refine List.map_congr_left fun i _ => ?_
        rw [load_settle hs hspan]
        split <;> ring

theorem servers_settle (hs : s.Valid n) (hspan : span ∈ s.spans) (newStart : Nat) :
    (s.settle span newStart).servers = s.servers := by
  rw [servers, spans_settle hs hspan, List.map_map]
  refine List.map_congr_left fun other _ => ?_
  rw [Function.comp_apply]
  split
  · rename_i heq
    exact heq.symm
  · rfl

/-- A move inside keeps the swarm valid. -/
theorem Valid.settle (hs : s.Valid n) (hspan : span ∈ s.spans) {newStart : Nat}
    (hinside : newStart + span.length ≤ n) : (s.settle span newStart).Valid n where
  nodup := servers_settle hs hspan newStart ▸ hs.nodup
  inside := by
    rw [spans_settle hs hspan]
    intro moved hmoved
    obtain ⟨other, hother, rfl⟩ := List.mem_map.mp hmoved
    split
    · have hlength : 0 < span.length := Nat.sub_pos_of_lt (hs.inside span hspan).1
      exact ⟨Nat.lt_add_of_pos_right hlength, hinside⟩
    · exact hs.inside other hother
  nonneg := by
    rw [spans_settle hs hspan]
    intro moved hmoved
    obtain ⟨other, hother, rfl⟩ := List.mem_map.mp hmoved
    split
    · exact hs.nonneg span hspan
    · exact hs.nonneg other hother
  throughputs := throughputs_settle hs hspan newStart

/-- A server that stays changes nothing. -/
theorem settle_start (hs : s.Valid n) (hspan : span ∈ s.spans) : s.settle span span.start = s := by
  have hspans : (s.settle span span.start).spans = s.spans := by
    obtain ⟨before, after, hothers, hmap⟩ := exists_others hs.nodup hspan
    rw [spans_settle hs hspan, hmap, ServerSpan.move_start (hs.inside span hspan).1.le, hothers]
  have hthroughputs := throughputs_settle hs hspan span.start
  rw [hspans, ← hs.throughputs] at hthroughputs
  calc s.settle span span.start
    _ = ⟨(s.settle span span.start).spans, (s.settle span span.start).throughputs⟩ := rfl
    _ = s := by rw [hspans, hthroughputs]

/-- A server with throughput makes the throughputs better. -/
theorem potential_lt_of_pos (hs : s.Valid n) (hspan : span ∈ s.spans) (hpos : 0 < span.throughput)
    {newStart : Nat} (hinside : newStart + span.length ≤ n) (hmoves : span.start ≠ newStart)
    (hchosen : ¬ Leximin
      (valuesAt (fun i => load s.spans i -
        if span.start ≤ i ∧ i < span.stop then span.throughput + span.throughput * eps else 0)
        (Finset.Ico span.start (span.start + span.length)))
      (valuesAt (fun i => load s.spans i -
        if span.start ≤ i ∧ i < span.stop then span.throughput + span.throughput * eps else 0)
        (Finset.Ico newStart (newStart + span.length)))) :
    s.potential < (s.settle span newStart).potential := by
  obtain ⟨hlt, hstop⟩ := hs.inside span hspan
  have hlength : 0 < span.length := Nat.sub_pos_of_lt hlt
  have hend : span.start + span.length = span.stop := Nat.add_sub_of_le hlt.le
  rw [hend] at hchosen
  have hpenalty : 0 < span.throughput * eps := mul_pos hpos (by norm_num [eps])
  have hcard : (Finset.Ico span.start span.stop).card =
      (Finset.Ico newStart (newStart + span.length)).card := by
    rw [Nat.card_Ico, Nat.card_Ico, Nat.add_sub_cancel_left]
    rfl
  have hne : Finset.Ico span.start span.stop ≠ Finset.Ico newStart (newStart + span.length) := by
    intro heq
    have hold : span.start ∈ Finset.Ico newStart (newStart + span.length) :=
      heq ▸ Finset.left_mem_Ico.mpr hlt
    have hnew : newStart ∈ Finset.Ico span.start span.stop :=
      heq ▸ Finset.left_mem_Ico.mpr (Nat.lt_add_of_pos_right hlength)
    exact hmoves (Nat.le_antisymm (Finset.mem_Ico.mp hnew).1 (Finset.mem_Ico.mp hold).1)
  have hsub : ∀ {a b : Nat}, b ≤ n → Finset.Ico a b ⊆ Finset.range n := fun hb i hi =>
    Finset.mem_range.mpr (Nat.lt_of_lt_of_le (Finset.mem_Ico.mp hi).2 hb)
  have hbetter := leximin_moved (hsub hstop) (hsub hinside) hcard hne hpos hpenalty
    (fun i => congrArg (load s.spans i - ·) (if_congr Finset.mem_Ico.symm rfl rfl))
    (fun i => (load_settle hs hspan newStart i).trans (congrArg₂ (· + ·)
      (congrArg (load s.spans i - ·) (if_congr Finset.mem_Ico.symm rfl rfl))
      (if_congr Finset.mem_Ico.symm rfl rfl))) hchosen
  refine Prod.Lex.toLex_lt_toLex.mpr (.inl ?_)
  rw [insertionSort_lt_iff, hs.throughputs, throughputs_settle hs hspan]
  · exact hbetter
  · rw [hs.throughputs, throughputs_settle hs hspan, List.length_map, List.length_map]

/-- A server without throughput is then at its place. -/
theorem potential_lt_of_zero (hs : s.Valid n) (hspan : span ∈ s.spans) (hzero : span.throughput = 0)
    {newStart : Nat} (hmoves : span.start ≠ newStart)
    (hchosen : chooseBestStart (s.without span) span.length = .ok newStart) :
    s.potential < (s.settle span newStart).potential := by
  have hwithout : s.without span = s.throughputs := by
    rw [without_eq hs, hs.throughputs]
    refine List.map_congr_left fun i _ => ?_
    rw [hzero, zero_mul, add_zero, ite_self, sub_zero]
  have hsame : (s.settle span newStart).throughputs = s.throughputs := by
    rw [throughputs_settle hs hspan, hs.throughputs]
    refine List.map_congr_left fun i _ => ?_
    rw [load_settle hs hspan, hzero, ite_self, ite_self, sub_zero, add_zero]
  rw [hwithout] at hchosen
  refine Prod.Lex.toLex_lt_toLex.mpr (.inr ⟨by rw [hsame], ?_⟩)
  obtain ⟨before, after, hothers, hmap⟩ := exists_others hs.nodup hspan
  have hbefore : ¬ (span.throughput = 0 ∧
      chooseBestStart s.throughputs span.length = .ok span.start) := by
    rintro ⟨-, hstart⟩
    exact hmoves (Except.ok.inj (hstart.symm.trans hchosen))
  have hafter : (span.move newStart).throughput = 0 ∧
      chooseBestStart s.throughputs (span.move newStart).length = .ok (span.move newStart).start :=
    ⟨hzero, by rw [ServerSpan.length_move]; exact hchosen⟩
  rw [settled, settled, hsame, spans_settle hs hspan, hmap, hothers, List.countP_append,
    List.countP_append, List.countP_cons_of_neg (by simpa using hbefore),
    List.countP_cons_of_pos (by simpa using hafter)]
  exact Nat.add_lt_add_left (Nat.lt_succ_self _) _

/-! ### Passes and the loop -/

/-- A place that a server chooses is inside, and the swarm is no worse for it. -/
theorem advances_settle (hs : s.Valid n) (hspan : span ∈ s.spans) :
    ∃ newStart, chooseBestStart (s.without span) span.length = .ok newStart ∧
      Advances n s (s.settle span newStart) (span.start ≠ newStart) := by
  obtain ⟨hlt, hstop⟩ := hs.inside span hspan
  have hend : span.start + span.length = span.stop := Nat.add_sub_of_le hlt.le
  have hfits : span.length ≤ n := (Nat.sub_le _ _).trans hstop
  obtain ⟨newStart, hchosen, hinside, hbest⟩ := chooseBestStart_spec (fun i => load s.spans i -
    if span.start ≤ i ∧ i < span.stop then span.throughput + span.throughput * eps else 0) hfits
  rw [← without_eq hs] at hchosen
  have hlt : span.start ≠ newStart → s.potential < (s.settle span newStart).potential := by
    intro hmoves
    rcases (hs.nonneg span hspan).eq_or_lt with hzero | hpos
    · exact potential_lt_of_zero hs hspan hzero.symm hmoves hchosen
    · exact potential_lt_of_pos hs hspan hpos hinside hmoves (hbest span.start (hend.trans_le hstop))
  refine ⟨newStart, hchosen, hs.settle hspan hinside, servers_settle hs hspan newStart, ?_, ?_, ?_⟩
  · obtain ⟨before, after, hothers, hmap⟩ := exists_others hs.nodup hspan
    rw [spans_settle hs hspan, hmap, hothers, List.map_append, List.map_append, List.map_cons,
      List.map_cons, ServerSpan.move_move]
  · by_cases hmoves : span.start = newStart
    · rw [← hmoves, settle_start hs hspan]
    · exact (hlt hmoves).le
  · exact fun hmoves => hlt (of_decide_eq_true hmoves)

/-- **One server.** -/
theorem process_advances (hs : s.Valid n) {peerId : PeerId} (h : peerId ∈ s.servers) :
    ∃ s' moved, s.process peerId = .ok (s', moved) ∧ Advances n s s' moved := by
  obtain ⟨span, hspan, -, hlookup⟩ := lookup_of_mem h
  obtain ⟨newStart, hchosen, hadvances⟩ := advances_settle hs hspan
  refine ⟨_, _, ?_, hadvances⟩
  unfold process
  rw [hlookup]
  show chooseBestStart (s.without span) span.length >>= _ = _
  rw [hchosen]
  rfl

/-- **Servers one after another.** -/
theorem pass_advances :
    ∀ (servers : List PeerId) {s : Swarm PeerId}, s.Valid n → servers ⊆ s.servers →
      ∃ s' moved, s.pass servers = .ok (s', moved) ∧ Advances n s s' moved
  | [], s, hs, _ => ⟨s, false, rfl, .refl hs⟩
  | peerId :: servers, s, hs, hservers => by
    obtain ⟨hpeer, hlater⟩ := List.cons_subset.mp hservers
    obtain ⟨s₁, moved, hprocess, hfirst⟩ := process_advances hs hpeer
    obtain ⟨s₂, later, hpass, hrest⟩ := pass_advances servers hfirst.valid (hfirst.servers ▸ hlater)
    refine ⟨s₂, moved || later, ?_, hfirst.trans hrest⟩
    rw [pass, hprocess]
    show s₁.pass servers >>= _ = _
    rw [hpass]
    rfl

/-- Turns, and then others. -/
theorem pass_append {turns later : List PeerId} {s₁ s₂ : Swarm PeerId} {moved moved' : Bool}
    (h : s.pass turns = .ok (s₁, moved)) (hlater : s₁.pass later = .ok (s₂, moved')) :
    s.pass (turns ++ later) = .ok (s₂, moved || moved') := by
  induction turns generalizing s moved with
  | nil =>
    cases h
    rw [List.nil_append, hlater, Bool.false_or]
  | cons peerId turns ih =>
    obtain ⟨⟨t, first⟩, hprocess, h⟩ := bind_eq_ok.mp h
    obtain ⟨⟨t', rest⟩, hrest, h⟩ := bind_eq_ok.mp h
    cases h
    rw [List.cons_append, pass, hprocess, ok_bind]
    show t.pass (turns ++ later) >>= _ = _
    rw [ih hrest, ok_bind, Bool.or_assoc]
    rfl

/-- What the loop ends with is what comes of turns of the servers. -/
theorem exists_turns_of_balance {shuffle : Nat → List PeerId → List PeerId}
    (hshuffle : ∀ round servers, (shuffle round servers).Perm servers) {s' : Swarm PeerId} {fuel : Nat} :
    ∀ {s : Swarm PeerId} {round : Nat}, s.Valid n → s.balance shuffle fuel round = .ok (some s') →
      ∃ turns moved, turns ⊆ s.servers ∧ s.pass turns = .ok (s', moved) := by
  induction fuel with
  | zero =>
    intro s round _ h
    cases h
  | succ fuel ih =>
    intro s round hs h
    have hturns := (hshuffle round s.servers).subset
    obtain ⟨s₁, moved, hpass, hadvances⟩ := pass_advances _ hs hturns
    rw [balance, hpass, ok_bind] at h
    cases moved with
    | false =>
      cases h
      exact ⟨_, _, hturns, hpass⟩
    | true =>
      obtain ⟨later, moved', hlater, hpass'⟩ := ih hadvances.valid h
      rw [hadvances.servers] at hlater
      exact ⟨_, true || moved', List.append_subset.mpr ⟨hturns, hlater⟩, pass_append hpass hpass'⟩

/-- **The loop ends.** By induction on how many placements have a higher potential: each iteration that
moves a server leaves fewer. -/
theorem balance_terminates (shuffle : Nat → List PeerId → List PeerId)
    (hshuffle : ∀ round servers, (shuffle round servers).Perm servers) (hs : s.Valid n) (round : Nat) :
    ∃ fuel s', s.balance shuffle fuel round = .ok (some s') ∧ s'.Valid n ∧ s'.servers = s.servers := by
  induction hcard : (better n s).card using Nat.strong_induction_on generalizing s round with
  | _ k ih =>
    obtain ⟨s₁, moved, hpass, hadvances⟩ := pass_advances (shuffle round s.servers) hs
      (hshuffle round s.servers).subset
    cases moved with
    | false =>
      refine ⟨1, s₁, ?_, hadvances.valid, hadvances.servers⟩
      rw [balance, hpass]
      rfl
    | true =>
      have hfewer := card_better_lt hadvances rfl
      rw [hcard] at hfewer
      obtain ⟨fuel, s', hbalance, hvalid, hservers⟩ := ih _ hfewer hadvances.valid (round + 1) rfl
      refine ⟨fuel + 1, s', ?_, hvalid, hservers.trans hadvances.servers⟩
      rw [balance, hpass]
      exact hbalance

end Swarm

/-! ### Rebalancing -/

variable [LinearOrder PeerId]

/-- **Rebalancing ends.** Whatever the order in which the servers take their turns: the loop ends with an
answer; and after any number of turns the throughput of each block is the sum of those of its servers, and
the next turn does not lower the lowest. -/
theorem rebalancing_terminates {n : Nat} {spans : List (ServerSpan PeerId)}
    (hkeys : (spans.map ServerSpan.peerId).Nodup)
    (hinside : ∀ span ∈ spans, span.start < span.stop ∧ span.stop ≤ n)
    (hnonneg : ∀ span ∈ spans, 0 ≤ span.throughput)
    (shuffle : Nat → List PeerId → List PeerId)
    (hshuffle : ∀ round servers, (shuffle round servers).Perm servers) (balanceQuality : ℚ) :
    (∀ localPeerId ∈ spans.map ServerSpan.peerId, ∃ fuel answer,
      shouldChooseOtherBlocks shuffle fuel localPeerId spans n balanceQuality = .ok (some answer)) ∧
    ∀ turns, turns ⊆ spans.map ServerSpan.peerId →
      ∃ s moved, Swarm.pass turns ⟨spans, computeThroughputs spans n⟩ = .ok (s, moved) ∧
        s.throughputs = computeThroughputs s.spans n ∧
        ∀ peerId ∈ spans.map ServerSpan.peerId,
          ∃ s' moves least least', s.process peerId = .ok (s', moves) ∧
            s'.throughputs = computeThroughputs s'.spans n ∧
            minimum s.throughputs = .ok least ∧ minimum s'.throughputs = .ok least' ∧ least ≤ least' := by
  have hvalid : Swarm.Valid n ⟨spans, computeThroughputs spans n⟩ :=
    ⟨hkeys, hinside, hnonneg, computeThroughputs_eq spans n⟩
  constructor
  · intro localPeerId hlocal
    have hpos : 0 < n := hvalid.pos hlocal
    by_cases hforced : 1 < balanceQuality
    · exact ⟨0, true, by rw [shouldChooseOtherBlocks, if_pos hforced]⟩
    obtain ⟨localSpan, hspan, -, hlookup⟩ := Swarm.lookup_of_mem (s := ⟨spans, _⟩) hlocal
    obtain ⟨newStart, hchosen, hmoved⟩ := Swarm.advances_settle hvalid hspan
    obtain ⟨fuel, s', hbalance, hvalid', -⟩ :=
      Swarm.balance_terminates shuffle hshuffle hmoved.valid 0
    obtain ⟨initialThroughput, hinitial⟩ : ∃ t, minimum (computeThroughputs spans n) = .ok t := by
      rw [computeThroughputs_eq]
      exact Swarm.exists_minimum hpos _
    obtain ⟨least, hleast⟩ :
        ∃ t, minimum (Swarm.without ⟨spans, computeThroughputs spans n⟩ localSpan) = .ok t := by
      rw [Swarm.without_eq hvalid]
      exact Swarm.exists_minimum hpos _
    obtain ⟨newThroughput, hnew⟩ : ∃ t, minimum s'.throughputs = .ok t := by
      rw [hvalid'.throughputs]
      exact Swarm.exists_minimum hpos _
    refine ⟨fuel, ?_⟩
    simp only [shouldChooseOtherBlocks, if_neg hforced, hinitial, hlookup, hleast, hchosen, hbalance,
      hnew, ok_bind]
    split
    · exact ⟨_, rfl⟩
    · split
      · exact ⟨_, rfl⟩
      · split
        · exact ⟨_, rfl⟩
        · exact ⟨_, rfl⟩
  · intro turns hturns
    obtain ⟨s, moved, hpass, hadvances⟩ := Swarm.pass_advances turns hvalid hturns
    refine ⟨s, moved, hpass, hadvances.valid.throughputs.trans (computeThroughputs_eq _ n).symm, ?_⟩
    intro peerId hpeer
    have hpeer' : peerId ∈ s.servers := by
      rw [hadvances.servers]
      exact hpeer
    obtain ⟨s', moves, hprocess, hnext⟩ := Swarm.process_advances hadvances.valid hpeer'
    obtain ⟨least, hleast⟩ : ∃ t, minimum s.throughputs = .ok t := by
      rw [hadvances.valid.throughputs]
      exact Swarm.exists_minimum (hvalid.pos hpeer) _
    obtain ⟨least', hleast'⟩ : ∃ t, minimum s'.throughputs = .ok t := by
      rw [hnext.valid.throughputs]
      exact Swarm.exists_minimum (hvalid.pos hpeer) _
    exact ⟨s', moves, least, least', hprocess,
      hnext.valid.throughputs.trans (computeThroughputs_eq _ n).symm, hleast, hleast',
      hnext.minimum_le hadvances.valid hleast hleast'⟩

/-- Two servers on the same two of four blocks. -/
theorem rebalancing_terminates_two_servers :
    ∃ fuel answer, shouldChooseOtherBlocks (fun _ servers => servers) fuel 1
      [⟨1, 0, 2, 2⟩, ⟨2, 0, 2, 3⟩] 4 1 = .ok (some answer) :=
  (@rebalancing_terminates _ _ 4 [⟨1, 0, 2, 2⟩, ⟨2, 0, 2, 3⟩] (by decide) (by decide)
    (by decide) (fun _ servers => servers) (fun _ servers => .refl servers) 1).1 1 (by decide)

end Drift.Server
