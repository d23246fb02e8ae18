import Mathlib.Algebra.Order.Group.Defs
import Mathlib.Data.Finset.Card
import Mathlib.Data.Finset.Max
import Mathlib.Data.List.Lex
import Mathlib.Data.List.Sort
import Mathlib.Data.Multiset.Filter
import Mathlib.Data.Multiset.ZeroCons

/-!
# The leximin order

Of two collections of values the leximin order prefers the one whose smallest value is larger, and, where
these are equal, the one whose next value is. It is the lexicographic order of the sorted values. What
matters is only how often each value occurs: at the smallest value that they do not have equally often,
the worse collection has it more often. So common values can be left out, and values can be shifted.

* `Leximin` — the first collection is worse;
* `leximin_coe_iff`, `insertionSort_lt_iff` — the lexicographic order of the sorted values;
* `Leximin.exchange` — adding to the worse values gives more than adding to the better ones;
* `leximin_moved` — an item that moves to places which are no better without it makes the whole better.
-/

namespace Drift.Lib

section Order

variable {α : Type*} [LinearOrder α]

/-- The first collection is worse: at the smallest value that the two do not have equally often, it has
more. -/
def Leximin (s t : Multiset α) : Prop :=
  ∃ m, (∀ x < m, s.count x = t.count x) ∧ t.count m < s.count m

variable {s t u : Multiset α}

theorem Leximin.irrefl (s : Multiset α) : ¬ Leximin s s := by
  rintro ⟨m, -, h⟩
  exact Nat.lt_irrefl _ h

theorem Leximin.trans (hst : Leximin s t) (htu : Leximin t u) : Leximin s u := by
  obtain ⟨m, hbelow, hm⟩ := hst
  obtain ⟨n, hbelow', hn⟩ := htu
  rcases lt_trichotomy m n with h | rfl | h
  · refine ⟨m, fun x hx => (hbelow x hx).trans (hbelow' x (hx.trans h)), ?_⟩
    rw [← hbelow' m h]
    exact hm
  · exact ⟨m, fun x hx => (hbelow x hx).trans (hbelow' x hx), hn.trans hm⟩
  · refine ⟨n, fun x hx => (hbelow x (hx.trans h)).trans (hbelow' x hx), ?_⟩
    rw [hbelow n h]
    exact hn

/-- Of two collections that differ one is worse. -/
theorem leximin_or_of_ne (hne : s ≠ t) : Leximin s t ∨ Leximin t s := by
  -- the values that do not occur equally often, and the smallest of them
  let values := (s.toFinset ∪ t.toFinset).filter fun x => s.count x ≠ t.count x
  have hvalues : ∀ {x}, s.count x ≠ t.count x → x ∈ values := by
    intro x hx
    refine Finset.mem_filter.mpr ⟨?_, hx⟩
    by_contra hnot
    rw [Finset.mem_union, not_or, Multiset.mem_toFinset, Multiset.mem_toFinset] at hnot
    rw [Multiset.count_eq_zero.mpr hnot.1, Multiset.count_eq_zero.mpr hnot.2] at hx
    exact hx rfl
  have hnonempty : values.Nonempty := by
    by_contra hempty
    rw [Finset.not_nonempty_iff_eq_empty] at hempty
    refine hne (Multiset.ext.mpr fun x => ?_)
    by_contra hx
    exact Finset.notMem_empty x (hempty ▸ hvalues hx)
  have hdiffer : s.count (values.min' hnonempty) ≠ t.count (values.min' hnonempty) :=
    (Finset.mem_filter.mp (values.min'_mem hnonempty)).2
  have hbelow : ∀ x < values.min' hnonempty, s.count x = t.count x := by
    intro x hx
    by_contra hne
    exact absurd (values.min'_le x (hvalues hne)) (not_le.mpr hx)
  rcases Nat.lt_or_gt_of_ne hdiffer with h | h
  · exact .inr ⟨_, fun x hx => (hbelow x hx).symm, h⟩
  · exact .inl ⟨_, hbelow, h⟩

/-- Common values do not matter. -/
theorem leximin_add_left_iff : Leximin (u + s) (u + t) ↔ Leximin s t := by
  refine exists_congr fun m => ?_
  simp only [Multiset.count_add, Nat.add_left_cancel_iff, Nat.add_lt_add_iff_left]

/-- Every value of the better collection is above some value of the worse one. -/
theorem Leximin.exists_le (h : Leximin s t) {y : α} (hy : y ∈ t) : ∃ x ∈ s, x ≤ y := by
  obtain ⟨m, hbelow, hm⟩ := h
  rcases lt_or_ge y m with hlt | hle
  · have hcount : 0 < s.count y := by
      rw [hbelow y hlt]
      exact Multiset.count_pos.mpr hy
    exact ⟨y, Multiset.count_pos.mp hcount, le_rfl⟩
  · exact ⟨m, Multiset.count_pos.mp (Nat.zero_lt_of_lt hm), hle⟩

/-! ### Sorted lists -/

/-- Lists in order are compared from the front. -/
theorem leximin_coe_iff :
    ∀ {xs ys : List α}, xs.Pairwise (· ≤ ·) → ys.Pairwise (· ≤ ·) → xs.length = ys.length →
      (Leximin (xs : Multiset α) (ys : Multiset α) ↔ xs < ys)
  | [], [], _, _, _ => iff_of_false (Leximin.irrefl _) (lt_irrefl _)
  | x :: xs, y :: ys, hxs, hys, hlength => by
    have hmin : ∀ {z} {zs : List α}, (z :: zs).Pairwise (· ≤ ·) → ∀ {v}, v < z →
        (z :: zs).count v = 0 := by
      intro z zs hzs v hv
      refine List.count_eq_zero.mpr fun hmem => ?_
      rcases List.mem_cons.mp hmem with rfl | hmem
      · exact lt_irrefl _ hv
      · exact absurd (List.rel_of_pairwise_cons hzs hmem) (not_le.mpr hv)
    rcases lt_trichotomy x y with h | rfl | h
    · refine iff_of_true ⟨x, fun v hv => ?_, ?_⟩ (List.Lex.rel h)
      · rw [Multiset.coe_count, Multiset.coe_count, hmin hxs hv, hmin hys (hv.trans h)]
      · rw [Multiset.coe_count, Multiset.coe_count, hmin hys h]
        exact List.count_pos_iff.mpr List.mem_cons_self
    · have hrest := leximin_coe_iff hxs.of_cons hys.of_cons (Nat.succ.inj hlength)
      rw [← Multiset.cons_coe, ← Multiset.cons_coe, ← Multiset.singleton_add, ← Multiset.singleton_add,
        leximin_add_left_iff, hrest]
      exact (List.cons_lt_cons_self).symm
    · refine iff_of_false ?_ (not_lt.mpr (le_of_lt (List.Lex.rel h)))
      rintro ⟨m, hbelow, hm⟩
      -- the first list has nothing below its head, and so nothing that the second has more rarely
      have hym : ¬ y < m := by
        intro hym
        have hcount := hbelow y hym
        rw [Multiset.coe_count, Multiset.coe_count, hmin hxs h] at hcount
        exact absurd hcount.symm (Nat.ne_of_gt (List.count_pos_iff.mpr List.mem_cons_self))
      rw [Multiset.coe_count, Multiset.coe_count, hmin hxs (lt_of_le_of_lt (not_lt.mp hym) h)] at hm
      exact Nat.not_lt_zero _ hm

/-- **The leximin order is the order of the sorted lists.** -/
theorem insertionSort_lt_iff {xs ys : List α} (hlength : xs.length = ys.length) :
    xs.insertionSort (· ≤ ·) < ys.insertionSort (· ≤ ·) ↔
      Leximin (xs : Multiset α) (ys : Multiset α) := by
  rw [← leximin_coe_iff (List.pairwise_insertionSort _ _) (List.pairwise_insertionSort _ _)
    (by rw [List.length_insertionSort, List.length_insertionSort, hlength]),
    Multiset.coe_eq_coe.mpr (List.perm_insertionSort _ xs),
    Multiset.coe_eq_coe.mpr (List.perm_insertionSort _ ys)]

end Order

/-! ### Shifts -/

section Group

variable {α : Type*} [AddCommGroup α] [LinearOrder α] [IsOrderedAddMonoid α] {s t : Multiset α}

theorem count_map_add (s : Multiset α) (w x : α) : (s.map (· + w)).count x = s.count (x - w) := by
  have hcount := Multiset.count_map_eq_count' (· + w) s (add_left_injective w) (x - w)
  rw [sub_add_cancel] at hcount
  exact hcount

/-- Values that are all lowered are worse. -/
theorem leximin_map_sub {δ : α} (hδ : 0 < δ) (hs : s ≠ 0) : Leximin (s.map (· - δ)) s := by
  obtain ⟨least, hleast, hle⟩ : ∃ least ∈ s, ∀ x ∈ s, least ≤ x := by
    have hnonempty : s.toFinset.Nonempty := Multiset.toFinset_nonempty.mpr hs
    refine ⟨s.toFinset.min' hnonempty, Multiset.mem_toFinset.mp (s.toFinset.min'_mem hnonempty), ?_⟩
    intro x hx
    exact s.toFinset.min'_le x (Multiset.mem_toFinset.mpr hx)
  have hnone : ∀ x < least, s.count x = 0 := fun x hx =>
    Multiset.count_eq_zero.mpr fun hmem => absurd (hle x hmem) (not_le.mpr hx)
  have hcount : ∀ x, (s.map (· - δ)).count x = s.count (x + δ) := by
    intro x
    have hshift := count_map_add s (-δ) x
    rw [sub_neg_eq_add] at hshift
    simp only [← sub_eq_add_neg] at hshift
    exact hshift
  refine ⟨least - δ, fun x hx => ?_, ?_⟩
  · rw [hcount, hnone _ (lt_sub_iff_add_lt.mp hx), hnone x (hx.trans (sub_lt_self _ hδ))]
  · rw [hcount, sub_add_cancel, hnone _ (sub_lt_self _ hδ)]
    exact Multiset.count_pos.mpr hleast

/-- **Exchange.** It is better to add to the worse values than to the better ones. -/
theorem Leximin.exchange (h : Leximin s t) {w : α} (hw : 0 < w) :
    Leximin (s + t.map (· + w)) (s.map (· + w) + t) := by
  obtain ⟨m, hbelow, hm⟩ := h
  refine ⟨m, fun x hx => ?_, ?_⟩
  · rw [Multiset.count_add, Multiset.count_add, count_map_add, count_map_add, hbelow x hx,
      hbelow (x - w) ((sub_lt_self x hw).trans hx), Nat.add_comm]
  · rw [Multiset.count_add, Multiset.count_add, count_map_add, count_map_add,
      hbelow (m - w) (sub_lt_self m hw), Nat.add_comm]
    exact Nat.add_lt_add_right hm _

end Group

/-! ### Items that move -/

section Items

variable {ι α : Type*}

/-- The values of a function at the places of a set. -/
def valuesAt (f : ι → α) (places : Finset ι) : Multiset α := places.val.map f

theorem valuesAt_congr {f g : ι → α} {places : Finset ι} (h : ∀ i ∈ places, f i = g i) :
    valuesAt f places = valuesAt g places :=
  Multiset.map_congr rfl h

theorem map_valuesAt (f : ι → α) (h : α → α) (places : Finset ι) :
    (valuesAt f places).map h = valuesAt (fun i => h (f i)) places :=
  Multiset.map_map h f _

theorem valuesAt_union [DecidableEq ι] (f : ι → α) {a b : Finset ι} (h : Disjoint a b) :
    valuesAt f (a ∪ b) = valuesAt f a + valuesAt f b := by
  rw [valuesAt, ← Finset.disjUnion_eq_union a b h, Finset.disjUnion_val, Multiset.map_add]
  rfl

/-- The values of a set are those of a part and those of what is left. -/
theorem valuesAt_parts [DecidableEq ι] (f : ι → α) {part whole : Finset ι} (h : part ⊆ whole) :
    valuesAt f whole = valuesAt f part + valuesAt f (whole \ part) := by
  rw [← valuesAt_union f Finset.disjoint_sdiff, Finset.union_sdiff_of_subset h]

variable [DecidableEq ι] [AddCommGroup α] [LinearOrder α] [IsOrderedAddMonoid α]

/-- **An item moves.** Its weight lies on some places, and it moves to as many other ones. If without the
item, and with a penalty on the places it leaves, these are not worse than those it moves to, then the
values are better after the move than before. -/
theorem leximin_moved {places old new : Finset ι} (hold : old ⊆ places) (hnew : new ⊆ places)
    (hcard : old.card = new.card) (hne : old ≠ new) {f v g : ι → α} {w δ : α} (hw : 0 < w) (hδ : 0 < δ)
    (hv : ∀ i, v i = f i - if i ∈ old then w + δ else 0)
    (hg : ∀ i, g i = (f i - if i ∈ old then w else 0) + if i ∈ new then w else 0)
    (hchosen : ¬ Leximin (valuesAt v old) (valuesAt v new)) :
    Leximin (valuesAt f places) (valuesAt g places) := by
  let left := old \ new
  let entered := new \ old
  let without := valuesAt (fun i => f i - w) left
  have hleft : without ≠ 0 := by
    have hnonempty : left.Nonempty :=
      Finset.sdiff_nonempty.mpr fun hsub => hne (Finset.eq_of_subset_of_card_le hsub hcard.ge)
    exact fun hzero => hnonempty.ne_empty (Finset.val_eq_zero.mp (Multiset.map_eq_zero.mp hzero))
  -- the places that it leaves are not worse than those that it enters, even with the penalty
  have hpenalty : ¬ Leximin (without.map (· - δ)) (valuesAt f entered) := by
    have hleftValues : valuesAt v left = without.map (· - δ) := by
      refine Eq.trans (valuesAt_congr fun i hi => ?_) (map_valuesAt _ (· - δ) left).symm
      rw [hv, if_pos (Finset.mem_sdiff.mp hi).1, sub_sub]
    have henteredValues : valuesAt v entered = valuesAt f entered :=
      valuesAt_congr fun i hi => by rw [hv, if_neg (Finset.mem_sdiff.mp hi).2, sub_zero]
    rw [valuesAt_parts v (Finset.inter_subset_left : old ∩ new ⊆ old),
      valuesAt_parts v (Finset.inter_subset_right : old ∩ new ⊆ new), leximin_add_left_iff,
      Finset.sdiff_inter_self_left, Finset.sdiff_inter_self_right] at hchosen
    rw [← hleftValues, ← henteredValues]
    exact hchosen
  have hworse : Leximin (valuesAt f entered) without := by
    by_cases heq : valuesAt f entered = without.map (· - δ)
    · rw [heq]
      exact leximin_map_sub hδ hleft
    · rcases leximin_or_of_ne heq with h | h
      · exact h.trans (leximin_map_sub hδ hleft)
      · exact absurd h hpenalty
  -- the places that it enters, those that it leaves, and the others
  have hdisjoint : Disjoint entered left :=
    Finset.disjoint_left.mpr fun i hi hi' => (Finset.mem_sdiff.mp hi).2 (Finset.mem_sdiff.mp hi').1
  have hparts : entered ∪ left ⊆ places :=
    Finset.union_subset (Finset.sdiff_subset.trans hnew) (Finset.sdiff_subset.trans hold)
  have hbefore : valuesAt f left = without.map (· + w) := by
    refine Eq.trans (valuesAt_congr fun i _ => ?_) (map_valuesAt _ (· + w) left).symm
    rw [sub_add_cancel]
  have hafterLeft : valuesAt g left = without :=
    valuesAt_congr fun i hi => by
      rw [hg, if_pos (Finset.mem_sdiff.mp hi).1, if_neg (Finset.mem_sdiff.mp hi).2, add_zero]
  have hafterEntered : valuesAt g entered = (valuesAt f entered).map (· + w) := by
    refine Eq.trans (valuesAt_congr fun i hi => ?_) (map_valuesAt f (· + w) entered).symm
    rw [hg, if_pos (Finset.mem_sdiff.mp hi).1, if_neg (Finset.mem_sdiff.mp hi).2, sub_zero]
  have hothers : valuesAt g (places \ (entered ∪ left)) = valuesAt f (places \ (entered ∪ left)) := by
    refine valuesAt_congr fun i hi => ?_
    obtain ⟨-, hi⟩ := Finset.mem_sdiff.mp hi
    rw [Finset.mem_union, Finset.mem_sdiff, Finset.mem_sdiff] at hi
    rw [hg]
    by_cases hio : i ∈ old
    · have hin : i ∈ new := by
        by_contra hin
        exact hi (.inr ⟨hio, hin⟩)
      rw [if_pos hio, if_pos hin, sub_add_cancel]
    · have hin : i ∉ new := fun hin => hi (.inl ⟨hin, hio⟩)
      rw [if_neg hio, if_neg hin, sub_zero, add_zero]
  rw [valuesAt_parts f hparts, valuesAt_parts g hparts, hothers, add_comm (valuesAt f _),
    add_comm (valuesAt g _), leximin_add_left_iff, valuesAt_union f hdisjoint, valuesAt_union g hdisjoint,
    hbefore, hafterLeft, hafterEntered]
  exact hworse.exchange hw

end Items

end Drift.Lib
