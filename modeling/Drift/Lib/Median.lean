import Mathlib.Data.List.Sort
import Mathlib.Data.List.Forall2
import Mathlib.Order.Basic

/-!
# Low medians

The low median of a list is the middle one of its elements in order, and the lower of the two middle
ones where their number is even. It is an element of the list, and it is monotone: lists that are
related element by element by `≤` have related medians, whatever order their elements come in.

* `forall₂_insertionSort` — sorting is monotone;
* `medianLow`, `medianLow_mem`, `medianLow_le`, `medianLow_perm`;
* `medianLow_le_of_minority` — a minority of at most half of the elements does not raise it.
-/

namespace Drift.Lib

variable {α : Type*} [LinearOrder α]

/-- Inserting into sorted lists is monotone. -/
theorem forall₂_orderedInsert {xs ys : List α} (h : List.Forall₂ (· ≤ ·) xs ys)
    (hxs : xs.Pairwise (· ≤ ·)) (hys : ys.Pairwise (· ≤ ·)) {a b : α} (hab : a ≤ b) :
    List.Forall₂ (· ≤ ·) (xs.orderedInsert (· ≤ ·) a) (ys.orderedInsert (· ≤ ·) b) := by
  -- an element below the others is inserted at the front
  have hfront : ∀ {x : α} {l : List α}, (x :: l).Pairwise (· ≤ ·) →
      l.orderedInsert (· ≤ ·) x = x :: l := by
    intro x l hl
    cases l with
    | nil => rfl
    | cons y l => exact List.orderedInsert_cons_of_le _ _ (List.rel_of_pairwise_cons hl List.mem_cons_self)
  induction h generalizing a b with
  | nil => exact .cons hab .nil
  | @cons x y xs ys hxy h ih =>
    have hxs' := hxs.of_cons
    have hys' := hys.of_cons
    by_cases hax : a ≤ x
    · rw [List.orderedInsert_cons_of_le _ _ hax]
      by_cases hby : b ≤ y
      · rw [List.orderedInsert_cons_of_le _ _ hby]
        exact .cons hab (.cons hxy h)
      · rw [List.orderedInsert_of_not_le _ _ hby]
        have hyb := le_of_lt (not_le.mp hby)
        have hrest := ih hxs' hys' (hxy.trans hyb)
        rw [hfront hxs] at hrest
        exact .cons (hax.trans hxy) hrest
    · rw [List.orderedInsert_of_not_le _ _ hax]
      have hxa := le_of_lt (not_le.mp hax)
      by_cases hby : b ≤ y
      · rw [List.orderedInsert_cons_of_le _ _ hby]
        have hrest := ih hxs' hys' (hab.trans hby)
        rw [hfront hys] at hrest
        exact .cons (hxa.trans hab) hrest
      · rw [List.orderedInsert_of_not_le _ _ hby]
        exact .cons hxy (ih hxs' hys' hab)

/-- **Sorting is monotone.** -/
theorem forall₂_insertionSort {xs ys : List α} (h : List.Forall₂ (· ≤ ·) xs ys) :
    List.Forall₂ (· ≤ ·) (xs.insertionSort (· ≤ ·)) (ys.insertionSort (· ≤ ·)) := by
  induction h with
  | nil => exact .nil
  | cons hxy _ ih =>
    rw [List.insertionSort_cons, List.insertionSort_cons]
    exact forall₂_orderedInsert ih (List.pairwise_insertionSort _ _) (List.pairwise_insertionSort _ _)
      hxy

/-- The low median, `none` of the empty list. -/
def medianLow (xs : List α) : Option α := (xs.insertionSort (· ≤ ·))[(xs.length - 1) / 2]?

theorem medianLow_mem {xs : List α} {m : α} (h : medianLow xs = some m) : m ∈ xs :=
  (List.mem_insertionSort _).mp (List.mem_of_getElem? h)

theorem medianLow_isSome {xs : List α} (hne : xs ≠ []) : ∃ m, medianLow xs = some m := by
  have hpos : 0 < xs.length := List.length_pos_iff.mpr hne
  have hlt : (xs.length - 1) / 2 < (xs.insertionSort (· ≤ ·)).length := by
    rw [List.length_insertionSort]
    omega
  exact ⟨_, List.getElem?_eq_getElem hlt⟩

/-- **The low median is monotone.** -/
theorem medianLow_le {xs ys : List α} (h : List.Forall₂ (· ≤ ·) xs ys) {m n : α}
    (hm : medianLow xs = some m) (hn : medianLow ys = some n) : m ≤ n := by
  unfold medianLow at hm hn
  rw [h.length_eq] at hm
  exact List.forall₂_zip (forall₂_insertionSort h)
    (List.mem_of_getElem? (List.getElem?_zip_eq_some.mpr ⟨hm, hn⟩))

/-- The order of the elements does not matter. -/
theorem medianLow_perm {xs ys : List α} (h : xs.Perm ys) : medianLow xs = medianLow ys := by
  have hsorted : xs.insertionSort (· ≤ ·) = ys.insertionSort (· ≤ ·) :=
    List.Perm.eq_of_pairwise' (List.pairwise_insertionSort _ xs) (List.pairwise_insertionSort _ ys)
      ((List.perm_insertionSort _ xs).trans (h.trans (List.perm_insertionSort _ ys).symm))
  unfold medianLow
  rw [hsorted, h.length_eq]

/-- Less than half of the elements are below the low median. -/
theorem countP_lt_medianLow {xs : List α} {m : α} (h : medianLow xs = some m) :
    xs.countP (fun x => decide (x < m)) ≤ (xs.length - 1) / 2 := by
  unfold medianLow at h
  obtain ⟨hlt, hm⟩ := List.getElem?_eq_some_iff.mp h
  rw [← (List.perm_insertionSort (· ≤ ·) xs).countP_eq,
    ← List.take_append_drop ((xs.length - 1) / 2) (xs.insertionSort (· ≤ ·)), List.countP_append]
  -- from the median on, nothing is below it
  have hsorted := List.pairwise_insertionSort (· ≤ ·) xs
  have hzero : ((xs.insertionSort (· ≤ ·)).drop ((xs.length - 1) / 2)).countP
      (fun x => decide (x < m)) = 0 := by
    rw [List.countP_eq_zero]
    intro x hx
    rw [decide_eq_true_eq, not_lt]
    rw [List.drop_eq_getElem_cons hlt, hm] at hx
    rcases List.mem_cons.mp hx with rfl | hx
    · exact le_rfl
    · have htail := hsorted.sublist (List.drop_sublist ((xs.length - 1) / 2) _)
      rw [List.drop_eq_getElem_cons hlt, hm] at htail
      exact (List.pairwise_cons.mp htail).1 x hx
  rw [hzero, Nat.add_zero]
  exact List.countP_le_length.trans (List.length_take_le ..)

/-- **A minority does not raise the low median.** Where at most half of the elements are not honest, an
honest one has at least the median. -/
theorem medianLow_le_of_minority {β : Type*} {xs : List β} {value : β → α} {honest : β → Bool} {m : α}
    (h : medianLow (xs.map value) = some m)
    (hminority : 2 * xs.countP (fun x => !honest x) ≤ xs.length) :
    ∃ x ∈ xs, honest x = true ∧ m ≤ value x := by
  by_contra hnone
  push Not at hnone
  have hbelow := countP_lt_medianLow h
  rw [List.countP_map, List.length_map] at hbelow
  have hhonest : xs.countP honest ≤ xs.countP ((fun x => decide (x < m)) ∘ value) :=
    List.countP_mono_left fun x hx hx' => decide_eq_true (hnone x hx hx')
  have hpos : 0 < xs.length := by
    obtain ⟨x, hx, -⟩ := List.mem_map.mp (medianLow_mem h)
    exact List.length_pos_of_mem hx
  have hsplit := List.length_eq_countP_add_countP honest (l := xs)
  have hother : xs.countP (fun x => decide ¬honest x = true) = xs.countP (fun x => !honest x) := by
    congr 1
    ext x
    cases honest x <;> rfl
  omega

end Drift.Lib
