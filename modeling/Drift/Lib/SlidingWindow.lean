import Mathlib.Data.List.DropRight
import Mathlib.Order.Lattice

/-!
# The maxima of a sliding window

A deque of positions answers for the maximum of a window that moves over a sequence. A position that
comes in removes from the back every position whose value it reaches; the position that leaves the
window is at the front, or has been removed already.

* `MonotoneDeque` — what the deque holds of a window `[lo, hi)`;
* `MonotoneDeque.push`, `MonotoneDeque.expire` — the window grows, and its first position leaves;
* `MonotoneDeque.front` — the front is a position of the maximum.
-/

namespace Drift.Lib

variable {α : Type*} [LinearOrder α] {v : Nat → α} {lo hi : Nat} {q : List Nat}

/-- **The deque of a window.** Its positions are in the window and increase, their values decrease, and
each position of the window is followed by one of the deque whose value is not smaller. -/
structure MonotoneDeque (v : Nat → α) (lo hi : Nat) (q : List Nat) : Prop where
  ordered : q.Pairwise fun i j => i < j ∧ v j < v i
  within : ∀ i ∈ q, lo ≤ i ∧ i < hi
  dominated : ∀ i, lo ≤ i → i < hi → ∃ m ∈ q, i ≤ m ∧ v i ≤ v m

/-- Of an empty window it holds nothing. -/
theorem MonotoneDeque.nil (v : Nat → α) (lo : Nat) : MonotoneDeque v lo lo [] := by
  refine ⟨List.Pairwise.nil, fun i hi => absurd hi List.not_mem_nil, ?_⟩
  intro i hlo hhi
  omega

/-- What is left at the back is larger than the value that came in, and so is all before it. -/
theorem lt_of_mem_rdropWhile {bound : α} (hordered : q.Pairwise fun i j => i < j ∧ v j < v i) {i : Nat}
    (hi : i ∈ q.rdropWhile fun j => decide (v j ≤ bound)) : bound < v i := by
  have hne : q.rdropWhile (fun j => decide (v j ≤ bound)) ≠ [] := List.ne_nil_of_mem hi
  have hlast := List.rdropWhile_last_not (fun j => decide (v j ≤ bound)) q hne
  rw [decide_eq_true_eq, not_le] at hlast
  have hkept := hordered.sublist (List.rdropWhile_prefix (fun j => decide (v j ≤ bound)) q).sublist
  rw [← List.dropLast_append_getLast hne] at hi hkept
  rcases List.mem_append.mp hi with hmem | hmem
  · exact hlast.trans ((List.pairwise_append.mp hkept).2.2 i hmem _ (List.mem_singleton_self _)).2
  · rwa [List.mem_singleton.mp hmem]

/-- The position that comes in takes the place of those it dominates. -/
theorem MonotoneDeque.push (h : MonotoneDeque v lo hi q) (hle : lo ≤ hi) :
    MonotoneDeque v lo (hi + 1) ((q.rdropWhile fun j => decide (v j ≤ v hi)) ++ [hi]) := by
  have hsub : ∀ i ∈ q.rdropWhile (fun j => decide (v j ≤ v hi)), i ∈ q := fun i hi' =>
    (List.rdropWhile_prefix (fun j => decide (v j ≤ v hi)) q).subset hi'
  refine ⟨?_, ?_, ?_⟩
  · refine List.pairwise_append.mpr ⟨h.ordered.sublist (List.rdropWhile_prefix _ q).sublist,
      List.pairwise_singleton _ _, ?_⟩
    intro i hi' j hj
    rw [List.mem_singleton.mp hj]
    exact ⟨(h.within i (hsub i hi')).2, lt_of_mem_rdropWhile h.ordered hi'⟩
  · intro i hi'
    rcases List.mem_append.mp hi' with hmem | hmem
    · have := h.within i (hsub i hmem)
      omega
    · rw [List.mem_singleton.mp hmem]
      omega
  · intro i hlo hhi
    have hlast : hi ∈ (q.rdropWhile fun j => decide (v j ≤ v hi)) ++ [hi] :=
      List.mem_append_right _ (List.mem_singleton_self _)
    rcases Nat.lt_or_ge i hi with hlt | hge
    · obtain ⟨m, hm, him, hv⟩ := h.dominated i hlo hlt
      -- the dominating position is still there, or it was removed for the one that came in
      by_cases hkept : m ∈ q.rdropWhile fun j => decide (v j ≤ v hi)
      · exact ⟨m, List.mem_append_left _ hkept, him, hv⟩
      · have hdropped : m ∈ q.rtakeWhile fun j => decide (v j ≤ v hi) := by
          have hsplit : q.rdropWhile (fun j => decide (v j ≤ v hi)) ++
              q.rtakeWhile (fun j => decide (v j ≤ v hi)) = q := by
            rw [List.rdropWhile, List.rtakeWhile, ← List.reverse_append, List.takeWhile_append_dropWhile,
              List.reverse_reverse]
          rw [← hsplit] at hm
          exact (List.mem_append.mp hm).resolve_left hkept
        have hle' : v m ≤ v hi := 
          of_decide_eq_true (List.mem_rtakeWhile_imp (p := fun j => decide (v j ≤ v hi)) hdropped)
        exact ⟨hi, hlast, hlt.le, hv.trans hle'⟩
    · obtain rfl : i = hi := by omega
      exact ⟨i, hlast, le_rfl, le_rfl⟩

/-- The position that leaves is the front, or no longer there. -/
theorem MonotoneDeque.expire (h : MonotoneDeque v lo hi q) :
    MonotoneDeque v (lo + 1) hi (if q.head? = some lo then q.tail else q) := by
  -- a position of the deque other than the one that leaves is after it
  have hafter : ∀ m ∈ if q.head? = some lo then q.tail else q, lo + 1 ≤ m := by
    intro m hm
    split at hm
    · rename_i hhead
      obtain ⟨rest, rfl⟩ : ∃ rest, q = lo :: rest := by
        cases q with
        | nil => cases hhead
        | cons head rest =>
          cases hhead
          exact ⟨rest, rfl⟩
      exact ((List.pairwise_cons.mp h.ordered).1 m hm).1
    · rename_i hhead
      obtain ⟨head, rest, rfl⟩ := List.exists_cons_of_ne_nil (List.ne_nil_of_mem hm)
      have hfirst := (h.within head (List.mem_cons_self ..)).1
      have hne : head ≠ lo := fun heq => hhead (congrArg some heq)
      rcases List.mem_cons.mp hm with rfl | hmem
      · omega
      · have := ((List.pairwise_cons.mp h.ordered).1 m hmem).1
        omega
  have hsublist : (if q.head? = some lo then q.tail else q).Sublist q := by
    split
    · exact List.tail_sublist q
    · exact List.Sublist.refl q
  refine ⟨h.ordered.sublist hsublist, fun i hi' => ⟨hafter i hi', (h.within i (hsublist.subset hi')).2⟩, ?_⟩
  intro i hlo hhi
  obtain ⟨m, hm, him, hv⟩ := h.dominated i (by omega) hhi
  refine ⟨m, ?_, him, hv⟩
  split
  · rename_i hhead
    cases q with
    | nil => cases hhead
    | cons head rest =>
      cases hhead
      rcases List.mem_cons.mp hm with rfl | hmem
      · omega
      · exact hmem
  · exact hm

/-- **The front of the deque** is a position of the window's maximum. -/
theorem MonotoneDeque.front (h : MonotoneDeque v lo hi q) (hlt : lo < hi) :
    ∃ m rest, q = m :: rest ∧ lo ≤ m ∧ m < hi ∧ ∀ i, lo ≤ i → i < hi → v i ≤ v m := by
  obtain ⟨last, hsome, -⟩ := h.dominated lo le_rfl hlt
  obtain ⟨m, rest, rfl⟩ := List.exists_cons_of_ne_nil (List.ne_nil_of_mem hsome)
  have hm := h.within m (List.mem_cons_self ..)
  refine ⟨m, rest, rfl, hm.1, hm.2, ?_⟩
  intro i hlo hhi
  obtain ⟨j, hj, -, hv⟩ := h.dominated i hlo hhi
  rcases List.mem_cons.mp hj with rfl | hmem
  · exact hv
  · exact hv.trans ((List.pairwise_cons.mp h.ordered).1 j hmem).2.le

end Drift.Lib
