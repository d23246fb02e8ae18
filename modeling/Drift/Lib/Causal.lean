import Mathlib.Data.List.Basic
import Mathlib.Data.List.TakeDrop

/-!
# Causal functions on sequences

A function on sequences is *causal* if it keeps the length and each value of the result depends on the values up to its
position alone. Such a function can be computed piece by piece, with what was fed to it before at hand.

* `Causal.id`, `Causal.comp` — causal functions compose;
* `increment`, `Causal.append` — what a further piece adds to the result;
* `Causal.increment_append` — two pieces one after the other are one piece.
-/

namespace Drift.Lib

variable {α β γ : Type*}

/-- The length is kept, and the result of the first values is the first part of the result. -/
structure Causal (f : List α → List β) : Prop where
  length : ∀ xs, (f xs).length = xs.length
  take : ∀ n xs, (f xs).take n = f (xs.take n)

/-- What a further piece adds to the result, after `past`. -/
def increment (f : List α → List β) (past xs : List α) : List β := (f (past ++ xs)).drop past.length

namespace Causal

variable {f : List α → List β} {g : List β → List γ}

theorem id : Causal (id : List α → List α) := ⟨fun _ => rfl, fun _ _ => rfl⟩

theorem comp (hg : Causal g) (hf : Causal f) : Causal (g ∘ f) where
  length xs := (hg.length _).trans (hf.length xs)
  take n xs := by
    show (g (f xs)).take n = g (f (xs.take n))
    rw [hg.take, hf.take]

theorem nil (hf : Causal f) : f [] = [] := List.eq_nil_of_length_eq_zero (hf.length [])

/-- **A further piece** only adds to the result. -/
theorem append (hf : Causal f) (past xs : List α) : f (past ++ xs) = f past ++ increment f past xs := by
  have hpast : (f (past ++ xs)).take past.length = f past := by
    rw [hf.take, List.take_left]
  calc f (past ++ xs)
      = (f (past ++ xs)).take past.length ++ (f (past ++ xs)).drop past.length := (List.take_append_drop _ _).symm
    _ = f past ++ increment f past xs := by rw [hpast, increment]

theorem length_increment (hf : Causal f) (past xs : List α) : (increment f past xs).length = xs.length := by
  rw [increment, List.length_drop, hf.length, List.length_append, Nat.add_sub_cancel_left]

/-- Two pieces one after the other add what both together do. -/
theorem increment_append (hf : Causal f) (past xs ys : List α) :
    increment f past (xs ++ ys) = increment f past xs ++ increment f (past ++ xs) ys := by
  have hwhole : f past ++ increment f past (xs ++ ys) =
      f past ++ (increment f past xs ++ increment f (past ++ xs) ys) := by
    rw [← hf.append, ← List.append_assoc past, hf.append (past ++ xs), hf.append past, List.append_assoc]
  exact List.append_cancel_left hwhole

/-- Of causal functions one after the other, the second one adds to what the first one does. -/
theorem increment_comp (hf : Causal f) (g : List β → List γ) (past xs : List α) :
    increment (g ∘ f) past xs = increment g (f past) (increment f past xs) := by
  show (g (f (past ++ xs))).drop past.length = (g (f past ++ increment f past xs)).drop (f past).length
  rw [← hf.append, hf.length]

/-- The first part of a further piece. -/
theorem take_increment (hf : Causal f) (n : Nat) (past xs : List α) :
    (increment f past xs).take n = increment f past (xs.take n) := by
  unfold increment
  rw [List.take_drop, hf.take, List.take_append, List.take_of_length_le (Nat.le_add_right _ _),
    Nat.add_sub_cancel_left]

/-- What a piece adds at a position is the part of the result from there on. -/
theorem increment_take (hf : Causal f) (n : Nat) (xs : List α) :
    increment f (xs.take n) (xs.drop n) = (f xs).drop n := by
  unfold increment
  rw [List.take_append_drop, List.length_take]
  by_cases hn : n ≤ xs.length
  · rw [Nat.min_eq_left hn]
  · have hlength := hf.length xs
    rw [List.drop_of_length_le (by omega), List.drop_of_length_le (by omega)]

end Causal

end Drift.Lib
