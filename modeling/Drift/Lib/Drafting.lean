import Mathlib.Data.List.Infix
import Mathlib.Data.List.TakeDrop

/-!
# Continuations and drafts

A rule for the next value continues a sequence; a draft is a guess of the values to come, of which those are accepted
that the rule would have given as well.

* `continued` — a sequence with the values that the rule adds;
* `accepted` — the part of a draft that is kept;
* `append_accepted` — with that part, the sequence is continued.
-/

namespace Drift.Lib

variable {τ : Type*}

/-- A sequence, continued by `n` values. -/
def continued (next : List τ → τ) : Nat → List τ → List τ
  | 0, xs => xs
  | n + 1, xs => continued next n (xs ++ [next xs])

@[simp] theorem length_continued (next : List τ → τ) (n : Nat) (xs : List τ) :
    (continued next n xs).length = xs.length + n := by
  induction n generalizing xs with
  | zero => rfl
  | succ n ih =>
    rw [continued, ih, List.length_append, List.length_singleton]
    omega

theorem continued_add (next : List τ → τ) (m n : Nat) (xs : List τ) :
    continued next (m + n) xs = continued next n (continued next m xs) := by
  induction m generalizing xs with
  | zero => rw [Nat.zero_add, continued]
  | succ m ih => rw [Nat.succ_add, continued, continued, ih]

/-- The values of a draft up to the first one that the rule would not have given. -/
def accepted [DecidableEq τ] (next : List τ → τ) : List τ → List τ → List τ
  | _, [] => []
  | xs, value :: draft => if next xs = value then value :: accepted next (xs ++ [value]) draft else []

theorem accepted_isPrefix [DecidableEq τ] (next : List τ → τ) (xs draft : List τ) : accepted next xs draft <+: draft := by
  induction draft generalizing xs with
  | nil => exact List.prefix_refl []
  | cons value draft ih =>
    unfold accepted
    split
    · exact List.cons_prefix_cons.mpr ⟨rfl, ih _⟩
    · exact List.nil_prefix

/-- **What is accepted** continues the sequence. -/
theorem append_accepted [DecidableEq τ] (next : List τ → τ) (xs draft : List τ) :
    xs ++ accepted next xs draft = continued next (accepted next xs draft).length xs := by
  induction draft generalizing xs with
  | nil => exact List.append_nil xs
  | cons value draft ih =>
    unfold accepted
    split
    · next heq =>
      rw [List.length_cons, continued, heq, ← ih, List.append_assoc, List.singleton_append]
    · exact List.append_nil xs

end Drift.Lib
