import Mathlib.Data.List.DropRight

/-!
# Taking texts apart

The methods of Python's strings that take a text apart, on lists of any type: `strip`, `partition` and
`rpartition`. Splitting at a separator is `List.splitOn`.

* `strip_append` — what stands around a core is stripped;
* `partition_append`, `rpartition_append` — a separator is found where the text before it, or after it, has none;
* `mem_splitOn` — the elements of a text are its separators and those of its parts.
-/

namespace Drift.Lib

variable {α : Type*}

/-- Without what satisfies `p` at both ends. -/
def strip (p : α → Bool) (text : List α) : List α := (text.dropWhile p).rdropWhile p

/-- A text that starts and ends with something else than `p` names. -/
structure Trimmed (p : α → Bool) (text : List α) : Prop where
  head : ∀ c ∈ text.head?, p c = false
  last : ∀ c ∈ text.getLast?, p c = false

variable {p : α → Bool} {text left right : List α}

theorem dropWhile_append_trimmed (hleft : ∀ c ∈ left, p c = true) (htext : ∀ c ∈ text.head?, p c = false)
    (hne : text ≠ []) : (left ++ text).dropWhile p = text := by
  induction left with
  | nil =>
    cases text with
    | nil => exact absurd rfl hne
    | cons c rest => exact List.dropWhile_cons_of_neg (by rw [htext c rfl]; exact Bool.false_ne_true)
  | cons c left ih =>
    rw [List.cons_append, List.dropWhile_cons_of_pos (hleft c List.mem_cons_self)]
    exact ih fun c' hc' => hleft c' (List.mem_cons_of_mem _ hc')

/-- **Stripping.** What stands around a core is removed, and the core is kept. -/
theorem strip_append (hleft : ∀ c ∈ left, p c = true) (hright : ∀ c ∈ right, p c = true)
    (htext : Trimmed p text) (hne : text ≠ []) : strip p (left ++ text ++ right) = text := by
  have hhead : ∀ c ∈ (text ++ right).head?, p c = false := by
    rw [List.head?_append_of_ne_nil _ hne]
    exact htext.head
  have hreverse : (right.reverse ++ text.reverse).dropWhile p = text.reverse := by
    refine dropWhile_append_trimmed (fun c hc => hright c (List.mem_reverse.mp hc)) ?_ (by simpa using hne)
    rw [List.head?_reverse]
    exact htext.last
  unfold strip
  rw [List.append_assoc, dropWhile_append_trimmed hleft hhead (by simp [hne]), List.rdropWhile,
    List.reverse_append, hreverse, List.reverse_reverse]

theorem strip_eq_self (htext : Trimmed p text) (hne : text ≠ []) : strip p text = text := by
  have hnil : ∀ c ∈ ([] : List α), p c = true := fun c hc => nomatch hc
  have h := strip_append hnil hnil htext hne
  rwa [List.nil_append, List.append_nil] at h

section Separator

variable [DecidableEq α] {c : α} {before after : List α}

/-- The text before and after the first `c`. -/
def partition (c : α) : List α → Option (List α × List α)
  | [] => none
  | x :: text => if x = c then some ([], text) else (partition c text).map fun s => (x :: s.1, s.2)

/-- The text before and after the last `c`. -/
def rpartition (c : α) (text : List α) : Option (List α × List α) :=
  (partition c text.reverse).map fun s => (s.2.reverse, s.1.reverse)

theorem partition_append (h : c ∉ before) : partition c (before ++ c :: after) = some (before, after) := by
  induction before with
  | nil =>
    rw [List.nil_append, partition, if_pos rfl]
  | cons x before ih =>
    have hne : x ≠ c := fun heq => h (heq ▸ List.mem_cons_self)
    rw [List.cons_append, partition, if_neg hne, ih fun hmem => h (List.mem_cons_of_mem _ hmem), Option.map_some]

theorem rpartition_append (h : c ∉ after) : rpartition c (before ++ c :: after) = some (before, after) := by
  unfold rpartition
  rw [List.reverse_append, List.reverse_cons, List.append_assoc, List.singleton_append,
    partition_append (fun hmem => h (List.mem_reverse.mp hmem)), Option.map_some, List.reverse_reverse,
    List.reverse_reverse]

/-- An element of a text is the separator, or stands in a part. -/
theorem mem_splitOn {x : α} (h : x ∈ text) : x = c ∨ ∃ part ∈ text.splitOn c, x ∈ part := by
  induction text with
  | nil => cases h
  | cons y text ih =>
    rw [List.splitOn_cons_eq_if_modifyHead]
    by_cases hy : y = c
    · subst hy
      rw [if_pos (beq_self_eq_true y)]
      rcases List.mem_cons.mp h with rfl | hmem
      · exact Or.inl rfl
      · exact (ih hmem).imp_right fun ⟨part, hpart, hx⟩ => ⟨part, List.mem_cons_of_mem _ hpart, hx⟩
    · rw [if_neg (by simpa using hy)]
      obtain ⟨first, rest, hsplit⟩ := List.exists_cons_of_ne_nil (List.splitOn_ne_nil c text)
      rw [hsplit] at ih ⊢
      rw [List.modifyHead_cons]
      rcases List.mem_cons.mp h with rfl | hmem
      · exact Or.inr ⟨_, List.mem_cons_self, List.mem_cons_self⟩
      · refine (ih hmem).imp_right fun ⟨part, hpart, hx⟩ => ?_
        rcases List.mem_cons.mp hpart with rfl | hpart
        · exact ⟨_, List.mem_cons_self, List.mem_cons_of_mem _ hx⟩
        · exact ⟨part, List.mem_cons_of_mem _ hpart, hx⟩

end Separator

end Drift.Lib
