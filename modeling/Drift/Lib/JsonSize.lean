import Drift.Lib.JsonText
import Mathlib.Algebra.BigOperators.Group.List.Basic
import Mathlib.Algebra.Order.BigOperators.Group.List
import Mathlib.Data.Nat.Digits.Defs

/-!
# The size of a rendering

A bound on the bytes of a rendered document, which is computed from the document without rendering it: a character
of a string is escaped by six at most, and takes four bytes at most.

* `Json.weight` — the bound on the characters;
* `length_text_le`, `utf8ByteSize_dumps_le` — the rendering keeps to it.
-/

namespace Drift.Lib

namespace Json

mutual

/-- A bound on the length of the rendering. -/
def weight : Json → Nat
  | .null => 4
  | .bool _ => 5
  | .int n => n.natAbs + 2
  | .float literal _ => literal.length
  | .str s => 6 * s.length + 2
  | .arr items => weightItems items + 2
  | .obj fields => weightFields fields + 2
  | .foreign typeName => typeName.length

def weightItems : List Json → Nat
  | [] => 0
  | x :: xs => weight x + 1 + weightItems xs

def weightFields : List (String × Json) → Nat
  | [] => 0
  | (k, x) :: xs => 6 * k.length + weight x + 4 + weightFields xs

end

theorem weight_obj (fields : List (String × Json)) : weight (.obj fields) = weightFields fields + 2 := by
  rw [weight]

theorem weightItems_eq (items : List Json) : weightItems items = (items.map fun x => weight x + 1).sum := by
  induction items with
  | nil => rfl
  | cons x xs ih =>
    unfold weightItems
    rw [ih, List.map_cons, List.sum_cons]

theorem weightFields_eq (fields : List (String × Json)) :
    weightFields fields = (fields.map fun f => 6 * f.1.length + weight f.2 + 4).sum := by
  induction fields with
  | nil => rfl
  | cons f xs ih =>
    unfold weightFields
    rw [ih, List.map_cons, List.sum_cons]

theorem length_intercalate_le {α : Type} (parts : List (List α)) (c : α) :
    ([c].intercalate parts).length ≤ (parts.map fun part => part.length + 1).sum := by
  induction parts with
  | nil => exact Nat.zero_le _
  | cons part rest ih =>
    cases rest with
    | nil => simp
    | cons next rest =>
      rw [List.intercalate_cons_cons, List.length_append, List.length_append, List.map_cons, List.sum_cons,
        List.length_singleton]
      omega

theorem length_escapeChar_le (c : Char) : (escapeChar c).toList.length ≤ 6 := by
  unfold escapeChar
  split_ifs <;> simp

theorem length_quoted_le (s : String) : (quoted s).length ≤ 6 * s.length + 2 := by
  have hescaped : ∀ cs : List Char, (cs.flatMap fun c => (escapeChar c).toList).length ≤ 6 * cs.length := by
    intro cs
    induction cs with
    | nil => exact Nat.zero_le _
    | cons c cs ih =>
      have := length_escapeChar_le c
      rw [List.flatMap_cons, List.length_append, List.length_cons]
      omega
  have := hescaped s.toList
  unfold quoted
  rw [List.length_cons, List.length_append, List.length_singleton]
  rw [String.length_toList] at this
  omega

theorem length_toDigits_le (m : Nat) : (Nat.toDigits 10 m).length ≤ m + 1 :=
  Nat.toDigits_length 10 m (m + 1) (Nat.succ_pos m)
    ((Nat.lt_pow_self (by decide)).trans (Nat.pow_lt_pow_right (by decide) (Nat.lt_succ_self m)))

/-- **The length of a rendering.** -/
theorem length_text_le (j : Json) : (text j).length ≤ j.weight := by
  induction j using Json.induct with
  | null => exact le_rfl
  | bool b => cases b <;> decide
  | int n =>
    obtain ⟨m, ⟨rfl, htext⟩ | ⟨rfl, htext⟩⟩ := text_int n
    · have := length_toDigits_le m
      rw [htext]
      simp [weight]
      omega
    · have := length_toDigits_le m
      rw [htext]
      simp [weight]
      omega
  | float literal value => exact (String.length_toList (s := literal)).le
  | foreign typeName => exact (String.length_toList (s := typeName)).le
  | str s =>
    have hquoted : text (.str s) = quoted s := toList_dumpsStr s
    rw [hquoted]
    exact length_quoted_le s
  | arr items ih =>
    have hparts : ((items.map text).map fun part => part.length + 1).sum ≤ weightItems items := by
      rw [weightItems_eq, List.map_map]
      exact List.sum_le_sum fun x hx => Nat.succ_le_succ (ih x hx)
    have := length_intercalate_le (items.map text) ','
    rw [text_arr, List.length_cons, List.length_append, List.length_singleton, weight]
    omega
  | obj fields ih =>
    have hfield : ∀ f ∈ fields, (fieldText f).length + 1 ≤ 6 * f.1.length + weight f.2 + 4 := by
      intro f hf
      have := length_quoted_le f.1
      have := ih f hf
      unfold fieldText
      rw [List.length_append, List.length_cons]
      omega
    have hparts : (((sortedFields fields).map fieldText).map fun part => part.length + 1).sum ≤ weightFields fields := by
      have hperm : (sortedFields fields).Perm fields := List.perm_insertionSort _ _
      rw [weightFields_eq, List.map_map, (hperm.map _).sum_eq]
      exact List.sum_le_sum fun f hf => hfield f hf
    have := length_intercalate_le ((sortedFields fields).map fieldText) ','
    rw [text_obj, List.length_cons, List.length_append, List.length_singleton, weight]
    omega

theorem utf8ByteSize_ofList_le (cs : List Char) : (String.ofList cs).utf8ByteSize ≤ 4 * cs.length := by
  induction cs with
  | nil => exact Nat.zero_le _
  | cons c cs ih =>
    have hsplit : String.ofList (c :: cs) = String.singleton c ++ String.ofList cs := by
      rw [← List.singleton_append, String.ofList_append]
      rfl
    have := c.utf8Size_le_four
    rw [hsplit, String.utf8ByteSize_append, String.utf8ByteSize_singleton, List.length_cons]
    omega

/-- The bytes of a rendering. -/
theorem utf8ByteSize_dumps_le (j : Json) : (dumps j).utf8ByteSize ≤ 4 * j.weight := by
  have hsize := utf8ByteSize_ofList_le (text j)
  have hlength := length_text_le j
  have htext : String.ofList (text j) = dumps j := String.ofList_toList
  rw [htext] at hsize
  omega

end Json

end Drift.Lib
