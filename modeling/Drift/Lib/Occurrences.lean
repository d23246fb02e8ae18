import Mathlib.Data.Finset.Max
import Mathlib.Data.List.Basic

/-!
# Cutting a list where others occur

Several lists are searched for in a text one after the other, and the text is cut where each is found. A later
search sees a text that the earlier ones have shortened, so an occurrence may be lost that the whole text has.

* `find`, `find_eq_some_iff` — the first position at which a list occurs;
* `find_take` — the same in a prefix: the position is that of the whole text, or there is none;
* `not_occursAt_cutAll`, `cutAll_eq_self` — what is left contains nothing that was searched for;
* `Intact`, `cutAll_eq_take` — an occurrence that no other one cuts into makes the cut fall at its position;
* `cutAll_cons_ne_take` — one that cuts into the shortest occurrence at a position takes the cut elsewhere.
-/

namespace Drift.Lib

variable {α : Type*}

/-- The list `sub` stands in the text at position `i`. -/
def OccursAt (sub text : List α) (i : Nat) : Prop := sub <+: text.drop i

variable {sub text : List α} {subs : List (List α)} {i j k p : Nat}

theorem OccursAt.le_length (h : OccursAt sub text i) (hsub : sub ≠ []) :
    i + sub.length ≤ text.length := by
  have hle : sub.length ≤ (text.drop i).length := h.length_le
  have hpos : 0 < sub.length := List.length_pos_iff.mpr hsub
  rw [List.length_drop] at hle
  omega

/-- In a prefix stand the occurrences that end before it does. -/
theorem occursAt_take (hsub : sub ≠ []) :
    OccursAt sub (text.take k) i ↔ OccursAt sub text i ∧ i + sub.length ≤ k := by
  have hpos : 0 < sub.length := List.length_pos_iff.mpr hsub
  unfold OccursAt
  rw [List.drop_take, List.prefix_take_iff]
  refine and_congr_right fun _ => ?_
  omega

section Find

variable [DecidableEq α]

instance (sub text : List α) (i : Nat) : Decidable (OccursAt sub text i) :=
  inferInstanceAs (Decidable (sub <+: text.drop i))

/-- The first position at which `sub` stands in the text. -/
def find (text sub : List α) : Option Nat :=
  (List.range (text.length + 1)).find? fun i => decide (OccursAt sub text i)

theorem find_eq_some_iff :
    find text sub = some i ↔ OccursAt sub text i ∧ ∀ j < i, ¬OccursAt sub text j := by
  unfold find
  rw [List.find?_range_eq_some]
  simp only [decide_eq_true_eq, List.mem_range, Bool.not_eq_true', decide_eq_false_iff_not]
  constructor
  · rintro ⟨hocc, -, hfirst⟩
    exact ⟨hocc, hfirst⟩
  · rintro ⟨hocc, hfirst⟩
    refine ⟨hocc, ?_, hfirst⟩
    -- past the end stands the empty list only, which stands at the start already
    by_contra hlt
    have hsub : sub ≠ [] := by
      rintro rfl
      exact hfirst 0 (by omega) List.nil_prefix
    have := hocc.le_length hsub
    omega

theorem find_eq_none_iff : find text sub = none ↔ ∀ i, ¬OccursAt sub text i := by
  constructor
  · intro hnone i hocc
    have hex : ∃ i, OccursAt sub text i := ⟨i, hocc⟩
    have hsome : find text sub = some (Nat.find hex) :=
      find_eq_some_iff.mpr ⟨Nat.find_spec hex, fun j hj => Nat.find_min hex hj⟩
    rw [hnone] at hsome
    cases hsome
  · intro h
    cases hfind : find text sub with
    | none => rfl
    | some i => exact absurd (find_eq_some_iff.mp hfind).1 (h i)

/-- **Searching a prefix.** The first occurrence in a prefix is the first in the text. -/
theorem find_take (text : List α) (k : Nat) (hsub : sub ≠ []) :
    find (text.take k) sub = (find text sub).filter fun i => decide (i + sub.length ≤ k) := by
  cases hfind : find text sub with
  | none =>
    rw [Option.filter_none, find_eq_none_iff]
    intro i hocc
    exact find_eq_none_iff.mp hfind i ((occursAt_take hsub).mp hocc).1
  | some i =>
    obtain ⟨hocc, hfirst⟩ := find_eq_some_iff.mp hfind
    by_cases hle : i + sub.length ≤ k
    · rw [Option.filter_some, if_pos (decide_eq_true hle), find_eq_some_iff]
      refine ⟨(occursAt_take hsub).mpr ⟨hocc, hle⟩, fun j hj hocc' => ?_⟩
      exact hfirst j hj ((occursAt_take hsub).mp hocc').1
    · rw [Option.filter_some, if_neg (by simpa using hle), find_eq_none_iff]
      intro j hocc'
      obtain ⟨hocc', hle'⟩ := (occursAt_take hsub).mp hocc'
      -- an occurrence that ends in time is not before the first one
      have hji : ¬j < i := fun hlt => hfirst j hlt hocc'
      omega

/-- The text before the first occurrence of `sub`. -/
def cut (text sub : List α) : List α :=
  match find text sub with
  | some i => text.take i
  | none => text

/-- The text cut at each of several lists in turn. -/
def cutAll (text : List α) (subs : List (List α)) : List α :=
  subs.foldl cut text

theorem cut_of_find (h : find text sub = some i) : cut text sub = text.take i := by
  unfold cut
  rw [h]

theorem cut_of_not_find (h : find text sub = none) : cut text sub = text := by
  unfold cut
  rw [h]

/-- A cut of a prefix is the prefix, or ends at the first occurrence in the text. -/
theorem cut_take (text : List α) (k : Nat) (hsub : sub ≠ []) :
    cut (text.take k) sub = text.take k ∧ (∀ i, find text sub = some i → k < i + sub.length) ∨
      ∃ i, find text sub = some i ∧ i + sub.length ≤ k ∧ cut (text.take k) sub = text.take i := by
  have htake := find_take text k hsub
  cases hfind : find text sub with
  | none =>
    rw [hfind, Option.filter_none] at htake
    exact Or.inl ⟨cut_of_not_find htake, fun i hi => nomatch hi⟩
  | some i =>
    rw [hfind] at htake
    by_cases hle : i + sub.length ≤ k
    · rw [Option.filter_some, if_pos (decide_eq_true hle)] at htake
      refine Or.inr ⟨i, rfl, hle, ?_⟩
      rw [cut_of_find htake, List.take_take, Nat.min_eq_left (by omega)]
    · rw [Option.filter_some, if_neg (by simpa using hle)] at htake
      refine Or.inl ⟨cut_of_not_find htake, fun i' hi' => ?_⟩
      obtain rfl := Option.some.inj hi'
      omega

/-- What the cuts leave is a prefix. -/
theorem exists_cutAll_eq_take (text : List α) (subs : List (List α)) :
    ∃ k, cutAll text subs = text.take k := by
  induction subs generalizing text with
  | nil => exact ⟨text.length, List.take_length.symm⟩
  | cons s rest ih =>
    obtain ⟨k, hk⟩ := ih (cut text s)
    rw [cutAll, List.foldl_cons]
    rw [cutAll] at hk
    cases hfind : find text s with
    | none =>
      rw [cut_of_not_find hfind] at hk ⊢
      exact ⟨k, hk⟩
    | some i =>
      rw [cut_of_find hfind] at hk ⊢
      exact ⟨min k i, by rw [hk, List.take_take]⟩

theorem not_occursAt_cut (hsub : sub ≠ []) : ¬OccursAt sub (cut text sub) i := by
  intro hocc
  cases hfind : find text sub with
  | none =>
    rw [cut_of_not_find hfind] at hocc
    exact find_eq_none_iff.mp hfind i hocc
  | some q =>
    rw [cut_of_find hfind] at hocc
    obtain ⟨hocc, hle⟩ := (occursAt_take hsub).mp hocc
    have hpos : 0 < sub.length := List.length_pos_iff.mpr hsub
    exact (find_eq_some_iff.mp hfind).2 i (by omega) hocc

/-- **Nothing is left.** None of the lists stands in what the cuts leave. -/
theorem not_occursAt_cutAll (hsubs : ∀ s ∈ subs, s ≠ []) (hsub : sub ∈ subs) :
    ¬OccursAt sub (cutAll text subs) i := by
  induction subs generalizing text with
  | nil => cases hsub
  | cons s rest ih =>
    intro hocc
    have hrest := fun t ht => hsubs t (List.mem_cons_of_mem _ ht)
    rcases List.mem_cons.mp hsub with rfl | hmem
    · obtain ⟨k, hk⟩ := exists_cutAll_eq_take (cut text sub) rest
      have hocc' : OccursAt sub (cutAll (cut text sub) rest) i := hocc
      rw [hk, occursAt_take (hsubs sub List.mem_cons_self)] at hocc'
      exact not_occursAt_cut (hsubs sub List.mem_cons_self) hocc'.1
    · exact ih hrest hmem hocc

/-- Where none of the lists stands, nothing is cut. -/
theorem cutAll_eq_self (h : ∀ s ∈ subs, ∀ i, ¬OccursAt s text i) : cutAll text subs = text := by
  induction subs with
  | nil => rfl
  | cons s rest ih =>
    have hnone : find text s = none := find_eq_none_iff.mpr (h s List.mem_cons_self)
    rw [cutAll, List.foldl_cons, cut_of_not_find hnone]
    exact ih fun t ht => h t (List.mem_cons_of_mem _ ht)

/-- No list is first found at a position strictly inside the occurrence of `s` at `p`. -/
def Intact (text : List α) (subs : List (List α)) (s : List α) (p : Nat) : Prop :=
  ∀ t ∈ subs, ∀ q ∈ find text t, q ≤ p ∨ p + s.length ≤ q

/-- A cut at the earliest position is final. -/
theorem cutAll_take_self (hsubs : ∀ s ∈ subs, s ≠ [])
    (hfirst : ∀ s ∈ subs, ∀ i, OccursAt s text i → p ≤ i) :
    cutAll (text.take p) subs = text.take p := by
  refine cutAll_eq_self fun s hs i hocc => ?_
  have hpos : 0 < s.length := List.length_pos_iff.mpr (hsubs s hs)
  obtain ⟨hocc, hle⟩ := (occursAt_take (hsubs s hs)).mp hocc
  have := hfirst s hs i hocc
  omega

/-- The loop lemma: a prefix that still has the occurrence is cut at its position in the end. -/
theorem cutAll_take_eq_take {s : List α} (hsubs : ∀ s ∈ subs, s ≠ [])
    (hfirst : ∀ s ∈ subs, ∀ i, OccursAt s text i → p ≤ i) (hs : s ∈ subs) (hocc : OccursAt s text p)
    (hintact : Intact text subs s p) (hk : p + s.length ≤ k) :
    cutAll (text.take k) subs = text.take p := by
  have hfind : find text s = some p :=
    find_eq_some_iff.mpr ⟨hocc, fun j hj h => absurd (hfirst s hs j h) (by omega)⟩
  have hpos : 0 < s.length := List.length_pos_iff.mpr (hsubs s hs)
  induction subs generalizing k with
  | nil => cases hs
  | cons t rest ih =>
    have hrest := fun u hu => hsubs u (List.mem_cons_of_mem _ hu)
    have hfirst' := fun u hu => hfirst u (List.mem_cons_of_mem t hu)
    have hintact' : Intact text rest s p := fun u hu => hintact u (List.mem_cons_of_mem _ hu)
    rw [cutAll, List.foldl_cons]
    rcases cut_take text k (hsubs t List.mem_cons_self) with ⟨hkept, hlate⟩ | ⟨i, hi, hle, hcut⟩
    · -- `t` does not end in time, so it is not `s`
      rw [hkept]
      rcases List.mem_cons.mp hs with rfl | hmem
      · have := hlate p hfind
        omega
      · exact ih hrest hfirst' hmem hintact' hk
    · rw [hcut]
      rcases hintact t List.mem_cons_self i hi with hip | hpi
      · -- the cut is at the earliest position
        have := hfirst t List.mem_cons_self i (find_eq_some_iff.mp hi).1
        obtain rfl : i = p := by omega
        exact cutAll_take_self hrest hfirst'
      · rcases List.mem_cons.mp hs with rfl | hmem
        · have := Option.some.inj (hfind.symm.trans hi)
          omega
        · exact ih hrest hfirst' hmem hintact' hpi

/-- **The cuts fall at the earliest position** where some occurrence there is intact. -/
theorem cutAll_eq_take {s : List α} (hsubs : ∀ s ∈ subs, s ≠ [])
    (hfirst : ∀ s ∈ subs, ∀ i, OccursAt s text i → p ≤ i) (hs : s ∈ subs) (hocc : OccursAt s text p)
    (hintact : Intact text subs s p) : cutAll text subs = text.take p := by
  have hle := hocc.le_length (hsubs s hs)
  calc cutAll text subs = cutAll (text.take text.length) subs := by rw [List.take_length]
    _ = text.take p := cutAll_take_eq_take hsubs hfirst hs hocc hintact hle

/-- A prefix that ends inside every occurrence at `p` is not cut there any more. -/
theorem exists_cutAll_eq_take_gt (hsubs : ∀ s ∈ subs, s ≠ [])
    (hfirst : ∀ s ∈ subs, ∀ i, OccursAt s text i → p ≤ i) (hpk : p < k)
    (hk : ∀ s ∈ subs, OccursAt s text p → k < p + s.length) :
    ∃ k', p < k' ∧ k' ≤ k ∧ cutAll (text.take k) subs = text.take k' := by
  induction subs generalizing k with
  | nil => exact ⟨k, hpk, le_rfl, rfl⟩
  | cons t rest ih =>
    have hrest := fun u hu => hsubs u (List.mem_cons_of_mem _ hu)
    have hfirst' := fun u hu => hfirst u (List.mem_cons_of_mem t hu)
    have hk' := fun u hu => hk u (List.mem_cons_of_mem t hu)
    rw [cutAll, List.foldl_cons]
    rcases cut_take text k (hsubs t List.mem_cons_self) with ⟨hkept, -⟩ | ⟨i, hi, hle, hcut⟩
    · rw [hkept]
      exact ih hrest hfirst' hpk hk'
    · rw [hcut]
      have hocc := (find_eq_some_iff.mp hi).1
      have hpi := hfirst t List.mem_cons_self i hocc
      have hne : i ≠ p := by
        rintro rfl
        have := hk t List.mem_cons_self hocc
        omega
      obtain ⟨k', hpk', hle', heq⟩ := ih hrest hfirst' (k := i) (by omega) fun u hu h => by
        have := hk' u hu h
        omega
      exact ⟨k', hpk', by omega, heq⟩

/-- **A cut inside the shortest occurrence.** Where a list is first found inside every occurrence at `p`, and is
searched for first, the cuts do not fall at `p`. -/
theorem cutAll_cons_ne_take {t : List α} {q : Nat} (hsubs : ∀ s ∈ subs, s ≠ []) (ht : t ≠ [])
    (hfirst : ∀ s ∈ subs, ∀ i, OccursAt s text i → p ≤ i) (hq : find text t = some q) (hpq : p < q)
    (hinside : ∀ s ∈ subs, OccursAt s text p → q < p + s.length) :
    cutAll text (t :: subs) ≠ text.take p := by
  obtain ⟨k, hpk, hkq, heq⟩ := exists_cutAll_eq_take_gt hsubs hfirst hpq hinside
  have hend := (find_eq_some_iff.mp hq).1.le_length ht
  have hpos : 0 < t.length := List.length_pos_iff.mpr ht
  intro hcut
  have hcut' : cutAll (cut text t) subs = text.take p := hcut
  rw [cut_of_find hq, heq] at hcut'
  have hlength := congrArg List.length hcut'
  rw [List.length_take, List.length_take] at hlength
  omega

end Find

end Drift.Lib
