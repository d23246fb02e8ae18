import Mathlib.Data.String.Basic
import Drift.Lib.Dict

/-!
# The key/value side channel between blocks

A model that shares keys and values has *donor* layers, which store theirs in a dictionary under their
attention type, and *consumer* layers, which read it. Between servers the dictionary travels as a list
of attention types and a flat list of tensors, sorted by type.

* `flattenSharedKv`, `unflattenSharedKv` — to the wire and back;
* `extractProducedSharedKv` — what a task returns: the tensors of the types it was not given;
* `unflatten_extract` — paired again with their types, these are the entries the task added.
-/

namespace Drift.Server

open Drift.Lib

/-- `{layer_type: (key, value)}`. -/
abbrev SharedKv (τ : Type) := Dict String (τ × τ)

namespace SharedKv

variable {τ : Type}

/-- The key and the value under a type, where there are any. -/
def tensorsOf (d : SharedKv τ) (layerType : String) : List τ :=
  match d.lookup layerType with
  | some (key, value) => [key, value]
  | none => []

/-- The flat list `[k0, v0, k1, v1, ...]` read in pairs. -/
def pairs : List τ → List (τ × τ)
  | key :: value :: tensors => (key, value) :: pairs tensors
  | _ => []

end SharedKv

open SharedKv

/-- `flatten_shared_kv`. -/
def flattenSharedKv {τ : Type} (d : SharedKv τ) : List String × List τ :=
  let keys := Dict.sorted d.keys
  (keys, keys.flatMap (tensorsOf d))

/-- `unflatten_shared_kv`; `none` where its assertion on the number of tensors fails. -/
def unflattenSharedKv {τ : Type} (keys : List String) (tensors : List τ) : Option (SharedKv τ) :=
  if tensors.length = 2 * keys.length then
    some (Dict.ofPairs (keys.zip (pairs tensors)))
  else
    none

/-- `_extract_produced_shared_kv`: the tensors under the types that were not seeded. -/
def extractProducedSharedKv {τ : Type} (d : SharedKv τ) (seeded : List String) : List τ :=
  (Dict.sorted (d.keys.filter (· ∉ seeded))).flatMap (tensorsOf d)

variable {τ : Type}

/-- The wire format only depends on what the dictionary holds. -/
theorem flattenSharedKv_congr {d d' : SharedKv τ} (h : ∀ t, d.lookup t = d'.lookup t) :
    flattenSharedKv d = flattenSharedKv d' := by
  have hkeys : Dict.sorted d.keys = Dict.sorted d'.keys := by
    apply Dict.sorted_congr d.keys_nodup d'.keys_nodup
    intro t
    rw [← AList.mem_keys, ← AList.mem_keys, ← AList.lookup_isSome, ← AList.lookup_isSome, h]
  have htensors : tensorsOf d = tensorsOf d' := by
    funext t
    simp only [tensorsOf, h]
  simp only [flattenSharedKv, hkeys, htensors]

theorem length_pairs {tensors : List τ} {n : Nat} (h : tensors.length = 2 * n) :
    (pairs tensors).length = n := by
  induction n generalizing tensors with
  | zero =>
    rw [List.length_eq_zero_iff.mp (by omega : tensors.length = 0)]
    rfl
  | succ n ih =>
    match tensors, h with
    | key :: value :: tensors, h =>
      have hrest : tensors.length = 2 * n := by
        simp only [List.length_cons] at h
        omega
      rw [pairs, List.length_cons, ih hrest]
    | [_], h => simp only [List.length_cons, List.length_nil] at h; omega
    | [], h => simp only [List.length_nil] at h; omega

theorem mem_of_mem_pairs {kv : τ × τ} : ∀ {tensors : List τ}, kv ∈ pairs tensors → kv.1 ∈ tensors
  | [], h => by cases h
  | [_], h => by cases h
  | key :: value :: tensors, h => by
    rcases List.mem_cons.mp h with rfl | h
    · exact List.mem_cons_self
    · exact List.mem_cons_of_mem _ (List.mem_cons_of_mem _ (mem_of_mem_pairs h))

/-- What a dictionary from the wire holds are the tensors it came with. -/
theorem mem_of_lookup_unflattenSharedKv {keys : List String} {tensors : List τ} {d : SharedKv τ}
    (h : unflattenSharedKv keys tensors = some d) {t : String} {kv : τ × τ}
    (hlookup : d.lookup t = some kv) : kv.1 ∈ tensors := by
  unfold unflattenSharedKv at h
  split at h
  · cases h
    exact mem_of_mem_pairs (List.of_mem_zip (Dict.mem_of_lookup_ofPairs hlookup)).2
  · cases h

/-- A dictionary from the wire has the types it came with. -/
theorem mem_unflattenSharedKv {keys : List String} {tensors : List τ} {d : SharedKv τ}
    (h : unflattenSharedKv keys tensors = some d) (t : String) : t ∈ d ↔ t ∈ keys := by
  unfold unflattenSharedKv at h
  split at h
  · next hlength =>
    cases h
    rw [Dict.mem_ofPairs, List.map_fst_zip (length_pairs hlength).ge]
  · cases h

/-- The tensors of types that are all present, two for each. -/
theorem pairs_flatMap_tensorsOf {d : SharedKv τ} {value : String → τ × τ} :
    ∀ {keys : List String}, (∀ t ∈ keys, d.lookup t = some (value t)) →
      (keys.flatMap (tensorsOf d)).length = 2 * keys.length ∧
        keys.zip (pairs (keys.flatMap (tensorsOf d))) = keys.map fun t => (t, value t)
  | [], _ => ⟨rfl, rfl⟩
  | t :: keys, h => by
    have hrest : ∀ t ∈ keys, d.lookup t = some (value t) := fun t ht =>
      h t (List.mem_cons_of_mem _ ht)
    obtain ⟨hlength, hzip⟩ := pairs_flatMap_tensorsOf hrest
    have hfirst : tensorsOf d t = [(value t).1, (value t).2] := by
      simp only [tensorsOf, h t List.mem_cons_self]
    constructor
    · rw [List.flatMap_cons, hfirst, List.length_append, hlength, List.length_cons]
      simp only [List.length_cons, List.length_nil]
      omega
    · rw [List.flatMap_cons, hfirst, List.map_cons, ← hzip]
      rfl

/-- Pairing the tensors of some types of a dictionary with those types gives back its entries. -/
theorem unflatten_tensorsOf {d : SharedKv τ} {keys : List String}
    (hkeys : ∀ t ∈ keys, t ∈ d) :
    ∃ d', unflattenSharedKv keys (keys.flatMap (tensorsOf d)) = some d' ∧
      ∀ t, d'.lookup t = if t ∈ keys then d.lookup t else none := by
  -- off the keys the value does not matter, so any tensor of the dictionary will do
  cases keys with
  | nil => exact ⟨∅, rfl, fun t => by simp⟩
  | cons t₀ keys =>
    obtain ⟨v₀, -⟩ := Option.isSome_iff_exists.mp
      (AList.lookup_isSome.mpr (hkeys t₀ List.mem_cons_self))
    let value := fun t => (d.lookup t).getD v₀
    have hvalue : ∀ t ∈ t₀ :: keys, d.lookup t = some (value t) := by
      intro t ht
      obtain ⟨v, hv⟩ := Option.isSome_iff_exists.mp (AList.lookup_isSome.mpr (hkeys t ht))
      simp only [value, hv, Option.getD_some]
    obtain ⟨hlength, hzip⟩ := pairs_flatMap_tensorsOf hvalue
    refine ⟨_, if_pos hlength, fun t => ?_⟩
    rw [hzip, Dict.lookup_ofPairs_map]
    split
    · next ht => rw [hvalue t ht]
    · rfl

/-- **What a task returns.** The tensors it extracts, paired with the sorted types it added, are the
entries it added. -/
theorem unflatten_extract {d : SharedKv τ} {seeded types : List String} (hnodup : types.Nodup)
    (htypes : ∀ t, t ∈ types ↔ t ∈ d ∧ t ∉ seeded) :
    ∃ d', unflattenSharedKv (Dict.sorted types) (extractProducedSharedKv d seeded) = some d' ∧
      ∀ t, d'.lookup t = if t ∈ seeded then none else d.lookup t := by
  have hsorted : Dict.sorted (d.keys.filter (· ∉ seeded)) = Dict.sorted types := by
    apply Dict.sorted_congr (d.keys_nodup.filter _) hnodup
    intro t
    rw [List.mem_filter, htypes, AList.mem_keys]
    simp only [decide_eq_true_eq]
  have hmem : ∀ t ∈ Dict.sorted types, t ∈ d := fun t ht =>
    ((htypes t).mp (Dict.mem_sorted.mp ht)).1
  obtain ⟨d', hd', hlookup⟩ := unflatten_tensorsOf hmem
  refine ⟨d', by rw [extractProducedSharedKv, hsorted]; exact hd', fun t => ?_⟩
  rw [hlookup]
  by_cases hseeded : t ∈ seeded
  · have hnot : t ∉ Dict.sorted types := fun ht =>
      ((htypes t).mp (Dict.mem_sorted.mp ht)).2 hseeded
    rw [if_neg hnot, if_pos hseeded]
  · rw [if_neg hseeded]
    split
    · rfl
    · next hnot =>
      -- a type that is neither seeded nor among the added ones is not in the dictionary
      have hnone : t ∉ d := fun hd => hnot (Dict.mem_sorted.mpr ((htypes t).mpr ⟨hd, hseeded⟩))
      exact (AList.lookup_eq_none.mpr hnone).symm

end Drift.Server
