import Mathlib

/-!
# Dictionaries

A Python dictionary as an association list with distinct keys, which Mathlib has as `AList`. What is
added here is what the dictionaries of this development do besides `get`, `set` and `pop`:

* `keep` — the comprehension `{k: v for k, v in d.items() if p(v)}`;
* `ofPairs` — the comprehension `{k: v for k, v in pairs}`;
* `update` — `d.update(e)`;
* `items` — `d.items()`, from which `ofPairs` gets the dictionary back;
* `sum` — a sum over the values;
* `sorted` — `sorted(keys)`, which a set of keys determines.
-/

namespace Drift.Lib

/-- A dictionary from `κ` to `ν`. -/
abbrev Dict (κ ν : Type*) := AList (fun _ : κ => ν)

namespace Dict

variable {κ ν : Type*} [DecidableEq κ]

/-- `{k: v for k, v in d.items() if p(v)}`. -/
def keep (p : ν → Bool) (d : Dict κ ν) : Dict κ ν where
  entries := d.entries.filter fun e => p e.2
  nodupKeys := d.nodupKeys.sublist List.filter_sublist

/-- Filtering the values of a list of entries with distinct keys filters each lookup. -/
private theorem dlookup_filter (p : ν → Bool) (k : κ) :
    ∀ {l : List (Sigma fun _ : κ => ν)}, l.NodupKeys →
      (l.filter fun e => p e.2).dlookup k = (l.dlookup k).filter p
  | [], _ => rfl
  | ⟨k', v⟩ :: l, hl => by
    have ih := dlookup_filter p k (List.nodupKeys_cons.mp hl).2
    by_cases hk : k = k'
    · subst hk
      have hnot : l.dlookup k = none :=
        List.dlookup_eq_none.mpr (List.nodupKeys_cons.mp hl).1
      rw [List.dlookup_cons_eq, List.filter_cons]
      by_cases hp : p v = true
      · simp only [hp, if_true, List.dlookup_cons_eq, Option.filter_some]
      · simp only [hp, Bool.false_eq_true, if_false, ih, hnot, Option.filter_none,
          Option.filter_some]
    · rw [List.dlookup_cons_ne _ _ hk, List.filter_cons]
      by_cases hp : p v = true
      · simp only [hp, if_true]
        rw [List.dlookup_cons_ne _ _ hk, ih]
      · simp only [hp, Bool.false_eq_true, if_false, ih]

@[simp] theorem lookup_keep (p : ν → Bool) (d : Dict κ ν) (k : κ) :
    (d.keep p).lookup k = (d.lookup k).filter p :=
  dlookup_filter p k d.nodupKeys

theorem lookup_keep_eq_some {p : ν → Bool} {d : Dict κ ν} {k : κ} {v : ν} :
    (d.keep p).lookup k = some v ↔ d.lookup k = some v ∧ p v = true := by
  rw [lookup_keep, Option.filter_eq_some_iff]

omit [DecidableEq κ] in
theorem length_keep_le (p : ν → Bool) (d : Dict κ ν) :
    (d.keep p).entries.length ≤ d.entries.length :=
  List.length_filter_le _ _

theorem length_insert_le (k : κ) (v : ν) (d : Dict κ ν) :
    (d.insert k v).entries.length ≤ d.entries.length + 1 := by
  rw [AList.entries_insert, List.length_cons]
  exact Nat.succ_le_succ (List.kerase_sublist k d.entries).length_le

/-- An entry can be taken out of a dictionary. -/
theorem perm_erase {k : κ} {v : ν} {d : Dict κ ν} (h : d.lookup k = some v) :
    d.entries.Perm (⟨k, v⟩ :: (d.erase k).entries) := by
  have hmem : k ∈ d.entries.keys :=
    AList.mem_keys.mp (AList.lookup_isSome.mp (Option.isSome_of_mem h))
  obtain ⟨v', l₁, l₂, hnot, heq, hkerase⟩ := List.exists_of_kerase hmem
  have hv : v' = v := by
    have hlook : d.entries.dlookup k = some v := h
    rw [heq, List.dlookup_append, List.dlookup_eq_none.mpr hnot] at hlook
    simpa using hlook
  subst hv
  change d.entries.Perm (⟨k, v'⟩ :: d.entries.kerase k)
  rw [hkerase, heq]
  exact List.perm_middle

/-- Setting a key that is there adds no key. -/
theorem length_insert_of_lookup {k : κ} {v w : ν} {d : Dict κ ν} (h : d.lookup k = some v) :
    (d.insert k w).entries.length = d.entries.length := by
  rw [(perm_erase h).length_eq]
  rfl

/-- Erasing a key that is not there changes nothing. -/
theorem erase_of_lookup_eq_none {k : κ} {d : Dict κ ν} (h : d.lookup k = none) :
    (d.erase k).entries = d.entries :=
  List.kerase_of_notMem_keys (AList.lookup_eq_none.mp h)

/-- What a key was set to does not matter once it is erased. -/
@[simp] theorem erase_insert (k : κ) (v : ν) (d : Dict κ ν) : (d.insert k v).erase k = d.erase k := by
  apply AList.ext
  show (⟨k, v⟩ :: d.entries.kerase k : List (Sigma fun _ : κ => ν)).kerase k = d.entries.kerase k
  exact List.kerase_cons_eq rfl

@[simp] theorem erase_erase (k : κ) (d : Dict κ ν) : (d.erase k).erase k = d.erase k :=
  AList.ext (erase_of_lookup_eq_none (AList.lookup_erase k d))

/-- What the values of a dictionary add up to. -/
def sum (f : ν → Nat) (d : Dict κ ν) : Nat := (d.entries.map fun e => f e.2).sum

/-- A key that is there contributes its value. -/
theorem sum_of_lookup (f : ν → Nat) {k : κ} {v : ν} {d : Dict κ ν} (h : d.lookup k = some v) :
    sum f d = f v + sum f (d.erase k) := by
  show (d.entries.map fun e => f e.2).sum = _
  rw [((perm_erase h).map fun e => f e.2).sum_eq]
  rfl

theorem sum_erase_of_none (f : ν → Nat) {k : κ} {d : Dict κ ν} (h : d.lookup k = none) :
    sum f (d.erase k) = sum f d := by
  show ((d.erase k).entries.map fun e => f e.2).sum = (d.entries.map fun e => f e.2).sum
  rw [erase_of_lookup_eq_none h]

/-- What a key contributes, and the rest. -/
theorem sum_eq_add_erase (f : ν → Nat) (k : κ) (d : Dict κ ν) :
    sum f d = (d.lookup k).elim 0 f + sum f (d.erase k) := by
  cases h : d.lookup k with
  | some v => exact sum_of_lookup f h
  | none => rw [sum_erase_of_none f h, Option.elim_none, Nat.zero_add]

/-- Setting a key takes its old value out and puts the new one in. -/
theorem sum_insert (f : ν → Nat) (k : κ) (v : ν) (d : Dict κ ν) :
    sum f (d.insert k v) = f v + sum f (d.erase k) := by
  rw [sum_of_lookup f (AList.lookup_insert d), erase_insert]

omit [DecidableEq κ] in
@[simp] theorem lookup_empty [DecidableEq κ] (k : κ) : (∅ : Dict κ ν).lookup k = none := rfl

/-- Setting a key changes the lookup of that key alone. -/
theorem lookup_insert_eq (k k' : κ) (v : ν) (d : Dict κ ν) :
    (d.insert k v).lookup k' = if k' = k then some v else d.lookup k' := by
  split
  · next h => rw [h, AList.lookup_insert]
  · next h => exact AList.lookup_insert_ne h

/-- `{k: v for k, v in pairs}`: the last pair with a key gives its value. -/
def ofPairs (pairs : List (κ × ν)) : Dict κ ν :=
  pairs.foldl (fun d e => d.insert e.1 e.2) ∅

/-- `d.update(e)`, as the dictionary after it. -/
def update (d e : Dict κ ν) : Dict κ ν := e ∪ d

@[simp] theorem lookup_update (d e : Dict κ ν) (k : κ) :
    (d.update e).lookup k = (e.lookup k).or (d.lookup k) := by
  apply Option.ext
  intro v
  show v ∈ AList.lookup k (e ∪ d) ↔ (e.lookup k).or (d.lookup k) = some v
  rw [AList.mem_lookup_union, Option.or_eq_some_iff, ← AList.lookup_eq_none]
  rfl

/-- Filling in the pairs of distinct keys, each key gets the value it is paired with. -/
private theorem lookup_foldl_insert (value : κ → ν) (k : κ) :
    ∀ (keys : List κ) (d : Dict κ ν),
      ((keys.map fun k => (k, value k)).foldl (fun d e => d.insert e.1 e.2) d).lookup k =
        if k ∈ keys then some (value k) else d.lookup k
  | [], d => by simp
  | k' :: keys, d => by
    rw [List.map_cons, List.foldl_cons, lookup_foldl_insert value k keys, lookup_insert_eq]
    by_cases hmem : k ∈ keys
    · simp [hmem]
    · by_cases heq : k = k'
      · simp [heq]
      · simp [hmem, heq]

/-- A dictionary written down from a function on its keys reads as that function. -/
theorem lookup_ofPairs_map (value : κ → ν) (keys : List κ) (k : κ) :
    (ofPairs (keys.map fun k => (k, value k))).lookup k =
      if k ∈ keys then some (value k) else none :=
  lookup_foldl_insert value k keys ∅

private theorem mem_foldl_insert (k : κ) :
    ∀ (pairs : List (κ × ν)) (d : Dict κ ν),
      k ∈ pairs.foldl (fun d e => d.insert e.1 e.2) d ↔ k ∈ pairs.map Prod.fst ∨ k ∈ d
  | [], d => by simp
  | e :: pairs, d => by
    rw [List.foldl_cons, mem_foldl_insert k pairs, AList.mem_insert, List.map_cons, List.mem_cons]
    tauto

@[simp] theorem mem_ofPairs {pairs : List (κ × ν)} {k : κ} :
    k ∈ ofPairs pairs ↔ k ∈ pairs.map Prod.fst :=
  (mem_foldl_insert k pairs ∅).trans (or_iff_left (AList.notMem_empty k))

private theorem lookup_foldl_insert_mem {k : κ} {v : ν} :
    ∀ (pairs : List (κ × ν)) (d : Dict κ ν),
      (pairs.foldl (fun d e => d.insert e.1 e.2) d).lookup k = some v →
        (k, v) ∈ pairs ∨ d.lookup k = some v
  | [], d, h => Or.inr h
  | e :: pairs, d, h => by
    rcases lookup_foldl_insert_mem pairs _ h with hmem | hlookup
    · exact Or.inl (List.mem_cons_of_mem _ hmem)
    · rw [lookup_insert_eq] at hlookup
      split at hlookup
      · next heq =>
        cases hlookup
        exact Or.inl (by rw [heq]; exact List.mem_cons_self)
      · exact Or.inr hlookup

/-- The entries come from the pairs. -/
theorem mem_of_lookup_ofPairs {pairs : List (κ × ν)} {k : κ} {v : ν}
    (h : (ofPairs pairs).lookup k = some v) : (k, v) ∈ pairs :=
  (lookup_foldl_insert_mem pairs ∅ h).resolve_right (fun h => by cases h)

/-- Pairs with distinct keys are all entries. -/
theorem lookup_ofPairs_of_mem {pairs : List (κ × ν)} {k : κ} {v : ν} (hkeys : (pairs.map Prod.fst).Nodup)
    (h : (k, v) ∈ pairs) : (ofPairs pairs).lookup k = some v := by
  have hk : k ∈ ofPairs pairs := mem_ofPairs.mpr (List.mem_map_of_mem h)
  obtain ⟨w, hw⟩ := Option.isSome_iff_exists.mp (AList.lookup_isSome.mpr hk)
  have hpair : (k, w) = (k, v) := List.inj_on_of_nodup_map hkeys (mem_of_lookup_ofPairs hw) h rfl
  rw [hw, (Prod.mk.inj hpair).2]

/-- Pairs that agree on each key are all entries. -/
theorem lookup_ofPairs_iff {pairs : List (κ × ν)} (h : ∀ k v v', (k, v) ∈ pairs → (k, v') ∈ pairs → v = v')
    {k : κ} {v : ν} : (ofPairs pairs).lookup k = some v ↔ (k, v) ∈ pairs := by
  refine ⟨mem_of_lookup_ofPairs, fun hmem => ?_⟩
  have hk : k ∈ ofPairs pairs := mem_ofPairs.mpr (List.mem_map_of_mem hmem)
  obtain ⟨w, hw⟩ := Option.isSome_iff_exists.mp (AList.lookup_isSome.mpr hk)
  rw [hw, h k w v (mem_of_lookup_ofPairs hw) hmem]

omit [DecidableEq κ] in
/-- `d.items()`. -/
def items (d : Dict κ ν) : List (κ × ν) := d.entries.map fun e => (e.1, e.2)

theorem mem_items {d : Dict κ ν} {k : κ} {v : ν} : (k, v) ∈ d.items ↔ d.lookup k = some v := by
  rw [items, List.mem_map, ← Option.mem_def, AList.mem_lookup_iff]
  constructor
  · rintro ⟨⟨k', v'⟩, hmem, heq⟩
    cases heq
    exact hmem
  · intro hmem
    exact ⟨⟨k, v⟩, hmem, rfl⟩

/-- A dictionary that is filled in from the items of another, in any order, reads as it. -/
theorem lookup_ofPairs_items {pairs : List (κ × ν)} {d : Dict κ ν} (h : ∀ e, e ∈ pairs ↔ e ∈ d.items)
    (k : κ) : (ofPairs pairs).lookup k = d.lookup k := by
  cases hlookup : (ofPairs pairs).lookup k with
  | some v =>
    have hmem : (k, v) ∈ d.items := (h (k, v)).mp (mem_of_lookup_ofPairs hlookup)
    exact (mem_items.mp hmem).symm
  | none =>
    symm
    rw [AList.lookup_eq_none, mem_ofPairs] at hlookup
    cases hd : d.lookup k with
    | none => rfl
    | some v =>
      have hmem : (k, v) ∈ pairs := (h (k, v)).mpr (mem_items.mpr hd)
      exact absurd (List.mem_map_of_mem (f := Prod.fst) hmem) hlookup

section Sorted

omit [DecidableEq κ]
variable [LinearOrder κ]

/-- `sorted(keys)`. -/
def sorted (keys : List κ) : List κ := keys.insertionSort (· ≤ ·)

@[simp] theorem mem_sorted {keys : List κ} {k : κ} : k ∈ sorted keys ↔ k ∈ keys :=
  List.mem_insertionSort _

theorem nodup_sorted {keys : List κ} (h : keys.Nodup) : (sorted keys).Nodup :=
  (List.perm_insertionSort _ keys).nodup_iff.mpr h

/-- Sorting forgets the order: lists of distinct keys with the same members sort to one list. -/
theorem sorted_congr {l₁ l₂ : List κ} (h₁ : l₁.Nodup) (h₂ : l₂.Nodup)
    (hmem : ∀ k, k ∈ l₁ ↔ k ∈ l₂) : sorted l₁ = sorted l₂ := by
  have hperm : (sorted l₁).Perm (sorted l₂) :=
    (List.perm_ext_iff_of_nodup (nodup_sorted h₁) (nodup_sorted h₂)).mpr fun k => by
      rw [mem_sorted, mem_sorted, hmem]
  exact hperm.eq_of_pairwise (fun a b _ _ => le_antisymm) (List.pairwise_insertionSort _ _)
    (List.pairwise_insertionSort _ _)

end Sorted

end Dict

end Drift.Lib
