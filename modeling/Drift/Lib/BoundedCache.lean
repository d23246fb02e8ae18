import Mathlib.Data.List.Nodup
import Mathlib.Order.Lattice

/-!
# A bounded cache that drops its oldest entry

Entries under distinct keys, each with a time. A new entry takes the place of the one under its key; where the
cache is full, an entry with the least time is dropped for it.

* `put` — the new entry;
* `nodup_put`, `length_put_le` — the keys stay distinct and the bound is kept;
* `put_held` — an entry is still there, or is displaced: the cache is full of other entries that are not older;
* `put_displaced` — it stays displaced.
-/

namespace Drift.Lib

variable {κ α τ : Type*} [DecidableEq κ] [LinearOrder τ]

/-- `entries.pop(key, None)`. -/
def pop (key : κ) (entries : List (κ × α)) : List (κ × α) := entries.filter fun e => decide (e.1 ≠ key)

/-- The first of the entries with the least time. -/
def oldest (time : α → τ) : List (κ × α) → Option (κ × α)
  | [] => none
  | e :: rest =>
    match oldest time rest with
    | none => some e
    | some m => if time m.2 < time e.2 then some m else some e

/-- Room for one more entry. -/
def evict (time : α → τ) (capacity : Nat) (entries : List (κ × α)) : List (κ × α) :=
  if capacity ≤ entries.length then
    match oldest time entries with
    | none => entries
    | some e => pop e.1 entries
  else entries

/-- The cache with a new entry. -/
def put (time : α → τ) (capacity : Nat) (key : κ) (value : α) (entries : List (κ × α)) : List (κ × α) :=
  evict time capacity (pop key entries) ++ [(key, value)]

/-- The cache is full, and no entry is under the key or from before the time. -/
structure Displaced (time : α → τ) (capacity : Nat) (key : κ) (t : τ) (entries : List (κ × α)) : Prop where
  absent : key ∉ entries.map Prod.fst
  full : entries.length = capacity
  newer : ∀ e ∈ entries, t ≤ time e.2

variable {time : α → τ} {capacity : Nat} {key other : κ} {value new : α} {entries : List (κ × α)} {t : τ}

omit [LinearOrder τ] in
theorem mem_pop {e : κ × α} : e ∈ pop key entries ↔ e ∈ entries ∧ e.1 ≠ key := by
  unfold pop
  rw [List.mem_filter, decide_eq_true_eq]

omit [LinearOrder τ] in
theorem nodup_pop (h : (entries.map Prod.fst).Nodup) : ((pop key entries).map Prod.fst).Nodup :=
  h.sublist (List.filter_sublist.map Prod.fst)

omit [LinearOrder τ] in
theorem pop_eq_self (h : key ∉ entries.map Prod.fst) : pop key entries = entries :=
  List.filter_eq_self.mpr fun _ he => decide_eq_true fun heq => h (heq ▸ List.mem_map_of_mem he)

omit [LinearOrder τ] in
/-- A key is in one entry at most. -/
theorem length_pop (hnodup : (entries.map Prod.fst).Nodup) (h : key ∈ entries.map Prod.fst) :
    (pop key entries).length + 1 = entries.length := by
  induction entries with
  | nil => cases h
  | cons e rest ih =>
    rw [List.map_cons, List.nodup_cons] at hnodup
    unfold pop at ih ⊢
    rw [List.filter_cons]
    by_cases heq : e.1 = key
    · have hrest : pop key rest = rest := pop_eq_self (heq ▸ hnodup.1)
      unfold pop at hrest
      rw [if_neg (by simpa using heq), hrest, List.length_cons]
    · have hmem : key ∈ rest.map Prod.fst := (List.mem_cons.mp h).resolve_left fun h => heq h.symm
      rw [if_pos (by simpa using heq), List.length_cons, List.length_cons, ih hnodup.2 hmem]

omit [DecidableEq κ] in
theorem oldest_eq_none (h : oldest time entries = none) : entries = [] := by
  cases entries with
  | nil => rfl
  | cons e rest =>
    unfold oldest at h
    split at h
    · cases h
    · split at h <;> cases h

omit [DecidableEq κ] in
/-- **The oldest entry** is one of the entries, and none is older. -/
theorem oldest_spec {m : κ × α} (h : oldest time entries = some m) :
    m ∈ entries ∧ ∀ e ∈ entries, time m.2 ≤ time e.2 := by
  induction entries generalizing m with
  | nil => cases h
  | cons e rest ih =>
    unfold oldest at h
    split at h
    · rename_i hnone
      obtain rfl := Option.some.inj h
      rw [oldest_eq_none hnone]
      exact ⟨List.mem_cons_self, fun e' he' => (List.mem_singleton.mp he') ▸ le_rfl⟩
    · rename_i m' hsome
      obtain ⟨hmem, hle⟩ := ih hsome
      split at h
      · rename_i hlt
        obtain rfl := Option.some.inj h
        exact ⟨List.mem_cons_of_mem _ hmem, List.forall_mem_cons.mpr ⟨hlt.le, hle⟩⟩
      · rename_i hnot
        obtain rfl := Option.some.inj h
        exact ⟨List.mem_cons_self,
          List.forall_mem_cons.mpr ⟨le_rfl, fun e' he' => (not_lt.mp hnot).trans (hle e' he')⟩⟩

/-- What making room does: nothing, or it drops an entry that is not newer than another. -/
theorem evict_cases (time : α → τ) (hcapacity : 0 < capacity) (entries : List (κ × α)) :
    entries.length < capacity ∧ evict time capacity entries = entries ∨
      capacity ≤ entries.length ∧ ∃ m ∈ entries, (∀ e ∈ entries, time m.2 ≤ time e.2) ∧
        evict time capacity entries = pop m.1 entries := by
  unfold evict
  split
  · rename_i hfull
    right
    refine ⟨hfull, ?_⟩
    cases hold : oldest time entries with
    | none =>
      rw [oldest_eq_none hold, List.length_nil] at hfull
      omega
    | some m =>
      obtain ⟨hmem, hle⟩ := oldest_spec hold
      exact ⟨m, hmem, hle, rfl⟩
  · rename_i hroom
    exact Or.inl ⟨not_le.mp hroom, rfl⟩

/-- Making room keeps no entry that was not there. -/
theorem mem_of_mem_evict {e : κ × α} (h : e ∈ evict time capacity entries) : e ∈ entries := by
  unfold evict at h
  split at h
  · split at h
    · exact h
    · exact (mem_pop.mp h).1
  · exact h

theorem mem_of_mem_put {e : κ × α} (h : e ∈ put time capacity key value entries) :
    e = (key, value) ∨ e ∈ entries ∧ e.1 ≠ key := by
  rcases List.mem_append.mp h with hmem | hmem
  · exact Or.inr (mem_pop.mp (mem_of_mem_evict hmem))
  · exact Or.inl (List.mem_singleton.mp hmem)

theorem nodup_evict (h : (entries.map Prod.fst).Nodup) : ((evict time capacity entries).map Prod.fst).Nodup := by
  unfold evict
  split
  · split
    · exact h
    · exact nodup_pop h
  · exact h

theorem nodup_put (h : (entries.map Prod.fst).Nodup) :
    ((put time capacity key value entries).map Prod.fst).Nodup := by
  unfold put
  rw [List.map_append, List.nodup_append]
  refine ⟨nodup_evict (nodup_pop h), List.nodup_singleton _, fun k hk k' hk' heq => ?_⟩
  obtain ⟨e, he, rfl⟩ := List.mem_map.mp hk
  rw [List.map_singleton, List.mem_singleton] at hk'
  exact (mem_pop.mp (mem_of_mem_evict he)).2 (heq.trans hk')

/-- The length after making room. -/
theorem length_evict_lt (hnodup : (entries.map Prod.fst).Nodup) (hcapacity : 0 < capacity)
    (hle : entries.length ≤ capacity) : (evict time capacity entries).length < capacity := by
  rcases evict_cases time hcapacity entries with ⟨hlt, heq⟩ | ⟨-, m, hm, -, heq⟩
  · rwa [heq]
  · have := length_pop hnodup (List.mem_map_of_mem hm)
    rw [heq]
    omega

theorem length_pop_le : (pop key entries).length ≤ entries.length := List.length_filter_le _ _

theorem length_put_le (hnodup : (entries.map Prod.fst).Nodup) (hcapacity : 0 < capacity)
    (hle : entries.length ≤ capacity) : (put time capacity key value entries).length ≤ capacity := by
  have hpop : ((pop key entries).map Prod.fst).Nodup := nodup_pop hnodup
  have hevict : (evict time capacity (pop key entries)).length < capacity :=
    length_evict_lt hpop hcapacity (length_pop_le.trans hle)
  unfold put
  rw [List.length_append, List.length_singleton]
  omega

omit [DecidableEq κ] in
theorem Displaced.perm {entries' : List (κ × α)} (h : Displaced time capacity key t entries)
    (hperm : entries'.Perm entries) : Displaced time capacity key t entries' where
  absent hmem := h.absent ((hperm.map Prod.fst).mem_iff.mp hmem)
  full := hperm.length_eq.trans h.full
  newer e he := h.newer e (hperm.mem_iff.mp he)

/-- A new entry is there. -/
theorem mem_put_self : (key, value) ∈ put time capacity key value entries :=
  List.mem_append_right _ (List.mem_singleton_self _)

/-- Where an entry that is not older is put into a full cache of entries that are not older, the cache is full of
such entries. -/
theorem put_newer (hnodup : (entries.map Prod.fst).Nodup) (hcapacity : 0 < capacity) (hle : entries.length ≤ capacity)
    (hfull : capacity ≤ (pop key entries).length + 1) (hnewer : ∀ e ∈ put time capacity key value entries, t ≤ time e.2)
    (habsent : other ∉ (put time capacity key value entries).map Prod.fst) :
    Displaced time capacity other t (put time capacity key value entries) := by
  refine ⟨habsent, ?_, hnewer⟩
  have hpop : ((pop key entries).map Prod.fst).Nodup := nodup_pop hnodup
  unfold put
  rw [List.length_append, List.length_singleton]
  rcases evict_cases time hcapacity (pop key entries) with ⟨hlt, heq⟩ | ⟨hge, m, hm, -, heq⟩
  · rw [heq]
    omega
  · have hlength := length_pop hpop (List.mem_map_of_mem hm)
    have hle : (pop key entries).length ≤ entries.length := length_pop_le
    rw [heq]
    omega

/-- **An entry is held or displaced** when another one is put that is not older. -/
theorem put_held (hnodup : (entries.map Prod.fst).Nodup) (hcapacity : 0 < capacity) (hle : entries.length ≤ capacity)
    (hmem : (other, value) ∈ entries) (hne : other ≠ key) (hnew : time value ≤ time new) :
    (other, value) ∈ put time capacity key new entries ∨
      Displaced time capacity other (time value) (put time capacity key new entries) := by
  have hpop : (other, value) ∈ pop key entries := mem_pop.mpr ⟨hmem, hne⟩
  rcases evict_cases time hcapacity (pop key entries) with ⟨-, heq⟩ | ⟨hge, m, hm, hmin, heq⟩
  · left
    unfold put
    rw [heq]
    exact List.mem_append_left _ hpop
  · by_cases hother : other = m.1
    · -- the entry is the oldest, so no other is older
      right
      have hvalue : time m.2 = time value := by
        have heqm : m = (other, value) :=
          List.inj_on_of_nodup_map (nodup_pop hnodup) hm hpop hother.symm
        rw [heqm]
      refine put_newer hnodup hcapacity hle (by omega) (fun e he => ?_) fun habsent => ?_
      · rcases List.mem_append.mp he with he | he
        · rw [← hvalue]
          exact hmin e (mem_of_mem_evict he)
        · rw [List.mem_singleton.mp he]
          exact hnew
      · obtain ⟨e, he, hkey⟩ := List.mem_map.mp habsent
        unfold put at he
        rw [heq] at he
        rcases List.mem_append.mp he with he | he
        · exact (mem_pop.mp he).2 (hkey.trans hother)
        · rw [List.mem_singleton.mp he] at hkey
          exact hne hkey.symm
    · left
      unfold put
      rw [heq]
      exact List.mem_append_left _ (mem_pop.mpr ⟨hpop, hother⟩)

/-- **A displaced entry stays displaced** when another one is put that is not older. -/
theorem put_displaced (h : Displaced time capacity other t entries) (hnodup : (entries.map Prod.fst).Nodup)
    (hcapacity : 0 < capacity) (hne : other ≠ key) (hnew : t ≤ time new) :
    Displaced time capacity other t (put time capacity key new entries) := by
  refine put_newer hnodup hcapacity h.full.le ?_ (fun e he => ?_) fun habsent => ?_
  · by_cases hkey : key ∈ entries.map Prod.fst
    · have := length_pop hnodup hkey
      have := h.full
      omega
    · rw [pop_eq_self hkey, h.full]
      omega
  · rcases mem_of_mem_put he with rfl | ⟨hmem, -⟩
    · exact hnew
    · exact h.newer e hmem
  · obtain ⟨e, he, rfl⟩ := List.mem_map.mp habsent
    rcases mem_of_mem_put he with rfl | ⟨hmem, -⟩
    · exact hne rfl
    · exact h.absent (List.mem_map_of_mem hmem)

end Drift.Lib
