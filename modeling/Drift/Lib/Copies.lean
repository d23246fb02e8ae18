import Mathlib.Data.List.Basic
import Mathlib.Data.List.Nodup

/-!
# Copies of numbered items

Numbered items arrive in several copies each, and of every item the first copy is kept, which is known by
its key.

* `keepFirst` — the first item of each key;
* `ArriveInOrder` — arrivals where no item comes before a copy of each one before it;
* `keepFirst_concat_new`, `keepFirst_concat_copy` — what one more item adds;
* `keepFirst_arriveInOrder` — what is kept of such arrivals: one copy of each item, in order.
-/

namespace Drift.Lib

variable {α κ : Type*} [DecidableEq κ]

/-- The first item of each key that has not been seen. An item without a key is kept. -/
def keepFirst (key : α → Option κ) : List κ → List α → List α
  | _, [] => []
  | seen, a :: l =>
    match key a with
    | none => a :: keepFirst key seen l
    | some k => if k ∈ seen then keepFirst key seen l else a :: keepFirst key (k :: seen) l

section KeepFirst

variable {key : α → Option κ}

/-- A copy of an item that has come before is dropped. -/
theorem keepFirst_concat_copy {a : α} {k : κ} (hk : key a = some k) :
    ∀ (l : List α) (seen : List κ), k ∈ seen ∨ k ∈ l.filterMap key →
      keepFirst key seen (l ++ [a]) = keepFirst key seen l
  | [], seen, h => by
    have hseen : k ∈ seen := h.resolve_right List.not_mem_nil
    show keepFirst key seen [a] = []
    rw [keepFirst, hk]
    exact if_pos hseen
  | b :: l, seen, h => by
    rw [List.cons_append, keepFirst, keepFirst]
    cases hb : key b with
    | none =>
      rw [List.filterMap_cons_none hb] at h
      exact congrArg (b :: ·) (keepFirst_concat_copy hk l seen h)
    | some i =>
      rw [List.filterMap_cons_some hb, List.mem_cons] at h
      simp only
      split
      · next hi =>
        refine keepFirst_concat_copy hk l seen ?_
        rcases h with hseen | rfl | hl
        · exact Or.inl hseen
        · exact Or.inl hi
        · exact Or.inr hl
      · refine congrArg (b :: ·) (keepFirst_concat_copy hk l (i :: seen) ?_)
        rcases h with hseen | rfl | hl
        · exact Or.inl (List.mem_cons_of_mem _ hseen)
        · exact Or.inl List.mem_cons_self
        · exact Or.inr hl

/-- An item that comes for the first time is kept. -/
theorem keepFirst_concat_new {a : α} :
    ∀ (l : List α) (seen : List κ), (∀ k, key a = some k → k ∉ seen ∧ k ∉ l.filterMap key) →
      keepFirst key seen (l ++ [a]) = keepFirst key seen l ++ [a]
  | [], seen, h => by
    show keepFirst key seen [a] = [a]
    rw [keepFirst]
    cases ha : key a with
    | none => rfl
    | some k => exact if_neg (h k ha).1
  | b :: l, seen, h => by
    rw [List.cons_append, keepFirst, keepFirst]
    cases hb : key b with
    | none =>
      rw [List.filterMap_cons_none hb] at h
      exact congrArg (b :: ·) (keepFirst_concat_new l seen h)
    | some i =>
      rw [List.filterMap_cons_some hb] at h
      simp only
      split
      · exact keepFirst_concat_new l seen fun k hk =>
          ⟨(h k hk).1, fun hl => (h k hk).2 (List.mem_cons_of_mem _ hl)⟩
      · refine congrArg (b :: ·) (keepFirst_concat_new l (i :: seen) fun k hk => ⟨?_, ?_⟩)
        · intro hmem
          rcases List.mem_cons.mp hmem with rfl | hseen
          · exact (h k hk).2 List.mem_cons_self
          · exact (h k hk).1 hseen
        · exact fun hl => (h k hk).2 (List.mem_cons_of_mem _ hl)

/-- The keys that are kept: all that come and were not seen. -/
theorem mem_keys_keepFirst {k : κ} :
    ∀ (l : List α) (seen : List κ),
      k ∈ (keepFirst key seen l).filterMap key ↔ k ∉ seen ∧ k ∈ l.filterMap key
  | [], seen => ⟨fun h => absurd h List.not_mem_nil, fun h => h.2⟩
  | b :: l, seen => by
    rw [keepFirst]
    cases hb : key b with
    | none =>
      rw [List.filterMap_cons_none hb]
      rw [List.filterMap_cons_none hb]
      exact mem_keys_keepFirst l seen
    | some i =>
      rw [List.filterMap_cons_some hb, List.mem_cons]
      simp only
      split
      · next hi =>
        rw [mem_keys_keepFirst l seen]
        refine and_congr_right fun hseen => ⟨Or.inr, fun h => h.resolve_left ?_⟩
        rintro rfl
        exact hseen hi
      · next hi =>
        rw [List.filterMap_cons_some hb, List.mem_cons, mem_keys_keepFirst l (i :: seen), List.mem_cons,
          not_or]
        by_cases hki : k = i
        · subst hki
          exact iff_of_true (Or.inl rfl) ⟨hi, Or.inl rfl⟩
        · simp only [hki, not_false_eq_true, true_and, false_or]

/-- An item without a key is kept. -/
theorem mem_keepFirst_of_none {a : α} (ha : key a = none) :
    ∀ (l : List α) (seen : List κ), a ∈ l → a ∈ keepFirst key seen l
  | [], _, h => h
  | b :: l, seen, h => by
    rw [keepFirst]
    cases hb : key b with
    | none =>
      rcases List.mem_cons.mp h with rfl | h
      · exact List.mem_cons_self
      · exact List.mem_cons_of_mem _ (mem_keepFirst_of_none ha l seen h)
    | some i =>
      have h : a ∈ l := by
        refine (List.mem_cons.mp h).resolve_left ?_
        rintro rfl
        rw [ha] at hb
        cases hb
      simp only
      split
      · exact mem_keepFirst_of_none ha l seen h
      · exact List.mem_cons_of_mem _ (mem_keepFirst_of_none ha l (i :: seen) h)

/-- No key is kept twice. -/
theorem nodup_keys_keepFirst :
    ∀ (l : List α) (seen : List κ), ((keepFirst key seen l).filterMap key).Nodup
  | [], _ => List.nodup_nil
  | b :: l, seen => by
    rw [keepFirst]
    cases hb : key b with
    | none =>
      simp only
      rw [List.filterMap_cons_none hb]
      exact nodup_keys_keepFirst l seen
    | some i =>
      simp only
      split
      · exact nodup_keys_keepFirst l seen
      · rw [List.filterMap_cons_some hb, List.nodup_cons]
        refine ⟨fun hmem => ?_, nodup_keys_keepFirst l (i :: seen)⟩
        exact ((mem_keys_keepFirst l (i :: seen)).mp hmem).1 List.mem_cons_self

end KeepFirst

/-- Copies of the items from number `n` on arrive, up to number `m`: the next item, or another copy of
one that has come before. -/
inductive ArriveInOrder (copy : Nat → α → Prop) : Nat → List α → Nat → Prop
  | nil (n : Nat) : ArriveInOrder copy n [] n
  | next {n m : Nat} {a : α} {l : List α} :
      copy n a → ArriveInOrder copy (n + 1) l m → ArriveInOrder copy n (a :: l) m
  | again {n m k : Nat} {a : α} {l : List α} :
      k < n → copy k a → ArriveInOrder copy n l m → ArriveInOrder copy n (a :: l) m

variable {copy : Nat → α → Prop} {n m : Nat} {l : List α}

theorem ArriveInOrder.le (h : ArriveInOrder copy n l m) : n ≤ m := by
  induction h with
  | nil n => exact Nat.le_refl n
  | next _ _ ih => exact Nat.le_trans (Nat.le_succ _) ih
  | again _ _ _ ih => exact ih

/-- Arrivals of which every copy is also a copy of another kind. -/
theorem ArriveInOrder.imp {copy' : Nat → α → Prop} (himp : ∀ k a, copy k a → copy' k a)
    (h : ArriveInOrder copy n l m) : ArriveInOrder copy' n l m := by
  induction h with
  | nil n => exact .nil n
  | next hcopy _ ih => exact .next (himp _ _ hcopy) ih
  | again hlt hcopy _ ih => exact .again hlt (himp _ _ hcopy) ih

/-- The items themselves, each once. -/
theorem arriveInOrder_self (l : List α) : ∀ (before : List α) (n : Nat), before.length = n →
    ArriveInOrder (fun k a => (before ++ l)[k]? = some a) n l (n + l.length) := by
  induction l with
  | nil => exact fun _ n _ => .nil n
  | cons a l ih =>
    rintro before n rfl
    have hhead : (before ++ a :: l)[before.length]? = some a := by
      rw [List.getElem?_append_right (Nat.le_refl _), Nat.sub_self]
      rfl
    have hrest := ih (before ++ [a]) (before.length + 1) (by rw [List.length_append]; rfl)
    rw [List.append_assoc, List.singleton_append, Nat.add_assoc, Nat.add_comm 1] at hrest
    exact .next hhead hrest

/-- **The first copies.** Where keys tell items apart, one copy of each item is kept, in order. -/
theorem keepFirst_arriveInOrder {key : α → Option κ} {ids : List κ} (hids : ids.Nodup)
    (hkey : ∀ k a, copy k a → ∃ i, key a = some i ∧ ids[k]? = some i) (h : ArriveInOrder copy n l m) :
    ∀ seen : List κ, (∀ k i, ids[k]? = some i → (i ∈ seen ↔ k < n)) →
      n + (keepFirst key seen l).length = m ∧
        ∀ k a, (keepFirst key seen l)[k]? = some a → copy (n + k) a := by
  induction h with
  | nil n => exact fun seen _ => ⟨rfl, fun k a ha => by cases ha⟩
  | @next n m a l hcopy hrest ih =>
    intro seen hseen
    obtain ⟨i, hi, hidx⟩ := hkey n a hcopy
    -- the key of the next item is new
    have hnew : i ∉ seen := fun hmem => Nat.lt_irrefl n ((hseen n i hidx).mp hmem)
    have hcons : keepFirst key seen (a :: l) = a :: keepFirst key (i :: seen) l := by
      rw [keepFirst, hi]
      exact if_neg hnew
    have hseen' : ∀ k j, ids[k]? = some j → (j ∈ i :: seen ↔ k < n + 1) := by
      intro k j hj
      rw [List.mem_cons, hseen k j hj, Nat.lt_succ_iff_lt_or_eq, or_comm]
      refine or_congr Iff.rfl ⟨fun hji => ?_, fun hkn => ?_⟩
      · subst hji
        exact (List.getElem?_inj (List.getElem?_eq_some_iff.mp hj).1 hids).mp (hj.trans hidx.symm)
      · subst hkn
        exact Option.some.inj (hj.symm.trans hidx)
    obtain ⟨hlength, hcopies⟩ := ih (i :: seen) hseen'
    rw [hcons]
    refine ⟨by rw [List.length_cons]; omega, fun k b hb => ?_⟩
    cases k with
    | zero =>
      cases hb
      exact hcopy
    | succ k =>
      rw [List.getElem?_cons_succ] at hb
      have hk := hcopies k b hb
      rwa [Nat.add_assoc, Nat.add_comm 1] at hk
  | @again n m k a l hlt hcopy hrest ih =>
    intro seen hseen
    obtain ⟨i, hi, hidx⟩ := hkey k a hcopy
    have hskip : keepFirst key seen (a :: l) = keepFirst key seen l := by
      rw [keepFirst, hi]
      exact if_pos ((hseen k i hidx).mpr hlt)
    rw [hskip]
    exact ih seen hseen

end Drift.Lib
