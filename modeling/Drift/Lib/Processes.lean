import Mathlib

/-!
# Processes in a list

Several processes as a list of their control states, of which a step replaces one. What is counted
over the processes then changes by what that one counts.

* `countP_set_add`, `sum_map_set_add` — counts and sums after a step;
* `forall_mem_set` — what holds of every process after a step;
* `sum_countP_eq` — processes that each work on one of several keys, counted by key.
-/

namespace Drift.Lib

variable {α κ : Type*}

/-- A step of process `i` from `a` to `b` moves a count by what the two count. -/
theorem countP_set_add {l : List α} {i : Nat} {a b : α} (p : α → Bool) (h : l[i]? = some a) :
    (l.set i b).countP p + (if p a then 1 else 0) = l.countP p + (if p b then 1 else 0) := by
  obtain ⟨hi, rfl⟩ := List.getElem?_eq_some_iff.mp h
  rw [List.countP_set hi]
  by_cases hp : p l[i] = true
  · have hpos : 0 < l.countP p := List.countP_pos_iff.mpr ⟨l[i], List.getElem_mem hi, hp⟩
    simp only [hp, if_true]
    omega
  · simp only [hp, if_false, Bool.false_eq_true]
    omega

/-- A count is at least what one of the processes counts. -/
theorem le_countP {l : List α} {i : Nat} {a : α} (p : α → Bool) (h : l[i]? = some a) :
    (if p a then 1 else 0) ≤ l.countP p := by
  split
  · next hp => exact List.countP_pos_iff.mpr ⟨a, List.mem_of_getElem? h, hp⟩
  · exact Nat.zero_le _

/-- Two processes count for two. -/
theorem two_le_countP {l : List α} {i j : Nat} {a b : α} {p : α → Bool} (hij : i ≠ j)
    (ha : l[i]? = some a) (hb : l[j]? = some b) (hpa : p a = true) (hpb : p b = true) :
    2 ≤ l.countP p := by
  induction l generalizing i j with
  | nil => cases ha
  | cons x l ih =>
    rw [List.countP_cons]
    cases i with
    | zero =>
      cases j with
      | zero => exact absurd rfl hij
      | succ j =>
        cases ha
        have hrest : 0 < l.countP p :=
          List.countP_pos_iff.mpr ⟨b, List.mem_of_getElem? (List.getElem?_cons_succ ▸ hb), hpb⟩
        rw [if_pos hpa]
        omega
    | succ i =>
      cases j with
      | zero =>
        cases hb
        have hrest : 0 < l.countP p :=
          List.countP_pos_iff.mpr ⟨a, List.mem_of_getElem? (List.getElem?_cons_succ ▸ ha), hpa⟩
        rw [if_pos hpb]
        omega
      | succ j =>
        have hrest := ih (fun h => hij (congrArg Nat.succ h)) (List.getElem?_cons_succ ▸ ha)
          (List.getElem?_cons_succ ▸ hb)
        omega

/-- The same for a sum over the processes. -/
theorem sum_map_set_add {l : List α} {i : Nat} {a b : α} (f : α → Nat) (h : l[i]? = some a) :
    ((l.set i b).map f).sum + f a = (l.map f).sum + f b := by
  induction l generalizing i with
  | nil => cases h
  | cons x l ih =>
    cases i with
    | zero =>
      cases h
      simp only [List.set_cons_zero, List.map_cons, List.sum_cons]
      omega
    | succ i =>
      have hrest := ih h
      simp only [List.set_cons_succ, List.map_cons, List.sum_cons]
      omega

/-- After a step of process `i` a process is the one that has moved, or another. -/
theorem mem_set_cases {l : List α} {i : Nat} {a b : α} (h : a ∈ l.set i b) :
    a = b ∨ ∃ j, j ≠ i ∧ l[j]? = some a := by
  obtain ⟨j, hj⟩ := List.mem_iff_getElem?.mp h
  rw [List.getElem?_set] at hj
  split at hj
  · split at hj
    · exact Or.inl (Option.some.inj hj).symm
    · cases hj
  · next hne => exact Or.inr ⟨j, Ne.symm hne, hj⟩

/-- A process that was there is the one that moves, or is still there. -/
theorem eq_or_mem_set {l : List α} {i : Nat} {a b c : α} (hb : l[i]? = some b) (ha : a ∈ l) :
    a = b ∨ a ∈ l.set i c := by
  obtain ⟨j, hj⟩ := List.mem_iff_getElem?.mp ha
  by_cases hij : i = j
  · subst hij
    exact Or.inl (Option.some.inj (hj.symm.trans hb))
  · right
    rw [List.mem_iff_getElem?]
    exact ⟨j, (List.getElem?_set_ne hij).trans hj⟩

/-- The process that has moved is there. -/
theorem mem_set_self {l : List α} {i : Nat} {a b : α} (ha : l[i]? = some a) : b ∈ l.set i b :=
  List.mem_set (List.getElem?_eq_some_iff.mp ha).1 b

/-- What holds of the process that has moved, and of all that were there, holds of all. -/
theorem forall_mem_set {l : List α} {i : Nat} {b : α} {P : α → Prop} (hb : P b)
    (h : ∀ a ∈ l, P a) : ∀ a ∈ l.set i b, P a := by
  intro a ha
  rcases List.mem_or_eq_of_mem_set ha with hmem | rfl
  · exact h a hmem
  · exact hb

/-- A count is a sum of zeros and ones. -/
theorem sum_map_ite (p : α → Bool) :
    ∀ l : List α, (l.map fun a => if p a then 1 else 0).sum = l.countP p
  | [] => rfl
  | a :: l => by
    rw [List.map_cons, List.sum_cons, sum_map_ite p l, List.countP_cons, Nat.add_comm]

/-- The same for the occurrences of one key. -/
theorem sum_indicator [DecidableEq κ] (k : κ) :
    ∀ keys : List κ, (keys.map fun k' => if k = k' then 1 else 0).sum = keys.count k
  | [] => rfl
  | k' :: keys => by
    rw [List.map_cons, List.sum_cons, sum_indicator k keys, List.count_cons]
    by_cases hk : k = k'
    · simp [hk, Nat.add_comm]
    · simp [hk, Ne.symm hk]

/-- Processes that work on one key each, counted key by key. -/
theorem sum_countP_eq [DecidableEq κ] {keys : List κ} (hkeys : keys.Nodup) (key : α → Option κ)
    {l : List α} (h : ∀ a ∈ l, ∀ k, key a = some k → k ∈ keys) :
    (keys.map fun k => l.countP fun a => key a = some k).sum = l.countP fun a => (key a).isSome := by
  induction l with
  | nil => simp
  | cons a l ih =>
    have hrest := ih fun b hb => h b (List.mem_cons_of_mem _ hb)
    have hsplit : (keys.map fun k => (a :: l).countP fun b => key b = some k).sum =
        (keys.map fun k => l.countP fun b => key b = some k).sum +
          (keys.map fun k => if key a = some k then 1 else 0).sum := by
      rw [← List.sum_map_add]
      refine congrArg List.sum (List.map_congr_left fun k _ => ?_)
      rw [List.countP_cons]
      simp only [decide_eq_true_eq]
    rw [hsplit, hrest, List.countP_cons]
    congr 1
    cases hkey : key a with
    | none => simp
    | some k =>
      -- the one key of `a` occurs once among the keys
      have hcount : keys.count k = 1 :=
        List.count_eq_one_of_mem hkeys (h a List.mem_cons_self k hkey)
      simp only [Option.some.injEq, Option.isSome_some, if_true]
      rw [sum_indicator, hcount]

end Drift.Lib
