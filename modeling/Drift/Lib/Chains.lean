import Drift.Lib.Dict

/-!
# Chains in a dictionary

A dictionary from keys to keys of the same kind, followed from key to key. Two loops do this: one asks
whether the chain comes back to a key that it has seen, the other whether it passes a given key. Both
remember the keys they have seen, so they end.

* `comesBack`, `passes` — the loops;
* `comesBack_iff` — no chain comes back exactly if the dictionary has no cycle;
* `passes_iff` — without a cycle, a chain passes the keys of the transitive closure.
-/

namespace Drift.Lib

namespace Dict

variable {κ : Type*} [DecidableEq κ]

/-- The keys that the loops have not seen yet get fewer. -/
theorem unseen_lt (d : Dict κ κ) {seen : List κ} {x y : κ} (hx : d.lookup x = some y)
    (hseen : x ∉ seen) :
    (d.keys.filter (· ∉ x :: seen)).length < (d.keys.filter (· ∉ seen)).length := by
  have hmem : x ∈ d.keys.filter (· ∉ seen) := by
    rw [List.mem_filter]
    refine ⟨?_, by simpa using hseen⟩
    exact AList.mem_keys.mp (AList.lookup_isSome.mp (Option.isSome_of_mem hx))
  have hsplit : d.keys.filter (· ∉ x :: seen) = (d.keys.filter (· ∉ seen)).filter (· ≠ x) := by
    rw [List.filter_filter]
    apply List.filter_congr
    intro k _
    simp [not_or]
  rw [hsplit]
  exact List.length_filter_lt_length_iff_exists.mpr ⟨x, hmem, by simp⟩

/-- Whether the chain from `x` comes back to a key that has been seen. -/
def comesBack (d : Dict κ κ) (seen : List κ) (x : κ) : Bool :=
  match _hx : d.lookup x with
  | none => false
  | some y => if _hseen : x ∈ seen then true else comesBack d (x :: seen) y
termination_by (d.keys.filter (· ∉ seen)).length
decreasing_by exact unseen_lt d _hx _hseen

/-- Whether the chain from `x` passes the target before it ends or comes back. -/
def passes (d : Dict κ κ) (target : κ) (seen : List κ) (x : κ) : Bool :=
  match _hx : d.lookup x with
  | none => false
  | some y =>
    if _hseen : x ∈ seen then false
    else if y = target then true
    else passes d target (x :: seen) y
termination_by (d.keys.filter (· ∉ seen)).length
decreasing_by exact unseen_lt d _hx _hseen

/-- One link of a chain. -/
def Leads (d : Dict κ κ) (x y : κ) : Prop := d.lookup x = some y

/-- No key leads back to itself. -/
def Acyclic (d : Dict κ κ) : Prop := ∀ x, ¬ Relation.TransGen d.Leads x x

/-- A link is determined by where it starts. -/
theorem Leads.eq {d : Dict κ κ} {x y z : κ} (hy : d.Leads x y) (hz : d.Leads x z) : y = z :=
  Option.some.inj (hy.symm.trans hz)

/-- What a key leads to is what the next one is or leads to. -/
theorem Leads.transGen_iff {d : Dict κ κ} {x y z : κ} (hy : d.Leads x y) :
    Relation.TransGen d.Leads x z ↔ y = z ∨ Relation.TransGen d.Leads y z := by
  rw [Relation.TransGen.head'_iff]
  constructor
  · rintro ⟨c, hc, hrest⟩
    rw [← hy.eq hc] at hrest
    exact (Relation.reflTransGen_iff_eq_or_transGen.mp hrest).imp_left Eq.symm
  · intro h
    exact ⟨y, hy, Relation.reflTransGen_iff_eq_or_transGen.mpr (h.imp_left Eq.symm)⟩

theorem not_transGen_of_lookup_eq_none {d : Dict κ κ} {x z : κ} (hx : d.lookup x = none) :
    ¬ Relation.TransGen d.Leads x z := by
  intro h
  obtain ⟨c, hc, -⟩ := Relation.TransGen.head'_iff.mp h
  exact Option.some_ne_none c (hc.symm.trans hx)

/-- A chain that starts on a cycle comes back. -/
theorem comesBack_of_cycle (d : Dict κ κ) (seen : List κ) (x : κ)
    (hx : Relation.TransGen d.Leads x x) : d.comesBack seen x = true := by
  fun_induction comesBack d seen x with
  | case1 seen x hnone => exact absurd hx (not_transGen_of_lookup_eq_none hnone)
  | case2 => rfl
  | case3 seen x y hy hseen ih =>
    apply ih
    -- the next key is on the cycle as well
    have hlink : d.Leads x y := hy
    rcases hlink.transGen_iff.mp hx with rfl | hback
    · exact hx
    · exact hback.tail hlink

/-- The keys seen lead to the present one. -/
def SeenOn (d : Dict κ κ) (seen : List κ) (x : κ) : Prop :=
  ∀ k ∈ seen, Relation.TransGen d.Leads k x

theorem SeenOn.cons {d : Dict κ κ} {seen : List κ} {x y : κ} (h : d.SeenOn seen x)
    (hy : d.Leads x y) : d.SeenOn (x :: seen) y := by
  intro k hk
  rcases List.mem_cons.mp hk with rfl | hk
  · exact .single hy
  · exact (h k hk).tail hy

theorem not_comesBack (d : Dict κ κ) (hacyclic : d.Acyclic) (seen : List κ) (x : κ)
    (hseen : d.SeenOn seen x) : d.comesBack seen x = false := by
  fun_induction comesBack d seen x with
  | case1 => rfl
  | case2 seen x y hy hmem => exact absurd (hseen x hmem) (hacyclic x)
  | case3 seen x y hy hmem ih => exact ih (hseen.cons hy)

/-- **No chain from a key comes back exactly if there is no cycle.** -/
theorem comesBack_iff (d : Dict κ κ) :
    (∀ x ∈ d.keys, d.comesBack [] x = false) ↔ d.Acyclic := by
  constructor
  · intro h x hx
    obtain ⟨y, hy, -⟩ := Relation.TransGen.head'_iff.mp hx
    have hmem : x ∈ d.keys := AList.mem_keys.mp (AList.lookup_isSome.mp (Option.isSome_of_mem hy))
    exact Bool.false_ne_true ((h x hmem).symm.trans (d.comesBack_of_cycle [] x hx))
  · intro hacyclic x _
    exact d.not_comesBack hacyclic [] x fun _ hk => absurd hk List.not_mem_nil

theorem passes_iff_of_seenOn (d : Dict κ κ) (hacyclic : d.Acyclic) (target : κ) (seen : List κ) (x : κ)
    (hseen : d.SeenOn seen x) :
    d.passes target seen x = true ↔ Relation.TransGen d.Leads x target := by
  fun_induction passes d target seen x with
  | case1 seen x hnone => exact iff_of_false Bool.false_ne_true (not_transGen_of_lookup_eq_none hnone)
  | case2 seen x y hy hmem => exact absurd (hseen x hmem) (hacyclic x)
  | case3 seen x hmem hy =>
    have hlink : d.Leads x target := hy
    exact iff_of_true rfl (.single hlink)
  | case4 seen x y hy hmem hne ih =>
    have hlink : d.Leads x y := hy
    rw [ih (hseen.cons hy), hlink.transGen_iff]
    exact (or_iff_right hne).symm

/-- **Without a cycle, a chain passes what its start leads to.** -/
theorem passes_iff (d : Dict κ κ) (hacyclic : d.Acyclic) (target x : κ) :
    d.passes target [] x = true ↔ Relation.TransGen d.Leads x target :=
  d.passes_iff_of_seenOn hacyclic target [] x fun _ hk => absurd hk List.not_mem_nil

end Dict

end Drift.Lib
