import Mathlib.Logic.Basic

/-!
# Labelled machines and conditional reachability

A *machine* is a partial deterministic step function: a label fixes everything a step depends on
besides the state (which thread moves, what the environment answers), and `none` says that the label
is not enabled. All nondeterminism sits in the choice of labels, so a run is a list of labels and can
be evaluated.

`Machine.Reach M ok s₀ s` reads: `s` is reached from `s₀` by steps each of which met the condition
`ok` in the state it started from. The unconditional notion is the case `ok = fun _ _ => True`. The
condition is what a result about a defective component needs: the invariant holds along the runs
none of whose steps takes the defective branch.

* `Reach.invariant` — the induction rule: what every admissible step preserves holds throughout;
* `Reach.mono` — a stronger condition reaches fewer states;
* `run`, `Along`, `reach_of_run` — evaluated runs, for concrete executions.
-/

namespace Drift.Lib

/-- A labelled machine: `next s l` is the state after the step `l` from `s`, `none` where that step
is not enabled. -/
structure Machine (σ ι : Type*) where
  next : σ → ι → Option σ

namespace Machine

variable {σ ι : Type*} (M : Machine σ ι)

/-- The condition met by every step. -/
def always : σ → ι → Prop := fun _ _ => True

/-- The states reached from `s₀` by enabled steps each of which met `ok` where it started. -/
inductive Reach (ok : σ → ι → Prop) (s₀ : σ) : σ → Prop
  | refl : Reach ok s₀ s₀
  | tail {s s' : σ} {l : ι} :
      Reach ok s₀ s → ok s l → M.next s l = some s' → Reach ok s₀ s'

variable {M} {ok ok' : σ → ι → Prop} {s₀ s s' : σ}

/-- **The invariant rule.** A predicate that holds initially and is preserved by every admissible
step holds in every reached state. -/
theorem Reach.invariant {Inv : σ → Prop} (h_init : Inv s₀)
    (h_step : ∀ s l s', Inv s → ok s l → M.next s l = some s' → Inv s')
    (h : M.Reach ok s₀ s) : Inv s := by
  induction h with
  | refl => exact h_init
  | tail _ hok hnext ih => exact h_step _ _ _ ih hok hnext

/-- Weakening the step condition only adds reached states. -/
theorem Reach.mono (himp : ∀ s l, ok s l → ok' s l) (h : M.Reach ok s₀ s) :
    M.Reach ok' s₀ s := by
  induction h with
  | refl => exact .refl
  | tail _ hok hnext ih => exact ih.tail (himp _ _ hok) hnext

/-- Reachability composes. -/
theorem Reach.trans {s₁ : σ} (h₁ : M.Reach ok s₀ s₁) (h₂ : M.Reach ok s₁ s) :
    M.Reach ok s₀ s := by
  induction h₂ with
  | refl => exact h₁
  | tail _ hok hnext ih => exact ih.tail hok hnext

variable (M)

/-- The state after a list of labels, `none` as soon as one of them is not enabled. -/
def run : σ → List ι → Option σ
  | s, [] => some s
  | s, l :: ls => (M.next s l).bind fun s' => run s' ls

/-- Every step of the evaluated run meets `ok` in the state it starts from. -/
def Along (ok : σ → ι → Prop) : σ → List ι → Prop
  | _, [] => True
  | s, l :: ls => ok s l ∧ ∀ s', M.next s l = some s' → Along ok s' ls

/-- The condition of an evaluated run is decidable where the condition of a step is. -/
instance decidableAlong (ok : σ → ι → Prop) [∀ s l, Decidable (ok s l)] :
    ∀ (s : σ) (ls : List ι), Decidable (M.Along ok s ls)
  | _, [] => isTrue trivial
  | s, l :: ls =>
    match h : M.next s l with
    | none => decidable_of_iff (ok s l)
        ⟨fun hok => ⟨hok, fun s' hs' => absurd (h.symm.trans hs') (by simp)⟩, And.left⟩
    | some t =>
      have := decidableAlong ok t ls
      decidable_of_iff (ok s l ∧ M.Along ok t ls)
        ⟨fun hok => ⟨hok.1, fun s' hs' => Option.some.inj (h.symm.trans hs') ▸ hok.2⟩,
          fun hok => ⟨hok.1, hok.2 t h⟩⟩

variable {M}

/-- An evaluated run whose steps meet the condition is a path of `Reach`. -/
theorem reach_of_run {ls : List ι} (hrun : M.run s ls = some s') (hok : M.Along ok s ls) :
    M.Reach ok s s' := by
  induction ls generalizing s with
  | nil =>
    obtain rfl : s = s' := Option.some.inj hrun
    exact .refl
  | cons l ls ih =>
    obtain ⟨t, hnext, hrest⟩ := Option.bind_eq_some_iff.mp hrun
    exact (Reach.refl.tail hok.1 hnext).trans (ih hrest (hok.2 t hnext))

/-- The state that an evaluated run ends in, for a run that is enabled throughout. -/
theorem reach_getD {ls : List ι} {d : σ} (hrun : (M.run s ls).isSome = true) (hok : M.Along ok s ls) :
    M.Reach ok s ((M.run s ls).getD d) := by
  obtain ⟨t, ht⟩ := Option.isSome_iff_exists.mp hrun
  rw [ht]
  exact reach_of_run ht hok

/-- The vacuous condition is met along every run. -/
theorem along_always : ∀ (s : σ) (ls : List ι), M.Along always s ls
  | _, [] => trivial
  | _, _ :: ls => ⟨trivial, fun s' _ => along_always s' ls⟩

/-- Every evaluated run is a path of the unconditional reachability. -/
theorem reach_always_of_run {ls : List ι} (hrun : M.run s ls = some s') :
    M.Reach always s s' :=
  reach_of_run hrun (along_always s ls)

end Machine

end Drift.Lib
