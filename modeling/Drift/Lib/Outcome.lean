import Mathlib.Data.List.Forall2
import Mathlib.Logic.Basic

/-!
# Computations that can raise

What is used of `Except` beyond its monad: when a sequence returns or raises, and when two
computations agree. `Agree R x y` reads: one raises exactly if the other does, and what they return is
related by `R`. Which exception is raised is not compared.

* `bind_eq_ok`, `raises_bind`, `mapM_eq_ok` — when a sequence returns, and when it raises;
* `Agree.bind`, `Agree.bind_same` — sequencing: agreeing computations whose continuations agree on
  related results;
* `Agree.mono` — a weaker relation;
* `Ends`, `Ends.bind` — what a computation returns, and what it does not raise.
-/

namespace Drift.Lib

universe u v

variable {ε ε' : Type*} {α α' : Type u} {β β' : Type v}

/-- The two computations raise together, and their results are related by `R`. -/
def Agree (R : α → β → Prop) : Except ε α → Except ε' β → Prop
  | .ok a, .ok b => R a b
  | .error _, .error _ => True
  | _, _ => False

namespace Agree

variable {R : α → β → Prop} {S : α' → β' → Prop}

theorem ok {a : α} {b : β} (h : R a b) : Agree R (.ok a : Except ε α) (.ok b : Except ε' β) := h

theorem error {e : ε} {e' : ε'} : Agree R (.error e : Except ε α) (.error e' : Except ε' β) :=
  trivial

/-- A computation agrees with itself, as far as the relation is reflexive on its result. -/
theorem refl {R : α → α → Prop} {x : Except ε α} (h : ∀ a, x = .ok a → R a a) : Agree R x x := by
  cases x with
  | error e => exact error
  | ok a => exact h a rfl

theorem mono {R' : α → β → Prop} {x : Except ε α} {y : Except ε' β} (h : Agree R x y)
    (himp : ∀ a b, x = .ok a → y = .ok b → R a b → R' a b) : Agree R' x y := by
  cases x with
  | error e =>
    cases y with
    | error e' => exact error
    | ok b => exact h.elim
  | ok a =>
    cases y with
    | error e' => exact h.elim
    | ok b => exact himp a b rfl rfl h

theorem symm {x : Except ε α} {y : Except ε' β} (h : Agree R x y) :
    Agree (fun b a => R a b) y x := by
  cases x with
  | error e =>
    cases y with
    | error e' => exact error
    | ok b => exact h.elim
  | ok a =>
    cases y with
    | error e' => exact h.elim
    | ok b => exact h

theorem isOk_eq {x : Except ε α} {y : Except ε' β} (h : Agree R x y) : x.isOk = y.isOk := by
  cases x with
  | error e =>
    cases y with
    | error e' => rfl
    | ok b => exact h.elim
  | ok a =>
    cases y with
    | error e' => exact h.elim
    | ok b => rfl

/-- **The rule of sequencing.** -/
theorem bind {x : Except ε α} {y : Except ε' β} {f : α → Except ε α'} {g : β → Except ε' β'}
    (h : Agree R x y) (hcont : ∀ a b, x = .ok a → y = .ok b → R a b → Agree S (f a) (g b)) :
    Agree S (x >>= f) (y >>= g) := by
  cases x with
  | error e =>
    cases y with
    | error e' => exact error
    | ok b => exact h.elim
  | ok a =>
    cases y with
    | error e' => exact h.elim
    | ok b => exact hcont a b rfl rfl h

/-- A common first computation drops out. -/
theorem bind_same {R : α' → α' → Prop} {x : Except ε α} {f g : α → Except ε α'}
    (hcont : ∀ a, x = .ok a → Agree R (f a) (g a)) : Agree R (x >>= f) (x >>= g) := by
  apply bind (refl fun a _ => (rfl : a = a))
  rintro a _ hx - rfl
  exact hcont a hx

end Agree

/-- The computation raises. -/
def Raises (x : Except ε α) : Prop := ∀ a, x ≠ .ok a

theorem Raises.agree {R : α → β → Prop} {x : Except ε α} {y : Except ε' β} (hx : Raises x)
    (hy : Raises y) : Agree R x y := by
  cases x with
  | ok a => exact absurd rfl (hx a)
  | error e =>
    cases y with
    | ok b => exact absurd rfl (hy b)
    | error e' => exact Agree.error

@[simp] theorem ok_bind (a : α) (f : α → Except ε α') : (Except.ok a >>= f) = f a := rfl

/-- A sequence that returns is two computations that return. -/
theorem bind_eq_ok {x : Except ε α} {f : α → Except ε α'} {b : α'} :
    x >>= f = .ok b ↔ ∃ a, x = .ok a ∧ f a = .ok b := by
  cases x with
  | error e => simp [bind, Except.bind]
  | ok a => simp [bind, Except.bind]

/-- A list is read element by element. -/
theorem mapM_eq_ok {f : α → Except ε α'} {xs : List α} {ys : List α'} :
    xs.mapM f = .ok ys ↔ List.Forall₂ (fun x y => f x = .ok y) xs ys := by
  induction xs generalizing ys with
  | nil =>
    rw [List.mapM_nil]
    constructor
    · intro h
      cases h
      exact .nil
    · intro h
      cases h
      rfl
  | cons x xs ih =>
    rw [List.mapM_cons]
    simp only [bind_eq_ok, ih]
    constructor
    · rintro ⟨y, hy, ys', hys, h⟩
      cases h
      exact .cons hy hys
    · intro h
      cases h with
      | cons hy hys => exact ⟨_, hy, _, hys, rfl⟩

theorem mapM_eq_map {f : α → Except ε α'} {g : α → α'} {xs : List α} (h : ∀ x ∈ xs, f x = .ok (g x)) :
    xs.mapM f = .ok (xs.map g) := by
  rw [mapM_eq_ok, List.forall₂_map_right_iff, List.forall₂_same]
  exact h

/-- Values are read back from what they were rendered to. -/
theorem mapM_map_eq_self {f : α' → Except ε α} {g : α → α'} {xs : List α} (h : ∀ x ∈ xs, f (g x) = .ok x) :
    (xs.map g).mapM f = .ok xs := by
  rw [mapM_eq_ok, List.forall₂_map_left_iff, List.forall₂_same]
  exact h

/-- A computation over a list one of whose steps raises, where no step raises anything else. -/
theorem mapM_eq_error {f : α → Except ε α'} {e : ε} {xs : List α} (hraises : ∃ x ∈ xs, f x = .error e)
    (honly : ∀ x ∈ xs, ∀ e', f x = .error e' → e' = e) : xs.mapM f = .error e := by
  induction xs with
  | nil =>
    obtain ⟨x, hx, -⟩ := hraises
    cases hx
  | cons x xs ih =>
    rw [List.mapM_cons]
    cases hfx : f x with
    | error e' =>
      rw [honly x List.mem_cons_self e' hfx]
      rfl
    | ok y =>
      obtain ⟨x', hx', hraises⟩ := hraises
      have hrest : x' ∈ xs := by
        refine (List.mem_cons.mp hx').resolve_left ?_
        rintro rfl
        exact absurd (hfx.symm.trans hraises) (by simp)
      rw [ih ⟨x', hrest, hraises⟩ fun z hz => honly z (List.mem_cons_of_mem _ hz)]
      rfl

/-- Checks that all pass. -/
theorem forM_eq_ok {f : α → Except ε Unit} {xs : List α} (h : ∀ x ∈ xs, f x = .ok ()) :
    xs.forM f = (.ok () : Except ε Unit) := by
  induction xs with
  | nil => rfl
  | cons x xs ih =>
    show (f x >>= fun _ => xs.forM f) = _
    rw [h x List.mem_cons_self]
    exact ih fun y hy => h y (List.mem_cons_of_mem _ hy)

/-- A sequence raises where its continuation raises on whatever is handed to it. -/
theorem raises_bind {x : Except ε α} {f : α → Except ε α'} (h : ∀ a, x = .ok a → Raises (f a)) :
    Raises (x >>= f) := by
  intro b hb
  obtain ⟨a, hx, hf⟩ := bind_eq_ok.mp hb
  exact h a hx b hf

/-- The computation does not raise what `bad` names, and what it returns satisfies `P`. -/
def Ends (bad : ε → Prop) (P : α → Prop) : Except ε α → Prop
  | .ok a => P a
  | .error e => ¬ bad e

namespace Ends

variable {bad : ε → Prop} {P Q : α → Prop}

theorem ok {a : α} (h : P a) : Ends bad P (.ok a) := h

theorem error {e : ε} (h : ¬ bad e) : Ends bad P (.error e : Except ε α) := h

theorem mono {x : Except ε α} (h : Ends bad P x) (himp : ∀ a, x = .ok a → P a → Q a) :
    Ends bad Q x := by
  cases x with
  | ok a => exact himp a rfl h
  | error e => exact h

/-- Sequencing. -/
theorem bind {P' : α' → Prop} {x : Except ε α} {f : α → Except ε α'} (h : Ends bad P x)
    (hcont : ∀ a, x = .ok a → P a → Ends bad P' (f a)) : Ends bad P' (x >>= f) := by
  cases x with
  | ok a => exact hcont a rfl h
  | error e => exact h

theorem of_eq_ok {x : Except ε α} (h : Ends bad P x) {a : α} (hx : x = .ok a) : P a := by
  rw [hx] at h
  exact h

end Ends

end Drift.Lib
