import Mathlib.Data.List.Basic

/-!
# Loops that can raise

`forEach body` is a `for` loop over a list: the body changes a state and may raise, which ends the loop
with the state as it is then. A *turn* is one execution of the body.

* `Turns P` — `P` holds at the start of every turn the loop comes to;
* `forEach_invariant` — what every turn keeps, the loop keeps;
* `forEach_ok_iff` — the loop completes when every turn does.
-/

namespace Drift.Lib

variable {σ α ε : Type*}

/-- `for a in l: body(a)`. -/
def forEach (body : σ → α → Except ε Unit × σ) : List α → σ → Except ε Unit × σ
  | [], s => (.ok (), s)
  | a :: l, s =>
    match body s a with
    | (.error e, s') => (.error e, s')
    | (.ok (), s') => forEach body l s'

/-- `P` holds of the state and the element at the start of every turn. -/
def Turns (body : σ → α → Except ε Unit × σ) (P : σ → α → Prop) : List α → σ → Prop
  | [], _ => True
  | a :: l, s => P s a ∧ ((body s a).1.isOk = true → Turns body P l (body s a).2)

instance decidableTurns (body : σ → α → Except ε Unit × σ) (P : σ → α → Prop)
    [∀ s a, Decidable (P s a)] : ∀ (l : List α) (s : σ), Decidable (Turns body P l s)
  | [], _ => isTrue trivial
  | a :: l, s =>
    have := decidableTurns body P l (body s a).2
    inferInstanceAs (Decidable (P s a ∧ ((body s a).1.isOk = true → Turns body P l (body s a).2)))

variable {body : σ → α → Except ε Unit × σ} {P Q : σ → α → Prop}

theorem Turns.mono {l : List α} {s : σ} (himp : ∀ s, ∀ a ∈ l, P s a → Q s a)
    (h : Turns body P l s) : Turns body Q l s := by
  induction l generalizing s with
  | nil => trivial
  | cons a l ih =>
    exact ⟨himp s a List.mem_cons_self h.1,
      fun hok => ih (fun s a ha => himp s a (List.mem_cons_of_mem _ ha)) (h.2 hok)⟩

theorem Turns.of_forall {l : List α} {s : σ} (h : ∀ s a, P s a) : Turns body P l s := by
  induction l generalizing s with
  | nil => trivial
  | cons a l ih => exact ⟨h s a, fun _ => ih⟩

/-- A loop goes on after a turn that does not raise, and ends with one that does. -/
theorem forEach_cons (a : α) (l : List α) (s : σ) :
    forEach body (a :: l) s =
      if (body s a).1.isOk = true then forEach body l (body s a).2 else body s a := by
  rw [forEach]
  rcases hbody : body s a with ⟨result, s'⟩
  cases result <;> rfl

/-- **The loop rule.** What every turn keeps under its condition, the loop keeps. -/
theorem forEach_invariant (Inv : σ → Prop) {l : List α} {s : σ} (hinit : Inv s)
    (hturns : Turns body P l s)
    (hstep : ∀ s, ∀ a ∈ l, Inv s → P s a → Inv (body s a).2) : Inv (forEach body l s).2 := by
  induction l generalizing s with
  | nil => exact hinit
  | cons a l ih =>
    have hfirst := hstep s a List.mem_cons_self hinit hturns.1
    rw [forEach_cons]
    split
    · next hok =>
      exact ih hfirst (hturns.2 hok) fun s a ha => hstep s a (List.mem_cons_of_mem _ ha)
    · exact hfirst

/-- A loop completes when every turn does. -/
theorem forEach_isOk_iff {l : List α} {s : σ} :
    (forEach body l s).1.isOk = true ↔ Turns body (fun s a => (body s a).1.isOk = true) l s := by
  induction l generalizing s with
  | nil => exact ⟨fun _ => trivial, fun _ => rfl⟩
  | cons a l ih =>
    rw [forEach_cons]
    split
    · next hok => exact ⟨fun h => ⟨hok, fun _ => ih.mp h⟩, fun h => ih.mpr (h.2 hok)⟩
    · next hraise => exact ⟨fun h => absurd h hraise, fun h => absurd h.1 hraise⟩

/-- Conditions that are equivalent under an invariant of the turns are equivalent along the loop. -/
theorem Turns.congr (Inv : σ → Prop) {l : List α} {s : σ} (hinit : Inv s)
    (hstep : ∀ s, ∀ a ∈ l, Inv s → (body s a).1.isOk = true → Inv (body s a).2)
    (h : ∀ s, ∀ a ∈ l, Inv s → (P s a ↔ Q s a)) : Turns body P l s ↔ Turns body Q l s := by
  induction l generalizing s with
  | nil => exact Iff.rfl
  | cons a l ih =>
    have hrest : (body s a).1.isOk = true →
        (Turns body P l (body s a).2 ↔ Turns body Q l (body s a).2) := fun hok =>
      ih (hstep s a List.mem_cons_self hinit hok)
        (fun s a ha => hstep s a (List.mem_cons_of_mem _ ha))
        fun s a ha => h s a (List.mem_cons_of_mem _ ha)
    exact and_congr (h s a List.mem_cons_self hinit) (forall_congr' hrest)

/-- What no turn changes, the loop does not change. -/
theorem forEach_keeps {β : Type*} (view : σ → β) {l : List α} {s : σ}
    (h : ∀ s a, view (body s a).2 = view s) : view (forEach body l s).2 = view s :=
  forEach_invariant (fun s' => view s' = view s) rfl (Turns.of_forall fun _ _ => trivial)
    fun s₁ a _ hview (_ : True) => (h s₁ a).trans hview

end Drift.Lib
