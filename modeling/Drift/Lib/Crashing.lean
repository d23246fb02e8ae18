import Mathlib.Logic.Basic

/-!
# Computations that may raise or crash

A `Crashing σ ε α` runs from a state and ends in one: it returns, it raises, or the process is gone. A
crash is no exception: no handler catches it and no `finally` clause runs after it. What was done to the
state before stays done in either case.

`Meets P m Q C` reads: from a state with `P`, the computation leaves `C` wherever it is cut short, by an
exception or by a crash, and `Q` of its result and the state where it returns.

* `Meets.bind`, `Meets.handle`, `Meets.andFinally` — the rules of the constructs;
* `Meets.conseq` — the rule of consequence;
* `Keeps`, `Keeps.frame`, `Keeps.bind` — a view of the state that a computation leaves alone, and an assertion about it.
-/

namespace Drift.Lib

universe u v w

/-- How a computation ends. -/
inductive Ending (ε : Type v) (α : Type w)
  | returned (a : α)
  | raised (e : ε)
  | crashed
  deriving DecidableEq

/-- A computation over the state `σ` with exceptions in `ε` and results in `α`. -/
def Crashing (σ : Type u) (ε : Type v) (α : Type w) : Type (max u v w) := σ → Ending ε α × σ

namespace Crashing

variable {σ : Type u} {ε : Type v} {α β : Type w}

def bind (m : Crashing σ ε α) (k : α → Crashing σ ε β) : Crashing σ ε β := fun s =>
  match m s with
  | (.returned a, s') => k a s'
  | (.raised e, s') => (.raised e, s')
  | (.crashed, s') => (.crashed, s')

instance : Monad (Crashing σ ε) where
  pure a := fun s => (.returned a, s)
  bind := bind

/-- `raise e`. -/
def raise (e : ε) : Crashing σ ε α := fun s => (.raised e, s)

/-- A computation that has no effect on the state. -/
def lift (x : σ → Except ε α) : Crashing σ ε α := fun s =>
  match x s with
  | .ok a => (.returned a, s)
  | .error e => (.raised e, s)

/-- `try: m except e: h(e)`, for the exceptions that `h` takes. -/
def handle (m : Crashing σ ε α) (h : ε → Option (Crashing σ ε α)) : Crashing σ ε α := fun s =>
  match m s with
  | (.raised e, s') =>
    match h e with
    | some k => k s'
    | none => (.raised e, s')
  | (.returned a, s') => (.returned a, s')
  | (.crashed, s') => (.crashed, s')

/-- `try: m finally: f`. An exception of `f` takes the place of how `m` has ended. -/
def andFinally (m : Crashing σ ε α) (f : Crashing σ ε PUnit) : Crashing σ ε α := fun s =>
  match m s with
  | (.returned a, s') => (f.bind fun _ => pure a) s'
  | (.raised e, s') => (f.bind fun _ => raise e) s'
  | (.crashed, s') => (.crashed, s')

/-! ### Assertions -/

/-- What an ending asserts of the state it leaves. -/
def Ending.Leaves (Q : α → σ → Prop) (C : σ → Prop) : Ending ε α → σ → Prop
  | .returned a, s => Q a s
  | .raised _, s => C s
  | .crashed, s => C s

/-- From `P`, the computation leaves `Q` where it returns and `C` where it is cut short. -/
def Meets (P : σ → Prop) (m : Crashing σ ε α) (Q : α → σ → Prop) (C : σ → Prop) : Prop :=
  ∀ s, P s → Ending.Leaves Q C (m s).1 (m s).2

namespace Meets

variable {P P' C C' : σ → Prop} {Q Q' : α → σ → Prop} {R : β → σ → Prop} {m : Crashing σ ε α}

theorem pure {a : α} (h : ∀ s, P s → Q a s) : Meets P (pure a : Crashing σ ε α) Q C := h

theorem raise {e : ε} (h : ∀ s, P s → C s) : Meets P (raise e : Crashing σ ε α) Q C := h

theorem lift {x : σ → Except ε α} (hok : ∀ s a, P s → x s = .ok a → Q a s)
    (herror : ∀ s, P s → C s) : Meets P (lift x) Q C := by
  intro s hs
  unfold Crashing.lift
  cases hx : x s with
  | ok a => exact hok s a hs hx
  | error e => exact herror s hs

/-- A part of the precondition that does not speak of the state. -/
theorem assume {a : Prop} (h : a → Meets P m Q C) : Meets (fun s => a ∧ P s) m Q C :=
  fun s hs => h hs.1 s hs.2

/-- **The rule of sequencing.** -/
theorem bind {k : α → Crashing σ ε β} (hm : Meets P m Q C) (hk : ∀ a, Meets (Q a) (k a) R C) :
    Meets P (m >>= k) R C := by
  intro s hs
  have hfirst := hm s hs
  show Ending.Leaves R C (Crashing.bind m k s).1 (Crashing.bind m k s).2
  unfold Crashing.bind
  split
  · next a s' heq =>
    rw [heq] at hfirst
    exact hk a s' hfirst
  · next e s' heq =>
    rw [heq] at hfirst
    exact hfirst
  · next s' heq =>
    rw [heq] at hfirst
    exact hfirst

/-- **The rule of handlers.** A handler starts where the computation was cut short. -/
theorem handle {h : ε → Option (Crashing σ ε α)} (hm : Meets P m Q C)
    (hhandler : ∀ e k, h e = some k → Meets C k Q C) : Meets P (m.handle h) Q C := by
  intro s hs
  have hfirst := hm s hs
  unfold Crashing.handle
  split
  · next e s' heq =>
    rw [heq] at hfirst
    split
    · next k hk => exact hhandler e k hk s' hfirst
    · exact hfirst
  · next a s' heq =>
    rw [heq] at hfirst
    exact hfirst
  · next s' heq =>
    rw [heq] at hfirst
    exact hfirst

/-- **The rule of `finally`.** The clause runs after either ending. -/
theorem andFinally {f : Crashing σ ε PUnit} (hm : Meets P m Q C)
    (hreturned : ∀ a, Meets (Q a) f (fun _ => Q' a) C) (hraised : Meets C f (fun _ => C) C) :
    Meets P (m.andFinally f) Q' C := by
  intro s hs
  have hfirst := hm s hs
  unfold Crashing.andFinally
  split
  · next a s' heq =>
    rw [heq] at hfirst
    exact bind (hreturned a) (fun _ => pure fun _ h => h) s' hfirst
  · next e s' heq =>
    rw [heq] at hfirst
    exact bind hraised (fun _ => raise fun _ h => h) s' hfirst
  · next s' heq =>
    rw [heq] at hfirst
    exact hfirst

/-- **The rule of consequence.** -/
theorem conseq (hm : Meets P m Q C) (hP : ∀ s, P' s → P s) (hQ : ∀ a s, Q a s → Q' a s)
    (hC : ∀ s, C s → C' s) : Meets P' m Q' C' := by
  intro s hs
  have hleaves := hm s (hP s hs)
  cases hending : (m s).1 with
  | returned a =>
    rw [hending] at hleaves
    exact hQ a _ hleaves
  | raised e =>
    rw [hending] at hleaves
    exact hC _ hleaves
  | crashed =>
    rw [hending] at hleaves
    exact hC _ hleaves

/-- What a computation that meets a specification leaves, however it ends. -/
theorem leaves {Inv : σ → Prop} (hm : Meets P m (fun _ => Inv) Inv) {s : σ} (hs : P s) :
    Inv (m s).2 := by
  have hleaves := hm s hs
  cases hending : (m s).1 with
  | returned a =>
    rw [hending] at hleaves
    exact hleaves
  | raised e =>
    rw [hending] at hleaves
    exact hleaves
  | crashed =>
    rw [hending] at hleaves
    exact hleaves

end Meets

/-! ### Frames -/

section Keeps

variable {γ : Type*} {f : σ → γ} {m : Crashing σ ε α}

/-- However the computation ends, what `f` reads is as before. -/
def Keeps (f : σ → γ) (m : Crashing σ ε α) : Prop := ∀ s, f (m s).2 = f s

/-- An assertion about what a computation keeps holds after it. -/
theorem Keeps.frame (h : m.Keeps f) (P : γ → Prop) :
    Meets (fun s => P (f s)) m (fun _ s => P (f s)) fun s => P (f s) := by
  intro s hs
  have hview : P (f (m s).2) := by
    rw [h s]
    exact hs
  cases (m s).1 with
  | returned a => exact hview
  | raised e => exact hview
  | crashed => exact hview

/-- What a computation keeps, read as a specification of it. -/
theorem Keeps.of_meets (h : ∀ c, Meets (fun s => f s = c) m (fun _ s => f s = c) fun s => f s = c) :
    m.Keeps f :=
  fun s => (h (f s)).leaves rfl

theorem Keeps.pure (a : α) : (Pure.pure a : Crashing σ ε α).Keeps f := fun _ => rfl

theorem Keeps.raise (e : ε) : (Crashing.raise e : Crashing σ ε α).Keeps f := fun _ => rfl

theorem Keeps.lift (x : σ → Except ε α) : (Crashing.lift x).Keeps f := by
  intro s
  unfold Crashing.lift
  cases x s with
  | ok a => rfl
  | error e => rfl

theorem Keeps.bind {k : α → Crashing σ ε β} (hm : m.Keeps f) (hk : ∀ a, (k a).Keeps f) :
    (m >>= k).Keeps f :=
  of_meets fun c => Meets.bind (hm.frame (· = c)) fun a => (hk a).frame (· = c)

theorem Keeps.handle {h : ε → Option (Crashing σ ε α)} (hm : m.Keeps f)
    (hhandler : ∀ e k, h e = some k → k.Keeps f) : (m.handle h).Keeps f :=
  of_meets fun c => Meets.handle (hm.frame (· = c)) fun e k hk => (hhandler e k hk).frame (· = c)

end Keeps

end Crashing

end Drift.Lib
