import Mathlib

/-!
# Custody of resources

Resources are made one after another, each for one owner, which can hold one resource at a time. A
resource leaves its owner to be closed. A close may fail, and then the resource goes back to its owner,
to be held like one that was never closed.

The question is whether a resource can get lost: no longer held, and never closed. It cannot as long as
nothing is put on top of a held resource that has not been closed once (`Custody.Covers`). The same
invariant gives that no two closes of one resource run at once, and that none starts after one that
returned.

* `Custody` — the state; `make`, `drop`, `start`, `hold`, `finish` — the moves;
* `Custody.Safe` — the invariant. Between two moves a resource may be in nobody's hands, and the
  invariant names it: `make` and `drop` let a resource loose, `start` and `hold` take it up.
-/

namespace Drift.Lib

variable {κ : Type*}

/-- Resource `x` is made for `owner[x]`. `closing x` counts the closes of `x` that are running, `called`
and `returned` are the closes that have started and those that have succeeded. -/
structure Custody (κ : Type*) where
  owner : List κ
  holds : κ → Option Nat
  closing : Nat → Nat
  called : List Nat
  returned : List Nat

namespace Custody

section Moves

variable (C : Custody κ) (k : κ) (x : Nat)

/-- A new resource is made. -/
def make : Custody κ :=
  { C with owner := C.owner ++ [k] }

/-- A close starts. -/
def start : Custody κ :=
  { C with closing := C.closing + Pi.single x 1, called := C.called ++ [x] }

/-- A close ends. -/
def finish (succeeds : Bool) : Custody κ :=
  { C with
    closing := C.closing - Pi.single x 1
    returned := C.returned ++ if succeeds then [x] else [] }

variable [DecidableEq κ]

/-- The owner gives up what it holds. -/
def drop : Custody κ :=
  { C with holds := Function.update C.holds k none }

/-- A resource comes into the hands of its owner. -/
def hold : Custody κ :=
  { C with holds := Function.update C.holds k (some x) }

end Moves

/-- What the owner holds may be given up: it is the expected resource, or its close has been called. -/
def Covers (C : Custody κ) (k : κ) (expected : Option Nat) : Prop :=
  ∀ z, C.holds k = some z → expected = some z ∨ z ∈ C.called

/-- The invariant, while one resource at most is loose. -/
structure Safe (C : Custody κ) (loose : Option Nat) : Prop where
  /-- A resource is held, or its close has been called. -/
  kept : ∀ x k, C.owner[x]? = some k → C.holds k = some x ∨ x ∈ C.called ∨ loose = some x
  owned : ∀ k x, C.holds k = some x → C.owner[x]? = some k
  made : ∀ x ∈ C.called, x < C.owner.length
  /-- What is held is not being closed and has not been closed. -/
  open_of_holds : ∀ k x, C.holds k = some x → x ∉ C.returned ∧ C.closing x = 0
  running : ∀ x, 0 < C.closing x → x ∈ C.called ∧ x ∉ C.returned
  single : ∀ x, C.closing x ≤ 1
  returned_called : ∀ x ∈ C.returned, x ∈ C.called

variable {C : Custody κ} {k : κ} {x : Nat} {loose : Option Nat}

theorem single_self (x : Nat) : (Pi.single x 1 : Nat → Nat) x = 1 := Pi.single_eq_same x 1

theorem single_ne {x y : Nat} (h : y ≠ x) : (Pi.single x 1 : Nat → Nat) y = 0 :=
  Pi.single_eq_of_ne h 1

/-- Only the owner holds a resource. -/
theorem Safe.holder_unique (h : C.Safe loose) {l : κ} (hk : C.owner[x]? = some k)
    (hl : C.holds l = some x) : l = k :=
  Option.some.inj ((h.owned l x hl).symm.trans hk)

/-- Nothing is known yet of the next resource. -/
theorem Safe.fresh (h : C.Safe loose) : C.owner.length ∉ C.called ∧ C.owner.length ∉ C.returned ∧
    C.closing C.owner.length = 0 ∧ ∀ k, C.holds k ≠ some C.owner.length := by
  have hcalled : C.owner.length ∉ C.called := fun hx => Nat.lt_irrefl _ (h.made _ hx)
  refine ⟨hcalled, fun hx => hcalled (h.returned_called _ hx), ?_, fun k hk => ?_⟩
  · by_contra hpos
    exact hcalled (h.running _ (Nat.pos_of_ne_zero hpos)).1
  · have howned := h.owned k _ hk
    rw [List.getElem?_eq_none (Nat.le_refl _)] at howned
    cases howned

/-- The owners after a resource was made are the old ones and the new one. -/
theorem owner_append_cases {l : List κ} {j : κ} (h : (l ++ [k])[x]? = some j) :
    l[x]? = some j ∨ (x = l.length ∧ j = k) := by
  rw [List.getElem?_append] at h
  split at h
  · exact Or.inl h
  · next hge =>
    rw [List.getElem?_singleton] at h
    split at h
    · exact Or.inr ⟨by omega, (Option.some.inj h).symm⟩
    · cases h

theorem owner_append {l : List κ} {j : κ} (h : l[x]? = some j) : (l ++ [k])[x]? = some j := by
  rw [List.getElem?_append_left (List.getElem?_eq_some_iff.mp h).1]
  exact h

/-- A new resource is loose. -/
theorem Safe.make (h : C.Safe none) (k : κ) : (C.make k).Safe (some C.owner.length) where
  kept := fun y j hy => by
    rcases owner_append_cases hy with hy | ⟨rfl, rfl⟩
    · rcases h.kept y j hy with hheld | hcalled | hloose
      · exact Or.inl hheld
      · exact Or.inr (Or.inl hcalled)
      · cases hloose
    · exact Or.inr (Or.inr rfl)
  owned := fun j y hj => owner_append (h.owned j y hj)
  made := fun y hy => by
    show y < (C.owner ++ [k]).length
    rw [List.length_append]
    exact Nat.lt_add_right _ (h.made y hy)
  open_of_holds := h.open_of_holds
  running := h.running
  single := h.single
  returned_called := h.returned_called

/-- The close of a loose resource starts. -/
theorem Safe.start (h : C.Safe (some x)) (hmade : x < C.owner.length)
    (hheld : ∀ k, C.holds k ≠ some x) (hidle : C.closing x = 0) (hopen : x ∉ C.returned) :
    (C.start x).Safe none where
  kept := fun y j hy => by
    rcases h.kept y j hy with hj | hcalled | hloose
    · exact Or.inl hj
    · exact Or.inr (Or.inl (List.mem_append_left _ hcalled))
    · rw [Option.some.inj hloose]
      exact Or.inr (Or.inl (List.mem_append_right _ (List.mem_singleton_self y)))
  owned := h.owned
  made := fun y hy => by
    rcases List.mem_append.mp hy with hy | hy
    · exact h.made y hy
    · exact List.mem_singleton.mp hy ▸ hmade
  open_of_holds := fun k y hk => by
    have hne : y ≠ x := fun hyx => hheld k (hyx ▸ hk)
    refine ⟨(h.open_of_holds k y hk).1, ?_⟩
    show C.closing y + (Pi.single x 1 : Nat → Nat) y = 0
    rw [single_ne hne, (h.open_of_holds k y hk).2]
  running := fun y hy => by
    by_cases hyx : y = x
    · rw [hyx]
      exact ⟨List.mem_append_right _ (List.mem_singleton_self x), hopen⟩
    · have hpos : 0 < C.closing y + (Pi.single x 1 : Nat → Nat) y := hy
      rw [single_ne hyx] at hpos
      exact ⟨List.mem_append_left _ (h.running y hpos).1, (h.running y hpos).2⟩
  single := fun y => by
    show C.closing y + (Pi.single x 1 : Nat → Nat) y ≤ 1
    by_cases hyx : y = x
    · have hone : C.closing y + (Pi.single x 1 : Nat → Nat) y = 1 := by
        rw [hyx, single_self, hidle]
      exact Nat.le_of_eq hone
    · rw [single_ne hyx]
      exact h.single y
  returned_called := fun y hy => List.mem_append_left _ (h.returned_called y hy)

/-- A close ends. -/
theorem Safe.finish (h : C.Safe none) (hrunning : 0 < C.closing x) (succeeds : Bool) :
    (C.finish x succeeds).Safe none where
  kept := h.kept
  owned := h.owned
  made := h.made
  open_of_holds := fun k y hk => by
    have hy := h.open_of_holds k y hk
    have hne : y ≠ x := by
      rintro rfl
      omega
    refine ⟨fun hmem => ?_, ?_⟩
    · rcases List.mem_append.mp hmem with hmem | hmem
      · exact hy.1 hmem
      · cases succeeds
        · exact absurd hmem List.not_mem_nil
        · exact hne (List.mem_singleton.mp hmem)
    · show C.closing y - (Pi.single x 1 : Nat → Nat) y = 0
      rw [hy.2, Nat.zero_sub]
  running := fun y hy => by
    have hpos : 0 < C.closing y - (Pi.single x 1 : Nat → Nat) y := hy
    have hne : y ≠ x := by
      rintro rfl
      have hone := h.single y
      rw [single_self] at hpos
      omega
    rw [single_ne hne] at hpos
    refine ⟨(h.running y hpos).1, fun hmem => ?_⟩
    rcases List.mem_append.mp hmem with hmem | hmem
    · exact (h.running y hpos).2 hmem
    · cases succeeds
      · exact absurd hmem List.not_mem_nil
      · exact hne (List.mem_singleton.mp hmem)
  single := fun y => Nat.le_trans (Nat.sub_le _ _) (h.single y)
  returned_called := fun y hy => by
    rcases List.mem_append.mp hy with hy | hy
    · exact h.returned_called y hy
    · cases succeeds
      · exact absurd hy List.not_mem_nil
      · rw [List.mem_singleton.mp hy]
        exact (h.running x hrunning).1

/-- When a close ends, nobody else is closing the resource. -/
theorem Safe.finish_closing (h : C.Safe none) (succeeds : Bool) :
    (C.finish x succeeds).closing x = 0 := by
  have hone := h.single x
  show C.closing x - (Pi.single x 1 : Nat → Nat) x = 0
  rw [single_self]
  omega

/-- **Made and closed at once.** -/
theorem Safe.makeClosing (h : C.Safe none) (k : κ) :
    ((C.make k).start C.owner.length).Safe none := by
  obtain ⟨-, hreturned, hidle, hheld⟩ := h.fresh
  refine (h.make k).start ?_ hheld hidle hreturned
  show C.owner.length < (C.owner ++ [k]).length
  rw [List.length_append]
  exact Nat.lt_succ_self _

variable [DecidableEq κ]

theorem update_eq_some {f : κ → Option Nat} {r : Option Nat} {j : κ} {y : Nat}
    (h : Function.update f k r j = some y) : (j = k ∧ r = some y) ∨ f j = some y := by
  by_cases hjk : j = k
  · rw [hjk, Function.update_self] at h
    exact Or.inl ⟨hjk, h⟩
  · rw [Function.update_of_ne hjk] at h
    exact Or.inr h

/-- What is given up is loose, or was closed once. -/
theorem Safe.drop (h : C.Safe none) {expected : Option Nat} (hcovers : C.Covers k expected) :
    (C.drop k).Safe expected where
  kept := fun y j hy => by
    show Function.update C.holds k none j = some y ∨ y ∈ C.called ∨ expected = some y
    rcases h.kept y j hy with hheld | hcalled | hloose
    · by_cases hjk : j = k
      · subst hjk
        exact Or.inr (hcovers y hheld).symm
      · rw [Function.update_of_ne hjk]
        exact Or.inl hheld
    · exact Or.inr (Or.inl hcalled)
    · cases hloose
  owned := fun j y hj => h.owned j y ((update_eq_some hj).resolve_left fun h => by cases h.2)
  made := h.made
  open_of_holds := fun j y hj =>
    h.open_of_holds j y ((update_eq_some hj).resolve_left fun h => by cases h.2)
  running := h.running
  single := h.single
  returned_called := h.returned_called

/-- A resource that is loose, or whose close has failed, comes into the hands of its owner, on top of
nothing that was never closed. -/
theorem Safe.hold (h : C.Safe loose) (howner : C.owner[x]? = some k) (hcovers : C.Covers k none)
    (hloose : ∀ y, loose = some y → y = x) (hopen : x ∉ C.returned) (hidle : C.closing x = 0) :
    (C.hold k x).Safe none where
  kept := fun y j hy => by
    show Function.update C.holds k (some x) j = some y ∨ y ∈ C.called ∨ none = some y
    rcases h.kept y j hy with hheld | hcalled | hy'
    · by_cases hjk : j = k
      · subst hjk
        exact Or.inr (Or.inl ((hcovers y hheld).resolve_left fun hy => by cases hy))
      · rw [Function.update_of_ne hjk]
        exact Or.inl hheld
    · exact Or.inr (Or.inl hcalled)
    · obtain rfl := hloose y hy'
      rw [Option.some.inj (hy.symm.trans howner), Function.update_self]
      exact Or.inl rfl
  owned := fun j y hj => by
    rcases update_eq_some hj with ⟨rfl, hy⟩ | hj
    · rw [← Option.some.inj hy]
      exact howner
    · exact h.owned j y hj
  made := h.made
  open_of_holds := fun j y hj => by
    rcases update_eq_some hj with ⟨rfl, hy⟩ | hj
    · rw [← Option.some.inj hy]
      exact ⟨hopen, hidle⟩
    · exact h.open_of_holds j y hj
  running := h.running
  single := h.single
  returned_called := h.returned_called

/-- **Made and held.** -/
theorem Safe.makeHeld (h : C.Safe none) (hcovers : C.Covers k none) :
    ((C.make k).hold k C.owner.length).Safe none := by
  obtain ⟨-, hreturned, hidle, -⟩ := h.fresh
  refine (h.make k).hold List.getElem?_concat_length hcovers (fun y hy => ?_) hreturned hidle
  exact (Option.some.inj hy).symm

/-- **Taken to be closed.** -/
theorem Safe.take (h : C.Safe none) (howner : C.owner[x]? = some k) (hcovers : C.Covers k (some x))
    (hidle : C.closing x = 0) (hopen : x ∉ C.returned) : ((C.drop k).start x).Safe none := by
  refine (h.drop hcovers).start (List.getElem?_eq_some_iff.mp howner).1 (fun j hj => ?_) hidle hopen
  have hj : Function.update C.holds k none j = some x := hj
  rcases update_eq_some hj with ⟨-, hnone⟩ | hheld
  · cases hnone
  · rw [h.holder_unique howner hheld, Function.update_self] at hj
    cases hj

/-- **Closed in vain and put back.** -/
theorem Safe.putBack (h : C.Safe none) (howner : C.owner[x]? = some k) (hcovers : C.Covers k none)
    (hrunning : 0 < C.closing x) : ((C.finish x false).hold k x).Safe none := by
  refine (h.finish hrunning false).hold howner hcovers (fun y hy => by cases hy) ?_
    (h.finish_closing false)
  show x ∉ C.returned ++ []
  rw [List.append_nil]
  exact (h.running x hrunning).2

end Custody

end Drift.Lib
