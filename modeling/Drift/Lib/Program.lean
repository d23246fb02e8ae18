import Drift.Lib.Machine

/-!
# Programs over shared memory with a lock

A `Program` is a sequence of single accesses to a shared state, each of which may depend on what the
earlier ones have read, with a lock that may time out. Several programs run at once as a `Pool`, where
the lock excludes its holders from each other, but not those accesses that are made without it.

What a program achieves under interference is stated with two relations: what an access may do to the
state without the lock, and what it may do while it holds the lock. An assertion of a program is *stable*
if the others cannot break it, and the holder of the lock suffers only what is done without it.

* `Program.run` — a program on its own, with the answers of the lock;
* `Pool`, `poolMachine` — programs interleaved access by access;
* `Program.Meets` — a program keeps to the two relations and ends with its postcondition, whatever the
  others do;
* `Pool.Meets.reach` — the rule of composition: what each program meets alone, it meets in a pool.
-/

namespace Drift.Lib

universe u v

/-- A program over the shared state `σ` with results in `α`. -/
inductive Program (σ : Type u) (α : Type v) : Type (max u v)
  | done (result : α)
  /-- One access: the effect, and what follows, which may depend on the state that was read. -/
  | act (effect : σ → σ) (next : σ → Program σ α)
  | lock (granted timedOut : Program σ α)
  | unlock (next : Program σ α)

namespace Program

variable {σ : Type u} {α β : Type v}

/-- One access that reads. -/
def read {γ : Type*} (f : σ → γ) (k : γ → Program σ α) : Program σ α := .act id fun s => k (f s)

/-- One access that writes. -/
def write (f : σ → σ) (k : Program σ α) : Program σ α := .act f fun _ => k

/-- One program after another. -/
def bind : Program σ α → (α → Program σ β) → Program σ β
  | .done a, k => k a
  | .act effect next, k => .act effect fun s => (next s).bind k
  | .lock granted timedOut, k => .lock (granted.bind k) (timedOut.bind k)
  | .unlock next, k => .unlock (next.bind k)

/-- `with lock: section`, and what is done when the lock cannot be had. -/
def locked (body : Program σ α) (unavailable : Program σ α) : Program σ α :=
  .lock (body.bind fun a => .unlock (.done a)) unavailable

/-- A program on its own. The list answers its requests for the lock, which is granted once the list
is empty. -/
def run : Program σ α → List Bool → σ → α × σ
  | .done a, _, s => (a, s)
  | .act effect next, answers, s => (next s).run answers (effect s)
  | .lock granted timedOut, answers, s =>
    if answers.headD true then granted.run answers.tail s else timedOut.run answers.tail s
  | .unlock next, answers, s => next.run answers s

@[simp] theorem run_done (a : α) (answers : List Bool) (s : σ) :
    (Program.done a).run answers s = (a, s) := rfl

@[simp] theorem run_read {γ : Type*} (f : σ → γ) (k : γ → Program σ α) (answers : List Bool) (s : σ) :
    (read f k).run answers s = (k (f s)).run answers s := rfl

@[simp] theorem run_write (f : σ → σ) (k : Program σ α) (answers : List Bool) (s : σ) :
    (write f k).run answers s = k.run answers (f s) := rfl

@[simp] theorem run_unlock (k : Program σ α) (answers : List Bool) (s : σ) :
    (Program.unlock k).run answers s = k.run answers s := rfl

/-- The program makes no use of the lock. -/
def LockFree : Program σ α → Prop
  | .done _ => True
  | .act _ next => ∀ s, (next s).LockFree
  | .lock _ _ => False
  | .unlock _ => False

theorem lockFree_read {γ : Type*} {f : σ → γ} {k : γ → Program σ α} (h : ∀ c, (k c).LockFree) :
    (read f k).LockFree := fun s => h (f s)

theorem lockFree_write {f : σ → σ} {k : Program σ α} (h : k.LockFree) : (write f k).LockFree :=
  fun _ => h

theorem run_bind {p : Program σ α} (hp : p.LockFree) (k : α → Program σ β) (answers : List Bool)
    (s : σ) : (p.bind k).run answers s = (k (p.run answers s).1).run answers (p.run answers s).2 := by
  induction p generalizing s with
  | done a => rfl
  | act effect next ih => exact ih s (hp s) (effect s)
  | lock _ _ => exact absurd hp id
  | unlock _ => exact absurd hp id

/-- A section under the lock runs as it does without it. -/
theorem run_locked {body : Program σ α} (hbody : body.LockFree) (unavailable : Program σ α)
    (answers : List Bool) (s : σ) :
    (locked body unavailable).run answers s =
      if answers.headD true then body.run answers.tail s else unavailable.run answers.tail s := by
  show (if answers.headD true then (body.bind _).run answers.tail s else _) = _
  rw [run_bind hbody]
  rfl

theorem bind_assoc {γ : Type v} (p : Program σ α) (k : α → Program σ β) (h : β → Program σ γ) :
    (p.bind k).bind h = p.bind fun a => (k a).bind h := by
  induction p with
  | done a => rfl
  | act effect next ih => exact congrArg (Program.act effect) (funext ih)
  | lock granted timedOut ihg iht => exact congr (congrArg Program.lock ihg) iht
  | unlock next ih => exact congrArg Program.unlock ih

/-- A section under the lock, and what is made of its result. -/
theorem run_locked_bind {body : Program σ α} (hbody : body.LockFree) (unavailable : Program σ α)
    (k : α → Program σ β) (answers : List Bool) (s : σ) :
    ((locked body unavailable).bind k).run answers s =
      if answers.headD true then
        (k (body.run answers.tail s).1).run answers.tail (body.run answers.tail s).2
      else (unavailable.bind k).run answers.tail s := by
  show (if answers.headD true then ((body.bind _).bind k).run answers.tail s else _) = _
  rw [bind_assoc, run_bind hbody]
  rfl

/-- No access of the program touches what `f` reads. -/
def Keeps {γ : Type*} (f : σ → γ) : Program σ α → Prop
  | .done _ => True
  | .act effect next => ∀ s, f (effect s) = f s ∧ (next s).Keeps f
  | .lock granted timedOut => granted.Keeps f ∧ timedOut.Keeps f
  | .unlock next => next.Keeps f

section Keeps

variable {γ δ : Type*} {f : σ → γ}

theorem Keeps.read {g : σ → δ} {k : δ → Program σ α} (h : ∀ c, (k c).Keeps f) :
    (read g k).Keeps f := fun s => ⟨rfl, h (g s)⟩

theorem Keeps.write {g : σ → σ} {k : Program σ α} (hg : ∀ s, f (g s) = f s) (h : k.Keeps f) :
    (write g k).Keeps f := fun s => ⟨hg s, h⟩

theorem Keeps.bind {p : Program σ α} {k : α → Program σ β} (hp : p.Keeps f)
    (hk : ∀ a, (k a).Keeps f) : (p.bind k).Keeps f := by
  induction p with
  | done a => exact hk a
  | act effect next ih => exact fun s => ⟨(hp s).1, ih s (hp s).2⟩
  | lock granted timedOut ihg iht => exact ⟨ihg hp.1, iht hp.2⟩
  | unlock next ih => exact ih hp

theorem Keeps.locked {body unavailable : Program σ α} (hbody : body.Keeps f)
    (hunavailable : unavailable.Keeps f) : (locked body unavailable).Keeps f :=
  ⟨hbody.bind fun _ => trivial, hunavailable⟩

theorem Keeps.run {p : Program σ α} (h : p.Keeps f) (answers : List Bool) (s : σ) :
    f (p.run answers s).2 = f s := by
  induction p generalizing answers s with
  | done a => rfl
  | act effect next ih => exact (ih s (h s).2 answers (effect s)).trans (h s).1
  | lock granted timedOut ihg iht =>
    unfold Program.run
    split
    · exact ihg h.1 answers.tail s
    · exact iht h.2 answers.tail s
  | unlock next ih => exact ih h answers s

end Keeps

/-! ### Interference -/

/-- What accesses may do to the shared state: without the lock, and with it. -/
structure Discipline (σ : Type u) where
  free : σ → σ → Prop
  held : σ → σ → Prop

namespace Discipline

variable (D : Discipline σ)

/-- What an access may do. -/
def guar : Bool → σ → σ → Prop
  | false => D.free
  | true => D.held

/-- An assertion that the others keep. -/
def Stable (holding : Bool) (P : σ → Prop) : Prop :=
  ∀ s s', D.free s s' ∨ (holding = false ∧ D.held s s') → P s → P s'

variable {D}

theorem Stable.imp_left {P : σ → Prop} (u : Prop) {holding : Bool} (h : D.Stable holding P) :
    D.Stable holding fun s => u → P s :=
  fun s s' hs hP hu => h s s' hs (hP hu)

theorem Stable.and {P Q : σ → Prop} {holding : Bool} (hP : D.Stable holding P)
    (hQ : D.Stable holding Q) : D.Stable holding fun s => P s ∧ Q s :=
  fun s s' hs h => ⟨hP s s' hs h.1, hQ s s' hs h.2⟩

/-- What is kept without the lock is kept under it. -/
theorem Stable.of_free {P : σ → Prop} (h : D.Stable false P) : D.Stable true P :=
  fun s s' hs hP => h s s' (hs.imp_right fun h => absurd h.1 Bool.noConfusion) hP

end Discipline

/-- From a state with `P` the program keeps to the discipline and ends in a state with its
postcondition, whatever the others do in between. The flags say whether it holds the lock at its end and
where it stands. -/
def Meets (D : Discipline σ) (atEnd : Bool) : Program σ α → Bool → (σ → Prop) → (α → σ → Prop) → Prop
  | .done a, holding, P, Q => holding = atEnd ∧ ∀ s, P s → Q a s
  | .act effect next, holding, P, Q => ∀ s, P s → D.guar holding s (effect s) ∧
      ∃ P' : σ → Prop, P' (effect s) ∧ D.Stable holding P' ∧ (next s).Meets D atEnd holding P' Q
  | .lock granted timedOut, holding, P, Q =>
      holding = false ∧ granted.Meets D atEnd true P Q ∧ timedOut.Meets D atEnd false P Q
  | .unlock next, holding, P, Q => holding = true ∧
      ∃ P' : σ → Prop, (∀ s, P s → P' s) ∧ D.Stable false P' ∧ next.Meets D atEnd false P' Q

variable {D : Discipline σ} {atEnd holding : Bool} {P P' : σ → Prop} {Q : α → σ → Prop}

/-- The rule of the end. -/
theorem Meets.done {a : α} (h : ∀ s, P s → Q a s) : (Program.done a).Meets D holding holding P Q :=
  ⟨rfl, h⟩

/-- The rule of a read: what follows may use what was read, as far as it is stable. -/
theorem Meets.read {γ : Type*} {f : σ → γ} {k : γ → Program σ α} (hrefl : ∀ s, D.guar holding s s)
    (h : ∀ s, P s → ∃ P' : σ → Prop, P' s ∧ D.Stable holding P' ∧
      (k (f s)).Meets D atEnd holding P' Q) :
    (Program.read f k).Meets D atEnd holding P Q :=
  fun s hs => ⟨hrefl s, h s hs⟩

/-- The rule of a write. -/
theorem Meets.write {R : σ → Prop} {f : σ → σ} {k : Program σ α} (hguar : ∀ s, P s → D.guar holding s (f s))
    (hpost : ∀ s, P s → R (f s)) (hstable : D.Stable holding R) (h : k.Meets D atEnd holding R Q) :
    (Program.write f k).Meets D atEnd holding P Q :=
  fun s hs => ⟨hguar s hs, R, hpost s hs, hstable, h⟩

/-- The rule of consequence. -/
theorem Meets.mono {p : Program σ α} (h : p.Meets D atEnd holding P Q) (hP : ∀ s, P' s → P s) :
    p.Meets D atEnd holding P' Q := by
  induction p generalizing holding P P' with
  | done a => exact ⟨h.1, fun s hs => h.2 s (hP s hs)⟩
  | act effect next _ => exact fun s hs => h s (hP s hs)
  | lock granted timedOut ihg iht => exact ⟨h.1, ihg h.2.1 hP, iht h.2.2 hP⟩
  | unlock next _ =>
    obtain ⟨hheld, R, hR, hstable, hnext⟩ := h
    exact ⟨hheld, R, fun s hs => hR s (hP s hs), hstable, hnext⟩

theorem Meets.imp {Q' : α → σ → Prop} {p : Program σ α} (h : p.Meets D atEnd holding P Q)
    (hQ : ∀ a s, Q a s → Q' a s) : p.Meets D atEnd holding P Q' := by
  induction p generalizing holding P with
  | done a => exact ⟨h.1, fun s hs => hQ a s (h.2 s hs)⟩
  | act effect next ih =>
    intro s hs
    obtain ⟨hguar, P', hP', hstable, hnext⟩ := h s hs
    exact ⟨hguar, P', hP', hstable, ih s hnext⟩
  | lock granted timedOut ihg iht => exact ⟨h.1, ihg h.2.1, iht h.2.2⟩
  | unlock next ih =>
    obtain ⟨hheld, P', hP, hstable, hnext⟩ := h
    exact ⟨hheld, P', hP, hstable, ih hnext⟩

/-- Where a program stands says whether it holds the lock. -/
theorem Meets.holding_eq {holding' : Bool} {Q' : α → σ → Prop} {p : Program σ α}
    (h : p.Meets D atEnd holding P Q) (h' : p.Meets D atEnd holding' P' Q') {s : σ} (hP : P s)
    (hP' : P' s) : holding = holding' := by
  induction p generalizing P P' s with
  | done a => exact h.1.trans h'.1.symm
  | act effect next ih =>
    obtain ⟨-, R, hR, -, hnext⟩ := h s hP
    obtain ⟨-, R', hR', -, hnext'⟩ := h' s hP'
    exact ih s hnext hnext' hR hR'
  | lock granted timedOut _ _ => exact h.1.trans h'.1.symm
  | unlock next _ => exact h.1.trans h'.1.symm

/-- What no access can break a program on its own does not break either. -/
theorem Meets.run_stable {p : Program σ α} (h : p.Meets D atEnd holding P Q) {I : σ → Prop}
    (hI : D.Stable false I) (answers : List Bool) {s : σ} (hP : P s) (hs : I s) :
    I (p.run answers s).2 := by
  induction p generalizing holding P answers s with
  | done a => exact hs
  | act effect next ih =>
    obtain ⟨hguar, P', hP', -, hnext⟩ := h s hP
    refine ih s hnext answers hP' ?_
    cases holding with
    | false => exact hI s _ (Or.inl hguar) hs
    | true => exact hI s _ (Or.inr ⟨rfl, hguar⟩) hs
  | lock granted timedOut ihg iht =>
    unfold Program.run
    split
    · exact ihg h.2.1 answers.tail hP hs
    · exact iht h.2.2 answers.tail hP hs
  | unlock next ih =>
    obtain ⟨-, P', hP', -, hnext⟩ := h
    exact ih hnext answers (hP' s hP) hs

/-- The rule of composition. -/
theorem Meets.bind {between : Bool} {p : Program σ α} {k : α → Program σ β} {R : α → σ → Prop}
    {Q : β → σ → Prop} (hp : p.Meets D between holding P R)
    (hk : ∀ a, (k a).Meets D atEnd between (R a) Q) : (p.bind k).Meets D atEnd holding P Q := by
  induction p generalizing holding P with
  | done a =>
    obtain ⟨rfl, hR⟩ := hp
    exact (hk a).mono hR
  | act effect next ih =>
    intro s hs
    obtain ⟨hguar, P', hP', hstable, hnext⟩ := hp s hs
    exact ⟨hguar, P', hP', hstable, ih s hnext⟩
  | lock granted timedOut ihg iht => exact ⟨hp.1, ihg hp.2.1, iht hp.2.2⟩
  | unlock next ih =>
    obtain ⟨hheld, P', hP, hstable, hnext⟩ := hp
    exact ⟨hheld, P', hP, hstable, ih hnext⟩

/-- The rule of a locked section: what it has established must be stable without the lock. -/
theorem Meets.locked {body unavailable : Program σ α} (hstable : ∀ a, D.Stable false (Q a))
    (hbody : body.Meets D true true P Q) (hunavailable : unavailable.Meets D false false P Q) :
    (Program.locked body unavailable).Meets D false false P Q := by
  refine ⟨rfl, hbody.bind fun a => ?_, hunavailable⟩
  exact ⟨rfl, Q a, fun s hs => hs, hstable a, rfl, fun s hs => hs⟩

end Program

/-! ### Pools -/

/-- Programs that run at once, and which of them holds the lock. -/
structure Pool (σ : Type u) (α : Type v) where
  shared : σ
  holder : Option Nat
  threads : List (Program σ α)

/-- A step: a new program, or an access of one, with the answer of the lock if it asks for it. -/
inductive PoolAction (σ : Type u) (α : Type v)
  | spawn (p : Program σ α)
  | advance (i : Nat) (granted : Bool)

namespace Pool

variable {σ : Type u} {α : Type v}

/-- An access of one program. The lock is granted only while nobody holds it. -/
def advance (s : Pool σ α) (i : Nat) (granted : Bool) : Option (Pool σ α) :=
  match s.threads[i]? with
  | some (.act effect next) =>
    some { s with shared := effect s.shared, threads := s.threads.set i (next s.shared) }
  | some (.lock p q) =>
    if granted then
      if s.holder = none then some { s with holder := some i, threads := s.threads.set i p } else none
    else
      some { s with threads := s.threads.set i q }
  | some (.unlock next) =>
    if s.holder = some i then some { s with holder := none, threads := s.threads.set i next } else none
  | _ => none

def next (s : Pool σ α) : PoolAction σ α → Option (Pool σ α)
  | .spawn p => some { s with threads := s.threads ++ [p] }
  | .advance i granted => s.advance i granted

end Pool

/-- All interleavings of programs. -/
def poolMachine (σ : Type u) (α : Type v) : Machine (Pool σ α) (PoolAction σ α) := ⟨Pool.next⟩

namespace Pool

variable {σ : Type u} {α : Type v} {D : Program.Discipline σ}

/-- Whether thread `i` holds the lock. -/
def holds (s : Pool σ α) (i : Nat) : Bool := s.holder = some i

/-- Each program of the pool meets its postcondition from where it stands. -/
def Meets (D : Program.Discipline σ) (s : Pool σ α) (Q : Nat → α → σ → Prop) : Prop :=
  ∀ i p, s.threads[i]? = some p →
    ∃ P : σ → Prop, P s.shared ∧ D.Stable (s.holds i) P ∧ p.Meets D false (s.holds i) P (Q i)

/-- The programs that may be started. -/
def Spawns (ok : Program σ α → Prop) : Pool σ α → PoolAction σ α → Prop
  | _, .spawn p => ok p
  | _, .advance _ _ => True

/-- The threads after one of them has moved, each with what is known of it. -/
theorem Meets.set {s s' : Pool σ α} {Q : Nat → α → σ → Prop} {i : Nat} {p : Program σ α}
    (hthreads : s'.threads = s.threads.set i p)
    (hself : ∃ P : σ → Prop, P s'.shared ∧ D.Stable (s'.holds i) P ∧ p.Meets D false (s'.holds i) P (Q i))
    (hother : ∀ j q, j ≠ i → s.threads[j]? = some q →
      ∃ P : σ → Prop, P s'.shared ∧ D.Stable (s'.holds j) P ∧ q.Meets D false (s'.holds j) P (Q j)) :
    s'.Meets D Q := by
  intro j q hq
  rw [hthreads, List.getElem?_set] at hq
  split at hq
  · next hij =>
    split at hq
    · rw [← hij, ← Option.some.inj hq]
      exact hself
    · cases hq
  · next hij => exact hother j q (Ne.symm hij) hq

/-- **The rule of composition**, for one access: every program still meets its postcondition, and the
shared state moves within the discipline. -/
theorem Meets.advance {s s' : Pool σ α} {Q : Nat → α → σ → Prop} (h : s.Meets D Q) {i : Nat}
    {granted : Bool} (hnext : s.advance i granted = some s') :
    s'.Meets D Q ∧ (s'.shared = s.shared ∨ D.guar (s.holds i) s.shared s'.shared) := by
  unfold Pool.advance at hnext
  split at hnext
  · next effect next hi =>
    cases hnext
    obtain ⟨P, hP, -, hmeets⟩ := h i _ hi
    obtain ⟨hguar, P', hP', hstable, hnext⟩ := hmeets s.shared hP
    refine ⟨Meets.set rfl ⟨P', hP', hstable, hnext⟩ fun j q hj hq => ?_, Or.inr hguar⟩
    obtain ⟨R, hR, hstableR, hmeetsR⟩ := h j q hq
    refine ⟨R, hstableR s.shared _ ?_ hR, hstableR, hmeetsR⟩
    cases hholds : s.holds i with
    | false =>
      rw [hholds] at hguar
      exact Or.inl hguar
    | true =>
      -- the lock is held by `i`, so not by `j`
      rw [hholds] at hguar
      refine Or.inr ⟨decide_eq_false fun hj' => hj ?_, hguar⟩
      have hi' : s.holder = some i := of_decide_eq_true hholds
      exact Option.some.inj (hj'.symm.trans hi')
  · next p q hi =>
    obtain ⟨P, hP, hstable, hholds, hgranted, htimedOut⟩ := h i _ hi
    split at hnext
    · split at hnext
      · next hnone =>
        cases hnext
        have hself : ({ s with holder := some i, threads := s.threads.set i p } : Pool σ α).holds i =
            true := decide_eq_true rfl
        refine ⟨Meets.set rfl ⟨P, hP, ?_, ?_⟩ fun j q hj hq => ?_, Or.inl rfl⟩
        · rw [hself]
          rw [hholds] at hstable
          exact hstable.of_free
        · rw [hself]
          exact hgranted
        · have hsame : ({ s with holder := some i, threads := s.threads.set i p } : Pool σ α).holds j =
              s.holds j := by
            unfold Pool.holds
            simp [hnone, Ne.symm hj]
          rw [hsame]
          exact h j q hq
      · cases hnext
    · cases hnext
      refine ⟨Meets.set rfl ⟨P, hP, hstable, ?_⟩ fun j q hj hq => h j q hq, Or.inl rfl⟩
      show q.Meets D false (s.holds i) P (Q i)
      rw [hholds]
      exact htimedOut
  · next next hi =>
    obtain ⟨P, hP, hstable, hholds, P', hPP', hstable', hmeets⟩ := h i _ hi
    split at hnext
    · next hholder =>
      cases hnext
      refine ⟨Meets.set rfl ⟨P', hPP' _ hP, hstable', hmeets⟩ fun j q hj hq => ?_, Or.inl rfl⟩
      have hsame : s.holds j = false := by
        unfold Pool.holds
        simp [hholder, Ne.symm hj]
      have hj' := h j q hq
      rw [hsame] at hj'
      exact hj'
    · cases hnext
  · cases hnext

/-- A program that is started meets its postcondition if it does from any state of the pool. -/
theorem Meets.spawn {s : Pool σ α} {Q : Nat → α → σ → Prop} (h : s.Meets D Q) {p : Program σ α}
    {P : σ → Prop} (hP : P s.shared) (hstable : D.Stable false P)
    (hfree : s.holds s.threads.length = false)
    (hp : p.Meets D false false P (Q s.threads.length)) :
    Meets D ({ s with threads := s.threads ++ [p] } : Pool σ α) Q := by
  intro j q hq
  rw [List.getElem?_append] at hq
  split at hq
  · exact h j q hq
  · next hge =>
    rw [List.getElem?_singleton] at hq
    split at hq
    · next hzero =>
      have hj : j = s.threads.length := by omega
      cases hq
      subst hj
      show ∃ P : σ → Prop, P s.shared ∧ D.Stable (s.holds s.threads.length) P ∧
        p.Meets D false (s.holds s.threads.length) P (Q s.threads.length)
      rw [hfree]
      exact ⟨P, hP, hstable, hp⟩
    · cases hq

/-- The lock is held by one of the threads, if by any. -/
def InRange (s : Pool σ α) : Prop := ∀ i, s.holder = some i → i < s.threads.length

theorem InRange.next {s s' : Pool σ α} (h : s.InRange) {action : PoolAction σ α}
    (hnext : s.next action = some s') : s'.InRange ∧ s.threads.length ≤ s'.threads.length := by
  cases action with
  | spawn p =>
    cases hnext
    refine ⟨fun i hi => ?_, ?_⟩
    · exact Nat.lt_of_lt_of_le (h i hi) (by simp)
    · simp
  | advance i granted =>
    have hnext : s.advance i granted = some s' := hnext
    have hin : ∀ p, s.threads[i]? = some p → i < s.threads.length := fun p hp =>
      (List.getElem?_eq_some_iff.mp hp).1
    unfold Pool.advance at hnext
    split at hnext
    · cases hnext
      exact ⟨fun j hj => by rw [List.length_set]; exact h j hj, by simp⟩
    · next hi =>
      split at hnext
      · split at hnext
        · cases hnext
          refine ⟨fun j hj => ?_, by simp⟩
          rw [List.length_set, ← Option.some.inj hj]
          exact hin _ hi
        · cases hnext
      · cases hnext
        exact ⟨fun j hj => by rw [List.length_set]; exact h j hj, by simp⟩
    · split at hnext
      · cases hnext
        exact ⟨fun j hj => (by cases hj), by simp⟩
      · cases hnext
    · cases hnext

/-- What no access of a disciplined program can undo. -/
theorem stable_of_guar {P : σ → Prop} (hstable : D.Stable false P) {s s' : σ} {holding : Bool}
    (h : s' = s ∨ D.guar holding s s') (hP : P s) : P s' := by
  rcases h with rfl | hguar
  · exact hP
  · cases holding with
    | false => exact hstable s s' (Or.inl hguar) hP
    | true => exact hstable s s' (Or.inr ⟨rfl, hguar⟩) hP

/-- **The rule of composition**, for a run: the programs of the pool meet what they met before, those
that are started meanwhile meet what they meet alone, and what is stable stays. -/
theorem Meets.reach {s s' : Pool σ α} {Q : Nat → α → σ → Prop} {ok : Program σ α → Prop}
    (h : s.Meets D Q) (hrange : s.InRange)
    (hspawn : ∀ p, ok p → ∀ j, s.threads.length ≤ j → p.Meets D false false (fun _ => True) (Q j))
    (hreach : (poolMachine σ α).Reach (Spawns ok) s s') :
    s'.Meets D Q ∧ s'.InRange ∧ s.threads.length ≤ s'.threads.length ∧
      ∀ P : σ → Prop, D.Stable false P → P s.shared → P s'.shared := by
  induction hreach with
  | refl => exact ⟨h, hrange, Nat.le_refl _, fun P _ hP => hP⟩
  | @tail t t' action _ hok hnext ih =>
    obtain ⟨hmeets, hin, hle, hkept⟩ := ih
    obtain ⟨hin', hle'⟩ := hin.next hnext
    cases action with
    | spawn p =>
      have hfree : t.holds t.threads.length = false :=
        decide_eq_false fun hholder => Nat.lt_irrefl _ (hin _ hholder)
      have hspawned := hmeets.spawn (P := fun _ => True) trivial (fun _ _ _ _ => trivial) hfree
        (hspawn p hok t.threads.length hle)
      cases hnext
      exact ⟨hspawned, hin', Nat.le_trans hle hle', hkept⟩
    | advance i granted =>
      obtain ⟨hmeets', hguar⟩ := hmeets.advance hnext
      refine ⟨hmeets', hin', Nat.le_trans hle hle', fun P hstable hP => ?_⟩
      exact stable_of_guar hstable hguar (hkept P hstable hP)

/-- **The results.** A program that has ended has met its postcondition, and it still holds. -/
theorem Meets.result {s : Pool σ α} {Q : Nat → α → σ → Prop} (h : s.Meets D Q) {i : Nat} {a : α}
    (hi : s.threads[i]? = some (.done a)) : Q i a s.shared := by
  obtain ⟨P, hP, -, -, hQ⟩ := h i _ hi
  exact hQ _ hP

end Pool

end Drift.Lib
