import Drift.Lib.Processes
import Drift.Node.ModelManager

/-!
# What a step of the model manager can do

`CallStep s a c s' c'` lists the ways in which a call `c` can go on: each constructor is one path
through one section, with what the section has found and the state it leaves. Every invariant of the
manager is proved by cases on it.

* `callStep_cases` — a step of a call is one of these;
* `managerNext_cases` — a step of the manager is one of `ManagerStep`;
* `Orderly` — what holds of the calls of every manager: they are about registered models, and at most
  one shutdown is under way.
-/

namespace Drift.Node

open Drift.Lib

variable {maxLoadedModels : Option Nat} {casefold : String → String}

namespace ManagerState

variable (s : ManagerState) (model : String)

@[simp] theorem put_record (r : ModelRecord) :
    (s.put model r).record = Function.update s.record model r := rfl
@[simp] theorem put_models (r : ModelRecord) : (s.put model r).models = s.models := rfl
@[simp] theorem put_closed (r : ModelRecord) : (s.put model r).closed = s.closed := rfl
@[simp] theorem put_calls (r : ModelRecord) : (s.put model r).calls = s.calls := rfl
@[simp] theorem put_leases (r : ModelRecord) : (s.put model r).leases = s.leases := rfl
@[simp] theorem put_loadedFor (r : ModelRecord) : (s.put model r).loadedFor = s.loadedFor := rfl
@[simp] theorem put_closeCalled (r : ModelRecord) : (s.put model r).closeCalled = s.closeCalled := rfl
@[simp] theorem put_closeReturned (r : ModelRecord) :
    (s.put model r).closeReturned = s.closeReturned := rfl

@[simp] theorem startClose_record (x : Nat) : (s.startClose x).record = s.record := rfl
@[simp] theorem startClose_models (x : Nat) : (s.startClose x).models = s.models := rfl
@[simp] theorem startClose_closed (x : Nat) : (s.startClose x).closed = s.closed := rfl
@[simp] theorem startClose_calls (x : Nat) : (s.startClose x).calls = s.calls := rfl
@[simp] theorem startClose_leases (x : Nat) : (s.startClose x).leases = s.leases := rfl
@[simp] theorem startClose_loadedFor (x : Nat) : (s.startClose x).loadedFor = s.loadedFor := rfl
@[simp] theorem startClose_closeCalled (x : Nat) :
    (s.startClose x).closeCalled = s.closeCalled ++ [x] := rfl
@[simp] theorem startClose_closeReturned (x : Nat) :
    (s.startClose x).closeReturned = s.closeReturned := rfl

/-- The return of a closer changes only the history. -/
theorem endClose_eq (x : Nat) (succeeds : Bool) :
    s.endClose x succeeds =
      { s with closeReturned := s.closeReturned ++ if succeeds then [x] else [] } := by
  cases succeeds
  · simp [endClose]
  · rfl

@[simp] theorem endClose_record (x : Nat) (b : Bool) : (s.endClose x b).record = s.record := by
  rw [endClose_eq]
@[simp] theorem endClose_models (x : Nat) (b : Bool) : (s.endClose x b).models = s.models := by
  rw [endClose_eq]
@[simp] theorem endClose_closed (x : Nat) (b : Bool) : (s.endClose x b).closed = s.closed := by
  rw [endClose_eq]
@[simp] theorem endClose_calls (x : Nat) (b : Bool) : (s.endClose x b).calls = s.calls := by
  rw [endClose_eq]
@[simp] theorem endClose_leases (x : Nat) (b : Bool) : (s.endClose x b).leases = s.leases := by
  rw [endClose_eq]
@[simp] theorem endClose_loadedFor (x : Nat) (b : Bool) :
    (s.endClose x b).loadedFor = s.loadedFor := by
  rw [endClose_eq]
@[simp] theorem endClose_closeCalled (x : Nat) (b : Bool) :
    (s.endClose x b).closeCalled = s.closeCalled := by
  rw [endClose_eq]
@[simp] theorem endClose_closeReturned (x : Nat) (b : Bool) :
    (s.endClose x b).closeReturned = s.closeReturned ++ if b then [x] else [] := by
  rw [endClose_eq]

/-- Off the record that is put, nothing changes. -/
theorem put_record_ne (r : ModelRecord) {m : String} (hm : m ≠ model) :
    (s.put model r).record m = s.record m := by
  rw [put_record, Function.update_of_ne hm]

@[simp] theorem put_record_self (r : ModelRecord) : (s.put model r).record model = r := by
  rw [put_record, Function.update_self]

/-- A lock is taken and released without a look at the runtime. -/
@[simp] theorem setLock_runtime (held : Bool) (m : String) :
    ((s.setLock model held).record m).runtime = (s.record m).runtime := by
  by_cases hm : m = model
  · subst hm
    rw [setLock, put_record_self]
  · rw [setLock, put_record_ne s model _ hm]

theorem afterClose_record_ne (x : Nat) (b : Bool) {m : String} (hm : m ≠ model) :
    (s.afterClose model x b).record m = s.record m := by
  cases b
  · simp only [afterClose, Bool.false_eq_true, if_false, endClose_record]
    exact put_record_ne s model _ hm
  · simp only [afterClose, if_true, endClose_record]
    exact put_record_ne s model _ hm

@[simp] theorem lease_leases (x : Nat) (now : Int) :
    (s.lease model x now).leases = s.leases ++ [⟨model, x, .outstanding⟩] := rfl

end ManagerState

open ManagerState

/-- The paths of a step of a call. -/
inductive CallStep (maxLoadedModels : Option Nat) (s : ManagerState) (a : Answer) :
    Call → ManagerState → Call → Prop
  | loadRaises {m : String} : CallStep maxLoadedModels s a (.load m) s .ended
  | loadLeases {m : String} {x : Nat} (hlock : (s.record m).loadLock = false)
      (hopen : s.closed = false) (hruntime : (s.record m).runtime = some x) :
      CallStep maxLoadedModels s a (.load m) (s.lease m x a.now) .ended
  | loadReserves {m : String} (hlock : (s.record m).loadLock = false) (hopen : s.closed = false)
      (hruntime : (s.record m).runtime = none) :
      CallStep maxLoadedModels s a (.load m) (s.setLock m true) (.reserving m)
  | reserveRaises {m : String} :
      CallStep maxLoadedModels s a (.reserving m) (s.setLock m false) .ended
  | reserveLoads {m : String} (hopen : s.closed = false) (hroom : s.hasRoom maxLoadedModels = true) :
      CallStep maxLoadedModels s a (.reserving m) (s.put m { s.record m with state := .loading })
        (.loading m)
  | reserveEvicts {m candidate : String} {x : Nat} (hopen : s.closed = false)
      (hidle : candidate ∈ s.idle m) (hruntime : (s.record candidate).runtime = some x) :
      CallStep maxLoadedModels s a (.reserving m) (s.take candidate x) (.evicting m candidate x)
  | evictionSucceeds {m candidate : String} {x : Nat} :
      CallStep maxLoadedModels s a (.evicting m candidate x) (s.afterClose candidate x true)
        (.reserving m)
  | evictionFails {m candidate : String} {x : Nat} (hfails : a.succeeds = false) :
      CallStep maxLoadedModels s a (.evicting m candidate x)
        ((s.afterClose candidate x false).setLock m false) .ended
  | publishes {m : String} (hopen : s.closed = false) :
      CallStep maxLoadedModels s a (.loading m) (publish s m a.now).1 .ended
  | publishesLate {m : String} (hclosed : s.closed = true) :
      CallStep maxLoadedModels s a (.loading m) (publish s m a.now).1
        (.closingNew m s.loadedFor.length)
  | loaderFails {m : String} : CallStep maxLoadedModels s a (.loading m) (loaderFailed s m).1 .ended
  | closesNew {m : String} {x : Nat} :
      CallStep maxLoadedModels s a (.closingNew m x) ((s.endClose x a.succeeds).setLock m false) .ended
  | unloadRaises {m : String} : CallStep maxLoadedModels s a (.unload m) s .ended
  | unloadTakes {m : String} {x : Nat} (hlock : (s.record m).loadLock = false)
      (hopen : s.closed = false) (hidle : (s.record m).activeRequests = 0)
      (hruntime : (s.record m).runtime = some x) :
      CallStep maxLoadedModels s a (.unload m) ((s.take m x).setLock m true) (.unloading m x)
  | unloadEnds {m : String} {x : Nat} :
      CallStep maxLoadedModels s a (.unloading m x)
        ((s.afterClose m x a.succeeds).setLock m false) .ended
  | shutdownAgain (hclosed : s.closed = true) : CallStep maxLoadedModels s a .shutdown s .ended
  | shutdownCloses (hopen : s.closed = false) :
      CallStep maxLoadedModels s a .shutdown (shutdownEntry s).1 (.shutdownLoop s.models)
  | shutdownEnds : CallStep maxLoadedModels s a (.shutdownLoop []) s .ended
  | shutdownReads {m : String} {rest : List String} (hlock : (s.record m).loadLock = false) :
      CallStep maxLoadedModels s a (.shutdownLoop (m :: rest)) (s.setLock m true)
        (.clearing m (s.record m).runtime rest)
  | clearsNothing {m : String} {rest : List String} :
      CallStep maxLoadedModels s a (.clearing m none rest)
        ((s.put m { s.record m with runtime := none }).setLock m false) (.shutdownLoop rest)
  | clears {m : String} {x : Nat} {rest : List String} :
      CallStep maxLoadedModels s a (.clearing m (some x) rest)
        ((s.put m { s.record m with runtime := none }).startClose x) (.shutdownClosing m x rest)
  | shutdownEndsClose {m : String} {x : Nat} {rest : List String} :
      CallStep maxLoadedModels s a (.shutdownClosing m x rest)
        ((s.endClose x a.succeeds).setLock m false) (.shutdownLoop rest)

variable {s s' : ManagerState} {a : Answer} {c c' : Call}

theorem loadEntry_cases {m : String} (h : loadEntry s m a.now = some (s', c')) :
    CallStep maxLoadedModels s a (.load m) s' c' := by
  unfold loadEntry at h
  split at h
  · cases h
  next hlock =>
  split at h
  · cases h
    exact .loadRaises
  next hopen =>
  split at h
  · next x hruntime =>
    split at h
    · cases h
      exact .loadRaises
    · cases h
      exact .loadLeases (eq_false_of_ne_true hlock) (eq_false_of_ne_true hopen) hruntime
  · next hruntime =>
    cases h
    exact .loadReserves (eq_false_of_ne_true hlock) (eq_false_of_ne_true hopen) hruntime

theorem reserveTurn_cases {m : String}
    (h : reserveTurn maxLoadedModels casefold s m = some (s', c')) :
    CallStep maxLoadedModels s a (.reserving m) s' c' := by
  unfold reserveTurn at h
  split at h
  · cases h
    exact .reserveRaises
  next hopen =>
  split at h
  · next hroom =>
    cases h
    exact .reserveLoads (eq_false_of_ne_true hopen) hroom
  split at h
  · next candidate hcandidate =>
    split at h
    · next x hruntime =>
      cases h
      exact .reserveEvicts (eq_false_of_ne_true hopen) (List.argmin_mem hcandidate) hruntime
    · cases h
  · split at h
    · cases h
      exact .reserveRaises
    · cases h

theorem unloadEntry_cases {m : String} (h : unloadEntry s m = some (s', c')) :
    CallStep maxLoadedModels s a (.unload m) s' c' := by
  unfold unloadEntry at h
  split at h
  · cases h
  next hlock =>
  split at h
  · cases h
    exact .unloadRaises
  next hrefuse =>
  simp only [Bool.or_eq_true, bne_iff_ne, not_or, not_not, ne_eq] at hrefuse
  split at h
  · cases h
    exact .unloadRaises
  · next x hruntime =>
    cases h
    exact .unloadTakes (eq_false_of_ne_true hlock) (eq_false_of_ne_true hrefuse.1.1) hrefuse.1.2
      hruntime

/-- **A step of a call** is one of the paths. -/
theorem callStep_cases (h : callStep maxLoadedModels casefold s a c = some (s', c')) :
    CallStep maxLoadedModels s a c s' c' := by
  cases c with
  | load m => exact loadEntry_cases h
  | reserving m => exact reserveTurn_cases h
  | evicting m candidate x =>
    simp only [callStep, evictionEnd] at h
    split at h
    · cases h
      exact .evictionSucceeds
    · next hfails =>
      cases h
      exact .evictionFails (eq_false_of_ne_true hfails)
  | loading m =>
    simp only [callStep] at h
    split at h
    · cases hclosed : s.closed with
      | true =>
        have hpublish : publish s m a.now = ((publish s m a.now).1, .closingNew m s.loadedFor.length) := by
          simp only [publish, hclosed, if_true]
        rw [hpublish] at h
        cases h
        exact .publishesLate hclosed
      | false =>
        have hpublish : publish s m a.now = ((publish s m a.now).1, .ended) := by
          simp only [publish, hclosed, Bool.false_eq_true, if_false]
        rw [hpublish] at h
        cases h
        exact .publishes hclosed
    · cases h
      exact .loaderFails
  | closingNew m x =>
    cases h
    exact .closesNew
  | unload m => exact unloadEntry_cases h
  | unloading m x =>
    cases h
    exact .unloadEnds
  | shutdown =>
    simp only [callStep, shutdownEntry] at h
    split at h
    · next hclosed =>
      cases h
      exact .shutdownAgain hclosed
    · next hopen =>
      cases h
      have hentry : CallStep maxLoadedModels s a .shutdown (shutdownEntry s).1
          (.shutdownLoop s.models) := .shutdownCloses (eq_false_of_ne_true hopen)
      simp only [shutdownEntry, if_neg hopen] at hentry
      exact hentry
  | shutdownLoop rest =>
    cases rest with
    | nil =>
      cases h
      exact .shutdownEnds
    | cons m rest =>
      simp only [callStep, shutdownTurn] at h
      split at h
      · cases h
      · next hlock =>
        cases h
        exact .shutdownReads (eq_false_of_ne_true hlock)
  | clearing m read rest =>
    cases read with
    | none =>
      cases h
      exact .clearsNothing
    | some x =>
      cases h
      exact .clears
  | shutdownClosing m x rest =>
    cases h
    exact .shutdownEndsClose
  | ended => cases h

/-- **A step of the manager** that advances a call. -/
theorem advance_cases {i : Nat}
    (h : managerNext maxLoadedModels casefold s (.advance i a) = some s') :
    ∃ c s₁ c', s.calls[i]? = some c ∧ CallStep maxLoadedModels s a c s₁ c' ∧
      s' = { s₁ with calls := s.calls.set i c' } := by
  simp only [managerNext] at h
  split at h
  · cases h
  next c hc =>
  split at h
  · cases h
  next s₁ c' hstep =>
  cases h
  exact ⟨c, s₁, c', hc, callStep_cases hstep, rfl⟩

/-- A call starts with its first section before it. -/
theorem startCall_cases {m : String} (h : startCall s m c = some s') :
    m ∈ s.models ∧ s.closed = false ∧ s' = { s with calls := s.calls ++ [c] } := by
  unfold startCall at h
  split at h
  · cases h
  · next hrefuse =>
    simp only [Bool.or_eq_true, decide_eq_true_eq, not_or, not_not] at hrefuse
    cases h
    exact ⟨hrefuse.2, eq_false_of_ne_true hrefuse.1, rfl⟩

/-- The release of a lease touches nothing but the lease and the counter of its record. -/
theorem release_cases {k : Nat} {now : Int}
    (h : managerNext maxLoadedModels casefold s (.releaseLease k now) = some s') :
    ∃ m x, s.leases[k]? = some ⟨m, x, .returning⟩ ∧
      s' = { s.releaseLease m now with leases := s.leases.set k ⟨m, x, .released⟩ } := by
  simp only [managerNext] at h
  split at h
  · next m x hlease =>
    cases h
    exact ⟨m, x, hlease, rfl⟩
  · cases h

theorem return_cases {k : Nat}
    (h : managerNext maxLoadedModels casefold s (.returnLease k) = some s') :
    ∃ m x, s.leases[k]? = some ⟨m, x, .outstanding⟩ ∧
      s' = { s with leases := s.leases.set k ⟨m, x, .returning⟩ } := by
  simp only [managerNext] at h
  split at h
  · next m x hlease =>
    cases h
    exact ⟨m, x, hlease, rfl⟩
  · cases h

/-! ### Calls and records -/

/-- The record whose runtime a call is loading or closing. -/
def Call.target : Call → Option String
  | .evicting _ candidate _ => some candidate
  | .loading model => some model
  | .closingNew model _ => some model
  | .unloading model _ => some model
  | .shutdownClosing model _ _ => some model
  | _ => none

/-- The call is a shutdown that has closed the manager. -/
def Call.shuttingDown : Call → Bool
  | .shutdownLoop _ => true
  | .clearing _ _ _ => true
  | .shutdownClosing _ _ _ => true
  | _ => false

/-- The records a call is about. -/
def Call.names : Call → List String
  | .load model => [model]
  | .reserving model => [model]
  | .evicting model candidate _ => [model, candidate]
  | .loading model => [model]
  | .closingNew model _ => [model]
  | .unload model => [model]
  | .unloading model _ => [model]
  | .shutdown => []
  | .shutdownLoop rest => rest
  | .clearing model _ rest => model :: rest
  | .shutdownClosing model _ rest => model :: rest
  | .ended => []

theorem Call.target_mem_names {c : Call} {m : String} (h : c.target = some m) : m ∈ c.names := by
  cases c <;> simp_all [Call.target, Call.names]

/-- A step of a call leaves the registrations and the other calls alone, and stays among the
registered records. -/
theorem CallStep.registered (h : CallStep maxLoadedModels s a c s' c')
    (hnames : ∀ m ∈ c.names, m ∈ s.models) :
    s'.models = s.models ∧ s'.calls = s.calls ∧ ∀ m ∈ c'.names, m ∈ s.models := by
  cases h with
  | @reserveEvicts k candidate x hopen hidle hruntime =>
    refine ⟨rfl, rfl, fun m hm => ?_⟩
    rcases List.mem_cons.mp hm with rfl | hm
    · exact hnames _ (List.mem_singleton.mpr rfl)
    · rw [List.mem_singleton.mp hm]
      exact List.mem_of_mem_filter hidle
  | shutdownCloses hopen =>
    have hentry : (shutdownEntry s).1.models = s.models ∧ (shutdownEntry s).1.calls = s.calls := by
      unfold shutdownEntry
      simp [hopen]
    exact ⟨hentry.1, hentry.2, fun m hm => hm⟩
  | publishes hopen =>
    refine ⟨?_, ?_, fun m hm => absurd hm List.not_mem_nil⟩ <;> (unfold publish; simp [hopen]; rfl)
  | publishesLate hclosed =>
    refine ⟨?_, ?_, hnames⟩ <;> (unfold publish; simp [hclosed])
  | loaderFails => exact ⟨rfl, rfl, fun m hm => absurd hm List.not_mem_nil⟩
  | evictionSucceeds =>
    refine ⟨by simp [afterClose], by simp [afterClose], fun m hm => hnames m ?_⟩
    exact List.mem_cons.mpr (Or.inl (List.mem_singleton.mp hm))
  | evictionFails =>
    refine ⟨by simp [afterClose, setLock], by simp [afterClose, setLock], ?_⟩
    exact fun m hm => absurd hm List.not_mem_nil
  | @unloadEnds k x =>
    refine ⟨?_, ?_, fun m hm => absurd hm List.not_mem_nil⟩ <;>
      (cases a.succeeds <;> simp [afterClose, setLock])
  | closesNew => exact ⟨by simp [setLock], by simp [setLock], fun m hm => absurd hm List.not_mem_nil⟩
  | shutdownEndsClose =>
    exact ⟨by simp [setLock], by simp [setLock], fun m hm => hnames m (List.mem_cons_of_mem _ hm)⟩
  | clearsNothing => exact ⟨rfl, rfl, fun m hm => hnames m (List.mem_cons_of_mem _ hm)⟩
  | _ => first
    | exact ⟨rfl, rfl, hnames⟩
    | exact ⟨rfl, rfl, fun m hm => absurd hm List.not_mem_nil⟩

/-- The manager is closed by a shutdown and stays closed. -/
theorem CallStep.closed_iff (h : CallStep maxLoadedModels s a c s' c') :
    s'.closed = true ↔ s.closed = true ∨ c = .shutdown := by
  cases h with
  | shutdownCloses hopen => exact iff_of_true (by simp [shutdownEntry, hopen]) (Or.inr rfl)
  | shutdownAgain hclosed => exact iff_of_true hclosed (Or.inr rfl)
  | publishes hopen => simp [publish, hopen, setLock, lease]
  | publishesLate hclosed => simp [publish, hclosed]
  | evictionSucceeds => simp [afterClose]
  | evictionFails => simp [afterClose, setLock]
  | unloadEnds => cases a.succeeds <;> simp [afterClose, setLock]
  | _ => simp [setLock, lease, take, loaderFailed]

/-- The shutdown that goes on is the one that has closed the manager. -/
theorem CallStep.shuttingDown (h : CallStep maxLoadedModels s a c s' c')
    (hshut : c'.shuttingDown = true) :
    c.shuttingDown = true ∨ (c = .shutdown ∧ s.closed = false) := by
  cases h with
  | shutdownCloses hopen => exact Or.inr ⟨rfl, hopen⟩
  | shutdownReads => exact Or.inl rfl
  | clearsNothing => exact Or.inl rfl
  | clears => exact Or.inl rfl
  | shutdownEndsClose => exact Or.inl rfl
  | _ => cases hshut

/-- What holds of the calls of every manager. -/
structure Orderly (s : ManagerState) : Prop where
  nodup : s.models.Nodup
  names : ∀ c ∈ s.calls, ∀ m ∈ c.names, m ∈ s.models
  /-- At most one shutdown is under way, and only once the manager is closed. -/
  shutting : s.calls.countP Call.shuttingDown ≤ if s.closed then 1 else 0

/-- A shutdown under way has closed the manager. -/
theorem Orderly.closed_of_shuttingDown (hs : Orderly s) (hc : c ∈ s.calls)
    (hdown : c.shuttingDown = true) : s.closed = true := by
  have hpos : 0 < s.calls.countP Call.shuttingDown := List.countP_pos_iff.mpr ⟨c, hc, hdown⟩
  have hle := hs.shutting
  by_contra hopen
  rw [if_neg hopen] at hle
  omega

/-- There is no second shutdown under way. -/
theorem Orderly.not_shuttingDown (hs : Orderly s) {i j : Nat} {d : Call} (hij : j ≠ i)
    (hc : s.calls[i]? = some c) (hd : s.calls[j]? = some d) (hdown : d.shuttingDown = true) :
    c.shuttingDown = false := by
  by_contra hboth
  have htwo : 2 ≤ s.calls.countP Call.shuttingDown :=
    two_le_countP hij hd hc hdown (eq_true_of_ne_false hboth)
  have hle := hs.shutting
  split at hle <;> omega

/-- A step of a call keeps the calls in order. -/
theorem Orderly.advance {i : Nat} (hs : Orderly s) (hc : s.calls[i]? = some c)
    (hstep : CallStep maxLoadedModels s a c s' c') :
    Orderly { s' with calls := s.calls.set i c' } := by
  have hmem : c ∈ s.calls := List.mem_of_getElem? hc
  obtain ⟨hmodels, -, hnames⟩ := hstep.registered (hs.names c hmem)
  refine ⟨?_, ?_, ?_⟩
  · show s'.models.Nodup
    rw [hmodels]
    exact hs.nodup
  · show ∀ d ∈ s.calls.set i c', ∀ m ∈ d.names, m ∈ s'.models
    rw [hmodels]
    exact forall_mem_set hnames hs.names
  · show (s.calls.set i c').countP Call.shuttingDown ≤ if s'.closed then 1 else 0
    have hcount := countP_set_add (b := c') Call.shuttingDown hc
    have hle := hs.shutting
    rcases Bool.eq_false_or_eq_true c'.shuttingDown with hdown | hdown
    · rw [hdown, if_pos rfl] at hcount
      rcases hstep.shuttingDown hdown with hdown | ⟨rfl, hopen⟩
      · -- the shutdown under way goes on
        have hclosed := hs.closed_of_shuttingDown hmem hdown
        rw [hdown, if_pos rfl] at hcount
        rw [if_pos hclosed] at hle
        rw [if_pos (hstep.closed_iff.mpr (Or.inl hclosed))]
        omega
      · -- the manager is closed now, and no shutdown was under way
        rw [if_neg (ne_true_of_eq_false hopen)] at hle
        rw [if_pos (hstep.closed_iff.mpr (Or.inr rfl))]
        omega
    · rw [hdown, if_neg Bool.false_ne_true] at hcount
      have hstays : (if s.closed then 1 else 0) ≤ if s'.closed then 1 else 0 := by
        split
        · next hclosed => rw [if_pos (hstep.closed_iff.mpr (Or.inl hclosed))]
        · exact Nat.zero_le _
      omega

/-- A step that only starts calls on registered models keeps them in order. -/
theorem Orderly.extend (hs : Orderly s) (hmodels : s'.models = s.models) (hclosed : s'.closed = s.closed)
    {started : List Call} (hcalls : s'.calls = s.calls ++ started)
    (hstarted : ∀ c ∈ started, c.shuttingDown = false ∧ ∀ m ∈ c.names, m ∈ s.models) :
    Orderly s' := by
  refine ⟨hmodels ▸ hs.nodup, ?_, ?_⟩
  · intro c hc
    rw [hcalls] at hc
    rw [hmodels]
    rcases List.mem_append.mp hc with hc | hc
    · exact hs.names c hc
    · exact (hstarted c hc).2
  · have hnone : started.countP Call.shuttingDown = 0 := by
      rw [List.countP_eq_zero]
      intro c hc
      rw [(hstarted c hc).1]
      exact Bool.false_ne_true
    rw [hcalls, List.countP_append, hnone, hclosed]
    exact hs.shutting

/-- So does a registration. -/
theorem Orderly.register (hs : Orderly s) {model : String} (hnew : model ∉ s.models) :
    Orderly { s with
      models := s.models ++ [model], record := Function.update s.record model .fresh } := by
  refine ⟨?_, fun c hc m hm => List.mem_append_left _ (hs.names c hc m hm), hs.shutting⟩
  rw [List.nodup_append]
  refine ⟨hs.nodup, List.nodup_singleton model, fun m hm k hk hmk => ?_⟩
  exact hnew (List.mem_singleton.mp hk ▸ hmk ▸ hm)

theorem Orderly.initial : Orderly .initial where
  nodup := List.nodup_nil
  names := fun _ hc => absurd hc List.not_mem_nil
  shutting := Nat.zero_le _

/-- The calls that can start: a shutdown, or one for a registered model. -/
def Call.Starts (s : ManagerState) (c : Call) : Prop :=
  c = .shutdown ∨ ∃ m ∈ s.models, c = .load m ∨ c = .unload m

/-- A call that starts has done nothing yet. -/
theorem Call.Starts.idle (h : c.Starts s) :
    c.target = none ∧ c.shuttingDown = false ∧ ∀ m ∈ c.names, m ∈ s.models := by
  obtain rfl | ⟨m, hm, rfl | rfl⟩ := h
  · exact ⟨rfl, rfl, fun k hk => absurd hk List.not_mem_nil⟩
  · exact ⟨rfl, rfl, fun k hk => List.mem_singleton.mp hk ▸ hm⟩
  · exact ⟨rfl, rfl, fun k hk => List.mem_singleton.mp hk ▸ hm⟩

/-- The steps of the manager. -/
inductive ManagerStep (maxLoadedModels : Option Nat) (s : ManagerState) :
    ManagerAction → ManagerState → Prop
  | registers {model : String} (hnew : model ∉ s.models) :
      ManagerStep maxLoadedModels s (.register model) { s with
        models := s.models ++ [model], record := Function.update s.record model .fresh }
  | starts {action : ManagerAction} {c : Call} (hc : c.Starts s) :
      ManagerStep maxLoadedModels s action { s with calls := s.calls ++ [c] }
  | advances {i : Nat} {a : Answer} {c c' : Call} {s₁ : ManagerState} (hc : s.calls[i]? = some c)
      (hstep : CallStep maxLoadedModels s a c s₁ c') :
      ManagerStep maxLoadedModels s (.advance i a) { s₁ with calls := s.calls.set i c' }
  | returns {k : Nat} {m : String} {x : Nat} (hlease : s.leases[k]? = some ⟨m, x, .outstanding⟩) :
      ManagerStep maxLoadedModels s (.returnLease k)
        { s with leases := s.leases.set k ⟨m, x, .returning⟩ }
  | releases {k : Nat} {m : String} {x : Nat} {now : Int}
      (hlease : s.leases[k]? = some ⟨m, x, .returning⟩) :
      ManagerStep maxLoadedModels s (.releaseLease k now)
        { s.releaseLease m now with leases := s.leases.set k ⟨m, x, .released⟩ }

/-- **A step of the manager** is one of these. -/
theorem managerNext_cases {action : ManagerAction}
    (h : managerNext maxLoadedModels casefold s action = some s') :
    ManagerStep maxLoadedModels s action s' := by
  cases action with
  | register model =>
    simp only [managerNext] at h
    split at h
    · cases h
    · next hrefuse =>
      simp only [Bool.or_eq_true, decide_eq_true_eq, not_or] at hrefuse
      cases h
      exact .registers hrefuse.2
  | load model =>
    obtain ⟨hmodel, -, rfl⟩ := startCall_cases h
    exact .starts (Or.inr ⟨model, hmodel, Or.inl rfl⟩)
  | unload model =>
    obtain ⟨hmodel, -, rfl⟩ := startCall_cases h
    exact .starts (Or.inr ⟨model, hmodel, Or.inr rfl⟩)
  | shutdown =>
    cases h
    exact .starts (Or.inl rfl)
  | advance i a =>
    obtain ⟨c, s₁, c', hc, hstep, rfl⟩ := advance_cases h
    exact .advances hc hstep
  | returnLease k =>
    obtain ⟨m, x, hlease, rfl⟩ := return_cases h
    exact .returns hlease
  | releaseLease k now =>
    obtain ⟨m, x, hlease, rfl⟩ := release_cases h
    exact .releases hlease

/-- The release of a lease leaves everything but its record's counter and clock where it is. -/
theorem releaseLease_record (s : ManagerState) (model : String) (now : Int) (m : String) :
    ((s.releaseLease model now).record m).runtime = (s.record m).runtime ∧
      ((s.releaseLease model now).record m).state = (s.record m).state ∧
      ((s.releaseLease model now).record m).loadLock = (s.record m).loadLock := by
  unfold releaseLease
  split
  · rw [put_record, Function.update_apply]
    split
    · next hm => rw [hm]; exact ⟨rfl, rfl, rfl⟩
    · exact ⟨rfl, rfl, rfl⟩
  · exact ⟨rfl, rfl, rfl⟩

theorem releaseLease_eq (s : ManagerState) (model : String) (now : Int) :
    s.releaseLease model now = { s with record := (s.releaseLease model now).record } := by
  unfold releaseLease
  split <;> rfl

/-- **The step lemma.** -/
theorem Orderly.step {action : ManagerAction} (hs : Orderly s)
    (h : ManagerStep maxLoadedModels s action s') : Orderly s' := by
  cases h with
  | registers hnew => exact hs.register hnew
  | starts hc =>
    refine hs.extend rfl rfl rfl fun d hd => ?_
    rw [List.mem_singleton.mp hd]
    exact hc.idle.2
  | advances hc hstep => exact hs.advance hc hstep
  | returns hlease => exact ⟨hs.nodup, hs.names, hs.shutting⟩
  | @releases k m x now hlease =>
    rw [releaseLease_eq]
    exact ⟨hs.nodup, hs.names, hs.shutting⟩

end Drift.Node
