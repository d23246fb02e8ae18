import Mathlib.Algebra.Order.BigOperators.Group.List
import Drift.Lib.Processes
import Drift.Node.ModelSteps

/-!
# The bound on resident runtimes

A runtime exists while a record holds it, while its loader runs and while its closer runs. The manager
counts records instead: those that hold a runtime or are in the state of a load or of an unload. The
count is right as long as each record stands for at most one runtime, and that ends when a load
reserves its slot on a record that is resident already: evicted but not closed yet, or holding a
runtime whose close has failed meanwhile.

* `ReservesFree` — the condition: no slot is reserved on a resident record;
* `CallStep.occupied`, `CallStep.resident`, `CallStep.closing` — what a step of a call adds and takes;
* `WithinLimit` — the invariant; `residency_bounded` — the bound;
* `residency_exceeded` — three runtimes under a limit of two.
-/

namespace Drift.Node

open Drift.Lib ManagerState

namespace ManagerState

variable (s : ManagerState)

/-- The runtimes that exist: held by a record, being loaded, or being closed. -/
def existing : Nat :=
  s.models.countP (fun m => (s.record m).runtime.isSome) + s.calls.countP (·.target.isSome)

/-- The record holds a runtime. -/
def held (m : String) : Nat := if (s.record m).runtime.isSome then 1 else 0

/-- The record counts as resident. -/
def resident (m : String) : Nat := if s.isResident m then 1 else 0

/-- The calls that are loading or closing a runtime of the record. -/
def running (m : String) : Nat := s.calls.countP fun c => c.target = some m

end ManagerState

namespace ManagerState

variable (s : ManagerState) (m k : String)

theorem held_le_resident : s.held m ≤ s.resident m := by
  unfold held resident isResident
  cases (s.record m).runtime <;> simp

theorem held_of_some {m : String} {x : Nat} (h : (s.record m).runtime = some x) : s.held m = 1 := by
  rw [held, h]
  rfl

@[simp] theorem held_put (r : ModelRecord) :
    (s.put k r).held m = if m = k then (if r.runtime.isSome then 1 else 0) else s.held m := by
  unfold held
  rw [put_record, Function.update_apply]
  split <;> rfl

@[simp] theorem resident_put (r : ModelRecord) :
    (s.put k r).resident m =
      if m = k then
        (if r.runtime.isSome || r.state == .loading || r.state == .unloading then 1 else 0)
      else s.resident m := by
  unfold resident isResident
  rw [put_record, Function.update_apply]
  split <;> rfl

@[simp] theorem held_setLock (b : Bool) : (s.setLock k b).held m = s.held m := by
  rw [setLock, held_put]
  split
  · next h => rw [h, held]
  · rfl

@[simp] theorem resident_setLock (b : Bool) : (s.setLock k b).resident m = s.resident m := by
  rw [setLock, resident_put]
  split
  · next h => rw [h, resident, isResident]
  · rfl

@[simp] theorem held_startClose (x : Nat) : (s.startClose x).held m = s.held m := rfl
@[simp] theorem resident_startClose (x : Nat) : (s.startClose x).resident m = s.resident m := rfl

@[simp] theorem held_endClose (x : Nat) (b : Bool) : (s.endClose x b).held m = s.held m := by
  rw [endClose_eq, held, held]

@[simp] theorem resident_endClose (x : Nat) (b : Bool) :
    (s.endClose x b).resident m = s.resident m := by
  rw [endClose_eq, resident, resident, isResident, isResident]

/-- A lease changes neither. -/
@[simp] theorem held_lease (x : Nat) (now : Int) : (s.lease k x now).held m = s.held m := by
  show (s.put k _).held m = s.held m
  rw [held_put]
  split
  · next h => rw [h, held]
  · rfl

@[simp] theorem resident_lease (x : Nat) (now : Int) :
    (s.lease k x now).resident m = s.resident m := by
  show (s.put k _).resident m = s.resident m
  rw [resident_put]
  split
  · next h => rw [h, resident, isResident]
  · rfl

/-- A runtime is taken out: the record is resident without it. -/
@[simp] theorem held_take (x : Nat) : (s.take k x).held m = if m = k then 0 else s.held m := by
  rw [take, held_startClose, held_put]
  rfl

@[simp] theorem resident_take (x : Nat) :
    (s.take k x).resident m = if m = k then 1 else s.resident m := by
  rw [take, resident_startClose, resident_put]
  rfl

/-- After its closer the record is as resident as it holds a runtime. -/
theorem afterClose_counts (x : Nat) (b : Bool) :
    (s.afterClose k x b).resident k = (s.afterClose k x b).held k ∧
      (s.afterClose k x b).held k ≤ s.held k + 1 ∧
      (m ≠ k → (s.afterClose k x b).held m = s.held m ∧
        (s.afterClose k x b).resident m = s.resident m) := by
  cases b with
  | true =>
    simp only [afterClose, if_true, held_endClose, resident_endClose, held_put, resident_put]
    refine ⟨?_, ?_, fun hm => ?_⟩
    · cases (s.record k).runtime <;> rfl
    · exact Nat.le_add_right _ 1
    · simp [hm]
  | false =>
    simp only [afterClose, Bool.false_eq_true, if_false, held_endClose, resident_endClose,
      held_put, resident_put]
    refine ⟨rfl, ?_, fun hm => ?_⟩
    · exact Nat.le_add_left 1 _
    · simp [hm]

end ManagerState

/-- The call is loading or closing a runtime of the record. -/
def Call.running (c : Call) (m : String) : Nat := if c.target = some m then 1 else 0

/-- The model that a call is to reserve a slot for. -/
def Call.reserves : Call → Option String
  | .reserving model => some model
  | _ => none

/-- A load that reserves its slot does so on a record that is not resident. -/
def ReservesFree (maxLoadedModels : Option Nat) (s : ManagerState) : ManagerAction → Prop
  | .advance i _ => ∀ m ∈ s.calls[i]?.bind Call.reserves, s.closed = false →
      s.hasRoom maxLoadedModels = true → s.isResident m = false
  | _ => True

instance decidableReservesFree (maxLoadedModels : Option Nat) (s : ManagerState) :
    ∀ action, Decidable (ReservesFree maxLoadedModels s action)
  | .advance i _ => inferInstanceAs (Decidable (∀ m ∈ s.calls[i]?.bind Call.reserves,
      s.closed = false → s.hasRoom maxLoadedModels = true → s.isResident m = false))
  | .register _ | .load _ | .unload _ | .shutdown | .returnLease _ | .releaseLease _ _ => isTrue trivial

section Steps

variable {maxLoadedModels : Option Nat} {s s' : ManagerState} {a : Answer} {c c' : Call}

/-- The new runtime is held by its record, unless shutdown came first. -/
theorem publish_counts (m k : String) (now : Int) :
    (m ≠ k → (publish s k now).1.held m = s.held m ∧ (publish s k now).1.resident m = s.resident m) ∧
      (s.closed = false → (publish s k now).1.held k = 1 ∧ (publish s k now).1.resident k = 1) ∧
      (s.closed = true → (publish s k now).1.held k = s.held k) := by
  unfold publish
  cases hclosed : s.closed with
  | true =>
    refine ⟨fun hm => ?_, fun h => (by cases h), fun _ => ?_⟩
    · simp [hm, held, resident, isResident]
    · simp [held]
  | false =>
    refine ⟨fun hm => ?_, fun _ => ?_, fun h => (by cases h)⟩
    · simp only [Bool.false_eq_true, if_false, held_setLock, resident_setLock, held_lease,
        resident_lease, held_put, resident_put, if_neg hm]
      exact ⟨rfl, rfl⟩
    · simp

theorem loaderFailed_counts (m k : String) :
    (loaderFailed s k).1.held m = s.held m ∧
      (loaderFailed s k).1.resident m = if m = k then s.held m else s.resident m := by
  unfold loaderFailed
  simp only [held_setLock, resident_setLock, held_put, resident_put]
  constructor
  · split
    · next h => rw [h, held]
    · rfl
  · split
    · next h =>
      rw [h, held]
      cases s.closed <;> simp
    · rfl

/-- **What a step adds to a record** before shutdown: a runtime more than it had only where a slot
was reserved, and the record is resident then. -/
theorem CallStep.occupied (h : CallStep maxLoadedModels s a c s' c') (hopen : s'.closed = false)
    (hfree : ∀ m, c = .reserving m → s.closed = false → s.hasRoom maxLoadedModels = true →
      s.isResident m = false) (hshut : c.shuttingDown = true → s.closed = true)
    (others : Nat) {m : String} (hoccupied : s.held m + c.running m + others ≤ s.resident m) :
    s'.held m + c'.running m + others ≤ s'.resident m := by
  have hheld := s.held_le_resident m
  have hone : s.resident m ≤ 1 := by unfold resident; split <;> omega
  cases h with
  | loadRaises => exact hoccupied
  | loadLeases => simpa [Call.running, Call.target] using hoccupied
  | loadReserves => simpa [Call.running, Call.target] using hoccupied
  | reserveRaises => simpa [Call.running, Call.target] using hoccupied
  | @reserveLoads k hclosed hroom =>
    simp only [held_put, resident_put, Call.running, Call.target, Option.some.injEq]
    by_cases hm : m = k
    · -- the record was not resident, so it had no runtime of any kind
      subst hm
      have hzero : s.resident m = 0 := by
        unfold resident
        rw [hfree m rfl hclosed hroom]
        rfl
      have hnone : (s.record m).runtime.isSome = false := by
        unfold held at hheld
        cases hsome : (s.record m).runtime.isSome with
        | false => rfl
        | true =>
          rw [hsome, if_pos rfl] at hheld
          omega
      simp only [hnone, if_true, Bool.false_eq_true, if_false]
      simp only [Bool.false_or, beq_self_eq_true, Bool.true_or, if_true]
      omega
    · simp only [if_neg hm, if_neg (Ne.symm hm)]
      simp only [Call.running, Call.target, reduceCtorEq, if_false] at hoccupied
      omega
  | @reserveEvicts k candidate x hclosed hidle hruntime =>
    simp only [held_take, resident_take, Call.running, Call.target, Option.some.injEq,
      reduceCtorEq, if_false] at hoccupied ⊢
    by_cases hm : m = candidate
    · -- what the record held is now being closed
      subst hm
      have hone' := s.held_of_some hruntime
      simp only [if_true]
      omega
    · simp only [if_neg hm, if_neg (Ne.symm hm)]
      omega
  | @evictionSucceeds k candidate x =>
    obtain ⟨hsame, hle, hother⟩ := s.afterClose_counts m candidate x true
    simp only [Call.running, Call.target, Option.some.injEq, reduceCtorEq, if_false] at hoccupied ⊢
    by_cases hm : m = candidate
    · subst hm
      simp only [if_true] at hoccupied
      omega
    · obtain ⟨hl, hr⟩ := hother hm
      simp only [if_neg (Ne.symm hm)] at hoccupied
      omega
  | @evictionFails k candidate x hfails =>
    obtain ⟨hsame, hle, hother⟩ := s.afterClose_counts m candidate x false
    simp only [held_setLock, resident_setLock, Call.running, Call.target, Option.some.injEq,
      reduceCtorEq, if_false] at hoccupied ⊢
    by_cases hm : m = candidate
    · subst hm
      simp only [if_true] at hoccupied
      omega
    · obtain ⟨hl, hr⟩ := hother hm
      simp only [if_neg (Ne.symm hm)] at hoccupied
      omega
  | @publishes k hclosed =>
    obtain ⟨hother, hpublished, -⟩ := publish_counts (s := s) m k a.now
    simp only [Call.running, Call.target, Option.some.injEq, reduceCtorEq, if_false] at hoccupied ⊢
    by_cases hm : m = k
    · subst hm
      obtain ⟨hl, hr⟩ := hpublished hclosed
      simp only [if_true] at hoccupied
      omega
    · obtain ⟨hl, hr⟩ := hother hm
      simp only [if_neg (Ne.symm hm)] at hoccupied
      omega
  | @publishesLate k hclosed =>
    have hstill : (publish s k a.now).1.closed = s.closed := by
      unfold publish
      simp [hclosed]
    exact absurd (hstill.symm.trans hopen) (by rw [hclosed]; exact Bool.noConfusion)
  | @loaderFails k =>
    obtain ⟨hl, hr⟩ := loaderFailed_counts (s := s) m k
    simp only [Call.running, Call.target, Option.some.injEq, reduceCtorEq, if_false] at hoccupied ⊢
    rw [hl, hr]
    by_cases hm : m = k
    · subst hm
      simp only [if_true] at hoccupied ⊢
      omega
    · simp only [if_neg hm, if_neg (Ne.symm hm)] at hoccupied ⊢
      omega
  | @closesNew k x =>
    simp only [held_setLock, resident_setLock, held_endClose, resident_endClose, Call.running,
      Call.target, reduceCtorEq, if_false] at hoccupied ⊢
    omega
  | unloadRaises => exact hoccupied
  | @unloadTakes k x hlock hclosed hidle hruntime =>
    simp only [held_setLock, resident_setLock, held_take, resident_take, Call.running, Call.target,
      Option.some.injEq, reduceCtorEq, if_false] at hoccupied ⊢
    by_cases hm : m = k
    · subst hm
      have hone' := s.held_of_some hruntime
      simp only [if_true]
      omega
    · simp only [if_neg hm, if_neg (Ne.symm hm)]
      omega
  | @unloadEnds k x =>
    obtain ⟨hsame, hle, hother⟩ := s.afterClose_counts m k x a.succeeds
    simp only [held_setLock, resident_setLock, Call.running, Call.target, Option.some.injEq,
      reduceCtorEq, if_false] at hoccupied ⊢
    by_cases hm : m = k
    · subst hm
      simp only [if_true] at hoccupied
      omega
    · obtain ⟨hl, hr⟩ := hother hm
      simp only [if_neg (Ne.symm hm)] at hoccupied
      omega
  | shutdownAgain => exact hoccupied
  | shutdownCloses hclosed =>
    have hnow : (shutdownEntry s).1.closed = true := by
      unfold shutdownEntry
      simp [hclosed]
    exact absurd (hnow.symm.trans hopen) Bool.noConfusion
  | shutdownEnds => exact hoccupied
  | shutdownReads => simpa [Call.running, Call.target] using hoccupied
  | clearsNothing => exact absurd ((hshut rfl).symm.trans hopen) Bool.noConfusion
  | clears => exact absurd ((hshut rfl).symm.trans hopen) Bool.noConfusion
  | shutdownEndsClose => simpa [Call.running, Call.target] using Nat.le_trans (by omega) hoccupied

/-- **What becomes resident** before shutdown: only the record a slot was reserved on. -/
theorem CallStep.resident (h : CallStep maxLoadedModels s a c s' c') (hopen : s'.closed = false)
    (hshut : c.shuttingDown = true → s.closed = true) {m : String}
    (hoccupied : s.held m + c.running m ≤ s.resident m) :
    s'.resident m ≤ s.resident m ∨
      (c = .reserving m ∧ c' = .loading m ∧ s.closed = false ∧
        s.hasRoom maxLoadedModels = true) := by
  have hheld := s.held_le_resident m
  cases h with
  | loadRaises => exact Or.inl le_rfl
  | loadLeases => exact Or.inl (by rw [resident_lease])
  | loadReserves => exact Or.inl (by rw [resident_setLock])
  | reserveRaises => exact Or.inl (by rw [resident_setLock])
  | @reserveLoads k hclosed hroom =>
    by_cases hm : m = k
    · subst hm
      exact Or.inr ⟨rfl, rfl, hclosed, hroom⟩
    · exact Or.inl (by rw [resident_put, if_neg hm])
  | @reserveEvicts k candidate x hclosed hidle hruntime =>
    left
    rw [resident_take]
    split
    · next hm =>
      subst hm
      have hone := s.held_of_some hruntime
      omega
    · exact le_rfl
  | @evictionSucceeds k candidate x =>
    left
    obtain ⟨hsame, hle, hother⟩ := s.afterClose_counts m candidate x true
    by_cases hm : m = candidate
    · subst hm
      simp only [Call.running, Call.target, if_true] at hoccupied
      omega
    · exact (hother hm).2.le
  | @evictionFails k candidate x hfails =>
    left
    rw [resident_setLock]
    obtain ⟨hsame, hle, hother⟩ := s.afterClose_counts m candidate x false
    by_cases hm : m = candidate
    · subst hm
      simp only [Call.running, Call.target, if_true] at hoccupied
      omega
    · exact (hother hm).2.le
  | @publishes k hclosed =>
    left
    obtain ⟨hother, hpublished, -⟩ := publish_counts (s := s) m k a.now
    by_cases hm : m = k
    · subst hm
      have hone := (hpublished hclosed).2
      simp only [Call.running, Call.target, if_true] at hoccupied
      omega
    · exact (hother hm).2.le
  | @publishesLate k hclosed =>
    have hstill : (publish s k a.now).1.closed = s.closed := by
      unfold publish
      simp [hclosed]
    exact absurd (hstill.symm.trans hopen) (by rw [hclosed]; exact Bool.noConfusion)
  | @loaderFails k =>
    left
    rw [(loaderFailed_counts (s := s) m k).2]
    split
    · exact hheld
    · exact le_rfl
  | closesNew => exact Or.inl (by rw [resident_setLock, resident_endClose])
  | unloadRaises => exact Or.inl le_rfl
  | @unloadTakes k x hlock hclosed hidle hruntime =>
    left
    rw [resident_setLock, resident_take]
    split
    · next hm =>
      subst hm
      have hone := s.held_of_some hruntime
      omega
    · exact le_rfl
  | @unloadEnds k x =>
    left
    rw [resident_setLock]
    obtain ⟨hsame, hle, hother⟩ := s.afterClose_counts m k x a.succeeds
    by_cases hm : m = k
    · subst hm
      simp only [Call.running, Call.target, if_true] at hoccupied
      omega
    · exact (hother hm).2.le
  | shutdownAgain => exact Or.inl le_rfl
  | shutdownCloses hclosed =>
    have hnow : (shutdownEntry s).1.closed = true := by
      unfold shutdownEntry
      simp [hclosed]
    exact absurd (hnow.symm.trans hopen) Bool.noConfusion
  | shutdownEnds => exact Or.inl le_rfl
  | shutdownReads => exact Or.inl (by rw [resident_setLock])
  | clearsNothing => exact absurd ((hshut rfl).symm.trans hopen) Bool.noConfusion
  | clears => exact absurd ((hshut rfl).symm.trans hopen) Bool.noConfusion
  | shutdownEndsClose => exact Or.inl (by rw [resident_setLock, resident_endClose])

/-- **What a step does after shutdown** has begun: nothing comes into being. -/
theorem CallStep.closing (h : CallStep maxLoadedModels s a c s' c') (hclosed : s.closed = true)
    (hread : ∀ m x rest, c = .clearing m (some x) rest → (s.record m).runtime = some x)
    (m : String) : s'.held m + c'.running m ≤ s.held m + c.running m := by
  cases h with
  | loadRaises => exact Nat.le_add_right _ _
  | loadLeases _ hopen => exact absurd (hclosed.symm.trans hopen) Bool.noConfusion
  | loadReserves _ hopen => exact absurd (hclosed.symm.trans hopen) Bool.noConfusion
  | reserveRaises => simp [Call.running, Call.target]
  | reserveLoads hopen => exact absurd (hclosed.symm.trans hopen) Bool.noConfusion
  | reserveEvicts hopen => exact absurd (hclosed.symm.trans hopen) Bool.noConfusion
  | @evictionSucceeds k candidate x =>
    obtain ⟨hsame, hle, hother⟩ := s.afterClose_counts m candidate x true
    by_cases hm : m = candidate
    · subst hm
      simpa [Call.running, Call.target] using hle
    · rw [(hother hm).1]
      simp [Call.running, Call.target]
  | @evictionFails k candidate x hfails =>
    obtain ⟨hsame, hle, hother⟩ := s.afterClose_counts m candidate x false
    rw [held_setLock]
    by_cases hm : m = candidate
    · subst hm
      simpa [Call.running, Call.target] using hle
    · rw [(hother hm).1]
      simp [Call.running, Call.target]
  | publishes hopen => exact absurd (hclosed.symm.trans hopen) Bool.noConfusion
  | @publishesLate k _ =>
    obtain ⟨hother, -, hlate⟩ := publish_counts (s := s) m k a.now
    by_cases hm : m = k
    · subst hm
      rw [hlate hclosed]
      exact le_rfl
    · rw [(hother hm).1]
      exact le_rfl
  | @loaderFails k =>
    rw [(loaderFailed_counts (s := s) m k).1]
    simp [Call.running, Call.target]
  | closesNew => simp [Call.running, Call.target]
  | unloadRaises => simp [Call.running, Call.target]
  | unloadTakes _ hopen => exact absurd (hclosed.symm.trans hopen) Bool.noConfusion
  | @unloadEnds k x =>
    obtain ⟨hsame, hle, hother⟩ := s.afterClose_counts m k x a.succeeds
    rw [held_setLock]
    by_cases hm : m = k
    · subst hm
      simpa [Call.running, Call.target] using hle
    · rw [(hother hm).1]
      simp [Call.running, Call.target]
  | shutdownAgain => exact le_rfl
  | shutdownCloses hopen => exact absurd (hclosed.symm.trans hopen) Bool.noConfusion
  | shutdownEnds => exact le_rfl
  | shutdownReads => simp [Call.running, Call.target]
  | @clearsNothing k rest =>
    rw [held_setLock, held_put]
    split
    · exact Nat.zero_le _
    · exact le_rfl
  | @clears k x rest =>
    rw [held_startClose, held_put]
    by_cases hm : m = k
    · -- the runtime that the record still holds is the one that is closed now
      subst hm
      rw [s.held_of_some (hread m x rest rfl)]
      simp [Call.running, Call.target]
    · simp [hm, Ne.symm hm, Call.running, Call.target]
  | shutdownEndsClose => simp [Call.running, Call.target]

/-- A shutdown that is to clear a record has just read it. -/
theorem CallStep.read (h : CallStep maxLoadedModels s a c s' c') {m : String} {x : Nat}
    {rest : List String} (hc' : c' = .clearing m (some x) rest) :
    (s'.record m).runtime = some x := by
  cases h with
  | shutdownReads =>
    obtain ⟨rfl, hread, rfl⟩ := Call.clearing.inj hc'
    rw [setLock_runtime, hread]
  | _ => cases hc'

/-- The section that closes the manager leaves the runtimes where they are. -/
theorem shutdownEntry_held (s : ManagerState) (m : String) : (shutdownEntry s).1.held m = s.held m := by
  unfold shutdownEntry
  split <;> rfl

/-- While the manager is shut down, the runtime of a record changes only by the call that closes it
and by the shutdown that takes it. -/
theorem CallStep.runtime_eq (h : CallStep maxLoadedModels s a c s' c') (hclosed : s.closed = true)
    {m : String} (htarget : c.target ≠ some m) (hclearing : ∀ x rest, c ≠ .clearing m x rest) :
    (s'.record m).runtime = (s.record m).runtime := by
  have hne : ∀ k, c.target = some k → m ≠ k := fun k hk hm => htarget (hm ▸ hk)
  cases h with
  | loadLeases _ hopen => exact absurd (hclosed.symm.trans hopen) Bool.noConfusion
  | loadReserves _ hopen => exact absurd (hclosed.symm.trans hopen) Bool.noConfusion
  | reserveLoads hopen => exact absurd (hclosed.symm.trans hopen) Bool.noConfusion
  | reserveEvicts hopen => exact absurd (hclosed.symm.trans hopen) Bool.noConfusion
  | publishes hopen => exact absurd (hclosed.symm.trans hopen) Bool.noConfusion
  | unloadTakes _ hopen => exact absurd (hclosed.symm.trans hopen) Bool.noConfusion
  | shutdownCloses hopen => exact absurd (hclosed.symm.trans hopen) Bool.noConfusion
  | evictionSucceeds => rw [afterClose_record_ne _ _ _ _ (hne _ rfl)]
  | evictionFails => rw [setLock_runtime, afterClose_record_ne _ _ _ _ (hne _ rfl)]
  | unloadEnds => rw [setLock_runtime, afterClose_record_ne _ _ _ _ (hne _ rfl)]
  | @publishesLate k _ =>
    have hk := hne k rfl
    unfold publish
    simp only [hclosed, if_true, startClose_record]
    rw [put_record_ne _ _ _ hk]
  | @loaderFails k =>
    unfold loaderFailed
    simp only [setLock_runtime]
    rw [put_record_ne _ _ _ (hne k rfl)]
  | @clearsNothing k rest =>
    have hk : m ≠ k := fun hm => hclearing none rest (by rw [hm])
    rw [setLock_runtime, put_record_ne _ _ _ hk]
  | @clears k x rest =>
    have hk : m ≠ k := fun hm => hclearing (some x) rest (by rw [hm])
    rw [startClose_record, put_record_ne _ _ _ hk]
  | _ => simp

/-! ### The invariant -/

/-- What holds of a manager under a limit, as long as slots are reserved on free records only. -/
structure WithinLimit (limit : Nat) (s : ManagerState) : Prop where
  orderly : Orderly s
  /-- What a shutdown has read is still there when it clears the record. -/
  reading : ∀ c ∈ s.calls, ∀ m x rest, c = .clearing m (some x) rest →
    (s.record m).runtime = some x
  /-- A record stands for one runtime. -/
  single : ∀ m, s.held m + s.running m ≤ 1
  /-- Before shutdown every runtime is counted. -/
  counted : s.closed = false → ∀ m, s.held m + s.running m ≤ s.resident m
  bound : s.closed = false → s.residentCount ≤ limit
  existing : s.existing ≤ limit

/-- The runtimes record by record. -/
theorem existing_eq_sum (hs : Orderly s) :
    s.existing = (s.models.map fun m => s.held m + s.running m).sum := by
  have hrunning := sum_countP_eq hs.nodup Call.target fun c hc m hm =>
    hs.names c hc m (Call.target_mem_names hm)
  rw [ManagerState.existing, ← hrunning, ← sum_map_ite, ← List.sum_map_add]
  rfl

theorem residentCount_eq_sum (s : ManagerState) :
    s.residentCount = (s.models.map s.resident).sum := by
  rw [ManagerState.residentCount, ← sum_map_ite]
  rfl

/-- Sums over the records compare where the summands do. -/
theorem sum_le_sum {f g : String → Nat} (h : ∀ m, f m ≤ g m) (l : List String) :
    (l.map f).sum ≤ (l.map g).sum :=
  List.sum_le_sum fun m _ => h m

/-- **Before shutdown** what exists is counted, so the limit holds of it. -/
theorem existing_le (hs : Orderly s) (hcounted : ∀ m, s.held m + s.running m ≤ s.resident m)
    {limit : Nat} (hbound : s.residentCount ≤ limit) : s.existing ≤ limit := by
  calc s.existing
    _ = (s.models.map fun m => s.held m + s.running m).sum := existing_eq_sum hs
    _ ≤ (s.models.map s.resident).sum := sum_le_sum hcounted _
    _ = s.residentCount := (residentCount_eq_sum s).symm
    _ ≤ limit := hbound

/-- A step of a call moves the counts of a record by what the two sections of the call count. -/
theorem running_set {i : Nat} {d : Call} (hc : s.calls[i]? = some c) (m : String) :
    (s.calls.set i d).countP (fun c => c.target = some m) + c.running m =
        s.running m + d.running m ∧
      c.running m ≤ s.running m := by
  have hset := countP_set_add (b := d) (fun c : Call => decide (c.target = some m)) hc
  have hle := le_countP (fun c : Call => decide (c.target = some m)) hc
  simp only [decide_eq_true_eq] at hset hle
  exact ⟨hset, hle⟩

/-- What a shutdown has read stays there while other calls go on. -/
theorem WithinLimit.reading_advance {limit : Nat} {i : Nat} (hs : WithinLimit limit s)
    (hc : s.calls[i]? = some c) (hstep : CallStep maxLoadedModels s a c s' c') :
    ∀ d ∈ s.calls.set i c', ∀ m x rest, d = .clearing m (some x) rest →
      (s'.record m).runtime = some x := by
  rintro d hd m x rest rfl
  rcases mem_set_cases hd with heq | ⟨j, hj, hjd⟩
  · exact hstep.read heq.symm
  · -- another call is the shutdown under way, and what it has read is held, so nothing works on it
    have hheld := hs.reading _ (List.mem_of_getElem? hjd) m x rest rfl
    have hclosed := hs.orderly.closed_of_shuttingDown (List.mem_of_getElem? hjd) rfl
    have hother := hs.orderly.not_shuttingDown hj hc hjd rfl
    have htarget : c.target ≠ some m := by
      intro htarget
      have hsingle := hs.single m
      have hle := (running_set (d := c') hc m).2
      rw [s.held_of_some hheld] at hsingle
      rw [Call.running, if_pos htarget] at hle
      omega
    have hclearing : ∀ y rest', c ≠ .clearing m y rest' := by
      rintro y rest' rfl
      exact Bool.noConfusion hother
    rw [hstep.runtime_eq hclosed htarget hclearing, hheld]

/-- Where no slot is reserved, no record becomes resident; where one is, there was room for it. -/
theorem WithinLimit.bound_advance {limit : Nat} (hs : WithinLimit limit s)
    (hclosed : s.closed = false) (hmodels : s'.models = s.models)
    (hresident : ∀ m, s'.resident m ≤ s.resident m ∨ (c = .reserving m ∧
      c' = .loading m ∧ s.closed = false ∧ s.hasRoom (some limit) = true)) :
    s'.residentCount ≤ limit := by
  by_cases hreserve : ∃ k, c = .reserving k ∧ c' = .loading k ∧ s.hasRoom (some limit) = true
  · -- one record more
    obtain ⟨k, rfl, rfl, hroom⟩ := hreserve
    have hroom : s.residentCount < limit := of_decide_eq_true hroom
    have hone : ∀ m, s'.resident m ≤ s.resident m + if k = m then 1 else 0 := by
      intro m
      rcases hresident m with h | ⟨hk, -⟩
      · omega
      · rw [if_pos (Call.reserving.inj hk)]
        have hle : s'.resident m ≤ 1 := by unfold resident; split <;> omega
        omega
    have hcount : s.models.count k ≤ 1 := List.nodup_iff_count_le_one.mp hs.orderly.nodup k
    calc s'.residentCount
      _ = (s.models.map s'.resident).sum := by rw [residentCount_eq_sum, hmodels]
      _ ≤ (s.models.map fun m => s.resident m + if k = m then 1 else 0).sum :=
          sum_le_sum hone _
      _ = s.residentCount + s.models.count k := by
          rw [List.sum_map_add, residentCount_eq_sum, sum_indicator]
      _ ≤ limit := by omega
  · have hmono : ∀ m, s'.resident m ≤ s.resident m := by
      intro m
      rcases hresident m with h | ⟨hk, hk', -, hroom⟩
      · exact h
      · exact absurd ⟨m, hk, hk', hroom⟩ hreserve
    calc s'.residentCount
      _ = (s.models.map s'.resident).sum := by rw [residentCount_eq_sum, hmodels]
      _ ≤ (s.models.map s.resident).sum := sum_le_sum hmono _
      _ = s.residentCount := (residentCount_eq_sum s).symm
      _ ≤ limit := hs.bound hclosed

/-- **The step of a call** keeps the invariant. -/
theorem WithinLimit.advance {limit : Nat} {i : Nat} (hs : WithinLimit limit s)
    (hfree : ReservesFree (some limit) s (.advance i a)) (hc : s.calls[i]? = some c)
    (hstep : CallStep (some limit) s a c s' c') :
    WithinLimit limit { s' with calls := s.calls.set i c' } := by
  have hmem : c ∈ s.calls := List.mem_of_getElem? hc
  have horderly := hs.orderly.advance hc hstep
  have hmodels := (hstep.registered (hs.orderly.names c hmem)).1
  have hreading := hs.reading_advance hc hstep
  have hshut := hs.orderly.closed_of_shuttingDown hmem
  -- once the manager is closed, what exists before the step bounds what exists after it
  have hafter : (∀ m, s'.held m + (s.calls.set i c').countP (fun c => c.target = some m) ≤
      s.held m + s.running m) → s'.closed = true →
      WithinLimit limit { s' with calls := s.calls.set i c' } := by
    intro hle hclosed'
    exact {
      orderly := horderly
      reading := hreading
      single := fun m => Nat.le_trans (hle m) (hs.single m)
      counted := fun hopen => absurd (hclosed'.symm.trans hopen) Bool.noConfusion
      bound := fun hopen => absurd (hclosed'.symm.trans hopen) Bool.noConfusion
      existing := by
        refine Nat.le_trans ?_ hs.existing
        rw [existing_eq_sum horderly, existing_eq_sum hs.orderly]
        show (s'.models.map _).sum ≤ _
        rw [hmodels]
        exact sum_le_sum hle _ }
  rcases Bool.eq_false_or_eq_true s.closed with hclosed | hclosed
  · refine hafter (fun m => ?_) (hstep.closed_iff.mpr (Or.inl hclosed))
    have hm := hstep.closing hclosed (hs.reading c hmem) m
    have hrun := (running_set (d := c') hc m).1
    omega
  rcases Bool.eq_false_or_eq_true s'.closed with hclosed' | hclosed'
  · -- the section that closes the manager: the runtimes stay where they are
    refine hafter (fun m => ?_) hclosed'
    have hrun := (running_set (d := c') hc m).1
    rcases hstep.closed_iff.mp hclosed' with h | rfl
    · exact absurd (hclosed.symm.trans h) Bool.noConfusion
    · cases hstep with
      | shutdownAgain h => exact absurd (hclosed.symm.trans h) Bool.noConfusion
      | shutdownCloses _ =>
        rw [shutdownEntry_held]
        simp only [Call.running, Call.target, reduceCtorEq, if_false] at hrun
        simp only [Call.target] at hrun ⊢
        omega
  have hfree' : ∀ m, c = .reserving m → s.closed = false → s.hasRoom (some limit) = true →
      s.isResident m = false := by
    rintro m rfl
    have hreserves : m ∈ s.calls[i]?.bind Call.reserves := by
      rw [hc]
      rfl
    exact hfree m hreserves
  have hcounted : ∀ m, s'.held m + (s.calls.set i c').countP (fun c => c.target = some m) ≤
      s'.resident m := by
    intro m
    obtain ⟨hrun, hle⟩ := running_set (d := c') hc m
    have hbefore := hs.counted hclosed m
    have hoccupied := hstep.occupied hclosed' hfree' hshut (s.running m - c.running m) (m := m)
      (by omega)
    omega
  have hresident : ∀ m, s'.resident m ≤ s.resident m ∨ (c = .reserving m ∧
      c' = .loading m ∧ s.closed = false ∧ s.hasRoom (some limit) = true) := by
    intro m
    have hle := (running_set (d := c') hc m).2
    have hbefore := hs.counted hclosed m
    exact hstep.resident hclosed' hshut (by omega)
  have hbound : s'.residentCount ≤ limit := hs.bound_advance hclosed hmodels hresident
  exact {
    orderly := horderly
    reading := hreading
    single := fun m => by
      have hle : s'.resident m ≤ 1 := by unfold resident; split <;> omega
      exact (hcounted m).trans hle
    counted := fun _ => hcounted
    bound := fun _ => hbound
    existing := existing_le horderly hcounted hbound }

/-- A step that leaves the records' runtimes alone and at most starts calls keeps the invariant. -/
theorem WithinLimit.extend {limit : Nat} (hs : WithinLimit limit s) (horderly : Orderly s')
    (hmodels : s'.models = s.models) (hclosed : s'.closed = s.closed)
    (hruntime : ∀ m, (s'.record m).runtime = (s.record m).runtime)
    (hstate : ∀ m, (s'.record m).state = (s.record m).state) {started : List Call}
    (hcalls : s'.calls = s.calls ++ started) (hstarted : ∀ c ∈ started, c.Starts s) :
    WithinLimit limit s' := by
  have hheld : ∀ m, s'.held m = s.held m := fun m => by rw [held, held, hruntime]
  have hres : ∀ m, s'.resident m = s.resident m := fun m => by
    rw [ManagerState.resident, ManagerState.resident, isResident, isResident, hruntime, hstate]
  have hrunning : ∀ m, s'.running m = s.running m := by
    intro m
    have hnone : started.countP (fun c => decide (c.target = some m)) = 0 := by
      rw [List.countP_eq_zero]
      intro c hc
      rw [(hstarted c hc).idle.1]
      exact Bool.false_ne_true
    rw [ManagerState.running, hcalls, List.countP_append, hnone]
    rfl
  exact {
    orderly := horderly
    reading := by
      rintro c hc m x rest rfl
      rw [hruntime]
      rw [hcalls] at hc
      rcases List.mem_append.mp hc with hc | hc
      · exact hs.reading _ hc m x rest rfl
      · exact absurd (hstarted _ hc).idle.2.1 Bool.noConfusion
    single := fun m => by
      rw [hheld, hrunning]
      exact hs.single m
    counted := fun hopen m => by
      rw [hheld, hrunning, hres]
      exact hs.counted (hclosed ▸ hopen) m
    bound := fun hopen => by
      rw [residentCount_eq_sum, hmodels, List.map_congr_left fun m _ => hres m,
        ← residentCount_eq_sum]
      exact hs.bound (hclosed ▸ hopen)
    existing := by
      rw [existing_eq_sum horderly, hmodels]
      simp only [hheld, hrunning]
      rw [← existing_eq_sum hs.orderly]
      exact hs.existing }

/-- A record that is registered stands for nothing yet. -/
theorem WithinLimit.register {limit : Nat} (hs : WithinLimit limit s) {model : String}
    (hnew : model ∉ s.models) :
    WithinLimit limit { s with
      models := s.models ++ [model], record := Function.update s.record model .fresh } := by
  have horderly := hs.orderly.register hnew
  have hidle : s.running model = 0 := by
    rw [ManagerState.running, List.countP_eq_zero]
    intro c hc htarget
    exact hnew (hs.orderly.names c hc model (Call.target_mem_names (of_decide_eq_true htarget)))
  have hheld : ∀ m, (s.put model .fresh).held m = if m = model then 0 else s.held m := fun m =>
    held_put s m model .fresh
  have hres : ∀ m, (s.put model .fresh).resident m = if m = model then 0 else s.resident m :=
    fun m => resident_put s m model .fresh
  have hold : ∀ m ∈ s.models, m ≠ model := fun m hm hmodel => hnew (hmodel ▸ hm)
  have hsum : ∀ f : String → Nat, f model = 0 →
      ((s.models ++ [model]).map f).sum = (s.models.map f).sum := by
    intro f hf
    rw [List.map_append, List.sum_append, List.map_singleton, List.sum_singleton, hf, Nat.add_zero]
  exact {
    orderly := horderly
    reading := by
      intro c hc m x rest hclearing
      have hm : m ≠ model :=
        hold m (hs.orderly.names c hc m (by rw [hclearing]; exact List.mem_cons_self))
      show ((s.put model .fresh).record m).runtime = some x
      rw [put_record_ne s model _ hm]
      exact hs.reading c hc m x rest hclearing
    single := fun m => by
      show (s.put model .fresh).held m + s.running m ≤ 1
      rw [hheld]
      split
      · next hm => rw [hm, hidle]; exact Nat.zero_le 1
      · exact hs.single m
    counted := fun hopen m => by
      show (s.put model .fresh).held m + s.running m ≤ (s.put model .fresh).resident m
      rw [hheld, hres]
      split
      · next hm => rw [hm, hidle]
      · exact hs.counted hopen m
    bound := fun hopen => by
      rw [residentCount_eq_sum]
      show ((s.models ++ [model]).map (s.put model .fresh).resident).sum ≤ limit
      rw [hsum _ (by rw [hres, if_pos rfl]),
        List.map_congr_left fun m hm => (hres m).trans (if_neg (hold m hm)), ← residentCount_eq_sum]
      exact hs.bound hopen
    existing := by
      rw [existing_eq_sum horderly]
      show ((s.models ++ [model]).map fun m => (s.put model .fresh).held m + s.running m).sum ≤ limit
      have hsame : ∀ m ∈ s.models,
          (s.put model .fresh).held m + s.running m = s.held m + s.running m := fun m hm => by
        rw [hheld, if_neg (hold m hm)]
      rw [hsum _ (by rw [hheld, if_pos rfl, hidle]), List.map_congr_left hsame,
        ← existing_eq_sum hs.orderly]
      exact hs.existing }

/-- **The step lemma.** -/
theorem WithinLimit.step {limit : Nat} {action : ManagerAction} (hs : WithinLimit limit s)
    (hfree : ReservesFree (some limit) s action) (hstep : ManagerStep (some limit) s action s') :
    WithinLimit limit s' := by
  have horderly := hs.orderly.step hstep
  cases hstep with
  | registers hnew => exact hs.register hnew
  | @starts _ c hc =>
    refine hs.extend horderly rfl rfl (fun _ => rfl) (fun _ => rfl) rfl fun d hd => ?_
    rw [List.mem_singleton.mp hd]
    exact hc
  | advances hc hstep => exact hs.advance hfree hc hstep
  | returns hlease =>
    exact hs.extend horderly rfl rfl (fun _ => rfl) (fun _ => rfl) (List.append_nil _).symm
      fun d hd => absurd hd List.not_mem_nil
  | @releases k m x now hlease =>
    have hsame := releaseLease_record s m now
    rw [releaseLease_eq] at horderly ⊢
    exact hs.extend horderly rfl rfl (fun n => (hsame n).1) (fun n => (hsame n).2.1)
      (List.append_nil _).symm fun d hd => absurd hd List.not_mem_nil

theorem WithinLimit.initial (limit : Nat) : WithinLimit limit .initial where
  orderly := .initial
  reading := fun _ hc => absurd hc List.not_mem_nil
  single := fun _ => Nat.zero_le 1
  counted := fun _ _ => Nat.zero_le _
  bound := fun _ => Nat.zero_le limit
  existing := Nat.zero_le limit

end Steps

/-- **The residency bound.** In every run in which each slot is reserved on a record that is not
resident, the runtimes that exist never exceed the limit. -/
theorem residency_bounded (limit : Nat) (casefold : String → String) {s : ManagerState}
    (hreach : (managerMachine (some limit) casefold).Reach (ReservesFree (some limit)) .initial s) :
    s.existing ≤ limit := by
  have hinv : WithinLimit limit s :=
    hreach.invariant (WithinLimit.initial limit) fun _ action _ hs hfree hnext =>
      hs.step hfree (managerNext_cases hnext)
  exact hinv.existing

/-- A load of one model, from its registration to its lease. -/
def oneLoad : List ManagerAction :=
  [.register "a", .load "a", .advance 0 ⟨true, 1⟩, .advance 0 ⟨true, 2⟩, .advance 0 ⟨true, 3⟩]

theorem residency_bounded_of_one_load :
    ∃ s, (managerMachine (some 1) id).Reach (ReservesFree (some 1)) .initial s ∧
      s.existing = 1 ∧ s.existing ≤ 1 := by
  have hrun : ((managerMachine (some 1) id).run .initial oneLoad).map existing = some 1 := by
    decide +kernel
  have halong : (managerMachine (some 1) id).Along (ReservesFree (some 1)) .initial oneLoad := by
    decide +kernel
  obtain ⟨s, hrun, hexisting⟩ := Option.map_eq_some_iff.mp hrun
  have hreach := Machine.reach_of_run hrun halong
  exact ⟨s, hreach, hexisting, residency_bounded 1 id hreach⟩

/-- Two models are loaded and idle. A load of a third evicts the first, whose closer is slow. The second
is unloaded; then both are loaded again, the first while it is still being closed. -/
def loadsDuringEviction : List ManagerAction :=
  [.register "a", .register "b", .register "c",
    .load "b", .advance 0 ⟨true, 1⟩, .advance 0 ⟨true, 2⟩, .advance 0 ⟨true, 3⟩,
    .load "c", .advance 1 ⟨true, 4⟩, .advance 1 ⟨true, 5⟩, .advance 1 ⟨true, 6⟩,
    .returnLease 0, .releaseLease 0 7, .returnLease 1, .releaseLease 1 8,
    .load "a", .advance 2 ⟨true, 9⟩, .advance 2 ⟨true, 10⟩,
    .unload "c", .advance 3 ⟨true, 11⟩, .advance 3 ⟨true, 12⟩,
    .load "b", .advance 4 ⟨true, 13⟩, .advance 4 ⟨true, 14⟩,
    .load "c", .advance 5 ⟨true, 15⟩, .advance 5 ⟨true, 16⟩]

/-- **Three runtimes under a limit of two.** The record that is evicted and loaded at once counts once. -/
theorem residency_exceeded :
    ¬ ∀ s, (managerMachine (some 2) id).Reach Machine.always .initial s → s.existing ≤ 2 := by
  have hrun : ((managerMachine (some 2) id).run .initial loadsDuringEviction).map existing =
      some 3 := by
    decide +kernel
  obtain ⟨s, hrun, hexisting⟩ := Option.map_eq_some_iff.mp hrun
  intro hbound
  have hle := hbound s (Machine.reach_always_of_run hrun)
  rw [hexisting] at hle
  omega

end Drift.Node
