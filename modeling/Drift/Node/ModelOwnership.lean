import Drift.Lib.Custody
import Drift.Node.ModelSteps

/-!
# Where the runtimes of a manager are

A runtime that a loader has returned is in the custody of its record until its close is called, and a
close that fails puts it back. Loads and unloads of one model exclude each other by its lock, but an
eviction runs under the lock of another model, so that a load may refill the record while the evicted
runtime is being closed. If that close fails, the record's new runtime is overwritten, and nothing is
left that could close it.

* `ManagerState.custody` — the manager as a `Custody`;
* `RestoresOverNothing` — the condition: an eviction that fails does not overwrite such a runtime;
* `Custodian` — the invariant: locks, the phases of the calls, leases, what a shutdown has yet to do;
* `runtimes_in_custody` — no runtime is lost, closed under a lease or closed again, and shutdown closes
  them all; `refilled_runtime_lost` — a run that loses one.
-/

namespace Drift.Node

open Drift.Lib ManagerState

/-- The runtime a call is closing, and its record. -/
def Call.closing : Call → Option (String × Nat)
  | .evicting _ candidate runtime => some (candidate, runtime)
  | .closingNew model runtime => some (model, runtime)
  | .unloading model runtime => some (model, runtime)
  | .shutdownClosing model runtime _ => some (model, runtime)
  | _ => none

def Call.closes (c : Call) (runtime : Nat) : Bool := c.closing.map Prod.snd = some runtime

/-- The model whose lock a call holds, and the runtime that it is about to take out of its record. -/
def Call.holding : Call → Option (String × Option Nat)
  | .reserving model => some (model, none)
  | .evicting model _ _ => some (model, none)
  | .loading model => some (model, none)
  | .closingNew model _ => some (model, none)
  | .unloading model _ => some (model, none)
  | .clearing model runtime _ => some (model, runtime)
  | .shutdownClosing model _ _ => some (model, none)
  | _ => none

def Call.locks (c : Call) (model : String) : Bool := c.holding.map Prod.fst = some model

/-- The records a shutdown has yet to clear. -/
def Call.pending : Call → List String
  | .shutdownLoop rest => rest
  | .clearing model _ rest => model :: rest
  | .shutdownClosing _ _ rest => rest
  | _ => []

/-- The record an eviction has taken its runtime from. -/
def Call.evicted : Call → Option String
  | .evicting _ candidate _ => some candidate
  | _ => none

/-- An eviction that fails puts its runtime back over nothing, or over a runtime whose close has been
called. -/
def RestoresOverNothing (s : ManagerState) : ManagerAction → Prop
  | .advance i a => a.succeeds = false → ∀ m ∈ s.calls[i]?.bind Call.evicted,
      ∀ x ∈ (s.record m).runtime, x ∈ s.closeCalled
  | _ => True

instance decidableRestoresOverNothing (s : ManagerState) :
    ∀ action, Decidable (RestoresOverNothing s action)
  | .advance i a => inferInstanceAs (Decidable (a.succeeds = false →
      ∀ m ∈ s.calls[i]?.bind Call.evicted, ∀ x ∈ (s.record m).runtime, x ∈ s.closeCalled))
  | .register _ | .load _ | .unload _ | .shutdown | .returnLease _ | .releaseLease _ _ => isTrue trivial

namespace ManagerState

variable (s : ManagerState)

/-- The runtime of each record. -/
def runtimes : String → Option Nat := fun m => (s.record m).runtime

/-- The manager's records as owners of the runtimes that were loaded for them. -/
def custody : Custody String where
  owner := s.loadedFor
  holds := s.runtimes
  closing x := s.calls.countP (·.closes x)
  called := s.closeCalled
  returned := s.closeReturned

variable (k : String)

@[simp] theorem runtimes_put (r : ModelRecord) :
    (s.put k r).runtimes = Function.update s.runtimes k r.runtime := by
  funext m
  unfold runtimes
  rw [put_record, Function.update_apply, Function.update_apply]
  split <;> rfl

@[simp] theorem runtimes_setLock (held : Bool) : (s.setLock k held).runtimes = s.runtimes := by
  funext m
  exact setLock_runtime s k held m

@[simp] theorem runtimes_startClose (x : Nat) : (s.startClose x).runtimes = s.runtimes := rfl

@[simp] theorem runtimes_endClose (x : Nat) (b : Bool) : (s.endClose x b).runtimes = s.runtimes := by
  unfold runtimes
  rw [endClose_record]

/-- A record that is put with its runtime unchanged. -/
theorem runtimes_put_same {r : ModelRecord} (h : r.runtime = (s.record k).runtime) :
    (s.put k r).runtimes = s.runtimes := by
  rw [runtimes_put, h]
  exact Function.update_eq_self k s.runtimes

@[simp] theorem runtimes_lease (x : Nat) (now : Int) : (s.lease k x now).runtimes = s.runtimes :=
  runtimes_put_same s k rfl

@[simp] theorem runtimes_take (x : Nat) :
    (s.take k x).runtimes = Function.update s.runtimes k none := by
  rw [take, runtimes_startClose, runtimes_put]

theorem runtimes_afterClose (x : Nat) (b : Bool) :
    (s.afterClose k x b).runtimes =
      if b then s.runtimes else Function.update s.runtimes k (some x) := by
  cases b
  · simp [afterClose]
  · simp only [afterClose, if_true, runtimes_endClose]
    exact runtimes_put_same s k rfl

theorem runtimes_publish (now : Int) :
    (publish s k now).1.runtimes =
      if s.closed then s.runtimes else Function.update s.runtimes k (some s.loadedFor.length) := by
  unfold publish
  cases hclosed : s.closed with
  | true =>
    simp only [if_true, runtimes_startClose]
    exact runtimes_put_same _ k rfl
  | false =>
    simp only [Bool.false_eq_true, if_false, runtimes_setLock, runtimes_lease, runtimes_put]
    rfl

@[simp] theorem runtimes_loaderFailed : (loaderFailed s k).1.runtimes = s.runtimes := by
  unfold loaderFailed
  rw [runtimes_setLock]
  exact runtimes_put_same s k rfl

/-- The lock of the record is held. -/
def lock (m : String) : Nat := if (s.record m).loadLock then 1 else 0

variable (m : String)

theorem lock_le_one : s.lock m ≤ 1 := by
  unfold lock
  split
  · exact Nat.le_refl 1
  · exact Nat.zero_le 1

@[simp] theorem lock_put (r : ModelRecord) :
    (s.put k r).lock m = if m = k then (if r.loadLock then 1 else 0) else s.lock m := by
  unfold lock
  rw [put_record, Function.update_apply]
  split <;> rfl

/-- A record that is put with its lock as it was. -/
theorem lock_put_same {r : ModelRecord} (h : r.loadLock = (s.record k).loadLock) :
    (s.put k r).lock m = s.lock m := by
  rw [lock_put]
  split
  · next hm => rw [hm, h, lock]
  · rfl

@[simp] theorem lock_setLock (held : Bool) :
    (s.setLock k held).lock m = if m = k then (if held then 1 else 0) else s.lock m := by
  rw [setLock, lock_put]

@[simp] theorem lock_startClose (x : Nat) : (s.startClose x).lock m = s.lock m := rfl

@[simp] theorem lock_endClose (x : Nat) (b : Bool) : (s.endClose x b).lock m = s.lock m := by
  rw [lock, lock, endClose_record]

@[simp] theorem lock_lease (x : Nat) (now : Int) : (s.lease k x now).lock m = s.lock m :=
  lock_put_same s k m rfl

@[simp] theorem lock_take (x : Nat) : (s.take k x).lock m = s.lock m :=
  lock_put_same s k m rfl

@[simp] theorem lock_afterClose (x : Nat) (b : Bool) : (s.afterClose k x b).lock m = s.lock m := by
  unfold afterClose
  rw [lock_endClose]
  split <;> exact lock_put_same s k m rfl

/-- The leases the record counts. -/
def active (m : String) : Nat := (s.record m).activeRequests

/-- A record that is put with its counter as it was. -/
theorem active_put_same {r : ModelRecord} (h : r.activeRequests = s.active k) :
    (s.put k r).active m = s.active m := by
  unfold active
  rw [put_record, Function.update_apply]
  split
  · next hm => rw [hm, h, active]
  · rfl

@[simp] theorem active_setLock (held : Bool) : (s.setLock k held).active m = s.active m :=
  active_put_same s k m rfl

@[simp] theorem active_startClose (x : Nat) : (s.startClose x).active m = s.active m := rfl

@[simp] theorem active_endClose (x : Nat) (b : Bool) : (s.endClose x b).active m = s.active m := by
  rw [active, active, endClose_record]

@[simp] theorem active_take (x : Nat) : (s.take k x).active m = s.active m :=
  active_put_same s k m rfl

@[simp] theorem active_afterClose (x : Nat) (b : Bool) :
    (s.afterClose k x b).active m = s.active m := by
  unfold afterClose
  rw [active_endClose]
  split <;> exact active_put_same s k m rfl

@[simp] theorem active_lease (x : Nat) (now : Int) :
    (s.lease k x now).active m = s.active m + if m = k then 1 else 0 := by
  show ((Function.update s.record k _) m).activeRequests = s.active m + _
  rw [Function.update_apply]
  split
  · next hm => rw [hm, active]
  · rfl

theorem active_releaseLease (now : Int) :
    (s.releaseLease k now).active m = s.active m - if m = k then 1 else 0 := by
  unfold releaseLease
  split
  · show ((Function.update s.record k _) m).activeRequests = s.active m - _
    rw [Function.update_apply]
    split
    · next hm => rw [hm, active]
    · rfl
  · next hzero =>
    split
    · next hm =>
      rw [hm, active]
      omega
    · rfl

end ManagerState

section Steps

variable {maxLoadedModels : Option Nat} {s s' : ManagerState} {a : Answer} {c c' : Call} {i : Nat}

theorem closes_none (h : c.closing = none) (x : Nat) : (if c.closes x then 1 else 0) = 0 := by
  rw [Call.closes, h]
  rfl

theorem closes_some {m : String} {x : Nat} (h : c.closing = some (m, x)) (y : Nat) :
    (if c.closes y then 1 else 0) = (Pi.single x 1 : Nat → Nat) y := by
  rw [Call.closes, h, Pi.single_apply]
  simp [eq_comm]

/-- The custody after a step of a call, field by field. -/
theorem custody_set (hc : s.calls[i]? = some c) (C : Custody String) (howner : s'.loadedFor = C.owner)
    (hholds : s'.runtimes = C.holds) (hcalled : s'.closeCalled = C.called)
    (hreturned : s'.closeReturned = C.returned)
    (hclosing : ∀ x, C.closing x + (if c.closes x then 1 else 0) =
      s.custody.closing x + (if c'.closes x then 1 else 0)) :
    ({ s' with calls := s.calls.set i c' } : ManagerState).custody = C := by
  obtain ⟨owner, holds, closing, called, returned⟩ := C
  simp only at howner hholds hcalled hreturned hclosing
  subst howner hholds hcalled hreturned
  have hcount : (fun x => (s.calls.set i c').countP (·.closes x)) = closing := by
    funext x
    have hset := countP_set_add (b := c') (fun d : Call => d.closes x) hc
    have hx : closing x + (if c.closes x then 1 else 0) =
      s.calls.countP (fun d => d.closes x) + (if c'.closes x then 1 else 0) := hclosing x
    omega
  rw [← hcount]
  rfl

theorem closing_same (h : c'.closing = c.closing) (x : Nat) :
    s.custody.closing x + (if c.closes x then 1 else 0) =
      s.custody.closing x + (if c'.closes x then 1 else 0) := by
  rw [Call.closes, Call.closes, h]

theorem closing_start {m : String} {x : Nat} (h : c.closing = none) (h' : c'.closing = some (m, x))
    (y : Nat) :
    (s.custody.closing + (Pi.single x 1 : Nat → Nat)) y + (if c.closes y then 1 else 0) =
      s.custody.closing y + (if c'.closes y then 1 else 0) := by
  rw [closes_none h, closes_some h', Nat.add_zero]
  rfl

theorem closing_finish {m : String} {x : Nat} (hc : s.calls[i]? = some c)
    (h : c.closing = some (m, x)) (h' : c'.closing = none) (y : Nat) :
    (s.custody.closing - (Pi.single x 1 : Nat → Nat)) y + (if c.closes y then 1 else 0) =
      s.custody.closing y + (if c'.closes y then 1 else 0) := by
  have hle : (if c.closes y then 1 else 0) ≤ s.custody.closing y :=
    le_countP (fun d : Call => d.closes y) hc
  rw [closes_some h] at hle ⊢
  rw [closes_none h', Pi.sub_apply]
  omega

/-- What a step of a call does to the custody of the runtimes. -/
inductive CustodyStep (s : ManagerState) (a : Answer) (c c' : Call) : Custody String → Prop
  | stays (hclosing : c'.closing = c.closing) : CustodyStep s a c c' s.custody
  | takes {m : String} {x : Nat} (hopen : s.closed = false) (hruntime : s.runtimes m = some x)
      (hidle : (s.record m).activeRequests = 0) (hclosing : c'.closing = some (m, x)) :
      CustodyStep s a c c' ((s.custody.drop m).start x)
  | clears {m : String} {x : Nat} {rest : List String} (hc : c = .clearing m (some x) rest)
      (hc' : c' = .shutdownClosing m x rest) : CustodyStep s a c c' ((s.custody.drop m).start x)
  | drops {m : String} {rest : List String} (hc : c = .clearing m none rest)
      (hc' : c' = .shutdownLoop rest) : CustodyStep s a c c' (s.custody.drop m)
  | ends {m : String} {x : Nat} {succeeds : Bool} (hclosing : c.closing = some (m, x))
      (hclosing' : c'.closing = none) : CustodyStep s a c c' (s.custody.finish x succeeds)
  | restores {m : String} {x : Nat} (hclosing : c.closing = some (m, x)) (hclosing' : c'.closing = none)
      (hheld : (c.evicted = some m ∧ a.succeeds = false) ∨ c.holding = some (m, none)) :
      CustodyStep s a c c' ((s.custody.finish x false).hold m x)
  | makes {m : String} (hc : c = .loading m) (hc' : c' = .ended) (hopen : s.closed = false) :
      CustodyStep s a c c' ((s.custody.make m).hold m s.loadedFor.length)
  | makesLate {m : String} (hc : c = .loading m) (hc' : c' = .closingNew m s.loadedFor.length)
      (hclosed : s.closed = true) :
      CustodyStep s a c c' ((s.custody.make m).start s.loadedFor.length)

/-- The same, for the custody that a move leaves. -/
theorem CustodyStep.of_fields {C : Custody String} (hmove : CustodyStep s a c c' C)
    (hc : s.calls[i]? = some c) (hholds : s'.runtimes = C.holds) (howner : s'.loadedFor = C.owner)
    (hcalled : s'.closeCalled = C.called) (hreturned : s'.closeReturned = C.returned)
    (hclosing : ∀ x, C.closing x + (if c.closes x then 1 else 0) =
      s.custody.closing x + (if c'.closes x then 1 else 0)) :
    CustodyStep s a c c' ({ s' with calls := s.calls.set i c' } : ManagerState).custody := by
  rw [custody_set hc C howner hholds hcalled hreturned hclosing]
  exact hmove

/-- A step that starts no close and ends none leaves the custody as it was. -/
theorem custody_stays (hc : s.calls[i]? = some c) (hholds : s'.runtimes = s.runtimes)
    (howner : s'.loadedFor = s.loadedFor) (hcalled : s'.closeCalled = s.closeCalled)
    (hreturned : s'.closeReturned = s.closeReturned) (hclosing : c'.closing = c.closing) :
    CustodyStep s a c c' ({ s' with calls := s.calls.set i c' } : ManagerState).custody :=
  (CustodyStep.stays hclosing).of_fields hc hholds howner hcalled hreturned (closing_same hclosing)

/-- **The custody after a step of a call.** A runtime is put back only by an eviction or an unload that
fails. -/
theorem CallStep.custody (h : CallStep maxLoadedModels s a c s' c') (hc : s.calls[i]? = some c) :
    CustodyStep s a c c' ({ s' with calls := s.calls.set i c' } : ManagerState).custody := by
  cases h with
  | reserveEvicts hopen hidle hruntime =>
    have hactive := (List.mem_filter.mp hidle).2
    simp only [Bool.and_eq_true, beq_iff_eq] at hactive
    exact (CustodyStep.takes hopen hruntime hactive.1.2 rfl).of_fields hc (runtimes_take s _ _) rfl rfl
      rfl (closing_start rfl rfl)
  | unloadTakes hlock hopen hidle hruntime =>
    exact (CustodyStep.takes hopen hruntime hidle rfl).of_fields hc
      ((runtimes_setLock _ _ _).trans (runtimes_take s _ _)) rfl rfl rfl (closing_start rfl rfl)
  | clears =>
    exact (CustodyStep.clears rfl rfl).of_fields hc (runtimes_put s _ _) rfl rfl rfl
      (closing_start rfl rfl)
  | clearsNothing =>
    exact (CustodyStep.drops rfl rfl).of_fields hc
      ((runtimes_setLock _ _ _).trans (runtimes_put s _ _)) rfl rfl rfl (closing_same rfl)
  | evictionSucceeds =>
    exact (@CustodyStep.ends s a _ _ _ _ true rfl rfl).of_fields hc
      (runtimes_afterClose s _ _ _) rfl rfl rfl (closing_finish hc rfl rfl)
  | evictionFails hfails =>
    exact (CustodyStep.restores rfl rfl (Or.inl ⟨rfl, hfails⟩)).of_fields hc
      ((runtimes_setLock _ _ _).trans (runtimes_afterClose s _ _ _)) rfl rfl
      (List.append_nil _).symm (closing_finish hc rfl rfl)
  | @unloadEnds m x =>
    have hholds := (runtimes_setLock (s.afterClose m x a.succeeds) m false).trans
      (runtimes_afterClose s m x a.succeeds)
    cases hsucceeds : a.succeeds with
    | true =>
      rw [hsucceeds] at hholds
      exact (@CustodyStep.ends s a _ _ _ _ true rfl rfl).of_fields hc hholds rfl rfl rfl
        (closing_finish hc rfl rfl)
    | false =>
      rw [hsucceeds] at hholds
      exact (CustodyStep.restores rfl rfl (Or.inr rfl)).of_fields hc hholds rfl rfl
        (List.append_nil _).symm (closing_finish hc rfl rfl)
  | @closesNew m x =>
    refine (CustodyStep.ends rfl rfl).of_fields hc ?_ ?_ ?_ (endClose_closeReturned s x a.succeeds)
      (closing_finish hc rfl rfl)
    · exact (runtimes_setLock _ _ _).trans (runtimes_endClose s _ _)
    · exact endClose_loadedFor s _ _
    · exact endClose_closeCalled s _ _
  | @shutdownEndsClose m x rest =>
    refine (CustodyStep.ends rfl rfl).of_fields hc ?_ ?_ ?_ (endClose_closeReturned s x a.succeeds)
      (closing_finish hc rfl rfl)
    · exact (runtimes_setLock _ _ _).trans (runtimes_endClose s _ _)
    · exact endClose_loadedFor s _ _
    · exact endClose_closeCalled s _ _
  | @publishes m hopen =>
    have hholds := runtimes_publish s m a.now
    rw [hopen, if_neg Bool.false_ne_true] at hholds
    refine (CustodyStep.makes rfl rfl hopen).of_fields hc hholds ?_ ?_ ?_ (closing_same rfl)
    · simp [publish, hopen, setLock, lease, Custody.hold, Custody.make, ManagerState.custody]
    · simp [publish, hopen, setLock, lease, Custody.hold, Custody.make, ManagerState.custody]
    · simp [publish, hopen, setLock, lease, Custody.hold, Custody.make, ManagerState.custody]
  | @publishesLate m hclosed =>
    have hholds := runtimes_publish s m a.now
    rw [hclosed, if_pos rfl] at hholds
    refine (CustodyStep.makesLate rfl rfl hclosed).of_fields hc hholds ?_ ?_ ?_
      (closing_start rfl rfl)
    · simp [publish, hclosed, Custody.start, Custody.make, ManagerState.custody]
    · simp [publish, hclosed, Custody.start, Custody.make, ManagerState.custody]
    · simp [publish, hclosed, Custody.start, Custody.make, ManagerState.custody]
  | shutdownCloses hopen =>
    have hentry : (shutdownEntry s).1 = { s with
        closed := true, record := fun m => { s.record m with state := .stopping } } := by
      simp [shutdownEntry, hopen]
    rw [hentry]
    exact custody_stays hc rfl rfl rfl rfl rfl
  | loaderFails => exact custody_stays hc (runtimes_loaderFailed s _) rfl rfl rfl rfl
  | loadLeases => exact custody_stays hc (runtimes_lease s _ _ _) rfl rfl rfl rfl
  | reserveLoads => exact custody_stays hc (runtimes_put_same s _ rfl) rfl rfl rfl rfl
  | loadReserves | reserveRaises | shutdownReads =>
    exact custody_stays hc (runtimes_setLock s _ _) rfl rfl rfl rfl
  | loadRaises | unloadRaises | shutdownAgain | shutdownEnds =>
    exact custody_stays hc rfl rfl rfl rfl rfl

/-! ### What a move keeps -/

/-- A call that is closing a runtime counts as one. -/
theorem closing_pos {m : String} {x : Nat} (hc : s.calls[i]? = some c)
    (hclosing : c.closing = some (m, x)) : 0 < s.custody.closing x := by
  refine List.countP_pos_iff.mpr ⟨c, List.mem_of_getElem? hc, ?_⟩
  rw [Call.closes, hclosing]
  exact decide_eq_true rfl

variable {C : Custody String}

/-- What was made stays made for its record. -/
theorem CustodyStep.owner (h : CustodyStep s a c c' C) {x : Nat} {m : String}
    (hx : s.loadedFor[x]? = some m) : C.owner[x]? = some m := by
  cases h with
  | makes => exact Custody.owner_append hx
  | makesLate => exact Custody.owner_append hx
  | _ => exact hx

/-- No close is forgotten. -/
theorem CustodyStep.called (h : CustodyStep s a c c' C) {x : Nat} (hx : x ∈ s.closeCalled) :
    x ∈ C.called := by
  cases h with
  | takes => exact List.mem_append_left _ hx
  | clears => exact List.mem_append_left _ hx
  | makesLate => exact List.mem_append_left _ hx
  | _ => exact hx

/-- A record that a step finds with an expected runtime, or one closed before, is left so, unless a load
publishes a new one there. -/
theorem CustodyStep.covers (h : CustodyStep s a c c' C) (hs : s.custody.Safe none)
    (hc : s.calls[i]? = some c) {m : String} {expected : Option Nat}
    (hcovers : s.custody.Covers m expected) :
    C.Covers m expected ∨ (c = .loading m ∧ c' = .ended ∧ s.closed = false) := by
  have hdropped : ∀ k z, Function.update s.runtimes k none m = some z →
      expected = some z ∨ z ∈ s.closeCalled := by
    intro k z hz
    rcases Custody.update_eq_some hz with ⟨-, hnone⟩ | hz
    · cases hnone
    · exact hcovers z hz
  cases h with
  | stays => exact Or.inl hcovers
  | ends => exact Or.inl hcovers
  | takes => exact Or.inl fun z hz => (hdropped _ z hz).imp_right fun hz => List.mem_append_left _ hz
  | clears => exact Or.inl fun z hz => (hdropped _ z hz).imp_right fun hz => List.mem_append_left _ hz
  | drops => exact Or.inl fun z hz => hdropped _ z hz
  | restores hclosing =>
    -- the close of a runtime that is put back has been called
    refine Or.inl fun z hz => ?_
    rcases Custody.update_eq_some hz with ⟨-, hx⟩ | hz
    · rw [← Option.some.inj hx]
      exact Or.inr (hs.running _ (closing_pos hc hclosing)).1
    · exact hcovers z hz
  | @makes k hload hend hopen =>
    by_cases hm : m = k
    · exact Or.inr ⟨hm ▸ hload, hend, hopen⟩
    · refine Or.inl fun z hz => ?_
      rcases Custody.update_eq_some hz with ⟨hk, -⟩ | hz
      · exact absurd hk hm
      · exact hcovers z hz
  | makesLate => exact Or.inl fun z hz => (hcovers z hz).imp_right fun hz => List.mem_append_left _ hz

/-- Once the manager is closed, no call but the shutdown starts to close a runtime that was there. -/
theorem CustodyStep.idle (h : CustodyStep s a c c' C) (hclosed : s.closed = true)
    (hother : c.shuttingDown = false) (hc : s.calls[i]? = some c) {x : Nat}
    (hmade : x < s.loadedFor.length) (hidle : s.custody.closing x = 0) (hopen : x ∉ s.closeReturned) :
    C.closing x = 0 ∧ x ∉ C.returned := by
  cases h with
  | stays => exact ⟨hidle, hopen⟩
  | takes h => exact absurd (hclosed.symm.trans h) Bool.noConfusion
  | makes hload hend h => exact absurd (hclosed.symm.trans h) Bool.noConfusion
  | clears hclear => exact absurd (hother.symm.trans (by rw [hclear])) Bool.noConfusion
  | drops => exact ⟨hidle, hopen⟩
  | @ends k y succeeds hclosing =>
    have hpos := closing_pos hc hclosing
    have hne : x ≠ y := by
      rintro rfl
      omega
    refine ⟨?_, fun hmem => ?_⟩
    · show s.custody.closing x - (Pi.single y 1 : Nat → Nat) x = 0
      omega
    · rcases List.mem_append.mp hmem with hmem | hmem
      · exact hopen hmem
      · cases succeeds
        · exact absurd hmem List.not_mem_nil
        · exact hne (List.mem_singleton.mp hmem)
  | @restores k y hclosing =>
    refine ⟨?_, ?_⟩
    · show s.custody.closing x - (Pi.single y 1 : Nat → Nat) x = 0
      omega
    · show x ∉ s.closeReturned ++ []
      rw [List.append_nil]
      exact hopen
  | makesLate =>
    refine ⟨?_, hopen⟩
    show s.custody.closing x + (Pi.single s.loadedFor.length 1 : Nat → Nat) x = 0
    rw [Custody.single_ne (Nat.ne_of_lt hmade), hidle]

/-- **Custody is kept** by a step whose call finds in its record what it expects. -/
theorem CustodyStep.safe (h : CustodyStep s a c c' C) (hs : s.custody.Safe none)
    (hc : s.calls[i]? = some c)
    (hcloser : ∀ m x, c.closing = some (m, x) → s.loadedFor[x]? = some m)
    (hcovers : ∀ m r, c.holding = some (m, r) → s.custody.Covers m r)
    (hread : ∀ m x, c.holding = some (m, some x) →
      s.loadedFor[x]? = some m ∧ s.custody.closing x = 0 ∧ x ∉ s.closeReturned)
    (hover : ∀ m, c.evicted = some m → a.succeeds = false → s.custody.Covers m none) :
    C.Safe none := by
  cases h with
  | stays => exact hs
  | @takes m x hopen hruntime =>
    obtain ⟨hreturned, hidle⟩ := hs.open_of_holds m x hruntime
    refine hs.take (hs.owned m x hruntime) (fun z hz => Or.inl ?_) hidle hreturned
    exact hruntime.symm.trans hz
  | @clears m x rest hclear =>
    subst hclear
    obtain ⟨howner, hidle, hreturned⟩ := hread m x rfl
    exact hs.take howner (hcovers m (some x) rfl) hidle hreturned
  | @drops m rest hclear =>
    subst hclear
    exact hs.drop (hcovers m none rfl)
  | ends hclosing => exact hs.finish (closing_pos hc hclosing) _
  | @restores m x hclosing hclosing' hheld =>
    refine hs.putBack (hcloser m x hclosing) ?_ (closing_pos hc hclosing)
    rcases hheld with ⟨hevicted, hfails⟩ | hholding
    · exact hover m hevicted hfails
    · exact hcovers m none hholding
  | @makes m hload =>
    subst hload
    exact hs.makeHeld (hcovers m none rfl)
  | makesLate => exact hs.makeClosing _

/-- The call that closes a runtime afterwards has it from the record it was made for. -/
theorem CustodyStep.closer (h : CustodyStep s a c c' C) (hs : s.custody.Safe none)
    (hcloser : ∀ m x, c.closing = some (m, x) → s.loadedFor[x]? = some m)
    (hread : ∀ m x, c.holding = some (m, some x) →
      s.loadedFor[x]? = some m ∧ s.custody.closing x = 0 ∧ x ∉ s.closeReturned)
    {m : String} {x : Nat} (hclosing : c'.closing = some (m, x)) : C.owner[x]? = some m := by
  cases h with
  | stays hsame => exact hcloser m x (hsame ▸ hclosing)
  | @takes k y hopen hruntime hidle hclosing' =>
    obtain ⟨rfl, rfl⟩ := Prod.mk.inj (Option.some.inj (hclosing'.symm.trans hclosing))
    exact hs.owned k y hruntime
  | @clears k y rest hclear hclosing' =>
    subst hclear hclosing'
    obtain ⟨rfl, rfl⟩ := Prod.mk.inj (Option.some.inj hclosing)
    exact (hread k y rfl).1
  | drops _ hloop =>
    subst hloop
    cases hclosing
  | ends _ hnone => exact absurd (hnone.symm.trans hclosing) fun h => by cases h
  | restores _ hnone => exact absurd (hnone.symm.trans hclosing) fun h => by cases h
  | makes _ hend =>
    subst hend
    cases hclosing
  | @makesLate k _ hclosing' =>
    subst hclosing'
    obtain ⟨rfl, rfl⟩ := Prod.mk.inj (Option.some.inj hclosing)
    exact List.getElem?_concat_length

/-! ### Locks, leases and what shutdown has left -/

/-- The lock a call holds is taken in the step in which it is acquired, and given up after it. -/
theorem CallStep.lock (h : CallStep maxLoadedModels s a c s' c') (m : String) :
    s.lock m + (if c'.locks m then 1 else 0) ≤ s'.lock m + (if c.locks m then 1 else 0) := by
  have hone := s.lock_le_one m
  have hfree : ∀ k, (s.record k).loadLock = false → s.lock k = 0 := by
    intro k hk
    rw [ManagerState.lock, hk]
    rfl
  cases h with
  | loadReserves hlock _ _ | unloadTakes hlock _ _ _ | shutdownReads hlock =>
    simp only [lock_setLock, lock_take, Call.locks, Call.holding, Option.map_none, Option.map_some,
      Option.some.injEq, reduceCtorEq, decide_eq_true_eq, decide_false, Bool.false_eq_true, if_false]
    split
    · next hm =>
      subst hm
      simp [hfree _ hlock]
    · next hm => simp [Ne.symm hm]
  | publishes hopen =>
    simp only [publish, hopen, lock_setLock, lock_lease, Bool.false_eq_true, if_false, Call.locks,
      Call.holding, Option.map_none, Option.map_some, Option.some.injEq, reduceCtorEq,
      decide_eq_true_eq, decide_false]
    split
    · next hm =>
      rw [if_pos hm.symm]
      exact hone
    · next hm =>
      rw [lock_put, if_neg hm, if_neg (Ne.symm hm)]
      exact Nat.le_refl _
  | @publishesLate k hclosed =>
    have hpublish : (publish s k a.now).1.lock m = s.lock m := by
      simp only [publish, hclosed, lock_startClose, if_true]
      exact lock_put_same _ k m rfl
    rw [hpublish]
    exact Nat.le_refl _
  | shutdownCloses hopen =>
    have hentry : (shutdownEntry s).1.lock m = s.lock m := by
      simp [shutdownEntry, hopen, ManagerState.lock]
    rw [hentry]
    exact Nat.le_refl _
  | reserveRaises | evictionFails _ | closesNew | unloadEnds | shutdownEndsClose | clearsNothing |
    loaderFails =>
    simp only [loaderFailed, lock_setLock, lock_afterClose, lock_endClose, Call.locks, Call.holding,
      Option.map_none, Option.map_some, Option.some.injEq, reduceCtorEq, decide_eq_true_eq,
      decide_false, Bool.false_eq_true, if_false]
    split
    · next hm =>
      rw [if_pos hm.symm]
      exact hone
    · next hm => simp [hm, Ne.symm hm]
  | @reserveLoads k =>
    have hput : (s.put k { s.record k with state := .loading }).lock m = s.lock m :=
      lock_put_same s k m rfl
    rw [hput]
    exact Nat.le_refl _
  | @clears k =>
    have hput : (s.put k { s.record k with runtime := none }).lock m = s.lock m :=
      lock_put_same s k m rfl
    rw [lock_startClose, hput]
    exact Nat.le_refl _
  | loadLeases =>
    rw [lock_lease]
    exact Nat.le_refl _
  | reserveEvicts =>
    rw [lock_take]
    exact Nat.le_refl _
  | evictionSucceeds =>
    rw [lock_afterClose]
    exact Nat.le_refl _
  | loadRaises | unloadRaises | shutdownAgain | shutdownEnds => exact Nat.le_refl _

/-- What a call expects of the record whose lock it holds, it has expected before or has just seen. -/
theorem CallStep.holding (h : CallStep maxLoadedModels s a c s' c') {m : String} {r : Option Nat}
    (hholding : c'.holding = some (m, r)) :
    (c.holding = some (m, r) ∧ c' ≠ .ended ∧ r = none) ∨
      (c.holding = none ∧ (s'.runtimes m = r ∧ s'.runtimes m = s.runtimes m)) ∨
      (r = none ∧ s'.runtimes m = none) := by
  cases h with
  | reserveLoads | reserveEvicts | evictionSucceeds | publishesLate =>
    obtain ⟨rfl, rfl⟩ := Prod.mk.inj (Option.some.inj hholding)
    exact Or.inl ⟨rfl, (by intro h; cases h), rfl⟩
  | loadReserves _ _ hruntime =>
    obtain ⟨rfl, rfl⟩ := Prod.mk.inj (Option.some.inj hholding)
    rw [runtimes_setLock]
    exact Or.inr (Or.inr ⟨rfl, hruntime⟩)
  | shutdownReads =>
    obtain ⟨rfl, rfl⟩ := Prod.mk.inj (Option.some.inj hholding)
    rw [runtimes_setLock]
    exact Or.inr (Or.inl ⟨rfl, rfl, rfl⟩)
  | unloadTakes =>
    obtain ⟨rfl, rfl⟩ := Prod.mk.inj (Option.some.inj hholding)
    rw [runtimes_setLock, runtimes_take, Function.update_self]
    exact Or.inr (Or.inr ⟨rfl, rfl⟩)
  | clears =>
    obtain ⟨rfl, rfl⟩ := Prod.mk.inj (Option.some.inj hholding)
    rw [runtimes_startClose, runtimes_put, Function.update_self]
    exact Or.inr (Or.inr ⟨rfl, rfl⟩)
  | _ => cases hholding

/-- A call grants at most one lease, on the runtime that the record holds then. -/
theorem CallStep.leases (h : CallStep maxLoadedModels s a c s' c') :
    (s'.leases = s.leases ∧ ∀ m, s'.active m = s.active m) ∨
      ∃ k x, s'.leases = s.leases ++ [⟨k, x, .outstanding⟩] ∧ s'.runtimes k = some x ∧
        ∀ m, s'.active m = s.active m + if m = k then 1 else 0 := by
  cases h with
  | @loadLeases k x hlock hopen hruntime =>
    refine Or.inr ⟨k, x, rfl, ?_, fun m => active_lease s k m x a.now⟩
    rw [runtimes_lease]
    exact hruntime
  | @publishes k hopen =>
    right
    refine ⟨k, s.loadedFor.length, ?_, ?_, fun m => ?_⟩
    · simp [publish, hopen, setLock, lease]
    · rw [runtimes_publish, hopen, if_neg Bool.false_ne_true, Function.update_self]
    · simp only [publish, hopen, Bool.false_eq_true, if_false, active_setLock, active_lease]
      exact congrArg (· + _) (active_put_same _ k m rfl)
  | @publishesLate k hclosed =>
    refine Or.inl ⟨by simp [publish, hclosed], fun m => ?_⟩
    simp only [publish, hclosed, if_true, active_startClose]
    exact active_put_same _ k m rfl
  | shutdownCloses hopen =>
    refine Or.inl ⟨by simp [shutdownEntry, hopen], fun m => ?_⟩
    simp [shutdownEntry, hopen, active]
  | evictionSucceeds => exact Or.inl ⟨rfl, fun m => active_afterClose s _ m _ _⟩
  | evictionFails =>
    exact Or.inl ⟨rfl, fun m => (active_setLock _ _ _ _).trans (active_afterClose s _ m _ _)⟩
  | @unloadEnds k x =>
    refine Or.inl ⟨?_, fun m => (active_setLock _ _ _ _).trans (active_afterClose s _ m _ _)⟩
    cases a.succeeds <;> rfl
  | closesNew | shutdownEndsClose =>
    exact Or.inl ⟨endClose_leases s _ _, fun m => (active_setLock _ _ _ _).trans (active_endClose s m _ _)⟩
  | loaderFails =>
    exact Or.inl ⟨rfl, fun m => (active_setLock _ _ _ _).trans (active_put_same s _ m rfl)⟩
  | clearsNothing =>
    exact Or.inl ⟨rfl, fun m => (active_setLock _ _ _ _).trans (active_put_same s _ m rfl)⟩
  | reserveLoads | clears => exact Or.inl ⟨rfl, fun m => active_put_same s _ m rfl⟩
  | reserveEvicts => exact Or.inl ⟨rfl, fun m => active_take s _ m _⟩
  | unloadTakes =>
    exact Or.inl ⟨rfl, fun m => (active_setLock _ _ _ _).trans (active_take s _ m _)⟩
  | loadReserves | reserveRaises | shutdownReads => exact Or.inl ⟨rfl, fun m => active_setLock s _ m _⟩
  | loadRaises | unloadRaises | shutdownAgain | shutdownEnds => exact Or.inl ⟨rfl, fun _ => rfl⟩

/-- A shutdown clears a record before it leaves it. -/
theorem CallStep.pending (h : CallStep maxLoadedModels s a c s' c') {m : String}
    (hpending : m ∈ c.pending) : m ∈ c'.pending ∨ s'.runtimes m = none := by
  cases h with
  | shutdownReads => exact Or.inl hpending
  | shutdownEndsClose => exact Or.inl hpending
  | clearsNothing =>
    rcases List.mem_cons.mp hpending with rfl | hrest
    · rw [runtimes_setLock, runtimes_put, Function.update_self]
      exact Or.inr rfl
    · exact Or.inl hrest
  | clears =>
    rcases List.mem_cons.mp hpending with rfl | hrest
    · rw [runtimes_startClose, runtimes_put, Function.update_self]
      exact Or.inr rfl
    · exact Or.inl hrest
  | _ => exact absurd hpending List.not_mem_nil

/-- The shutdown that closes the manager has all its records before it. -/
theorem CallStep.pending_of_closes (h : CallStep maxLoadedModels s a c s' c')
    (hopen : s.closed = false) (hclosed : s'.closed = true) : c'.pending = s.models := by
  rcases h.closed_iff.mp hclosed with hclosed | rfl
  · exact absurd (hclosed.symm.trans hopen) Bool.noConfusion
  · cases h with
    | shutdownAgain hclosed => exact absurd (hclosed.symm.trans hopen) Bool.noConfusion
    | shutdownCloses => rfl

/-- Where a shutdown has read a runtime, it is about to clear the record. -/
theorem Call.shuttingDown_of_read {m : String} {x : Nat} (h : c.holding = some (m, some x)) :
    c.shuttingDown = true := by
  cases c with
  | clearing => rfl
  | _ => cases h

end Steps

end Drift.Node
