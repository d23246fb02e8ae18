import Drift.Node.ModelOwnership

/-!
# No runtime is lost

The invariant of a manager in custody of its runtimes, `Custodian`, ties four things together: the lock
of a model is held by one call at most, so what that call has seen of the record stays true but for an
eviction that fails; a lease is counted at the record its runtime belongs to; a close starts on a
runtime that is held, or that was read under the lock by the one shutdown; and a shutdown under way
stands before every record that holds a runtime not closed yet.

* `Custodian.advance`, `Custodian.step` — the step lemma;
* `runtimes_in_custody` — the result, `refilled_runtime_lost` — the run that shows the condition is
  needed.
-/

namespace Drift.Node

open Drift.Lib ManagerState

/-- What holds of a manager as long as evictions that fail overwrite nothing. -/
structure Custodian (s : ManagerState) : Prop where
  orderly : Orderly s
  registered : ∀ m ∈ s.loadedFor, m ∈ s.models
  safe : s.custody.Safe none
  /-- A lock is held by one call at most. -/
  locks : ∀ m, s.calls.countP (·.locks m) ≤ s.lock m
  closer : ∀ c ∈ s.calls, ∀ m x, c.closing = some (m, x) → s.loadedFor[x]? = some m
  /-- Under the lock a record holds what the call expects, or what was closed before. -/
  covers : ∀ c ∈ s.calls, ∀ m r, c.holding = some (m, r) → s.custody.Covers m r
  /-- What the shutdown has read is not being closed and has not been closed. -/
  read : ∀ c ∈ s.calls, ∀ m x, c.holding = some (m, some x) →
    s.loadedFor[x]? = some m ∧ s.custody.closing x = 0 ∧ x ∉ s.closeReturned
  leased : ∀ l ∈ s.leases, s.loadedFor[l.runtime]? = some l.model
  active : ∀ m, s.active m = s.leases.countP fun l => l.model = m ∧ l.status ≠ .released
  /-- Once the manager is closed, what was never closed is before the shutdown. -/
  pending : s.closed = true → ∀ m, s.custody.Covers m none ∨ ∃ c ∈ s.calls, m ∈ c.pending

section Steps

variable {maxLoadedModels : Option Nat} {s s' : ManagerState} {a : Answer} {c c' : Call} {i : Nat}

/-- Two calls do not hold one lock. -/
theorem Custodian.not_locks (hs : Custodian s) {j : Nat} {d : Call} (hij : j ≠ i)
    (hc : s.calls[i]? = some c) (hd : s.calls[j]? = some d) {m : String} (hdm : d.locks m = true) :
    c.locks m = false := by
  by_contra hcm
  have htwo : 2 ≤ s.calls.countP (·.locks m) :=
    two_le_countP hij hd hc hdm (eq_true_of_ne_false hcm)
  have hle := hs.locks m
  have hone := s.lock_le_one m
  omega

theorem locks_of_holding {m : String} {r : Option Nat} (h : c.holding = some (m, r)) :
    c.locks m = true := by
  rw [Call.locks, h]
  exact decide_eq_true rfl

/-- A record is covered after the step if the call `d` that holds its lock is not the one that moves. -/
theorem Custodian.covers_other (hs : Custodian s) (hc : s.calls[i]? = some c) {C : Custody String}
    (hmove : CustodyStep s a c c' C) {j : Nat} {d : Call} (hij : j ≠ i) (hd : s.calls[j]? = some d)
    {m : String} {r : Option Nat} (hholding : d.holding = some (m, r)) : C.Covers m r := by
  have hbefore := hs.covers d (List.mem_of_getElem? hd) m r hholding
  rcases hmove.covers hs.safe hc hbefore with hcovers | ⟨hload, -⟩
  · exact hcovers
  · -- a load that publishes holds the lock itself
    have hfree := hs.not_locks hij hc hd (locks_of_holding hholding)
    rw [hload, locks_of_holding rfl] at hfree
    cases hfree

/-- What a call expects of its record after it has moved. -/
theorem Custodian.covers_self (hs : Custodian s) (hc : s.calls[i]? = some c)
    (hstep : CallStep maxLoadedModels s a c s' c') {m : String} {r : Option Nat}
    (hholding : c'.holding = some (m, r)) :
    ({ s' with calls := s.calls.set i c' } : ManagerState).custody.Covers m r := by
  rcases hstep.holding hholding with ⟨hbefore, hgoes, -⟩ | ⟨-, hsees, -⟩ | ⟨-, hnone⟩
  · have hcovers := hs.covers c (List.mem_of_getElem? hc) m r hbefore
    rcases (hstep.custody hc).covers hs.safe hc hcovers with hcovers | ⟨-, hended, -⟩
    · exact hcovers
    · exact absurd hended hgoes
  · intro z hz
    exact Or.inl (hsees.symm.trans hz)
  · intro z hz
    exact absurd (hnone.symm.trans hz) (by intro h; cases h)

/-- The runtimes are still loaded for registered models. -/
theorem Custodian.registered_advance (hs : Custodian s) (hc : s.calls[i]? = some c)
    (hstep : CallStep maxLoadedModels s a c s' c') : ∀ m ∈ s'.loadedFor, m ∈ s'.models := by
  have hnames := hs.orderly.names c (List.mem_of_getElem? hc)
  rw [(hstep.registered hnames).1]
  intro m hm
  have hmove := hstep.custody hc
  have hm : m ∈ ({ s' with calls := s.calls.set i c' } : ManagerState).custody.owner := hm
  generalize ({ s' with calls := s.calls.set i c' } : ManagerState).custody = C at hmove hm
  cases hmove with
  | @makes k hload | @makesLate k hload =>
    rcases List.mem_append.mp hm with hm | hm
    · exact hs.registered m hm
    · rw [List.mem_singleton.mp hm]
      exact hnames k (by rw [hload]; exact List.mem_singleton_self k)
  | _ => exact hs.registered m hm

/-- **The step of a call** keeps the invariant. -/
theorem Custodian.advance (hs : Custodian s) (hc : s.calls[i]? = some c)
    (hover : ∀ m, c.evicted = some m → a.succeeds = false → s.custody.Covers m none)
    (hstep : CallStep maxLoadedModels s a c s' c') :
    Custodian { s' with calls := s.calls.set i c' } := by
  have hmem : c ∈ s.calls := List.mem_of_getElem? hc
  have hmove := hstep.custody hc
  have hsafe := hmove.safe hs.safe hc (hs.closer c hmem) (hs.covers c hmem) (hs.read c hmem) hover
  have hcloser : ∀ m x, c'.closing = some (m, x) → s'.loadedFor[x]? = some m := fun m x =>
    hmove.closer hs.safe (hs.closer c hmem) (hs.read c hmem)
  have howner : ∀ {x m}, s.loadedFor[x]? = some m → s'.loadedFor[x]? = some m := hmove.owner
  exact {
    orderly := hs.orderly.advance hc hstep
    registered := fun m hm => hs.registered_advance hc hstep m hm
    safe := hsafe
    locks := fun m => by
      have hset := countP_set_add (b := c') (fun d : Call => d.locks m) hc
      have hlock := hstep.lock m
      have hle := hs.locks m
      show (s.calls.set i c').countP (fun d => d.locks m) ≤ s'.lock m
      omega
    closer := by
      refine forall_mem_set hcloser fun d hd m x hclosing => ?_
      exact howner (hs.closer d hd m x hclosing)
    covers := by
      intro d hd m r hholding
      rcases mem_set_cases hd with rfl | ⟨j, hj, hjd⟩
      · exact hs.covers_self hc hstep hholding
      · exact hs.covers_other hc hmove hj hjd hholding
    read := by
      intro d hd m x hholding
      rcases mem_set_cases hd with rfl | ⟨j, hj, hjd⟩
      · rcases hstep.holding hholding with ⟨-, -, hnone⟩ | ⟨-, hsees, -⟩ | ⟨hnone, -⟩
        · cases hnone
        · -- what was read is held, so it is open
          obtain ⟨hreturned, hidle⟩ := hsafe.open_of_holds m x hsees
          exact ⟨hsafe.owned m x hsees, hidle, hreturned⟩
        · cases hnone
      · -- the shutdown that has read it is the only one
        obtain ⟨hx, hidle, hreturned⟩ := hs.read d (List.mem_of_getElem? hjd) m x hholding
        have hdown := Call.shuttingDown_of_read hholding
        have hclosed := hs.orderly.closed_of_shuttingDown (List.mem_of_getElem? hjd) hdown
        have hother := hs.orderly.not_shuttingDown hj hc hjd hdown
        have hmade := (List.getElem?_eq_some_iff.mp hx).1
        exact ⟨howner hx, hmove.idle hclosed hother hc hmade hidle hreturned⟩
    leased := by
      intro l hl
      rcases hstep.leases with ⟨hsame, -⟩ | ⟨k, x, hgrants, hheld, -⟩
      · exact howner (hs.leased l (hsame ▸ hl))
      · rcases List.mem_append.mp (hgrants ▸ hl) with hl | hl
        · exact howner (hs.leased l hl)
        · rw [List.mem_singleton.mp hl]
          exact hsafe.owned k x hheld
    active := fun m => by
      show s'.active m = s'.leases.countP _
      rcases hstep.leases with ⟨hsame, hactive⟩ | ⟨k, x, hgrants, -, hactive⟩
      · rw [hsame, hactive]
        exact hs.active m
      · rw [hgrants, hactive, List.countP_append, hs.active m, List.countP_singleton]
        simp [eq_comm]
    pending := by
      intro hclosed' m
      have hself : c' ∈ s.calls.set i c' := mem_set_self hc
      rcases Bool.eq_false_or_eq_true s.closed with hclosed | hopen
      · rcases hs.pending hclosed m with hcovers | ⟨d, hd, hpending⟩
        · rcases hmove.covers hs.safe hc hcovers with hcovers | ⟨-, -, hopen⟩
          · exact Or.inl hcovers
          · exact absurd (hclosed.symm.trans hopen) Bool.noConfusion
        · rcases eq_or_mem_set hc hd with rfl | hd
          · rcases hstep.pending hpending with hpending | hnone
            · exact Or.inr ⟨c', hself, hpending⟩
            · refine Or.inl fun z hz => ?_
              exact absurd (hnone.symm.trans hz) (by intro h; cases h)
          · exact Or.inr ⟨d, hd, hpending⟩
      · -- the shutdown that closes the manager has every registered model before it
        cases hheld : s'.runtimes m with
        | none => exact Or.inl fun z hz => absurd (hheld.symm.trans hz) (by intro h; cases h)
        | some z =>
          have hregistered := hs.registered_advance hc hstep m
            (List.mem_of_getElem? (hsafe.owned m z hheld))
          rw [(hstep.registered (hs.orderly.names c hmem)).1] at hregistered
          refine Or.inr ⟨c', hself, ?_⟩
          rw [hstep.pending_of_closes hopen hclosed']
          exact hregistered }

/-- A call that starts holds no lock and closes nothing. -/
theorem Call.Starts.unlocked (h : c.Starts s) : c.holding = none ∧ c.closing = none := by
  obtain rfl | ⟨m, -, rfl | rfl⟩ := h <;> exact ⟨rfl, rfl⟩

/-- A call that starts keeps the invariant. -/
theorem Custodian.starts (hs : Custodian s) (hc : c.Starts s) :
    Custodian { s with calls := s.calls ++ [c] } := by
  obtain ⟨hholding, hclosing⟩ := hc.unlocked
  have hstarts : ManagerStep none s .shutdown { s with calls := s.calls ++ [c] } := .starts hc
  have horderly := hs.orderly.step hstarts
  have hcount : ∀ x, (s.calls ++ [c]).countP (·.closes x) = s.calls.countP (·.closes x) := by
    intro x
    rw [List.countP_append, List.countP_singleton, closes_none hclosing]
    rfl
  have hcustody : ({ s with calls := s.calls ++ [c] } : ManagerState).custody = s.custody := by
    unfold custody
    simp only [hcount]
    rfl
  have hmem : ∀ d ∈ s.calls ++ [c], d ∈ s.calls ∨ d = c := fun d hd =>
    (List.mem_append.mp hd).imp_right List.mem_singleton.mp
  exact {
    orderly := horderly
    registered := hs.registered
    safe := hcustody ▸ hs.safe
    locks := fun m => by
      have hnone : (if c.locks m then 1 else 0) = 0 := by
        rw [Call.locks, hholding]
        rfl
      show (s.calls ++ [c]).countP (·.locks m) ≤ s.lock m
      rw [List.countP_append, List.countP_singleton, hnone]
      exact hs.locks m
    closer := by
      intro d hd m x h
      rcases hmem d hd with hd | rfl
      · exact hs.closer d hd m x h
      · rw [hclosing] at h
        cases h
    covers := by
      intro d hd m r h
      rw [hcustody]
      rcases hmem d hd with hd | rfl
      · exact hs.covers d hd m r h
      · rw [hholding] at h
        cases h
    read := by
      intro d hd m x h
      rw [hcustody]
      rcases hmem d hd with hd | rfl
      · exact hs.read d hd m x h
      · rw [hholding] at h
        cases h
    leased := hs.leased
    active := hs.active
    pending := by
      intro hclosed m
      rw [hcustody]
      rcases hs.pending hclosed m with hgone | ⟨d, hd, hpending⟩
      · exact Or.inl hgone
      · exact Or.inr ⟨d, List.mem_append_left _ hd, hpending⟩ }

/-- A registration keeps the invariant: nothing is known of the new model yet. -/
theorem Custodian.register (hs : Custodian s) {model : String} (hnew : model ∉ s.models) :
    Custodian { s with
      models := s.models ++ [model], record := Function.update s.record model .fresh } := by
  have hempty : s.runtimes model = none := by
    cases hheld : s.runtimes model with
    | none => rfl
    | some x =>
      have howned := hs.safe.owned model x hheld
      exact absurd (hs.registered model (List.mem_of_getElem? howned)) hnew
  have hruntimes : (s.put model .fresh).runtimes = s.runtimes := by
    rw [runtimes_put]
    show Function.update s.runtimes model none = s.runtimes
    rw [← hempty, Function.update_eq_self]
  have hcustody : ({ s with
      models := s.models ++ [model], record := Function.update s.record model .fresh } :
        ManagerState).custody = s.custody := by
    show (⟨_, (s.put model .fresh).runtimes, _, _, _⟩ : Custody String) = _
    rw [hruntimes]
    rfl
  have hidle : s.calls.countP (·.locks model) = 0 := by
    rw [List.countP_eq_zero]
    intro c hc hlocks
    refine hnew (hs.orderly.names c hc model ?_)
    cases c <;> simp_all [Call.locks, Call.holding, Call.names]
  exact {
    orderly := hs.orderly.register hnew
    registered := fun m hm => List.mem_append_left _ (hs.registered m hm)
    safe := hcustody ▸ hs.safe
    locks := fun m => by
      show s.calls.countP (·.locks m) ≤ (s.put model .fresh).lock m
      rw [lock_put]
      split
      · next hm => rw [hm, hidle]; exact Nat.zero_le _
      · exact hs.locks m
    closer := hs.closer
    covers := fun d hd m r h => by
      rw [hcustody]
      exact hs.covers d hd m r h
    read := fun d hd m x h => by
      rw [hcustody]
      exact hs.read d hd m x h
    leased := hs.leased
    active := fun m => by
      show ((Function.update s.record model .fresh) m).activeRequests = s.leases.countP _
      rw [Function.update_apply]
      split
      · next hm =>
        -- the leases are on models that were registered before
        symm
        show s.leases.countP _ = 0
        rw [List.countP_eq_zero]
        intro l hl hlm
        have hl := hs.registered l.model (List.mem_of_getElem? (hs.leased l hl))
        rw [(of_decide_eq_true hlm).1, hm] at hl
        exact hnew hl
      · exact hs.active m
    pending := fun hclosed m => by
      rw [hcustody]
      exact hs.pending hclosed m }

/-- A step that touches only leases keeps the invariant if the leases it leaves are counted. -/
theorem Custodian.of_leases (hs : Custodian s) (horderly : Orderly s') (hmodels : s'.models = s.models)
    (hclosed : s'.closed = s.closed) (hcalls : s'.calls = s.calls) (hcustody : s'.custody = s.custody)
    (hlock : ∀ m, s'.lock m = s.lock m)
    (hleased : ∀ l ∈ s'.leases, s.loadedFor[l.runtime]? = some l.model)
    (hactive : ∀ m, s'.active m = s'.leases.countP fun l => l.model = m ∧ l.status ≠ .released) :
    Custodian s' := by
  have howner : s'.loadedFor = s.loadedFor := congrArg Custody.owner hcustody
  have hreturned : s'.closeReturned = s.closeReturned := congrArg Custody.returned hcustody
  exact {
    orderly := horderly
    registered := by
      rw [howner, hmodels]
      exact hs.registered
    safe := hcustody ▸ hs.safe
    locks := fun m => by
      rw [hcalls, hlock]
      exact hs.locks m
    closer := by
      rw [hcalls, howner]
      exact hs.closer
    covers := by
      rw [hcalls, hcustody]
      exact hs.covers
    read := by
      rw [hcalls, hcustody, howner, hreturned]
      exact hs.read
    leased := by
      rw [howner]
      exact hleased
    active := hactive
    pending := by
      rw [hclosed, hcalls, hcustody]
      exact hs.pending }

/-- **The step lemma.** -/
theorem Custodian.step {action : ManagerAction} (hs : Custodian s)
    (hover : RestoresOverNothing s action) (hstep : ManagerStep maxLoadedModels s action s') :
    Custodian s' := by
  have horderly := hs.orderly.step hstep
  cases hstep with
  | registers hnew => exact hs.register hnew
  | starts hc => exact hs.starts hc
  | @advances i a c c' s₁ hc hstep =>
    refine hs.advance hc (fun m hevicted hfails x hx => Or.inr ?_) hstep
    refine hover hfails m ?_ x hx
    rw [hc]
    exact hevicted
  | @returns k m x hlease =>
    have hmade : s.loadedFor[x]? = some m := hs.leased _ (List.mem_of_getElem? hlease)
    refine hs.of_leases horderly rfl rfl rfl rfl (fun _ => rfl) ?_ fun n => ?_
    · exact forall_mem_set hmade hs.leased
    · have hset := countP_set_add (b := (⟨m, x, .returning⟩ : Lease))
        (fun l => decide (l.model = n ∧ l.status ≠ .released)) hlease
      have hbefore := hs.active n
      show s.active n = (s.leases.set k _).countP _
      simp only [ne_eq, reduceCtorEq, not_false_eq_true, and_true] at hset hbefore ⊢
      omega
  | @releases k m x now hlease =>
    have hsame := releaseLease_record s m now
    rw [releaseLease_eq] at horderly ⊢
    have hmade : s.loadedFor[x]? = some m := hs.leased _ (List.mem_of_getElem? hlease)
    have hruntimes : (s.releaseLease m now).runtimes = s.runtimes := by
      funext n
      exact (hsame n).1
    refine hs.of_leases horderly rfl rfl rfl ?_ (fun n => ?_) ?_ fun n => ?_
    · show (⟨_, (s.releaseLease m now).runtimes, _, _, _⟩ : Custody String) = _
      rw [hruntimes]
      rfl
    · show (s.releaseLease m now).lock n = s.lock n
      rw [lock, lock, (hsame n).2.2]
    · exact forall_mem_set hmade hs.leased
    · have hset := countP_set_add (b := (⟨m, x, .released⟩ : Lease))
        (fun l => decide (l.model = n ∧ l.status ≠ .released)) hlease
      have hbefore := hs.active n
      show (s.releaseLease m now).active n = (s.leases.set k _).countP _
      simp only [ne_eq, reduceCtorEq, not_false_eq_true, and_true, not_true_eq_false, and_false,
        decide_false, Bool.false_eq_true, if_false, decide_eq_true_eq] at hset hbefore ⊢
      have hcomm : (if n = m then 1 else 0) = if m = n then 1 else 0 := by simp only [eq_comm]
      rw [active_releaseLease, hbefore, hcomm]
      omega

theorem Custodian.initial : Custodian .initial where
  orderly := .initial
  registered := fun _ hm => absurd hm List.not_mem_nil
  safe := {
    kept := fun _ _ hx => by cases hx
    owned := fun _ _ hk => by cases hk
    made := fun _ hx => absurd hx List.not_mem_nil
    open_of_holds := fun _ _ hk => by cases hk
    running := fun _ hx => absurd hx (Nat.lt_irrefl 0)
    single := fun _ => Nat.zero_le 1
    returned_called := fun _ hx => absurd hx List.not_mem_nil }
  locks := fun _ => Nat.zero_le _
  closer := fun _ hc => absurd hc List.not_mem_nil
  covers := fun _ hc => absurd hc List.not_mem_nil
  read := fun _ hc => absurd hc List.not_mem_nil
  leased := fun _ hl => absurd hl List.not_mem_nil
  active := fun _ => rfl
  pending := fun hclosed => by cases hclosed

/-- The closes that a step starts are on runtimes without a lease before shutdown, and on none whose
close has returned. -/
theorem Custodian.starts_close {action : ManagerAction} (hs : Custodian s)
    (hstep : ManagerStep maxLoadedModels s action s') {x : Nat}
    (hx : x ∈ s'.closeCalled.drop s.closeCalled.length) :
    (s.closed = false → ∀ l ∈ s.leases, l.runtime = x → l.status = .released) ∧
      x ∉ s.closeReturned := by
  have hnone : x ∉ s.closeCalled.drop s.closeCalled.length := by
    rw [List.drop_length]
    exact List.not_mem_nil
  cases hstep with
  | registers => exact absurd hx hnone
  | starts => exact absurd hx hnone
  | returns => exact absurd hx hnone
  | releases =>
    rw [releaseLease_eq] at hx
    exact absurd hx hnone
  | @advances i a c c' s₁ hc hstep =>
    have hmem : c ∈ s.calls := List.mem_of_getElem? hc
    have hmove := hstep.custody hc
    have hx : x ∈ ({ s₁ with calls := s.calls.set i c' } : ManagerState).custody.called.drop
        s.closeCalled.length := hx
    generalize ({ s₁ with calls := s.calls.set i c' } : ManagerState).custody = C at hmove hx
    have hlast : ∀ y, x ∈ (s.closeCalled ++ [y]).drop s.closeCalled.length → x = y := by
      intro y hy
      rw [List.drop_left] at hy
      exact List.mem_singleton.mp hy
    cases hmove with
    | @takes m y hopen hruntime hidle =>
      obtain rfl := hlast y hx
      refine ⟨fun _ l hl hlx => ?_, (hs.safe.open_of_holds m x hruntime).1⟩
      -- a lease on the runtime would be counted at the record that holds it
      have hmodel : l.model = m := by
        have hleased := hs.leased l hl
        rw [hlx] at hleased
        exact Option.some.inj (hleased.symm.trans (hs.safe.owned m x hruntime))
      have hcount : s.leases.countP (fun l => l.model = m ∧ l.status ≠ .released) = 0 :=
        (hs.active m).symm.trans hidle
      by_contra hstatus
      exact List.countP_eq_zero.mp hcount l hl (decide_eq_true ⟨hmodel, hstatus⟩)
    | @clears m y rest hclear =>
      obtain rfl := hlast y hx
      subst hclear
      have hclosed := hs.orderly.closed_of_shuttingDown hmem rfl
      refine ⟨fun hopen => absurd (hclosed.symm.trans hopen) Bool.noConfusion, ?_⟩
      exact (hs.read _ hmem m x rfl).2.2
    | @makesLate m hload hlate hclosed =>
      obtain rfl := hlast _ hx
      refine ⟨fun hopen => absurd (hclosed.symm.trans hopen) Bool.noConfusion, ?_⟩
      exact hs.safe.fresh.2.1
    | _ => exact absurd hx hnone

end Steps

/-- What a manager promises of the runtimes it has been given. -/
structure RuntimesKept (maxLoadedModels : Option Nat) (casefold : String → String) (s : ManagerState) :
    Prop where
  /-- A runtime is held by its record, or its close has been called. -/
  held_or_closed : ∀ x m, s.loadedFor[x]? = some m → (s.record m).runtime = some x ∨ x ∈ s.closeCalled
  /-- Before shutdown no step starts a close under a lease. -/
  unleased : s.closed = false → ∀ action s', managerNext maxLoadedModels casefold s action = some s' →
    ∀ x ∈ s'.closeCalled.drop s.closeCalled.length, ∀ l ∈ s.leases, l.runtime = x → l.status = .released
  /-- No step starts a close on a runtime whose close has returned. -/
  closed_once : ∀ action s', managerNext maxLoadedModels casefold s action = some s' →
    ∀ x ∈ s'.closeCalled.drop s.closeCalled.length, x ∉ s.closeReturned
  /-- When shutdown and all other calls have ended, every runtime has been closed. -/
  all_closed : s.closed = true → (∀ c ∈ s.calls, c = .ended) → ∀ x < s.loadedFor.length,
    x ∈ s.closeCalled

/-- **Custody of the runtimes.** In every run in which an eviction that fails overwrites no runtime
that was never closed, the manager keeps what it promises. -/
theorem runtimes_in_custody (maxLoadedModels : Option Nat) (casefold : String → String)
    {s : ManagerState}
    (hreach : (managerMachine maxLoadedModels casefold).Reach RestoresOverNothing .initial s) :
    RuntimesKept maxLoadedModels casefold s := by
  have hs : Custodian s := hreach.invariant Custodian.initial fun _ _ _ hs hover hnext =>
    hs.step hover (managerNext_cases hnext)
  have hkept : ∀ x m, s.loadedFor[x]? = some m → s.runtimes m = some x ∨ x ∈ s.closeCalled := by
    intro x m hx
    rcases hs.safe.kept x m hx with hheld | hcalled | hloose
    · exact Or.inl hheld
    · exact Or.inr hcalled
    · cases hloose
  exact {
    held_or_closed := hkept
    unleased := fun hopen action s' hnext x hx =>
      (hs.starts_close (managerNext_cases hnext) hx).1 hopen
    closed_once := fun action s' hnext x hx => (hs.starts_close (managerNext_cases hnext) hx).2
    all_closed := by
      intro hclosed hended x hx
      have hmade : s.loadedFor[x]? = some s.loadedFor[x] := List.getElem?_eq_getElem hx
      rcases hkept x _ hmade with hheld | hcalled
      · rcases hs.pending hclosed s.loadedFor[x] with hcovers | ⟨c, hc, hpending⟩
        · exact (hcovers x hheld).resolve_left fun hnone => by cases hnone
        · rw [hended c hc] at hpending
          exact absurd hpending List.not_mem_nil
      · exact hcalled }

/-- Two models are loaded, one of them is unloaded again, and the manager is shut down. -/
def loadsAndShutdown : List ManagerAction :=
  [.register "a", .register "b",
    .load "a", .advance 0 ⟨true, 1⟩, .advance 0 ⟨true, 2⟩, .advance 0 ⟨true, 3⟩,
    .load "b", .advance 1 ⟨true, 4⟩, .advance 1 ⟨true, 5⟩, .advance 1 ⟨true, 6⟩,
    .returnLease 0, .releaseLease 0 7,
    .unload "a", .advance 2 ⟨true, 8⟩, .advance 2 ⟨true, 9⟩,
    .shutdown, .advance 3 ⟨true, 10⟩, .advance 3 ⟨true, 11⟩, .advance 3 ⟨true, 12⟩,
    .advance 3 ⟨true, 13⟩, .advance 3 ⟨true, 14⟩, .advance 3 ⟨true, 15⟩, .advance 3 ⟨true, 16⟩]

theorem runtimes_in_custody_of_loads_and_shutdown :
    ∃ s, (managerMachine none id).Reach RestoresOverNothing .initial s ∧
      s.closed = true ∧ s.calls = [.ended, .ended, .ended, .ended] ∧ s.loadedFor = ["a", "b"] ∧
      RuntimesKept none id s := by
  have hrun : ((managerMachine none id).run .initial loadsAndShutdown).map
      (fun s => (s.closed, s.calls, s.loadedFor)) =
        some (true, [.ended, .ended, .ended, .ended], ["a", "b"]) := by
    decide +kernel
  have halong : (managerMachine none id).Along RestoresOverNothing .initial loadsAndShutdown := by
    decide +kernel
  obtain ⟨s, hrun, hview⟩ := Option.map_eq_some_iff.mp hrun
  simp only [Prod.mk.injEq] at hview
  obtain ⟨hclosed, hcalls, hloaded⟩ := hview
  have hreach := Machine.reach_of_run hrun halong
  exact ⟨s, hreach, hclosed, hcalls, hloaded, runtimes_in_custody none id hreach⟩

/-- A load of a third model evicts "c", and while its runtime is being closed "c" is loaded again. Then
that close fails, and the manager is shut down. -/
def refilledDuringEviction : List ManagerAction :=
  [.register "a", .register "b", .register "c",
    .load "c", .advance 0 ⟨true, 1⟩, .advance 0 ⟨true, 2⟩, .advance 0 ⟨true, 3⟩,
    .load "b", .advance 1 ⟨true, 4⟩, .advance 1 ⟨true, 5⟩, .advance 1 ⟨true, 6⟩,
    .returnLease 0, .releaseLease 0 7, .returnLease 1, .releaseLease 1 8,
    .load "a", .advance 2 ⟨true, 9⟩, .advance 2 ⟨true, 10⟩,
    .unload "b", .advance 3 ⟨true, 11⟩, .advance 3 ⟨true, 12⟩,
    .load "c", .advance 4 ⟨true, 13⟩, .advance 4 ⟨true, 14⟩, .advance 4 ⟨true, 15⟩,
    .advance 2 ⟨false, 16⟩,
    .shutdown, .advance 5 ⟨true, 17⟩, .advance 5 ⟨true, 18⟩, .advance 5 ⟨true, 19⟩,
    .advance 5 ⟨true, 20⟩, .advance 5 ⟨true, 21⟩, .advance 5 ⟨true, 22⟩, .advance 5 ⟨true, 23⟩,
    .advance 5 ⟨true, 24⟩, .advance 5 ⟨true, 25⟩]

/-- **A runtime is lost.** The second runtime of "c" is overwritten by the first one, and when shutdown
has returned it has never been closed. -/
theorem refilled_runtime_lost :
    ¬ ∀ s, (managerMachine (some 2) id).Reach Machine.always .initial s →
      RuntimesKept (some 2) id s := by
  have hrun : ((managerMachine (some 2) id).run .initial refilledDuringEviction).map
      (fun s => (s.closed, s.calls.all (· == .ended), s.loadedFor, s.closeCalled)) =
        some (true, true, ["c", "b", "c"], [0, 1, 0]) := by
    decide +kernel
  obtain ⟨s, hrun, hview⟩ := Option.map_eq_some_iff.mp hrun
  simp only [Prod.mk.injEq] at hview
  obtain ⟨hclosed, hended, hloaded, hcalled⟩ := hview
  intro hkept
  have hs := hkept s (Machine.reach_always_of_run hrun)
  have hcalls : ∀ c ∈ s.calls, c = .ended := fun c hc => eq_of_beq (List.all_eq_true.mp hended c hc)
  have htwo : 2 ∈ s.closeCalled := hs.all_closed hclosed hcalls 2 (by rw [hloaded]; decide)
  rw [hcalled] at htwo
  revert htwo
  decide

end Drift.Node
