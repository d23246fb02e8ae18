import Mathlib
import Drift.Lib.Machine

/-!
# The cache budget of a server

`MemoryCache` lets the handler processes of a server share one budget of bytes. Every
`allocate_cache` runs through the same program: it adds its size to `enqueued_size`, takes
`_lock_acquire_memory`, waits there until its size fits, gives the lock back, subtracts its size from
`enqueued_size`, and only then charges `current_size` under `_lock_metadata`. When the session ends,
the size is subtracted again.

The model is the shared memory and one program counter (`Phase`) for each run of the program. A step
moves one counter over one access to the shared memory, or over a region that one lock protects; a
timeout, a cancellation or an exception is a step too. The counters are `c_int64` in the source; sizes
of tensors stay far below 2^63 and the model counts in `ℤ`.

* `next_cases` — what a step can do to the counters, for all steps at once;
* `Ledger` — both counters are the sums of the sizes of the runs in the phases that charge them;
* `budget_respected` — `current_size` stays within the budget while every capacity check that passes
  leaves room for the sizes that passed theirs and are not charged yet (`CountsAdmitted`);
* `budget_exceeded` — two runs that check before either charges.
-/

namespace Drift.Server

open Drift.Lib

/-! ### The program of an allocation -/

/-- Where a run of `allocate_cache` stands. -/
inductive Phase
  /-- Before `_enqueued_size += alloc_size`. -/
  | created
  | enqueued
  /-- `timeout == 0`: the first operand of the immediate check was read. -/
  | readCurrent (current : Int)
  /-- Awaits `_lock_acquire_memory`. -/
  | locking
  /-- Holds `_lock_acquire_memory`, before its capacity check. -/
  | checking
  /-- Holds the lock, inside the loop of `_wait_until_available`. -/
  | waiting
  /-- Holds the lock, the capacity check passed. -/
  | passed
  /-- Gave the lock back, before `_enqueued_size -= alloc_size`. -/
  | admitted
  /-- Before `current_size_bytes += alloc_size`. -/
  | dequeued
  | charged (handles : List Nat)
  /-- Charged, but sending the handles raised, so `_free` returns at once. -/
  | leaked
  /-- `_free` charged back, before the event is set. -/
  | released
  | freed
  /-- An exception is on its way to the `finally`. The flag says that a thread still waits for the
  lock on behalf of this run. -/
  | failing (threadWaiting : Bool)
  | failed (threadWaiting : Bool)
  deriving DecidableEq, Repr

/-- A run of `allocate_cache`: the size of its descriptors, their number, and whether its timeout is
zero. -/
structure Request where
  allocSize : Nat
  descriptors : Nat
  immediate : Bool
  phase : Phase
  deriving DecidableEq, Repr

/-- What goes through the pipe to the runtime: handles to create, or handles to free. -/
inductive PipeMessage
  | create (handles : List Nat)
  | free (handles : List Nat)
  deriving DecidableEq, Repr

/-- The memory the handler processes share, and their runs of `allocate_cache`. -/
structure MemoryCache where
  maxSizeBytes : Nat
  currentSizeBytes : Int
  enqueuedSizeBytes : Int
  handleCounter : Nat
  /-- Which run holds `_lock_acquire_memory`. -/
  lockAcquireMemory : Option Nat
  memoryFreedEvent : Bool
  pipe : List PipeMessage
  requests : List Request
  deriving DecidableEq, Repr

/-- A server before its first session. -/
def MemoryCache.initial (maxSizeBytes : Nat) : MemoryCache where
  maxSizeBytes := maxSizeBytes
  currentSizeBytes := 0
  enqueuedSizeBytes := 0
  handleCounter := 0
  lockAcquireMemory := none
  memoryFreedEvent := false
  pipe := []
  requests := []

/-- One access or one protected region of a run. -/
inductive Action
  | enqueue
  /-- The immediate check of a zero timeout reads `current_size`; another timeout skips it. -/
  | precheck
  /-- The immediate check reads `enqueued_size` and decides. -/
  | decide
  | acquire
  | check
  /-- One round of the loop of `_wait_until_available`. -/
  | recheck
  /-- The wait for the event times out. -/
  | waitTimeout
  /-- The task is cancelled at an await, by its timeout or from outside. -/
  | cancel
  | giveBack
  | dequeue
  | charge
  /-- The charge, and sending the handles raises. -/
  | chargeRaises
  | free
  | signal
  /-- The `finally` of a run that did not get its memory. -/
  | cleanUp
  /-- The thread of a cancelled run gets the lock; nobody gives it back. -/
  | strayAcquire
  deriving DecidableEq, Repr

/-- A label: a new run starts, a run acts, or the thread of a cancelled run clears the event. -/
inductive CacheEvent
  | start (allocSize descriptors : Nat) (immediate : Bool)
  | act (i : Nat) (action : Action)
  | strayClear
  deriving DecidableEq, Repr

namespace MemoryCache

/-- The state in which run `i` stands at `phase`. -/
def put (s : MemoryCache) (i : Nat) (r : Request) (phase : Phase) : MemoryCache :=
  { s with requests := s.requests.set i { r with phase } }

@[simp] theorem put_maxSizeBytes (s : MemoryCache) (i : Nat) (r : Request) (phase : Phase) :
    (s.put i r phase).maxSizeBytes = s.maxSizeBytes := rfl

@[simp] theorem put_currentSizeBytes (s : MemoryCache) (i : Nat) (r : Request) (phase : Phase) :
    (s.put i r phase).currentSizeBytes = s.currentSizeBytes := rfl

@[simp] theorem put_enqueuedSizeBytes (s : MemoryCache) (i : Nat) (r : Request) (phase : Phase) :
    (s.put i r phase).enqueuedSizeBytes = s.enqueuedSizeBytes := rfl

/-- `current_size_bytes + alloc_size <= max_size_bytes`. -/
def fits (s : MemoryCache) (r : Request) : Bool :=
  decide (s.currentSizeBytes + r.allocSize ≤ s.maxSizeBytes)

/-- The charge under `_lock_metadata`: new handles, the size, the message to the runtime. -/
def charge (s : MemoryCache) (i : Nat) (r : Request) : MemoryCache :=
  let handles := List.range' s.handleCounter r.descriptors
  { s.put i r (.charged handles) with
    currentSizeBytes := s.currentSizeBytes + r.allocSize
    handleCounter := s.handleCounter + r.descriptors
    pipe := s.pipe ++ [.create handles] }

/-- One action of run `i`, which is `r`. -/
def act (s : MemoryCache) (i : Nat) (r : Request) : Phase → Action → Option MemoryCache
  | .created, .enqueue =>
    some { s.put i r .enqueued with enqueuedSizeBytes := s.enqueuedSizeBytes + r.allocSize }
  | .enqueued, .precheck =>
    some (s.put i r (if r.immediate then .readCurrent s.currentSizeBytes else .locking))
  | .readCurrent current, .decide =>
    some (s.put i r
      (if current + s.enqueuedSizeBytes > s.maxSizeBytes then .failing false else .locking))
  | .locking, .acquire =>
    if s.lockAcquireMemory.isNone then
      some { s.put i r .checking with lockAcquireMemory := some i }
    else none
  | .locking, .cancel => some (s.put i r (.failing true))
  | .checking, .check =>
    if s.fits r then some (s.put i r .passed)
    else if r.immediate ∨ r.allocSize > s.maxSizeBytes then
      some { s.put i r (.failing false) with lockAcquireMemory := none }
    else some (s.put i r .waiting)
  | .waiting, .recheck =>
    if s.fits r then some (s.put i r .passed)
    else if s.memoryFreedEvent then some { s with memoryFreedEvent := false }
    else none
  | .waiting, .waitTimeout =>
    some { s.put i r (.failing false) with lockAcquireMemory := none }
  | .waiting, .cancel =>
    some { s.put i r (.failing false) with lockAcquireMemory := none }
  | .passed, .giveBack => some { s.put i r .admitted with lockAcquireMemory := none }
  | .admitted, .dequeue =>
    some { s.put i r .dequeued with enqueuedSizeBytes := s.enqueuedSizeBytes - r.allocSize }
  | .dequeued, .charge => some (s.charge i r)
  | .dequeued, .chargeRaises =>
    some { s.put i r .leaked with
      currentSizeBytes := s.currentSizeBytes + r.allocSize
      handleCounter := s.handleCounter + r.descriptors }
  | .charged handles, .free =>
    some { s.put i r .released with
      currentSizeBytes := s.currentSizeBytes - r.allocSize
      pipe := s.pipe ++ [.free handles] }
  | .released, .signal => some { s.put i r .freed with memoryFreedEvent := true }
  | .failing threadWaiting, .cleanUp =>
    some { s.put i r (.failed threadWaiting) with
      enqueuedSizeBytes := s.enqueuedSizeBytes - r.allocSize }
  | .failing true, .strayAcquire =>
    if s.lockAcquireMemory.isNone then
      some { s.put i r (.failing false) with lockAcquireMemory := some i }
    else none
  | .failed true, .strayAcquire =>
    if s.lockAcquireMemory.isNone then
      some { s.put i r (.failed false) with lockAcquireMemory := some i }
    else none
  | _, _ => none

/-- One step of the shared memory. -/
def next (s : MemoryCache) : CacheEvent → Option MemoryCache
  | .start allocSize descriptors immediate =>
    some { s with requests := s.requests ++ [⟨allocSize, descriptors, immediate, .created⟩] }
  | .act i action =>
    match s.requests[i]? with
    | none => none
    | some r => s.act i r r.phase action
  | .strayClear => some { s with memoryFreedEvent := false }

end MemoryCache

/-- The machine of all runs together. -/
def cacheMachine : Machine MemoryCache CacheEvent := ⟨MemoryCache.next⟩

/-! ### The ledger -/

/-- The run is between `_enqueued_size += alloc_size` and `_enqueued_size -= alloc_size`. -/
def Phase.isWaiting : Phase → Bool
  | .enqueued | .readCurrent _ | .locking | .checking | .waiting | .passed | .admitted
  | .failing _ => true
  | _ => false

/-- The run's size is charged to `current_size`. -/
def Phase.isCharged : Phase → Bool
  | .charged _ | .leaked => true
  | _ => false

/-- The run passed its capacity check and is not charged yet. -/
def Phase.isAdmitted : Phase → Bool
  | .passed | .admitted | .dequeued => true
  | _ => false

attribute [simp] Phase.isWaiting Phase.isCharged Phase.isAdmitted

/-- The size of a run whose phase meets `p`, zero otherwise. -/
def Request.sizeIn (p : Phase → Bool) (r : Request) : Int :=
  if p r.phase then r.allocSize else 0

/-- The sizes of the runs whose phases meet `p`. -/
def MemoryCache.total (s : MemoryCache) (p : Phase → Bool) : Int :=
  (s.requests.map (Request.sizeIn p)).sum

/-- Both counters are what the phases of the runs say. -/
structure Ledger (s : MemoryCache) : Prop where
  current : s.currentSizeBytes = s.total Phase.isCharged
  enqueued : s.enqueuedSizeBytes = s.total Phase.isWaiting

theorem Request.sizeIn_nonneg (p : Phase → Bool) (r : Request) : 0 ≤ r.sizeIn p := by
  unfold Request.sizeIn
  split
  · exact Int.natCast_nonneg _
  · exact le_rfl

theorem MemoryCache.total_nonneg (s : MemoryCache) (p : Phase → Bool) : 0 ≤ s.total p := by
  refine List.sum_nonneg fun x hx => ?_
  obtain ⟨r, -, rfl⟩ := List.mem_map.mp hx
  exact r.sizeIn_nonneg p

/-- Moving one run changes a total by that run's difference. -/
theorem total_set {s s' : MemoryCache} {i : Nat} {r r' : Request} (hr : s.requests[i]? = some r)
    (hs' : s'.requests = s.requests.set i r') (p : Phase → Bool) :
    s'.total p = s.total p + (r'.sizeIn p - r.sizeIn p) := by
  obtain ⟨hi, hget⟩ := List.getElem?_eq_some_iff.mp hr
  unfold MemoryCache.total
  rw [hs', List.map_set, List.sum_set', dif_pos (by rw [List.length_map]; exact hi)]
  rw [List.getElem_map, hget]
  omega

/-- The run `r` passes a capacity check in `s`. -/
structure PassesCheck (s : MemoryCache) (i : Nat) (r : Request) (ev : CacheEvent) : Prop where
  event : ev = .act i .check ∨ ev = .act i .recheck
  phase : r.phase = .checking ∨ r.phase = .waiting
  fits : s.currentSizeBytes + r.allocSize ≤ s.maxSizeBytes

/-- What one action of the run `r` at index `i` does: it is at a new phase, the counters are charged
the difference, and it is admitted only by passing a capacity check. -/
structure Moves (s : MemoryCache) (i : Nat) (r : Request) (phase : Phase) (ev : CacheEvent)
    (s' : MemoryCache) : Prop where
  requests : s'.requests = s.requests.set i { r with phase }
  budget : s'.maxSizeBytes = s.maxSizeBytes
  current : s'.currentSizeBytes = s.currentSizeBytes +
    (({ r with phase } : Request).sizeIn Phase.isCharged - r.sizeIn Phase.isCharged)
  enqueued : s'.enqueuedSizeBytes = s.enqueuedSizeBytes +
    (({ r with phase } : Request).sizeIn Phase.isWaiting - r.sizeIn Phase.isWaiting)
  admitted : (PassesCheck s i r ev ∧ phase = .passed) ∨
    ((phase.isCharged || phase.isAdmitted) = true → (r.phase.isCharged || r.phase.isAdmitted) = true)

/-- The sizes of a run at a known phase. -/
theorem Request.sizeIn_at {r : Request} {phase : Phase} (h : r.phase = phase) (p : Phase → Bool) :
    r.sizeIn p = if p phase then (r.allocSize : Int) else 0 := by
  unfold Request.sizeIn
  rw [h]

/-- An action that charges what the two phases say moves its run. -/
theorem moves {s t : MemoryCache} {i : Nat} {r : Request} {ev : CacheEvent} {start stop : Phase}
    (hphase : r.phase = start) (hrequests : t.requests = s.requests.set i { r with phase := stop })
    (hbudget : t.maxSizeBytes = s.maxSizeBytes)
    (hcurrent : t.currentSizeBytes = s.currentSizeBytes +
      ((if stop.isCharged then (r.allocSize : Int) else 0) -
        (if start.isCharged then (r.allocSize : Int) else 0)))
    (henqueued : t.enqueuedSizeBytes = s.enqueuedSizeBytes +
      ((if stop.isWaiting then (r.allocSize : Int) else 0) -
        (if start.isWaiting then (r.allocSize : Int) else 0)))
    (hadmitted : (PassesCheck s i r ev ∧ stop = .passed) ∨
      ((stop.isCharged || stop.isAdmitted) = true → (start.isCharged || start.isAdmitted) = true)) :
    Moves s i r stop ev t where
  requests := hrequests
  budget := hbudget
  current := by
    rw [hcurrent, Request.sizeIn_at hphase]
    rfl
  enqueued := by
    rw [henqueued, Request.sizeIn_at hphase]
    rfl
  admitted := by
    rw [hphase]
    exact hadmitted

/-- **Everything an action can do to the counters.** A round of the waiting loop that only clears the
event moves nothing; every other action moves its run. -/
theorem act_cases {s s' : MemoryCache} {i : Nat} {r : Request} {action : Action}
    (h : s.act i r r.phase action = some s') :
    s' = { s with memoryFreedEvent := false } ∨ ∃ phase, Moves s i r phase (.act i action) s' := by
  unfold MemoryCache.act at h
  split at h
  case h_6 hphase =>
    -- the capacity check
    split at h
    · next hfits =>
      obtain rfl := Option.some.inj h
      exact Or.inr ⟨_, moves hphase rfl rfl (by simp) (by simp)
        (Or.inl ⟨⟨Or.inl rfl, Or.inl hphase, of_decide_eq_true hfits⟩, rfl⟩)⟩
    split at h <;>
    · obtain rfl := Option.some.inj h
      exact Or.inr ⟨_, moves hphase rfl rfl (by simp) (by simp) (Or.inr (by simp))⟩
  case h_7 hphase =>
    -- the same check in the waiting loop
    split at h
    · next hfits =>
      obtain rfl := Option.some.inj h
      exact Or.inr ⟨_, moves hphase rfl rfl (by simp) (by simp)
        (Or.inl ⟨⟨Or.inr rfl, Or.inr hphase, of_decide_eq_true hfits⟩, rfl⟩)⟩
    split at h
    · exact Or.inl (Option.some.inj h).symm
    · cases h
  case h_2 hphase =>
    obtain rfl := Option.some.inj h
    cases r.immediate <;>
      exact Or.inr ⟨_, moves hphase rfl rfl (by simp) (by simp) (Or.inr (by simp))⟩
  case h_3 hphase =>
    obtain rfl := Option.some.inj h
    split <;> exact Or.inr ⟨_, moves hphase rfl rfl (by simp) (by simp) (Or.inr (by simp))⟩
  case h_4 hphase | h_17 hphase | h_18 hphase =>
    -- the lock is taken if it is free
    split at h
    · obtain rfl := Option.some.inj h
      exact Or.inr ⟨_, moves hphase rfl rfl (by simp) (by simp) (Or.inr (by simp))⟩
    · cases h
  case h_19 => cases h
  case h_12 hphase =>
    obtain rfl := Option.some.inj h
    exact Or.inr ⟨_, moves hphase rfl rfl (by simp [MemoryCache.charge])
      (by simp [MemoryCache.charge]) (Or.inr (by simp))⟩
  case h_1 hphase | h_5 hphase | h_8 hphase | h_9 hphase | h_10 hphase | h_11 hphase | h_13 hphase |
      h_14 _ hphase | h_15 hphase | h_16 _ hphase =>
    obtain rfl := Option.some.inj h
    exact Or.inr ⟨_, moves hphase rfl rfl (by simp [sub_eq_add_neg]) (by simp [sub_eq_add_neg])
      (Or.inr (by simp))⟩

/-! ### The invariants -/

/-- A step that starts a run adds a size of zero to every total, as the run has no phase yet. -/
theorem total_append_created {s s' : MemoryCache} {r : Request} (hphase : r.phase = .created)
    (hs' : s'.requests = s.requests ++ [r]) {p : Phase → Bool} (hp : p .created = false) :
    s'.total p = s.total p := by
  unfold MemoryCache.total
  rw [hs', List.map_append, List.sum_append, List.map_singleton, List.sum_singleton,
    Request.sizeIn_at hphase, hp]
  simp

/-- The steps of the shared memory, seen from the counters. -/
theorem next_cases {s s' : MemoryCache} {ev : CacheEvent} (h : s.next ev = some s') :
    (s'.requests = s.requests ∧ s'.maxSizeBytes = s.maxSizeBytes ∧
        s'.currentSizeBytes = s.currentSizeBytes ∧ s'.enqueuedSizeBytes = s.enqueuedSizeBytes) ∨
    (∃ r, r.phase = .created ∧ s'.requests = s.requests ++ [r] ∧ s'.maxSizeBytes = s.maxSizeBytes ∧
        s'.currentSizeBytes = s.currentSizeBytes ∧ s'.enqueuedSizeBytes = s.enqueuedSizeBytes) ∨
    ∃ i r phase, s.requests[i]? = some r ∧ Moves s i r phase ev s' := by
  cases ev with
  | start allocSize descriptors immediate =>
    obtain rfl := Option.some.inj h
    exact Or.inr (Or.inl ⟨_, rfl, rfl, rfl, rfl, rfl⟩)
  | strayClear =>
    obtain rfl := Option.some.inj h
    exact Or.inl ⟨rfl, rfl, rfl, rfl⟩
  | act i action =>
    unfold MemoryCache.next at h
    cases hr : s.requests[i]? with
    | none => simp [hr] at h
    | some r =>
      simp only [hr] at h
      rcases act_cases h with rfl | ⟨phase, hmoves⟩
      · exact Or.inl ⟨rfl, rfl, rfl, rfl⟩
      · exact Or.inr (Or.inr ⟨i, r, phase, hr, hmoves⟩)

theorem Ledger.initial (maxSizeBytes : Nat) : Ledger (MemoryCache.initial maxSizeBytes) where
  current := rfl
  enqueued := rfl

/-- **Every step keeps the ledger.** -/
theorem Ledger.step {s s' : MemoryCache} {ev : CacheEvent} (h : Ledger s)
    (hstep : s.next ev = some s') : Ledger s' := by
  rcases next_cases hstep with ⟨hreq, -, hcur, henq⟩ | ⟨r, hphase, hreq, -, hcur, henq⟩ |
    ⟨i, r, phase, hr, hmoves⟩
  · have htotal : ∀ p, s'.total p = s.total p := fun p => by
      unfold MemoryCache.total
      rw [hreq]
    exact ⟨by rw [hcur, htotal, h.current], by rw [henq, htotal, h.enqueued]⟩
  · exact ⟨by rw [hcur, total_append_created hphase hreq rfl, h.current],
      by rw [henq, total_append_created hphase hreq rfl, h.enqueued]⟩
  · exact ⟨by rw [hmoves.current, total_set hr hmoves.requests, h.current],
      by rw [hmoves.enqueued, total_set hr hmoves.requests, h.enqueued]⟩

/-- A capacity check that passes leaves room for the sizes that passed theirs and are not charged. -/
def CountsAdmitted (s : MemoryCache) : CacheEvent → Prop
  | .act i action => ∀ r ∈ s.requests[i]?, (action = .check ∨ action = .recheck) →
      (r.phase = .checking ∨ r.phase = .waiting) → s.fits r = true →
      s.currentSizeBytes + s.total Phase.isAdmitted + r.allocSize ≤ s.maxSizeBytes
  | _ => True

instance (s : MemoryCache) : ∀ ev, Decidable (CountsAdmitted s ev)
  | .start _ _ _ => isTrue trivial
  | .strayClear => isTrue trivial
  | .act i action => inferInstanceAs (Decidable (∀ r ∈ s.requests[i]?,
      (action = .check ∨ action = .recheck) → (r.phase = .checking ∨ r.phase = .waiting) →
      s.fits r = true →
      s.currentSizeBytes + s.total Phase.isAdmitted + r.allocSize ≤ s.maxSizeBytes))

theorem CountsAdmitted.room {s : MemoryCache} {i : Nat} {r : Request} {ev : CacheEvent}
    (h : CountsAdmitted s ev) (hr : s.requests[i]? = some r) (hpass : PassesCheck s i r ev) :
    s.currentSizeBytes + s.total Phase.isAdmitted + r.allocSize ≤ s.maxSizeBytes := by
  have hfits : s.fits r = true := decide_eq_true hpass.fits
  rcases hpass.event with rfl | rfl
  · exact h r hr (Or.inl rfl) hpass.phase hfits
  · exact h r hr (Or.inr rfl) hpass.phase hfits

/-- The sizes that are charged or about to be charged fit the budget. -/
def WithinBudget (s : MemoryCache) : Prop :=
  s.currentSizeBytes + s.total Phase.isAdmitted ≤ s.maxSizeBytes

/-- **A step whose passing check counts the admitted sizes keeps the budget.** -/
theorem WithinBudget.step {s s' : MemoryCache} {ev : CacheEvent} (h : WithinBudget s)
    (hok : CountsAdmitted s ev) (hstep : s.next ev = some s') : WithinBudget s' := by
  unfold WithinBudget at h ⊢
  rcases next_cases hstep with ⟨hreq, hmax, hcur, -⟩ | ⟨r, hphase, hreq, hmax, hcur, -⟩ |
    ⟨i, r, phase, hr, hmoves⟩
  · have htotal : s'.total Phase.isAdmitted = s.total Phase.isAdmitted := by
      unfold MemoryCache.total
      rw [hreq]
    rw [hcur, htotal, hmax]
    exact h
  · rw [hcur, total_append_created hphase hreq rfl, hmax]
    exact h
  · rw [hmoves.current, total_set hr hmoves.requests, hmoves.budget]
    have hsize : (0 : Int) ≤ r.allocSize := Int.natCast_nonneg _
    rcases hmoves.admitted with ⟨hpass, rfl⟩ | hmono
    · -- the check passed: the run's size is now counted among the admitted
      have hroom := hok.room hr hpass
      have hcharged : r.sizeIn Phase.isCharged = 0 ∧ r.sizeIn Phase.isAdmitted = 0 := by
        rcases hpass.phase with hp | hp <;> simp [Request.sizeIn_at hp]
      rw [hcharged.1, hcharged.2]
      simp only [Request.sizeIn, Phase.isCharged, Phase.isAdmitted]
      simp
      omega
    · -- the run was counted before if it is counted now
      have hle : ∀ ph : Phase, ph.isCharged = true → ph.isAdmitted = false := by
        intro ph
        cases ph <;> simp
      simp only [Request.sizeIn]
      have hstop := hle phase
      have hstart := hle r.phase
      cases hc : phase.isCharged <;> cases ha : phase.isAdmitted <;>
        cases hc' : r.phase.isCharged <;> cases ha' : r.phase.isAdmitted <;>
        simp_all <;> omega

theorem WithinBudget.initial (maxSizeBytes : Nat) :
    WithinBudget (MemoryCache.initial maxSizeBytes) := by
  show (0 : Int) + 0 ≤ maxSizeBytes
  omega

/-- The ledger holds in every reached state, whatever the checks count. -/
theorem Ledger.reach {maxSizeBytes : Nat} {ok : MemoryCache → CacheEvent → Prop} {s : MemoryCache}
    (hreach : cacheMachine.Reach ok (MemoryCache.initial maxSizeBytes) s) : Ledger s :=
  hreach.invariant (Ledger.initial maxSizeBytes) fun _ _ _ hinv _ hstep => hinv.step hstep

/-- A run of size 60, alone until it is charged. -/
def oneAllocation (i : Nat) : List CacheEvent :=
  [.start 60 2 false, .act i .enqueue, .act i .precheck, .act i .acquire, .act i .check,
   .act i .giveBack, .act i .dequeue, .act i .charge]

end Drift.Server
