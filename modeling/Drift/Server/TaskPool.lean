import Drift.Lib.Machine
import Mathlib.Data.List.MinMax
import Mathlib.Data.List.Sort
import Mathlib.Data.Prod.Lex

/-!
# Task pools

A pool takes tasks from the connection handlers and hands them to the runtime, the most urgent one first.
Tasks travel from the handlers through a queue to a heap of the runtime's process, and a pipe counts them
on the way. The runtime looks at the pools that are not empty and loads from the one with the smallest
priority, a value in shared memory that both sides maintain: a submission lowers it, and a load sets it to
the first task that is left in the heap.

* `Pool`, `poolSteps` — the steps of both processes, a load in the two halves between which the others may
  act;
* `Pool.Shows` — the priority is that of the most urgent task, the one in hand included;
* `Pool.Admits` — the steps that keep it so: `promise_iff_admits`;
* `pool_priority_truthful_iff` — the runs in which the priority is truthful, and what the runtime makes of
  it.

The priority is left as it was when the heap is empty. A pool that has been emptied therefore shows its
last task until a more urgent one comes; and tasks that have not reached the heap are not looked at.
-/

namespace Drift.Server.Pools

open Drift.Lib

variable {π τ : Type} [LinearOrder π] [LinearOrder τ]

/-- `Task`: it is ordered by its priority and its time of submission. -/
structure Task (π τ : Type) where
  priority : π
  timeSubmitted : τ
  uid : Nat
  /-- `get_task_size` of its arguments. -/
  size : Nat

/-- What tasks are compared by. -/
def Task.key (t : Task π τ) : π ×ₗ τ := toLex (t.priority, t.timeSubmitted)

/-- `PrioritizedTaskPool`. -/
structure Pool (π τ : Type) where
  maxBatchSize : Nat
  submittedTasks : List (Task π τ)
  /-- The heap, from its first task. -/
  orderedTasks : List (Task π τ)
  /-- What the pipe holds. -/
  batches : Nat
  /-- `_priority` and `_oldest_undispatched_timestamp`. -/
  priority : π ×ₗ τ
  /-- The task that `load_batch_to_runtime` has taken, until it has set the priority. -/
  loading : Option (Task π τ)

/-- A new pool. -/
def Pool.initial [OrderTop π] [OrderTop τ] (maxBatchSize : Nat) : Pool π τ :=
  ⟨maxBatchSize, [], [], 0, toLex (⊤, ⊤), none⟩

namespace Pool

variable (s : Pool π τ)

/-- `submit_task`. A task that is too large gets an exception, and is not queued. -/
def submitTask (t : Task π τ) : Pool π τ :=
  if s.maxBatchSize < t.size then s
  else
    { s with
      submittedTasks := s.submittedTasks ++ [t]
      batches := s.batches + 1
      priority := if t.key < s.priority then t.key else s.priority }

/-- One iteration of `run`. -/
def transfer : Option (Pool π τ) :=
  match s.submittedTasks with
  | [] => none
  | t :: rest =>
    some { s with
      submittedTasks := rest
      orderedTasks := s.orderedTasks.orderedInsert (fun a b => a.key ≤ b.key) t }

/-- The first half of `load_batch_to_runtime`: the first task of the heap, and one message of the pipe. -/
def take : Option (Pool π τ) :=
  match s.loading, s.orderedTasks with
  | none, t :: rest =>
    some { s with orderedTasks := rest, batches := s.batches - 1, loading := some t }
  | _, _ => none

/-- The second half: the priority of the first task that is left. -/
def setPriority : Option (Pool π τ) :=
  match s.loading with
  | none => none
  | some _ =>
    some { s with
      loading := none
      priority :=
        match s.orderedTasks with
        | t :: _ => t.key
        | [] => s.priority }

/-- `empty`. -/
def empty : Bool := s.batches == 0

end Pool

/-- The steps of the two processes. -/
inductive PoolEvent (π τ : Type)
  | submitTask (t : Task π τ)
  | transfer
  | take
  | setPriority

/-- Pools as a machine. -/
def poolSteps : Machine (Pool π τ) (PoolEvent π τ) where
  next s
    | .submitTask t => some (s.submitTask t)
    | .transfer => s.transfer
    | .take => s.take
    | .setPriority => s.setPriority

/-- The choice of `iterate_minibatches_from_pools`: the first of the ready pools with the least priority. -/
def choosePool (pools : List (Pool π τ)) : Option (Pool π τ) :=
  (pools.filter fun pool => !pool.empty).argmin Pool.priority

/-! ### What a pool promises -/

namespace Pool

/-- The tasks that wait. -/
def waiting (s : Pool π τ) : List (Task π τ) := s.submittedTasks ++ s.orderedTasks

/-- A value is that of the most urgent of some tasks. -/
def MostUrgent (key : π ×ₗ τ) (tasks : List (Task π τ)) : Prop :=
  (∃ t ∈ tasks, t.key = key) ∧ ∀ t ∈ tasks, key ≤ t.key

/-- Outside a load, the priority is that of the most urgent waiting task. -/
def Truthful (s : Pool π τ) : Prop :=
  s.loading = none → s.waiting ≠ [] → MostUrgent s.priority s.waiting

/-- What a step promises: the pool is truthful after it, and a task that is taken is the most urgent. -/
def Promise (s : Pool π τ) (e : PoolEvent π τ) : Prop :=
  ∀ s', poolSteps.next s e = some s' → s'.Truthful ∧
    (∀ t, e = .take → s'.loading = some t → ∀ other ∈ s.waiting, t.key ≤ other.key)

/-- The condition of a step. A task that is submitted to a pool where nothing waits is at least as urgent as
what the pool shows; and no task that has not reached the heap is more urgent than the heap's first one, nor
is one left outside an empty heap, unless it is as urgent as the task in hand. -/
def Admits (s : Pool π τ) : PoolEvent π τ → Prop
  | .submitTask t => t.size ≤ s.maxBatchSize → s.loading = none → s.waiting = [] → t.key ≤ s.priority
  | .transfer => True
  | .take => s.loading = none → ∀ first ∈ s.orderedTasks.head?, ∀ t ∈ s.submittedTasks, first.key ≤ t.key
  | .setPriority => ∀ x ∈ s.loading,
    (∀ first ∈ s.orderedTasks.head?, ∀ t ∈ s.submittedTasks, first.key ≤ t.key) ∧
      (s.orderedTasks = [] → s.submittedTasks ≠ [] → ∃ t ∈ s.submittedTasks, t.key ≤ x.key)

/-- **The invariant**: the heap is in order, the pipe counts the waiting tasks, and the priority is that of
the most urgent task, the one in hand included. -/
structure Shows (s : Pool π τ) : Prop where
  sorted : s.orderedTasks.Pairwise fun a b => a.key ≤ b.key
  batches : s.batches = s.waiting.length
  priority : s.loading.toList ++ s.waiting ≠ [] →
    MostUrgent s.priority (s.loading.toList ++ s.waiting)

/-! ### The most urgent of some tasks -/

section MostUrgent

variable {key : π ×ₗ τ} {tasks others : List (Task π τ)} {t first : Task π τ}

theorem mostUrgent_congr (hmem : ∀ x, x ∈ tasks ↔ x ∈ others) :
    MostUrgent key tasks ↔ MostUrgent key others := by
  simp only [MostUrgent, hmem]

theorem mostUrgent_singleton_iff : MostUrgent key [t] ↔ t.key = key := by
  constructor
  · rintro ⟨⟨x, hx, rfl⟩, -⟩
    rw [List.mem_singleton.mp hx]
  · rintro rfl
    exact ⟨⟨t, List.mem_singleton_self t, rfl⟩, fun x hx => (List.mem_singleton.mp hx) ▸ le_refl _⟩

/-- One more task, where the value is lowered to its own if that is less. -/
theorem MostUrgent.append (h : MostUrgent key tasks) (t : Task π τ) :
    MostUrgent (if t.key < key then t.key else key) (tasks ++ [t]) := by
  obtain ⟨⟨x, hx, hkey⟩, hleast⟩ := h
  split
  · rename_i hlt
    refine ⟨⟨t, by simp, rfl⟩, fun y hy => ?_⟩
    rcases List.mem_append.mp hy with hy | hy
    · exact hlt.le.trans (hleast y hy)
    · rw [List.mem_singleton.mp hy]
  · rename_i hge
    refine ⟨⟨x, List.mem_append_left _ hx, hkey⟩, fun y hy => ?_⟩
    rcases List.mem_append.mp hy with hy | hy
    · exact hleast y hy
    · rw [List.mem_singleton.mp hy]
      exact not_lt.mp hge

/-- The first task of a heap, against those that are not in it. -/
theorem mostUrgent_first_iff {rest : List (Task π τ)}
    (hsorted : (first :: rest).Pairwise fun a b => a.key ≤ b.key) :
    MostUrgent first.key (tasks ++ first :: rest) ↔ ∀ x ∈ tasks, first.key ≤ x.key := by
  constructor
  · rintro ⟨-, hleast⟩ x hx
    exact hleast x (List.mem_append_left _ hx)
  · intro hfirst
    refine ⟨⟨first, by simp, rfl⟩, fun x hx => ?_⟩
    rcases List.mem_append.mp hx with hx | hx
    · exact hfirst x hx
    · rcases List.mem_cons.mp hx with rfl | hx
      · exact le_refl _
      · exact (List.pairwise_cons.mp hsorted).1 x hx

/-- The value of a task in hand, once that is gone. -/
theorem MostUrgent.dropped_iff (h : MostUrgent key (t :: tasks)) :
    MostUrgent key tasks ↔ ∃ x ∈ tasks, x.key ≤ t.key := by
  obtain ⟨⟨y, hy, hkey⟩, hleast⟩ := h
  constructor
  · rintro ⟨⟨x, hx, rfl⟩, -⟩
    exact ⟨x, hx, hleast t (List.mem_cons_self ..)⟩
  · rintro ⟨x, hx, hle⟩
    refine ⟨?_, fun z hz => hleast z (List.mem_cons_of_mem _ hz)⟩
    rcases List.mem_cons.mp hy with rfl | hy
    · exact ⟨x, hx, le_antisymm (hle.trans hkey.le) (hleast x (List.mem_cons_of_mem _ hx))⟩
    · exact ⟨y, hy, hkey⟩

end MostUrgent

/-! ### What the steps do -/

section Steps

variable {s s' : Pool π τ} {t : Task π τ}

theorem transfer_cases (h : s.transfer = some s') :
    ∃ t rest, s.submittedTasks = t :: rest ∧
      s' = { s with
        submittedTasks := rest
        orderedTasks := s.orderedTasks.orderedInsert (fun a b => a.key ≤ b.key) t } := by
  unfold transfer at h
  split at h
  · cases h
  · rename_i t rest hqueue
    exact ⟨t, rest, hqueue, (Option.some.inj h).symm⟩

omit [LinearOrder π] [LinearOrder τ] in
theorem take_cases (h : s.take = some s') :
    ∃ first rest, s.loading = none ∧ s.orderedTasks = first :: rest ∧
      s' = { s with orderedTasks := rest, batches := s.batches - 1, loading := some first } := by
  unfold take at h
  split at h
  · rename_i first rest hidle hheap
    exact ⟨first, rest, hidle, hheap, (Option.some.inj h).symm⟩
  · cases h

omit [LinearOrder π] [LinearOrder τ] in
theorem setPriority_cases (h : s.setPriority = some s') :
    ∃ x, s.loading = some x ∧
      ((∃ first rest, s.orderedTasks = first :: rest ∧
          s' = { s with loading := none, priority := first.key }) ∨
        (s.orderedTasks = [] ∧ s' = { s with loading := none })) := by
  unfold setPriority at h
  split at h
  · cases h
  · rename_i x hloading
    refine ⟨x, hloading, ?_⟩
    obtain rfl := (Option.some.inj h).symm
    split
    · rename_i first rest hheap
      exact .inl ⟨first, rest, hheap, rfl⟩
    · rename_i hheap
      exact .inr ⟨hheap, rfl⟩

/-- A task that the pool accepts. -/
theorem submitTask_of_fits (hfits : t.size ≤ s.maxBatchSize) :
    s.submitTask t =
      { s with
        submittedTasks := s.submittedTasks ++ [t]
        batches := s.batches + 1
        priority := if t.key < s.priority then t.key else s.priority } := by
  rw [submitTask, if_neg (not_lt.mpr hfits)]

theorem submitTask_of_too_large (hlarge : s.maxBatchSize < t.size) : s.submitTask t = s := by
  rw [submitTask, if_pos hlarge]

end Steps

/-! ### The invariant -/

section Shows

variable {s s' : Pool π τ} {t : Task π τ} {e : PoolEvent π τ}

theorem Shows.truthful (h : s.Shows) : s.Truthful := by
  intro hidle hwaits
  have hshown := h.priority
  rw [hidle] at hshown
  exact hshown hwaits

/-- Outside a load, a pool is truthful exactly when it shows its most urgent task. -/
theorem shows_of_truthful (hsorted : s.orderedTasks.Pairwise fun a b => a.key ≤ b.key)
    (hbatches : s.batches = s.waiting.length) (hidle : s.loading = none) (htruthful : s.Truthful) :
    s.Shows := by
  refine ⟨hsorted, hbatches, ?_⟩
  rw [hidle]
  exact htruthful hidle

theorem waiting_submitTask (hfits : t.size ≤ s.maxBatchSize) :
    ∀ x, x ∈ (s.submitTask t).waiting ↔ x ∈ s.waiting ++ [t] := by
  intro x
  rw [submitTask_of_fits hfits]
  simp only [waiting, List.mem_append, List.mem_singleton]
  tauto

/-- What is in hand or waits, after a submission. -/
theorem present_submitTask (hfits : t.size ≤ s.maxBatchSize) :
    ∀ x, x ∈ (s.submitTask t).loading.toList ++ (s.submitTask t).waiting ↔
      x ∈ (s.loading.toList ++ s.waiting) ++ [t] := by
  intro x
  have hloading : (s.submitTask t).loading = s.loading := by
    rw [submitTask_of_fits hfits]
  rw [hloading, List.mem_append, waiting_submitTask hfits, List.mem_append, List.mem_append, List.mem_append]
  tauto

theorem batches_submitTask (h : s.Shows) (hfits : t.size ≤ s.maxBatchSize) :
    (s.submitTask t).batches = (s.submitTask t).waiting.length := by
  rw [submitTask_of_fits hfits]
  simp only [h.batches, waiting, List.length_append, List.length_singleton]
  omega

/-- A submission to a pool that has a task, in hand or waiting. -/
theorem Shows.submitTask_of_present (h : s.Shows) (hfits : t.size ≤ s.maxBatchSize)
    (hpresent : s.loading.toList ++ s.waiting ≠ []) : (s.submitTask t).Shows where
  sorted := by
    rw [submitTask_of_fits hfits]
    exact h.sorted
  batches := batches_submitTask h hfits
  priority := by
    intro _
    rw [mostUrgent_congr (present_submitTask hfits)]
    have hpriority : (s.submitTask t).priority = if t.key < s.priority then t.key else s.priority := by
      rw [submitTask_of_fits hfits]
    rw [hpriority]
    exact (h.priority hpresent).append t

/-- A submission to a pool that has none. -/
theorem mostUrgent_submitTask_of_none (hfits : t.size ≤ s.maxBatchSize) (hnone : s.waiting = []) :
    MostUrgent (s.submitTask t).priority (s.submitTask t).waiting ↔ t.key ≤ s.priority := by
  rw [mostUrgent_congr (waiting_submitTask hfits), hnone, List.nil_append, mostUrgent_singleton_iff,
    submitTask_of_fits hfits]
  dsimp only
  split
  · rename_i hlt
    exact ⟨fun _ => hlt.le, fun _ => rfl⟩
  · rename_i hge
    exact ⟨fun heq => heq.le, fun hle => le_antisymm hle (not_lt.mp hge)⟩

/-- A submission: the pool that shows its most urgent task keeps doing so exactly if it has one, or gets one
that it is lowered to. -/
theorem Shows.submitTask_iff (h : s.Shows) : (s.submitTask t).Shows ↔ s.Admits (.submitTask t) := by
  by_cases hfits : t.size ≤ s.maxBatchSize
  · by_cases hpresent : s.loading.toList ++ s.waiting = []
    · obtain ⟨hidle, hnone⟩ := List.append_eq_nil_iff.mp hpresent
      have hidle : s.loading = none := Option.toList_eq_nil_iff.mp hidle
      have hstays : (s.submitTask t).loading = none := by
        rw [submitTask_of_fits hfits]
        exact hidle
      rw [Admits, ← mostUrgent_submitTask_of_none hfits hnone]
      constructor
      · intro hshows _ _ _
        have hone : (s.submitTask t).waiting ≠ [] :=
          List.ne_nil_of_mem ((waiting_submitTask hfits t).mpr (by simp))
        exact hshows.truthful hstays hone
      · intro hmost
        refine shows_of_truthful ?_ (batches_submitTask h hfits) hstays fun _ _ => hmost hfits hidle hnone
        rw [submitTask_of_fits hfits]
        exact h.sorted
    · refine iff_of_true (h.submitTask_of_present hfits hpresent) fun _ hidle hnone => ?_
      exact absurd (by rw [hidle, hnone]; rfl) hpresent
  · rw [submitTask_of_too_large (not_le.mp hfits)]
    exact iff_of_true h fun hfit => absurd hfit hfits

/-- A task that reaches the heap changes nothing of what is shown. -/
theorem Shows.transfer (h : s.Shows) (hnext : s.transfer = some s') : s'.Shows := by
  obtain ⟨t, rest, hqueue, rfl⟩ := transfer_cases hnext
  have hmem : ∀ x, x ∈ s.loading.toList ++ s.waiting ↔ x ∈ s.loading.toList ++
      (rest ++ s.orderedTasks.orderedInsert (fun a b => a.key ≤ b.key) t) := by
    intro x
    rw [List.mem_append, List.mem_append, waiting, hqueue, List.mem_append, List.mem_append,
      List.mem_orderedInsert, List.mem_cons]
    tauto
  refine ⟨?_, ?_, fun hpresent => ?_⟩
  · have htotal : Std.Total fun a b : Task π τ => a.key ≤ b.key := ⟨fun a b => le_total a.key b.key⟩
    have htrans : IsTrans (Task π τ) fun a b => a.key ≤ b.key := ⟨fun _ _ _ => le_trans⟩
    exact h.sorted.orderedInsert t s.orderedTasks
  · rw [h.batches]
    simp only [waiting, hqueue, List.length_append, List.length_cons, List.orderedInsert_length]
    omega
  · refine (mostUrgent_congr hmem).mp (h.priority fun hnone => hpresent ?_)
    exact List.eq_nil_iff_forall_not_mem.mpr fun x hx =>
      List.eq_nil_iff_forall_not_mem.mp hnone x ((hmem x).mpr hx)

/-- A task that is taken is in hand instead. -/
theorem Shows.take (h : s.Shows) (hnext : s.take = some s') : s'.Shows := by
  obtain ⟨first, rest, hidle, hheap, rfl⟩ := take_cases hnext
  have hmem : ∀ x, x ∈ s.loading.toList ++ s.waiting ↔
      x ∈ (some first).toList ++ (s.submittedTasks ++ rest) := by
    intro x
    simp only [hidle, waiting, hheap, List.mem_append, List.mem_cons, Option.toList_none, List.not_mem_nil,
      Option.mem_toList, Option.some.injEq, false_or]
    tauto
  refine ⟨?_, ?_, fun _ => ?_⟩
  · have hsorted := h.sorted
    rw [hheap] at hsorted
    exact (List.pairwise_cons.mp hsorted).2
  · have hbatches := h.batches
    simp only [waiting, hheap, List.length_append, List.length_cons] at hbatches ⊢
    omega
  · refine (mostUrgent_congr hmem).mp (h.priority fun hnone => ?_)
    exact List.eq_nil_iff_forall_not_mem.mp hnone first ((hmem first).mpr (by simp))

/-- The task that is taken is the most urgent one exactly if none outside the heap is more urgent. -/
theorem Shows.take_iff (h : s.Shows) (hnext : s.take = some s') :
    (∀ t, s'.loading = some t → ∀ other ∈ s.waiting, t.key ≤ other.key) ↔ s.Admits .take := by
  obtain ⟨first, rest, hidle, hheap, rfl⟩ := take_cases hnext
  have hsorted := h.sorted
  rw [hheap] at hsorted
  constructor
  · intro hmost _ x hx t ht
    obtain rfl : first = x := by
      rw [hheap] at hx
      exact Option.some.inj hx
    exact hmost first rfl t (List.mem_append_left _ ht)
  · intro hadmits t ht
    obtain rfl : first = t := Option.some.inj ht
    have hqueue : ∀ x ∈ s.submittedTasks, first.key ≤ x.key := hadmits hidle first (by rw [hheap]; rfl)
    have hmost := (mostUrgent_first_iff hsorted).mpr hqueue
    rw [waiting, hheap]
    exact hmost.2

/-- The value that a load sets is that of the most urgent task that is left. -/
theorem Shows.setPriority_iff (h : s.Shows) (hnext : s.setPriority = some s') :
    s'.Shows ↔ s.Admits .setPriority := by
  obtain ⟨x, hloading, hcases⟩ := setPriority_cases hnext
  rcases hcases with ⟨first, rest, hheap, rfl⟩ | ⟨hheap, rfl⟩
  · have hsorted := h.sorted
    rw [hheap] at hsorted
    have hmost : MostUrgent first.key s.waiting ↔ ∀ t ∈ s.submittedTasks, first.key ≤ t.key := by
      rw [waiting, hheap]
      exact mostUrgent_first_iff hsorted
    constructor
    · intro hshows y hy
      refine ⟨fun z hz t ht => ?_, fun hempty => absurd (hheap.symm.trans hempty) (by simp)⟩
      obtain rfl : first = z := by
        rw [hheap] at hz
        exact Option.some.inj hz
      have hone : s.waiting ≠ [] := by
        rw [waiting, hheap]
        simp
      exact hmost.mp (hshows.truthful rfl hone) t ht
    · intro hadmits
      refine shows_of_truthful h.sorted h.batches rfl fun _ _ => hmost.mpr ?_
      exact (hadmits x hloading).1 first (by rw [hheap]; rfl)
  · have hwaiting : s.waiting = s.submittedTasks := by
      rw [waiting, hheap, List.append_nil]
    have hshown : MostUrgent s.priority (x :: s.submittedTasks) := by
      have hpriority := h.priority
      rw [hloading, hwaiting] at hpriority
      exact hpriority (by simp)
    constructor
    · intro hshows y hy
      obtain rfl : x = y := Option.some.inj (hloading.symm.trans hy)
      refine ⟨fun z hz => ?_, fun _ hqueue => ?_⟩
      · rw [hheap] at hz
        cases hz
      · refine hshown.dropped_iff.mp ?_
        rw [← hwaiting] at hqueue ⊢
        exact hshows.truthful rfl hqueue
    · intro hadmits
      refine shows_of_truthful h.sorted h.batches rfl fun _ hwaits => ?_
      change MostUrgent s.priority s.waiting
      change s.waiting ≠ [] at hwaits
      rw [hwaiting] at hwaits ⊢
      exact hshown.dropped_iff.mpr ((hadmits x hloading).2 hheap hwaits)

/-- What a pool shows after a step that leaves it truthful. -/
theorem Shows.submitTask_of_truthful (h : s.Shows) (htruthful : (s.submitTask t).Truthful) :
    (s.submitTask t).Shows := by
  by_cases hfits : t.size ≤ s.maxBatchSize
  · by_cases hpresent : s.loading.toList ++ s.waiting = []
    · refine shows_of_truthful ?_ (batches_submitTask h hfits) ?_ htruthful
      · rw [submitTask_of_fits hfits]
        exact h.sorted
      · rw [submitTask_of_fits hfits]
        exact Option.toList_eq_nil_iff.mp (List.append_eq_nil_iff.mp hpresent).1
    · exact h.submitTask_of_present hfits hpresent
  · rw [submitTask_of_too_large (not_le.mp hfits)]
    exact h

theorem Shows.setPriority_of_truthful (h : s.Shows) (hnext : s.setPriority = some s')
    (htruthful : s'.Truthful) : s'.Shows := by
  obtain ⟨x, -, ⟨first, rest, -, rfl⟩ | ⟨-, rfl⟩⟩ := setPriority_cases hnext
  · exact shows_of_truthful h.sorted h.batches rfl htruthful
  · exact shows_of_truthful h.sorted h.batches rfl htruthful

end Shows

section Runs

variable {s s' : Pool π τ}

/-- **What a step preserves**: under the condition, the invariant. -/
theorem Shows.next (h : s.Shows) {e : PoolEvent π τ} (hadmits : s.Admits e)
    (hnext : poolSteps.next s e = some s') : s'.Shows := by
  cases e with
  | submitTask t =>
    obtain rfl := Option.some.inj hnext
    exact h.submitTask_iff.mpr hadmits
  | transfer => exact h.transfer hnext
  | take => exact h.take hnext
  | setPriority => exact (h.setPriority_iff hnext).mpr hadmits

/-- **A step of a pool that shows its most urgent task** keeps its promise exactly under the condition. -/
theorem Shows.promise_iff_admits (h : s.Shows) (e : PoolEvent π τ) : s.Promise e ↔ s.Admits e := by
  cases e with
  | submitTask t =>
    rw [← h.submitTask_iff]
    constructor
    · intro hpromise
      exact h.submitTask_of_truthful (hpromise _ rfl).1
    · intro hshows s' hnext
      obtain rfl := Option.some.inj hnext
      exact ⟨hshows.truthful, fun _ htake => nomatch htake⟩
  | transfer =>
    refine iff_of_true (fun s' hnext => ?_) trivial
    exact ⟨(h.transfer hnext).truthful, fun _ htake => nomatch htake⟩
  | take =>
    constructor
    · intro hpromise hidle first hfirst
      -- there is a step to speak of, as the heap has a task
      obtain ⟨s', hnext⟩ : ∃ s', s.take = some s' := by
        obtain ⟨rest, hheap⟩ := List.head?_eq_some_iff.mp hfirst
        exact ⟨_, by rw [Pool.take, hidle, hheap]⟩
      exact (h.take_iff hnext).mp (fun t => (hpromise s' hnext).2 t rfl) hidle first hfirst
    · intro hadmits s' hnext
      exact ⟨(h.take hnext).truthful, fun t _ => (h.take_iff hnext).mpr hadmits t⟩
  | setPriority =>
    constructor
    · intro hpromise x hx
      obtain ⟨s', hnext⟩ : ∃ s', s.setPriority = some s' := ⟨_, by rw [setPriority, Option.mem_def.mp hx]⟩
      have hshows := h.setPriority_of_truthful hnext (hpromise s' hnext).1
      exact (h.setPriority_iff hnext).mp hshows x hx
    · intro hadmits s' hnext
      exact ⟨((h.setPriority_iff hnext).mpr hadmits).truthful, fun _ htake => nomatch htake⟩

/-- The run lemma: the promises are kept throughout exactly where the condition is met throughout. -/
theorem Shows.along_iff (h : s.Shows) (events : List (PoolEvent π τ)) :
    poolSteps.Along Promise s events ↔ poolSteps.Along Admits s events := by
  induction events generalizing s with
  | nil => exact Iff.rfl
  | cons e events ih =>
    constructor
    · rintro ⟨hpromise, hrest⟩
      have hadmits : s.Admits e := (h.promise_iff_admits e).mp hpromise
      exact ⟨hadmits, fun s' hnext => (ih (h.next hadmits hnext)).mp (hrest s' hnext)⟩
    · rintro ⟨hadmits, hrest⟩
      refine ⟨(h.promise_iff_admits e).mpr hadmits, fun s' hnext => ?_⟩
      exact (ih (h.next hadmits hnext)).mpr (hrest s' hnext)

variable [OrderTop π] [OrderTop τ]

/-- A new pool has nothing to show. -/
theorem shows_initial (maxBatchSize : Nat) : (initial maxBatchSize : Pool π τ).Shows where
  sorted := List.Pairwise.nil
  batches := rfl
  priority := fun hnone => absurd rfl hnone

theorem shows_of_reach {maxBatchSize : Nat} (hreach : poolSteps.Reach Admits (initial maxBatchSize) s) :
    s.Shows :=
  hreach.invariant (shows_initial maxBatchSize) fun _ _ _ hshows hadmits hnext => hshows.next hadmits hnext

end Runs

end Pool

/-! ### The runtime's choice -/

section Choice

variable {pools : List (Pool π τ)} {pool : Pool π τ}

theorem choosePool_cases (hchoice : choosePool pools = some pool) :
    pool ∈ pools ∧ pool.empty = false ∧
      ∀ other ∈ pools, other.empty = false → pool.priority ≤ other.priority := by
  have hmem := List.mem_filter.mp (List.argmin_mem hchoice)
  refine ⟨hmem.1, by simpa using hmem.2, fun other hother hready => ?_⟩
  exact List.le_of_mem_argmin (List.mem_filter.mpr ⟨hother, by simp [hready]⟩) hchoice

/-- A pool is empty for the runtime when nothing waits in it. -/
theorem Pool.Shows.empty_iff (h : pool.Shows) : pool.empty = true ↔ pool.waiting = [] := by
  rw [Pool.empty, h.batches, beq_iff_eq, List.length_eq_zero_iff]

/-- Among pools that show their most urgent tasks, the choice has the most urgent one of all. -/
theorem choosePool_most_urgent (hpools : ∀ other ∈ pools, other.Shows ∧ other.loading = none)
    (hchoice : choosePool pools = some pool) :
    Pool.MostUrgent pool.priority (pools.flatMap Pool.waiting) := by
  obtain ⟨hpool, hready, hleast⟩ := choosePool_cases hchoice
  have htruthful : ∀ other ∈ pools, ∀ t ∈ other.waiting, other.priority ≤ t.key := by
    intro other hother t ht
    obtain ⟨hshows, hidle⟩ := hpools other hother
    exact (hshows.truthful hidle (List.ne_nil_of_mem ht)).2 t ht
  constructor
  · obtain ⟨hshows, hidle⟩ := hpools pool hpool
    have hwaits : pool.waiting ≠ [] := by
      rw [ne_eq, ← hshows.empty_iff, hready]
      exact Bool.false_ne_true
    obtain ⟨t, ht, hkey⟩ := (hshows.truthful hidle hwaits).1
    exact ⟨t, List.mem_flatMap.mpr ⟨pool, hpool, ht⟩, hkey⟩
  · intro t ht
    obtain ⟨other, hother, ht⟩ := List.mem_flatMap.mp ht
    have hbusy : other.empty = false := by
      rw [← Bool.not_eq_true, (hpools other hother).1.empty_iff]
      exact List.ne_nil_of_mem ht
    exact (hleast other hother hbusy).trans (htruthful other hother t ht)

/-- The runtime finds a pool exactly where a task waits. -/
theorem choosePool_isSome_iff (hpools : ∀ other ∈ pools, other.Shows) :
    (choosePool pools).isSome = true ↔ ∃ other ∈ pools, other.waiting ≠ [] := by
  have hready : ∀ other ∈ pools, (!other.empty) = true ↔ other.waiting ≠ [] := by
    intro other hother
    rw [Bool.not_eq_true', ← Bool.not_eq_true, (hpools other hother).empty_iff]
  constructor
  · intro hsome
    obtain ⟨other, hchoice⟩ := Option.isSome_iff_exists.mp hsome
    obtain ⟨hother, hbusy, -⟩ := choosePool_cases hchoice
    exact ⟨other, hother, (hready other hother).mp (by rw [hbusy]; rfl)⟩
  · rintro ⟨other, hother, hwaits⟩
    rw [Option.isSome_iff_ne_none, choosePool, ne_eq, List.argmin_eq_none]
    exact List.ne_nil_of_mem (List.mem_filter.mpr ⟨hother, (hready other hother).mpr hwaits⟩)

/-- What is loaded from the chosen pool is the most urgent task of all pools exactly if nothing outside its
heap is more urgent. -/
theorem loaded_most_urgent_iff (hpools : ∀ other ∈ pools, other.Shows ∧ other.loading = none)
    (hchoice : choosePool pools = some pool) {loaded : Pool π τ} {t : Task π τ}
    (hnext : pool.take = some loaded) (ht : loaded.loading = some t) :
    (∀ other ∈ pools.flatMap Pool.waiting, t.key ≤ other.key) ↔ pool.Admits .take := by
  have hpool : pool ∈ pools := (choosePool_cases hchoice).1
  have hshows : pool.Shows := (hpools pool hpool).1
  have hmost : Pool.MostUrgent pool.priority (pools.flatMap Pool.waiting) :=
    choosePool_most_urgent hpools hchoice
  rw [← hshows.take_iff hnext]
  constructor
  · intro hall x hx other hother
    obtain rfl : t = x := Option.some.inj (ht.symm.trans hx)
    exact hall other (List.mem_flatMap.mpr ⟨pool, hpool, hother⟩)
  · intro hown other hother
    have hwaits : pool.waiting ≠ [] := by
      obtain ⟨first, rest, -, hheap, -⟩ := Pool.take_cases hnext
      rw [Pool.waiting, hheap]
      simp
    obtain ⟨x, hx, hkey⟩ := (hshows.truthful (hpools pool hpool).2 hwaits).1
    calc t.key ≤ x.key := hown t ht x hx
      _ = pool.priority := hkey
      _ ≤ other.key := hmost.2 other hother

end Choice

variable [OrderTop π] [OrderTop τ]

/-- **Truthful priorities.** In every run of a new pool, each step leaves a priority that is the one of the
most urgent waiting task, and each load takes that task, exactly where each step meets its condition. Among
pools whose runs meet it, the runtime finds one exactly where a task waits, the one it chooses has the most
urgent task of all, and this is what it loads under the condition of the load itself. -/
theorem pool_priority_truthful_iff :
    (∀ (maxBatchSize : Nat) (events : List (PoolEvent π τ)),
      poolSteps.Along Pool.Promise (Pool.initial maxBatchSize) events ↔
        poolSteps.Along Pool.Admits (Pool.initial maxBatchSize) events) ∧
    ∀ pools : List (Pool π τ),
      (∀ pool ∈ pools, pool.loading = none ∧
        ∃ maxBatchSize, poolSteps.Reach Pool.Admits (Pool.initial maxBatchSize) pool) →
      ((choosePool pools).isSome = true ↔ ∃ pool ∈ pools, pool.waiting ≠ []) ∧
      ∀ pool, choosePool pools = some pool →
        Pool.MostUrgent pool.priority (pools.flatMap Pool.waiting) ∧
        ∀ loaded t, pool.take = some loaded → loaded.loading = some t →
          ((∀ other ∈ pools.flatMap Pool.waiting, t.key ≤ other.key) ↔ pool.Admits .take) := by
  refine ⟨fun maxBatchSize => (Pool.shows_initial maxBatchSize).along_iff, fun pools hreached => ?_⟩
  have hpools : ∀ pool ∈ pools, pool.Shows ∧ pool.loading = none := by
    intro pool hpool
    obtain ⟨hidle, maxBatchSize, hreach⟩ := hreached pool hpool
    exact ⟨Pool.shows_of_reach hreach, hidle⟩
  refine ⟨choosePool_isSome_iff fun pool hpool => (hpools pool hpool).1, fun pool hchoice => ?_⟩
  refine ⟨choosePool_most_urgent hpools hchoice, fun loaded t hnext ht => ?_⟩
  exact loaded_most_urgent_iff hpools hchoice hnext ht

/-- A task of one token, with times and priorities that a clock gives. -/
def smallTask (priority timeSubmitted uid : Nat) : Task (WithTop Nat) (WithTop Nat) :=
  ⟨WithTop.some priority, WithTop.some timeSubmitted, uid, 1⟩

/-- Two pools with a task each, none of them outside its heap. -/
theorem pool_priority_truthful_iff_of_two_pools :
    ∃ late early loaded : Pool (WithTop Nat) (WithTop Nat),
      poolSteps.run (Pool.initial 8) [.submitTask (smallTask 1 3 0), .transfer] = some late ∧
      poolSteps.run (Pool.initial 8) [.submitTask (smallTask 1 2 1), .transfer] = some early ∧
      choosePool [late, early] = some early ∧ early.take = some loaded ∧
      loaded.loading = some (smallTask 1 2 1) ∧
      ∀ other ∈ [late, early].flatMap Pool.waiting, (smallTask 1 2 1).key ≤ other.key := by
  have halong : ∀ t : Task (WithTop Nat) (WithTop Nat),
      poolSteps.Along Pool.Admits (Pool.initial 8) [.submitTask t, .transfer] := by
    intro t
    exact ⟨fun _ _ _ => le_top, fun _ _ => ⟨trivial, fun _ _ => trivial⟩⟩
  refine ⟨_, _, _, rfl, rfl, rfl, rfl, rfl, ?_⟩
  refine ((pool_priority_truthful_iff.2 _ ?_).2 _ rfl).2 _ _ rfl rfl |>.mpr ?_
  · intro pool hpool
    rcases List.mem_pair.mp hpool with rfl | rfl
    · exact ⟨rfl, 8, Machine.reach_of_run rfl (halong (smallTask 1 3 0))⟩
    · exact ⟨rfl, 8, Machine.reach_of_run rfl (halong (smallTask 1 2 1))⟩
  · rintro - first - t ht
    cases ht

/-- A pool that has been emptied, and is filled with a less urgent task, shows the task it no longer has. The
runtime takes its task before the more urgent one of another pool. -/
theorem refilled_pool_shows_old_task :
    ∃ refilled other loaded : Pool (WithTop Nat) (WithTop Nat),
      poolSteps.run (Pool.initial 8) [.submitTask (smallTask 0 1 0), .transfer, .take, .setPriority,
        .submitTask (smallTask 5 2 1), .transfer] = some refilled ∧
      poolSteps.run (Pool.initial 8) [.submitTask (smallTask 1 3 2), .transfer] = some other ∧
      refilled.loading = none ∧ refilled.waiting = [smallTask 5 2 1] ∧
      refilled.priority < (smallTask 5 2 1).key ∧ choosePool [refilled, other] = some refilled ∧
      refilled.take = some loaded ∧ loaded.loading = some (smallTask 5 2 1) ∧
      smallTask 1 3 2 ∈ other.waiting ∧ (smallTask 1 3 2).key < (smallTask 5 2 1).key := by
  refine ⟨_, _, _, rfl, rfl, rfl, rfl, ?_, ?_, rfl, rfl, ?_, ?_⟩
  · decide
  · rfl
  · exact List.mem_singleton_self _
  · decide

end Drift.Server.Pools
