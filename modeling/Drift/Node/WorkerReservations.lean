import Drift.Node.WorkerSafety

/-!
# VRAM reservations

A launch reserves VRAM of one device out of a pool of that device. `_resource_status_locked` compares the
pool with what the other workers with a live process reserve, when a worker is spawned and never later.
So the sum over a device grows at a spawn only, where it has just been compared: no other change of a
worker starts a process, and a launch is replaced only where no process of the worker is live. A stop
that fails keeps its process recorded, and what is recorded is counted.

* `Supervisor.vramInUse` — what the workers with a live process hold of a device;
* `Supervisor.Lightens` — a part of a region that starts no process;
* `Supervisor.Fits` — the invariant;
* `vram_fits_pool` — the result for runs.
-/

namespace Drift.Node

open Drift.Lib

/-- The VRAM of a device that a launch reserves. -/
def WorkerLaunch.vramOn (launch : WorkerLaunch) (device : String) : Nat :=
  match launch.vram with
  | none => 0
  | some v => if v.vramDevice = device then v.maxVramBytes else 0

/-- The VRAM of a device that a worker holds: its reservation, while it has a live process. -/
def Worker.heldVram (r : Worker) (device : String) : Nat :=
  if r.live = [] then 0 else r.launch.vramOn device

/-! ### Changes that start no process -/

namespace Worker

/-- Every change but a start. -/
def NoStart (_ : Worker) (c : Change) : Prop := c ≠ .start

theorem leavesFree_noStart : LeavesFree NoStart := by
  intro r c hfree
  rintro rfl
  cases hfree

/-- A worker that has a live process now had one before, under the same launch. -/
def LiveBefore (r r' : Worker) : Prop :=
  r'.live ≠ [] → r.live ≠ [] ∧ r'.launch = r.launch

theorem LiveBefore.of_eq {r r' : Worker} (hlive : r'.live = r.live) (hlaunch : r'.launch = r.launch) :
    r.LiveBefore r' :=
  fun h => ⟨by rwa [hlive] at h, hlaunch⟩

theorem LiveBefore.trans {r r' r'' : Worker} (h : r.LiveBefore r') (h' : r'.LiveBefore r'') :
    r.LiveBefore r'' := fun hlive =>
  ⟨(h (h' hlive).1).1, (h' hlive).2.trans (h (h' hlive).1).2⟩

theorem stopForPolicy_liveBefore (r : Worker) : r.LiveBefore r.stopForPolicy := by
  rcases r.stopForPolicy_cases with ⟨_, _, heq⟩ | ⟨_, heq⟩ | ⟨_, _, heq⟩ <;>
  · rw [heq]
    exact .of_eq rfl rfl

/-- A change that starts no process keeps the launch of a worker whose process goes on. -/
theorem NoStart.liveBefore {r r' : Worker} {c : Change} (hsound : r.Sound) (hok : NoStart r c)
    (hnext : r.next c = some r') : r.LiveBefore r' := by
  cases c with
  | exit exited =>
    obtain rfl := Option.some.inj hnext
    refine fun hlive => ⟨?_, rfl⟩
    rintro hnil
    refine hlive ?_
    show r.live.filter _ = []
    rw [hnil, List.filter_nil]
  | refresh now =>
    obtain rfl := Option.some.inj hnext
    rcases r.refresh_cases now with heq | ⟨_, _, _, _, _, heq⟩ <;>
    · rw [heq]
      exact .of_eq rfl rfl
  | disown =>
    simp only [Worker.next] at hnext
    split at hnext
    · cases hnext
    · obtain rfl := Option.some.inj hnext
      exact .of_eq rfl rfl
  | want =>
    simp only [Worker.next] at hnext
    split at hnext
    · obtain rfl := Option.some.inj hnext
      exact .of_eq rfl rfl
    · cases hnext
  | start => exact absurd rfl hok
  | failToStart now =>
    simp only [Worker.next] at hnext
    split at hnext
    · cases hnext
    · obtain rfl := Option.some.inj hnext
      exact .of_eq rfl rfl
  | refuse bySchedule deferred | resume bySchedule | shutDown =>
    obtain rfl := Option.some.inj hnext
    exact .of_eq rfl rfl
  | suspendForSchedule | suspendForResource =>
    obtain rfl := Option.some.inj hnext
    exact stopForPolicy_liveBefore _
  | beginPause operatorAction =>
    obtain rfl := Option.some.inj hnext
    obtain ⟨r₀, rfl, ⟨_, _, heq⟩ | ⟨_, heq⟩ | ⟨_, _, heq⟩⟩ := r.beginPause_cases operatorAction <;>
    · rw [heq]
      exact .of_eq rfl rfl
  | pauseTerminated i =>
    obtain ⟨p, _, _, rfl⟩ := pauseTerminated_cases hnext
    exact .of_eq (dropProcess_live r p) (dropProcess_launch r p)
  | pauseFailed i =>
    simp only [Worker.next, pauseFailed] at hnext
    split at hnext
    · obtain rfl := Option.some.inj hnext
      exact .of_eq rfl rfl
    · cases hnext
  | pauseJoined i =>
    obtain ⟨_, _, rfl | ⟨_, rfl⟩⟩ := pauseJoined_cases (Or.inl hnext) <;> exact .of_eq rfl rfl
  | pauseTimedOut i =>
    obtain ⟨_, _, rfl | ⟨_, rfl⟩⟩ := pauseJoined_cases (Or.inr hnext) <;> exact .of_eq rfl rfl
  | suspensionTerminated i =>
    obtain ⟨j, _, _, rfl⟩ := suspensionTerminated_cases hnext
    exact .of_eq (dropProcess_live r j.process) (dropProcess_launch r j.process)
  | suspensionFailed i =>
    simp only [Worker.next, suspensionFailed] at hnext
    split at hnext
    · obtain rfl := Option.some.inj hnext
      exact .of_eq rfl rfl
    · cases hnext
  | assign launch wanted =>
    simp only [Worker.next] at hnext
    split at hnext
    · cases hnext
    · next hidle =>
      -- a worker that is not busy has no process, so nothing of it is live
      obtain rfl := Option.some.inj hnext
      simp only [Worker.busy, Bool.or_eq_true, not_or] at hidle
      have hprocess : r.process = none := by simpa using hidle.1.1.1.2
      intro hlive
      obtain ⟨p, hp⟩ := List.exists_mem_of_ne_nil _ hlive
      exact absurd hp (hsound.not_live hprocess p)

theorem NoStart.reach {r r' : Worker} (hsound : r.Sound) (h : workerMachine.Reach NoStart r r') :
    r'.Sound ∧ r.LiveBefore r' := by
  induction h with
  | refl => exact ⟨hsound, .of_eq rfl rfl⟩
  | tail _ hok hnext ih => exact ⟨ih.1.next hnext, ih.2.trans (hok.liveBefore ih.1 hnext)⟩

end Worker

namespace Supervisor

variable {W : Type} [DecidableEq W] {s s' : Supervisor W} {w : W}

/-! ### What is in use -/

omit [DecidableEq W] in
/-- What the workers with a live process hold of a device. -/
def vramInUse (s : Supervisor W) (device : String) : Nat :=
  (s.workers.map fun w => (s.worker w).heldVram device).sum

/-- All launches for one device carry the same pool. -/
def SamePool (s : Supervisor W) : Prop :=
  ∀ w ∈ s.workers, ∀ w' ∈ s.workers, ∀ v ∈ (s.worker w).launch.vram, ∀ v' ∈ (s.worker w').launch.vram,
    v.vramDevice = v'.vramDevice → v.vramPoolBytes = v'.vramPoolBytes

instance (s : Supervisor W) : Decidable s.SamePool :=
  inferInstanceAs (Decidable (∀ w ∈ s.workers, ∀ w' ∈ s.workers, _))

/-- The device of every live worker is within its pool. -/
def Within (s : Supervisor W) : Prop :=
  ∀ w ∈ s.workers, (s.worker w).live ≠ [] → ∀ v ∈ (s.worker w).launch.vram,
    s.vramInUse v.vramDevice ≤ v.vramPoolBytes

/-- A part of a region that starts no process. -/
structure Lightens (s s' : Supervisor W) : Prop where
  workers : s'.workers = s.workers
  liveBefore : ∀ w, (s.worker w).LiveBefore (s'.worker w)

omit [DecidableEq W] in
theorem Lightens.vramInUse_le (h : Lightens s s') (device : String) :
    s'.vramInUse device ≤ s.vramInUse device := by
  unfold vramInUse
  rw [h.workers]
  refine List.sum_le_sum fun w _ => ?_
  unfold Worker.heldVram
  by_cases hlive : (s'.worker w).live = []
  · rw [if_pos hlive]
    exact Nat.zero_le _
  · obtain ⟨hbefore, hlaunch⟩ := h.liveBefore w hlive
    rw [if_neg hlive, if_neg hbefore, hlaunch]

omit [DecidableEq W] in
theorem Within.lighten (h : s.Within) (hlight : Lightens s s') : s'.Within := by
  intro w hw hlive v hv
  obtain ⟨hbefore, hlaunch⟩ := hlight.liveBefore w hlive
  rw [hlight.workers] at hw
  rw [hlaunch] at hv
  exact (hlight.vramInUse_le v.vramDevice).trans (h w hw hbefore v hv)

omit [DecidableEq W] in
/-- The changes of one worker that start no process. -/
theorem WorkerPart.lightens (hsound : Each Worker.Sound s) (h : WorkerPart Worker.NoStart w s s') :
    Lightens s s' where
  workers := h.workers
  liveBefore w' := (Worker.NoStart.reach (hsound w') (h.reach Worker.leavesFree_noStart w')).2

/-! ### The spawn -/

/-- With every running process recorded, the sum that a spawn is compared with is what the other workers
hold. -/
theorem reservedVram_eq (hsound : Each Worker.Sound s) (w : W) (device : String) :
    s.reservedVram w device =
      ((s.workers.filter (· ≠ w)).map fun other => (s.worker other).heldVram device).sum := by
  have halive : ∀ other, (s.worker other).alive = true ↔ (s.worker other).live ≠ [] := by
    intro other
    constructor
    · intro h hnil
      unfold Worker.alive at h
      rw [hnil] at h
      cases hprocess : (s.worker other).process with
      | none =>
        rw [hprocess] at h
        cases h
      | some p =>
        rw [hprocess, Option.any_some] at h
        exact absurd (of_decide_eq_true h) List.not_mem_nil
    · intro h
      obtain ⟨p, hp⟩ := List.exists_mem_of_ne_nil _ h
      exact Worker.alive_of_process ((hsound other).recorded p hp) hp
  unfold reservedVram
  induction s.workers with
  | nil => rfl
  | cons other rest ih =>
    by_cases hsame : other = w
    · rw [List.filter_cons_of_neg (by simp [hsame]), List.filter_cons_of_neg (by simp [hsame])]
      exact ih
    · rw [List.filter_cons_of_pos (p := (· ≠ w)) (by simp [hsame]), List.map_cons, List.sum_cons, ← ih]
      unfold Worker.heldVram
      by_cases hlive : (s.worker other).live = []
      · have hdead : ¬ (s.worker other).alive = true := fun h => (halive other).mp h hlive
        rw [List.filter_cons_of_neg (by simp [hdead]), if_pos hlive, Nat.zero_add]
      · rw [List.filter_cons_of_pos (by simp [hsame, (halive other).mpr hlive]), if_neg hlive,
          List.map_cons, List.sum_cons]
        rfl

/-- What is in use is what one worker holds and what the others hold. -/
theorem vramInUse_eq (hw : w ∈ s.workers) (device : String) :
    s.vramInUse device = (s.worker w).heldVram device +
      ((s.workers.filter (· ≠ w)).map fun other => (s.worker other).heldVram device).sum := by
  have herase : s.workers.erase w = s.workers.filter (· ≠ w) := by
    rw [s.workers_nodup.erase_eq_filter]
    exact List.filter_congr fun other _ => by simp [bne, beq_eq_decide]
  rw [← herase]
  exact (List.sum_map_erase _ hw).symm

/-- A worker is put that does not change what the others hold. -/
theorem others_put (s : Supervisor W) (w : W) (r : Worker) (device : String) :
    (((s.put w r).workers.filter (· ≠ w)).map fun other => ((s.put w r).worker other).heldVram device) =
      (s.workers.filter (· ≠ w)).map fun other => (s.worker other).heldVram device := by
  refine List.map_congr_left fun other hother => ?_
  have hne : other ≠ w := by simpa using (List.mem_filter.mp hother).2
  rw [put_worker_ne s r hne]

/-- The plan is to start only where the reservation fits the pool. -/
theorem spawnPlan_start {a : SpawnAnswers W} (hplan : (s.spawnPlan w a).1 = .start) :
    (s.spawnPlan w a).2.vramStatus w = none := by
  revert hplan
  unfold spawnPlan
  cases (s.worker w).launch.policyAdmitted with
  | false => simp
  | true =>
  simp only [Bool.true_eq_false, if_false]
  cases a.schedule.refusal with
  | some reason => simp
  | none =>
  simp only
  generalize s.exit a.resources.exited = s₁
  cases hstatus : s₁.resourceStatus w a.resources with
  | some reason => simp
  | none =>
  simp only
  cases s₁.closed with
  | true => simp
  | false =>
    intro _
    have hvram : s₁.vramStatus w = none := by
      unfold resourceStatus at hstatus
      cases hvram : s₁.vramStatus w with
      | none => rfl
      | some reason =>
        rw [hvram] at hstatus
        cases hstatus
    -- the poll of the worker's own process does not count
    have hreserved : ∀ device, (s₁.put w ((s₁.worker w).exit a.exited)).reservedVram w device =
        s₁.reservedVram w device := by
      intro device
      unfold reservedVram
      rw [put_workers]
      refine congrArg List.sum ?_
      have hothers : ∀ other ∈ s₁.workers, other ≠ w →
          (s₁.put w ((s₁.worker w).exit a.exited)).worker other = s₁.worker other :=
        fun other _ hne => put_worker_ne _ _ hne
      have hfilter : (s₁.workers.filter fun other =>
          other ≠ w ∧ ((s₁.put w ((s₁.worker w).exit a.exited)).worker other).alive) =
            s₁.workers.filter fun other => other ≠ w ∧ (s₁.worker other).alive := by
        refine List.filter_congr fun other hmem => ?_
        by_cases hne : other = w
        · simp [hne]
        · rw [hothers other hmem hne]
      rw [hfilter]
      refine List.map_congr_left fun other hother => ?_
      obtain ⟨hmem, hne⟩ := List.mem_filter.mp hother
      rw [hothers other hmem (of_decide_eq_true hne).1]
    simp only [Bool.false_eq_true, if_false]
    unfold vramStatus at hvram ⊢
    rw [put_worker_self]
    simp only [hreserved]
    exact hvram

/-- What holds in every state between two regions. -/
structure Fits (s : Supervisor W) : Prop where
  sound : Each Worker.Sound s
  samePool : s.SamePool
  within : s.Within

/-- **The start of a worker that has been compared with the pool.** -/
theorem Within.start (hsound : Each Worker.Sound s) (hpool : s.SamePool) (h : s.Within)
    (hw : w ∈ s.workers) (hstatus : s.vramStatus w = none) :
    (s.put w (s.worker w).start).Within := by
  have hothers : ∀ device, (s.put w (s.worker w).start).vramInUse device =
      (s.worker w).launch.vramOn device + s.reservedVram w device := by
    intro device
    have hmem : w ∈ (s.put w (s.worker w).start).workers := hw
    rw [vramInUse_eq hmem, others_put, put_worker_self, reservedVram_eq hsound]
    rfl
  have hbound : ∀ v ∈ (s.worker w).launch.vram,
      (s.worker w).launch.vramOn v.vramDevice + s.reservedVram w v.vramDevice ≤ v.vramPoolBytes := by
    intro v hv
    unfold vramStatus at hstatus
    rw [Option.mem_def.mp hv] at hstatus
    dsimp only at hstatus
    unfold WorkerLaunch.vramOn
    rw [Option.mem_def.mp hv]
    dsimp only
    rw [if_pos rfl]
    split at hstatus
    · cases hstatus
    · next hfits =>
      rw [Nat.add_comm]
      exact Nat.not_lt.mp hfits
  intro w' hw' hlive v hv
  rw [hothers]
  by_cases hsame : w' = w
  · subst hsame
    rw [put_worker_self] at hv
    exact hbound v hv
  · rw [put_worker_ne s _ hsame] at hv hlive
    have hbefore := h w' hw' hlive v hv
    rw [vramInUse_eq hw, ← reservedVram_eq hsound] at hbefore
    by_cases hown : ∃ v' ∈ (s.worker w).launch.vram, v'.vramDevice = v.vramDevice
    · -- both are on one device, and carry its pool
      obtain ⟨v', hv', hdevice⟩ := hown
      have hpools := hpool w hw w' hw' v' hv' v hv hdevice
      rw [← hdevice, ← hpools]
      exact hbound v' hv'
    · have hzero : (s.worker w).launch.vramOn v.vramDevice = 0 := by
        unfold WorkerLaunch.vramOn
        cases hvram : (s.worker w).launch.vram with
        | none => rfl
        | some v' => exact if_neg fun hdevice => hown ⟨v', hvram, hdevice⟩
      rw [hzero, Nat.zero_add]
      exact (Nat.le_add_left _ _).trans hbefore

/-! ### Regions -/

omit [DecidableEq W] in
theorem SamePool.congr (h : s.SamePool) (hworkers : s'.workers = s.workers)
    (hlaunch : ∀ w, (s'.worker w).launch = (s.worker w).launch) : s'.SamePool := by
  unfold SamePool
  rw [hworkers]
  simp only [hlaunch]
  exact h

omit [DecidableEq W] in
theorem OnlyExits.launch (h : OnlyExits w s s')
    (hself : (s'.worker w).launch = (s.worker w).launch) (w' : W) :
    (s'.worker w').launch = (s.worker w').launch := by
  by_cases hsame : w' = w
  · rw [hsame]
    exact hself
  · obtain ⟨exited, hexited⟩ := h.others w' hsame
    rw [hexited]
    rfl

omit [DecidableEq W] in
theorem Fits.lighten (h : s.Fits) (hsound : Each Worker.Sound s') (hlight : Lightens s s')
    (hpool : s'.SamePool) : s'.Fits :=
  ⟨hsound, hpool, h.within.lighten hlight⟩

omit [DecidableEq W] in
theorem Fits.part (h : s.Fits) (hpart : WorkerPart Worker.NoStart w s s')
    (hlaunch : (s'.worker w).launch = (s.worker w).launch) : s'.Fits :=
  h.lighten (fun w' => (h.sound w').reach (hpart.reach Worker.leavesFree_noStart w'))
    (hpart.lightens h.sound) (h.samePool.congr hpart.workers (hpart.toOnlyExits.launch hlaunch))

theorem carryOut_launch (plan : SpawnPlan) (s : Supervisor W) (w : W)
    (deferSchedule deferResources : Bool) (now : Rat) :
    ((carryOut plan s w deferSchedule deferResources now).2.worker w).launch =
      (s.worker w).launch := by
  cases plan <;> simp [carryOut, Worker.refuse, Worker.start, Worker.failToStart]

theorem spawnLocked_launch (s : Supervisor W) (w : W) (deferSchedule deferResources : Bool)
    (a : SpawnAnswers W) :
    ((s.spawnLocked w deferSchedule deferResources a).2.worker w).launch = (s.worker w).launch := by
  obtain ⟨-, exited, hself⟩ := s.spawnPlan_free w a
  rw [spawnLocked_eq, carryOut_launch, hself]
  rfl

/-- **A spawn keeps the reservations within the pools.** -/
theorem Fits.spawnLocked (h : s.Fits) (hw : w ∈ s.workers)
    (hdesired : (s.worker w).desiredRunning = true) (deferSchedule deferResources : Bool)
    (a : SpawnAnswers W) : (s.spawnLocked w deferSchedule deferResources a).2.Fits := by
  by_cases hplan : (s.spawnPlan w a).1 = .start
  · obtain ⟨honly, exited, hself⟩ := s.spawnPlan_free w a
    have hfree : WorkerPart Worker.NoStart w s (s.spawnPlan w a).2 :=
      .of_free Worker.leavesFree_noStart honly (by rw [hself]; exact (quietReach_exit _ _).free)
    have hfits := h.part hfree (by rw [hself]; rfl)
    have hall := (spawnLocked_part (fun _ _ _ => trivial) hdesired
      (s.spawnMeets_always w deferSchedule deferResources a))
    have hsound : Each Worker.Sound (s.spawnLocked w deferSchedule deferResources a).2 := fun w' =>
      (h.sound w').reach (hall.reach (fun _ _ _ => trivial) w')
    have hmem : w ∈ (s.spawnPlan w a).2.workers := by rwa [honly.workers]
    refine ⟨hsound, h.samePool.congr hall.workers
      (hall.toOnlyExits.launch (s.spawnLocked_launch w deferSchedule deferResources a)), ?_⟩
    rw [spawnLocked_eq, hplan]
    exact hfits.within.start hfits.sound hfits.samePool hmem (spawnPlan_start hplan)
  · refine h.part (spawnLocked_part Worker.leavesFree_noStart hdesired ?_)
      (s.spawnLocked_launch w deferSchedule deferResources a)
    unfold SpawnMeets
    cases hcase : (s.spawnPlan w a).1 with
    | start => exact absurd hcase hplan
    | refuse bySchedule reason => exact Change.noConfusion
    | _ => trivial

theorem turn_launch (scheduleAdmitted : Bool) (answers : W → TurnAnswers W) (s : Supervisor W)
    (w : W) : ((turn scheduleAdmitted answers s w).2.worker w).launch = (s.worker w).launch := by
  have hquiet := (turnPlan_quiet scheduleAdmitted answers s w).2.quiet.launch
  rw [turn_eq, ← hquiet]
  generalize (turnPlan scheduleAdmitted answers s w).2 = s₁
  have hstop : ∀ r : Worker, r.stopForPolicy.launch = r.launch := by
    intro r
    rcases r.stopForPolicy_cases with ⟨_, _, heq⟩ | ⟨_, heq⟩ | ⟨_, _, heq⟩ <;> rw [heq]
  cases (turnPlan scheduleAdmitted answers s w).1 with
  | leave => rfl
  | suspendForSchedule =>
    show ((s₁.put w _).worker w).launch = _
    rw [put_worker_self]
    exact hstop _
  | suspendForResource =>
    show ((s₁.put w _).worker w).launch = _
    rw [put_worker_self]
    exact hstop _
  | spawn => exact s₁.spawnLocked_launch w false true _

/-- A turn of the monitor. -/
theorem Fits.turn (h : s.Fits) (hw : w ∈ s.workers) (scheduleAdmitted : Bool)
    (answers : W → TurnAnswers W) : (Supervisor.turn scheduleAdmitted answers s w).2.Fits := by
  by_cases hplan : (turnPlan scheduleAdmitted answers s w).1 = .spawn
  · obtain ⟨honly, hself⟩ := turnPlan_quiet scheduleAdmitted answers s w
    have hfree : WorkerPart Worker.NoStart w s (turnPlan scheduleAdmitted answers s w).2 :=
      .of_free Worker.leavesFree_noStart honly hself.free
    have hdesired := (turnPlan_spawn scheduleAdmitted answers s w hplan).1
    rw [turn_eq, hplan]
    exact (h.part hfree hself.quiet.launch).spawnLocked (by rwa [honly.workers]) hdesired false true _
  · refine h.part (turn_part Worker.leavesFree_noStart ?_) (turn_launch scheduleAdmitted answers s w)
    unfold TurnMeets
    cases hcase : (turnPlan scheduleAdmitted answers s w).1 with
    | leave => trivial
    | suspendForSchedule => exact Change.noConfusion
    | suspendForResource => exact Change.noConfusion
    | spawn => exact absurd hcase hplan

theorem Fits.serviceTurn (h : s.Fits) (hw : w ∈ s.workers) (answers : W → SpawnAnswers W) :
    (Supervisor.serviceTurn answers s w).2.Fits := by
  unfold Supervisor.serviceTurn
  split
  · next hdesired => exact h.spawnLocked hw hdesired true true (answers w)
  · exact h

omit [DecidableEq W] in
/-- A loop over the workers. -/
theorem Fits.forEach (h : s.Fits)
    {body : Supervisor W → W → Except SupervisorError Unit × Supervisor W}
    (hworkers : ∀ s w, (body s w).2.workers = s.workers)
    (hbody : ∀ s : Supervisor W, ∀ w ∈ s.workers, s.Fits → (body s w).2.Fits) :
    (Lib.forEach body s.workers s).2.Fits := by
  have hturns : Turns body (fun _ _ => True) s.workers s := .of_forall fun _ _ => trivial
  have hinv : (Lib.forEach body s.workers s).2.Fits ∧
      (Lib.forEach body s.workers s).2.workers = s.workers :=
    forEach_invariant (fun s₁ => s₁.Fits ∧ s₁.workers = s.workers) ⟨h, rfl⟩ hturns
      fun s₁ w hw hinv _ => ⟨hbody s₁ w (by rwa [hinv.2]) hinv.1, (hworkers s₁ w).trans hinv.2⟩
  exact hinv.1

theorem turn_workers (scheduleAdmitted : Bool) (answers : W → TurnAnswers W) (s : Supervisor W)
    (w : W) : (turn scheduleAdmitted answers s w).2.workers = s.workers :=
  (turn_part (fun _ _ _ => trivial) (turnMeets_always scheduleAdmitted answers s w)).workers

theorem serviceTurn_workers (answers : W → SpawnAnswers W) (s : Supervisor W) (w : W) :
    (serviceTurn answers s w).2.workers = s.workers :=
  (serviceTurn_part (fun _ _ _ => trivial)
    (show ServiceTurnMeets Machine.always answers s w from fun _ => s.spawnMeets_always w true true _)).workers

theorem spawnLocked_workers (s : Supervisor W) (w : W) (deferSchedule deferResources : Bool)
    (a : SpawnAnswers W) :
    (s.spawnLocked w deferSchedule deferResources a).2.workers = s.workers := by
  have hplan := (s.spawnPlan_free w a).1.workers
  rw [spawnLocked_eq, ← hplan]
  cases (s.spawnPlan w a).1 <;> rfl

/-- No region changes the set of workers. -/
theorem next_workers {ev : SupervisorEvent W} (hstep : s.next ev = some s') :
    s'.workers = s.workers := by
  have hput : ∀ {w : W} {o : Option Worker}, o.map (s.put w) = some s' → s'.workers = s.workers := by
    intro w o hmap
    obtain ⟨r, -, rfl⟩ := Option.map_eq_some_iff.mp hmap
    rfl
  cases ev with
  | startService answers =>
    obtain rfl := Option.some.inj hstep
    have hloop := forEach_keeps (fun s : Supervisor W => s.workers)
      (l := s.workers) (s := { s with started := true }) fun s w => serviceTurn_workers answers s w
    unfold startService
    split
    · rfl
    split
    · rfl
    rcases hresult : forEach (serviceTurn answers) s.workers { s with started := true } with
      ⟨result, s₁⟩
    rw [hresult] at hloop
    cases result <;> exact hloop
  | monitor schedule answers =>
    have hloop := forEach_keeps (fun s : Supervisor W => s.workers) (l := s.workers) (s := s)
      fun s w => turn_workers schedule.refusal.isNone answers s w
    simp only [next, iteration] at hstep
    split at hstep
    · rcases hresult : forEach (turn schedule.refusal.isNone answers) s.workers s with ⟨result, s₁⟩
      rw [hresult] at hstep hloop
      cases result <;>
      · obtain rfl := Option.some.inj hstep
        exact hloop
    · cases hstep
  | startWorker w a =>
    obtain rfl := Option.some.inj hstep
    unfold startWorker
    simp only
    split
    · rfl
    split
    · rfl
    · exact spawnLocked_workers _ w false false a
  | beginPause w operatorAction =>
    simp only [next] at hstep
    split at hstep <;>
    · obtain rfl := Option.some.inj hstep
      rfl
  | replaceLaunch w launch start exited now a =>
    obtain rfl := Option.some.inj hstep
    unfold replaceLaunch
    split
    · rfl
    split
    · rfl
    simp only
    split
    · rfl
    split
    · exact spawnLocked_workers _ w true true a
    · rfl
  | reconfigure launches persisted exited now =>
    obtain rfl := Option.some.inj hstep
    have hloop : (forEach (quiesceTurn now) s.workers (s.exit exited)).2.workers = s.workers :=
      forEach_keeps (fun s : Supervisor W => s.workers) fun _ _ => rfl
    unfold reconfigure
    split
    · rfl
    split
    · rfl
    rcases hresult : forEach (quiesceTurn now) s.workers (s.exit exited) with ⟨result, s₁⟩
    rw [hresult] at hloop
    cases result with
    | error e => exact hloop
    | ok u =>
      simp only
      split
      · exact hloop
      · exact hloop
  | exits exited | snapshots exited now =>
    obtain rfl := Option.some.inj hstep
    rfl
  | beginShutdown =>
    obtain rfl := Option.some.inj hstep
    unfold beginShutdown
    split <;> rfl
  | _ => exact hput hstep

/-- **Every region keeps the reservations within the pools**, as long as the launches of a device carry
the same one. -/
theorem Fits.next {ev : SupervisorEvent W} (h : s.Fits) (hpool : s'.SamePool)
    (hstep : s.next ev = some s') : s'.Fits := by
  have hsound : Each Worker.Sound s' := fun w =>
    (h.sound w).reach (next_reach (fun _ _ _ => trivial) (s.meets_always ev) hstep w)
  -- a region whose changes start nothing
  have hquiet : Meets Worker.NoStart s ev → s'.Fits := fun hmeets =>
    h.lighten hsound ⟨next_workers hstep, fun w =>
      (Worker.NoStart.reach (h.sound w) (next_reach Worker.leavesFree_noStart hmeets hstep w)).2⟩ hpool
  cases ev with
  | startService answers =>
    obtain rfl := Option.some.inj hstep
    have hstarted : Fits { s with started := true } := ⟨h.sound, h.samePool, h.within⟩
    have hloop := hstarted.forEach (fun s w => serviceTurn_workers answers s w)
      fun s w hw hfits => hfits.serviceTurn hw answers
    unfold startService
    split
    · exact h
    split
    · exact h
    rcases hresult : Lib.forEach (Supervisor.serviceTurn answers) s.workers { s with started := true }
      with ⟨result, s₁⟩
    rw [hresult] at hloop
    cases result with
    | error e => exact hloop
    | ok u => exact ⟨hloop.sound, hloop.samePool, hloop.within⟩
  | monitor schedule answers =>
    have hloop := h.forEach (fun s w => turn_workers schedule.refusal.isNone answers s w)
      fun s w hw hfits => hfits.turn hw schedule.refusal.isNone answers
    simp only [Supervisor.next, iteration] at hstep
    split at hstep
    · rcases hresult : Lib.forEach (Supervisor.turn schedule.refusal.isNone answers) s.workers s with
        ⟨result, s₁⟩
      rw [hresult] at hstep hloop
      cases result with
      | ok u =>
        obtain rfl := Option.some.inj hstep
        exact hloop
      | error e =>
        obtain rfl := Option.some.inj hstep
        exact ⟨hloop.sound, hloop.samePool, hloop.within⟩
    · cases hstep
  | startWorker w a =>
    by_cases hw : w ∈ s.workers
    · by_cases hadmitted : (s.worker w).launch.policyAdmitted = false
      · exact hquiet fun h => absurd (h.symm.trans hadmitted) (by decide)
      · obtain rfl := Option.some.inj hstep
        have hwant : (s.worker w).next .want =
            some { s.worker w with operatorPaused := false, desiredRunning := true } :=
          if_pos (by simpa using hadmitted)
        have hwanted : (s.wanted w).Fits :=
          h.part (WorkerPart.put (Worker.leavesFree_noStart _ .want rfl) hwant) (by simp [wanted])
        unfold startWorker
        simp only
        rw [if_neg (not_not.mpr hw), if_neg hadmitted]
        exact hwanted.spawnLocked hw (by simp [wanted]) false false a
    · obtain rfl := Option.some.inj hstep
      unfold startWorker
      simp only
      rw [if_pos hw]
      exact h
  | replaceLaunch w launch start exited now a =>
    rcases replaceLaunch_cases Worker.leavesFree_noStart s w launch start exited now a with
      hpart | ⟨-, hw, -, hreplaced, heq⟩
    · obtain rfl := Option.some.inj hstep
      exact h.lighten hsound (hpart.lightens h.sound) hpool
    · obtain rfl := Option.some.inj hstep
      rw [heq] at hpool ⊢
      -- the new launch carries the pool that the launches carry after the spawn
      have honly := (spawnLocked_part (fun _ _ _ => trivial) (by simp [replaced])
        (spawnMeets_always (s.replaced w launch exited now) w true true a)).toOnlyExits
      have hbefore : (s.replaced w launch exited now).SamePool :=
        hpool.congr honly.workers.symm fun w' =>
          (honly.launch (spawnLocked_launch _ w true true a) w').symm
      have hfits : (s.replaced w launch exited now).Fits :=
        h.lighten (fun w' => (h.sound w').reach (hreplaced.reach Worker.leavesFree_noStart w'))
          (hreplaced.lightens h.sound) hbefore
      exact hfits.spawnLocked hw (by simp [replaced]) true true a
  | exits _ | reconfigure _ _ _ _ | snapshots _ _ => exact hquiet trivial
  | beginShutdown => exact hquiet fun _ => Change.noConfusion
  | _ => exact hquiet Change.noConfusion

/-- The step leaves launches that carry one pool for each device. -/
def KeepsSamePool (s : Supervisor W) (ev : SupervisorEvent W) : Prop :=
  ∀ s' ∈ s.next ev, s'.SamePool

instance (s : Supervisor W) (ev : SupervisorEvent W) : Decidable (s.KeepsSamePool ev) :=
  inferInstanceAs (Decidable (∀ s' ∈ s.next ev, s'.SamePool))

end Supervisor

/-! ### Main results -/

open Supervisor

/-- **The reservations fit the pool.** In every run whose launches for one device carry the same pool at
any time, and in every state of it between two regions, the workers of a device with a live process
reserve no more than the pool. -/
theorem vram_fits_pool {W : Type} [DecidableEq W] (workers : List W) (hnodup : workers.Nodup)
    (launches : W → WorkerLaunch) (hpool : (initial workers hnodup launches).SamePool)
    {s : Supervisor W}
    (hreach : (supervisorMachine W).Reach KeepsSamePool (initial workers hnodup launches) s) :
    ∀ w ∈ s.workers, ∀ v ∈ (s.worker w).launch.vram, s.vramInUse v.vramDevice ≤ v.vramPoolBytes := by
  have hinitial : (initial workers hnodup launches).Fits := by
    refine ⟨initial_sound workers hnodup launches, hpool, fun w _ hlive => ?_⟩
    exact absurd rfl hlive
  have hfits : s.Fits :=
    hreach.invariant hinitial fun s ev s' h hkeeps hnext => h.next (hkeeps s' hnext) hnext
  intro w hw v hv
  by_cases hlive : ∃ w' ∈ s.workers, (s.worker w').live ≠ [] ∧
      ∃ v' ∈ (s.worker w').launch.vram, v'.vramDevice = v.vramDevice
  · obtain ⟨w', hw', hlive, v', hv', hdevice⟩ := hlive
    rw [← hdevice, ← hfits.samePool w' hw' w hw v' hv' v hv hdevice]
    exact hfits.within w' hw' hlive v' hv'
  · -- nothing is live on the device
    have hzero : ∀ w' ∈ s.workers, (s.worker w').heldVram v.vramDevice = 0 := by
      intro w' hw'
      unfold Worker.heldVram
      by_cases hdead : (s.worker w').live = []
      · rw [if_pos hdead]
      · rw [if_neg hdead]
        unfold WorkerLaunch.vramOn
        cases hvram : (s.worker w').launch.vram with
        | none => rfl
        | some v' => exact if_neg fun hdevice => hlive ⟨w', hw', hdead, v', hvram, hdevice⟩
    have hsum : s.vramInUse v.vramDevice = 0 := by
      unfold vramInUse
      rw [List.sum_eq_zero_iff]
      intro n hn
      obtain ⟨w', hw', rfl⟩ := List.mem_map.mp hn
      exact hzero w' hw'
    rw [hsum]
    exact Nat.zero_le _

/-- A launch that reserves some of a pool of one hundred bytes. -/
def reservingLaunch (maxVramBytes : Nat) (h : 0 < maxVramBytes ∧ maxVramBytes ≤ 100) : WorkerLaunch :=
  { sampleLaunch with vram := some ⟨maxVramBytes, "cuda:0", 100, h.1, h.2⟩ }

/-- Two workers that reserve sixty bytes each. -/
def twoReserving : Supervisor Bool :=
  initial [false, true] (by decide) fun _ => reservingLaunch 60 (by decide)

/-- No process exits unless said so, and `popen` succeeds. -/
def readyAnswers : SpawnAnswers Bool := ⟨.allowed, ⟨fun _ => [], none, none⟩, [], true, 0⟩

/-- A turn of the monitor in which nothing exits. -/
def readyTurn : TurnAnswers Bool := ⟨fun _ => [], 0, ⟨fun _ => [], none, none⟩, [], 0, readyAnswers⟩

/-- The second worker waits until the first one has been paused. The first one is then given a larger
reservation, and is refused a start. -/
def waitingRun : List (SupervisorEvent Bool) :=
  [.startService fun _ => readyAnswers, .beginPause false true, .exits fun w => if w then [] else [0],
    .pauseTerminated false 0, .monitor .allowed fun _ => readyTurn,
    .replaceLaunch false (reservingLaunch 90 (by decide)) none (fun _ => []) 0 readyAnswers,
    .startWorker false readyAnswers]

theorem vram_fits_pool_while_waiting :
    ∃ s : Supervisor Bool, (s.worker false).live = [] ∧ (s.worker true).live = [0] ∧
      ∀ w ∈ s.workers, ∀ v ∈ (s.worker w).launch.vram,
        s.vramInUse v.vramDevice ≤ v.vramPoolBytes := by
  have hrun : ((supervisorMachine Bool).run twoReserving waitingRun).map
      (fun s => ((s.worker false).live, (s.worker true).live)) = some ([], [0]) := by
    decide +kernel
  have halong : (supervisorMachine Bool).Along KeepsSamePool twoReserving waitingRun := by
    decide +kernel
  obtain ⟨s, hrun, hview⟩ := Option.map_eq_some_iff.mp hrun
  obtain ⟨hfirst, hsecond⟩ := Prod.mk.inj hview
  exact ⟨s, hfirst, hsecond, vram_fits_pool [false, true] (by decide)
    (fun _ => reservingLaunch 60 (by decide)) (by decide +kernel) (Machine.reach_of_run hrun halong)⟩

end Drift.Node
