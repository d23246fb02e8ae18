import Drift.Node.WorkerInvariants

/-!
# Processes, states and intents of workers

Three flaws of `WorkerSupervisor` are found here, each with the condition under which a run is free of
it.

* `_spawn_locked` gives a worker up (`desired_running = False`, state paused) before it looks whether the
  worker's process runs, so `start_worker` outside the schedule leaves a running process behind; and a
  pause relies on the stop thread of a suspension, which may be stopping an earlier process
  (`no_stray_process`, `start_outside_schedule_leaves_a_process`).
* The monitor asks the schedule again when it spawns, and does not defer then
  (`iteration_completes_iff`, `schedule_closes_within_iteration`).
* A pause and a suspension write the state paused without looking at the process of the record, which a
  start may have replaced meanwhile (`state_agrees_with_process`, `start_slips_into_pause`).

What needs no condition is `Sound`: a process that runs is the recorded one, and a worker that is wanted
is admitted by the policy.
-/

namespace Drift.Node

open Drift.Lib

namespace Supervisor

variable {W : Type} [DecidableEq W] {s s' : Supervisor W}

/-! ### Runs -/

omit [DecidableEq W] in
theorem initial_sound (workers : List W) (hnodup : workers.Nodup) (launches : W → WorkerLaunch) :
    Each Worker.Sound (initial workers hnodup launches) := fun _ =>
  { recorded := fun _ hp => absurd hp List.not_mem_nil
    wanted := fun hdesired => (Bool.and_eq_true_iff.mp hdesired).2
    numbered := fun _ hp => absurd hp List.not_mem_nil }

section

variable {workers : List W} {hnodup : workers.Nodup} {launches : W → WorkerLaunch}

/-- **Whatever happens, workers are sound.** -/
theorem sound_of_reach {ok : Supervisor W → SupervisorEvent W → Prop}
    (hreach : (supervisorMachine W).Reach ok (initial workers hnodup launches) s) :
    Each Worker.Sound s :=
  each_of_reach (fun _ _ _ => trivial) (initial_sound workers hnodup launches)
    (fun _ _ _ h _ hnext => h.next hnext) (hreach.mono fun s ev _ => s.meets_always ev)

theorem stopping_of_reach (hreach : (supervisorMachine W).Reach (Meets Worker.LeavesNothing)
      (initial workers hnodup launches) s) : Each Worker.Stopping s :=
  each_of_reach Worker.leavesFree_leavesNothing
    (fun w => .of_all (initial_sound workers hnodup launches w) fun _ hp => absurd hp List.not_mem_nil)
    (fun _ _ _ h hok hnext => h.next hok hnext) hreach

theorem agrees_of_reach (hreach : (supervisorMachine W).Reach (Meets Worker.KeepsAgreement)
      (initial workers hnodup launches) s) : Each Worker.Agrees s :=
  each_of_reach Worker.leavesFree_keepsAgreement
    (fun w => .of_dead (initial_sound workers hnodup launches w) fun _ => List.not_mem_nil)
    (fun _ _ _ h hok hnext => h.next hok hnext) hreach

end

/-! ### An iteration of the monitor -/

/-- A reading exceeds a budget of the launch, or cannot be had. -/
def OverBudget (launch : WorkerLaunch) (a : ResourceAnswers W) : Prop :=
  (measuredBudgetStatus "bandwidth" "Mbps" launch.maxBandwidthMbps a.bandwidthMbps).isSome = true ∨
    (measuredBudgetStatus "power" "W" launch.maxPowerWatts a.powerWatts).isSome = true

theorem resourceStatus_of_overBudget {w : W} {a : ResourceAnswers W}
    (h : OverBudget (s.worker w).launch a) : (s.resourceStatus w a).isSome = true := by
  unfold resourceStatus
  rcases h with h | h <;>
    cases s.vramStatus w <;>
    cases hbandwidth : measuredBudgetStatus "bandwidth" "Mbps" (s.worker w).launch.maxBandwidthMbps
      a.bandwidthMbps <;>
    simp_all

/-- A spawn leaves the processes that run, and adds at most the next one. -/
theorem spawnLocked_live {w : W} {deferSchedule deferResources : Bool} {a : SpawnAnswers W} {p : Nat}
    (hp : p ∈ ((s.spawnLocked w deferSchedule deferResources a).2.worker w).live) :
    p ∈ (s.worker w).live ∨ p = (s.worker w).processes := by
  rw [spawnLocked_eq] at hp
  obtain ⟨-, exited, hself⟩ := s.spawnPlan_free w a
  have hexit : ∀ q ∈ ((s.worker w).exit exited).live, q ∈ (s.worker w).live := fun q hq =>
    List.mem_of_mem_filter hq
  cases hplan : (s.spawnPlan w a).1 <;> rw [hplan] at hp <;>
    simp only [carryOut, put_worker_self, Worker.start, Worker.failToStart, Worker.refuse, hself] at hp
  case start =>
    rcases List.mem_cons.mp hp with hp | hp
    · exact Or.inr hp
    · exact Or.inl (hexit p hp)
  all_goals exact Or.inl (hexit p hp)

/-- A turn leaves a worker alone outside the schedule, or over a budget, only if it is not wanted, or
suspended by the schedule, or has no process. -/
theorem turnPlan_leave {scheduleAdmitted : Bool} {answers : W → TurnAnswers W} {w : W}
    (hplan : (turnPlan scheduleAdmitted answers s w).1 = .leave)
    (hconcerned : scheduleAdmitted = false ∨
      OverBudget (s.worker w).launch (answers w).resources) :
    let r := (turnPlan scheduleAdmitted answers s w).2.worker w
    r.desiredRunning = false ∨ r.scheduleSuspended = true ∨ r.alive = false := by
  revert hplan
  have hrefresh : (((s.exit (answers w).exited).worker w).refresh (answers w).now).launch =
      (s.worker w).launch :=
    (QuietReach.quiet ((quietReach_exit (s.worker w) _).trans
      (quietReach_next (.refresh (answers w).now) rfl rfl))).launch
  unfold turnPlan
  simp only
  generalize ((s.exit (answers w).exited).worker w).refresh (answers w).now = r at hrefresh
  cases scheduleAdmitted with
  | false =>
    simp only [if_true, put_worker_self]
    cases hdesired : r.desiredRunning with
    | false => exact fun _ => Or.inl rfl
    | true =>
      cases hprocess : r.process with
      | none => exact fun _ => Or.inr (Or.inr (by simp [Worker.alive, hprocess]))
      | some p => simp
  | true =>
  have hover : OverBudget (s.worker w).launch (answers w).resources :=
    hconcerned.resolve_left (by decide)
  simp only [Bool.true_eq_false, if_false]
  cases hsuspended : r.scheduleSuspended with
  | true =>
    simp only [if_true]
    split
    · exact fun _ => Or.inr (Or.inl (by rw [put_worker_self]; exact hsuspended))
    · simp only [put_worker_self, Worker.resume]
      cases hdesired : r.desiredRunning with
      | false => exact fun _ => Or.inl rfl
      | true => simp
  | false =>
  simp only [Bool.false_eq_true, if_false]
  have hlaunch : ((((s.exit (answers w).exited).put w r).exit
      (answers w).resources.exited).worker w).launch = (s.worker w).launch := by
    rw [exit_worker, put_worker_self]
    exact hrefresh
  generalize ((s.exit (answers w).exited).put w r).exit (answers w).resources.exited = s₁ at hlaunch
  have hrefused := resourceStatus_of_overBudget (hlaunch ▸ hover)
  simp only [hrefused, Bool.true_and, Bool.or_true, if_true]
  generalize (s₁.worker w).exit (answers w).polled = r₁
  cases hdesired : r₁.desiredRunning with
  | false =>
    -- not wanted: whatever else the turn looks at, it leaves the worker
    intro _
    left
    split
    · next h => cases h
    · split
      · rw [put_worker_self]
        exact hdesired
      · split <;> rw [put_worker_self] <;> exact hdesired
  | true =>
    cases halive : r₁.alive with
    | true => simp
    | false =>
      intro _
      right
      right
      simp only [Bool.and_false, Bool.false_eq_true, if_false]
      split
      · rw [put_worker_self]
        exact halive
      · split <;> rw [put_worker_self] <;> exact halive

/-- **After a turn outside the schedule every process of the worker is being stopped**, and after a turn
that found it over a budget every process it had. -/
theorem turn_stops {scheduleAdmitted : Bool} {answers : W → TurnAnswers W} {w : W}
    (h : (s.worker w).Stopping)
    (hmeets : TurnMeets Worker.LeavesNothing scheduleAdmitted answers s w) {p : Nat}
    (hp : p ∈ ((turn scheduleAdmitted answers s w).2.worker w).live)
    (hconcerned : scheduleAdmitted = false ∨
      p < (s.worker w).processes ∧ OverBudget (s.worker w).launch (answers w).resources) :
    ((turn scheduleAdmitted answers s w).2.worker w).Stops p := by
  obtain ⟨-, hreach⟩ := turnPlan_quiet scheduleAdmitted answers s w
  have hquiet := hreach.quiet
  have hstopping : ((turnPlan scheduleAdmitted answers s w).2.worker w).Stopping :=
    (Worker.leavesFree_leavesNothing.reach hreach.free).invariant h
      fun _ _ _ h hok hnext => h.next hok hnext
  have hleave := fun hplan : (turnPlan scheduleAdmitted answers s w).1 = .leave =>
    turnPlan_leave hplan (hconcerned.imp_right And.right)
  have hspawn := turnPlan_spawn scheduleAdmitted answers s w
  rw [turn_eq] at hp ⊢
  unfold TurnMeets at hmeets
  generalize (turnPlan scheduleAdmitted answers s w).2 = s₁ at *
  cases hplan : (turnPlan scheduleAdmitted answers s w).1 with
  | leave =>
    rw [hplan] at hp
    rcases hleave hplan with hdesired | hsuspended | hdead
    · exact hstopping.unwanted p hp hdesired
    · exact hstopping.suspended p hp hsuspended
    · exact absurd hp (hstopping.not_live_of_not_alive hdead p)
  | suspendForSchedule =>
    rw [hplan] at hp hmeets
    simp only [carryOutTurn, put_worker_self] at hp ⊢
    exact Worker.stopForPolicy_stops (r := { s₁.worker w with scheduleSuspended := true })
      ⟨hstopping.recorded, hstopping.wanted, hstopping.numbered⟩ hmeets p hp
  | suspendForResource =>
    rw [hplan] at hp hmeets
    simp only [carryOutTurn, put_worker_self] at hp ⊢
    exact Worker.stopForPolicy_stops (r := { s₁.worker w with resourceSuspended := true })
      ⟨hstopping.recorded, hstopping.wanted, hstopping.numbered⟩ hmeets p hp
  | spawn =>
    rw [hplan] at hp
    obtain ⟨-, hprocess, hschedule⟩ := hspawn hplan
    -- a worker that is spawned had no process, and the new one was not there when the turn began
    obtain ⟨hlt, -⟩ := hconcerned.resolve_left (by rw [hschedule]; decide)
    rcases spawnLocked_live hp with hp | hnew
    · exact absurd hp (hstopping.not_live hprocess p)
    · rw [hnew, hquiet.processes] at hlt
      exact absurd hlt (Nat.lt_irrefl _)

/-- The answer to the schedule question of a spawn that a turn makes is that it is open. -/
def OpenAtSpawn (scheduleAdmitted : Bool) (answers : W → TurnAnswers W) (s : Supervisor W) (w : W) :
    Prop :=
  (turnPlan scheduleAdmitted answers s w).1 = .spawn → (answers w).spawn.schedule = .allowed

instance (scheduleAdmitted : Bool) (answers : W → TurnAnswers W) (s : Supervisor W) (w : W) :
    Decidable (OpenAtSpawn scheduleAdmitted answers s w) :=
  inferInstanceAs (Decidable (_ → _))

/-- A spawn that defers unavailable resources, but not a closed schedule, raises exactly where the
schedule is closed, and keeps the worker wanted otherwise. -/
theorem spawnLocked_isOk_iff {w : W} {a : SpawnAnswers W}
    (hadmitted : (s.worker w).launch.policyAdmitted = true) (hclosed : s.closed = false) :
    ((s.spawnLocked w false true a).1.isOk = true ↔ a.schedule = .allowed) ∧
      ((s.spawnLocked w false true a).1.isOk = true →
        ((s.spawnLocked w false true a).2.worker w).desiredRunning =
          (s.worker w).desiredRunning) := by
  unfold spawnLocked
  simp only [hadmitted, Bool.true_eq_false, if_false]
  cases hschedule : a.schedule with
  | outside | failed =>
    exact ⟨⟨fun h => (by cases h), fun h => (by cases h)⟩, fun h => (by cases h)⟩
  | allowed =>
  simp only [ScheduleAnswer.refusal, exit_closed, hclosed, Bool.false_eq_true, if_false]
  cases (s.exit a.resources.exited).resourceStatus w a.resources with
  | some reason =>
    refine ⟨⟨fun _ => trivial, fun _ => rfl⟩, fun _ => ?_⟩
    simp [Worker.exit]
  | none =>
  simp only
  cases (((s.exit a.resources.exited).worker w).exit a.exited).alive with
  | true =>
    refine ⟨⟨fun _ => trivial, fun _ => rfl⟩, fun _ => ?_⟩
    simp [Worker.exit]
  | false =>
    cases a.popen <;> refine ⟨⟨fun _ => trivial, fun _ => rfl⟩, fun _ => ?_⟩
    · simp [Worker.failToStart, Worker.exit]
    · simp [Worker.start, Worker.exit]

/-- **A turn completes exactly where the schedule is open for its spawn**, and keeps the worker wanted
then. -/
theorem turn_isOk_iff {scheduleAdmitted : Bool} {answers : W → TurnAnswers W} {w : W}
    (h : (s.worker w).Sound) (hclosed : s.closed = false) :
    ((turn scheduleAdmitted answers s w).1.isOk = true ↔ OpenAtSpawn scheduleAdmitted answers s w) ∧
      ((turn scheduleAdmitted answers s w).1.isOk = true →
        ((turn scheduleAdmitted answers s w).2.worker w).desiredRunning =
          (s.worker w).desiredRunning) := by
  obtain ⟨honly, hreach⟩ := turnPlan_quiet scheduleAdmitted answers s w
  have hquiet := hreach.quiet
  have hsound := h.reach hreach
  have hspawn := turnPlan_spawn scheduleAdmitted answers s w
  unfold OpenAtSpawn
  rw [turn_eq]
  generalize (turnPlan scheduleAdmitted answers s w).2 = s₁ at *
  cases hplan : (turnPlan scheduleAdmitted answers s w).1 with
  | leave =>
    exact ⟨⟨fun _ h => (by cases h), fun _ => rfl⟩, fun _ => hquiet.desiredRunning⟩
  | suspendForSchedule =>
    refine ⟨⟨fun _ h => (by cases h), fun _ => rfl⟩, fun _ => ?_⟩
    rw [← hquiet.desiredRunning]
    simp [carryOutTurn, Worker.suspendForSchedule]
  | suspendForResource =>
    refine ⟨⟨fun _ h => (by cases h), fun _ => rfl⟩, fun _ => ?_⟩
    rw [← hquiet.desiredRunning]
    simp [carryOutTurn, Worker.suspendForResource]
  | spawn =>
    have hadmitted := hsound.wanted (hspawn hplan).1
    obtain ⟨hiff, hkeep⟩ := spawnLocked_isOk_iff (a := (answers w).spawn) hadmitted
      (honly.closed.trans hclosed)
    have hmap : (carryOutTurn .spawn s₁ w (answers w).spawn).1.isOk =
        (s₁.spawnLocked w false true (answers w).spawn).1.isOk := by
      show ((s₁.spawnLocked w false true (answers w).spawn).1.map _).isOk = _
      cases (s₁.spawnLocked w false true (answers w).spawn).1 <;> rfl
    rw [hmap]
    exact ⟨hiff.trans ⟨fun h _ => h, fun h => h rfl⟩,
      fun hok => (hkeep hok).trans hquiet.desiredRunning⟩

/-- What the turns of an iteration keep that started from `s`: the workers that were wanted are. -/
structure Waiting (s s' : Supervisor W) : Prop where
  sound : Each Worker.Sound s'
  closed : s'.closed = false
  wanted : ∀ w, (s.worker w).desiredRunning = true → (s'.worker w).desiredRunning = true

theorem Waiting.turn {s₁ : Supervisor W} {scheduleAdmitted : Bool}
    {answers : W → TurnAnswers W} {w : W} (h : Waiting s s₁)
    (hok : (Supervisor.turn scheduleAdmitted answers s₁ w).1.isOk = true) :
    Waiting s (Supervisor.turn scheduleAdmitted answers s₁ w).2 := by
  have hpart := turn_part (fun _ _ _ => trivial) (turnMeets_always scheduleAdmitted answers s₁ w)
  refine ⟨fun w' => (h.sound w').reach (hpart.reach (fun _ _ _ => trivial) w'),
    hpart.closed.trans h.closed, fun w' hwanted => ?_⟩
  have hbefore := h.wanted w' hwanted
  by_cases hw : w' = w
  · subst hw
    rw [(turn_isOk_iff (h.sound w') h.closed).2 hok]
    exact hbefore
  · obtain ⟨exited, hexited⟩ := hpart.others w' hw
    rw [hexited]
    exact hbefore

end Supervisor

/-! ### Main results -/

open Supervisor

/-- A launch that is admitted and started with the service, without budgets. -/
def sampleLaunch : WorkerLaunch where
  workerId := "worker"
  modelId := "model"
  command := ["serve"]
  autoStart := true
  autoRestart := true
  restartBackoff := 5
  policyAdmitted := true
  policyReason := none
  preferred := false
  automatic := false
  blockIndices := none
  placementReason := none
  maxDiskBytes := none
  vram := none
  maxBandwidthMbps := none
  maxPowerWatts := none
  environment := []
  named := by decide
  backoff_pos := by decide
  reason := by decide
  placement := by decide
  limits := by decide
  environment_names := by decide

/-- A supervisor of one worker. -/
def oneWorker : Supervisor Unit := initial [()] (List.nodup_singleton ()) fun _ => sampleLaunch

/-- No process exits, and `popen` succeeds. -/
def answering (schedule : ScheduleAnswer) : SpawnAnswers Unit :=
  ⟨schedule, ⟨fun _ => [], none, none⟩, [], true, 0⟩

variable {W : Type} [DecidableEq W]

/-- **No process is left behind.** In every state that regions reach which leave nothing behind, a
process whose worker is not wanted is being stopped. If an iteration of the monitor under the same
condition runs to its end from there, then afterwards every process is being stopped whose worker is
outside the schedule, and every process that was there before and whose worker is over a budget. -/
theorem no_stray_process (workers : List W) (hnodup : workers.Nodup) (launches : W → WorkerLaunch)
    {s : Supervisor W}
    (hreach : (supervisorMachine W).Reach (Meets Worker.LeavesNothing)
      (initial workers hnodup launches) s) :
    (∀ w, ∀ p ∈ (s.worker w).live, (s.worker w).desiredRunning = false → (s.worker w).Stops p) ∧
    ∀ schedule answers s', Meets Worker.LeavesNothing s (.monitor schedule answers) →
      s.iteration schedule answers = (.ok (), s') →
      ∀ w ∈ s.workers, ∀ p ∈ (s'.worker w).live,
        schedule ≠ .allowed ∨
          p ∈ (s.worker w).live ∧ OverBudget (s.worker w).launch (answers w).resources →
        (s'.worker w).Stops p := by
  have hstopping := stopping_of_reach hreach
  refine ⟨fun w => (hstopping w).unwanted, fun schedule answers s' hmeets hiteration w hw p hp
    hconcerned => ?_⟩
  obtain ⟨s₁, exited, exited', hbefore, hturn, hafter⟩ := forEach_turn s.workers_nodup
    (fun s w h => (turn_part Worker.leavesFree_leavesNothing h).toOnlyExits) hw hmeets hiteration
  rw [hafter] at hp ⊢
  have hs₁ : (s₁.worker w).Stopping := by
    rw [hbefore]
    exact (hstopping w).next (c := .exit exited) trivial rfl
  refine turn_stops hs₁ hturn (List.mem_of_mem_filter hp) ?_
  rcases hconcerned with hclosed | ⟨hlive, hover⟩
  · left
    cases schedule with
    | allowed => exact absurd rfl hclosed
    | outside => rfl
    | failed => rfl
  · right
    rw [hbefore]
    exact ⟨(hstopping w).numbered p hlive, hover⟩

/-- A paused worker whose process runs until the pause has ended it. -/
theorem no_stray_process_while_paused :
    ∃ s : Supervisor Unit, (s.worker ()).live = [0] ∧ (s.worker ()).desiredRunning = false ∧
      ((∀ w, ∀ p ∈ (s.worker w).live, (s.worker w).desiredRunning = false → (s.worker w).Stops p) ∧
        ∀ schedule answers s', Meets Worker.LeavesNothing s (.monitor schedule answers) →
          s.iteration schedule answers = (.ok (), s') →
          ∀ w ∈ s.workers, ∀ p ∈ (s'.worker w).live,
            schedule ≠ .allowed ∨
              p ∈ (s.worker w).live ∧ OverBudget (s.worker w).launch (answers w).resources →
            (s'.worker w).Stops p) := by
  have hrun : ((supervisorMachine Unit).run oneWorker
      [.startService fun _ => answering .allowed, .beginPause () true]).map
        (fun s => ((s.worker ()).live, (s.worker ()).desiredRunning)) = some ([0], false) := by
    decide
  have halong : (supervisorMachine Unit).Along (Meets Worker.LeavesNothing) oneWorker
      [.startService fun _ => answering .allowed, .beginPause () true] := by
    refine ⟨fun _ => ⟨fun _ => trivial, fun _ => trivial⟩, fun s hs => ⟨?_, fun _ _ => trivial⟩⟩
    obtain rfl := Option.some.inj hs
    -- the worker has no stop thread
    exact fun t ht => by cases ht
  obtain ⟨s, hrun, hview⟩ := Option.map_eq_some_iff.mp hrun
  obtain ⟨hlive, hdesired⟩ := Prod.mk.inj hview
  exact ⟨s, hlive, hdesired, no_stray_process [()] (by decide) (fun _ => sampleLaunch)
    (Machine.reach_of_run hrun halong)⟩

/-- **Starting a running worker outside the schedule leaves its process behind.** -/
theorem start_outside_schedule_leaves_a_process :
    ∃ s, (supervisorMachine Unit).Reach Machine.always oneWorker s ∧
      ∃ p ∈ (s.worker ()).live, (s.worker ()).desiredRunning = false ∧ ¬ (s.worker ()).Stops p := by
  have hrun : ((supervisorMachine Unit).run oneWorker
      [.startService fun _ => answering .allowed, .startWorker () (answering .outside)]).map
        (fun s => ((s.worker ()).live, (s.worker ()).desiredRunning,
          decide ((s.worker ()).Stops 0))) = some ([0], false, false) := by
    decide
  obtain ⟨s, hrun, hview⟩ := Option.map_eq_some_iff.mp hrun
  simp only [Prod.mk.injEq, decide_eq_false_iff_not] at hview
  obtain ⟨hlive, hdesired, hstops⟩ := hview
  refine ⟨s, Machine.reach_always_of_run hrun, 0, ?_, hdesired, hstops⟩
  rw [hlive]
  exact List.mem_singleton_self 0

/-- **States and processes agree.** In every state that regions under the condition reach, a process
that runs is the one of the record; and while nothing is stopping a process of the worker, the worker is
running if it has a process, so that a paused one has none. -/
theorem state_agrees_with_process (workers : List W) (hnodup : workers.Nodup)
    (launches : W → WorkerLaunch) {s : Supervisor W}
    (hreach : (supervisorMachine W).Reach (Meets Worker.KeepsAgreement)
      (initial workers hnodup launches) s) (w : W) :
    (∀ p ∈ (s.worker w).live, (s.worker w).process = some p) ∧
    ((∀ p, ¬ (s.worker w).Stops p) →
      ((s.worker w).state = .paused → (s.worker w).live = []) ∧
      ((s.worker w).live ≠ [] → (s.worker w).state = .running)) := by
  have hagrees := agrees_of_reach hreach w
  refine ⟨hagrees.recorded, fun hidle => ?_⟩
  have hrunning : ∀ p ∈ (s.worker w).live, (s.worker w).state = .running := fun p hp =>
    (hagrees.running p hp).resolve_left fun ⟨q, hstops⟩ => hidle q hstops
  constructor
  · intro hpaused
    refine List.eq_nil_iff_forall_not_mem.mpr fun p hp => ?_
    have hstate := hrunning p hp
    rw [hpaused] at hstate
    cases hstate
  · intro hlive
    obtain ⟨p, hp⟩ := List.exists_mem_of_ne_nil _ hlive
    exact hrunning p hp

theorem state_agrees_with_process_after_start :
    ∃ s : Supervisor Unit, (s.worker ()).live = [0] ∧
      ((∀ p ∈ (s.worker ()).live, (s.worker ()).process = some p) ∧
        ((∀ p, ¬ (s.worker ()).Stops p) →
          ((s.worker ()).state = .paused → (s.worker ()).live = []) ∧
          ((s.worker ()).live ≠ [] → (s.worker ()).state = .running))) := by
  have hrun : ((supervisorMachine Unit).run oneWorker
      [.startService fun _ => answering .allowed]).map (fun s => (s.worker ()).live) =
        some [0] := by
    decide
  have halong : (supervisorMachine Unit).Along (Meets Worker.KeepsAgreement) oneWorker
      [.startService fun _ => answering .allowed] := by
    refine ⟨fun _ => ⟨fun _ p => ?_, fun _ => trivial⟩, fun _ _ => trivial⟩
    exact of_decide_eq_false rfl
  obtain ⟨s, hrun, hlive⟩ := Option.map_eq_some_iff.mp hrun
  exact ⟨s, hlive, state_agrees_with_process [()] (by decide) (fun _ => sampleLaunch)
    (Machine.reach_of_run hrun halong) ()⟩

/-- **A start that slips into a pause.** The process that is paused has ended, a start spawns another
one, and then the pause writes that the worker is paused. -/
theorem start_slips_into_pause :
    ∃ s, (supervisorMachine Unit).Reach Machine.always oneWorker s ∧
      (s.worker ()).suspensions = [] ∧ (s.worker ()).pauses = [] ∧
      (s.worker ()).state = .paused ∧ (s.worker ()).live ≠ [] := by
  have hrun : ((supervisorMachine Unit).run oneWorker
      [.startService fun _ => answering .allowed, .beginPause () true, .exits fun _ => [0],
        .startWorker () (answering .allowed), .pauseTerminated () 0]).map
        (fun s => ((s.worker ()).suspensions, (s.worker ()).pauses, (s.worker ()).state,
          (s.worker ()).live)) = some ([], [], .paused, [1]) := by
    decide
  obtain ⟨s, hrun, hview⟩ := Option.map_eq_some_iff.mp hrun
  simp only [Prod.mk.injEq] at hview
  obtain ⟨hsuspensions, hpauses, hstate, hlive⟩ := hview
  refine ⟨s, Machine.reach_always_of_run hrun, hsuspensions, hpauses, hstate, ?_⟩
  rw [hlive]
  decide

/-- **When an iteration of the monitor completes.** It runs to its end, with every worker that was
wanted still wanted, exactly if the schedule is open each time the iteration asks for it again. -/
theorem iteration_completes_iff (workers : List W) (hnodup : workers.Nodup)
    (launches : W → WorkerLaunch) {s : Supervisor W}
    (hreach : (supervisorMachine W).Reach Machine.always (initial workers hnodup launches) s)
    (hclosed : s.closed = false) (schedule : ScheduleAnswer) (answers : W → TurnAnswers W) :
    ((s.iteration schedule answers).1 = .ok () ∧
      ∀ w, (s.worker w).desiredRunning = true →
        ((s.iteration schedule answers).2.worker w).desiredRunning = true) ↔
    Turns (turn schedule.refusal.isNone answers) (OpenAtSpawn schedule.refusal.isNone answers)
      s.workers s := by
  have hinit : Waiting s s := ⟨sound_of_reach hreach, hclosed, fun _ h => h⟩
  have hloop : Turns (turn schedule.refusal.isNone answers)
        (fun s w => (turn schedule.refusal.isNone answers s w).1.isOk = true) s.workers s ↔
      Turns (turn schedule.refusal.isNone answers) (OpenAtSpawn schedule.refusal.isNone answers)
        s.workers s :=
    Turns.congr (Waiting s) hinit (fun _ _ _ h hok => h.turn hok)
      fun _ w _ h => (turn_isOk_iff (h.sound w) h.closed).1
  rw [← hloop, ← forEach_isOk_iff]
  constructor
  · intro ⟨hcompleted, _⟩
    show (s.iteration schedule answers).1.isOk = true
    rw [hcompleted]
    rfl
  · intro hok
    have hwaiting : Waiting s (s.iteration schedule answers).2 :=
      forEach_invariant (Waiting s) hinit (forEach_isOk_iff.mp hok) fun s₁ w _ h hok => h.turn hok
    refine ⟨?_, hwaiting.wanted⟩
    have hok : (s.iteration schedule answers).1.isOk = true := hok
    revert hok
    cases (s.iteration schedule answers).1 with
    | error e => exact fun hraise => (by cases hraise)
    | ok u => exact fun _ => rfl

/-- The answers of a turn whose own question about the schedule is answered by `schedule`. -/
def turnAnswering (schedule : ScheduleAnswer) : TurnAnswers Unit :=
  ⟨fun _ => [], 0, ⟨fun _ => [], none, none⟩, [], 0, answering schedule⟩

/-- The service is started outside the schedule, so the worker waits; it is spawned in an iteration
during which the schedule stays open. -/
theorem iteration_completes_while_open :
    ∃ s, (supervisorMachine Unit).Reach Machine.always oneWorker s ∧
      (((s.iteration .allowed fun _ => turnAnswering .allowed).1 = .ok () ∧
        ∀ w, (s.worker w).desiredRunning = true →
          ((s.iteration .allowed fun _ => turnAnswering .allowed).2.worker w).desiredRunning =
            true) ↔
      Turns (turn true fun _ => turnAnswering .allowed) (OpenAtSpawn true fun _ => turnAnswering .allowed)
        s.workers s) := by
  have hrun : ((supervisorMachine Unit).run oneWorker
      [.startService fun _ => answering .outside]).map Supervisor.closed = some false := by
    decide
  obtain ⟨s, hrun, hclosed⟩ := Option.map_eq_some_iff.mp hrun
  have hreach := Machine.reach_always_of_run hrun
  exact ⟨s, hreach, iteration_completes_iff [()] (by decide) (fun _ => sampleLaunch) hreach hclosed
    .allowed fun _ => turnAnswering .allowed⟩

/-- **The schedule closes within an iteration.** The worker waits for the schedule, which is open at the
top of the iteration and closed when the worker is spawned: the iteration raises, and the worker is not
wanted any more. -/
theorem schedule_closes_within_iteration :
    ∃ s, (supervisorMachine Unit).Reach Machine.always oneWorker s ∧ s.closed = false ∧
      s.monitoring = true ∧ (s.worker ()).desiredRunning = true ∧
      ¬ ((s.iteration .allowed fun _ => turnAnswering .outside).1 = .ok () ∧
        ∀ w, (s.worker w).desiredRunning = true →
          ((s.iteration .allowed fun _ => turnAnswering .outside).2.worker w).desiredRunning =
            true) := by
  have hrun : ((supervisorMachine Unit).run oneWorker
      [.startService fun _ => answering .outside]).map (fun s =>
        (s.closed, s.monitoring, (s.worker ()).desiredRunning,
          (s.iteration .allowed fun _ => turnAnswering .outside).1.isOk)) =
        some (false, true, true, false) := by
    decide
  obtain ⟨s, hrun, hview⟩ := Option.map_eq_some_iff.mp hrun
  simp only [Prod.mk.injEq] at hview
  obtain ⟨hclosed, hmonitoring, hdesired, hraise⟩ := hview
  refine ⟨s, Machine.reach_always_of_run hrun, hclosed, hmonitoring, hdesired, fun h => ?_⟩
  rw [h.1] at hraise
  cases hraise

end Drift.Node
