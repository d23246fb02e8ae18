import Drift.Node.WorkerSafety

/-!
# The operator's pause

`pause_worker` marks a worker as paused by the operator. Five paths can want a worker or spawn it: the
operator's own start, the start of the service, the monitor, `replace_launch` and, for its intent, the
launch. All but the first act on `desired_running`, which is taken back by the pause, and
`replace_launch` asks for the mark under the lock before it sets it again. So until the operator starts
the worker nothing does.

* `Worker.Idle` — a worker that is paused by the operator, compared with an earlier moment;
* `Supervisor.idle_next` — what every region keeps but a start of the worker;
* `operator_pause_sticky` — the result for runs.
-/

namespace Drift.Node

open Drift.Lib

namespace Worker

/-- A worker that is paused by the operator and not wanted, and of which no process has been started
since it was `r₀`. -/
structure Idle (r₀ r : Worker) : Prop where
  operatorPaused : r.operatorPaused = true
  unwanted : r.desiredRunning = false
  processes : r.processes = r₀.processes
  live : ∀ p ∈ r.live, p ∈ r₀.live

variable {r₀ r r' : Worker}

theorem Idle.exit (h : Idle r₀ r) (exited : List Nat) : Idle r₀ (r.exit exited) :=
  ⟨h.operatorPaused, h.unwanted, h.processes, fun p hp => h.live p (List.mem_of_mem_filter hp)⟩

theorem Idle.refresh (h : Idle r₀ r) (now : Rat) : Idle r₀ (r.refresh now) := by
  rcases r.refresh_cases now with heq | ⟨_, _, _, _, _, heq⟩ <;>
  · rw [heq]
    exact ⟨h.operatorPaused, h.unwanted, h.processes, h.live⟩

theorem Idle.quiet (h : Idle r₀ r) (hreach : QuietReach r r') : Idle r₀ r' := by
  refine hreach.invariant h fun r₁ c r₂ hidle hquiet hnext => ?_
  cases c with
  | exit exited =>
    obtain rfl := Option.some.inj hnext
    exact hidle.exit exited
  | refresh now =>
    obtain rfl := Option.some.inj hnext
    exact hidle.refresh now
  | resume bySchedule =>
    obtain rfl := Option.some.inj hnext
    exact ⟨hidle.operatorPaused, hidle.unwanted, hidle.processes, hidle.live⟩
  | _ => cases hquiet

theorem Idle.stopForPolicy (h : Idle r₀ r) : Idle r₀ r.stopForPolicy := by
  rcases r.stopForPolicy_cases with ⟨_, _, heq⟩ | ⟨_, heq⟩ | ⟨_, _, heq⟩ <;>
  · rw [heq]
    exact ⟨h.operatorPaused, h.unwanted, h.processes, h.live⟩

theorem Idle.assign (h : Idle r₀ r) (launch : WorkerLaunch) : Idle r₀ (r.assign launch) :=
  ⟨h.operatorPaused, h.unwanted, h.processes, h.live⟩

theorem Idle.dropProcess (h : Idle r₀ r) (p : Nat) : Idle r₀ (r.dropProcess p) := by
  unfold Worker.dropProcess
  split
  · exact ⟨h.operatorPaused, h.unwanted, h.processes, h.live⟩
  · exact h

/-- A pause for reconfiguration leaves the mark. -/
theorem Idle.beginPause (h : Idle r₀ r) (operatorAction : Bool) :
    Idle r₀ (r.beginPause operatorAction) := by
  have hmark : (r.operatorPaused || operatorAction) = true := by
    rw [h.operatorPaused, Bool.true_or]
  obtain ⟨r₁, rfl, ⟨_, _, heq⟩ | ⟨_, heq⟩ | ⟨_, _, heq⟩⟩ := r.beginPause_cases operatorAction <;>
  · rw [heq]
    exact ⟨hmark, rfl, h.processes, h.live⟩

/-- The pause of the operator marks the worker. -/
theorem idle_beginPause (r : Worker) : Idle r (r.beginPause true) := by
  have hmark : (r.operatorPaused || true) = true := Bool.or_true _
  obtain ⟨r₁, rfl, ⟨_, _, heq⟩ | ⟨_, heq⟩ | ⟨_, _, heq⟩⟩ := r.beginPause_cases true <;>
  · rw [heq]
    exact ⟨hmark, rfl, rfl, fun _ hp => hp⟩

/-- The last regions of a pause. -/
theorem Idle.endPause (h : Idle r₀ r) {i : Nat}
    (hnext : r.pauseTerminated i = some r' ∨ r.pauseFailed i = some r' ∨ r.pauseJoined i = some r' ∨
      r.pauseTimedOut i = some r') : Idle r₀ r' := by
  rcases hnext with hterminated | hfailed | hjoined
  · obtain ⟨p, _, _, rfl⟩ := pauseTerminated_cases hterminated
    have hdropped := h.dropProcess p
    exact ⟨hdropped.operatorPaused, hdropped.unwanted, hdropped.processes, hdropped.live⟩
  · unfold pauseFailed at hfailed
    split at hfailed
    · obtain rfl := Option.some.inj hfailed
      exact ⟨h.operatorPaused, h.unwanted, h.processes, h.live⟩
    · cases hfailed
  · obtain ⟨_, _, rfl | ⟨_, rfl⟩⟩ := pauseJoined_cases hjoined <;>
      exact ⟨h.operatorPaused, h.unwanted, h.processes, h.live⟩

/-- The region of a suspension. -/
theorem Idle.endSuspension (h : Idle r₀ r) {i : Nat}
    (hnext : r.suspensionTerminated i = some r' ∨ r.suspensionFailed i = some r') : Idle r₀ r' := by
  rcases hnext with hterminated | hfailed
  · obtain ⟨j, _, _, rfl⟩ := suspensionTerminated_cases hterminated
    have hdropped := h.dropProcess j.process
    exact ⟨hdropped.operatorPaused, hdropped.unwanted, hdropped.processes, hdropped.live⟩
  · unfold suspensionFailed at hfailed
    split at hfailed
    · obtain rfl := Option.some.inj hfailed
      exact ⟨h.operatorPaused, h.unwanted, h.processes, h.live⟩
    · cases hfailed

end Worker

namespace Supervisor

variable {W : Type} [DecidableEq W] {s s' : Supervisor W} {w : W} {r₀ : Worker}

omit [DecidableEq W] in
/-- Another worker's part of a region. -/
theorem OnlyExits.idle {w' : W} (honly : OnlyExits w' s s') (hne : w ≠ w')
    (h : Worker.Idle r₀ (s.worker w)) : Worker.Idle r₀ (s'.worker w) := by
  obtain ⟨exited, hexited⟩ := honly.others w hne
  rw [hexited]
  exact h.exit exited

/-- The monitor does not spawn what is not wanted. -/
theorem idle_turn (scheduleAdmitted : Bool) (answers : W → TurnAnswers W) (w' : W)
    (h : Worker.Idle r₀ (s.worker w)) :
    Worker.Idle r₀ ((turn scheduleAdmitted answers s w').2.worker w) := by
  by_cases hsame : w = w'
  · subst hsame
    obtain ⟨-, hquiet⟩ := turnPlan_quiet scheduleAdmitted answers s w
    have hspawn := turnPlan_spawn scheduleAdmitted answers s w
    rw [turn_eq]
    generalize (turnPlan scheduleAdmitted answers s w).2 = s₁ at hquiet hspawn
    have hidle := h.quiet hquiet
    cases hplan : (turnPlan scheduleAdmitted answers s w).1 with
    | leave => exact hidle
    | suspendForSchedule =>
      show Worker.Idle r₀ ((s₁.put w _).worker w)
      rw [put_worker_self]
      exact Worker.Idle.stopForPolicy
        ⟨hidle.operatorPaused, hidle.unwanted, hidle.processes, hidle.live⟩
    | suspendForResource =>
      show Worker.Idle r₀ ((s₁.put w _).worker w)
      rw [put_worker_self]
      exact Worker.Idle.stopForPolicy
        ⟨hidle.operatorPaused, hidle.unwanted, hidle.processes, hidle.live⟩
    | spawn =>
      have hwanted := (hspawn hplan).1
      rw [hidle.unwanted] at hwanted
      cases hwanted
  · exact (turn_part (fun _ _ _ => trivial)
      (turnMeets_always scheduleAdmitted answers s w')).toOnlyExits.idle hsame h

theorem idle_serviceTurn (answers : W → SpawnAnswers W) (w' : W)
    (h : Worker.Idle r₀ (s.worker w)) :
    Worker.Idle r₀ ((serviceTurn answers s w').2.worker w) := by
  by_cases hsame : w = w'
  · subst hsame
    unfold serviceTurn
    rw [h.unwanted, if_neg Bool.false_ne_true]
    exact h
  · have hmeets : ServiceTurnMeets Machine.always answers s w' := fun _ =>
      s.spawnMeets_always w' true true (answers w')
    exact (serviceTurn_part (fun _ _ _ => trivial) hmeets).toOnlyExits.idle hsame h

/-- `replace_launch` asks for the mark before it wants the worker again. -/
theorem idle_replaceLaunch (w' : W) (launch : WorkerLaunch) (start : Option Bool)
    (exited : W → List Nat) (now : Rat) (a : SpawnAnswers W) (h : Worker.Idle r₀ (s.worker w)) :
    Worker.Idle r₀ ((s.replaceLaunch w' launch start exited now a).2.worker w) := by
  by_cases hsame : w = w'
  · subst hsame
    have hrefreshed : Worker.Idle r₀ (((s.exit exited).worker w).refresh now) :=
      (h.exit (exited w)).refresh now
    unfold replaceLaunch
    split
    · exact h
    split
    · exact h
    simp only
    generalize ((s.exit exited).worker w).refresh now = r at hrefreshed
    split
    · rw [put_worker_self]
      exact hrefreshed
    · have hshould : (start.getD launch.autoStart && !r.operatorPaused) = false := by
        rw [hrefreshed.operatorPaused, Bool.not_true, Bool.and_false]
      have hassigned := hrefreshed.assign launch
      rw [hshould, Bool.false_and, Bool.and_false, if_neg Bool.false_ne_true, put_worker_self]
      exact ⟨hassigned.operatorPaused, rfl, hassigned.processes, hassigned.live⟩
  · exact (replaceLaunch_part (fun _ _ _ => trivial)
      (fun _ => spawnMeets_always _ w' true true a)).toOnlyExits.idle hsame h

theorem idle_startWorker {w' : W} (hne : w ≠ w') (a : SpawnAnswers W)
    (h : Worker.Idle r₀ (s.worker w)) : Worker.Idle r₀ ((s.startWorker w' a).2.worker w) := by
  unfold startWorker
  simp only
  split
  · exact h
  split
  · exact (onlyExits_put s w' _).idle hne h
  · have hspawn := spawnLocked_part (fun _ _ _ => trivial) (by simp [wanted])
      (spawnMeets_always (s.wanted w') w' false false a)
    exact ((onlyExits_put s w' _).trans hspawn.toOnlyExits).idle hne h

theorem idle_reconfigure (launches : Dict W WorkerLaunch) (persisted : Bool) (exited : W → List Nat)
    (now : W → Rat) (h : Worker.Idle r₀ (s.worker w)) :
    Worker.Idle r₀ ((s.reconfigure launches persisted exited now).2.worker w) := by
  have hturns : Turns (quiesceTurn now) (fun _ _ => True) s.workers (s.exit exited) :=
    .of_forall fun _ _ => trivial
  have hloop : Worker.Idle r₀ ((forEach (quiesceTurn now) s.workers (s.exit exited)).2.worker w) := by
    refine forEach_invariant (fun s₁ => Worker.Idle r₀ (s₁.worker w)) (h.exit (exited w)) hturns
      fun s₁ w' _ hidle _ => ?_
    by_cases hsame : w = w'
    · subst hsame
      show Worker.Idle r₀ ((s₁.put w _).worker w)
      rw [put_worker_self]
      exact hidle.refresh (now w)
    · exact (onlyExits_put s₁ w' _).idle hsame hidle
  unfold reconfigure
  split
  · exact h
  split
  · exact h
  rcases hresult : forEach (quiesceTurn now) s.workers (s.exit exited) with ⟨result, s₁⟩
  rw [hresult] at hloop
  cases result with
  | error e => exact hloop
  | ok u =>
    simp only
    split
    · exact hloop
    · dsimp only
      -- the new launch of the worker, if it has one
      split
      · exact hloop
      · split
        · exact hloop.assign _
        · exact hloop

/-- **What every region keeps but a start of the worker.** -/
theorem idle_next {ev : SupervisorEvent W} (h : Worker.Idle r₀ (s.worker w))
    (hother : ∀ a, ev ≠ .startWorker w a) (hstep : s.next ev = some s') :
    Worker.Idle r₀ (s'.worker w) := by
  -- a region of one worker that ends a pause or a suspension
  have hput : ∀ {w' : W} {o : Option Worker}, o.map (s.put w') = some s' →
      (∀ r, o = some r → w = w' → Worker.Idle r₀ r) → Worker.Idle r₀ (s'.worker w) := by
    intro w' o hmap hself
    obtain ⟨r, hr, rfl⟩ := Option.map_eq_some_iff.mp hmap
    by_cases hsame : w = w'
    · rw [hsame, put_worker_self]
      exact hself r hr hsame
    · exact (onlyExits_put s w' r).idle hsame h
  cases ev with
  | exits exited =>
    obtain rfl := Option.some.inj hstep
    exact h.exit (exited w)
  | startService answers =>
    obtain rfl := Option.some.inj hstep
    have hturns : Turns (serviceTurn answers) (fun _ _ => True) s.workers { s with started := true } :=
      .of_forall fun _ _ => trivial
    have hstarted : Worker.Idle r₀ (({ s with started := true } : Supervisor W).worker w) := h
    have hloop := forEach_invariant (fun s₁ : Supervisor W => Worker.Idle r₀ (s₁.worker w)) hstarted
      hturns fun s₁ w' _ hidle _ => idle_serviceTurn answers w' hidle
    unfold startService
    split
    · exact h
    split
    · exact h
    rcases hresult : forEach (serviceTurn answers) s.workers { s with started := true } with
      ⟨result, s₁⟩
    rw [hresult] at hloop
    cases result <;> exact hloop
  | monitor schedule answers =>
    have hturns : Turns (turn schedule.refusal.isNone answers) (fun _ _ => True) s.workers s :=
      .of_forall fun _ _ => trivial
    have hloop := forEach_invariant (fun s₁ : Supervisor W => Worker.Idle r₀ (s₁.worker w)) h hturns
      fun s₁ w' _ hidle _ => idle_turn schedule.refusal.isNone answers w' hidle
    simp only [next, iteration] at hstep
    split at hstep
    · rcases hresult : forEach (turn schedule.refusal.isNone answers) s.workers s with ⟨result, s₁⟩
      rw [hresult] at hstep hloop
      cases result <;>
      · obtain rfl := Option.some.inj hstep
        exact hloop
    · cases hstep
  | startWorker w' a =>
    obtain rfl := Option.some.inj hstep
    refine idle_startWorker (fun hsame => ?_) a h
    exact hother a (hsame ▸ rfl)
  | beginPause w' operatorAction =>
    simp only [next] at hstep
    split at hstep
    · obtain rfl := Option.some.inj hstep
      by_cases hsame : w = w'
      · rw [hsame, put_worker_self]
        rw [hsame] at h
        exact h.beginPause operatorAction
      · exact (onlyExits_put s w' _).idle hsame h
    · obtain rfl := Option.some.inj hstep
      exact h
  | pauseTerminated w' i =>
    refine hput hstep fun r hr hsame => ?_
    rw [hsame] at h
    exact h.endPause (Or.inl hr)
  | pauseFailed w' i =>
    refine hput hstep fun r hr hsame => ?_
    rw [hsame] at h
    exact h.endPause (Or.inr (Or.inl hr))
  | pauseJoined w' i =>
    refine hput hstep fun r hr hsame => ?_
    rw [hsame] at h
    exact h.endPause (Or.inr (Or.inr (Or.inl hr)))
  | pauseTimedOut w' i =>
    refine hput hstep fun r hr hsame => ?_
    rw [hsame] at h
    exact h.endPause (Or.inr (Or.inr (Or.inr hr)))
  | suspensionTerminated w' i =>
    refine hput hstep fun r hr hsame => ?_
    rw [hsame] at h
    exact h.endSuspension (Or.inl hr)
  | suspensionFailed w' i =>
    refine hput hstep fun r hr hsame => ?_
    rw [hsame] at h
    exact h.endSuspension (Or.inr hr)
  | replaceLaunch w' launch start exited now a =>
    obtain rfl := Option.some.inj hstep
    exact idle_replaceLaunch w' launch start exited now a h
  | reconfigure launches persisted exited now =>
    obtain rfl := Option.some.inj hstep
    exact idle_reconfigure launches persisted exited now h
  | snapshots exited now =>
    obtain rfl := Option.some.inj hstep
    show Worker.Idle r₀ (if w ∈ s.workers then ((s.worker w).exit (exited w)).refresh (now w)
      else (s.worker w).exit (exited w))
    split
    · exact (h.exit (exited w)).refresh (now w)
    · exact h.exit (exited w)
  | beginShutdown =>
    obtain rfl := Option.some.inj hstep
    unfold beginShutdown
    split
    · exact h
    · show Worker.Idle r₀ (if w ∈ s.workers then _ else s.worker w)
      split
      · exact ⟨h.operatorPaused, rfl, h.processes, h.live⟩
      · exact h

/-- The region does not start the worker on the operator's behalf. -/
def NotStarted (w : W) (_ : Supervisor W) (ev : SupervisorEvent W) : Prop :=
  ∀ a, ev ≠ .startWorker w a

end Supervisor

/-! ### Main results -/

open Supervisor

/-- **The operator's pause is sticky.** From the region in which `pause_worker` marks the worker until
`start_worker` takes the lock for it, the worker stays marked and is not wanted, and no process of it is
started, whatever the monitor, suspensions, replacements and reconfigurations do. -/
theorem operator_pause_sticky {W : Type} [DecidableEq W] {s s₁ s₂ : Supervisor W} {w : W}
    (hw : w ∈ s.workers) (hpause : s.next (.beginPause w true) = some s₁)
    (hreach : (supervisorMachine W).Reach (NotStarted w) s₁ s₂) :
    (s₂.worker w).operatorPaused = true ∧ (s₂.worker w).desiredRunning = false ∧
      (s₂.worker w).processes = (s.worker w).processes ∧
      ∀ p ∈ (s₂.worker w).live, p ∈ (s.worker w).live := by
  have hmarked : Worker.Idle (s.worker w) (s₁.worker w) := by
    simp only [next] at hpause
    rw [if_pos hw] at hpause
    obtain rfl := Option.some.inj hpause
    rw [put_worker_self]
    exact Worker.idle_beginPause (s.worker w)
  have hidle : Worker.Idle (s.worker w) (s₂.worker w) := by
    induction hreach with
    | refl => exact hmarked
    | tail _ hother hnext ih => exact idle_next ih hother hnext
  exact ⟨hidle.operatorPaused, hidle.unwanted, hidle.processes, hidle.live⟩

/-- The monitor, and a replacement that asks for a start, leave a paused worker alone. -/
theorem operator_pause_sticky_after_replacement :
    ∃ s s₂ : Supervisor Unit, (s.worker ()).live = [0] ∧ s₂.started = true ∧
      ((s₂.worker ()).operatorPaused = true ∧ (s₂.worker ()).desiredRunning = false ∧
        (s₂.worker ()).processes = (s.worker ()).processes ∧
        ∀ p ∈ (s₂.worker ()).live, p ∈ (s.worker ()).live) := by
  let pause : SupervisorEvent Unit := .beginPause () true
  let later : List (SupervisorEvent Unit) :=
    [.exits fun _ => [0], .pauseTerminated () 0,
      .replaceLaunch () { sampleLaunch with modelId := "other" } (some true) (fun _ => []) 0
        (answering .allowed)]
  have hstart : ((supervisorMachine Unit).run oneWorker
      [.startService fun _ => answering .allowed]).map (fun s => ((s.worker ()).live, s.workers,
        ((s.next pause).bind fun s => (supervisorMachine Unit).run s later).map
          Supervisor.started)) = some ([0], [()], some true) := by
    decide +kernel
  obtain ⟨s, -, hview⟩ := Option.map_eq_some_iff.mp hstart
  obtain ⟨hlive, hview⟩ := Prod.mk.inj hview
  obtain ⟨hworkers, hview⟩ := Prod.mk.inj hview
  obtain ⟨s₂, hrun, hstarted⟩ := Option.map_eq_some_iff.mp hview
  obtain ⟨s₁, hpause, hlater⟩ := Option.bind_eq_some_iff.mp hrun
  have hmem : () ∈ s.workers := by
    rw [hworkers]
    exact List.mem_singleton_self ()
  have halong : (supervisorMachine Unit).Along (NotStarted ()) s₁ later := by
    -- none of the later regions is a start
    exact ⟨(fun _ h => nomatch h), fun _ _ => ⟨(fun _ h => nomatch h), fun _ _ =>
      ⟨(fun _ h => nomatch h), fun _ _ => trivial⟩⟩⟩
  exact ⟨s, s₂, hlive, hstarted, operator_pause_sticky hmem hpause (Machine.reach_of_run hlater halong)⟩

end Drift.Node
