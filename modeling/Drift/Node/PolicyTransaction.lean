import Drift.Node.PolicyStore
import Drift.Node.WorkerSafety

/-!
# An update of the policy as a transaction

One call of `update` without other writers, in which at most one step fails. The file, the store and the
supervisor are as before if the call raises, and hold the new policy if it returns, except where the step
that fails is one after the exchange that the call does not survive: the reading of the displaced file, or
the closing of the lock's file.

* `Stands` — how far the call has come, by its stage;
* `update_transaction_iff` — when the update is a transaction;
* `unreadable_displaced_file_diverges` — a run in which it is not.
-/

namespace Drift.Node

open Drift.Lib

/-! ### What `reconfigure` does to the launches -/

namespace Supervisor

variable {W : Type} [DecidableEq W]

theorem quiesceTurn_launch (now : W → Rat) (s : Supervisor W) (w : W) :
    ((fun w' => (((quiesceTurn now s w).2).worker w').launch), (quiesceTurn now s w).2.workers) =
      (fun w' => (s.worker w').launch, s.workers) := by
  refine Prod.ext ?_ rfl
  funext w'
  unfold quiesceTurn
  by_cases hw : w' = w
  · simp only [hw, put_worker_self]
    obtain h | ⟨p, state, nextRestartAt, -, -, h⟩ := (s.worker w).refresh_cases (now w)
    · rw [h]
    · rw [h]
  · simp only [put_worker_ne _ _ hw]

/-- Refreshing the workers leaves their launches alone. -/
theorem quiesce_launch (now : W → Rat) (ws : List W) (s : Supervisor W) :
    (∀ w, (((forEach (quiesceTurn now) ws s).2).worker w).launch = (s.worker w).launch) ∧
      (forEach (quiesceTurn now) ws s).2.workers = s.workers := by
  have h : ((fun w => (((forEach (quiesceTurn now) ws s).2).worker w).launch),
      (forEach (quiesceTurn now) ws s).2.workers) = (fun w => (s.worker w).launch, s.workers) :=
    forEach_keeps (fun t : Supervisor W => (fun w => (t.worker w).launch, t.workers))
      (quiesceTurn_launch now)
  obtain ⟨hlaunch, hworkers⟩ := Prod.mk.inj h
  exact ⟨fun w => congrFun hlaunch w, hworkers⟩

/-- A `reconfigure` that raises leaves the launches alone, and one whose callback raises does. -/
theorem reconfigure_raises {s : Supervisor W} {launches : Dict W WorkerLaunch} {persisted : Bool}
    {exited : W → List Nat} {now : W → Rat} {e : SupervisorError}
    (h : (s.reconfigure launches persisted exited now).1 = .error e) (w : W) :
    ((s.reconfigure launches persisted exited now).2.worker w).launch = (s.worker w).launch := by
  revert h
  have hquiesce := (quiesce_launch now s.workers (s.exit exited)).1 w
  unfold reconfigure
  split
  · exact fun _ => rfl
  split
  · exact fun _ => rfl
  generalize forEach (quiesceTurn now) s.workers (s.exit exited) = result at hquiesce
  obtain ⟨⟨⟩ | ⟨⟩, t⟩ := result
  · exact fun _ => hquiesce
  · simp only
    split
    · exact fun _ => hquiesce
    · intro h
      cases h

theorem reconfigure_unpersisted (s : Supervisor W) (launches : Dict W WorkerLaunch)
    (exited : W → List Nat) (now : W → Rat) :
    ∃ e, (s.reconfigure launches false exited now).1 = .error e := by
  unfold reconfigure
  split
  · exact ⟨_, rfl⟩
  split
  · exact ⟨_, rfl⟩
  generalize forEach (quiesceTurn now) s.workers (s.exit exited) = result
  obtain ⟨⟨⟩ | ⟨⟩, t⟩ := result
  · exact ⟨_, rfl⟩
  · exact ⟨_, rfl⟩

/-- A `reconfigure` that returns has given every worker its launch. -/
theorem reconfigure_returns {s : Supervisor W} {launches : Dict W WorkerLaunch} {persisted : Bool}
    {exited : W → List Nat} {now : W → Rat}
    (h : (s.reconfigure launches persisted exited now).1 = .ok ()) {w : W} (hw : w ∈ s.workers) :
    launches.lookup w =
      some ((s.reconfigure launches persisted exited now).2.worker w).launch := by
  revert h
  have hworkers := (quiesce_launch now s.workers (s.exit exited)).2
  unfold reconfigure
  split
  · intro h
    cases h
  split
  · intro h
    cases h
  next hsame =>
  generalize forEach (quiesceTurn now) s.workers (s.exit exited) = result at hworkers
  obtain ⟨⟨⟩ | ⟨⟩, t⟩ := result
  · intro h
    cases h
  · simp only
    split
    · intro h
      cases h
    · intro _
      have hkey : w ∈ launches.keys := (not_not.mp hsame).1 w hw
      obtain ⟨launch, hlaunch⟩ := Option.isSome_iff_exists.mp
        (AList.lookup_isSome.mpr (AList.mem_keys.mpr hkey))
      have hw' : w ∈ t.workers := by
        rw [hworkers]
        exact hw
      simp only [hlaunch, hw', if_true]
      rfl

end Supervisor

/-! ### The property -/

variable {Bytes Policy Config W S : Type} [DecidableEq W]

/-- The file has been exchanged, and the call raises if the step does: the displaced file is read, or the
lock's file is closed after the commit. -/
def PolicyStage.late : PolicyStage Bytes Config W S → Bool
  | .verifying _ => true
  | .unlocking _ (.ok _) => true
  | _ => false

namespace PolicyState

variable (platform : Platform) (code : PolicyCode Bytes Policy Config W S)

/-- What is compiled from the document on disk and the request. -/
def candidateOf (s : PolicyState Bytes Policy Config W S) (call : PolicyCall W) :
    Option (PolicyCandidate Bytes Config W S) :=
  (s.files .config).bind fun payload =>
    (code.parseDocument payload).bind fun document => code.compile document call.source

/-- The store and what the supervisor takes from the policy are as before. -/
def Kept (s₀ s : PolicyState Bytes Policy Config W S) : Prop :=
  s.policy = s₀.policy ∧ s.revision = s₀.revision ∧
    (∀ w, (s.supervisor.worker w).launch = (s₀.supervisor.worker w).launch) ∧
    s.callbacks = s₀.callbacks

/-- **The update is a transaction.** If it raises, the file, the policy, the revision, the launches and
the callbacks are as before. If it returns, they are those of the new policy. -/
def Transacted (s₀ s : PolicyState Bytes Policy Config W S) (call : PolicyCall W) :
    Except PolicyError Unit → Prop
  | .error _ => s.files .config = s₀.files .config ∧ Kept s₀ s
  | .ok () => ∃ c, s₀.candidateOf code call = some c ∧ s.files .config = some c.payload ∧
      s.policy = code.contributionPolicy c.config ∧ s.revision = code.revision c.payload ∧
      (∀ w ∈ s₀.supervisor.workers,
        c.settings.launches.lookup w = some (s.supervisor.worker w).launch) ∧
      s.callbacks = c.settings.callbacks

/-- A failure after the exchange that the call does not survive. -/
def FailsLate (s : PolicyState Bytes Policy Config W S) (o : StepOutcome) : Prop :=
  o = .raises ∧ s.stage.late = true

/-- **The condition**: neither the reading of the displaced file raises nor, after the commit, the closing
of the lock's file. -/
def KeepsTransaction (s : PolicyState Bytes Policy Config W S) : PolicyEvent Bytes → Prop
  | .own o => ¬ s.FailsLate o
  | .foreign _ => True

instance (s : PolicyState Bytes Policy Config W S) (ev : PolicyEvent Bytes) :
    Decidable (s.KeepsTransaction ev) :=
  match ev with
  | .own o => inferInstanceAs (Decidable (¬ (o = .raises ∧ s.stage.late = true)))
  | .foreign _ => isTrue trivial

end PolicyState

/-- Whether a step fails. -/
def StepOutcome.faults (o : StepOutcome) : Nat := if o = .succeeds then 0 else 1

namespace PolicyState

variable {platform : Platform} {code : PolicyCode Bytes Policy Config W S}
  {s₀ s s' : PolicyState Bytes Policy Config W S} {call : PolicyCall W}

/-! ### How far the call has come -/

/-- What has been made ready when the callback is called. -/
structure Begun (code : PolicyCode Bytes Policy Config W S)
    (s₀ : PolicyState Bytes Policy Config W S) (call : PolicyCall W)
    (u : PolicyUpdate Bytes Config W S) : Prop where
  candidate : s₀.candidateOf code call = some u.candidate
  expected : ∃ payload, s₀.files .config = some payload ∧ code.revision payload = u.expected
  persisted : s₀.supervisor.reconfigure u.candidate.settings.launches true call.exited call.now =
    (.ok (), u.persisted)
  unpersisted : u.unpersisted =
    (s₀.supervisor.reconfigure u.candidate.settings.launches false call.exited call.now).2

/-- The store and the supervisor are as before the call. -/
structure Untouched (s₀ s : PolicyState Bytes Policy Config W S) : Prop where
  policy : s.policy = s₀.policy
  revision : s.revision = s₀.revision
  supervisor : s.supervisor = s₀.supervisor
  callbacks : s.callbacks = s₀.callbacks

omit [DecidableEq W] in
theorem Untouched.stage (h : Untouched s₀ s) (stage : PolicyStage Bytes Config W S) :
    Untouched s₀ { s with stage := stage } :=
  ⟨h.policy, h.revision, h.supervisor, h.callbacks⟩

omit [DecidableEq W] in
theorem Untouched.files (h : Untouched s₀ s) (files : ConfigPath → Option Bytes)
    (stage : PolicyStage Bytes Config W S) : Untouched s₀ { s with files := files, stage := stage } :=
  ⟨h.policy, h.revision, h.supervisor, h.callbacks⟩

/-- What the file holds when the callback ends. -/
def FileAt (s₀ s : PolicyState Bytes Policy Config W S) (u : PolicyUpdate Bytes Config W S)
    (late : Prop) : Except PolicyError Unit → Prop
  | .ok () => ¬ late ∧ s.files .config = some u.candidate.payload
  | .error _ => (late → s.files .config = some u.candidate.payload) ∧
      (¬ late → s.files .config = s₀.files .config)

/-- **Where the call stands**, after `n` failures. -/
def Stands (platform : Platform) (code : PolicyCode Bytes Policy Config W S)
    (s₀ : PolicyState Bytes Policy Config W S) (call : PolicyCall W) (n : Nat) (late : Prop)
    (s : PolicyState Bytes Policy Config W S) : Prop :=
  match s.stage with
  | .called c => c = call ∧ ¬ late ∧ Untouched s₀ s ∧ s.files = s₀.files
  | .locking u | .checking u | .writing u =>
    Begun code s₀ call u ∧ Untouched s₀ s ∧ ¬ late ∧ s.files .config = s₀.files .config
  | .rechecking u | .exchanging u .commit =>
    Begun code s₀ call u ∧ Untouched s₀ s ∧ ¬ late ∧ s.files .config = s₀.files .config ∧
      s.files .candidate = some u.candidate.payload
  | .failed u .commit | .recovering u .commit =>
    Begun code s₀ call u ∧ Untouched s₀ s ∧ ¬ late ∧ s.files .config = none ∧
      s.files .backup = s₀.files .config ∧ 1 ≤ n
  | .verifying u =>
    Begun code s₀ call u ∧ Untouched s₀ s ∧ ¬ late ∧ s.files .config = some u.candidate.payload ∧
      s.files (Exchange.commit.displaced platform) = s₀.files .config
  | .exchanging _ .restore | .failed _ .restore | .recovering _ .restore => False
  | .unlinking u | .syncing u =>
    Begun code s₀ call u ∧ Untouched s₀ s ∧ ¬ late ∧ s.files .config = some u.candidate.payload
  | .cleaning u temporary result =>
    Begun code s₀ call u ∧ Untouched s₀ s ∧ FileAt s₀ s u late result ∧ temporary ≠ some .config
  | .unlocking u result => Begun code s₀ call u ∧ Untouched s₀ s ∧ FileAt s₀ s u late result
  | .done result => (¬ late → Transacted code s₀ s call result) ∧
      (late → (∃ e, result = .error e) ∧ Kept s₀ s ∧ ∃ c, s₀.candidateOf code call = some c ∧
        s.files .config = some c.payload)

omit [DecidableEq W] in
theorem FileAt.of_config {u : PolicyUpdate Bytes Config W S} {late : Prop}
    {result : Except PolicyError Unit} (h : FileAt s₀ s u late result)
    (hconfig : s'.files .config = s.files .config) : FileAt s₀ s' u late result := by
  cases result with
  | ok v => exact ⟨h.1, hconfig.trans h.2⟩
  | error e => exact ⟨fun hlate => hconfig.trans (h.1 hlate), fun hlate => hconfig.trans (h.2 hlate)⟩

omit [DecidableEq W] in
theorem Untouched.refl (s : PolicyState Bytes Policy Config W S) : Untouched s s := ⟨rfl, rfl, rfl, rfl⟩

/-- A call that raises before its callback leaves everything as it was. -/
theorem Stands.raised {n : Nat} {late : Prop} (huntouched : Untouched s₀ s)
    (hfiles : s.files = s₀.files) (hlate : ¬ late) (t : Supervisor W) (e : PolicyError)
    (hlaunch : ∀ w, (t.worker w).launch = (s.supervisor.worker w).launch) :
    Stands platform code s₀ call n late { s with supervisor := t, stage := .done (.error e) } := by
  refine ⟨fun _ => ⟨?_, huntouched.policy, huntouched.revision, fun w => ?_, huntouched.callbacks⟩,
    fun h => absurd h hlate⟩
  · rw [hfiles]
  · show (t.worker w).launch = _
    rw [hlaunch w, huntouched.supervisor]

theorem Stands.begin {n : Nat} {late : Prop} (huntouched : Untouched s₀ s)
    (hfiles : s.files = s₀.files) (hlate : ¬ late) :
    Stands platform code s₀ call n late (s.begin code call) := by
  have hraised : ∀ (t : Supervisor W) (e : PolicyError),
      (∀ w, (t.worker w).launch = (s.supervisor.worker w).launch) →
      Stands platform code s₀ call n late
        { s with supervisor := t, stage := .done (.error e) } :=
    Stands.raised huntouched hfiles hlate
  unfold PolicyState.begin
  simp only
  split
  · exact hraised s.supervisor .conflict fun _ => rfl
  split
  · exact hraised s.supervisor .conflict fun _ => rfl
  split
  · exact hraised s.supervisor .config fun _ => rfl
  next payload hpayload =>
  split
  · exact hraised s.supervisor .config fun _ => rfl
  next document hdocument =>
  split
  · exact hraised s.supervisor .conflict fun _ => rfl
  split
  · exact hraised s.supervisor .config fun _ => rfl
  next candidate hcandidate =>
  split
  · next e t hreconfigure =>
    refine hraised t (.supervisor e) fun w => ?_
    have herror : (s.supervisor.reconfigure candidate.settings.launches true call.exited
        call.now).1 = .error e := by
      rw [hreconfigure]
    have h := Supervisor.reconfigure_raises herror w
    rwa [hreconfigure] at h
  · next t hreconfigure =>
    have hpayload₀ : s₀.files .config = some payload := by rw [← hfiles, hpayload]
    refine ⟨⟨?_, ⟨payload, hpayload₀, rfl⟩, ?_, ?_⟩, ?_, hlate, ?_⟩
    · simp only [candidateOf, hpayload₀, Option.bind_some, hdocument, hcandidate]
    · rw [← huntouched.supervisor]
      exact hreconfigure
    · rw [← huntouched.supervisor]
    · exact ⟨huntouched.policy, huntouched.revision, huntouched.supervisor, huntouched.callbacks⟩
    · rw [← hfiles]

theorem Stands.finish {n : Nat} {late : Prop} {u : PolicyUpdate Bytes Config W S}
    {result : Except PolicyError Unit} (hbegun : Begun code s₀ call u) (huntouched : Untouched s₀ s)
    (hfile : FileAt s₀ s u late result) :
    Stands platform code s₀ call n late (s.finish code u result) := by
  obtain ⟨hcandidate, -, hpersisted, hunpersisted⟩ := hbegun
  cases result with
  | ok v =>
    obtain ⟨hlate, hconfig⟩ := hfile
    refine ⟨fun _ => ⟨u.candidate, hcandidate, hconfig, rfl, rfl, fun w hw => ?_, rfl⟩,
      fun h => absurd h hlate⟩
    have h := Supervisor.reconfigure_returns (by rw [hpersisted]) hw
    rwa [hpersisted] at h
  | error e =>
    have hkept : Kept s₀ (s.finish code u (.error e)) := by
      refine ⟨huntouched.policy, huntouched.revision, fun w => ?_, huntouched.callbacks⟩
      show (u.unpersisted.worker w).launch = _
      rw [hunpersisted]
      obtain ⟨error, herror⟩ := s₀.supervisor.reconfigure_unpersisted
        u.candidate.settings.launches call.exited call.now
      exact Supervisor.reconfigure_raises herror w
    exact ⟨fun hlate => ⟨hfile.2 hlate, hkept⟩,
      fun hlate => ⟨⟨e, rfl⟩, hkept, u.candidate, hcandidate, hfile.1 hlate⟩⟩

omit [DecidableEq W] in
/-- A step at a stage where no failure is late. -/
theorem not_failsLate {o : StepOutcome} (hstage : ∀ u, s.stage ≠ .verifying u)
    (hstage' : ∀ u, s.stage ≠ .unlocking u (.ok ())) : ¬ s.FailsLate o := by
  rintro ⟨-, h⟩
  unfold PolicyStage.late at h
  split at h
  · next u hverifying => exact hstage u hverifying
  · next u v hunlocking => exact hstage' u hunlocking
  · cases h

/-- What an exchange that raises leaves of a call, before the file is exchanged. -/
theorem Stands.exchangeFailed {n : Nat} {late : Prop} {u : PolicyUpdate Bytes Config W S}
    (hbegun : Begun code s₀ call u) (huntouched : Untouched s₀ s) (hlate : ¬ late)
    (hconfig : s.files .config = s₀.files .config) :
    Stands platform code s₀ call n late { s with stage := PolicyState.exchangeFailed u .commit } :=
  ⟨hbegun, ⟨huntouched.policy, huntouched.revision, huntouched.supervisor, huntouched.callbacks⟩,
    ⟨fun h => absurd h hlate, fun _ => hconfig⟩, by decide⟩

theorem Stands.own {n : Nat} {late : Prop} {o : StepOutcome} (h : Stands platform code s₀ call n late s)
    (hnext : s.own platform code o = some s') (hbudget : n + o.faults ≤ 1) :
    Stands platform code s₀ call (n + o.faults) (late ∨ s.FailsLate o) s' := by
  have hsame : (∀ u, s.stage ≠ .verifying u) → (∀ u, s.stage ≠ .unlocking u (.ok ())) →
      (late ∨ s.FailsLate o) = late := fun hverifying hunlocking =>
    propext (or_iff_left (not_failsLate hverifying hunlocking))
  unfold Stands at h
  unfold PolicyState.own at hnext
  cases hstage : s.stage with
  | called c =>
    rw [hsame (by simp [hstage]) (by simp [hstage])]
    rw [hstage] at h hnext
    obtain ⟨rfl, hlate, huntouched, hfiles⟩ := h
    cases o with
    | succeeds =>
      obtain rfl := Option.some.inj hnext
      exact .begin huntouched hfiles hlate
    | raises =>
      obtain rfl := Option.some.inj hnext
      exact .raised huntouched hfiles hlate s.supervisor .persistence fun _ => rfl
    | refused =>
      obtain rfl := Option.some.inj hnext
      exact .raised huntouched hfiles hlate s.supervisor .config fun _ => rfl
    | moved => cases hnext
  | locking u =>
    rw [hsame (by simp [hstage]) (by simp [hstage])]
    rw [hstage] at h hnext
    obtain ⟨hbegun, huntouched, hlate, hconfig⟩ := h
    cases o with
    | succeeds =>
      obtain rfl := Option.some.inj hnext
      exact ⟨hbegun, huntouched.stage _, hlate, hconfig⟩
    | raises =>
      obtain rfl := Option.some.inj hnext
      exact .finish hbegun huntouched ⟨fun h => absurd h hlate, fun _ => hconfig⟩
    | refused | moved => cases hnext
  | checking u =>
    rw [hsame (by simp [hstage]) (by simp [hstage])]
    rw [hstage] at h hnext
    obtain ⟨hbegun, huntouched, hlate, hconfig⟩ := h
    have hraised : ∀ e, Stands platform code s₀ call (n + o.faults) late
        { s with stage := .unlocking u (.error e) } := fun e =>
      ⟨hbegun, huntouched.stage _, fun h => absurd h hlate, fun _ => hconfig⟩
    cases o with
    | succeeds =>
      obtain rfl := Option.some.inj hnext
      unfold check
      split
      · exact hraised .config
      split
      · exact hraised .conflict
      · exact ⟨hbegun, huntouched.stage _, hlate, hconfig⟩
    | raises | refused =>
      obtain rfl := Option.some.inj hnext
      exact hraised _
    | moved => cases hnext
  | writing u =>
    rw [hsame (by simp [hstage]) (by simp [hstage])]
    rw [hstage] at h hnext
    obtain ⟨hbegun, huntouched, hlate, hconfig⟩ := h
    cases o with
    | succeeds =>
      obtain rfl := Option.some.inj hnext
      exact ⟨hbegun, huntouched.files _ _, hlate, by rw [← hconfig]; simp, by simp⟩
    | raises =>
      obtain rfl := Option.some.inj hnext
      exact ⟨hbegun, huntouched.stage _, ⟨fun h => absurd h hlate, fun _ => hconfig⟩, by decide⟩
    | refused | moved => cases hnext
  | rechecking u =>
    rw [hsame (by simp [hstage]) (by simp [hstage])]
    rw [hstage] at h hnext
    obtain ⟨hbegun, huntouched, hlate, hconfig, hcandidate⟩ := h
    have hraised : ∀ e, Stands platform code s₀ call (n + o.faults) late
        { s with stage := .cleaning u (some .candidate) (.error e) } := fun e =>
      ⟨hbegun, huntouched.stage _, ⟨fun h => absurd h hlate, fun _ => hconfig⟩, by decide⟩
    cases o with
    | succeeds =>
      obtain rfl := Option.some.inj hnext
      unfold check
      split
      · exact hraised .config
      split
      · exact hraised .conflict
      · exact ⟨hbegun, huntouched.stage _, hlate, hconfig, hcandidate⟩
    | raises | refused =>
      obtain rfl := Option.some.inj hnext
      exact hraised _
    | moved => cases hnext
  | exchanging u x =>
    rw [hsame (by simp [hstage]) (by simp [hstage])]
    rw [hstage] at h hnext
    cases x with
    | restore => exact h.elim
    | commit =>
    obtain ⟨hbegun, huntouched, hlate, hconfig, hcandidate⟩ := h
    cases o with
    | succeeds =>
      simp only [exchangePaths, Exchange.replacement, hcandidate] at hnext
      cases hold : s.files .config with
      | none =>
        rw [hold] at hnext
        obtain rfl := Option.some.inj hnext
        exact .exchangeFailed hbegun huntouched hlate hconfig
      | some old =>
        rw [hold] at hnext
        obtain rfl := Option.some.inj hnext
        refine ⟨hbegun, ⟨huntouched.policy, huntouched.revision, huntouched.supervisor,
          huntouched.callbacks⟩, hlate, ?_, ?_⟩
        · simp [exchanged]
        · rw [← hconfig, hold]
          cases platform <;> simp [exchanged, Exchange.displaced, Exchange.replacement, Exchange.backup]
    | raises =>
      obtain rfl := Option.some.inj hnext
      exact .exchangeFailed hbegun huntouched hlate hconfig
    | moved =>
      simp only at hnext
      split at hnext
      · obtain rfl := Option.some.inj hnext
        refine ⟨hbegun, huntouched.files _ _, hlate, by simp, ?_, Nat.le_add_left 1 n⟩
        simp [Exchange.backup, hconfig]
      · cases hnext
    | refused => cases hnext
  | failed u x =>
    rw [hsame (by simp [hstage]) (by simp [hstage])]
    rw [hstage] at h hnext
    cases x with
    | restore => exact h.elim
    | commit =>
    obtain ⟨hbegun, huntouched, hlate, hconfig, hbackup, hn⟩ := h
    cases o with
    | succeeds =>
      have hmoved : (s.files Exchange.commit.backup).isSome = true ∧ s.files .config = none := by
        obtain ⟨payload, hpayload, -⟩ := hbegun.expected
        exact ⟨by rw [Exchange.backup, hbackup, hpayload]; rfl, hconfig⟩
      simp only [if_pos hmoved] at hnext
      obtain rfl := Option.some.inj hnext
      exact ⟨hbegun, huntouched.stage _, hlate, hconfig, hbackup, Nat.le_add_right_of_le hn⟩
    | raises | refused | moved => cases hnext
  | recovering u x =>
    rw [hsame (by simp [hstage]) (by simp [hstage])]
    rw [hstage] at h hnext
    cases x with
    | restore => exact h.elim
    | commit =>
    obtain ⟨hbegun, huntouched, hlate, hconfig, hbackup, hn⟩ := h
    cases o with
    | succeeds =>
      obtain rfl := Option.some.inj hnext
      refine ⟨hbegun, huntouched.files _ _, ⟨fun h => absurd h hlate, fun _ => ?_⟩, by decide⟩
      simp [Exchange.backup, hbackup]
    | raises =>
      -- that would be the second failure
      have : n + 1 ≤ 1 := hbudget
      omega
    | refused | moved => cases hnext
  | verifying u =>
    rw [hstage] at h hnext
    obtain ⟨hbegun, huntouched, hlate, hconfig, hdisplaced⟩ := h
    cases o with
    | succeeds =>
      obtain rfl := Option.some.inj hnext
      have hon : ¬ (late ∨ s.FailsLate .succeeds) := by
        rintro (h | ⟨h, -⟩)
        · exact hlate h
        · cases h
      -- what the exchange has displaced is the document that was checked
      obtain ⟨payload, hpayload, hrevision⟩ := hbegun.expected
      rw [hpayload] at hdisplaced
      simp only [check, hdisplaced, hrevision, ne_eq, not_true_eq_false, if_false]
      exact ⟨hbegun, huntouched.stage _, hon, hconfig⟩
    | raises =>
      obtain rfl := Option.some.inj hnext
      have hfails : s.FailsLate .raises := ⟨rfl, by rw [hstage]; rfl⟩
      refine ⟨hbegun, huntouched.stage _, ⟨fun _ => hconfig, fun h => absurd (Or.inr hfails) h⟩, ?_⟩
      cases platform <;> decide
    | refused | moved => cases hnext
  | unlinking u =>
    rw [hsame (by simp [hstage]) (by simp [hstage])]
    rw [hstage] at h hnext
    obtain ⟨hbegun, huntouched, hlate, hconfig⟩ := h
    cases o with
    | succeeds =>
      obtain rfl := Option.some.inj hnext
      refine ⟨hbegun, huntouched.files _ _, hlate, ?_⟩
      rw [← hconfig]
      cases platform <;> simp [unlink, Exchange.displaced, Exchange.replacement, Exchange.backup]
    | raises =>
      obtain rfl := Option.some.inj hnext
      exact ⟨hbegun, huntouched.stage _, hlate, hconfig⟩
    | refused | moved => cases hnext
  | syncing u =>
    rw [hsame (by simp [hstage]) (by simp [hstage])]
    rw [hstage] at h hnext
    obtain ⟨hbegun, huntouched, hlate, hconfig⟩ := h
    cases o with
    | succeeds | raises =>
      obtain rfl := Option.some.inj hnext
      exact ⟨hbegun, huntouched.stage _, ⟨hlate, hconfig⟩, by simp⟩
    | refused | moved => cases hnext
  | cleaning u temporary result =>
    rw [hsame (by simp [hstage]) (by simp [hstage])]
    rw [hstage] at h hnext
    obtain ⟨hbegun, huntouched, hfile, htemporary⟩ := h
    cases o with
    | succeeds =>
      cases temporary with
      | none =>
        obtain rfl := Option.some.inj hnext
        exact ⟨hbegun, huntouched.stage _, hfile.of_config rfl⟩
      | some p =>
        obtain rfl := Option.some.inj hnext
        have hp : ConfigPath.config ≠ p := fun h => htemporary (by rw [h])
        exact ⟨hbegun, huntouched.files _ _, hfile.of_config (by simp [unlink, hp])⟩
    | raises =>
      obtain rfl := Option.some.inj hnext
      exact ⟨hbegun, huntouched.stage _, hfile.of_config rfl⟩
    | refused | moved => cases hnext
  | unlocking u result =>
    rw [hstage] at h hnext
    obtain ⟨hbegun, huntouched, hfile⟩ := h
    cases o with
    | succeeds =>
      obtain rfl := Option.some.inj hnext
      have hon : (late ∨ s.FailsLate .succeeds) = late :=
        propext (or_iff_left fun h => by cases h.1)
      rw [hon]
      exact .finish hbegun huntouched hfile
    | raises =>
      obtain rfl := Option.some.inj hnext
      refine .finish hbegun huntouched ?_
      cases result with
      | ok v =>
        -- after the commit, closing the lock's file is late
        have hfails : s.FailsLate .raises := ⟨rfl, by rw [hstage]; rfl⟩
        exact ⟨fun _ => hfile.2, fun h => absurd (Or.inr hfails) h⟩
      | error e =>
        rw [hsame (by simp [hstage]) (by simp [hstage])]
        exact hfile
    | refused | moved => cases hnext
  | done result =>
    rw [hstage] at hnext
    cases o <;> cases hnext

/-- The failures among the steps of a call. -/
def faults (ops : List StepOutcome) : Nat := (ops.map StepOutcome.faults).sum

theorem Stands.run {ops : List StepOutcome} {n : Nat} {late : Prop}
    (h : Stands platform code s₀ call n late s)
    (hrun : (policyMachine platform code).run s (ops.map .own) = some s')
    (hbudget : n + faults ops ≤ 1) :
    Stands platform code s₀ call (n + faults ops)
      (late ∨ ¬ (policyMachine platform code).Along KeepsTransaction s (ops.map .own)) s' := by
  induction ops generalizing s n late with
  | nil =>
    obtain rfl : s = s' := Option.some.inj hrun
    have hlate : (late ∨ ¬ (policyMachine platform code).Along KeepsTransaction s
        (([] : List StepOutcome).map .own)) = late :=
      propext (or_iff_left (not_not.mpr trivial))
    rw [hlate]
    exact h
  | cons o ops ih =>
    obtain ⟨t, hnext, hrest⟩ := Option.bind_eq_some_iff.mp hrun
    have hsum : faults (o :: ops) = o.faults + faults ops := by
      rw [faults, List.map_cons, List.sum_cons, ← faults]
    rw [hsum] at hbudget ⊢
    have hstep := h.own (o := o) hnext (by omega)
    have hlate : (late ∨ ¬ (policyMachine platform code).Along KeepsTransaction s
        ((o :: ops).map .own)) = ((late ∨ s.FailsLate o) ∨
          ¬ (policyMachine platform code).Along KeepsTransaction t (ops.map .own)) := by
      have halong : (policyMachine platform code).Along KeepsTransaction s ((o :: ops).map .own) ↔
          ¬ s.FailsLate o ∧
            (policyMachine platform code).Along KeepsTransaction t (ops.map .own) := by
        constructor
        · exact fun h => ⟨h.1, h.2 t hnext⟩
        · rintro ⟨hok, hrest⟩
          refine ⟨hok, fun t' ht' => ?_⟩
          obtain rfl := Option.some.inj (hnext.symm.trans ht')
          exact hrest
      rw [halong, not_and_or, not_not, or_assoc]
    rw [hlate, ← Nat.add_assoc]
    exact ih hstep hrest (by omega)

end PolicyState

open PolicyState

/-- **When an update of the policy is a transaction.** In a call without other writers in which at most
one step fails, the file, the store and the supervisor are all as before or all hold the new policy,
exactly if the step that fails is not the reading of the displaced file nor, after the commit, the closing
of the lock's file; or the new document is the old one. -/
theorem update_transaction_iff (platform : Platform) (code : PolicyCode Bytes Policy Config W S)
    {s₀ s : PolicyState Bytes Policy Config W S} {call : PolicyCall W}
    (hcalled : s₀.stage = .called call) (ops : List StepOutcome) (hsingle : faults ops ≤ 1)
    (hrun : (policyMachine platform code).run s₀ (ops.map .own) = some s)
    {result : Except PolicyError Unit} (hdone : s.stage = .done result) :
    Transacted code s₀ s call result ↔
      (policyMachine platform code).Along KeepsTransaction s₀ (ops.map .own) ∨
        ∃ c, s₀.candidateOf code call = some c ∧ s₀.files .config = some c.payload := by
  have hstart : Stands platform code s₀ call 0 False s₀ := by
    rw [Stands, hcalled]
    exact ⟨rfl, not_false, .refl s₀, rfl⟩
  have hend := hstart.run hrun (by rw [Nat.zero_add]; exact hsingle)
  rw [Stands, hdone, false_or, not_not] at hend
  obtain ⟨hkept, hlate⟩ := hend
  by_cases halong : (policyMachine platform code).Along KeepsTransaction s₀ (ops.map .own)
  · exact iff_of_true (hkept halong) (Or.inl halong)
  · obtain ⟨⟨e, rfl⟩, hsame, c, hc, hfile⟩ := hlate halong
    constructor
    · intro h
      exact Or.inr ⟨c, hc, h.1.symm.trans hfile⟩
    · intro h
      obtain ⟨c', hc', hfile'⟩ := h.resolve_left halong
      obtain rfl := Option.some.inj (hc.symm.trans hc')
      exact ⟨hfile.trans hfile'.symm, hsame⟩

/-! ### A node with one worker -/

/-- A launch that is admitted if sharing is enabled, and that is not started with the service. -/
def policyLaunch (sharing : Bool) : WorkerLaunch :=
  { sampleLaunch with
    autoStart := false
    policyAdmitted := sharing
    policyReason := if sharing then none else some "sharing is disabled"
    reason := by cases sharing <;> simp }

/-- A document that says whether sharing is enabled. -/
def sharingDocument (sharing : Bool) : List (String × Json) :=
  [("contribution_policy", .bool sharing)]

/-- Its bytes. -/
def sharingPayload (sharing : Bool) : String := (Json.obj (sharingDocument sharing)).dumps ++ "\n"

/-- Documents with the policy alone, and bytes that are their own digests. -/
def sharingCode : PolicyCode String Bool Bool Unit Unit where
  sha256Hex payload := payload
  size payload := payload.length
  loads payload :=
    if payload = sharingPayload true then some (.obj (sharingDocument true))
    else if payload = sharingPayload false then some (.obj (sharingDocument false))
    else none
  dumps document := some ((Json.obj document).dumps ++ "\n")
  policyFromDict
    | .bool sharing => some sharing
    | _ => none
  policyToDict sharing := .bool sharing
  nodeConfig document :=
    match document.lookup "contribution_policy" with
    | some (.bool sharing) => some sharing
    | _ => none
  contributionPolicy config := config
  prepare config := some ⟨AList.singleton () (policyLaunch config), ()⟩

/-- A call that enables sharing, on a node that does not share. -/
def enablesSharing : PolicyState String Bool Bool Unit Unit where
  files p := if p = .config then some (sharingPayload false) else none
  policy := false
  revision := sharingCode.revision (sharingPayload false)
  supervisor := .initial [()] (List.nodup_singleton ()) fun _ => policyLaunch false
  callbacks := ()
  stage := .called ⟨.bool true, sharingCode.revision (sharingPayload false), fun _ => [], fun _ => 0⟩
  latest := none
  displaced := none

/-- The result of a call that has ended. -/
def PolicyStage.result? : PolicyStage String Bool Unit Unit → Option (Except PolicyError Unit)
  | .done result => some result
  | _ => none

theorem done_of_result {stage : PolicyStage String Bool Unit Unit}
    {result : Except PolicyError Unit} (h : stage.result? = some result) : stage = .done result := by
  cases stage with
  | done result' => rw [Option.some.inj h]
  | called _ | locking _ | checking _ | writing _ | rechecking _ | exchanging _ _ | failed _ _
    | recovering _ _ | verifying _ | unlinking _ | syncing _ | cleaning _ _ _ | unlocking _ _ => cases h

/-- The steps of a call up to its exchange. -/
def untilExchange : List StepOutcome := List.replicate 6 StepOutcome.succeeds

/-- The steps of a call that commits. -/
def commits : List StepOutcome := untilExchange ++ List.replicate 5 StepOutcome.succeeds

/-- A call in which the displaced file cannot be removed is a transaction. -/
theorem update_transaction_iff_unremoved :
    ∃ s call ops, enablesSharing.stage = .called call ∧ faults ops ≤ 1 ∧
      s.files .config = some (sharingPayload true) ∧ s.files .candidate = some (sharingPayload false) ∧
      Transacted sharingCode enablesSharing s call (.ok ()) := by
  have hrun : ((policyMachine .posix sharingCode).run enablesSharing
      ((commits.set 7 .raises).map .own)).map
        (fun s => (s.stage.result?, s.files .config, s.files .candidate)) =
      some (some (.ok ()), some (sharingPayload true), some (sharingPayload false)) := by
    decide +kernel
  obtain ⟨s, hrun, hview⟩ := Option.map_eq_some_iff.mp hrun
  simp only [Prod.mk.injEq] at hview
  obtain ⟨hresult, hconfig, hcandidate⟩ := hview
  have hfaults : faults (commits.set 7 .raises) ≤ 1 := by decide
  refine ⟨s, _, commits.set 7 .raises, rfl, hfaults, hconfig, hcandidate, ?_⟩
  refine (update_transaction_iff .posix sharingCode rfl (commits.set 7 .raises) hfaults hrun
    (done_of_result hresult)).mpr (Or.inl ?_)
  decide +kernel

/-- The displaced file is not read. -/
def failsToVerify : List StepOutcome :=
  untilExchange ++ [StepOutcome.raises, .succeeds, .succeeds]

/-- **A displaced file that cannot be read.** The file has been exchanged and holds the new policy, while
the call raises and the store and the supervisor keep the old one. -/
theorem unreadable_displaced_file_diverges :
    ∃ s call ops result, enablesSharing.stage = .called call ∧ faults ops ≤ 1 ∧
      (policyMachine .posix sharingCode).run enablesSharing (ops.map .own) = some s ∧
      s.stage = .done result ∧ ¬ Transacted sharingCode enablesSharing s call result := by
  have hrun : ((policyMachine .posix sharingCode).run enablesSharing
      (failsToVerify.map .own)).map
        (fun s => (s.stage.result?, s.files .config)) =
      some (some (.error .persistence), some (sharingPayload true)) := by
    decide +kernel
  obtain ⟨s, hrun, hview⟩ := Option.map_eq_some_iff.mp hrun
  obtain ⟨hresult, hconfig⟩ := Prod.mk.inj hview
  refine ⟨s, _, failsToVerify, _, rfl, by decide, hrun, done_of_result hresult, fun h => ?_⟩
  -- the file does not hold what it held
  have hsame : s.files .config = some (sharingPayload false) := h.1
  rw [hconfig] at hsame
  exact absurd (Option.some.inj hsame) (by decide +kernel)

end Drift.Node
