import Drift.Identity.ReplaySafety

/-!
# Runs of one replay guard

A guard, its file and the clock, over any sequence of checks and restarts. `Guarded g file nowMs log`
is the invariant: the object enforces every acceptance of the log, and the file enforces these and
also what the object holds. The second half is what makes a restart safe after a write that raised
although the file was already exchanged, and after a record that was accepted again without a write.

* `Guarded.check`, `Guarded.load` — the two operations preserve it;
* `GuardRun.Inv.step` — so does every step of a run;
* `replay_guard_safe` — no superseded record is accepted while it is unexpired.
-/

namespace Drift.Identity

open Drift.Lib

/-! ### The invariant of a guard and its file -/

/-- The dictionary a file stands for: nothing where there is no file, or what was written. -/
def HistoryFile.Holds (file : HistoryFile) (latest : Dict Scope Watermark) : Prop :=
  (file = .missing ∧ latest = ∅) ∨ file = snapshot latest

/-- The file stands for a dictionary that enforces the log. -/
def HistoryFile.Enforces (file : HistoryFile) (nowMs : Int) (log : List Accepted) : Prop :=
  ∃ latest, file.Holds latest ∧ Enforcing latest nowMs log

theorem HistoryFile.Enforces.later {file : HistoryFile} {nowMs nowMs' : Int} {log : List Accepted}
    (h : file.Enforces nowMs log) (hle : nowMs ≤ nowMs') : file.Enforces nowMs' log := by
  obtain ⟨latest, hholds, henf⟩ := h
  exact ⟨latest, hholds, henf.later hle⟩

theorem HistoryFile.Enforces.sublog {file : HistoryFile} {nowMs : Int} {log log' : List Accepted}
    (h : file.Enforces nowMs log) (hsub : ∀ a ∈ log', a ∈ log) : file.Enforces nowMs log' := by
  obtain ⟨latest, hholds, henf⟩ := h
  exact ⟨latest, hholds, henf.sublog hsub⟩

/-- An entry is determined by its rendering. -/
theorem entryJson_injective : Function.Injective entryJson := by
  intro ⟨⟨kind, keyId⟩, issued, sequence, digest, retain⟩ ⟨⟨kind', keyId'⟩, issued', sequence',
    digest', retain'⟩ h
  unfold entryJson at h
  simp only [Json.obj.injEq, List.cons.injEq, Prod.mk.injEq, Json.str.injEq, Json.int.injEq,
    true_and, and_true] at h
  obtain ⟨rfl, rfl, rfl, rfl, rfl, rfl⟩ := h
  rfl

/-- **A file stands for one dictionary**, up to the order of its entries. -/
theorem HistoryFile.Holds.lookup_eq {file : HistoryFile} {d d' : Dict Scope Watermark}
    (h : file.Holds d) (h' : file.Holds d') (scope : Scope) : d.lookup scope = d'.lookup scope := by
  rcases h with ⟨rfl, rfl⟩ | rfl <;> rcases h' with ⟨hmissing, rfl⟩ | hfile
  · rfl
  · unfold snapshot at hfile
    cases hfile
  · unfold snapshot at hmissing
    cases hmissing
  · unfold snapshot historyDocument at hfile
    simp only [HistoryFile.regular.injEq, Option.some.injEq, Json.obj.injEq, List.cons.injEq,
      Prod.mk.injEq, Json.arr.injEq, true_and, and_true] at hfile
    have hitems := List.map_injective_iff.mpr entryJson_injective hfile.2
    ext w
    rw [← mem_sortedItems, ← mem_sortedItems, hitems]

/-- A missing file enforces an empty log. -/
theorem HistoryFile.Enforces.missing (nowMs : Int) : HistoryFile.missing.Enforces nowMs [] :=
  ⟨∅, Or.inl ⟨rfl, rfl⟩, Enforcing.empty⟩

/-- A written file stands for what was written. -/
theorem Enforcing.written {latest : Dict Scope Watermark} {nowMs : Int} {log : List Accepted}
    (h : Enforcing latest nowMs log) : (snapshot latest).Enforces nowMs log :=
  ⟨latest, Or.inr rfl, h⟩

/-- The invariant of a guard and its file against the log of what was accepted. -/
structure Guarded (g : ReplayGuard) (file : HistoryFile) (nowMs : Int) (log : List Accepted) :
    Prop where
  /-- The object enforces the log. -/
  memory : Enforcing g.latest nowMs log
  /-- The file enforces the log and everything the object holds. -/
  disk : g.path.isSome → file.Enforces nowMs (marks g.latest ++ log)

theorem Guarded.later {g : ReplayGuard} {file : HistoryFile} {nowMs nowMs' : Int}
    {log : List Accepted} (h : Guarded g file nowMs log) (hle : nowMs ≤ nowMs') :
    Guarded g file nowMs' log :=
  ⟨h.memory.later hle, fun hp => (h.disk hp).later hle⟩

theorem Guarded.sublog {g : ReplayGuard} {file : HistoryFile} {nowMs : Int}
    {log log' : List Accepted} (h : Guarded g file nowMs log) (hsub : ∀ a ∈ log', a ∈ log) :
    Guarded g file nowMs log' := by
  refine ⟨h.memory.sublog hsub, fun hp => (h.disk hp).sublog fun a ha => ?_⟩
  rcases List.mem_append.mp ha with ha | ha
  · exact List.mem_append_left _ ha
  · exact List.mem_append_right _ (hsub a ha)

/-- The log after a check: a record that was accepted joins it. -/
def logAfter (prim : Primitives) (result : Checked Unit) (r : SignedRecord) (log : List Accepted) :
    List Accepted :=
  match result with
  | .ok () => r.accepted prim :: log
  | .error _ => log

/-- **A check preserves the invariant**, whatever it answers and however its write ends. -/
theorem Guarded.check {g : ReplayGuard} {file : HistoryFile} {nowMs : Int}
    {log : List Accepted} (h : Guarded g file nowMs log) (prim : Primitives) (outcome : WriteOutcome)
    {r : SignedRecord} {validatedMs : Int} {p : Int × Int}
    (hvalid : validateLifetimeOf r.kind r.payload validatedMs = .ok p) :
    Guarded (g.check prim file nowMs outcome r).2.1 (g.check prim file nowMs outcome r).2.2 nowMs
      (logAfter prim (g.check prim file nowMs outcome r).1 r log) := by
  have hret := watermark_retained prim hvalid
  rcases check_cases prim g file nowMs outcome r with
    ⟨e, heq⟩ | ⟨hcmp, ⟨e, -, -, heq⟩ | ⟨file', heq, hfile⟩⟩ <;> rw [heq]
  · exact h
  · -- the file was exchanged for what the object did not come to remember
    exact ⟨h.memory, fun _ => (h.memory.marks.live.admitted hret).written⟩
  have hmark := mem_marks_admitted hcmp
  have hmem : Enforcing (admitted (live nowMs g.latest) r.scope (r.watermark prim)) nowMs
      (r.accepted prim :: log) :=
    ((h.memory.live.admitted hret).marks).sublog fun a ha => by
      rcases List.mem_cons.mp ha with rfl | ha
      · exact List.mem_append_left _ hmark
      · exact List.mem_append_right _ ha
  refine ⟨hmem, fun hp => ?_⟩
  rcases hfile with ⟨rfl, -⟩ | ⟨rfl, hnone | hsame⟩
  · exact hmem.marks.written
  · rw [Option.isNone_iff_eq_none] at hnone
    exact absurd hp (by simp [hnone])
  · -- nothing was written, and what the record would leave is already on disk
    refine (h.disk hp).sublog fun a ha => ?_
    rw [← hsame] at hmark ha
    rcases List.mem_append.mp ha with ha | ha
    · exact List.mem_append_left _ ha
    rcases List.mem_cons.mp ha with rfl | ha
    · exact List.mem_append_left _ hmark
    · exact List.mem_append_right _ ha

/-- The path of a guard never changes in a check. -/
theorem check_path (prim : Primitives) (g : ReplayGuard) (file : HistoryFile) (nowMs : Int)
    (outcome : WriteOutcome) (r : SignedRecord) :
    (g.check prim file nowMs outcome r).2.1.path = g.path := by
  rcases check_cases prim g file nowMs outcome r with
    ⟨e, heq⟩ | ⟨-, ⟨e, -, -, heq⟩ | ⟨file', heq, -⟩⟩ <;> rw [heq]

/-- The log with an acceptance, if there was one. -/
def logged (prim : Primitives) (accepted : Option SignedRecord) (log : List Accepted) :
    List Accepted :=
  (accepted.map (SignedRecord.accepted prim)).toList ++ log

theorem mem_logged {prim : Primitives} {accepted : Option SignedRecord} {log : List Accepted}
    {a : Accepted} :
    a ∈ logged prim accepted log ↔ (∃ r, accepted = some r ∧ r.accepted prim = a) ∨ a ∈ log := by
  unfold logged
  cases accepted with
  | none => simp
  | some r => simp [eq_comm]

/-- **Passing an admissible record through the guard preserves the invariant.** -/
theorem Guarded.passes {prim : Primitives} {offered accepted : Option SignedRecord}
    {g g' : ReplayGuard} {file file' : HistoryFile} {nowMs : Int} {outcome : WriteOutcome}
    {log : List Accepted} {kind : String} {validatedMs : Int} (h : Guarded g file nowMs log)
    (hpass : PassesGuard prim offered accepted g file nowMs outcome g' file')
    (hadm : ∀ r, offered = some r → Admissible r kind validatedMs) :
    g'.path = g.path ∧ Guarded g' file' nowMs (logged prim accepted log) := by
  rcases hpass with ⟨-, rfl, rfl, rfl⟩ | ⟨r, hoffered, rfl, rfl, hres⟩
  · exact ⟨rfl, h⟩
  · obtain ⟨p, hp⟩ := (hadm r hoffered).lifetime
    have hafter := h.check prim outcome hp
    refine ⟨check_path prim g file nowMs outcome r, ?_⟩
    rcases hres with ⟨e, hanswer, rfl⟩ | ⟨hanswer, rfl⟩ <;> rw [hanswer] at hafter <;> exact hafter

/-- Loading gives the live part of the dictionary the file stands for. -/
theorem lookup_load {prim : Primitives} {g : ReplayGuard} {file : HistoryFile} {nowMs : Int}
    {latest loaded : Dict Scope Watermark} (hholds : file.Holds latest) (hpath : g.path.isSome)
    (hload : g.load prim file nowMs = .ok loaded) (scope : Scope) :
    loaded.lookup scope = (live nowMs latest).lookup scope := by
  rcases hholds with ⟨rfl, rfl⟩ | rfl
  · have hempty : loaded = ∅ := by
      unfold ReplayGuard.load at hload
      split at hload <;> exact (Except.ok.inj hload).symm
    rw [hempty]
    rfl
  · exact lookup_load_snapshot hpath hload scope

/-- **A load restores the invariant** from the file alone. -/
theorem Guarded.load {prim : Primitives} {g : ReplayGuard} {file : HistoryFile} {nowMs : Int}
    {log : List Accepted} {latest : Dict Scope Watermark} (h : file.Enforces nowMs log)
    (hpath : g.path.isSome) (hload : g.load prim file nowMs = .ok latest) :
    Guarded { g with latest := latest } file nowMs log := by
  obtain ⟨written, hholds, he⟩ := h
  have hlook := lookup_load hholds hpath hload
  refine ⟨he.live.congr hlook, fun _ => ⟨written, hholds, he.marks.sublog fun a ha => ?_⟩⟩
  -- what was loaded is part of what was written
  rcases List.mem_append.mp ha with ha | ha
  · obtain ⟨scope, w, hw, rfl⟩ := mem_marks.mp ha
    rw [hlook] at hw
    exact List.mem_append_left _ (mem_marks.mpr ⟨scope, w, (live_of_lookup hw).1, rfl⟩)
  · exact List.mem_append_right _ ha

/-- **The invariant refuses superseded records.** -/
theorem Guarded.refuses {prim : Primitives} {g : ReplayGuard} {file : HistoryFile} {nowMs : Int}
    {log : List Accepted} (h : Guarded g file nowMs log) {a : Accepted} (ha : a ∈ log)
    {r : SignedRecord} (hsup : Superseded prim a r) {validatedMs : Int} {p : Int × Int}
    (hvalid : validateLifetimeOf r.kind r.payload validatedMs = .ok p)
    (hunexpired : nowMs < r.expiresAtMs) (outcome : WriteOutcome) :
    (g.check prim file nowMs outcome r).1 ≠ .ok () := by
  have hrefuse := h.memory.live.refuses ha hsup hvalid hunexpired
  rcases check_cases prim g file nowMs outcome r with
    ⟨e, heq⟩ | ⟨hcmp, -⟩
  · rw [heq]
    exact fun hcon => by cases hcon
  · exact absurd hcmp hrefuse

/-! ### Runs -/

/-- A guard over time. `guard` is `none` while no guard exists, because its re-creation raised. -/
structure GuardRun where
  path : Option String
  guard : Option ReplayGuard
  file : HistoryFile
  clockMs : Int
  log : List Accepted

/-- What can happen to a guard. -/
inductive GuardEvent
  /-- A check at `nowMs` of a record whose lifetime was validated at `validatedMs`. -/
  | check (r : SignedRecord) (validatedMs nowMs : Int) (outcome : WriteOutcome)
  /-- The guard is created anew from its file. -/
  | restart (nowMs : Int) (maxEntries : Nat) (maxEntries_pos : 0 < maxEntries)

/-- A new guard whose file does not exist yet. -/
def GuardRun.initial (path : Option String) (maxEntries : Nat) (hpos : 0 < maxEntries)
    (startMs : Int) : GuardRun where
  path := path
  guard := some ⟨path, maxEntries, hpos, ∅⟩
  file := .missing
  clockMs := startMs
  log := []

/-- One step. The clock does not go back, a record was validated before it is checked, and a guard
without a path has nothing to be re-created from. -/
def GuardRun.next (prim : Primitives) (s : GuardRun) : GuardEvent → Option GuardRun
  | .check r validatedMs nowMs outcome =>
    match s.guard, validateLifetimeOf r.kind r.payload validatedMs with
    | some g, .ok _ =>
      if s.clockMs ≤ nowMs then
        let (result, g', file') := g.check prim s.file nowMs outcome r
        some { s with guard := some g', file := file', clockMs := nowMs,
                      log := logAfter prim result r s.log }
      else none
    | _, _ => none
  | .restart nowMs maxEntries hpos =>
    if s.clockMs ≤ nowMs ∧ s.path.isSome then
      match ReplayGuard.create prim s.path maxEntries hpos s.file nowMs with
      | .ok g => some { s with guard := some g, clockMs := nowMs }
      | .error _ => some { s with guard := none, clockMs := nowMs }
    else none

/-- The machine of a guard's runs. -/
def guardMachine (prim : Primitives) : Machine GuardRun GuardEvent := ⟨GuardRun.next prim⟩

/-- The invariant of a run. Without a guard, the file alone carries the log. -/
structure GuardRun.Inv (s : GuardRun) : Prop where
  path : ∀ g, s.guard = some g → g.path = s.path
  guarded : ∀ g, s.guard = some g → Guarded g s.file s.clockMs s.log
  disk : s.path.isSome → s.file.Enforces s.clockMs s.log

theorem GuardRun.Inv.initial (path : Option String) (maxEntries : Nat) (hpos : 0 < maxEntries)
    (startMs : Int) : (GuardRun.initial path maxEntries hpos startMs).Inv where
  path := fun g hg => by obtain rfl := Option.some.inj hg; rfl
  guarded := fun g hg => by
    obtain rfl := Option.some.inj hg
    exact ⟨Enforcing.empty, fun _ => .missing startMs⟩
  disk := fun _ => .missing startMs

/-- **Every step preserves the invariant.** -/
theorem GuardRun.Inv.step {prim : Primitives} {s s' : GuardRun} {l : GuardEvent}
    (h : s.Inv) (hstep : s.next prim l = some s') : s'.Inv := by
  cases l with
  | check r validatedMs nowMs outcome =>
    unfold GuardRun.next at hstep
    cases hg : s.guard with
    | none => simp [hg] at hstep
    | some g =>
      cases hv : validateLifetimeOf r.kind r.payload validatedMs with
      | error e => simp [hg, hv] at hstep
      | ok p =>
        simp only [hg, hv] at hstep
        by_cases hclock : s.clockMs ≤ nowMs
        · rw [if_pos hclock] at hstep
          obtain rfl := Option.some.inj hstep
          have hchecked := ((h.guarded g hg).later hclock).check prim outcome hv
          refine ⟨fun g' hg' => ?_, fun g' hg' => ?_, fun hp => ?_⟩
          · obtain rfl := Option.some.inj hg'
            exact (check_path prim g s.file nowMs outcome r).trans (h.path g hg)
          · obtain rfl := Option.some.inj hg'
            exact hchecked
          · refine (hchecked.disk ?_).sublog fun a ha => List.mem_append_right _ ha
            rw [check_path, h.path g hg]
            exact hp
        · rw [if_neg hclock] at hstep
          cases hstep
  | restart nowMs maxEntries hpos =>
    unfold GuardRun.next at hstep
    dsimp only at hstep
    by_cases hen : s.clockMs ≤ nowMs ∧ s.path.isSome
    · rw [if_pos hen] at hstep
      have hdisk := (h.disk hen.2).later hen.1
      cases hc : ReplayGuard.create prim s.path maxEntries hpos s.file nowMs with
      | error e =>
        rw [hc] at hstep
        obtain rfl := Option.some.inj hstep
        exact ⟨fun _ hg => absurd hg (by simp), fun _ hg => absurd hg (by simp), fun _ => hdisk⟩
      | ok g =>
        rw [hc] at hstep
        obtain rfl := Option.some.inj hstep
        unfold ReplayGuard.create at hc
        obtain ⟨latest, hload, heq⟩ := bind_eq_ok.mp hc
        obtain rfl := Except.ok.inj heq
        refine ⟨fun g' hg' => ?_, fun g' hg' => ?_, fun _ => hdisk⟩
        · obtain rfl := Option.some.inj hg'
          rfl
        · obtain rfl := Option.some.inj hg'
          exact Guarded.load hdisk hen.2 hload
    · rw [if_neg hen] at hstep
      cases hstep

/-- The invariant holds in every reached state. -/
theorem GuardRun.Inv.reach {prim : Primitives} {path : Option String} {maxEntries : Nat}
    {hpos : 0 < maxEntries} {startMs : Int} {s : GuardRun}
    (h : (guardMachine prim).Reach Machine.always
      (GuardRun.initial path maxEntries hpos startMs) s) : s.Inv :=
  h.invariant (GuardRun.Inv.initial path maxEntries hpos startMs)
    fun _ _ _ hinv _ hstep => hinv.step hstep

/-- **Replay guard safety over time.** In every state a guard reaches through checks and restarts, a
record that passed the lifetime validation of its kind, is unexpired at the check's reading of the
clock, and is older than an accepted record of its scope, or differs from it at the same order, is
refused. -/
theorem replay_guard_safe (prim : Primitives) (path : Option String) (maxEntries : Nat)
    (hpos : 0 < maxEntries) (startMs : Int) {s : GuardRun}
    (hreach : (guardMachine prim).Reach Machine.always
      (GuardRun.initial path maxEntries hpos startMs) s)
    {g : ReplayGuard} (hguard : s.guard = some g) {a : Accepted} (ha : a ∈ s.log)
    {r : SignedRecord} (hsup : Superseded prim a r) (validatedMs nowMs : Int) {p : Int × Int}
    (hvalid : validateLifetimeOf r.kind r.payload validatedMs = .ok p)
    (hclock : s.clockMs ≤ nowMs) (hunexpired : nowMs < r.expiresAtMs) (outcome : WriteOutcome) :
    (g.check prim s.file nowMs outcome r).1 ≠ .ok () :=
  (((GuardRun.Inv.reach hreach).guarded g hguard).later hclock).refuses ha hsup hvalid hunexpired
    outcome

theorem replay_guard_safe_at_older_announcement :
    ∃ s g, (guardMachine trustingPrimitives).Reach Machine.always
        (GuardRun.initial none 1 Nat.one_pos 0) s ∧ s.guard = some g ∧
      (g.check trustingPrimitives s.file 1600 .written (announcementAt (.obj []) 900 1900 0)).1 ≠ .ok () := by
  have hrun : ((guardMachine trustingPrimitives).run (GuardRun.initial none 1 Nat.one_pos 0)
      [.check (announcementAt (.obj []) 1000 2000 1) 1500 1500 .written]).map
        (fun s => (s.guard.isSome, s.clockMs, s.log)) =
      some (true, 1500, [(announcementAt (.obj []) 1000 2000 1).accepted trustingPrimitives]) := rfl
  obtain ⟨s, hs, hview⟩ := Option.map_eq_some_iff.mp hrun
  obtain ⟨hsome, hview⟩ := Prod.mk.inj hview
  obtain ⟨hclock, hlog⟩ := Prod.mk.inj hview
  obtain ⟨g, hguard⟩ := Option.isSome_iff_exists.mp hsome
  have hreach := Machine.reach_always_of_run hs
  exact ⟨s, g, hreach, hguard, replay_guard_safe trustingPrimitives none 1 Nat.one_pos 0 hreach
    hguard (a := (announcementAt (.obj []) 1000 2000 1).accepted trustingPrimitives) (by rw [hlog]; simp)
    (r := announcementAt (.obj []) 900 1900 0) ⟨rfl, Or.inl (by decide)⟩ 1600 1600 (p := (900, 1900)) rfl (by rw [hclock]; decide)
    (by decide) .written⟩

end Drift.Identity
