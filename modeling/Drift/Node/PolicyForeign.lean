import Drift.Node.PolicyTransaction

/-!
# An update of the policy and other writers of the file

Other programs may replace the file between any two steps of a call, and any step may fail. The exchange
displaces whatever is there; if that is not what the call expected, a second exchange puts it back. What
another program writes between the two is then removed with the candidate. The same happens to a document
that was displaced and cannot be read, and to one that is written while `ReplaceFileW`'s backup is moved
back.

`Intact` says where the document that another program has written last is, by the stage of the call.

* `foreign_documents_kept` — the runs without such a moment;
* `restored_over_foreign_document` — one that has it.
-/

namespace Drift.Node

open Drift.Lib

variable {Bytes Policy Config W S : Type} [DecidableEq W]

/-! ### The condition -/

namespace PolicyState

variable (platform : Platform) (code : PolicyCode Bytes Policy Config W S)

/-- The document that the first exchange has displaced is not the expected one. -/
def displacedOther (s : PolicyState Bytes Policy Config W S) (expected : String) : Bool :=
  (s.files (Exchange.commit.displaced platform)).any fun d => code.revision d ≠ expected

/-- A document written now is overwritten or removed if the next steps succeed. -/
def exposed (s : PolicyState Bytes Policy Config W S) : Bool :=
  match s.stage with
  | .verifying u => s.displacedOther platform code u.expected
  | .exchanging _ .restore => true
  | .recovering _ _ => true
  | _ => false

/-- The update whose displaced file is read next. -/
def verifies? (s : PolicyState Bytes Policy Config W S) : Option (PolicyUpdate Bytes Config W S) :=
  match s.stage with
  | .verifying u => some u
  | _ => none

/-- **The condition**: no other program writes the file between an exchange that has displaced another
document than the expected one and the exchange that restores it, nor while a backup is moved back; and
the reading of the displaced file does not raise if that is another document. -/
def KeepsDocuments (s : PolicyState Bytes Policy Config W S) : PolicyEvent Bytes → Prop
  | .foreign _ => s.exposed platform code = false
  | .own o => o = .raises → ∀ u ∈ s.verifies?, s.displacedOther platform code u.expected = false

instance (s : PolicyState Bytes Policy Config W S) (ev : PolicyEvent Bytes) :
    Decidable (s.KeepsDocuments platform code ev) :=
  match ev with
  | .foreign _ => inferInstanceAs (Decidable (_ = false))
  | .own _ => inferInstanceAs (Decidable (_ → ∀ u ∈ s.verifies?, _ = false))

/-! ### The invariant -/

/-- The first exchange has displaced the expected document, so that the new one stays. -/
def Committed (call : PolicyCall W) (s : PolicyState Bytes Policy Config W S) : Prop :=
  ∃ d, s.displaced = some d ∧ code.revision d = call.expectedRevision

/-- What another program has written last is in one of the given places. -/
def LatestAt (s : PolicyState Bytes Policy Config W S) (place : Bytes → Prop) : Prop :=
  ∀ d, s.latest = some d → place d

/-- **Where the last foreign document is** when the call ends: in the file, in a recovery file, or it is
the one that the call expected and replaced. -/
def Held (call : PolicyCall W) (s : PolicyState Bytes Policy Config W S)
    (temporary : Option ConfigPath) : Prop :=
  s.LatestAt fun d => s.files .config = some d ∨
    (∃ p, p ≠ .config ∧ some p ≠ temporary ∧ s.files p = some d) ∨
    Committed code call s ∧ s.displaced = some d

/-- **Where it is while the call runs.** -/
def Intact (call : PolicyCall W) (s : PolicyState Bytes Policy Config W S) : Prop :=
  match s.stage with
  | .called c => c = call ∧ s.LatestAt fun d => s.files .config = some d
  | .locking u | .checking u | .writing u | .rechecking u | .exchanging u .commit =>
    u.expected = call.expectedRevision ∧ s.LatestAt fun d => s.files .config = some d
  | .failed u .commit => u.expected = call.expectedRevision ∧
      s.LatestAt fun d => s.files .config = some d ∨ s.files .backup = some d
  | .recovering u .commit => u.expected = call.expectedRevision ∧
      s.LatestAt fun d => s.files .backup = some d
  | .verifying u => u.expected = call.expectedRevision ∧
      ∃ old, s.displaced = some old ∧ s.files (Exchange.commit.displaced platform) = some old ∧
        (code.revision old = u.expected → s.LatestAt fun d => s.files .config = some d ∨ d = old) ∧
        (code.revision old ≠ u.expected → s.LatestAt fun d => d = old)
  | .exchanging u .restore | .recovering u .restore => u.expected = call.expectedRevision ∧
      s.LatestAt fun d => s.files (Exchange.restore.replacement platform) = some d
  | .failed u .restore => u.expected = call.expectedRevision ∧
      s.LatestAt fun d => s.files .config = some d ∨
        s.files (Exchange.restore.replacement platform) = some d
  | .unlinking u | .syncing u => u.expected = call.expectedRevision ∧ Committed code call s ∧
      s.LatestAt fun d => s.files .config = some d ∨ s.displaced = some d
  | .cleaning u temporary result => u.expected = call.expectedRevision ∧
      (result = .ok () → Committed code call s) ∧ temporary ≠ some .config ∧
      s.Held code call temporary
  | .unlocking u result => u.expected = call.expectedRevision ∧
      (result = .ok () → Committed code call s) ∧ s.Held code call none
  | .done result => (result = .ok () → Committed code call s) ∧ s.Held code call none

end PolicyState

namespace PolicyState

variable {platform : Platform} {code : PolicyCode Bytes Policy Config W S}
  {s s' : PolicyState Bytes Policy Config W S} {call : PolicyCall W}

/-! ### Steps -/

omit [DecidableEq W] in
theorem LatestAt.mono {place place' : Bytes → Prop} (h : s.LatestAt place)
    (himp : ∀ d, place d → place' d) : s.LatestAt place' :=
  fun d hd => himp d (h d hd)

omit [DecidableEq W] in
/-- What another program writes is in the file. -/
theorem Intact.foreign {document : Bytes} (h : Intact platform code call s)
    (hok : s.exposed platform code = false) :
    Intact platform code call
      { s with files := Function.update s.files .config (some document), latest := some document } := by
  have hplace : ∀ {place : Bytes → Prop}, place document →
      ({ s with files := Function.update s.files .config (some document), latest := some document } :
        PolicyState Bytes Policy Config W S).LatestAt place := by
    intro place hdocument d hd
    rw [← Option.some.inj hd]
    exact hdocument
  have hconfig : Function.update s.files .config (some document) .config = some document := by simp
  unfold Intact at h ⊢
  simp only
  cases hstage : s.stage with
  | called c =>
    rw [hstage] at h
    exact ⟨h.1, hplace hconfig⟩
  | locking u | checking u | writing u | rechecking u =>
    rw [hstage] at h
    exact ⟨h.1, hplace hconfig⟩
  | exchanging u x =>
    rw [hstage] at h
    cases x with
    | commit => exact ⟨h.1, hplace hconfig⟩
    | restore =>
      rw [exposed, hstage] at hok
      cases hok
  | failed u x =>
    rw [hstage] at h
    cases x with
    | commit => exact ⟨h.1, hplace (Or.inl hconfig)⟩
    | restore => exact ⟨h.1, hplace (Or.inl hconfig)⟩
  | recovering u x =>
    rw [exposed, hstage] at hok
    cases hok
  | verifying u =>
    rw [hstage] at h
    obtain ⟨hexpected, old, hdisplaced, hfile, -, -⟩ := h
    rw [exposed, hstage] at hok
    have hrevision : code.revision old = u.expected := by
      simpa [displacedOther, hfile] using hok
    refine ⟨hexpected, old, hdisplaced, ?_, fun _ => hplace (Or.inl hconfig),
      fun hother => absurd hrevision hother⟩
    rw [← hfile]
    cases platform <;> simp [Exchange.displaced, Exchange.replacement, Exchange.backup]
  | unlinking u | syncing u =>
    rw [hstage] at h
    exact ⟨h.1, h.2.1, hplace (Or.inl hconfig)⟩
  | cleaning u temporary result =>
    rw [hstage] at h
    exact ⟨h.1, h.2.1, h.2.2.1, hplace (Or.inl hconfig)⟩
  | unlocking u result =>
    rw [hstage] at h
    exact ⟨h.1, h.2.1, hplace (Or.inl hconfig)⟩
  | done result =>
    rw [hstage] at h
    exact ⟨h.1, hplace (Or.inl hconfig)⟩

theorem Intact.begin (hlatest : s.LatestAt fun d => s.files .config = some d) :
    Intact platform code call (s.begin code call) := by
  have hraised : ∀ (t : Supervisor W) (e : PolicyError),
      Intact platform code call { s with supervisor := t, stage := .done (.error e) } := fun t e =>
    ⟨fun h => (by cases h), hlatest.mono fun _ => Or.inl⟩
  unfold PolicyState.begin
  simp only
  split
  · exact hraised s.supervisor .conflict
  split
  · exact hraised s.supervisor .conflict
  next hrevision =>
  split
  · exact hraised s.supervisor .config
  split
  · exact hraised s.supervisor .config
  split
  · exact hraised s.supervisor .conflict
  next hpayload =>
  split
  · exact hraised s.supervisor .config
  split
  · exact hraised _ _
  · refine ⟨?_, hlatest⟩
    rw [not_not.mp hpayload, ← not_not.mp hrevision]

omit [DecidableEq W] in
theorem Intact.finish {u : PolicyUpdate Bytes Config W S} {result : Except PolicyError Unit}
    (hcommitted : result = .ok () → Committed code call s) (hheld : s.Held code call none) :
    Intact platform code call (s.finish code u result) := by
  cases result with
  | ok v => exact ⟨fun _ => hcommitted rfl, hheld⟩
  | error e => exact ⟨fun h => (by cases h), hheld⟩

omit [DecidableEq W] in
/-- The document is where it was, once the temporary file is done with. -/
theorem Held.forget {temporary : Option ConfigPath} (h : s.Held code call temporary) :
    s.Held code call none := by
  refine LatestAt.mono h fun d hd => ?_
  rcases hd with hd | ⟨p, hp, -, hfile⟩ | hd
  · exact Or.inl hd
  · exact Or.inr (Or.inl ⟨p, hp, Option.some_ne_none p, hfile⟩)
  · exact Or.inr (Or.inr hd)

omit [DecidableEq W] in
/-- Removing the temporary file removes no document of another program. -/
theorem Held.unlink {p : ConfigPath} (hp : p ≠ .config) (h : s.Held code call (some p)) :
    (s.unlink p).Held code call none := by
  intro d hd
  rcases h d hd with hd | ⟨q, hq, hne, hfile⟩ | hd
  · exact Or.inl ((Function.update_of_ne (Ne.symm hp) _ _).trans hd)
  · exact Or.inr (Or.inl ⟨q, hq, Option.some_ne_none q,
      (Function.update_of_ne (fun h => hne (congrArg some h)) _ _).trans hfile⟩)
  · exact Or.inr (Or.inr hd)

omit [DecidableEq W] in
theorem displaced_ne_config (platform : Platform) : Exchange.commit.displaced platform ≠ .config := by
  cases platform <;> decide

omit [DecidableEq W] in
theorem replacement_ne_config (platform : Platform) (x : Exchange) :
    x.replacement platform ≠ .config := by
  cases platform <;> cases x <;> decide

omit [DecidableEq W] in
/-- What a first exchange that raises leaves. -/
theorem Intact.exchangeFailed {u : PolicyUpdate Bytes Config W S}
    (hexpected : u.expected = call.expectedRevision)
    (hlatest : s.LatestAt fun d => s.files .config = some d ∨ s.files .backup = some d) :
    Intact platform code call { s with stage := PolicyState.exchangeFailed u .commit } :=
  ⟨hexpected, fun h => (by cases h), by decide, hlatest.mono fun d hd =>
    hd.imp_right fun hd => Or.inl ⟨.backup, by decide, by decide, hd⟩⟩

omit [DecidableEq W] in
/-- What a second exchange that raises leaves. -/
theorem Intact.restoreFailed {u : PolicyUpdate Bytes Config W S}
    (hexpected : u.expected = call.expectedRevision)
    (hlatest : s.LatestAt fun d => s.files .config = some d ∨
      s.files (Exchange.restore.replacement platform) = some d) :
    Intact platform code call { s with stage := PolicyState.exchangeFailed u .restore } :=
  ⟨hexpected, fun h => (by cases h), by decide, hlatest.mono fun d hd =>
    hd.imp_right fun hd =>
      Or.inl ⟨_, replacement_ne_config platform .restore, Option.some_ne_none _, hd⟩⟩

omit [DecidableEq W] in
/-- What an exchange does to the files. -/
theorem exchangePaths_some {x : Exchange} {files files' : ConfigPath → Option Bytes}
    (h : exchangePaths platform x files = some files') :
    ∃ old new, files .config = some old ∧ files (x.replacement platform) = some new ∧
      files' .config = some new ∧ files' (x.displaced platform) = some old := by
  unfold exchangePaths at h
  split at h
  · next old new hold hnew =>
    obtain rfl := Option.some.inj h
    refine ⟨old, new, hold, hnew, Function.update_self _ _ _, ?_⟩
    have hne : x.displaced platform ≠ .config := by cases platform <;> cases x <;> decide
    rw [Function.update_of_ne hne, Function.update_self]
  · cases h

theorem Intact.exchangingCommit {o : StepOutcome} {u : PolicyUpdate Bytes Config W S}
    (h : u.expected = call.expectedRevision ∧ s.LatestAt fun d => s.files .config = some d)
    (hstage : s.stage = .exchanging u .commit) (hnext : s.own platform code o = some s') :
    Intact platform code call s' := by
  obtain ⟨hexpected, hlatest⟩ := h
  have hfailed : Intact platform code call
      { s with stage := PolicyState.exchangeFailed u .commit } :=
    .exchangeFailed hexpected (hlatest.mono fun _ => Or.inl)
  unfold PolicyState.own at hnext
  rw [hstage] at hnext
  cases o with
  | succeeds =>
    cases hexchange : exchangePaths platform .commit s.files with
    | none =>
      simp only [hexchange] at hnext
      obtain rfl := Option.some.inj hnext
      exact hfailed
    | some files =>
      simp only [hexchange] at hnext
      obtain rfl := Option.some.inj hnext
      obtain ⟨old, new, hold, -, -, hdisplaced⟩ := exchangePaths_some hexchange
      have hlast : s.LatestAt fun d => d = old := hlatest.mono fun d hd =>
        Option.some.inj (hd.symm.trans hold)
      exact ⟨hexpected, old, hold, hdisplaced, fun _ => hlast.mono fun _ => Or.inr, fun _ => hlast⟩
  | raises =>
    obtain rfl := Option.some.inj hnext
    exact hfailed
  | moved =>
    simp only at hnext
    split at hnext
    · obtain rfl := Option.some.inj hnext
      refine ⟨hexpected, hlatest.mono fun d hd => Or.inr ?_⟩
      show Function.update (Function.update s.files .backup (s.files .config)) .config none .backup = _
      simpa using hd
    · cases hnext
  | refused => cases hnext

theorem Intact.exchangingRestore {o : StepOutcome} {u : PolicyUpdate Bytes Config W S}
    (h : u.expected = call.expectedRevision ∧
      s.LatestAt fun d => s.files (Exchange.restore.replacement platform) = some d)
    (hstage : s.stage = .exchanging u .restore) (hnext : s.own platform code o = some s') :
    Intact platform code call s' := by
  obtain ⟨hexpected, hlatest⟩ := h
  have hfailed : Intact platform code call
      { s with stage := PolicyState.exchangeFailed u .restore } :=
    .restoreFailed hexpected (hlatest.mono fun _ => Or.inr)
  unfold PolicyState.own at hnext
  rw [hstage] at hnext
  cases o with
  | succeeds =>
    cases hexchange : exchangePaths platform .restore s.files with
    | none =>
      simp only [hexchange] at hnext
      obtain rfl := Option.some.inj hnext
      exact hfailed
    | some files =>
      simp only [hexchange] at hnext
      obtain rfl := Option.some.inj hnext
      obtain ⟨old, new, -, hnew, hconfig, -⟩ := exchangePaths_some hexchange
      refine ⟨hexpected, fun h => (by cases h), fun h => ?_, hlatest.mono fun d hd => Or.inl ?_⟩
      · have hpath : Exchange.restore.displaced platform = .config := Option.some.inj h
        cases platform <;> cases hpath
      · -- what was displaced is back
        exact hconfig.trans (hnew.symm.trans hd)
  | raises =>
    obtain rfl := Option.some.inj hnext
    exact hfailed
  | moved =>
    simp only at hnext
    split at hnext
    · next hmoved =>
      obtain ⟨rfl, -⟩ := hmoved
      obtain rfl := Option.some.inj hnext
      refine ⟨hexpected, hlatest.mono fun d hd => Or.inr ?_⟩
      show Function.update (Function.update s.files .secondBackup (s.files .config)) .config none
        .backup = _
      simpa [Exchange.replacement] using hd
    · cases hnext
  | refused => cases hnext

theorem Intact.own {o : StepOutcome} (h : Intact platform code call s)
    (hok : s.KeepsDocuments platform code (.own o)) (hnext : s.own platform code o = some s') :
    Intact platform code call s' := by
  have hown := hnext
  unfold Intact at h
  unfold PolicyState.own at hnext
  cases hstage : s.stage with
  | called c =>
    rw [hstage] at h hnext
    obtain ⟨rfl, hlatest⟩ := h
    cases o with
    | succeeds =>
      obtain rfl := Option.some.inj hnext
      exact .begin hlatest
    | raises | refused =>
      obtain rfl := Option.some.inj hnext
      exact ⟨fun h => (by cases h), hlatest.mono fun _ => Or.inl⟩
    | moved => cases hnext
  | locking u =>
    rw [hstage] at h hnext
    obtain ⟨hexpected, hlatest⟩ := h
    cases o with
    | succeeds =>
      obtain rfl := Option.some.inj hnext
      exact ⟨hexpected, hlatest⟩
    | raises =>
      obtain rfl := Option.some.inj hnext
      exact .finish (fun h => by cases h) (hlatest.mono fun _ => Or.inl)
    | refused | moved => cases hnext
  | checking u =>
    rw [hstage] at h hnext
    obtain ⟨hexpected, hlatest⟩ := h
    have hraised : ∀ e, Intact platform code call { s with stage := .unlocking u (.error e) } :=
      fun e => ⟨hexpected, fun h => (by cases h), hlatest.mono fun _ => Or.inl⟩
    cases o with
    | succeeds =>
      obtain rfl := Option.some.inj hnext
      unfold check
      split
      · exact hraised .config
      split
      · exact hraised .conflict
      · exact ⟨hexpected, hlatest⟩
    | raises | refused =>
      obtain rfl := Option.some.inj hnext
      exact hraised _
    | moved => cases hnext
  | writing u =>
    rw [hstage] at h hnext
    obtain ⟨hexpected, hlatest⟩ := h
    cases o with
    | succeeds =>
      obtain rfl := Option.some.inj hnext
      refine ⟨hexpected, hlatest.mono fun d hd => ?_⟩
      show Function.update s.files .candidate (some u.candidate.payload) .config = some d
      simpa using hd
    | raises =>
      obtain rfl := Option.some.inj hnext
      exact ⟨hexpected, fun h => (by cases h), by decide, hlatest.mono fun _ => Or.inl⟩
    | refused | moved => cases hnext
  | rechecking u =>
    rw [hstage] at h hnext
    obtain ⟨hexpected, hlatest⟩ := h
    have hraised : ∀ e, Intact platform code call
        { s with stage := .cleaning u (some .candidate) (.error e) } := fun e =>
      ⟨hexpected, fun h => (by cases h), by decide, hlatest.mono fun _ => Or.inl⟩
    cases o with
    | succeeds =>
      obtain rfl := Option.some.inj hnext
      unfold check
      split
      · exact hraised .config
      split
      · exact hraised .conflict
      · exact ⟨hexpected, hlatest⟩
    | raises | refused =>
      obtain rfl := Option.some.inj hnext
      exact hraised _
    | moved => cases hnext
  | exchanging u x =>
    rw [hstage] at h hnext
    cases x with
    | commit => exact .exchangingCommit h hstage hown
    | restore => exact .exchangingRestore h hstage hown
  | failed u x =>
    rw [hstage] at h hnext
    cases o with
    | raises | refused | moved => cases hnext
    | succeeds =>
    cases x with
    | commit =>
      obtain ⟨hexpected, hlatest⟩ := h
      simp only at hnext
      split at hnext
      · next hmoved =>
        obtain rfl := Option.some.inj hnext
        refine ⟨hexpected, hlatest.mono fun d hd => hd.resolve_left fun hd => ?_⟩
        rw [hmoved.2] at hd
        cases hd
      · obtain rfl := Option.some.inj hnext
        exact .exchangeFailed hexpected hlatest
    | restore =>
      obtain ⟨hexpected, hlatest⟩ := h
      simp only at hnext
      split at hnext
      · next hmoved =>
        obtain rfl := Option.some.inj hnext
        refine ⟨hexpected, hlatest.mono fun d hd => hd.resolve_left fun hd => ?_⟩
        rw [hmoved.2] at hd
        cases hd
      · obtain rfl := Option.some.inj hnext
        exact .restoreFailed hexpected hlatest
  | recovering u x =>
    rw [hstage] at h hnext
    cases x with
    | commit =>
      obtain ⟨hexpected, hlatest⟩ := h
      cases o with
      | succeeds =>
        obtain rfl := Option.some.inj hnext
        refine ⟨hexpected, fun h => (by cases h), by decide, hlatest.mono fun d hd => Or.inl ?_⟩
        show Function.update (Function.update s.files .config (s.files .backup)) .backup none .config = _
        simpa using hd
      | raises =>
        obtain rfl := Option.some.inj hnext
        exact .exchangeFailed hexpected (hlatest.mono fun _ => Or.inr)
      | refused | moved => cases hnext
    | restore =>
      obtain ⟨hexpected, hlatest⟩ := h
      cases o with
      | succeeds =>
        obtain rfl := Option.some.inj hnext
        refine .restoreFailed
          (s := { s with files := Function.update (Function.update s.files .config
            (s.files Exchange.restore.backup)) Exchange.restore.backup none })
          hexpected (hlatest.mono fun d hd => Or.inr ?_)
        rw [← hd]
        cases platform <;> simp [Exchange.replacement, Exchange.backup]
      | raises =>
        obtain rfl := Option.some.inj hnext
        exact .restoreFailed hexpected (hlatest.mono fun _ => Or.inr)
      | refused | moved => cases hnext
  | verifying u =>
    rw [hstage] at h hnext
    obtain ⟨hexpected, old, hdisplaced, hfile, hsame, hother⟩ := h
    cases o with
    | succeeds =>
      obtain rfl := Option.some.inj hnext
      simp only [check, hfile]
      split
      · next hrevision =>
        refine ⟨hexpected, (hother hrevision).mono fun d hd => ?_⟩
        rw [hd, ← hfile]
        cases platform <;> rfl
      · next hrevision =>
        have hrevision := not_not.mp hrevision
        refine ⟨hexpected, ⟨old, hdisplaced, hrevision.trans hexpected⟩,
          (hsame hrevision).mono fun d hd => hd.imp_right fun hd => ?_⟩
        rw [hd]
        exact hdisplaced
    | raises =>
      obtain rfl := Option.some.inj hnext
      -- the file that cannot be read is the expected one
      have hrevision : code.revision old = u.expected := by
        have hsame := hok rfl u (by rw [verifies?, hstage]; rfl)
        simpa [displacedOther, hfile] using hsame
      refine ⟨hexpected, fun h => (by cases h),
        fun h => displaced_ne_config platform (Option.some.inj h),
        (hsame hrevision).mono fun d hd => ?_⟩
      rcases hd with hd | hd
      · exact Or.inl hd
      · rw [hd]
        exact Or.inr (Or.inr ⟨⟨old, hdisplaced, hrevision.trans hexpected⟩, hdisplaced⟩)
    | refused | moved => cases hnext
  | unlinking u =>
    rw [hstage] at h hnext
    obtain ⟨hexpected, hcommitted, hlatest⟩ := h
    cases o with
    | succeeds =>
      obtain rfl := Option.some.inj hnext
      refine ⟨hexpected, hcommitted, hlatest.mono fun d hd => hd.imp_left fun hd => ?_⟩
      exact (Function.update_of_ne (displaced_ne_config platform).symm _ _).trans hd
    | raises =>
      obtain rfl := Option.some.inj hnext
      exact ⟨hexpected, hcommitted, hlatest⟩
    | refused | moved => cases hnext
  | syncing u =>
    rw [hstage] at h hnext
    obtain ⟨hexpected, hcommitted, hlatest⟩ := h
    cases o with
    | succeeds | raises =>
      obtain rfl := Option.some.inj hnext
      exact ⟨hexpected, fun _ => hcommitted, by simp,
        hlatest.mono fun d hd => hd.imp_right fun hd => Or.inr ⟨hcommitted, hd⟩⟩
    | refused | moved => cases hnext
  | cleaning u temporary result =>
    rw [hstage] at h hnext
    obtain ⟨hexpected, hcommitted, htemporary, hheld⟩ := h
    cases o with
    | succeeds =>
      cases temporary with
      | none =>
        obtain rfl := Option.some.inj hnext
        exact ⟨hexpected, hcommitted, hheld⟩
      | some p =>
        obtain rfl := Option.some.inj hnext
        exact ⟨hexpected, hcommitted, hheld.unlink fun h => htemporary (congrArg some h)⟩
    | raises =>
      obtain rfl := Option.some.inj hnext
      exact ⟨hexpected, hcommitted, hheld.forget⟩
    | refused | moved => cases hnext
  | unlocking u result =>
    rw [hstage] at h hnext
    obtain ⟨hexpected, hcommitted, hheld⟩ := h
    cases o with
    | succeeds =>
      obtain rfl := Option.some.inj hnext
      exact .finish hcommitted hheld
    | raises =>
      obtain rfl := Option.some.inj hnext
      exact .finish (fun h => by cases h) hheld
    | refused | moved => cases hnext
  | done result =>
    rw [hstage] at hnext
    cases o <;> cases hnext

theorem Intact.next {ev : PolicyEvent Bytes} (h : Intact platform code call s)
    (hok : s.KeepsDocuments platform code ev) (hnext : s.next platform code ev = some s') :
    Intact platform code call s' := by
  cases ev with
  | own o => exact h.own hok hnext
  | foreign document =>
    obtain rfl := Option.some.inj hnext
    exact h.foreign hok

end PolicyState

open PolicyState

/-- **Documents of other programs are kept.** In a run under the condition, when the call has ended: if it
has returned, the exchange has displaced the document that it expected; and the document that another
program has written last during the call is in the file or in a recovery file, or is itself the one that
was expected and displaced. -/
theorem foreign_documents_kept (platform : Platform) (code : PolicyCode Bytes Policy Config W S)
    {s₀ s : PolicyState Bytes Policy Config W S} {call : PolicyCall W}
    (hcalled : s₀.stage = .called call) (hnone : s₀.latest = none)
    (hreach : (policyMachine platform code).Reach (KeepsDocuments platform code) s₀ s)
    {result : Except PolicyError Unit} (hdone : s.stage = .done result) :
    (result = .ok () → Committed code call s) ∧
      ∀ d, s.latest = some d → s.files .config = some d ∨ (∃ p, p ≠ .config ∧ s.files p = some d) ∨
        Committed code call s ∧ s.displaced = some d := by
  have hinit : Intact platform code call s₀ := by
    rw [PolicyState.Intact, hcalled]
    refine ⟨rfl, fun d hd => ?_⟩
    rw [hnone] at hd
    cases hd
  have hintact := hreach.invariant hinit fun _ _ _ h hok hnext => h.next hok hnext
  rw [PolicyState.Intact, hdone] at hintact
  obtain ⟨hcommitted, hheld⟩ := hintact
  refine ⟨hcommitted, fun d hd => ?_⟩
  rcases hheld d hd with hconfig | ⟨p, hp, -, hfile⟩ | hdisplaced
  · exact Or.inl hconfig
  · exact Or.inr (Or.inl ⟨p, hp, hfile⟩)
  · exact Or.inr (Or.inr hdisplaced)

/-- Steps that succeed. -/
def succeeding (n : Nat) : List (PolicyEvent String) := List.replicate n (.own .succeeds)

/-- A document of another program. -/
def foreignDocument (number : Nat) : String := toString number

/-- A call whose exchange displaces the document of another program, and puts it back. -/
theorem foreign_documents_kept_restored :
    ∃ s, s.stage = .done (.error .conflict) ∧ s.latest = some (foreignDocument 1) ∧
      (s.files .config = some (foreignDocument 1) ∨
        (∃ p, p ≠ .config ∧ s.files p = some (foreignDocument 1)) ∨
        ∃ call, Committed sharingCode call s ∧ s.displaced = some (foreignDocument 1)) := by
  have hrun : ((policyMachine .posix sharingCode).run enablesSharing
      (succeeding 5 ++ [.foreign (foreignDocument 1)] ++ succeeding 5)).map
        (fun s => (s.stage.result?, s.latest)) =
      some (some (.error .conflict), some (foreignDocument 1)) := by
    decide +kernel
  have halong : (policyMachine .posix sharingCode).Along (KeepsDocuments .posix sharingCode)
      enablesSharing (succeeding 5 ++ [.foreign (foreignDocument 1)] ++ succeeding 5) := by
    decide +kernel
  obtain ⟨s, hrun, hview⟩ := Option.map_eq_some_iff.mp hrun
  obtain ⟨hresult, hlatest⟩ := Prod.mk.inj hview
  obtain ⟨-, hkept⟩ := foreign_documents_kept .posix sharingCode rfl rfl
    (Machine.reach_of_run hrun halong) (done_of_result hresult)
  exact ⟨s, done_of_result hresult, hlatest,
    (hkept _ hlatest).imp_right fun h => h.imp_right fun h => ⟨_, h⟩⟩

/-- **Restored over another program's document.** Two documents are written around the first exchange:
the second exchange puts the first of them back, in the place of the second, which is then removed. -/
theorem restored_over_foreign_document :
    ∃ s, (policyMachine .posix sharingCode).Reach Machine.always enablesSharing s ∧
      s.stage = .done (.error .conflict) ∧ s.latest = some (foreignDocument 2) ∧
      ∀ p, s.files p ≠ some (foreignDocument 2) := by
  have hrun : ((policyMachine .posix sharingCode).run enablesSharing
      (succeeding 5 ++ [.foreign (foreignDocument 1)] ++ succeeding 2 ++
        [.foreign (foreignDocument 2)] ++ succeeding 3)).map
        (fun s => (s.stage.result?, s.latest, [ConfigPath.config, .candidate, .backup,
          .secondBackup].all fun p => s.files p ≠ some (foreignDocument 2))) =
      some (some (.error .conflict), some (foreignDocument 2), true) := by
    decide +kernel
  obtain ⟨s, hrun, hview⟩ := Option.map_eq_some_iff.mp hrun
  simp only [Prod.mk.injEq, List.all_eq_true, decide_eq_true_eq] at hview
  obtain ⟨hresult, hlatest, hfiles⟩ := hview
  refine ⟨s, Machine.reach_always_of_run hrun, done_of_result hresult, hlatest, fun p => hfiles p ?_⟩
  cases p <;> decide

end Drift.Node
