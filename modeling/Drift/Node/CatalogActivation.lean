import Drift.Node.CatalogBootstrap

/-!
# Rollback protection of the first installation

A configuration is activated only after the guard that has accepted its catalog is on disk. So the
rollback state covers every catalog that was ever activated: it records a later sequence, or the same one
with the same digest. The candidates of an installation are checked against the guard that is on disk
then, because it is read again after every failure, and a catalog that the guard accepts covers whatever
the guard has recorded before.

* `Protected` — the invariant: every activation is covered by the rollback state, at its time and ever
  after, and the activations of a catalog id are in order;
* `tryCandidate_meets` — a candidate keeps it, however it ends;
* `activations_protected` — the result for all runs.
-/

namespace Drift.Node

open Drift.Lib

variable {Text : Type} {prim : CatalogPrimitives CatalogFields}

/-! ### The invariant -/

/-- An accepted catalog is later than an activated one, or the same. -/
def AcceptedCatalog.Covers (e : AcceptedCatalog) (a : Activation) : Prop :=
  a.sequence ≤ e.sequence ∧ (a.sequence = e.sequence → a.digest = e.digest)

/-- The rollback state can be read, and what it records of the catalog's id covers the activation. -/
def RollbackFile.Records (prim : CatalogPrimitives CatalogFields) (file : RollbackFile)
    (a : Activation) : Prop :=
  ∃ g e, file.load prim = .ok g ∧ g.latest.lookup a.catalogId = some e ∧ e.Covers a

/-- What holds of a data directory and of the activations in it. -/
structure Protected (code : CatalogCode Text prim) (d : DataDir Text) : Prop where
  at_activation : ∀ a ∈ d.activated, a.rollback.Records prim a
  on_disk : ∀ a ∈ d.activated, (d.rollback (code.catalogDir a.catalogId)).Records prim a
  in_order : d.activated.Pairwise fun a b => a.catalogId = b.catalogId →
    a.sequence ≤ b.sequence ∧ (a.sequence = b.sequence → a.digest = b.digest)

/-- What the invariant depends on. -/
def protection (s : Installation Text) : (String → RollbackFile) × List Activation :=
  (s.dir.rollback, s.dir.activated)

theorem Protected.congr {code : CatalogCode Text prim} {d d' : DataDir Text}
    (hrollback : d'.rollback = d.rollback) (hactivated : d'.activated = d.activated)
    (h : Protected code d) : Protected code d' where
  at_activation := by
    rw [hactivated]
    exact h.at_activation
  on_disk := by
    rw [hactivated, hrollback]
    exact h.on_disk
  in_order := by
    rw [hactivated]
    exact h.in_order

namespace Installer

variable (i : Installer) (env : Environment Text) (code : CatalogCode Text prim)

/-- The guard in memory is the one on disk. -/
def Loaded (g : CatalogRollbackGuard prim) (d : DataDir Text) : Prop :=
  (d.rollback (i.catalogDir code)).load prim = .ok g

/-- The guard has been accepted a catalog on top of what it was. -/
structure Accepted (g g' : CatalogRollbackGuard prim) (c : ModelCatalog prim) : Prop where
  catalogId_eq : c.catalogId = i.trustRoot.catalogId
  lookup_eq : ∀ id, g'.latest.lookup id =
    if id = c.catalogId then some c.proposed else g.latest.lookup id
  follows : ∀ current, g.latest.lookup c.catalogId = some current →
    current.sequence ≤ c.sequence ∧ (current.sequence = c.sequence → current.digest = c.digest)

/-- The guard that has accepted the catalog is on disk. -/
def Saved (c : ModelCatalog prim) (d : DataDir Text) : Prop :=
  ∃ g, i.Loaded code g d ∧ g.latest.lookup c.catalogId = some c.proposed

end Installer

/-! ### Steps of the invariant -/

variable {i : Installer} {env : Environment Text} {code : CatalogCode Text prim}

/-- What covers an activation is covered by what follows it. -/
theorem AcceptedCatalog.Covers.trans {e e' : AcceptedCatalog} {a : Activation} (h : e.Covers a)
    (hle : e.sequence ≤ e'.sequence) (hdigest : e.sequence = e'.sequence → e.digest = e'.digest) :
    e'.Covers a := by
  refine ⟨h.1.trans hle, fun heq => ?_⟩
  -- nothing lies between two equal sequences
  have hsame : a.sequence = e.sequence := le_antisymm h.1 (by rw [heq]; exact hle)
  rw [h.2 hsame]
  exact hdigest (hsame.symm.trans heq)

/-- The rollback state is replaced by a guard that has accepted a catalog. -/
theorem Protected.save {d : DataDir Text} {g g' : CatalogRollbackGuard prim} {c : ModelCatalog prim}
    (h : Protected code d) (hloaded : i.Loaded code g d)
    (haccepted : i.Accepted g g' c) :
    Protected code { d with
      rollback := Function.update d.rollback (i.catalogDir code) (.present (some g'.toDict)) } where
  at_activation := h.at_activation
  in_order := h.in_order
  on_disk := by
    intro a ha
    show RollbackFile.Records prim (Function.update d.rollback (i.catalogDir code)
      (.present (some g'.toDict)) (code.catalogDir a.catalogId)) a
    by_cases hdir : code.catalogDir a.catalogId = i.catalogDir code
    · obtain ⟨g₀, e, hload, hlookup, hcovers⟩ := h.on_disk a ha
      rw [hdir] at hload
      obtain rfl : g = g₀ := Except.ok.inj (hloaded.symm.trans hload)
      obtain ⟨g'', hread, hentries⟩ := CatalogRollbackGuard.fromDict_toDict g'
      rw [hdir, Function.update_self]
      by_cases hid : a.catalogId = c.catalogId
      · refine ⟨g'', c.proposed, hread, ?_, ?_⟩
        · rw [hentries, haccepted.lookup_eq, if_pos hid]
        · rw [hid] at hlookup
          exact hcovers.trans (haccepted.follows e hlookup).1 (haccepted.follows e hlookup).2
      · refine ⟨g'', e, hread, ?_, hcovers⟩
        rw [hentries, haccepted.lookup_eq, if_neg hid]
        exact hlookup
    · rw [Function.update_of_ne hdir]
      exact h.on_disk a ha

/-- A configuration is activated whose catalog the rollback state records. -/
theorem Protected.activate {d : DataDir Text} {c : ModelCatalog prim}
    {config : String → Option (ConfigEntry Text)} (h : Protected code d)
    (hid : c.catalogId = i.trustRoot.catalogId)
    (hsaved : i.Saved code c d) :
    Protected code { d with
      config := config
      activated := d.activated ++
        [⟨c.catalogId, c.sequence, c.digest, d.rollback (i.catalogDir code)⟩] } := by
  obtain ⟨g, hload, hlookup⟩ := hsaved
  have hdir : code.catalogDir c.catalogId = i.catalogDir code := by
    rw [hid]
    rfl
  have hcovers : c.proposed.Covers
      ⟨c.catalogId, c.sequence, c.digest, d.rollback (i.catalogDir code)⟩ :=
    ⟨le_rfl, fun _ => rfl⟩
  constructor
  · intro a ha
    rcases List.mem_append.mp ha with ha | ha
    · exact h.at_activation a ha
    · obtain rfl := List.mem_singleton.mp ha
      exact ⟨g, c.proposed, hload, hlookup, hcovers⟩
  · intro a ha
    rcases List.mem_append.mp ha with ha | ha
    · exact h.on_disk a ha
    · obtain rfl := List.mem_singleton.mp ha
      refine ⟨g, c.proposed, ?_, hlookup, hcovers⟩
      show (d.rollback (code.catalogDir c.catalogId)).load prim = .ok g
      rw [hdir]
      exact hload
  · -- the entry on disk covers what was activated before, and it is the new catalog's
    refine List.pairwise_append.mpr ⟨h.in_order, List.pairwise_singleton _ _, ?_⟩
    intro a ha b hb hsame
    obtain rfl := List.mem_singleton.mp hb
    obtain ⟨g₀, e, hload₀, hlookup₀, hcovers₀⟩ := h.on_disk a ha
    rw [hsame] at hload₀ hlookup₀
    rw [hdir] at hload₀
    obtain rfl : g = g₀ := Except.ok.inj (hload.symm.trans hload₀)
    rw [hlookup] at hlookup₀
    obtain rfl : c.proposed = e := Option.some.inj hlookup₀
    exact hcovers₀

/-! ### Operations -/

/-- An operation keeps what its effect keeps. -/
theorem operation_keeps {converted : InstallError} {effect : DataDir Text → DataDir Text}
    (hrollback : ∀ d, (effect d).rollback = d.rollback)
    (hactivated : ∀ d, (effect d).activated = d.activated) :
    (operation env converted effect).Keeps protection := by
  have hadvance : ∀ (s : Installation Text) (done : Bool),
      protection (s.advance done effect) = protection s := by
    intro s done
    cases done with
    | false => rfl
    | true => exact Prod.ext (hrollback s.dir) (hactivated s.dir)
  intro s
  unfold operation
  split
  · exact hadvance s true
  · exact hadvance s _
  · exact hadvance s _

/-- What an operation leaves, whether its effect is there or not. -/
theorem operation_meets {converted : InstallError} {effect : DataDir Text → DataDir Text}
    {P Q : DataDir Text → Prop} (hdone : ∀ d, P d → Q (effect d)) (hnot : ∀ d, P d → Q d) :
    Crashing.Meets (fun s => P s.dir) (operation env converted effect) (fun _ s => Q s.dir)
      fun s => Q s.dir := by
  have hadvance : ∀ (s : Installation Text) (done : Bool), P s.dir → Q (s.advance done effect).dir := by
    intro s done hs
    cases done with
    | false => exact hnot s.dir hs
    | true => exact hdone s.dir hs
  intro s hs
  unfold operation
  split
  · exact hadvance s true hs
  · exact hadvance s _ hs
  · exact hadvance s _ hs

/-- A look tells what is there. -/
theorem look_meets {α : Type} {converted : InstallError} {f : DataDir Text → α}
    (P : DataDir Text → Prop) :
    Crashing.Meets (fun s => P s.dir) (look env converted f) (fun a s => P s.dir ∧ a = f s.dir)
      fun s => P s.dir := by
  refine Crashing.Meets.bind (operation_meets (fun _ h => h) fun _ h => h) fun _ => ?_
  refine Crashing.Meets.lift ?_ fun _ h => h
  intro s a hs ha
  exact ⟨hs, (Except.ok.inj ha).symm⟩

theorem look_keeps {α : Type} {converted : InstallError} {f : DataDir Text → α} :
    (look env converted f).Keeps protection :=
  (operation_keeps (fun _ => rfl) fun _ => rfl).bind fun _ => Crashing.Keeps.lift _

theorem fetchText_keeps {url : String} : (fetchText env url).Keeps protection := by
  intro s
  unfold fetchText
  dsimp only
  split
  all_goals rfl

theorem exceptBootstrap_keeps {α : Type} {m h : Install Text α} (hm : m.Keeps protection)
    (hh : h.Keeps protection) : (exceptBootstrap m h).Keeps protection := by
  refine hm.handle fun e k hk => ?_
  split at hk
  · cases hk
    exact hh
  · cases hk

/-- A handler of the source's own exceptions starts where the computation was cut short. -/
theorem exceptBootstrap_meets {α : Type} {P C : Installation Text → Prop}
    {Q : α → Installation Text → Prop} {m h : Install Text α} (hm : Crashing.Meets P m Q C)
    (hh : Crashing.Meets C h Q C) : Crashing.Meets P (exceptBootstrap m h) Q C := by
  refine hm.handle fun e k hk => ?_
  split at hk
  · cases hk
    exact hh
  · cases hk

namespace Installer

/-! ### Manifests -/

theorem fetchManifest_keeps {manifestDigest : String} (urls : List String) :
    (fetchManifest env code manifestDigest urls).Keeps protection := by
  induction urls with
  | nil => exact Crashing.Keeps.pure _
  | cons url urls ih =>
    refine Crashing.Keeps.bind (exceptBootstrap_keeps ?_ (Crashing.Keeps.pure _)) fun manifest => ?_
    · exact fetchText_keeps.bind fun _ => Crashing.Keeps.pure _
    · cases manifest with
      | some m => exact Crashing.Keeps.pure _
      | none => exact ih

theorem obtainManifest_keeps {model : CatalogModel} :
    (obtainManifest env code model).Keeps protection := by
  have hcached : (cachedManifest env code model.manifestDigest).Keeps protection :=
    look_keeps.bind fun _ => Crashing.Keeps.pure _
  refine (exceptBootstrap_keeps hcached (Crashing.Keeps.pure _)).bind fun cached => ?_
  cases cached with
  | some m => exact Crashing.Keeps.pure _
  | none => exact fetchManifest_keeps _

/-- The manifests are written without touching the rollback state. -/
theorem installManifests_keeps (models : List CatalogModel) (selectors : Dict String String) :
    (installManifests env code models selectors).Keeps protection := by
  induction models generalizing selectors with
  | nil => exact Crashing.Keeps.pure _
  | cons model models ih =>
    refine obtainManifest_keeps.bind fun manifest => ?_
    cases manifest with
    | none => exact Crashing.Keeps.raise _
    | some m =>
      refine (Crashing.Keeps.lift _).bind fun selectors => ?_
      refine Crashing.Keeps.bind (operation_keeps ?_ ?_) fun _ => ?_
      · exact fun _ => rfl
      · exact fun _ => rfl
      · exact (ih selectors).bind fun _ => Crashing.Keeps.pure _

/-! ### The guard -/

/-- What the invariant says of an installation under way. -/
def Inv (code : CatalogCode Text prim) (s : Installation Text) : Prop := Protected code s.dir

/-- The invariant, and the guard in memory. -/
def Ready (i : Installer) (code : CatalogCode Text prim) (g : CatalogRollbackGuard prim)
    (s : Installation Text) : Prop :=
  Inv code s ∧ i.Loaded code g s.dir

theorem Inv.congr {s s' : Installation Text} (h : protection s' = protection s) (hs : Inv code s) :
    Inv code s' :=
  Protected.congr (congrArg Prod.fst h) (congrArg Prod.snd h) hs

theorem Loaded.congr {g : CatalogRollbackGuard prim} {s s' : Installation Text}
    (h : protection s' = protection s) (hs : i.Loaded code g s.dir) : i.Loaded code g s'.dir := by
  have hrollback : s'.dir.rollback = s.dir.rollback := congrArg Prod.fst h
  unfold Loaded
  rw [hrollback]
  exact hs

theorem Ready.congr {g : CatalogRollbackGuard prim} {s s' : Installation Text}
    (h : protection s' = protection s) (hs : Ready i code g s) : Ready i code g s' :=
  ⟨hs.1.congr h, Loaded.congr h hs.2⟩

/-- What keeps the protection keeps every assertion about it. -/
theorem meets_of_keeps {α : Type} {m : Install Text α} {P C : Installation Text → Prop}
    (hm : m.Keeps protection)
    (hP : ∀ {s s' : Installation Text}, protection s' = protection s → P s → P s')
    (hC : ∀ s, P s → C s) : Crashing.Meets P m (fun _ => P) C := by
  have hmeets : Crashing.Meets P m (fun _ => P) P := by
    intro s hs
    have hafter := hP (hm s) hs
    cases (m s).1 with
    | returned a => exact hafter
    | raised e => exact hafter
    | crashed => exact hafter
  exact hmeets.conseq (fun _ h => h) (fun _ _ h => h) hC

/-- The guard is read from disk. -/
theorem loadGuard_meets :
    Crashing.Meets (Inv code) (i.loadGuard env code) (fun g => Ready i code g) (Inv code) := by
  refine Crashing.Meets.bind (look_meets (Protected code)) fun file => ?_
  refine Crashing.Meets.lift ?_ fun s h => h.1
  intro s g hs hload
  refine ⟨hs.1, ?_⟩
  cases hfile : file.load prim with
  | error e =>
    rw [hfile] at hload
    cases hload
  | ok g₀ =>
    rw [hfile] at hload
    obtain rfl : g₀ = g := Except.ok.inj hload
    unfold Loaded
    rw [← hs.2]
    exact hfile

/-- The guard that has accepted a catalog is written. -/
theorem saveGuard_meets {g g' : CatalogRollbackGuard prim} {c : ModelCatalog prim}
    (haccepted : i.Accepted g g' c) :
    Crashing.Meets (Ready i code g) (i.saveGuard env code g')
      (fun _ s => Inv code s ∧ i.Saved code c s.dir) (Inv code) := by
  have hwritten : ∀ s, Ready i code g s →
      ∀ done, Inv code (s.advance done fun d => { d with
        rollback := Function.update d.rollback (i.catalogDir code) (.present (some g'.toDict)) }) := by
    intro s hs done
    cases done with
    | false => exact hs.1
    | true => exact hs.1.save hs.2 haccepted
  intro s hs
  unfold saveGuard operation
  split
  · refine ⟨hwritten s hs true, ?_⟩
    obtain ⟨g'', hread, hentries⟩ := CatalogRollbackGuard.fromDict_toDict g'
    refine ⟨g'', ?_, ?_⟩
    · show RollbackFile.load prim (Function.update s.dir.rollback (i.catalogDir code)
        (.present (some g'.toDict)) (i.catalogDir code)) = .ok g''
      rw [Function.update_self]
      exact hread
    · rw [hentries, haccepted.lookup_eq, if_pos rfl]
  · exact hwritten s hs _
  · exact hwritten s hs _

/-! ### Candidates -/

/-- The guard that a candidate is checked against is the one on disk. -/
theorem loadCatalog_meets {source : String} {rendered : Text} {persisted g : CatalogRollbackGuard prim}
    (hentries : ∀ id, g.latest.lookup id = persisted.latest.lookup id) :
    Crashing.Meets (Ready i code persisted) (i.loadCatalog env code source rendered g)
      (fun r s => Ready i code persisted s ∧ i.Accepted persisted r.2 r.1) (Inv code) := by
  refine Crashing.Meets.lift ?_ fun s h => h.1
  intro s r hs hverify
  refine ⟨hs, ?_⟩
  cases henvelope : code.catalogFromJson rendered with
  | error e =>
    rw [henvelope] at hverify
    cases hverify
  | ok envelope =>
    rw [henvelope, ok_bind] at hverify
    cases hresult : envelope.verify i.trustRoot (i.nowMs.getD (env.timeMs s.tick)) g with
    | error e =>
      rw [hresult] at hverify
      cases hverify
    | ok r₀ =>
      rw [hresult] at hverify
      obtain rfl : r₀ = r := Except.ok.inj hverify
      obtain ⟨hid, hcheck⟩ := SignedModelCatalog.verify_ok hresult
      obtain ⟨haccept, hfollows⟩ := CatalogRollbackGuard.check_ok hcheck
      refine ⟨hid, fun id => ?_, fun current hcurrent => ?_⟩
      · rw [haccept, ← hentries]
        exact Dict.lookup_insert_eq _ _ _ _
      · exact hfollows current (by rw [hentries]; exact hcurrent)

/-- The configuration is activated while the rollback state records its catalog. -/
theorem activate_meets {text : Text} {c : ModelCatalog prim}
    (hid : c.catalogId = i.trustRoot.catalogId) :
    Crashing.Meets (fun s => Inv code s ∧ i.Saved code c s.dir) (i.activate env code text c)
      (fun _ => Inv code) (Inv code) := by
  have hkeeps : ∀ converted, Crashing.Meets (fun s => Inv code s ∧ i.Saved code c s.dir)
      (operation env converted id) (fun _ s => Inv code s ∧ i.Saved code c s.dir) (Inv code) :=
    fun _ => (operation_meets (P := fun d => Protected code d ∧ i.Saved code c d)
      (fun _ h => h) fun _ h => h).conseq (fun _ h => h) (fun _ _ h => h) fun _ h => h.1
  have hwrite : Crashing.Meets (fun s => Inv code s ∧ i.Saved code c s.dir)
      (writeNew env i.configPath text fun d =>
        ⟨c.catalogId, c.sequence, c.digest, d.rollback (i.catalogDir code)⟩)
      (fun _ => Inv code) (Inv code) := by
    refine Crashing.Meets.bind ((look_meets fun d => Protected code d ∧ i.Saved code c d).conseq
      (fun _ h => h) (fun _ _ h => h.1) fun _ h => h.1) fun present => ?_
    split
    · exact Crashing.Meets.raise fun _ h => h.1
    · exact operation_meets (P := fun d => Protected code d ∧ i.Saved code c d)
        (fun d h => h.1.activate hid h.2) fun _ h => h.1
  have hrelease : Crashing.Meets (Inv code) (operation env .os id) (fun _ => Inv code) (Inv code) :=
    operation_meets (fun _ h => h) fun _ h => h
  refine Crashing.Meets.bind (hkeeps _) fun _ => ?_
  refine Crashing.Meets.andFinally ?_ (fun _ => hrelease) hrelease
  refine hwrite.handle fun e k hk => ?_
  split at hk
  · cases hk
    exact Crashing.Meets.raise fun _ h => h
  · cases hk

/-- **A candidate.** It is checked against the guard on disk, and keeps the invariant however it
ends. -/
theorem tryCandidate_meets {source : String} {rendered : Text}
    {persisted : CatalogRollbackGuard prim} :
    Crashing.Meets (Ready i code persisted) (i.tryCandidate env code source rendered persisted)
      (fun _ => Inv code) (Inv code) := by
  -- the guard is cloned through its document
  refine Crashing.Meets.bind (Q := fun g s => Ready i code persisted s ∧
    ∀ id, g.latest.lookup id = persisted.latest.lookup id) ?_ fun guard => ?_
  · refine Crashing.Meets.lift (fun s g hs hclone => ⟨hs, ?_⟩) fun _ h => h.1
    obtain ⟨g', hread, hentries⟩ := CatalogRollbackGuard.fromDict_toDict persisted
    rw [hread] at hclone
    obtain rfl : g' = g := Except.ok.inj hclone
    exact hentries
  intro s hs
  refine Crashing.Meets.bind (loadCatalog_meets hs.2) (fun r => ?_) s hs.1
  obtain ⟨catalog, guard'⟩ := r
  intro s hs
  have haccepted : i.Accepted persisted guard' catalog := hs.2
  -- up to the saving of the guard nothing that matters is written
  have hframe : ∀ {α : Type} {m : Install Text α}, m.Keeps protection →
      Crashing.Meets (Ready i code persisted) m (fun _ => Ready i code persisted) (Inv code) :=
    fun hm => meets_of_keeps hm Ready.congr fun _ h => h.1
  refine Crashing.Meets.bind (hframe (installManifests_keeps _ _)) (fun manifests => ?_) s hs.1
  refine Crashing.Meets.bind (hframe (Crashing.Keeps.lift _)) fun text => ?_
  refine Crashing.Meets.bind (hframe (Crashing.Keeps.lift _)) fun envelope => ?_
  refine Crashing.Meets.bind (hframe (operation_keeps ?_ ?_)) fun _ => ?_
  · exact fun _ => rfl
  · exact fun _ => rfl
  refine Crashing.Meets.bind (saveGuard_meets haccepted) fun _ => ?_
  refine Crashing.Meets.bind (Q := fun _ s => Inv code s ∧ i.Saved code catalog s.dir) ?_ fun _ => ?_
  · exact (operation_meets (P := fun d => Protected code d ∧ i.Saved code catalog d)
      (fun _ h => h) fun _ h => h).conseq (fun _ h => h) (fun _ _ h => h) fun _ h => h.1
  refine Crashing.Meets.bind (activate_meets haccepted.catalogId_eq) fun _ => ?_
  exact Crashing.Meets.pure fun _ h => h

/-! ### Installations -/

/-- The guard is read again after a failure, so the next candidate meets the one on disk. -/
theorem tryMirrors_meets (urls : List String) (persisted : CatalogRollbackGuard prim) :
    Crashing.Meets (Ready i code persisted) (i.tryMirrors env code urls persisted)
      (fun r s => match r with
        | .inl _ => Inv code s
        | .inr g => Ready i code g s) (Inv code) := by
  induction urls generalizing persisted with
  | nil => exact Crashing.Meets.pure fun _ h => h
  | cons url urls ih =>
    refine Crashing.Meets.bind (Q := fun _ => Inv code) (exceptBootstrap_meets ?_ ?_) fun outcome => ?_
    · refine Crashing.Meets.bind (meets_of_keeps fetchText_keeps Ready.congr fun _ h => h.1)
        fun rendered => ?_
      refine Crashing.Meets.bind tryCandidate_meets fun result => ?_
      exact Crashing.Meets.pure fun _ h => h
    · exact Crashing.Meets.pure fun _ h => h
    · cases outcome with
      | some result => exact Crashing.Meets.pure fun _ h => h
      | none => exact Crashing.Meets.bind loadGuard_meets fun g => ih g

theorem tryCached_meets {persisted : CatalogRollbackGuard prim} :
    Crashing.Meets (Ready i code persisted) (i.tryCached env code persisted) (fun _ => Inv code)
      (Inv code) := by
  have hlook : ∀ {α : Type} {f : DataDir Text → α}, Crashing.Meets (Ready i code persisted)
      (look env .os f) (fun _ => Ready i code persisted) (Inv code) :=
    meets_of_keeps look_keeps Ready.congr fun _ h => h.1
  refine Crashing.Meets.bind hlook fun cached => ?_
  split
  · refine Crashing.Meets.handle ?_ fun e k hk => ?_
    · refine Crashing.Meets.bind hlook fun text => ?_
      cases text with
      | some rendered => exact tryCandidate_meets
      | none => exact Crashing.Meets.raise fun _ h => h.1
    · split at hk
      · cases hk
      · cases hk
        exact Crashing.Meets.raise fun _ h => h
  · exact Crashing.Meets.raise fun _ h => h.1

theorem existingResult_keeps : (i.existingResult env code).Keeps protection := by
  refine look_keeps.bind fun entry => ?_
  split
  · split
    · exact Crashing.Keeps.pure _
    · exact Crashing.Keeps.raise _
  · exact Crashing.Keeps.raise _

theorem installLocked_meets :
    Crashing.Meets (Inv code) (i.installLocked env code) (fun _ => Inv code) (Inv code) := by
  refine Crashing.Meets.bind (meets_of_keeps look_keeps Inv.congr fun _ h => h) fun present => ?_
  split
  · exact meets_of_keeps existingResult_keeps Inv.congr fun _ h => h
  · refine Crashing.Meets.bind loadGuard_meets fun persisted => ?_
    refine Crashing.Meets.bind (tryMirrors_meets _ persisted) fun outcome => ?_
    cases outcome with
    | inl result => exact Crashing.Meets.pure fun _ h => h
    | inr g => exact tryCached_meets

/-- **An installation** keeps the invariant, wherever it is cut short. -/
theorem install_meets :
    Crashing.Meets (Inv code) (i.install env code) (fun _ => Inv code) (Inv code) := by
  have hlook : ∀ {α : Type} {converted : InstallError} {f : DataDir Text → α},
      Crashing.Meets (Inv code) (look env converted f) (fun _ => Inv code) (Inv code) :=
    meets_of_keeps look_keeps Inv.congr fun _ h => h
  have hlock : ∀ {converted : InstallError} (locked : Bool), Crashing.Meets (Inv code)
      (operation env converted fun d => { d with locked := locked }) (fun _ => Inv code) (Inv code) :=
    fun locked => operation_meets (fun d h => h.congr (d := d) rfl rfl) fun _ h => h
  refine Crashing.Meets.bind hlook fun entry => ?_
  split
  · exact Crashing.Meets.raise fun _ h => h
  · exact meets_of_keeps existingResult_keeps Inv.congr fun _ h => h
  · refine Crashing.Meets.bind hlook fun locked => ?_
    split
    · exact Crashing.Meets.raise fun _ h => h
    · refine Crashing.Meets.bind (hlock true) fun _ => ?_
      exact installLocked_meets.andFinally (fun _ => hlock false) (hlock false)

end Installer

/-! ### Main results -/

theorem Protected.next {d d' : DataDir Text} {event : BootstrapEvent Text} (h : Protected code d)
    (hnext : d.next code event = some d') : Protected code d' := by
  cases event with
  | install i env =>
    obtain rfl : (i.install env code ⟨d, 0⟩).2.dir = d' := Option.some.inj hnext
    exact Installer.install_meets.leaves h
  | placeConfig path entry =>
    obtain rfl := Option.some.inj hnext
    exact Protected.congr (d := d) rfl rfl h
  | unlock =>
    obtain rfl := Option.some.inj hnext
    exact Protected.congr (d := d) rfl rfl h

/-- **First-install rollback protection.** Over a data directory whose activations are counted from the
start, after any installations, each of which may fail or crash at any file operation, and whatever the
operator does to the configurations between them: when a configuration was activated, the rollback state
on disk recorded its catalog or a later one, and it still does; and of two activations of one catalog id
the later one has no smaller sequence, and the same digest if it has the same sequence. -/
theorem activations_protected (code : CatalogCode Text prim) {d₀ d : DataDir Text}
    (hfresh : d₀.activated = []) (h : (bootstrapMachine code).Reach Machine.always d₀ d) :
    (∀ a ∈ d.activated, a.rollback.Records prim a ∧
      (d.rollback (code.catalogDir a.catalogId)).Records prim a) ∧
    d.activated.Pairwise fun a b => a.catalogId = b.catalogId →
      a.sequence ≤ b.sequence ∧ (a.sequence = b.sequence → a.digest = b.digest) := by
  have hinit : Protected code d₀ := by
    constructor
    · rw [hfresh]
      exact fun a ha => absurd ha List.not_mem_nil
    · rw [hfresh]
      exact fun a ha => absurd ha List.not_mem_nil
    · rw [hfresh]
      exact List.Pairwise.nil
  have hprotected : Protected code d :=
    h.invariant hinit fun _ _ _ hinv _ hnext => hinv.next hnext
  exact ⟨fun a ha => ⟨hprotected.at_activation a ha, hprotected.on_disk a ha⟩, hprotected.in_order⟩

/-- Catalogs are numbered by their texts; the hash tells even sequences from odd ones. -/
def samplePrimitives : CatalogPrimitives CatalogFields where
  isNfc _ := true
  sha256Hex c := String.ofList (List.replicate 64 (if c.sequence % 2 = 0 then 'a' else 'b'))
  ed25519Verify _ _ _ := true
  isNfc_ascii _ _ := rfl
  sha256Hex_digest c := by
    unfold Identity.isDigest
    rw [String.toList_ofList]
    split
    · simp
    · simp

def sampleCatalog (n : Nat) : SignedModelCatalog samplePrimitives where
  signed := ⟨⟨"c", max 1 n, 0, 10, []⟩, rfl, Int.le_max_left 1 n⟩
  signatures := [⟨"k", ""⟩]

def sampleCode : CatalogCode Nat samplePrimitives where
  catalogFromJson n := .ok (sampleCatalog n)
  catalogToJson e := e.signed.sequence.toNat
  manifestFromJson _ := none
  manifestToJson _ := 0
  casefold s := s
  catalogDir id := id
  renderNodeConfig _ _ _ := some 0
  loadNodeConfig _ := some 0

def sampleInstaller : Installer := ⟨⟨"c", 1, [⟨"k", ""⟩]⟩, ["mirror"], "config", some 5⟩

/-- The mirror serves one catalog, and the installation crashes at one of its ticks, if at any. -/
def serving (n : Nat) (crash : Option Nat) : Environment Nat where
  file t := if crash = some t then .crashes false else .succeeds
  fetch _ _ := .answers n
  timeMs _ := 5

def emptyDataDir : DataDir Nat :=
  ⟨fun _ => none, fun _ => none, fun _ => .missing, fun _ => none, false, []⟩

set_option maxRecDepth 20000 in
/-- The second catalog is installed; the operator removes the configuration, and the third one gets as
far as the rollback state. Then the mirror serves the second one again, and the third is activated from
the cache. -/
theorem activations_protected_cached :
    ∃ d, (bootstrapMachine sampleCode).Reach Machine.always emptyDataDir d ∧
      d.activated.map Activation.sequence = [2, 3] ∧
      ∀ a ∈ d.activated, (d.rollback a.catalogId).Records samplePrimitives a := by
  have hrun : ((bootstrapMachine sampleCode).run emptyDataDir
      [.install sampleInstaller (serving 2 none), .placeConfig "config" none,
        .install sampleInstaller (serving 3 (some 8)), .unlock,
        .install sampleInstaller (serving 2 none)]).map
        (fun d => d.activated.map Activation.sequence) = some [2, 3] := by
    decide +kernel
  obtain ⟨d, hrun, hview⟩ := Option.map_eq_some_iff.mp hrun
  have hreach := Machine.reach_always_of_run hrun
  exact ⟨d, hreach, hview, fun a ha => ((activations_protected sampleCode rfl hreach).1 a ha).2⟩

end Drift.Node
