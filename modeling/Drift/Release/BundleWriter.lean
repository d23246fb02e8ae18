import Drift.Lib.Crashing
import Drift.Release.PublicationBundle

/-!
# The publication of a bundle

The writer builds a bundle next to its place, loads it there, moves what is in its place aside, moves the bundle in,
and removes what was moved aside. One operation on files may fail, and leave what it was to do half done.

* `writeCatalogPublicationBundle` — the writer, operation by operation;
* `stage_cases`, `exchange_cases` — how its two parts end;
* `publication_atomic_iff` — a failure leaves what was there, unless it strikes after the bundle was moved in.

The bundle is built under a name with a fresh token, where nothing is, and so is what is moved aside.
-/

namespace Drift.Release

open Drift.Lib Drift.Manifest

/-! ### What is written -/

/-- The arguments of the writer, and whether the output directory is the root of a file system. -/
structure Publication (Bootstrap Envelope : Type) where
  bootstrap : Bootstrap
  envelope : Envelope
  manifests : List ModelManifestV1
  now : ℚ
  force : Bool
  isRoot : Bool

variable {Bootstrap Envelope : Type} (code : ReleaseCode Bootstrap Envelope)

/-- The members of the manifests, on top of those that were added. -/
def addManifests : List (String × Raw) → List ModelManifestV1 → Except String (List (String × Raw))
  | members, [] => .ok members
  | members, m :: rest => do
    raiseIf ((members.map Prod.fst).contains (manifestPath code m))
      s!"Catalog publication bundle contains duplicate manifest {manifestDigestId code m}"
    addManifests (members ++ [(manifestPath code m, manifestBytes m)]) rest

/-- `members`, for a report. -/
def bundleMembers (p : Publication Bootstrap Envelope) (report : List (String × Json)) :
    Except String (List (String × Raw)) :=
  addManifests code
    [("catalog-bootstrap.json", canonicalJsonBytes (code.bootstrapToDict p.bootstrap)),
      ("catalog.signed.json", canonicalJsonBytes (code.envelopeToDict p.envelope)),
      ("publication-preflight.json", canonicalJsonBytes (.obj report))]
    (p.manifests.insertionSort fun a b => manifestDigest code a ≤ manifestDigest code b)

/-- One item of `files`. -/
def memberJson (member : String × Raw) : Json :=
  .obj [("path", .str member.1), ("sha256", .str (sha256DigestBytes code member.2)), ("size", .int member.2.size)]

/-- `index`, in the order of the keys. -/
def bundleIndex (report : List (String × Json)) (members : List (String × Raw)) : List (String × Json) :=
  [("bootstrap_digest", field report "bootstrap_digest"), ("catalog_digest", field report "catalog_digest"),
    ("catalog_id", field report "catalog_id"), ("catalog_sequence", field report "catalog_sequence"),
    ("complete_release_qualification", .bool false),
    ("files", .arr ((members.insertionSort fun a b => a.1 ≤ b.1).map (memberJson code))),
    ("schema_version", .int catalogPublicationBundleSchemaVersion), ("scope", .str "catalog-publication-bundle")]

/-- The files to be written, and the index. -/
def prepareBundle (p : Publication Bootstrap Envelope) : Except String (List (String × Raw) × Json) := do
  let report ← verifyCatalogPublicationBundle code p.bootstrap p.envelope p.manifests p.now
  let members ← bundleMembers code p report
  let index := Json.obj (bundleIndex code report members)
  return (members ++ [(catalogPublicationBundleIndexName, canonicalJsonBytes index)], index)

/-! ### Operations on files -/

/-- The operations of the writer, in their order. A path names the member that an operation is for. -/
inductive Operation
  | checkOutput
  | inspectOutput
  | readOutput
  | makeParent
  | makeStaging
  | makeMemberDirectories (path : String)
  | createMember (path : String)
  | writeMember (path : String)
  | readStaging
  | recheckOutput
  | moveOutput
  | publish
  | checkMoved
  | checkUnpublished
  | restore
  | checkBackup
  | removeBackup
  | checkStaging
  | removeStaging
  deriving DecidableEq

/-- An operation that fails, with the bytes that a write has written and what the removal of a directory leaves. -/
structure Fault where
  operation : Operation
  written : Raw
  left : Place

/-- The output location, and the two next to it. -/
structure Site where
  output : Place
  staging : Place
  backup : Place

inductive WriteError
  /-- `CatalogBootstrapError`. -/
  | bootstrap (message : String)
  /-- `OSError`. -/
  | os
  deriving DecidableEq

abbrev Writing (α : Type) : Type := Crashing Site WriteError α

variable (fault : Option Fault)

/-- The fault, where it strikes the operation. -/
def struck (op : Operation) : Option Fault := fault.filter fun f => f.operation = op

/-- An operation with an effect. It raises where it cannot be done, and where it fails, half done. -/
def operate (op : Operation) (half : Fault → Site → Site) (effect : Site → Option Site) : Writing Unit := fun s =>
  match struck fault op with
  | some f => (.raised .os, half f s)
  | none =>
    match effect s with
    | some s' => (.returned (), s')
    | none => (.raised .os, s)

/-- `if condition: raise CatalogBootstrapError(message)`. -/
def refuse (condition : Bool) (message : String) : Writing Unit :=
  if condition then Crashing.raise (.bootstrap message) else pure ()

/-- An operation that looks at a location. -/
def look (op : Operation) (f : Site → Bool) : Writing Bool := fun s =>
  match struck fault op with
  | some _ => (.raised .os, s)
  | none => (.returned (f s), s)

/-- `if test: m`, for a test that looks at a location. -/
def whenLook (op : Operation) (f : Site → Bool) (m : Writing Unit) : Writing Unit := do
  let holds ← look fault op f
  if holds then m else pure ()

/-- Loading a bundle. -/
def readBundle (op : Operation) (place : Site → Place) (now : ℚ) : Writing Json := fun s =>
  match struck fault op with
  | some _ => (.raised .os, s)
  | none =>
    match loadCatalogPublicationBundle code (place s) now with
    | .ok index => (.returned index, s)
    | .error message => (.raised (.bootstrap message), s)

/-- `os.replace`: a directory takes the place of nothing or of an empty directory. -/
def Place.canReplace : Place → Place → Bool
  | .absent, _ => false
  | .directory _, .absent => true
  | .directory _, .directory listing => listing.isEmpty
  | .directory _, _ => false
  | _, .directory _ => false
  | _, _ => true

/-- The directories above a path. -/
def parentDirectories (path : String) : List String :=
  ((path.toList.splitOn '/').inits.tail.dropLast).map fun parts => String.ofList (['/'].intercalate parts)

/-- `mkdir(parents=True, exist_ok=True)`, below the root of a bundle. -/
def makeDirectories : List String → Listing → Option Listing
  | [], listing => some listing
  | path :: rest, listing =>
    match listing.lookup path with
    | none => makeDirectories rest (listing ++ [(path, .directory)])
    | some .directory => makeDirectories rest listing
    | some _ => none

/-- `open("xb")`. -/
def createFile (path : String) (listing : Listing) : Option Listing :=
  if (listing.lookup path).isSome then none else some (listing ++ [(path, .file (.text ""))])

/-- What a write leaves in a file. -/
def fillFile (path : String) (raw : Raw) (listing : Listing) : Listing :=
  listing.map fun entry => if entry.1 = path then (path, .file raw) else entry

/-- The staging directory after an operation in it. -/
def Site.inStaging (s : Site) (f : Listing → Option Listing) : Option Site :=
  match s.staging with
  | .directory listing => (f listing).map fun listing' => { s with staging := .directory listing' }
  | _ => none

/-- An operation that fails with nothing done. -/
def unchanged : Fault → Site → Site := fun _ s => s

/-! ### The writer -/

def writeMember (member : String × Raw) : Writing Unit := do
  operate fault (.makeMemberDirectories member.1) unchanged fun s =>
    s.inStaging (makeDirectories (parentDirectories member.1))
  operate fault (.createMember member.1) unchanged fun s => s.inStaging (createFile member.1)
  operate fault (.writeMember member.1)
    (fun f s => (s.inStaging fun listing => some (fillFile member.1 f.written listing)).getD s)
    fun s => s.inStaging fun listing => some (fillFile member.1 member.2 listing)

def writeMembers : List (String × Raw) → Writing Unit
  | [] => pure ()
  | member :: rest => do
    writeMember fault member
    writeMembers rest

/-- The staging directory after a member is written, and after all of them are. -/
def stageMember (member : String × Raw) (listing : Listing) : Option Listing := do
  let listing ← makeDirectories (parentDirectories member.1) listing
  let listing ← createFile member.1 listing
  return fillFile member.1 member.2 listing

def stageMembers : List (String × Raw) → Listing → Option Listing
  | [], listing => some listing
  | member :: rest, listing => (stageMember member listing).bind (stageMembers rest)

/-- The bundle is built, and loaded where it was built. -/
def stage (members : List (String × Raw)) (index : Json) (now : ℚ) : Writing Unit := do
  operate fault .makeStaging unchanged fun s =>
    if s.staging = .absent then some { s with staging := .directory [] } else none
  writeMembers fault members
  let verifiedIndex ← readBundle code fault .readStaging Site.staging now
  refuse (!verifiedIndex.pyEq index) "Catalog publication bundle validation returned an unexpected index"

/-- What is done where the bundle cannot be moved in. -/
def restoreOutput : Writing Unit := do
  whenLook fault .checkMoved (fun s => s.backup.exists) (whenLook fault .checkUnpublished (fun s => !s.output.exists)
    (operate fault .restore unchanged fun s =>
      if s.backup.canReplace s.output then some { s with output := s.backup, backup := .absent } else none))
  Crashing.raise .os

/-- The handler of an `OSError`. -/
def onOsError (m : Writing Unit) : WriteError → Option (Writing Unit)
  | .os => some m
  | .bootstrap _ => none

/-- The exchange of what is in the place of the bundle. -/
def exchange : Writing Unit := do
  whenLook fault .recheckOutput (fun s => s.output.exists) (operate fault .moveOutput unchanged fun s =>
    if s.output.canReplace s.backup then some { s with output := .absent, backup := s.output } else none)
  (operate fault .publish unchanged fun s =>
    if s.staging.canReplace s.output then some { s with output := s.staging, staging := .absent } else none).handle
      (onOsError (restoreOutput fault))
  whenLook fault .checkBackup (fun s => s.backup.exists)
    (operate fault .removeBackup (fun f s => { s with backup := f.left }) fun s =>
      match s.backup with
      | .directory _ => some { s with backup := .absent }
      | _ => none)

/-- The staging directory is removed, as far as it can be. -/
def removeStaging : Writing Unit :=
  whenLook fault .checkStaging (fun s => s.staging.exists) fun s =>
    (.returned (), { s with staging := ((struck fault .removeStaging).map Fault.left).getD .absent })

/-- A directory, and no link to one. -/
def Place.isDirectory : Place → Bool
  | .directory _ => true
  | _ => false

/-- What is in the output location is a bundle, and may be replaced. -/
def checkReplaceable (p : Publication Bootstrap Envelope) : Writing Unit := do
  refuse (!p.force) "Refusing to overwrite catalog publication bundle; pass --force if intentional"
  whenLook fault .inspectOutput (fun s => !s.output.isDirectory)
    (Crashing.raise (.bootstrap "Existing catalog publication bundle target is unsafe"))
  let _ ← readBundle code fault .readOutput Site.output p.now

/-- The checks of the output location, before anything is written. -/
def prepareOutput (p : Publication Bootstrap Envelope) : Writing Unit := do
  refuse p.isRoot "Refusing to use a filesystem root as a catalog publication bundle"
  whenLook fault .checkOutput (fun s => s.output.exists) (checkReplaceable code fault p)
  (operate fault .makeParent unchanged some).handle
    (onOsError (Crashing.raise (.bootstrap "Could not create catalog publication bundle parent")))

/-- `write_catalog_publication_bundle`. -/
def writeCatalogPublicationBundle (p : Publication Bootstrap Envelope) : Writing Json := do
  let prepared ← Crashing.lift fun _ => (prepareBundle code p).mapError WriteError.bootstrap
  prepareOutput code fault p
  ((stage code fault prepared.1 prepared.2 p.now >>= fun _ => exchange fault).handle
    (onOsError (Crashing.raise (.bootstrap "Could not write catalog publication bundle")))).andFinally
      (removeStaging fault)
  return prepared.2

/-! ### What a publication promises -/

/-- Two places hold the same. The order in which a directory is listed does not matter. -/
def Place.Same : Place → Place → Prop
  | .directory listing, .directory listing' => listing.Perm listing'
  | place, place' => place = place'

theorem Place.Same.refl (place : Place) : place.Same place := by
  cases place with
  | directory listing => exact List.Perm.refl _
  | _ => rfl

/-- The output location holds `prior`, and nothing is next to it. -/
def start (prior : Place) : Site := ⟨prior, .absent, .absent⟩

/-- Where the writer returns, the bundle is loaded at the same time with the same index. Where it raises, the output
location holds what it held. -/
def PublicationAtomic (p : Publication Bootstrap Envelope) (fault : Option Fault) (prior : Place) : Prop :=
  let ended := writeCatalogPublicationBundle code fault p (start prior)
  (∀ index, ended.1 = .returned index → ∃ loaded,
    loadCatalogPublicationBundle code ended.2.output p.now = .ok loaded ∧ loaded.pyEq index = true) ∧
  ((∀ index, ended.1 ≠ .returned index) → ended.2.output.Same prior)

/-- The writer gets to the exchange: nothing stands in the output location, or a bundle that may be replaced, and the
bundle that is built is one that the loader accepts. -/
structure Publishable (p : Publication Bootstrap Envelope) (prior : Place) (listing : Listing) : Prop where
  notRoot : p.isRoot = false
  replaceable : prior = .absent ∨ p.force = true ∧ ∃ index, loadCatalogPublicationBundle code prior p.now = .ok index
  accepted : ∃ members index verified, prepareBundle code p = .ok (members, index) ∧
    stageMembers members [] = some listing ∧
    loadCatalogPublicationBundle code (.directory listing) p.now = .ok verified ∧ verified.pyEq index = true

/-- The fault strikes what comes after the exchange: one of the two looks, or the removal of what was moved aside. -/
def LateFault (fault : Option Fault) (prior : Place) : Prop :=
  ∃ f, fault = some f ∧
    (f.operation = .checkBackup ∨ f.operation = .checkStaging ∨ f.operation = .removeBackup ∧ prior ≠ .absent)

/-! ### What operations leave -/

variable {code} {fault}
variable {op : Operation} {P C : Site → Prop} {Q : Unit → Site → Prop} {p : Publication Bootstrap Envelope}
variable {prior : Place} {listing : Listing} {members : List (String × Raw)} {index : Json} {now : ℚ}

theorem struck_eq_some_iff {f : Fault} : struck fault op = some f ↔ fault = some f ∧ f.operation = op := by
  unfold struck
  rw [Option.filter_eq_some_iff, decide_eq_true_eq]

theorem meets_operate {half : Fault → Site → Site} {effect : Site → Option Site}
    (hfail : ∀ f s, struck fault op = some f → P s → C (half f s))
    (hcannot : ∀ s, struck fault op = none → P s → effect s = none → C s)
    (hdone : ∀ s s', struck fault op = none → P s → effect s = some s' → Q () s') :
    Crashing.Meets P (operate fault op half effect) Q C := by
  intro s hs
  unfold operate
  cases hstruck : struck fault op with
  | some f => exact hfail f s hstruck hs
  | none =>
    dsimp only
    cases heffect : effect s with
    | some s' => exact hdone s s' hstruck hs heffect
    | none => exact hcannot s hstruck hs heffect

theorem meets_refuse {condition : Bool} {message : String} (hrefused : ∀ s, condition = true → P s → C s)
    (hdone : ∀ s, condition = false → P s → Q () s) : Crashing.Meets P (refuse condition message) Q C := by
  unfold refuse
  cases condition with
  | true => exact Crashing.Meets.raise fun s hs => hrefused s rfl hs
  | false => exact Crashing.Meets.pure fun s hs => hdone s rfl hs

theorem meets_look {f : Site → Bool} {R : Bool → Site → Prop} (hfail : ∀ f s, struck fault op = some f → P s → C s)
    (hdone : ∀ s, struck fault op = none → P s → R (f s) s) : Crashing.Meets P (look fault op f) R C := by
  intro s hs
  unfold look
  cases hstruck : struck fault op with
  | some f => exact hfail f s hstruck hs
  | none => exact hdone s hstruck hs

/-- **The rule of a test.** -/
theorem meets_whenLook {f : Site → Bool} {m : Writing Unit} (hfail : ∀ f s, struck fault op = some f → P s → C s)
    (hskip : ∀ s, struck fault op = none → P s → f s = false → Q () s)
    (hm : Crashing.Meets (fun s => struck fault op = none ∧ P s ∧ f s = true) m Q C) :
    Crashing.Meets P (whenLook fault op f m) Q C := by
  have hlook : Crashing.Meets P (look fault op f) (fun holds s => struck fault op = none ∧ P s ∧ f s = holds) C :=
    meets_look hfail fun s hstruck hs => ⟨hstruck, hs, rfl⟩
  refine hlook.bind fun holds => ?_
  cases holds with
  | true => exact hm
  | false => exact Crashing.Meets.pure fun s h => hskip s h.1 h.2.1 h.2.2

/-- A handler that raises another exception. -/
theorem meets_onOsError {message : String} {e : WriteError} {k : Writing Unit}
    (hk : onOsError (Crashing.raise (.bootstrap message)) e = some k) (h : ∀ s, P s → C s) :
    Crashing.Meets P k Q C := by
  cases e with
  | bootstrap message => cases hk
  | os =>
    obtain rfl := Option.some.inj hk
    exact Crashing.Meets.raise h

theorem meets_readBundle {place : Site → Place} {R : Json → Site → Prop}
    (hfail : ∀ f s, struck fault op = some f → P s → C s)
    (hrefused : ∀ s message, P s → loadCatalogPublicationBundle code (place s) now = .error message → C s)
    (hdone : ∀ s index, struck fault op = none → P s → loadCatalogPublicationBundle code (place s) now = .ok index → R index s) :
    Crashing.Meets P (readBundle code fault op place now) R C := by
  intro s hs
  unfold readBundle
  cases hstruck : struck fault op with
  | some f => exact hfail f s hstruck hs
  | none =>
    dsimp only
    cases hload : loadCatalogPublicationBundle code (place s) now with
    | ok index => exact hdone s index hstruck hs hload
    | error message => exact hrefused s message hs hload

/-! ### Building the bundle -/

/-- The staging directory holds the listing, and the output location what it held. -/
def staged (prior : Place) (listing : Listing) : Site := ⟨prior, .directory listing, .absent⟩

/-- Nothing was moved. -/
def Untouched (prior : Place) (s : Site) : Prop := s.output = prior ∧ s.backup = .absent

theorem inStaging_staged {f : Listing → Option Listing} {s' : Site}
    (h : (staged prior listing).inStaging f = some s') : ∃ listing', f listing = some listing' ∧ s' = staged prior listing' := by
  obtain ⟨listing', hf, rfl⟩ := Option.map_eq_some_iff.mp h
  exact ⟨listing', hf, rfl⟩

/-- One operation in the staging directory. -/
theorem meets_inStaging {f : Listing → Option Listing} {half : Fault → Site → Site}
    (hhalf : ∀ f s, Untouched prior s → Untouched prior (half f s)) :
    Crashing.Meets (fun s => s = staged prior listing) (operate fault op half fun s => s.inStaging f)
      (fun _ s => ∃ listing', f listing = some listing' ∧ s = staged prior listing') (Untouched prior) := by
  refine meets_operate ?_ ?_ ?_
  · rintro f s - rfl
    exact hhalf f _ ⟨rfl, rfl⟩
  · rintro s - rfl -
    exact ⟨rfl, rfl⟩
  · rintro s s' - rfl heffect
    exact inStaging_staged heffect

/-- A precondition that names a listing. -/
theorem meets_exists {α : Type} {A : Listing → Prop} {m : Writing α} {R : α → Site → Prop}
    (h : ∀ listing, A listing → Crashing.Meets (fun s => s = staged prior listing) m R C) :
    Crashing.Meets (fun s => ∃ listing, A listing ∧ s = staged prior listing) m R C := by
  rintro s ⟨listing, hA, hs⟩
  exact h listing hA s hs

/-- Writing a member, however it ends. -/
theorem meets_writeMember (member : String × Raw) :
    Crashing.Meets (fun s => s = staged prior listing) (writeMember fault member)
      (fun _ s => ∃ listing', stageMember member listing = some listing' ∧ s = staged prior listing')
      (Untouched prior) := by
  refine (meets_inStaging fun _ _ h => h).bind fun _ => meets_exists fun listing₁ h₁ => ?_
  refine (meets_inStaging fun _ _ h => h).bind fun _ => meets_exists fun listing₂ h₂ => ?_
  refine (meets_inStaging ?_).conseq (fun _ h => h) ?_ fun _ h => h
  · intro f s h
    unfold Site.inStaging
    split
    · exact h
    · exact h
  · rintro _ s ⟨listing₃, h₃, hs⟩
    refine ⟨listing₃, ?_, hs⟩
    unfold stageMember
    rw [h₁, Option.bind_eq_bind, Option.bind_some, h₂, Option.bind_some]
    exact h₃

/-- **Writing the members**, however it ends. -/
theorem meets_writeMembers (members : List (String × Raw)) (listing : Listing) :
    Crashing.Meets (fun s => s = staged prior listing) (writeMembers fault members)
      (fun _ s => ∃ listing', stageMembers members listing = some listing' ∧ s = staged prior listing')
      (Untouched prior) := by
  induction members generalizing listing with
  | nil => exact Crashing.Meets.pure fun s hs => ⟨listing, rfl, hs⟩
  | cons member rest ih =>
    refine (meets_writeMember member).bind fun _ => meets_exists fun listing₁ h₁ => ?_
    refine (ih listing₁).conseq (fun _ h => h) ?_ fun _ h => h
    rintro _ s ⟨listing₂, h₂, hs⟩
    refine ⟨listing₂, ?_, hs⟩
    rw [stageMembers, h₁]
    exact h₂

/-- A bundle that was built, and that the loader accepts. -/
def Staged (code : ReleaseCode Bootstrap Envelope) (members : List (String × Raw)) (index : Json) (now : ℚ)
    (listing : Listing) : Prop :=
  stageMembers members [] = some listing ∧ ∃ verified,
    loadCatalogPublicationBundle code (.directory listing) now = .ok verified ∧ verified.pyEq index = true

/-- **Staging**, however it ends. -/
theorem meets_stage : Crashing.Meets (fun s => s = start prior) (stage code fault members index now)
    (fun _ s => ∃ listing, Staged code members index now listing ∧ s = staged prior listing) (Untouched prior) := by
  have hmake : Crashing.Meets (fun s => s = start prior)
      (operate fault .makeStaging unchanged fun s =>
        if s.staging = .absent then some { s with staging := .directory [] } else none)
      (fun _ s => s = staged prior []) (Untouched prior) := by
    refine meets_operate ?_ ?_ ?_
    · rintro f s - rfl
      exact ⟨rfl, rfl⟩
    · rintro s - rfl -
      exact ⟨rfl, rfl⟩
    · rintro s s' - rfl heffect
      exact (Option.some.inj heffect).symm
  refine hmake.bind fun _ => ?_
  refine (meets_writeMembers members []).bind fun _ => meets_exists fun listing hlisting => ?_
  have hread : Crashing.Meets (fun s => s = staged prior listing) (readBundle code fault .readStaging Site.staging now)
      (fun verified s => loadCatalogPublicationBundle code (.directory listing) now = .ok verified ∧
        s = staged prior listing) (Untouched prior) := by
    refine meets_readBundle ?_ ?_ ?_
    · rintro f s - rfl
      exact ⟨rfl, rfl⟩
    · rintro s message rfl -
      exact ⟨rfl, rfl⟩
    · rintro s verified - rfl hload
      exact ⟨hload, rfl⟩
  refine hread.bind fun verified => meets_refuse ?_ ?_
  · rintro s - ⟨-, rfl⟩
    exact ⟨rfl, rfl⟩
  · rintro s heq ⟨hload, rfl⟩
    exact ⟨listing, ⟨hlisting, verified, hload, by simpa using heq⟩, rfl⟩

/-! ### The exchange -/

/-- What stands in the output location: nothing, a link that leads nowhere, or a directory. -/
inductive Ready : Place → Prop
  | absent : Ready .absent
  | brokenLink : Ready .brokenLink
  | directory (listing : Listing) : Ready (.directory listing)

/-- What the moved place leaves behind. -/
def moved (prior : Place) (listing : Listing) : Site := ⟨.absent, .directory listing, prior⟩

/-- The bundle is in its place, and what was there next to it. -/
def published (backup : Place) (listing : Listing) : Site := ⟨.directory listing, .absent, backup⟩

/-- What is in the way of the bundle is moved aside. -/
theorem meets_moveOutput : Crashing.Meets (fun s => s = staged prior listing)
    (whenLook fault .recheckOutput (fun s => s.output.exists) (operate fault .moveOutput unchanged fun s =>
      if s.output.canReplace s.backup then some { s with output := .absent, backup := s.output } else none))
    (fun _ s => prior.exists = false ∧ s = staged prior listing ∨ prior.exists = true ∧ s = moved prior listing)
    (fun s => s.output = prior) := by
  refine meets_whenLook ?_ ?_ (meets_operate ?_ ?_ ?_)
  · rintro f s - rfl
    rfl
  · rintro s - rfl hexists
    exact Or.inl ⟨hexists, rfl⟩
  · rintro f s - ⟨-, rfl, -⟩
    rfl
  · rintro s - ⟨-, rfl, -⟩ -
    rfl
  · rintro s s' - ⟨-, rfl, hexists⟩ heffect
    right
    split at heffect
    · exact ⟨hexists, (Option.some.inj heffect).symm⟩
    · cases heffect

/-- Where nothing was moved aside, nothing is moved back. -/
theorem meets_restoreOutput_staged : Crashing.Meets (fun s => s = staged prior listing) (restoreOutput fault)
    (fun _ _ => False) (fun s => s.output = prior) := by
  have hskip : Crashing.Meets (fun s => s = staged prior listing)
      (whenLook fault .checkMoved (fun s => s.backup.exists) (whenLook fault .checkUnpublished
        (fun s => !s.output.exists) (operate fault .restore unchanged fun s =>
          if s.backup.canReplace s.output then some { s with output := s.backup, backup := .absent } else none)))
      (fun _ s => s = staged prior listing) (fun s => s.output = prior) := by
    refine meets_whenLook ?_ (fun _ _ hs _ => hs) ?_
    · rintro f s - rfl
      rfl
    · rintro s ⟨-, rfl, hexists⟩
      cases hexists
  refine hskip.bind fun _ => Crashing.Meets.raise ?_
  rintro s rfl
  rfl

/-- What was moved aside is moved back, where nothing else fails. -/
theorem meets_restoreOutput_moved {listing' : Listing} (hquiet : ∀ op, op ≠ .publish → struck fault op = none) :
    Crashing.Meets (fun s => s = moved (.directory listing') listing) (restoreOutput fault) (fun _ _ => False)
      (fun s => s.output = .directory listing') := by
  have hnot : ∀ {f : Fault} {op : Operation}, op ≠ .publish → struck fault op = some f → False := by
    intro f op hne hstruck
    rw [hquiet op hne] at hstruck
    cases hstruck
  have hback : Crashing.Meets (fun s => s = moved (.directory listing') listing)
      (whenLook fault .checkMoved (fun s => s.backup.exists) (whenLook fault .checkUnpublished
        (fun s => !s.output.exists) (operate fault .restore unchanged fun s =>
          if s.backup.canReplace s.output then some { s with output := s.backup, backup := .absent } else none)))
      (fun _ s => s.output = .directory listing') (fun s => s.output = .directory listing') := by
    refine meets_whenLook (fun f s hstruck _ => (hnot (by decide) hstruck).elim) ?_
      (meets_whenLook (fun f s hstruck _ => (hnot (by decide) hstruck).elim) ?_
        (meets_operate (fun f s hstruck _ => (hnot (by decide) hstruck).elim) ?_ ?_))
    · rintro s - rfl hexists
      cases hexists
    · rintro s - ⟨-, rfl, -⟩ hexists
      cases hexists
    · rintro s - ⟨-, ⟨-, rfl, -⟩, -⟩ heffect
      cases heffect
    · rintro s s' - ⟨-, ⟨-, rfl, -⟩, -⟩ heffect
      obtain rfl := Option.some.inj heffect
      rfl
  exact hback.bind fun _ => Crashing.Meets.raise fun s hs => hs

/-- **The bundle is moved in**, or what was there is back. -/
theorem meets_publish (hready : Ready prior) : Crashing.Meets
    (fun s => prior.exists = false ∧ s = staged prior listing ∨ prior.exists = true ∧ s = moved prior listing)
    ((operate fault .publish unchanged fun s =>
      if s.staging.canReplace s.output then some { s with output := s.staging, staging := .absent } else none).handle
        (onOsError (restoreOutput fault)))
    (fun _ s => prior ≠ .brokenLink ∧ s = published prior listing) (fun s => s.output = prior) := by
  intro s hs
  unfold Crashing.handle operate
  cases hstruck : struck fault .publish with
  | some f =>
    -- the fault has struck, so the way back is free
    have hquiet : ∀ op, op ≠ .publish → struck fault op = none := by
      intro op hne
      obtain ⟨rfl, hop⟩ := struck_eq_some_iff.mp hstruck
      exact Option.filter_eq_none_iff.mpr fun f' hf' hdecide => hne (hop ▸ Option.some.inj hf' ▸ (of_decide_eq_true hdecide).symm)
    rcases hs with ⟨-, rfl⟩ | ⟨hexists, rfl⟩
    · exact meets_restoreOutput_staged.conseq (fun _ h => h) (fun _ _ h => h.elim) (fun _ h => h) _ rfl
    · cases hready with
      | directory listing' =>
        exact (meets_restoreOutput_moved hquiet).conseq (fun _ h => h) (fun _ _ h => h.elim) (fun _ h => h) _ rfl
      | absent => cases hexists
      | brokenLink => cases hexists
  | none =>
    rcases hs with ⟨hexists, rfl⟩ | ⟨hexists, rfl⟩
    · cases hready with
      | absent => exact ⟨(fun h => nomatch h), rfl⟩
      | brokenLink =>
        -- a directory does not take the place of a link
        exact meets_restoreOutput_staged.conseq (fun _ h => h) (fun _ _ h => h.elim) (fun _ h => h) _ rfl
      | directory listing' => cases hexists
    · refine ⟨?_, rfl⟩
      rintro rfl
      cases hexists

/-- The fault strikes in the exchange, after the bundle was moved in. -/
def StrikesBackup (fault : Option Fault) (prior : Place) : Prop :=
  (struck fault .checkBackup).isSome = true ∨ (struck fault .removeBackup).isSome = true ∧ prior ≠ .absent

/-- **The exchange**, however it ends. -/
theorem meets_exchange (hready : Ready prior) : Crashing.Meets (fun s => s = staged prior listing) (exchange fault)
    (fun _ s => prior ≠ .brokenLink ∧ s.output = .directory listing ∧ s.staging = .absent)
    (fun s => s.output = prior ∨ prior ≠ .brokenLink ∧ s.output = .directory listing ∧ StrikesBackup fault prior) := by
  refine (meets_moveOutput.conseq (fun _ h => h) (fun _ _ h => h) fun _ h => Or.inl h).bind fun _ => ?_
  refine ((meets_publish hready).conseq (fun _ h => h) (fun _ _ h => h) fun _ h => Or.inl h).bind fun _ => ?_
  refine meets_whenLook ?_ ?_ (meets_operate ?_ ?_ ?_)
  · rintro f s hstruck ⟨hlink, rfl⟩
    exact Or.inr ⟨hlink, rfl, Or.inl (by rw [hstruck]; rfl)⟩
  · rintro s - ⟨hlink, rfl⟩ -
    exact ⟨hlink, rfl, rfl⟩
  · rintro f s hstruck ⟨-, ⟨hlink, rfl⟩, hexists⟩
    refine Or.inr ⟨hlink, rfl, Or.inr ⟨by rw [hstruck]; rfl, ?_⟩⟩
    rintro rfl
    cases hexists
  · rintro s - ⟨-, ⟨hlink, rfl⟩, hexists⟩ heffect
    cases hready with
    | absent => cases hexists
    | brokenLink => cases hexists
    | directory listing' => cases heffect
  · rintro s s' - ⟨-, ⟨hlink, rfl⟩, hexists⟩ heffect
    cases hready with
    | absent => cases hexists
    | brokenLink => cases hexists
    | directory listing' =>
      obtain rfl := Option.some.inj heffect
      exact ⟨hlink, rfl, rfl⟩

/-! ### The writer -/

/-- What the writer goes on from: nothing that is seen, or a bundle that it may replace. -/
def Checked (code : ReleaseCode Bootstrap Envelope) (p : Publication Bootstrap Envelope) (prior : Place) : Prop :=
  prior.exists = false ∨ p.force = true ∧ ∃ index, loadCatalogPublicationBundle code prior p.now = .ok index

theorem Checked.ready (h : Checked code p prior) : Ready prior := by
  rcases h with hexists | ⟨-, index, hload⟩
  · cases prior with
    | absent => exact .absent
    | brokenLink => exact .brokenLink
    | _ => cases hexists
  · cases prior with
    | directory listing => exact .directory listing
    | _ => cases hload

/-- Apart from a link that leads nowhere, the bundle can be moved in. -/
theorem Checked.replaceable (h : Checked code p prior) (hlink : prior ≠ .brokenLink) :
    prior = .absent ∨ p.force = true ∧ ∃ index, loadCatalogPublicationBundle code prior p.now = .ok index := by
  rcases h with hexists | hforce
  · cases prior with
    | absent => exact Or.inl rfl
    | brokenLink => exact absurd rfl hlink
    | _ => cases hexists
  · exact Or.inr hforce

/-- A place that exists, however the checks of it end. -/
theorem meets_checkReplaceable : Crashing.Meets (fun s => s = start prior) (checkReplaceable code fault p)
    (fun _ s => Checked code p prior ∧ s = start prior) (fun s => s.output = prior) := by
  have hforce : Crashing.Meets (fun s => s = start prior)
      (refuse (!p.force) "Refusing to overwrite catalog publication bundle; pass --force if intentional")
      (fun _ s => p.force = true ∧ s = start prior) (fun s => s.output = prior) := by
    refine meets_refuse ?_ ?_
    · rintro s - rfl
      rfl
    · rintro s hforce rfl
      exact ⟨by simpa using hforce, rfl⟩
  refine hforce.bind fun _ => ?_
  have hinspect : Crashing.Meets (fun s => p.force = true ∧ s = start prior)
      (whenLook fault .inspectOutput (fun s => !s.output.isDirectory)
        (Crashing.raise (.bootstrap "Existing catalog publication bundle target is unsafe")))
      (fun _ s => p.force = true ∧ s = start prior) (fun s => s.output = prior) := by
    refine meets_whenLook ?_ (fun _ _ hs _ => hs) (Crashing.Meets.raise ?_)
    · rintro f s - ⟨-, rfl⟩
      rfl
    · rintro s ⟨-, ⟨-, rfl⟩, -⟩
      rfl
  refine hinspect.bind fun _ => ?_
  have hread : Crashing.Meets (fun s => p.force = true ∧ s = start prior)
      (readBundle code fault .readOutput Site.output p.now)
      (fun _ s => Checked code p prior ∧ s = start prior) (fun s => s.output = prior) := by
    refine meets_readBundle ?_ ?_ ?_
    · rintro f s - ⟨-, rfl⟩
      rfl
    · rintro s message ⟨-, rfl⟩ -
      rfl
    · rintro s index - ⟨hforce, rfl⟩ hload
      exact ⟨Or.inr ⟨hforce, index, hload⟩, rfl⟩
  exact hread.bind fun _ => Crashing.Meets.pure fun s hs => hs

/-- **The checks of the output location**, however they end. -/
theorem meets_prepareOutput : Crashing.Meets (fun s => s = start prior) (prepareOutput code fault p)
    (fun _ s => p.isRoot = false ∧ Checked code p prior ∧ s = start prior) (fun s => s.output = prior) := by
  have hroot : Crashing.Meets (fun s => s = start prior)
      (refuse p.isRoot "Refusing to use a filesystem root as a catalog publication bundle")
      (fun _ s => p.isRoot = false ∧ s = start prior) (fun s => s.output = prior) := by
    refine meets_refuse ?_ fun s hroot hs => ⟨hroot, hs⟩
    rintro s - rfl
    rfl
  refine hroot.bind fun _ => ?_
  have hlook : Crashing.Meets (fun s => p.isRoot = false ∧ s = start prior)
      (whenLook fault .checkOutput (fun s => s.output.exists) (checkReplaceable code fault p))
      (fun _ s => p.isRoot = false ∧ Checked code p prior ∧ s = start prior) (fun s => s.output = prior) := by
    refine meets_whenLook ?_ ?_ ?_
    · rintro f s - ⟨-, rfl⟩
      rfl
    · rintro s - ⟨hroot, rfl⟩ hexists
      exact ⟨hroot, Or.inl hexists, rfl⟩
    · rintro s ⟨-, ⟨hroot, rfl⟩, -⟩
      exact (meets_checkReplaceable.conseq (fun _ h => h) (fun _ _ h => ⟨hroot, h⟩) fun _ h => h) _ rfl
  refine hlook.bind fun _ => ?_
  have hparent : Crashing.Meets (fun s => p.isRoot = false ∧ Checked code p prior ∧ s = start prior)
      (operate fault .makeParent unchanged some)
      (fun _ s => p.isRoot = false ∧ Checked code p prior ∧ s = start prior) (fun s => s.output = prior) := by
    refine meets_operate ?_ ?_ ?_
    · rintro f s - ⟨-, -, rfl⟩
      rfl
    · rintro s - - heffect
      cases heffect
    · rintro s s' - hs heffect
      obtain rfl := Option.some.inj heffect
      exact hs
  exact hparent.handle fun e k hk => meets_onOsError hk fun s hs => hs

/-- What is left in the output location where the writer is cut short. -/
def Cut (code : ReleaseCode Bootstrap Envelope) (p : Publication Bootstrap Envelope) (fault : Option Fault)
    (prior : Place) (s : Site) : Prop :=
  s.output = prior ∨ ∃ listing, Publishable code p prior listing ∧ s.output = .directory listing ∧ LateFault fault prior

theorem Cut.congr {s s' : Site} (h : Cut code p fault prior s) (houtput : s'.output = s.output) :
    Cut code p fault prior s' := by
  unfold Cut at h ⊢
  rwa [houtput]

/-- The bundle was moved in. -/
def MovedIn (code : ReleaseCode Bootstrap Envelope) (p : Publication Bootstrap Envelope) (prior : Place) (s : Site) :
    Prop :=
  s.staging = .absent ∧ ∃ listing, Publishable code p prior listing ∧ s.output = .directory listing

/-- Building the bundle and moving it in, however they end. -/
theorem meets_body (hroot : p.isRoot = false) (hchecked : Checked code p prior)
    (hprepared : prepareBundle code p = .ok (members, index)) : Crashing.Meets (fun s => s = start prior)
      (stage code fault members index p.now >>= fun _ => exchange fault)
      (fun _ s => MovedIn code p prior s) (Cut code p fault prior) := by
  refine (meets_stage.conseq (fun _ h => h) (fun _ _ h => h) fun _ h => Or.inl h.1).bind fun _ => ?_
  refine meets_exists fun listing hstaged => ?_
  have hpublishable : prior ≠ .brokenLink → Publishable code p prior listing := by
    intro hlink
    obtain ⟨hlisting, verified, hload, heq⟩ := hstaged
    exact ⟨hroot, hchecked.replaceable hlink, members, index, verified, hprepared, hlisting, hload, heq⟩
  refine (meets_exchange hchecked.ready).conseq (fun _ h => h) ?_ ?_
  · rintro _ s ⟨hlink, houtput, hstaging⟩
    exact ⟨hstaging, listing, hpublishable hlink, houtput⟩
  · rintro s (houtput | ⟨hlink, houtput, hstrikes⟩)
    · exact Or.inl houtput
    · refine Or.inr ⟨listing, hpublishable hlink, houtput, ?_⟩
      rcases hstrikes with hstruck | ⟨hstruck, habsent⟩
      · obtain ⟨f, hf⟩ := Option.isSome_iff_exists.mp hstruck
        obtain ⟨hfault, hop⟩ := struck_eq_some_iff.mp hf
        exact ⟨f, hfault, Or.inl hop⟩
      · obtain ⟨f, hf⟩ := Option.isSome_iff_exists.mp hstruck
        obtain ⟨hfault, hop⟩ := struck_eq_some_iff.mp hf
        exact ⟨f, hfault, Or.inr (Or.inr ⟨hop, habsent⟩)⟩

/-- The removal of the staging directory after the bundle was moved in. -/
theorem meets_removeStaging_movedIn : Crashing.Meets (MovedIn code p prior) (removeStaging fault)
    (fun _ => MovedIn code p prior) (Cut code p fault prior) := by
  refine meets_whenLook ?_ (fun _ _ hs _ => hs) ?_
  · rintro f s hstruck ⟨-, listing, hpublishable, houtput⟩
    obtain ⟨hfault, hop⟩ := struck_eq_some_iff.mp hstruck
    exact Or.inr ⟨listing, hpublishable, houtput, f, hfault, Or.inr (Or.inl hop)⟩
  · rintro s ⟨-, ⟨hstaging, -⟩, hexists⟩
    rw [hstaging] at hexists
    cases hexists

/-- It leaves the output location alone. -/
theorem meets_removeStaging_cut : Crashing.Meets (Cut code p fault prior) (removeStaging fault)
    (fun _ => Cut code p fault prior) (Cut code p fault prior) :=
  meets_whenLook (fun _ _ _ hs => hs) (fun _ _ hs _ => hs) fun _ hs => hs.2.1.congr rfl

/-- **The writer**, however it ends. -/
theorem meets_write (code : ReleaseCode Bootstrap Envelope) (p : Publication Bootstrap Envelope)
    (fault : Option Fault) (prior : Place) : Crashing.Meets (fun s => s = start prior) (writeCatalogPublicationBundle code fault p)
    (fun index s => ∃ loaded, loadCatalogPublicationBundle code s.output p.now = .ok loaded ∧ loaded.pyEq index = true)
    (Cut code p fault prior) := by
  have hprepare : Crashing.Meets (fun s => s = start prior)
      (Crashing.lift fun _ => (prepareBundle code p).mapError WriteError.bootstrap)
      (fun prepared s => prepareBundle code p = .ok prepared ∧ s = start prior) (Cut code p fault prior) := by
    refine Crashing.Meets.lift ?_ ?_
    · rintro s prepared rfl hprepared
      refine ⟨?_, rfl⟩
      cases hcase : prepareBundle code p with
      | error message =>
        rw [hcase] at hprepared
        cases hprepared
      | ok prepared' =>
        rw [hcase] at hprepared
        exact congrArg Except.ok (Except.ok.inj hprepared)
    · rintro s rfl
      exact Or.inl rfl
  refine hprepare.bind fun prepared => Crashing.Meets.assume fun hprepared => ?_
  refine (meets_prepareOutput.conseq (fun _ h => h) (fun _ _ h => h) fun _ h => Or.inl h).bind fun _ => ?_
  refine Crashing.Meets.assume fun hroot => Crashing.Meets.assume fun hchecked => ?_
  have hbody : Crashing.Meets (fun s => s = start prior)
      ((stage code fault prepared.1 prepared.2 p.now >>= fun _ => exchange fault).handle
        (onOsError (Crashing.raise (.bootstrap "Could not write catalog publication bundle"))))
      (fun _ s => MovedIn code p prior s) (Cut code p fault prior) :=
    (meets_body hroot hchecked hprepared).handle fun e k hk => meets_onOsError hk fun _ hs => hs
  refine (hbody.andFinally (fun _ => meets_removeStaging_movedIn) meets_removeStaging_cut).bind fun _ => ?_
  refine Crashing.Meets.pure ?_
  rintro s ⟨-, listing, hpublishable, houtput⟩
  obtain ⟨members, index, verified, hprepared', -, hload, heq⟩ := hpublishable.accepted
  rw [hprepared] at hprepared'
  obtain rfl := Except.ok.inj hprepared'
  exact ⟨verified, houtput ▸ hload, heq⟩

/-! ### A fault after the exchange -/

/-- Nothing fails before the bundle is moved in. -/
def QuietBefore (fault : Option Fault) : Prop :=
  ∀ op, op ≠ .checkBackup → op ≠ .checkStaging → op ≠ .removeBackup → struck fault op = none

theorem LateFault.quietBefore (h : LateFault fault prior) : QuietBefore fault := by
  obtain ⟨f, rfl, hop⟩ := h
  intro op hcheck hstaging hremove
  refine Option.filter_eq_none_iff.mpr fun f' hf' hdecide => ?_
  obtain rfl := Option.some.inj hf'
  have heq : f.operation = op := of_decide_eq_true hdecide
  rcases hop with hop | hop | ⟨hop, -⟩
  · exact hcheck (heq.symm.trans hop)
  · exact hstaging (heq.symm.trans hop)
  · exact hremove (heq.symm.trans hop)

/-- An operation that nothing strikes, and that can be done. -/
theorem meets_operate_quiet {half : Fault → Site → Site} {effect : Site → Option Site}
    (hquiet : struck fault op = none) (hdone : ∀ s, P s → ∃ s', effect s = some s' ∧ Q () s') :
    Crashing.Meets P (operate fault op half effect) Q C := by
  refine meets_operate ?_ ?_ ?_
  · intro f s hstruck
    rw [hquiet] at hstruck
    cases hstruck
  · intro s _ hs heffect
    obtain ⟨s', hs', -⟩ := hdone s hs
    rw [heffect] at hs'
    cases hs'
  · intro s s' _ hs heffect
    obtain ⟨s'', hs'', hQ⟩ := hdone s hs
    rw [heffect] at hs''
    obtain rfl := Option.some.inj hs''
    exact hQ

theorem meets_whenLook_quiet {f : Site → Bool} {m : Writing Unit} (hquiet : struck fault op = none)
    (hskip : ∀ s, P s → f s = false → Q () s) (hm : Crashing.Meets (fun s => P s ∧ f s = true) m Q C) :
    Crashing.Meets P (whenLook fault op f m) Q C := by
  refine meets_whenLook ?_ (fun s _ hs => hskip s hs) (Crashing.Meets.assume fun _ => hm)
  intro f s hstruck
  rw [hquiet] at hstruck
  cases hstruck

theorem meets_readBundle_quiet {place : Site → Place} {R : Json → Site → Prop} (hquiet : struck fault op = none)
    (hdone : ∀ s, P s → ∃ index, loadCatalogPublicationBundle code (place s) now = .ok index ∧ R index s) :
    Crashing.Meets P (readBundle code fault op place now) R C := by
  refine meets_readBundle ?_ ?_ ?_
  · intro f s hstruck
    rw [hquiet] at hstruck
    cases hstruck
  · intro s message hs hload
    obtain ⟨index, hindex, -⟩ := hdone s hs
    rw [hload] at hindex
    cases hindex
  · intro s index _ hs hload
    obtain ⟨index', hindex, hR⟩ := hdone s hs
    rw [hload] at hindex
    obtain rfl := Except.ok.inj hindex
    exact hR

theorem meets_writeMember_quiet (hquiet : QuietBefore fault) {member : String × Raw} {listing' : Listing}
    (h : stageMember member listing = some listing') :
    Crashing.Meets (fun s => s = staged prior listing) (writeMember fault member)
      (fun _ s => s = staged prior listing') (fun _ => False) := by
  unfold stageMember at h
  obtain ⟨listing₁, h₁, h⟩ := Option.bind_eq_some_iff.mp h
  obtain ⟨listing₂, h₂, h⟩ := Option.bind_eq_some_iff.mp h
  obtain rfl := Option.some.inj h
  have hmake : Crashing.Meets (fun s => s = staged prior listing)
      (operate fault (.makeMemberDirectories member.1) unchanged fun s =>
        s.inStaging (makeDirectories (parentDirectories member.1)))
      (fun _ s => s = staged prior listing₁) (fun _ => False) := by
    refine meets_operate_quiet (hquiet _ (fun h => nomatch h) (fun h => nomatch h) fun h => nomatch h) ?_
    rintro s rfl
    exact ⟨_, Option.map_eq_some_iff.mpr ⟨listing₁, h₁, rfl⟩, rfl⟩
  have hcreate : Crashing.Meets (fun s => s = staged prior listing₁)
      (operate fault (.createMember member.1) unchanged fun s => s.inStaging (createFile member.1))
      (fun _ s => s = staged prior listing₂) (fun _ => False) := by
    refine meets_operate_quiet (hquiet _ (fun h => nomatch h) (fun h => nomatch h) fun h => nomatch h) ?_
    rintro s rfl
    exact ⟨_, Option.map_eq_some_iff.mpr ⟨listing₂, h₂, rfl⟩, rfl⟩
  refine hmake.bind fun _ => hcreate.bind fun _ => ?_
  refine meets_operate_quiet (hquiet _ (fun h => nomatch h) (fun h => nomatch h) fun h => nomatch h) ?_
  rintro s rfl
  exact ⟨_, rfl, rfl⟩

theorem meets_writeMembers_quiet (hquiet : QuietBefore fault) {listing' : Listing}
    (h : stageMembers members listing = some listing') :
    Crashing.Meets (fun s => s = staged prior listing) (writeMembers fault members)
      (fun _ s => s = staged prior listing') (fun _ => False) := by
  induction members generalizing listing with
  | nil =>
    obtain rfl := Option.some.inj h
    exact Crashing.Meets.pure fun s hs => hs
  | cons member rest ih =>
    obtain ⟨listing₁, h₁, h₂⟩ := Option.bind_eq_some_iff.mp h
    exact (meets_writeMember_quiet hquiet h₁).bind fun _ => ih h₂

/-- The bundle is built, where nothing fails before it is moved in. -/
theorem meets_stage_quiet (hquiet : QuietBefore fault) (hstaged : Staged code members index now listing) :
    Crashing.Meets (fun s => s = start prior) (stage code fault members index now)
      (fun _ s => s = staged prior listing) (fun _ => False) := by
  obtain ⟨hlisting, verified, hload, heq⟩ := hstaged
  have hmake : Crashing.Meets (fun s => s = start prior)
      (operate fault .makeStaging unchanged fun s =>
        if s.staging = .absent then some { s with staging := .directory [] } else none)
      (fun _ s => s = staged prior []) (fun _ => False) := by
    refine meets_operate_quiet (hquiet _ (by decide) (by decide) (by decide)) ?_
    rintro s rfl
    exact ⟨_, rfl, rfl⟩
  have hread : Crashing.Meets (fun s => s = staged prior listing) (readBundle code fault .readStaging Site.staging now)
      (fun v s => v = verified ∧ s = staged prior listing) (fun _ => False) := by
    refine meets_readBundle_quiet (hquiet _ (by decide) (by decide) (by decide)) ?_
    rintro s rfl
    exact ⟨verified, hload, rfl, rfl⟩
  refine hmake.bind fun _ => (meets_writeMembers_quiet hquiet hlisting).bind fun _ => hread.bind fun v => ?_
  refine meets_refuse ?_ fun s _ hs => hs.2
  rintro s hrefused ⟨rfl, -⟩
  rw [heq] at hrefused
  cases hrefused

/-- The bundle is moved in, and what comes after fails. -/
theorem meets_exchange_late (hlate : LateFault fault prior) (hready : Ready prior) (hlink : prior ≠ .brokenLink) :
    Crashing.Meets (fun s => s = staged prior listing) (exchange fault)
      (fun _ s => (struck fault .checkStaging).isSome = true ∧ s.output = .directory listing)
      (fun s => s.output = .directory listing) := by
  have hquiet := hlate.quietBefore
  have hmove : Crashing.Meets (fun s => s = staged prior listing)
      (whenLook fault .recheckOutput (fun s => s.output.exists) (operate fault .moveOutput unchanged fun s =>
        if s.output.canReplace s.backup then some { s with output := .absent, backup := s.output } else none))
      (fun _ s => s = ⟨.absent, .directory listing, prior⟩) (fun s => s.output = .directory listing) := by
    refine meets_whenLook_quiet (hquiet _ (by decide) (by decide) (by decide)) ?_
      (meets_operate_quiet (hquiet _ (by decide) (by decide) (by decide)) ?_)
    · rintro s rfl hexists
      cases hready with
      | absent => rfl
      | brokenLink => exact absurd rfl hlink
      | directory listing' => cases hexists
    · rintro s ⟨rfl, hexists⟩
      cases hready with
      | absent => cases hexists
      | brokenLink => cases hexists
      | directory listing' => exact ⟨_, rfl, rfl⟩
  have hpublish : Crashing.Meets (fun s => s = moved prior listing)
      ((operate fault .publish unchanged fun s =>
        if s.staging.canReplace s.output then some { s with output := s.staging, staging := .absent } else none).handle
          (onOsError (restoreOutput fault)))
      (fun _ s => s = published prior listing) (fun s => s.output = .directory listing) := by
    rintro s rfl
    unfold Crashing.handle operate
    rw [hquiet _ (by decide) (by decide) (by decide)]
    rfl
  refine hmove.bind fun _ => hpublish.bind fun _ => ?_
  obtain ⟨f, hfault, hop⟩ := hlate
  have hstruck : struck fault f.operation = some f := struck_eq_some_iff.mpr ⟨hfault, rfl⟩
  refine meets_whenLook ?_ ?_ (meets_operate ?_ ?_ ?_)
  · rintro f' s - rfl
    rfl
  · rintro s hnone rfl hexists
    refine ⟨?_, rfl⟩
    rcases hop with hop | hop | ⟨hop, habsent⟩
    · rw [hop, hnone] at hstruck
      cases hstruck
    · rw [← hop, hstruck]
      rfl
    · cases hready with
      | absent => exact absurd rfl habsent
      | brokenLink => exact absurd rfl hlink
      | directory listing' => cases hexists
  · rintro f' s - ⟨-, rfl, -⟩
    rfl
  · rintro s - ⟨-, rfl, -⟩ -
    rfl
  · rintro s s' hnone ⟨hnone', rfl, hexists⟩ heffect
    refine ⟨?_, ?_⟩
    · rcases hop with hop | hop | ⟨hop, -⟩
      · rw [hop, hnone'] at hstruck
        cases hstruck
      · rw [← hop, hstruck]
        rfl
      · rw [hop, hnone] at hstruck
        cases hstruck
    · split at heffect
      · obtain rfl := Option.some.inj heffect
        rfl
      · cases heffect

theorem meets_checkReplaceable_quiet (hquiet : QuietBefore fault) (hforce : p.force = true)
    (hload : ∃ index, loadCatalogPublicationBundle code prior p.now = .ok index) :
    Crashing.Meets (fun s => s = start prior) (checkReplaceable code fault p) (fun _ s => s = start prior)
      (fun _ => False) := by
  obtain ⟨index, hload⟩ := hload
  have hforced : Crashing.Meets (fun s => s = start prior)
      (refuse (!p.force) "Refusing to overwrite catalog publication bundle; pass --force if intentional")
      (fun _ s => s = start prior) (fun _ => False) := by
    refine meets_refuse ?_ fun s _ hs => hs
    intro s hrefused
    rw [hforce] at hrefused
    cases hrefused
  have hinspect : Crashing.Meets (fun s => s = start prior)
      (whenLook fault .inspectOutput (fun s => !s.output.isDirectory)
        (Crashing.raise (.bootstrap "Existing catalog publication bundle target is unsafe")))
      (fun _ s => s = start prior) (fun _ => False) := by
    refine meets_whenLook_quiet (hquiet _ (by decide) (by decide) (by decide)) (fun s hs _ => hs) ?_
    rintro s ⟨rfl, hdirectory⟩
    cases prior with
    | directory listing' => cases hdirectory
    | _ => cases hload
  have hread : Crashing.Meets (fun s => s = start prior) (readBundle code fault .readOutput Site.output p.now)
      (fun _ s => s = start prior) (fun _ => False) := by
    refine meets_readBundle_quiet (hquiet _ (by decide) (by decide) (by decide)) ?_
    rintro s rfl
    exact ⟨index, hload, rfl⟩
  exact hforced.bind fun _ => hinspect.bind fun _ => hread.bind fun _ => Crashing.Meets.pure fun s hs => hs

/-- The checks of the output location, where nothing fails. -/
theorem meets_prepareOutput_quiet (hquiet : QuietBefore fault) (hroot : p.isRoot = false)
    (hreplaceable : prior = .absent ∨ p.force = true ∧
      ∃ index, loadCatalogPublicationBundle code prior p.now = .ok index) :
    Crashing.Meets (fun s => s = start prior) (prepareOutput code fault p) (fun _ s => s = start prior)
      (fun _ => False) := by
  have hparent : Crashing.Meets (fun s => s = start prior)
      ((operate fault .makeParent unchanged some).handle
        (onOsError (Crashing.raise (.bootstrap "Could not create catalog publication bundle parent"))))
      (fun _ s => s = start prior) (fun _ => False) := by
    have hmake : Crashing.Meets (fun s => s = start prior) (operate fault .makeParent unchanged some)
        (fun _ s => s = start prior) (fun _ => False) :=
      meets_operate_quiet (hquiet _ (by decide) (by decide) (by decide)) fun s hs => ⟨s, rfl, hs⟩
    exact hmake.handle fun e k hk => meets_onOsError hk fun s hs => hs
  have hroot' : Crashing.Meets (fun s => s = start prior)
      (refuse p.isRoot "Refusing to use a filesystem root as a catalog publication bundle")
      (fun _ s => s = start prior) (fun _ => False) := by
    refine meets_refuse ?_ fun s _ hs => hs
    intro s hrefused
    rw [hroot] at hrefused
    cases hrefused
  refine hroot'.bind fun _ => ?_
  have hcheck : Crashing.Meets (fun s => s = start prior)
      (whenLook fault .checkOutput (fun s => s.output.exists) (checkReplaceable code fault p))
      (fun _ s => s = start prior) (fun _ => False) := by
    refine meets_whenLook_quiet (hquiet _ (by decide) (by decide) (by decide)) (fun s hs _ => hs) ?_
    rintro s ⟨rfl, hexists⟩
    rcases hreplaceable with rfl | ⟨hforce, hload⟩
    · cases hexists
    · exact meets_checkReplaceable_quiet hquiet hforce hload _ rfl
  exact hcheck.bind fun _ => hparent

/-- **The writer**, where it gets to the exchange and the fault strikes after it: it raises, and the bundle stands in
the output location. -/
theorem meets_write_late (hpublishable : Publishable code p prior listing) (hlate : LateFault fault prior) :
    Crashing.Meets (fun s => s = start prior) (writeCatalogPublicationBundle code fault p) (fun _ _ => False)
      (fun s => s.output = .directory listing) := by
  obtain ⟨members, index, verified, hprepared, hlisting, hload, heq⟩ := hpublishable.accepted
  have hquiet := hlate.quietBefore
  have hready : Ready prior ∧ prior ≠ .brokenLink := by
    rcases hpublishable.replaceable with rfl | ⟨-, index', hload'⟩
    · exact ⟨.absent, by decide⟩
    · cases prior with
      | directory listing' => exact ⟨.directory listing', fun h => nomatch h⟩
      | _ => cases hload'
  have hprepare : Crashing.Meets (fun s => s = start prior)
      (Crashing.lift fun _ => (prepareBundle code p).mapError WriteError.bootstrap)
      (fun prepared s => prepared = (members, index) ∧ s = start prior) (fun s => s.output = .directory listing) := by
    rw [hprepared]
    rintro s rfl
    exact ⟨rfl, rfl⟩
  refine hprepare.bind fun prepared => Crashing.Meets.assume ?_
  rintro rfl
  refine ((meets_prepareOutput_quiet hquiet hpublishable.notRoot hpublishable.replaceable).conseq (fun _ h => h)
    (fun _ _ h => h) fun _ h => h.elim).bind fun _ => ?_
  have hbody : Crashing.Meets (fun s => s = start prior)
      ((stage code fault members index p.now >>= fun _ => exchange fault).handle
        (onOsError (Crashing.raise (.bootstrap "Could not write catalog publication bundle"))))
      (fun _ s => (struck fault .checkStaging).isSome = true ∧ s.output = .directory listing)
      (fun s => s.output = .directory listing) := by
    have hstage : Crashing.Meets (fun s => s = start prior) (stage code fault members index p.now)
        (fun _ s => s = staged prior listing) (fun _ => False) :=
      meets_stage_quiet hquiet ⟨hlisting, verified, hload, heq⟩
    exact ((hstage.conseq (fun _ h => h) (fun _ _ h => h) fun _ h => h.elim).bind fun _ =>
      meets_exchange_late hlate hready.1 hready.2).handle fun e k hk => meets_onOsError hk fun _ hs => hs
  have hclean : Crashing.Meets (fun s => s.output = .directory listing) (removeStaging fault)
      (fun _ s => s.output = .directory listing) (fun s => s.output = .directory listing) :=
    meets_whenLook (fun _ _ _ hs => hs) (fun _ _ hs _ => hs) fun _ hs => hs.2.1
  have hraises : Crashing.Meets
      (fun s => (struck fault .checkStaging).isSome = true ∧ s.output = .directory listing) (removeStaging fault)
      (fun _ _ => False) (fun s => s.output = .directory listing) := by
    refine Crashing.Meets.assume fun hstruck => meets_whenLook (fun _ _ _ hs => hs) ?_ ?_
    · intro s hnone
      rw [hnone] at hstruck
      cases hstruck
    · rintro s ⟨hnone, -⟩
      rw [hnone] at hstruck
      cases hstruck
  refine (hbody.andFinally (fun _ => hraises) hclean).bind fun _ => ?_
  rintro s ⟨⟩

/-! ### The result -/

/-- **A publication is atomic** exactly if no operation fails after the bundle was moved in: where the writer gets to
the exchange, and the fault strikes one of the looks after it or the removal of what was moved aside, the writer raises
and leaves the new bundle. Every other fault leaves what was there, and where the writer returns, the loader returns the
same index. -/
theorem publication_atomic_iff (code : ReleaseCode Bootstrap Envelope) (p : Publication Bootstrap Envelope)
    (fault : Option Fault) (prior : Place) :
    PublicationAtomic code p fault prior ↔ ¬∃ listing, Publishable code p prior listing ∧
      ¬(Place.directory listing).Same prior ∧ LateFault fault prior := by
  constructor
  · rintro ⟨-, hraised⟩ ⟨listing, hpublishable, hdiffers, hlate⟩
    have hends := meets_write_late hpublishable hlate _ rfl
    cases hcase : (writeCatalogPublicationBundle code fault p (start prior)).1 with
    | returned index =>
      rw [hcase] at hends
      exact hends
    | raised e =>
      rw [hcase] at hends hraised
      exact hdiffers (hends ▸ hraised fun index h => nomatch h)
    | crashed =>
      rw [hcase] at hends hraised
      exact hdiffers (hends ▸ hraised fun index h => nomatch h)
  · intro hnot
    have hends := meets_write code p fault prior _ rfl
    have hcut : Cut code p fault prior (writeCatalogPublicationBundle code fault p (start prior)).2 →
        (writeCatalogPublicationBundle code fault p (start prior)).2.output.Same prior := by
      rintro (houtput | ⟨listing, hpublishable, houtput, hlate⟩)
      · rw [houtput]
        exact Place.Same.refl prior
      · rw [houtput]
        by_contra hdiffers
        exact hnot ⟨listing, hpublishable, hdiffers, hlate⟩
    unfold PublicationAtomic
    dsimp only
    cases hcase : (writeCatalogPublicationBundle code fault p (start prior)).1 with
    | returned index =>
      rw [hcase] at hends
      refine ⟨?_, fun hraised => absurd rfl (hraised index)⟩
      rintro _ ⟨⟩
      exact hends
    | raised e =>
      rw [hcase] at hends
      exact ⟨(fun index h => nomatch h), fun _ => hcut hends⟩
    | crashed =>
      rw [hcase] at hends
      exact ⟨(fun index h => nomatch h), fun _ => hcut hends⟩

end Drift.Release
