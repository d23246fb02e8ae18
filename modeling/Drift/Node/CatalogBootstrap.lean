import Drift.Lib.Crashing
import Drift.Lib.Machine
import Drift.Node.CatalogRollback

/-!
# The first installation from a catalog

`CatalogBootstrapInstaller.install` writes a node configuration from the first mirror whose catalog is
verified and whose manifests can be had, and from the catalog it has cached if there is none. For each of
them it writes the manifests, the cached catalog, the rollback state and the configuration, one after
another; after a failure it reads the rollback state again and goes on with the next one.

Every file operation and every fetch is one tick of the environment, which says how it goes: it may raise
or crash, with or without its effect. Between two installations an operator may put
anything in the place of a configuration, and remove the lock that a crashed installation has left.

* `Installer.tryCandidate`, `Installer.install` — the source's functions;
* `DataDir.next` — the installations and the operator.

To speak of a run, the data directory also keeps the catalogs whose configurations were activated, each
with the rollback state that was on disk then.
-/

namespace Drift.Node

open Drift.Lib

/-! ### The data directory -/

/-- `rollback-state.json`, with the document its text decodes to, `none` where the strict decoding
raises. -/
inductive RollbackFile
  | missing
  | present (document : Option Json)

/-- What is at the path of a configuration. -/
inductive ConfigEntry (Text : Type)
  | file (text : Text)
  | symlink
  | directory

/-- A configuration that was activated, and the rollback state at that moment. -/
structure Activation where
  catalogId : String
  sequence : Int
  digest : String
  rollback : RollbackFile

/-- The data directory and the configurations. What belongs to a catalog is kept by the directory that its
id stands for, manifests by their digest. -/
structure DataDir (Text : Type) where
  manifests : String → Option Text
  cachedCatalog : String → Option Text
  rollback : String → RollbackFile
  config : String → Option (ConfigEntry Text)
  locked : Bool
  activated : List Activation

/-! ### The environment -/

/-- `CatalogBootstrapError`, by what it says. -/
inductive BootstrapRefusal
  | unsafeConfig
  | invalidConfig
  | inProgress
  | cannotLock
  | fetch (url : String)
  | rejected (source : String) (e : ModelCatalogError)
  | manifest (digest : String)
  | selector (selector : String)
  | generatedConfig
  | refusesToReplace
  | cannotWrite
  | writerActive
  | guardUnreadable (e : ModelCatalogError)
  | noCatalog
  deriving DecidableEq, Repr

/-- What `install` raises. -/
inductive InstallError
  | bootstrap (r : BootstrapRefusal)
  | modelCatalog (e : ModelCatalogError)
  /-- `OSError` or `UnicodeError`. -/
  | os
  deriving DecidableEq, Repr

/-- How a file operation goes. -/
inductive FileOutcome
  | succeeds
  /-- It raises, where the source turns the exception into its own (`converted`) or does not. -/
  | raises (done converted : Bool)
  | crashes (done : Bool)
  deriving DecidableEq, Repr

/-- What a mirror answers. -/
inductive FetchOutcome (Text : Type)
  | answers (text : Text)
  | fails
  | raises
  | crashes

/-- What the file system, the mirrors and the clock do at each tick. -/
structure Environment (Text : Type) where
  file : Nat → FileOutcome
  fetch : Nat → String → FetchOutcome Text
  timeMs : Nat → Int

/-- `ModelManifest`, with the fields that the installation reads. -/
structure ModelManifest where
  name : String
  aliases : List String
  digest : String
  deriving DecidableEq, Repr

/-- `ModelManifest.digest_id`. -/
def ModelManifest.digestId (m : ModelManifest) : String := "sha256:" ++ m.digest

/-- Parsing and rendering. A parser that raises is `none` or an error. -/
structure CatalogCode (Text : Type) (prim : CatalogPrimitives CatalogFields) where
  /-- `SignedModelCatalog.from_json`, and the rendering of `to_dict`. -/
  catalogFromJson : Text → Except ModelCatalogError (SignedModelCatalog prim)
  catalogToJson : SignedModelCatalog prim → Text
  /-- `ModelManifest.from_json` and `canonical_json`. -/
  manifestFromJson : Text → Option ModelManifest
  manifestToJson : ModelManifest → Text
  casefold : String → String
  /-- `data_dir / "catalogs" / catalog_id`. Different ids may stand for one directory. -/
  catalogDir : String → String
  /-- `_render_node_config`, for a configuration path, a catalog and the digests of its manifests. -/
  renderNodeConfig : String → ModelCatalog prim → List String → Option Text
  /-- `len(NodeConfig.load(path).models)`. -/
  loadNodeConfig : Text → Option Nat

/-- `CatalogBootstrapInstaller`: the trust root and the mirrors of its bootstrap configuration, the path
of the node configuration, and the time it was given. -/
structure Installer where
  trustRoot : CatalogTrustRoot
  catalogMirrors : List String
  configPath : String
  nowMs : Option Int

/-- `CatalogBootstrapResult`. -/
structure BootstrapResult where
  configPath : String
  catalogId : String
  catalogSequence : Int
  catalogDigest : String
  modelCount : Nat
  source : String
  created : Bool
  deriving DecidableEq, Repr

/-- The data directory and the number of the next tick. -/
structure Installation (Text : Type) where
  dir : DataDir Text
  tick : Nat

/-- A part of an installation. -/
abbrev Install (Text α : Type) : Type := Crashing (Installation Text) InstallError α

variable {Text : Type} {prim : CatalogPrimitives CatalogFields}

/-! ### Operations -/

section Operations

variable (env : Environment Text)

/-- The next tick, after a change of the data directory if there is one. -/
def Installation.advance (s : Installation Text) (done : Bool) (effect : DataDir Text → DataDir Text) :
    Installation Text where
  dir := if done then effect s.dir else s.dir
  tick := s.tick + 1

/-- A file operation, and the exception its `OSError` is turned into. -/
def operation (converted : InstallError) (effect : DataDir Text → DataDir Text) : Install Text Unit :=
  fun s =>
    match env.file s.tick with
    | .succeeds => (.returned (), s.advance true effect)
    | .raises done isConverted =>
      (.raised (if isConverted then converted else .os), s.advance done effect)
    | .crashes done => (.crashed, s.advance done effect)

/-- A look at the data directory, which may raise or crash. -/
def look {α : Type} (converted : InstallError) (f : DataDir Text → α) : Install Text α := do
  operation env converted id
  .lift fun s => .ok (f s.dir)

/-- `fetch_text`. -/
def fetchText (url : String) : Install Text Text := fun s =>
  let s' := s.advance false id
  match env.fetch s.tick url with
  | .answers text => (.returned text, s')
  | .fails => (.raised (.bootstrap (.fetch url)), s')
  | .raises => (.raised .os, s')
  | .crashes => (.crashed, s')

/-- `_atomic_write` with `overwrite=True`. -/
def atomicWrite (effect : DataDir Text → DataDir Text) : Install Text Unit :=
  operation env (.bootstrap .cannotWrite) effect

/-- `_atomic_write` with `overwrite=False` of a configuration, and the note that is made of it. -/
def writeNew (path : String) (text : Text) (activation : DataDir Text → Activation) :
    Install Text Unit := do
  let present ← look env (.bootstrap .cannotWrite) fun d => (d.config path).isSome
  if present then .raise (.bootstrap .refusesToReplace)
  else
    atomicWrite env fun d => { d with
      config := Function.update d.config path (some (.file text))
      activated := d.activated ++ [activation d] }

/-- `except CatalogBootstrapError`. -/
def exceptBootstrap {α : Type} (m : Install Text α) (h : Install Text α) : Install Text α :=
  m.handle fun e =>
    match e with
    | .bootstrap _ => some h
    | _ => none

end Operations

/-! ### The rollback state on disk -/

/-- `CatalogRollbackGuard.load` of a file that was read. -/
def RollbackFile.load (prim : CatalogPrimitives CatalogFields) :
    RollbackFile → Except ModelCatalogError (CatalogRollbackGuard prim)
  | .missing => .ok .empty
  | .present none => refuseCatalog "Invalid catalog rollback state JSON"
  | .present (some document) => CatalogRollbackGuard.fromDict prim document

namespace Installer

variable (i : Installer) (env : Environment Text) (code : CatalogCode Text prim)

/-- `self.catalog_dir`. -/
def catalogDir : String := code.catalogDir i.trustRoot.catalogId

/-- `CatalogRollbackGuard.load(self.rollback_path)`, with the error it is turned into. -/
def loadGuard : Install Text (CatalogRollbackGuard prim) := do
  let file ← look env (.bootstrap (.guardUnreadable ⟨"Could not read catalog rollback state"⟩))
    fun d => d.rollback (i.catalogDir code)
  .lift fun _ => (file.load prim).mapError fun e => .bootstrap (.guardUnreadable e)

/-- `guard.save(self.rollback_path)`. -/
def saveGuard (g : CatalogRollbackGuard prim) : Install Text Unit :=
  operation env (.modelCatalog ⟨"Could not write catalog rollback state"⟩) fun d => { d with
    rollback := Function.update d.rollback (i.catalogDir code) (.present (some g.toDict)) }

/-! ### Manifests -/

/-- The manifest a text holds, if it is the one that is asked for. -/
def manifestOf (manifestDigest : String) (text : Text) : Option ModelManifest :=
  (code.manifestFromJson text).filter fun m => m.digestId == manifestDigest

/-- The cached manifest, if it is there and right. -/
def cachedManifest (manifestDigest : String) : Install Text (Option ModelManifest) := do
  let text ← look env (.bootstrap (.manifest manifestDigest)) fun d =>
    d.manifests ((Identity.stripSha256 manifestDigest).getD manifestDigest)
  pure (text.bind (manifestOf code manifestDigest))

/-- The loop over the mirrors of a manifest. -/
def fetchManifest (manifestDigest : String) : List String → Install Text (Option ModelManifest)
  | [] => pure none
  | url :: urls => do
    let manifest ← exceptBootstrap
      (do let text ← fetchText env url
          pure (manifestOf code manifestDigest text))
      (pure none)
    match manifest with
    | some m => pure (some m)
    | none => fetchManifest manifestDigest urls

/-- The manifest of a model, from the cache or from its mirrors. -/
def obtainManifest (model : CatalogModel) : Install Text (Option ModelManifest) := do
  let cached ← exceptBootstrap (cachedManifest env code model.manifestDigest) (pure none)
  match cached with
  | some m => pure (some m)
  | none => fetchManifest env code model.manifestDigest model.manifestUrls

/-- The check of a manifest's selectors against those before it. -/
def addSelectors (selectors : Dict String String) (m : ModelManifest) :
    Except InstallError (Dict String String) :=
  (m.name :: m.aliases).foldlM (fun known selector =>
    let folded := code.casefold selector
    match known.lookup folded with
    | some previous =>
      if previous ≠ m.digestId then .error (.bootstrap (.selector selector))
      else .ok (known.insert folded m.digestId)
    | none => .ok (known.insert folded m.digestId)) selectors

/-- `_install_manifests`: the digests of the manifests that were written. -/
def installManifests : List CatalogModel → Dict String String → Install Text (List String)
  | [], _ => pure []
  | model :: models, selectors => do
    let manifest ← obtainManifest env code model
    match manifest with
    | none => .raise (.bootstrap (.manifest model.manifestDigest))
    | some m =>
      let selectors ← .lift fun _ => addSelectors code selectors m
      atomicWrite env fun d => { d with
        manifests := Function.update d.manifests m.digest (some (code.manifestToJson m)) }
      let rest ← installManifests models selectors
      pure (m.digest :: rest)

/-! ### Candidates -/

/-- `_load_catalog`: the verified catalog and the guard that has accepted it. -/
def loadCatalog (source : String) (rendered : Text) (g : CatalogRollbackGuard prim) :
    Install Text (ModelCatalog prim × CatalogRollbackGuard prim) :=
  .lift fun s =>
    (do let envelope ← code.catalogFromJson rendered
        envelope.verify i.trustRoot (i.nowMs.getD (env.timeMs s.tick)) g).mapError fun e =>
      .bootstrap (.rejected source e)

/-- The writing of the configuration under the lock of its writers. -/
def activate (text : Text) (c : ModelCatalog prim) : Install Text Unit := do
  -- `node_config_write_lock`, which makes its own error of an `OSError` inside
  operation env (.bootstrap .writerActive) id
  let write := writeNew env i.configPath text fun d =>
    ⟨c.catalogId, c.sequence, c.digest, d.rollback (i.catalogDir code)⟩
  (write.handle fun e => if e = .os then some (.raise (.bootstrap .writerActive)) else none).andFinally
    (operation env .os id)

/-- `_try_candidate`. -/
def tryCandidate (source : String) (rendered : Text) (persisted : CatalogRollbackGuard prim) :
    Install Text BootstrapResult := do
  let guard ← .lift fun _ =>
    (CatalogRollbackGuard.fromDict prim persisted.toDict).mapError .modelCatalog
  let (catalog, guard) ← i.loadCatalog env code source rendered guard
  let manifests ← installManifests env code catalog.models ∅
  let text ← .lift fun _ =>
    match code.renderNodeConfig i.configPath catalog manifests with
    | some text => .ok text
    | none => .error (.bootstrap .generatedConfig)
  let envelope ← .lift fun _ => (code.catalogFromJson rendered).mapError .modelCatalog
  atomicWrite env fun d => { d with
    cachedCatalog :=
      Function.update d.cachedCatalog (i.catalogDir code) (some (code.catalogToJson envelope)) }
  i.saveGuard env code guard
  -- `self.config_path.parent.mkdir`
  operation env .os id
  i.activate env code text catalog
  pure ⟨i.configPath, catalog.catalogId, catalog.sequence, catalog.digest, manifests.length, source, true⟩

/-- `_existing_result`. -/
def existingResult : Install Text BootstrapResult := do
  let entry ← look env (.bootstrap .invalidConfig) fun d => d.config i.configPath
  match entry with
  | some (.file text) =>
    match code.loadNodeConfig text with
    | some models => pure ⟨i.configPath, i.trustRoot.catalogId, 0, "", models, "existing-config", false⟩
    | none => .raise (.bootstrap .invalidConfig)
  | _ => .raise (.bootstrap .invalidConfig)

/-- The loop of `install` over the mirrors: the result, or the guard it has read last. -/
def tryMirrors : List String → CatalogRollbackGuard prim →
    Install Text (BootstrapResult ⊕ CatalogRollbackGuard prim)
  | [], persisted => pure (.inr persisted)
  | url :: urls, persisted => do
    let outcome ← exceptBootstrap
      (do let rendered ← fetchText env url
          let result ← i.tryCandidate env code url rendered persisted
          pure (some result))
      (pure none)
    match outcome with
    | some result => pure (.inl result)
    | none =>
      let reloaded ← i.loadGuard env code
      tryMirrors urls reloaded

/-- The part of `install` after the mirrors: the catalog that is cached. -/
def tryCached (persisted : CatalogRollbackGuard prim) : Install Text BootstrapResult := do
  let cached ← look env .os fun d => (d.cachedCatalog (i.catalogDir code)).isSome
  if cached then
    Crashing.handle
      (do let text ← look env .os fun d => d.cachedCatalog (i.catalogDir code)
          match text with
          | some rendered => i.tryCandidate env code "last-known-good cache" rendered persisted
          | none => .raise .os)
      fun e =>
        match e with
        | .modelCatalog _ => none
        | _ => some (.raise (.bootstrap .noCatalog))
  else .raise (.bootstrap .noCatalog)

/-- The configuration is a regular file. -/
def hasConfig (d : DataDir Text) : Bool :=
  match d.config i.configPath with
  | some (.file _) => true
  | _ => false

/-- The part of `install` under the lock. -/
def installLocked : Install Text BootstrapResult := do
  let present ← look env .os i.hasConfig
  if present then i.existingResult env code
  else
    let persisted ← i.loadGuard env code
    let outcome ← i.tryMirrors env code i.catalogMirrors persisted
    match outcome with
    | .inl result => pure result
    | .inr persisted => i.tryCached env code persisted

/-- `install`. -/
def install : Install Text BootstrapResult := do
  let entry ← look env .os fun d => d.config i.configPath
  match entry with
  | some .symlink => .raise (.bootstrap .unsafeConfig)
  | some (.file _) => i.existingResult env code
  | _ =>
    -- `os.open` with `O_CREAT | O_EXCL`
    let locked ← look env (.bootstrap .cannotLock) fun d => d.locked
    if locked then .raise (.bootstrap .inProgress)
    else
      operation env (.bootstrap .cannotLock) fun d => { d with locked := true }
      (i.installLocked env code).andFinally (operation env .os fun d => { d with locked := false })

end Installer

/-! ### Runs -/

/-- An installation, or the operator. -/
inductive BootstrapEvent (Text : Type)
  | install (i : Installer) (env : Environment Text)
  | placeConfig (path : String) (entry : Option (ConfigEntry Text))
  | unlock

def DataDir.next (code : CatalogCode Text prim) (d : DataDir Text) :
    BootstrapEvent Text → Option (DataDir Text)
  | .install i env => some (i.install env code ⟨d, 0⟩).2.dir
  | .placeConfig path entry => some { d with config := Function.update d.config path entry }
  | .unlock => some { d with locked := false }

/-- The installations over one data directory. -/
def bootstrapMachine (code : CatalogCode Text prim) : Machine (DataDir Text) (BootstrapEvent Text) :=
  ⟨DataDir.next code⟩

end Drift.Node
