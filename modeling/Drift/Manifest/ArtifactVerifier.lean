import Drift.Lib.Dict
import Drift.Lib.Machine

/-!
# Manifest artifacts on disk

A verifier downloads the artifacts that a manifest declares, one at a time, and hands out a file only
after its size and its digest have been checked. What lies below its cache directory is written by two
programs: the Hub's own cache, and the verifier, which keeps partial files and a snapshot of its own.
Before it downloads, it asks for the space: `free_disk_space_for` looks at the Hub's cache and evicts
from it.

* `freeDiskSpaceFor` — the space check, with the eviction;
* `resumableHubDownload` — one transfer, resumed from a partial file;
* `ensurePath` — the call, with the promotion of a file the Hub's cache has.

The answers of the network and of the volume are arguments of a call. Files are lists of bytes; SHA-256 is
a parameter. A verifier of a local artifact root, which downloads nothing, is left out.
-/

namespace Drift.Manifest

open Drift.Lib

abbrev Bytes := List UInt8

/-- The exceptions of a verifier. -/
inductive ManifestError
  | manifestError (message : String)
  /-- `ManifestTransferInterrupted`, a subclass. -/
  | transferInterrupted (message : String)
  deriving DecidableEq, Repr

/-- `ManifestArtifact`. -/
structure ManifestArtifact where
  role : String
  path : String
  sha256 : String
  size : Nat
  deriving DecidableEq, Repr

/-- A role is among those of the artifacts. -/
def hasRole (artifacts : List ManifestArtifact) (roles : List String) : Bool :=
  artifacts.any fun artifact => roles.contains artifact.role

/-- The source and the artifacts of a `ModelManifest`, as `from_dict` admits them. -/
structure ModelManifest where
  repository : String
  revision : String
  artifacts : List ManifestArtifact
  paths_nodup : (artifacts.map ManifestArtifact.path).Nodup
  roles : hasRole artifacts ["config"] = true ∧ hasRole artifacts ["tokenizer"] = true ∧
    hasRole artifacts ["weight", "converted_weight", "quantized_weight"] = true

/-- `PurePosixPath(path).as_posix()`. -/
def asPosix (path : String) : String :=
  let parts := ((path.toList.splitOn '/').map String.ofList).filter fun part =>
    part != "" && part != "."
  let root :=
    match path.toList with
    | '/' :: '/' :: '/' :: _ => "/"
    | '/' :: '/' :: _ => "//"
    | '/' :: _ => "/"
    | _ => ""
  if root = "" ∧ parts = [] then "." else root ++ "/".intercalate parts

/-- The check of the role. -/
def ManifestArtifact.checkRole (artifact : ManifestArtifact) (allowedRoles : Option (List String)) :
    Except ManifestError Unit :=
  match allowedRoles with
  | some roles =>
    if roles.contains artifact.role then .ok ()
    else .error (.manifestError s!"Artifact '{artifact.path}' has role '{artifact.role}'")
  | none => .ok ()

/-! ### The cache directory -/

/-- A file of the Hub's cache: in the snapshot of a revision, with its blob. -/
structure HubFile where
  repository : String
  revision : String
  path : String
  content : Bytes
  blobLastAccessed : Int

/-- What lies below the cache directory. The verifier's files are below `manifest-artifacts`: partial
files by the digest of the artifact's path, and the snapshot by the path. -/
structure CacheDir where
  hubFiles : List HubFile
  partials : Dict String Bytes
  snapshot : Dict String Bytes

/-- `scan_cache_dir(cache_dir).size_on_disk`: the Hub's repositories alone. -/
def sizeOnDisk (hubFiles : List HubFile) : Nat := (hubFiles.map fun file => file.content.length).sum

/-- The bytes of the artifacts that the verifier has materialized. -/
def CacheDir.materialized (d : CacheDir) : Nat := Dict.sum List.length d.snapshot

/-- The removal of files until enough has been freed: what it freed, and the files that are left. -/
def evict (needed : Int) : List HubFile → Nat → Nat × List HubFile
  | [], freed => (freed, [])
  | file :: files, freed =>
    let freed := freed + file.content.length
    if needed ≤ freed then (freed, files) else evict needed files freed

def osQuota : Int := 1024 ^ 3

/-- `free_disk_space_for`, for the free bytes of the volume. -/
def freeDiskSpaceFor (size : Nat) (maxDiskSpace : Option Int) (free : Int) (hubFiles : List HubFile) :
    Except ManifestError Unit × List HubFile :=
  let available := free - osQuota
  let available :=
    match maxDiskSpace with
    | none => available
    | some maxDiskSpace => min available (maxDiskSpace - sizeOnDisk hubFiles)
  if (size : Int) ≤ available then (.ok (), hubFiles)
  else
    let needed := size - available
    let (freed, hubFiles) :=
      evict needed (hubFiles.insertionSort fun a b => a.blobLastAccessed ≤ b.blobLastAccessed) 0
    if (freed : Int) < needed then
      (.error (.manifestError "Insufficient disk space to load a block"), hubFiles)
    else (.ok (), hubFiles)

/-! ### One transfer -/

/-- What the Hub answers to a request. -/
structure HubResponse where
  /-- The status is 206. -/
  partialContent : Bool
  /-- `Content-Range` begins at the offset that was asked for. -/
  contentRange : Bool
  body : Bytes
  /-- The body arrives to its end. -/
  complete : Bool

/-- A request that raises, or its response. -/
inductive Transfer
  | refused
  | response (r : HubResponse)

/-- What a transfer leaves: its result, the partial file and the final one. -/
structure Downloaded where
  result : Except ManifestError Unit
  partialFile : Option Bytes
  final : Option Bytes

section Verifier

variable (sha256 : Bytes → String)

/-- `_verify_artifact_file`, for a file that is there. -/
def verifyArtifactFile (artifact : ManifestArtifact) (content : Bytes) : Except ManifestError Unit :=
  if content.length ≠ artifact.size then
    .error (.manifestError
      s!"Artifact {artifact.path} has size {content.length}, expected {artifact.size}")
  else if sha256 content ≠ artifact.sha256 then
    .error (.manifestError s!"Artifact {artifact.path} does not match its declared SHA-256")
  else .ok ()

/-- The request, and what becomes of its response. -/
def receive (artifact : ManifestArtifact) (partialFile : Option Bytes) : Transfer → Downloaded
  | .refused =>
    ⟨.error (.transferInterrupted s!"Interrupted download of {artifact.path}"), partialFile, none⟩
  | .response r =>
    let resumed := partialFile.getD []
    if resumed ≠ [] ∧ r.partialContent = true ∧ r.contentRange = false then
      ⟨.error (.manifestError s!"Hub returned an invalid Content-Range while resuming {artifact.path}"),
        partialFile, none⟩
    else
      -- an answer with another status than 206 starts again
      let written := (if r.partialContent then resumed else []) ++ r.body
      if r.complete = false then
        ⟨.error (.transferInterrupted s!"Interrupted download of {artifact.path}"),
          if artifact.size < written.length then none else some written, none⟩
      else
        match verifyArtifactFile sha256 artifact written with
        | .ok () => ⟨.ok (), none, some written⟩
        | .error e => ⟨.error e, if artifact.size ≤ written.length then none else some written, none⟩

/-- `_resumable_hub_download`, for the partial and the final file it finds. -/
def resumableHubDownload (artifact : ManifestArtifact) (partialFile final : Option Bytes)
    (transfer : Transfer) : Downloaded :=
  match final with
  | some content => ⟨verifyArtifactFile sha256 artifact content, partialFile, final⟩
  | none =>
    let partialFile := partialFile.filter fun content => content.length ≤ artifact.size
    match partialFile with
    | some content =>
      if content.length = artifact.size then
        match verifyArtifactFile sha256 artifact content with
        | .ok () => ⟨.ok (), none, some content⟩
        | .error _ => receive sha256 artifact none transfer
      else receive sha256 artifact partialFile transfer
    | none =>
      if artifact.size = 0 then
        -- the file that fails the check is not there, and cannot be removed
        ⟨.error (.manifestError "No such file or directory"), none, none⟩
      else receive sha256 artifact none transfer

/-! ### The verifier -/

/-- Where `_snapshot_root` points: into the Hub's cache, or to the verifier's own snapshot. -/
inductive SnapshotRoot
  | hub
  | manifest
  deriving DecidableEq, Repr

/-- What a `ManifestArtifactVerifier` is made of. -/
structure ManifestArtifactVerifier where
  manifest : ModelManifest
  maxDiskSpace : Option Int

/-- The state of a verifier, with the directory it works in. -/
structure VerifierState where
  dir : CacheDir
  snapshotRoot : Option SnapshotRoot

/-- The arguments of a call, and what the network and the volume answer to it. -/
structure EnsureCall where
  path : String
  allowedRoles : Option (List String)
  free : Int
  transfer : Transfer
  /-- The clock, for the access time of a file. -/
  now : Int
  /-- A partial file that a call leaves behind when it raises is still there at the next one. -/
  keepsPartial : Bool

namespace ManifestArtifactVerifier

variable (v : ManifestArtifactVerifier)

/-- `get_artifact`. -/
def getArtifact (path : String) : Except ManifestError ManifestArtifact :=
  match v.manifest.artifacts.find? (fun artifact => artifact.path == asPosix path) with
  | some artifact => .ok artifact
  | none => .error (.manifestError s!"Artifact '{asPosix path}' is not declared by manifest")

/-- The name of an artifact's partial file. -/
def partialName (artifact : ManifestArtifact) : String := sha256 artifact.path.toUTF8.toList

/-- `hf_hub_download` with `local_files_only`: the cached file, where there is one. -/
def cached (d : CacheDir) (path : String) : Option HubFile :=
  d.hubFiles.find? fun file =>
    file.repository == v.manifest.repository && file.revision == v.manifest.revision && file.path == path

/-- The content of an artifact's file below a root. -/
def contentAt (d : CacheDir) (root : SnapshotRoot) (path : String) : Option Bytes :=
  match root with
  | .hub => (v.cached d path).map HubFile.content
  | .manifest => d.snapshot.lookup path

/-- A file is put below a root. -/
def putAt (d : CacheDir) (root : SnapshotRoot) (path : String) (content : Bytes) (now : Int) : CacheDir :=
  match root with
  | .hub =>
    { d with
      hubFiles := ⟨v.manifest.repository, v.manifest.revision, path, content, now⟩ :: d.hubFiles }
  | .manifest => { d with snapshot := d.snapshot.insert path content }

/-- How `ensure_path` raises what a download has raised: a transfer that can be resumed passes. -/
def raised (artifact : ManifestArtifact) : ManifestError → ManifestError
  | .transferInterrupted message => .transferInterrupted message
  | .manifestError message =>
    .manifestError (s!"Could not materialize declared artifact {artifact.path} from " ++
      s!"{v.manifest.repository}@{v.manifest.revision}: {message}")

/-- The download into the directory: below the root, which is the verifier's own where it has none. -/
def download (d : CacheDir) (root : Option SnapshotRoot) (artifact : ManifestArtifact) (call : EnsureCall) :
    Except ManifestError Unit × CacheDir :=
  let (space, hubFiles) := freeDiskSpaceFor artifact.size v.maxDiskSpace call.free d.hubFiles
  let d := { d with hubFiles := hubFiles }
  match space with
  | .error e => (.error e, d)
  | .ok () =>
    let root := root.getD .manifest
    let name := partialName sha256 artifact
    let downloaded := resumableHubDownload sha256 artifact (d.partials.lookup name)
      (v.contentAt d root artifact.path) call.transfer
    let d := { d with
      partials :=
        match downloaded.partialFile with
        | some content => d.partials.insert name content
        | none => d.partials.erase name }
    match downloaded.final with
    | some content =>
      if (v.contentAt d root artifact.path).isSome then (downloaded.result, d)
      else (downloaded.result, v.putAt d root artifact.path content call.now)
    | none => (downloaded.result, d)

/-- `_verify`, whose memory of earlier successes spares the hash of files that have not changed. -/
def verify (d : CacheDir) (root : SnapshotRoot) (artifact : ManifestArtifact) : Except ManifestError Unit :=
  match v.contentAt d root artifact.path with
  | none => .error (.manifestError s!"Could not read artifact {artifact.path}")
  | some content => verifyArtifactFile sha256 artifact content

/-- `_promote_cached_artifact`, from the Hub's cache into the root. -/
def promote (d : CacheDir) (root : SnapshotRoot) (artifact : ManifestArtifact) (source : HubFile)
    (now : Int) : Except ManifestError Unit × CacheDir :=
  match v.contentAt d root artifact.path with
  | some content => (verifyArtifactFile sha256 artifact content, d)
  | none =>
    match verifyArtifactFile sha256 artifact source.content with
    | .ok () => (.ok (), v.putAt d root artifact.path source.content now)
    | .error e => (.error e, d)

/-- The part of `ensure_path` that gets hold of a file: the root it is below, or what was raised. -/
def materialize (s : VerifierState) (artifact : ManifestArtifact) (call : EnsureCall) :
    Except ManifestError SnapshotRoot × VerifierState :=
  match s.snapshotRoot with
  | some root =>
    if (v.contentAt s.dir root artifact.path).isSome then (.ok root, s)
    else
      match v.cached s.dir artifact.path with
      | some file =>
        let (result, d) := v.promote sha256 s.dir root artifact file call.now
        (result.map fun _ => root, { s with dir := d })
      | none =>
        let (result, d) := v.download sha256 s.dir (some root) artifact call
        ((result.mapError (v.raised artifact)).map fun _ => root, { s with dir := d })
  | none =>
    match v.cached s.dir artifact.path with
    | some _ => (.ok .hub, { s with snapshotRoot := some .hub })
    | none =>
      let (result, d) := v.download sha256 s.dir none artifact call
      ((result.mapError (v.raised artifact)).map fun _ => .manifest,
        { dir := d, snapshotRoot := if result.isOk then some .manifest else none })

/-- `ensure_path`. -/
def ensurePath (s : VerifierState) (call : EnsureCall) : Except ManifestError SnapshotRoot × VerifierState :=
  match v.getArtifact call.path with
  | .error e => (.error e, s)
  | .ok artifact =>
    match artifact.checkRole call.allowedRoles with
    | .error e => (.error e, s)
    | .ok () =>
      match v.materialize sha256 s artifact call with
      | (.error e, s) => (.error e, s)
      | (.ok root, s) => ((v.verify sha256 s.dir root artifact).map fun _ => root, s)

/-! ### Runs of a verifier -/

/-- A call, or a new verifier over the same directory. -/
inductive Event
  | ensurePath (call : EnsureCall)
  | reopen

/-- The state after a call: where it raised, its partial file may be gone. -/
def afterCall (s : VerifierState) (call : EnsureCall) : VerifierState :=
  let (result, s) := v.ensurePath sha256 s call
  if result.isOk || call.keepsPartial then s
  else
    match v.getArtifact call.path with
    | .ok artifact =>
      { s with dir := { s.dir with partials := s.dir.partials.erase (partialName sha256 artifact) } }
    | .error _ => s

/-- Verifiers of a manifest as a machine. -/
def machine : Machine VerifierState Event where
  next s
    | .ensurePath call => some (v.afterCall sha256 s call)
    | .reopen => some { s with snapshotRoot := none }

/-- An empty cache directory. -/
def start : VerifierState := ⟨⟨[], ∅, ∅⟩, none⟩

end ManifestArtifactVerifier

end Verifier

end Drift.Manifest
