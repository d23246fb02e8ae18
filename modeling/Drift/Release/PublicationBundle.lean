import Drift.Lib.Occurrences
import Drift.Manifest.ModelManifest
import Drift.Node.CatalogRollback

/-!
# Publication bundles

A release of a catalog is published as a directory: the bootstrap, the signed catalog, the report of the preflight
and one file for each manifest, with an index that names every file, its size and its digest. The loader accepts a
directory that holds these files and no others, each in its canonical form, where the report is the one that the
documents give at that time.

* `verifyCatalogPublicationBundle` — the checks of the documents, and the report;
* `loadCatalogPublicationBundle` — the loader.

The documents of the catalog and of the bootstrap are read and rendered elsewhere: `ReleaseCode` has what is
called of them.
-/

namespace Drift.Release

open Drift.Lib Drift.Identity Drift.Manifest

def publicationPreflightSchemaVersion : Int := 1
def maxPublicationPreflightBytes : Nat := 1024 * 1024
def catalogPublicationBundleSchemaVersion : Int := 1
def catalogPublicationBundleIndexName : String := "bundle.json"
def maxCatalogPublicationBundleMemberBytes : Nat := 16 * 1024 * 1024
def maxCatalogPublicationBundleTotalBytes : Nat := 64 * 1024 * 1024
def seedHostProtocols : List String := ["dns", "dns4", "dns6", "ip4", "ip6"]
def fixedBundleMemberPaths : List String :=
  ["catalog-bootstrap.json", "catalog.signed.json", "publication-preflight.json"]

/-! ### Directories -/

/-- The bytes of a file: those of a text, or bytes that are none. -/
inductive Raw
  | text (s : String)
  | binary (bytes : List UInt8)
  deriving DecidableEq

def Raw.size : Raw → Nat
  | .text s => s.utf8ByteSize
  | .binary bytes => bytes.length

/-- What a directory has under a path. -/
inductive Entry
  | file (raw : Raw)
  | directory
  | link
  | special
  deriving DecidableEq

/-- All that is in a directory and below, as `rglob` lists it. Links are not followed. -/
abbrev Listing : Type := List (String × Entry)

/-- What is at a location. -/
inductive Place
  | absent
  | directory (listing : Listing)
  | file (raw : Raw)
  | special
  | link
  | brokenLink
  deriving DecidableEq

/-- `Path.exists`, which follows links. -/
def Place.exists : Place → Bool
  | .absent => false
  | .brokenLink => false
  | _ => true

/-! ### Documents -/

/-- `CatalogModel`, `CatalogRung` and `ModelCatalog`, with the fields that are read here. -/
structure CatalogModel where
  manifestDigest : String
  weightBytes : Int

structure CatalogRung where
  rungId : String
  minimumReplicas : Int
  minimumIndependentRoutes : Int
  minimumSurvivingReplicas : Int

structure ModelCatalog where
  catalogId : String
  sequence : Int
  digest : String
  models : List CatalogModel
  rungs : List CatalogRung

/-- What is called of other modules and of the libraries. A reader or a check that raises is an error. -/
structure ReleaseCode (Bootstrap Envelope : Type) where
  /-- `CatalogBootstrapConfig`: `from_json`, `to_dict` and its fields. -/
  bootstrapFromJson : String → Except String Bootstrap
  bootstrapToDict : Bootstrap → Json
  trustRootCatalogId : Bootstrap → String
  catalogMirrors : Bootstrap → List String
  initialPeers : Bootstrap → List String
  /-- `SignedModelCatalog`: `from_json`, `to_dict`, and `verify` against the trust root of a bootstrap. -/
  envelopeFromJson : String → Except String Envelope
  envelopeToDict : Envelope → Json
  verifyEnvelope : Envelope → Bootstrap → ℚ → Except String ModelCatalog
  manifestLibrary : ManifestLibrary
  /-- `json.loads` with the hooks that refuse duplicate keys and constants. -/
  loads : String → Option Json
  sha256Hex : Raw → String
  /-- `urlsplit(url).hostname`. -/
  hostname : String → Option String

variable {Bootstrap Envelope : Type} (code : ReleaseCode Bootstrap Envelope)

/-- `if condition: raise CatalogBootstrapError(message)`. -/
def raiseIf (condition : Bool) (message : String) : Except String Unit :=
  if condition then .error message else .ok ()

/-- `_sha256_digest_bytes`. -/
def sha256DigestBytes (value : Raw) : String := "sha256:" ++ code.sha256Hex value

/-- `_canonical_json_bytes`. -/
def canonicalJsonBytes (value : Json) : Raw := .text (value.dumps ++ "\n")

/-- `ModelManifest.digest`, `ModelManifest.digest_id`, and the bytes of its member. -/
def manifestDigest (m : ModelManifestV1) : String := m.digest fun s => code.sha256Hex (.text s)

def manifestDigestId (m : ModelManifestV1) : String := "sha256:" ++ manifestDigest code m

def manifestBytes (m : ModelManifestV1) : Raw := .text (m.canonicalJson ++ "\n")

def manifestPath (m : ModelManifestV1) : String := "manifests/" ++ manifestDigest code m ++ ".json"

/-- `catalog_bootstrap_digest`. -/
def catalogBootstrapDigest (bootstrap : Bootstrap) : String :=
  sha256DigestBytes code (.text (code.bootstrapToDict bootstrap).dumps)

/-! ### The checks of the documents -/

/-- `_mirror_hosts`. -/
def mirrorHosts (bootstrap : Bootstrap) : Except String (List String) := do
  let hosts := (code.catalogMirrors bootstrap).map fun url =>
    code.manifestLibrary.casefold ((code.hostname url).getD "")
  raiseIf hosts.isEmpty "Publication requires at least one catalog mirror"
  raiseIf (!decide hosts.Nodup) "Publication catalog mirrors must use distinct network hosts"
  return hosts

/-- `str.rpartition`, where the separator is found. -/
def rpartition (text separator : List Char) : Option (List Char × List Char) :=
  (find text.reverse separator.reverse).map fun i =>
    ((text.reverse.drop (i + separator.length)).reverse, (text.reverse.take i).reverse)

/-- A seed: its host, its endpoint and its peer identifier. -/
structure SeedComponent where
  host : String
  endpoint : String
  peerId : String

def seedComponent (peer : String) : Except String SeedComponent := do
  let (endpoint, peerId) := (rpartition peer.toList "/p2p/".toList).getD ([], peer.toList)
  raiseIf (endpoint.isEmpty || peerId.isEmpty || peerId.contains '/')
    "Publication seed addresses must end with exactly one /p2p/<peer-id> component"
  let addressParts := ((endpoint.splitOn '/').tail).map String.ofList
  match (addressParts.zip addressParts.tail).find? fun p => seedHostProtocols.contains p.1 && !p.2.isEmpty with
  | none => .error "Publication seed addresses must contain a direct DNS or IP network host"
  | some p =>
    return ⟨code.manifestLibrary.casefold p.2, code.manifestLibrary.casefold (String.ofList endpoint),
      String.ofList peerId⟩

/-- `_seed_components`. -/
def seedComponents (bootstrap : Bootstrap) : Except String (List SeedComponent) := do
  raiseIf (code.initialPeers bootstrap).isEmpty "Publication requires at least one public seed"
  let components ← (code.initialPeers bootstrap).mapM (seedComponent code)
  raiseIf (!decide (components.map SeedComponent.host).Nodup) "Publication seeds must use distinct network hosts"
  raiseIf (!decide (components.map SeedComponent.endpoint).Nodup)
    "Publication seeds must use distinct network addresses"
  raiseIf (!decide (components.map SeedComponent.peerId).Nodup)
    "Publication seeds must use distinct libp2p peer identities"
  return components

/-- One selector of a manifest, on top of those that were seen. -/
def addSelector (digestId : String) (selectors : List (String × String)) (selector : String) :
    Except String (List (String × String)) := do
  let folded := code.manifestLibrary.casefold selector
  raiseIf (match selectors.lookup folded with
      | some previousDigest => previousDigest != digestId
      | none => false)
    s!"Publication manifests reuse model selector '{selector}' across different digests"
  return (folded, digestId) :: selectors

/-- One model of the catalog against its manifest. -/
def checkModel (manifests : List ModelManifestV1) (selectors : List (String × String)) (model : CatalogModel) :
    Except String (List (String × String)) := do
  match manifests.find? fun m => manifestDigestId code m == model.manifestDigest with
  | none => .error s!"Publication is missing catalog manifest(s): {model.manifestDigest}"
  | some m =>
    let declaredWeightBytes : Nat := ((m.artifacts.filter fun a => a.role == "weight").map ManifestArtifact.size).sum
    raiseIf (model.weightBytes != declaredWeightBytes)
      (s!"Catalog weight_bytes for {model.manifestDigest} is {model.weightBytes}, " ++
        s!"but its exact manifest declares {declaredWeightBytes}")
    (m.name :: m.aliases).foldlM (addSelector code (manifestDigestId code m)) selectors

def checkRung (rung : CatalogRung) : Except String Unit :=
  raiseIf (decide (rung.minimumReplicas < 1 ∨ rung.minimumIndependentRoutes < 1 ∨ rung.minimumSurvivingReplicas < 1))
    (s!"Publication rung '{rung.rungId}' must require at least one complete replica, " ++
      "one route, and one surviving replica")

/-- What the report does not cover. -/
def notCovered : List String :=
  ["cross-platform and multi-machine model qualification",
    "mirror and seed redundancy or independent operator ownership",
    "public-worker route redundancy and soak", "packaged clean-install inference"]

/-- The report, in the order of the keys, which is the order of its text. -/
def preflightReport (bootstrap : Bootstrap) (catalog : ModelCatalog) (mirrors : List String)
    (seeds : List SeedComponent) : List (String × Json) :=
  [("bootstrap_digest", .str (catalogBootstrapDigest code bootstrap)), ("catalog_digest", .str catalog.digest),
    ("catalog_id", .str catalog.catalogId), ("catalog_mirror_count", .int mirrors.length),
    ("catalog_sequence", .int catalog.sequence), ("complete_release_qualification", .bool false),
    ("distinct_seed_address_count", .int seeds.length),
    ("distinct_seed_host_count", .int (seeds.map SeedComponent.host).dedup.length),
    ("distinct_seed_identity_count", .int (seeds.map SeedComponent.peerId).dedup.length),
    ("model_count", .int catalog.models.length), ("not_covered", .arr (notCovered.map .str)),
    ("result", .str "passed"), ("rung_count", .int catalog.rungs.length),
    ("schema_version", .int publicationPreflightSchemaVersion),
    ("scope", .str "catalog-publication-transport-preflight")]

/-- `verify_catalog_publication_bundle`, at the time `now`: the fields of its report. -/
def verifyCatalogPublicationBundle (bootstrap : Bootstrap) (envelope : Envelope) (manifests : List ModelManifestV1)
    (now : ℚ) : Except String (List (String × Json)) := do
  let mirrors ← mirrorHosts code bootstrap
  let seeds ← seedComponents code bootstrap
  let catalog ← code.verifyEnvelope envelope bootstrap now
  let supplied := manifests.map (manifestDigestId code)
  let expected := catalog.models.map CatalogModel.manifestDigest
  raiseIf (!decide supplied.Nodup) "Publication contains duplicate manifest"
  raiseIf (expected.any fun d => !supplied.contains d) "Publication is missing catalog manifest(s)"
  raiseIf (supplied.any fun d => !expected.contains d) "Publication contains manifest(s) absent from the catalog"
  let _ ← catalog.models.foldlM (checkModel code manifests) []
  catalog.rungs.forM checkRung
  return preflightReport code bootstrap catalog mirrors seeds

/-- `dict.get(key)`. -/
def field (fields : List (String × Json)) (key : String) : Json := (fields.lookup key).getD .null

/-- `verify_catalog_publication_preflight_report`: the fields that it keeps. -/
def verifyPreflightReport (bootstrap : Bootstrap) (report : List (String × Json)) :
    Except String (List (String × Json)) := do
  match field report "schema_version", field report "catalog_sequence", field report "catalog_digest" with
  | .int schemaVersion, catalogSequence, catalogDigest =>
    raiseIf (schemaVersion != publicationPreflightSchemaVersion) "Unsupported publication preflight schema version"
    raiseIf (!(field report "scope").pyEq (.str "catalog-publication-transport-preflight"))
      "Publication preflight report has an unexpected scope"
    raiseIf (!(field report "result").pyEq (.str "passed")) "Publication preflight report did not pass"
    raiseIf (match field report "complete_release_qualification" with
        | .bool false => false
        | _ => true)
      "Publication preflight must explicitly retain incomplete release qualification"
    raiseIf (!(field report "catalog_id").pyEq (.str (code.trustRootCatalogId bootstrap)))
      "Publication preflight catalog_id does not match the bootstrap trust root"
    raiseIf (match catalogSequence with
        | .int n => decide (n < 1)
        | _ => true)
      "Publication preflight catalog_sequence must be an integer >= 1"
    raiseIf (match catalogDigest with
        | .str s => !Node.isDigestId s
        | _ => true)
      "Publication preflight catalog_digest must be a canonical SHA-256 digest"
    raiseIf (!(field report "bootstrap_digest").pyEq (.str (catalogBootstrapDigest code bootstrap)))
      "Publication preflight does not match the exact bootstrap config"
    return [("schema_version", .int schemaVersion), ("scope", field report "scope"),
      ("result", field report "result"), ("catalog_id", field report "catalog_id"),
      ("catalog_sequence", catalogSequence), ("catalog_digest", catalogDigest),
      ("bootstrap_digest", field report "bootstrap_digest"), ("complete_release_qualification", .bool false)]
  | _, _, _ => .error "Unsupported publication preflight schema version"

/-! ### The loader -/

/-- `_load_strict_json_document`. -/
def loadStrictJsonDocument (source : Raw) (name : String) : Except String (List (String × Json)) :=
  match source with
  | .binary _ => .error s!"{name} is not valid UTF-8"
  | .text s =>
    match code.loads s with
    | none => .error s!"Invalid {name} JSON"
    | some (.obj fields) => .ok fields
    | some _ => .error s!"{name} must be a JSON object"

/-- `_bundle_member_bytes`. -/
def bundleMemberBytes (root : Listing) (relativePath : String) (maximumBytes : Nat) : Except String Raw :=
  match root.lookup relativePath with
  | some (.file raw) => do
    raiseIf (decide (raw.size < 1 ∨ maximumBytes < raw.size))
      s!"Catalog publication bundle member {relativePath} must be between 1 and {maximumBytes} bytes"
    return raw
  | _ => .error s!"Catalog publication bundle member is missing or unsafe: {relativePath}"

/-- The fields of an index. -/
def bundleIndexFields : List String :=
  ["schema_version", "scope", "catalog_id", "catalog_sequence", "catalog_digest", "bootstrap_digest",
    "complete_release_qualification", "files"]

/-- A member, as the index names it. -/
structure MemberEntry where
  path : String
  sha256 : String
  size : Nat

/-- `manifests/([0-9a-f]{64})\.json`. -/
def isManifestBundlePath (path : String) : Bool :=
  let name := (path.toList.drop "manifests/".length).take 64
  isDigest (String.ofList name) && path == "manifests/" ++ String.ofList name ++ ".json"

/-- One item of `files`, after those that were read. -/
def readMemberEntry (known : List MemberEntry) (item : Json) : Except String MemberEntry :=
  match item with
  | .obj fields => do
    raiseIf (!Json.hasExactly fields ["path", "sha256", "size"])
      s!"Catalog publication bundle files[{known.length}] must contain only path, sha256, and size"
    match field fields "path", field fields "sha256", field fields "size" with
    | .str path, sha256, size =>
      raiseIf ((known.map MemberEntry.path).contains path)
        s!"Catalog publication bundle contains duplicate member '{path}'"
      raiseIf (!fixedBundleMemberPaths.contains path && !isManifestBundlePath path)
        s!"Catalog publication bundle contains unsafe or unknown member '{path}'"
      match sha256, size with
      | .str digest, .int n =>
        raiseIf (!Node.isDigestId digest)
          s!"Catalog publication bundle files[{known.length}].sha256 must be a canonical SHA-256 digest"
        raiseIf (decide (n < 1 ∨ (maxCatalogPublicationBundleMemberBytes : Int) < n))
          s!"Catalog publication bundle files[{known.length}].size must be a bounded positive integer"
        return ⟨path, digest, n.toNat⟩
      | .str _, _ => .error s!"Catalog publication bundle files[{known.length}].size must be a bounded positive integer"
      | _, _ => .error s!"Catalog publication bundle files[{known.length}].sha256 must be a canonical SHA-256 digest"
    | _, _, _ => .error s!"Catalog publication bundle files[{known.length}].path must be a string"
  | _ => .error s!"Catalog publication bundle files[{known.length}] must contain only path, sha256, and size"

def readMemberEntries : List MemberEntry → List Json → Except String (List MemberEntry)
  | known, [] => .ok known
  | known, item :: rest => do
    let entry ← readMemberEntry known item
    readMemberEntries (known ++ [entry]) rest

/-- The checks of the index by itself: the members that it names. -/
def readIndex (indexBytes : Raw) (index : List (String × Json)) : Except String (List MemberEntry) := do
  raiseIf (!Json.hasExactly index bundleIndexFields) "Catalog publication bundle index fields do not match schema"
  raiseIf (match field index "schema_version" with
      | .int n => n != catalogPublicationBundleSchemaVersion
      | _ => true)
    "Unsupported catalog publication bundle schema version"
  raiseIf (!(field index "scope").pyEq (.str "catalog-publication-bundle"))
    "Catalog publication bundle index has an unexpected scope"
  raiseIf (match field index "complete_release_qualification" with
      | .bool false => false
      | _ => true)
    "Catalog publication bundle must explicitly retain incomplete release qualification"
  match field index "files" with
  | .arr items =>
    raiseIf items.isEmpty "Catalog publication bundle files must be a non-empty array"
    let entries ← readMemberEntries [] items
    let paths := entries.map MemberEntry.path
    raiseIf (paths != paths.insertionSort (· ≤ ·)) "Catalog publication bundle file entries must be ordered by path"
    raiseIf (decide (maxCatalogPublicationBundleTotalBytes < indexBytes.size + (entries.map MemberEntry.size).sum))
      "Catalog publication bundle exceeds the total size limit"
    raiseIf (fixedBundleMemberPaths.any fun path => !paths.contains path)
      "Catalog publication bundle is missing fixed member(s)"
    return entries
  | _ => .error "Catalog publication bundle files must be a non-empty array"

/-- The files and the directories below the root. -/
def scanMembers : Listing → Except String (List String × List String)
  | [] => .ok ([], [])
  | (path, .file _) :: rest => do
    let (files, directories) ← scanMembers rest
    return (path :: files, directories)
  | (path, .directory) :: rest => do
    let (files, directories) ← scanMembers rest
    return (files, path :: directories)
  | (path, .link) :: _ => .error s!"Catalog publication bundle contains unsafe symbolic link '{path}'"
  | (path, .special) :: _ => .error s!"Catalog publication bundle contains unsupported member '{path}'"

/-- Two lists have the same elements. -/
def sameElements (xs ys : List String) : Bool := xs.all ys.contains && ys.all xs.contains

/-- The directory has the members of the index, and no others. -/
def checkMembership (root : Listing) (entries : List MemberEntry) : Except String Unit := do
  let (files, directories) ← scanMembers root
  raiseIf (!sameElements files (catalogPublicationBundleIndexName :: entries.map MemberEntry.path))
    "Catalog publication bundle members do not match its index"
  raiseIf (!sameElements directories ["manifests"])
    "Catalog publication bundle directories must contain only manifests"

/-- The bytes of a member, which have the size and the digest of the index. -/
def readMember (root : Listing) (entry : MemberEntry) : Except String (String × Raw) := do
  let raw ← bundleMemberBytes root entry.path maxCatalogPublicationBundleMemberBytes
  raiseIf (raw.size != entry.size) s!"Catalog publication bundle member size mismatch for {entry.path}"
  raiseIf (sha256DigestBytes code raw != entry.sha256)
    s!"Catalog publication bundle member digest mismatch for {entry.path}"
  return (entry.path, raw)

/-- `member_bytes[path].decode("utf-8")`. -/
def memberText (members : List (String × Raw)) (path : String) : Except String String :=
  match members.lookup path with
  | some (.text s) => .ok s
  | _ => .error "Catalog publication bundle contains an invalid release document"

def memberManifest (members : List (String × Raw)) (path : String) : Except String ModelManifestV1 := do
  let text ← memberText members path
  match ModelManifestV1.fromJson code.manifestLibrary text with
  | .ok m => return m
  | .error _ => .error "Catalog publication bundle contains an invalid release document"

/-- The documents of a bundle. -/
structure ReleaseDocuments (Bootstrap Envelope : Type) where
  bootstrap : Bootstrap
  envelope : Envelope
  manifests : List ModelManifestV1

/-- The documents are read, and each is in its canonical form. -/
def readDocuments (members : List (String × Raw)) : Except String (ReleaseDocuments Bootstrap Envelope) := do
  let bootstrap ← (← memberText members "catalog-bootstrap.json") |> code.bootstrapFromJson
  let envelope ← (← memberText members "catalog.signed.json") |> code.envelopeFromJson
  let manifestPaths :=
    ((members.map Prod.fst).filter fun path => !fixedBundleMemberPaths.contains path).insertionSort (· ≤ ·)
  let manifests ← manifestPaths.mapM (memberManifest code members)
  raiseIf (members.lookup "catalog-bootstrap.json" != some (canonicalJsonBytes (code.bootstrapToDict bootstrap)))
    "Catalog publication bundle bootstrap is not canonical JSON"
  raiseIf (members.lookup "catalog.signed.json" != some (canonicalJsonBytes (code.envelopeToDict envelope)))
    "Catalog publication bundle signed catalog is not canonical JSON"
  raiseIf (!sameElements manifestPaths (manifests.map (manifestPath code)))
    "Catalog publication bundle manifest filenames do not match their canonical digests"
  raiseIf ((manifestPaths.zip manifests).any fun p => members.lookup p.1 != some (manifestBytes p.2))
    "Catalog publication bundle manifest is not canonical JSON"
  return ⟨bootstrap, envelope, manifests⟩

/-- The fields of the index that identify the release. -/
def identityFields : List String := ["catalog_id", "catalog_sequence", "catalog_digest", "bootstrap_digest"]

/-- The report of the bundle and the index are those that its documents give. -/
def checkRelease (index : List (String × Json)) (members : List (String × Raw))
    (documents : ReleaseDocuments Bootstrap Envelope) (now : ℚ) : Except String Unit := do
  let source := (members.lookup "publication-preflight.json").getD (.binary [])
  let report ← loadStrictJsonDocument code source "catalog publication preflight report"
  raiseIf (source != canonicalJsonBytes (.obj report))
    "Catalog publication bundle preflight report is not canonical JSON"
  let expected ← verifyCatalogPublicationBundle code documents.bootstrap documents.envelope documents.manifests now
  raiseIf (!(Json.obj report).pyEq (.obj expected))
    "Catalog publication bundle preflight report does not match its exact release inputs"
  let _ ← verifyPreflightReport code documents.bootstrap report
  identityFields.forM fun name =>
    raiseIf (!(field index name).pyEq (field expected name))
      s!"Catalog publication bundle index {name} does not match its exact release inputs"

/-- `load_catalog_publication_bundle`, at the time `now`. -/
def loadCatalogPublicationBundle (root : Place) (now : ℚ) : Except String Json :=
  match root with
  | .directory listing => do
    let indexBytes ← bundleMemberBytes listing catalogPublicationBundleIndexName maxPublicationPreflightBytes
    let index ← loadStrictJsonDocument code indexBytes "catalog publication bundle index"
    let entries ← readIndex indexBytes index
    checkMembership listing entries
    let members ← entries.mapM (readMember code listing)
    raiseIf (indexBytes != canonicalJsonBytes (.obj index)) "Catalog publication bundle index is not canonical JSON"
    let documents ← readDocuments code members
    checkRelease code index members documents now
    return .obj index
  | _ => .error "Catalog publication bundle is missing or unsafe"

end Drift.Release
