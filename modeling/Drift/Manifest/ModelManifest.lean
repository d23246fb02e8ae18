import Drift.Lib.JsonText
import Drift.Lib.Outcome
import Drift.Manifest.ArtifactVerifier

/-!
# Model manifests

A manifest names a model by content: where its files come from, what it is, what it runs on, and every
artifact with its size and digest. The digest of its canonical text is its identity, and the swarm of the
model is named after it. A manifest is read strictly: each object has exactly its fields, and each string
is normalized.

* `ModelManifestV1.fromDict`, `ModelManifestV1.fromJson` — the readers;
* `ModelManifestV1.toDict`, `ModelManifestV1.canonicalJson`, `ModelManifestV1.digest` — the rendering.

Normalization, case folding, the versions of packages and SHA-256 are parameters. A string is a list of
scalar values, so that none has to be refused for a surrogate.
-/

namespace Drift.Manifest

open Drift.Lib

/-- What the readers call and is not written here. -/
structure ManifestLibrary where
  /-- `unicodedata.normalize("NFC", value) == value`. -/
  isNfc : String → Bool
  /-- `str.casefold`. -/
  casefold : String → String
  /-- `Version(a) < Version(b)`, where both are versions. -/
  versionLess : String → String → Option Bool

def manifestSchemaVersion : Int := 1
def manifestProtocolVersion : Int := 1
def manifestNamespacePrefix : String := "drift-m1-"
def artifactRoles : List String :=
  ["chat_template", "config", "converted_weight", "quantized_weight", "tokenizer", "weight",
    "weight_index"]
def dtypes : List String := ["bfloat16", "float16", "float32"]
def quantizations : List String := ["int8", "nf4", "none"]
def attentionImplementations : List String := ["auto", "eager", "sdpa"]

/-! ### The checks of a field -/

/-- `raise ManifestError(message)`. -/
def raiseManifest {α : Type} (message : String) : Except ManifestError α := .error (.manifestError message)

/-- `if condition: raise ManifestError(message)`. -/
def rejectIf (condition : Bool) (message : String) : Except ManifestError Unit :=
  if condition then raiseManifest message else .ok ()

/-- `source[key]`, of a key that is there. -/
def fieldOf (fields : List (String × Json)) (key : String) : Json := (fields.lookup key).getD .null

/-- `_require_object`. -/
def requireObject (value : Json) (field : String) : Except ManifestError (List (String × Json)) :=
  match value with
  | .obj fields => .ok fields
  | _ => raiseManifest s!"{field} must be a JSON object"

/-- `_require_keys`. -/
def requireKeys (value : List (String × Json)) (field : String) (required : List String) :
    Except ManifestError Unit :=
  let missing := required.filter fun key => (value.lookup key).isNone
  let extra := (value.map Prod.fst).filter fun key => !required.contains key
  if missing ≠ [] then
    raiseManifest (s!"{field} is missing required field(s): " ++
      ", ".intercalate (missing.insertionSort (· ≤ ·)))
  else if extra ≠ [] then
    raiseManifest (s!"{field} has unknown field(s): " ++ ", ".intercalate (extra.insertionSort (· ≤ ·)))
  else .ok ()

/-- `_require_int`. -/
def requireInt (value : Json) (field : String) (minimum : Int) : Except ManifestError Int :=
  match value with
  | .int n => if n < minimum then raiseManifest s!"{field} must be an integer >= {minimum}" else .ok n
  | _ => raiseManifest s!"{field} must be an integer >= {minimum}"

/-- `_require_bool`. -/
def requireBool (value : Json) (field : String) : Except ManifestError Bool :=
  match value with
  | .bool b => .ok b
  | _ => raiseManifest s!"{field} must be a boolean"

/-- `re.fullmatch` of so many lowercase hexadecimal digits. -/
def isHex (digits : Nat) (s : String) : Bool :=
  s.length == digits && s.toList.all fun c => c.isDigit || "abcdef".toList.contains c

/-- `PurePosixPath(path).parts`, of a relative path. -/
def pathParts (path : String) : List String :=
  ((path.toList.splitOn '/').map String.ofList).filter fun part => part != "" && part != "."

/-- The path of an artifact is a normalized relative one. -/
def isRelativePath (path : String) : Bool :=
  !(path.toList.head? == some '/' || asPosix path == "." || path.toList.contains '\\' ||
    path != asPosix path || (pathParts path).contains "..")

section Readers

variable (lib : ManifestLibrary)

/-- `_require_string`. -/
def requireString (value : Json) (field : String) : Except ManifestError String :=
  match value with
  | .str s =>
    if s = "" then raiseManifest s!"{field} must be a non-empty string"
    else if lib.isNfc s = false then raiseManifest s!"{field} must use NFC-normalized Unicode"
    else .ok s
  | _ => raiseManifest s!"{field} must be a non-empty string"

/-- `_require_string_list`. -/
def requireStringList (value : Json) (field : String) : Except ManifestError (List String) :=
  match value with
  | .arr items => do
    let result ← items.mapM fun item => requireString lib item s!"{field}[]"
    rejectIf (!decide result.Nodup) s!"{field} must not contain duplicates"
    pure result
  | _ => raiseManifest s!"{field} must be a JSON array"

/-! ### The parts of a manifest -/

/-- `ManifestArtifact.from_dict`. -/
def ManifestArtifact.fromDict (source : Json) : Except ManifestError ManifestArtifact := do
  let source ← requireObject source "artifacts[]"
  requireKeys source "artifacts[]" ["role", "path", "sha256", "size"]
  let role ← requireString lib (fieldOf source "role") "artifacts[].role"
  rejectIf (!artifactRoles.contains role) s!"artifacts[].role must be one of {artifactRoles}, got '{role}'"
  let path ← requireString lib (fieldOf source "path") "artifacts[].path"
  rejectIf (!isRelativePath path)
    s!"artifacts[].path must be a normalized relative POSIX path, got '{path}'"
  let sha256 ← requireString lib (fieldOf source "sha256") "artifacts[].sha256"
  rejectIf (!isHex 64 sha256) "artifacts[].sha256 must be 64 lowercase hexadecimal characters"
  let size ← requireInt (fieldOf source "size") "artifacts[].size" 0
  pure ⟨role, path, sha256, size.toNat⟩

/-- `ManifestArtifact.to_dict`. -/
def ManifestArtifact.toDict (artifact : ManifestArtifact) : Json :=
  .obj [("role", .str artifact.role), ("path", .str artifact.path), ("sha256", .str artifact.sha256),
    ("size", .int artifact.size)]

/-- `ModelSource`. -/
structure ModelSource where
  repository : String
  revision : String
  deriving DecidableEq

/-- `ModelSource.from_dict`. -/
def ModelSource.fromDict (source : Json) : Except ManifestError ModelSource := do
  let source ← requireObject source "source"
  requireKeys source "source" ["repository", "revision"]
  let repository ← requireString lib (fieldOf source "repository") "source.repository"
  let revision ← requireString lib (fieldOf source "revision") "source.revision"
  rejectIf (!isHex 40 revision) "source.revision must be a full 40-character lowercase Git commit SHA"
  pure ⟨repository, revision⟩

/-- `ModelSource.to_dict`. -/
def ModelSource.toDict (s : ModelSource) : Json :=
  .obj [("repository", .str s.repository), ("revision", .str s.revision)]

/-- `ModelDescription`. -/
structure ModelDescription where
  architecture : String
  numBlocks : Int
  contextLength : Int
  license : String
  gated : Bool
  deriving DecidableEq

/-- `ModelDescription.from_dict`. -/
def ModelDescription.fromDict (source : Json) : Except ManifestError ModelDescription := do
  let source ← requireObject source "model"
  requireKeys source "model" ["architecture", "num_blocks", "context_length", "license", "gated"]
  let architecture ← requireString lib (fieldOf source "architecture") "model.architecture"
  let numBlocks ← requireInt (fieldOf source "num_blocks") "model.num_blocks" 1
  let contextLength ← requireInt (fieldOf source "context_length") "model.context_length" 1
  let license ← requireString lib (fieldOf source "license") "model.license"
  let gated ← requireBool (fieldOf source "gated") "model.gated"
  pure ⟨architecture, numBlocks, contextLength, license, gated⟩

/-- `ModelDescription.to_dict`. -/
def ModelDescription.toDict (m : ModelDescription) : Json :=
  .obj [("architecture", .str m.architecture), ("num_blocks", .int m.numBlocks),
    ("context_length", .int m.contextLength), ("license", .str m.license), ("gated", .bool m.gated)]

/-- `RuntimeProfile`. -/
structure RuntimeProfile where
  implementation : String
  minimumVersion : String
  maximumVersionExclusive : String
  protocolVersion : Int
  tensorSchema : String
  attentionImplementation : String
  dtype : String
  quantization : String
  adapterProfile : String
  deriving DecidableEq

/-- A `sha256:` profile identifier. -/
def isProfileDigest (s : String) : Bool :=
  s.toList.take 7 == "sha256:".toList && isHex 64 (String.ofList (s.toList.drop 7))

/-- `RuntimeProfile._validate`. -/
def RuntimeProfile.validate (r : RuntimeProfile) : Except ManifestError Unit := do
  rejectIf (r.implementation != "drift") "runtime.implementation must be 'drift' for ModelManifest v1"
  rejectIf (r.protocolVersion != manifestProtocolVersion)
    s!"runtime.protocol_version must be {manifestProtocolVersion}"
  rejectIf (r.tensorSchema != "hidden-states-v1")
    "runtime.tensor_schema must be 'hidden-states-v1' for ModelManifest v1"
  rejectIf (!attentionImplementations.contains r.attentionImplementation)
    s!"runtime.attention_implementation must be one of {attentionImplementations}"
  rejectIf (!dtypes.contains r.dtype) s!"runtime.dtype must be one of {dtypes}"
  rejectIf (!quantizations.contains r.quantization) s!"runtime.quantization must be one of {quantizations}"
  rejectIf (r.adapterProfile != "none" && !isProfileDigest r.adapterProfile)
    "runtime.adapter_profile must be 'none' or a sha256:<digest> profile identifier"
  match lib.versionLess r.minimumVersion r.maximumVersionExclusive with
  | none => raiseManifest "runtime version bounds must be valid PEP 440 versions"
  | some less =>
    rejectIf (!less) "runtime.minimum_version must be less than runtime.maximum_version_exclusive"

/-- The fields of a runtime profile. -/
def runtimeFields : List String :=
  ["implementation", "minimum_version", "maximum_version_exclusive", "protocol_version",
    "tensor_schema", "attention_implementation", "dtype", "quantization", "adapter_profile"]

/-- `RuntimeProfile.from_dict`. -/
def RuntimeProfile.fromDict (source : Json) : Except ManifestError RuntimeProfile := do
  let source ← requireObject source "runtime"
  requireKeys source "runtime" runtimeFields
  let implementation ← requireString lib (fieldOf source "implementation") "runtime.implementation"
  let minimumVersion ← requireString lib (fieldOf source "minimum_version") "runtime.minimum_version"
  let maximumVersionExclusive ← requireString lib (fieldOf source "maximum_version_exclusive")
    "runtime.maximum_version_exclusive"
  let protocolVersion ← requireInt (fieldOf source "protocol_version") "runtime.protocol_version" 1
  let tensorSchema ← requireString lib (fieldOf source "tensor_schema") "runtime.tensor_schema"
  let attentionImplementation ← requireString lib (fieldOf source "attention_implementation")
    "runtime.attention_implementation"
  let dtype ← requireString lib (fieldOf source "dtype") "runtime.dtype"
  let quantization ← requireString lib (fieldOf source "quantization") "runtime.quantization"
  let adapterProfile ← requireString lib (fieldOf source "adapter_profile") "runtime.adapter_profile"
  let result : RuntimeProfile := ⟨implementation, minimumVersion, maximumVersionExclusive,
    protocolVersion, tensorSchema, attentionImplementation, dtype, quantization, adapterProfile⟩
  result.validate lib
  pure result

/-- `RuntimeProfile.to_dict`. -/
def RuntimeProfile.toDict (r : RuntimeProfile) : Json :=
  .obj [("implementation", .str r.implementation), ("minimum_version", .str r.minimumVersion),
    ("maximum_version_exclusive", .str r.maximumVersionExclusive),
    ("protocol_version", .int r.protocolVersion), ("tensor_schema", .str r.tensorSchema),
    ("attention_implementation", .str r.attentionImplementation), ("dtype", .str r.dtype),
    ("quantization", .str r.quantization), ("adapter_profile", .str r.adapterProfile)]

/-! ### The manifest -/

/-- `ModelManifest`, all of it. -/
structure ModelManifestV1 where
  schemaVersion : Int
  name : String
  aliases : List String
  source : ModelSource
  model : ModelDescription
  runtime : RuntimeProfile
  artifacts : List ManifestArtifact
  deriving DecidableEq

/-- The roles that the artifacts lack, as the error names them. -/
def missingRoles (artifacts : List ManifestArtifact) : List String :=
  (["config", "tokenizer"].filter fun role => !hasRole artifacts [role]) ++
    if hasRole artifacts ["weight", "converted_weight", "quantized_weight"] then []
    else ["weight, converted_weight, or quantized_weight"]

/-- The fields of a manifest. -/
def manifestFields : List String :=
  ["schema_version", "name", "aliases", "source", "model", "runtime", "artifacts"]

/-- The artifacts of a manifest, from their field. -/
def readArtifacts (value : Json) : Except ManifestError (List ManifestArtifact) :=
  match value with
  | .arr items => items.mapM (ManifestArtifact.fromDict lib)
  | _ => raiseManifest "artifacts must be a JSON array"

namespace ModelManifestV1

/-- `from_dict`. -/
def fromDict (source : Json) : Except ManifestError ModelManifestV1 := do
  let source ← requireObject source "manifest"
  requireKeys source "manifest" manifestFields
  let schemaVersion ← requireInt (fieldOf source "schema_version") "schema_version" 1
  rejectIf (schemaVersion != manifestSchemaVersion)
    s!"Unsupported schema_version {schemaVersion}; expected {manifestSchemaVersion}"
  let artifacts ← readArtifacts lib (fieldOf source "artifacts")
  rejectIf (!decide (artifacts.map ManifestArtifact.path).Nodup)
    "artifacts must not contain duplicate paths"
  rejectIf (decide (missingRoles artifacts ≠ []))
    ("artifacts are missing required role(s): " ++ ", ".intercalate (missingRoles artifacts))
  let name ← requireString lib (fieldOf source "name") "name"
  let aliases ← requireStringList lib (fieldOf source "aliases") "aliases"
  let modelSource ← ModelSource.fromDict lib (fieldOf source "source")
  let model ← ModelDescription.fromDict lib (fieldOf source "model")
  let runtime ← RuntimeProfile.fromDict lib (fieldOf source "runtime")
  rejectIf (!decide ((name :: aliases).map lib.casefold).Nodup)
    "name and aliases must be unique when compared case-insensitively"
  pure ⟨schemaVersion, name, aliases, modelSource, model, runtime, artifacts⟩

/-- `from_json`. The hooks of the parser refuse duplicate keys and constants that are not finite. -/
def fromJson (source : String) : Except ManifestError ModelManifestV1 :=
  match Json.loads source with
  | none => raiseManifest "Invalid manifest JSON"
  | some value =>
    if value.distinctKeys = false then raiseManifest "Manifest JSON contains duplicate object key"
    else fromDict lib value

end ModelManifestV1

end Readers

/-- The key of the artifacts' order. -/
def artifactLe (a b : ManifestArtifact) : Prop := a.path < b.path ∨ (a.path = b.path ∧ a.role ≤ b.role)

instance : DecidableRel artifactLe := fun a b =>
  inferInstanceAs (Decidable (a.path < b.path ∨ (a.path = b.path ∧ a.role ≤ b.role)))

namespace ModelManifestV1

variable (m : ModelManifestV1)

/-- `to_dict`. -/
def toDict : Json :=
  .obj [("schema_version", .int m.schemaVersion), ("name", .str m.name),
    ("aliases", .arr ((m.aliases.insertionSort (· ≤ ·)).map .str)), ("source", m.source.toDict),
    ("model", m.model.toDict), ("runtime", m.runtime.toDict),
    ("artifacts", .arr ((m.artifacts.insertionSort artifactLe).map ManifestArtifact.toDict))]

/-- `canonical_json`. -/
def canonicalJson : String := m.toDict.dumps

/-- `digest`, with the SHA-256 of a text as a parameter. -/
def digest (sha256 : String → String) : String := sha256 m.canonicalJson

/-- `dht_prefix`. -/
def dhtPrefix (sha256 : String → String) : String := manifestNamespacePrefix ++ m.digest sha256

end ModelManifestV1

end Drift.Manifest
