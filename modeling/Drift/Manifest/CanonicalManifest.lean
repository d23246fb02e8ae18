import Drift.Manifest.ModelManifest
import Mathlib.Data.List.Perm.Basic

/-!
# The identity of a manifest

The swarm of a model is named after the digest of its manifest's canonical text. The text is that of a
normal form: the aliases and the artifacts sorted, the rest as it is. Reading the text gives the normal
form back, and a manifest is its normal form up to the order of aliases and artifacts.

* `fromDict_iff` — a document is accepted as a manifest that it describes and that is valid;
* `fromJson_canonicalJson` — the canonical text is read as the normal form;
* `manifest_identity_canonical` — the text, and with it the digest, stands for the manifest.
-/

namespace Drift.Manifest

open Drift.Lib

/-! ### The checks of a field -/

theorem rejectIf_ok {condition : Bool} {message : String} {u : Unit} :
    rejectIf condition message = .ok u ↔ condition = false := by
  unfold rejectIf raiseManifest
  cases condition <;> simp

/-- The object has these fields and no others. -/
def Exact (fields : List (String × Json)) (names : List String) : Prop :=
  (∀ name ∈ names, (fields.lookup name).isSome = true) ∧ ∀ f ∈ fields, f.1 ∈ names

theorem requireKeys_ok {fields : List (String × Json)} {field : String} {names : List String} {u : Unit} :
    requireKeys fields field names = .ok u ↔ Exact fields names := by
  unfold requireKeys Exact raiseManifest
  dsimp only
  split
  · rename_i hmissing
    refine iff_of_false (fun h => by cases h) fun h => hmissing ?_
    rw [List.filter_eq_nil_iff]
    intro name hname
    rw [Option.isNone_iff_eq_none, ← Option.not_isSome_iff_eq_none, not_not]
    exact h.1 name hname
  · rename_i hmissing
    rw [not_not, List.filter_eq_nil_iff] at hmissing
    split
    · rename_i hextra
      refine iff_of_false (fun h => by cases h) fun h => hextra ?_
      rw [List.filter_eq_nil_iff]
      intro name hname
      obtain ⟨f, hf, rfl⟩ := List.mem_map.mp hname
      simpa using h.2 f hf
    · rename_i hextra
      rw [not_not, List.filter_eq_nil_iff] at hextra
      refine iff_of_true rfl ⟨fun name hname => ?_, fun f hf => ?_⟩
      · have := hmissing name hname
        rw [Option.isNone_iff_eq_none, ← Option.not_isSome_iff_eq_none, not_not] at this
        exact this
      · simpa using hextra f.1 (List.mem_map_of_mem hf)

theorem requireObject_ok {value : Json} {field : String} {fields : List (String × Json)} :
    requireObject value field = .ok fields ↔ value = .obj fields := by
  unfold requireObject raiseManifest
  split
  · simp
  · rename_i hnot
    exact iff_of_false (fun h => by cases h) fun h => hnot fields h

theorem requireInt_ok {value : Json} {field : String} {minimum n : Int} :
    requireInt value field minimum = .ok n ↔ value = .int n ∧ minimum ≤ n := by
  unfold requireInt raiseManifest
  split
  · rename_i m
    split
    · rename_i hlt
      refine iff_of_false (fun h => by cases h) fun h => ?_
      cases h.1
      omega
    · rename_i hle
      constructor
      · intro h
        cases h
        exact ⟨rfl, not_lt.mp hle⟩
      · rintro ⟨h, -⟩
        cases h
        rfl
  · rename_i hnot
    exact iff_of_false (fun h => by cases h) fun h => hnot n h.1

theorem requireBool_ok {value : Json} {field : String} {b : Bool} :
    requireBool value field = .ok b ↔ value = .bool b := by
  unfold requireBool raiseManifest
  split
  · simp
  · rename_i hnot
    exact iff_of_false (fun h => by cases h) fun h => hnot b h

section Readers

variable {lib : ManifestLibrary}

/-- A string that the readers accept. -/
def Normal (lib : ManifestLibrary) (s : String) : Prop := s ≠ "" ∧ lib.isNfc s = true

theorem requireString_ok {value : Json} {field s : String} :
    requireString lib value field = .ok s ↔ value = .str s ∧ Normal lib s := by
  unfold requireString Normal raiseManifest
  split
  · rename_i t
    split
    · rename_i hempty
      refine iff_of_false (fun h => by cases h) fun h => ?_
      cases h.1
      exact h.2.1 hempty
    · rename_i hne
      split
      · rename_i hnfc
        refine iff_of_false (fun h => by cases h) fun h => ?_
        cases h.1
        exact Bool.false_ne_true (hnfc.symm.trans h.2.2)
      · rename_i hnfc
        constructor
        · intro h
          cases h
          exact ⟨rfl, hne, by simpa using hnfc⟩
        · rintro ⟨h, -⟩
          cases h
          rfl
  · rename_i hnot
    exact iff_of_false (fun h => by cases h) fun h => hnot s h.1

theorem requireStringList_ok {value : Json} {field : String} {strings : List String} :
    requireStringList lib value field = .ok strings ↔
      value = .arr (strings.map .str) ∧ (∀ s ∈ strings, Normal lib s) ∧ strings.Nodup := by
  have hitems : ∀ items : List Json, List.Forall₂ (fun item s => requireString lib item s!"{field}[]" = .ok s)
      items strings ↔ items = strings.map .str ∧ ∀ s ∈ strings, Normal lib s := by
    intro items
    simp only [requireString_ok]
    induction strings generalizing items with
    | nil => simp
    | cons s strings ih =>
      cases items with
      | nil => simp
      | cons item items =>
        simp only [List.forall₂_cons, ih, List.map_cons, List.cons.injEq, List.mem_cons,
          forall_eq_or_imp]
        tauto
  unfold requireStringList raiseManifest
  split
  · rename_i items
    simp only [bind_eq_ok, mapM_eq_ok, rejectIf_ok, Bool.not_eq_false', decide_eq_true_eq]
    constructor
    · rintro ⟨result, hresult, u, hnodup, h⟩
      cases h
      obtain ⟨rfl, hnormal⟩ := (hitems items).mp hresult
      exact ⟨rfl, hnormal, hnodup⟩
    · rintro ⟨h, hnormal, hnodup⟩
      cases h
      exact ⟨strings, (hitems _).mpr ⟨rfl, hnormal⟩, (), hnodup, rfl⟩
  · rename_i hnot
    exact iff_of_false (fun h => by cases h) fun h => hnot _ h.1

/-! ### The parts of a manifest -/

/-- What `ManifestArtifact.from_dict` admits. -/
structure ManifestArtifact.Valid (lib : ManifestLibrary) (a : ManifestArtifact) : Prop where
  role : Normal lib a.role ∧ artifactRoles.contains a.role = true
  path : Normal lib a.path ∧ isRelativePath a.path = true
  sha256 : Normal lib a.sha256 ∧ isHex 64 a.sha256 = true

/-- A document of an artifact. -/
def ManifestArtifact.Document (a : ManifestArtifact) (source : Json) : Prop :=
  ∃ fields, source = .obj fields ∧ Exact fields ["role", "path", "sha256", "size"] ∧
    fieldOf fields "role" = .str a.role ∧ fieldOf fields "path" = .str a.path ∧
    fieldOf fields "sha256" = .str a.sha256 ∧ fieldOf fields "size" = .int a.size

theorem ManifestArtifact.fromDict_iff {source : Json} {a : ManifestArtifact} :
    ManifestArtifact.fromDict lib source = .ok a ↔ a.Document source ∧ a.Valid lib := by
  unfold ManifestArtifact.fromDict
  simp only [bind_eq_ok, requireObject_ok, requireKeys_ok, requireString_ok, rejectIf_ok, requireInt_ok,
    Bool.not_eq_false']
  constructor
  · rintro ⟨fields, rfl, -, hexact, role, ⟨hrole, hrole'⟩, -, hin, path, ⟨hpath, hpath'⟩, -, hrelative,
      sha256, ⟨hsha, hsha'⟩, -, hhex, size, ⟨hsize, hzero⟩, h⟩
    cases h
    refine ⟨⟨fields, rfl, hexact, hrole, hpath, hsha, ?_⟩, ⟨hrole', hin⟩, ⟨hpath', hrelative⟩, hsha', hhex⟩
    rw [hsize, Int.toNat_of_nonneg hzero]
  · rintro ⟨⟨fields, rfl, hexact, hrole, hpath, hsha, hsize⟩, hvalid⟩
    exact ⟨fields, rfl, (), hexact, a.role, ⟨hrole, hvalid.role.1⟩, (), hvalid.role.2, a.path,
      ⟨hpath, hvalid.path.1⟩, (), hvalid.path.2, a.sha256, ⟨hsha, hvalid.sha256.1⟩, (), hvalid.sha256.2,
      a.size, ⟨hsize, Int.natCast_nonneg _⟩, rfl⟩

/-- What `ModelSource.from_dict` admits. -/
structure ModelSource.Valid (lib : ManifestLibrary) (s : ModelSource) : Prop where
  repository : Normal lib s.repository
  revision : Normal lib s.revision ∧ isHex 40 s.revision = true

/-- A document of a source. -/
def ModelSource.Document (s : ModelSource) (source : Json) : Prop :=
  ∃ fields, source = .obj fields ∧ Exact fields ["repository", "revision"] ∧
    fieldOf fields "repository" = .str s.repository ∧ fieldOf fields "revision" = .str s.revision

theorem ModelSource.fromDict_iff {source : Json} {s : ModelSource} :
    ModelSource.fromDict lib source = .ok s ↔ s.Document source ∧ s.Valid lib := by
  unfold ModelSource.fromDict
  simp only [bind_eq_ok, requireObject_ok, requireKeys_ok, requireString_ok, rejectIf_ok,
    Bool.not_eq_false']
  constructor
  · rintro ⟨fields, rfl, -, hexact, repository, ⟨hrepository, hrepository'⟩, revision,
      ⟨hrevision, hrevision'⟩, -, hhex, h⟩
    cases h
    exact ⟨⟨fields, rfl, hexact, hrepository, hrevision⟩, hrepository', hrevision', hhex⟩
  · rintro ⟨⟨fields, rfl, hexact, hrepository, hrevision⟩, hvalid⟩
    exact ⟨fields, rfl, (), hexact, _, ⟨hrepository, hvalid.repository⟩, _,
      ⟨hrevision, hvalid.revision.1⟩, (), hvalid.revision.2, rfl⟩

/-- What `ModelDescription.from_dict` admits. -/
structure ModelDescription.Valid (lib : ManifestLibrary) (m : ModelDescription) : Prop where
  architecture : Normal lib m.architecture
  numBlocks : 1 ≤ m.numBlocks
  contextLength : 1 ≤ m.contextLength
  license : Normal lib m.license

/-- A document of a description. -/
def ModelDescription.Document (m : ModelDescription) (source : Json) : Prop :=
  ∃ fields, source = .obj fields ∧
    Exact fields ["architecture", "num_blocks", "context_length", "license", "gated"] ∧
    fieldOf fields "architecture" = .str m.architecture ∧ fieldOf fields "num_blocks" = .int m.numBlocks ∧
    fieldOf fields "context_length" = .int m.contextLength ∧ fieldOf fields "license" = .str m.license ∧
    fieldOf fields "gated" = .bool m.gated

theorem ModelDescription.fromDict_iff {source : Json} {m : ModelDescription} :
    ModelDescription.fromDict lib source = .ok m ↔ m.Document source ∧ m.Valid lib := by
  unfold ModelDescription.fromDict
  simp only [bind_eq_ok, requireObject_ok, requireKeys_ok, requireString_ok, requireInt_ok,
    requireBool_ok]
  constructor
  · rintro ⟨fields, rfl, -, hexact, architecture, ⟨harch, harch'⟩, numBlocks, ⟨hblocks, hblocks'⟩,
      contextLength, ⟨hcontext, hcontext'⟩, license, ⟨hlicense, hlicense'⟩, gated, hgated, h⟩
    cases h
    exact ⟨⟨fields, rfl, hexact, harch, hblocks, hcontext, hlicense, hgated⟩, harch', hblocks', hcontext',
      hlicense'⟩
  · rintro ⟨⟨fields, rfl, hexact, harch, hblocks, hcontext, hlicense, hgated⟩, hvalid⟩
    exact ⟨fields, rfl, (), hexact, _, ⟨harch, hvalid.architecture⟩, _, ⟨hblocks, hvalid.numBlocks⟩, _,
      ⟨hcontext, hvalid.contextLength⟩, _, ⟨hlicense, hvalid.license⟩, _, hgated, rfl⟩

/-- The strings of a runtime profile. -/
def RuntimeProfile.strings (r : RuntimeProfile) : List String :=
  [r.implementation, r.minimumVersion, r.maximumVersionExclusive, r.tensorSchema,
    r.attentionImplementation, r.dtype, r.quantization, r.adapterProfile]

/-- What `RuntimeProfile.from_dict` admits. -/
structure RuntimeProfile.Valid (lib : ManifestLibrary) (r : RuntimeProfile) : Prop where
  strings : ∀ s ∈ r.strings, Normal lib s
  protocolVersion : 1 ≤ r.protocolVersion
  validated : r.validate lib = .ok ()

/-- A document of a runtime profile. -/
def RuntimeProfile.Document (r : RuntimeProfile) (source : Json) : Prop :=
  ∃ fields, source = .obj fields ∧ Exact fields runtimeFields ∧
    fieldOf fields "implementation" = .str r.implementation ∧
    fieldOf fields "minimum_version" = .str r.minimumVersion ∧
    fieldOf fields "maximum_version_exclusive" = .str r.maximumVersionExclusive ∧
    fieldOf fields "protocol_version" = .int r.protocolVersion ∧
    fieldOf fields "tensor_schema" = .str r.tensorSchema ∧
    fieldOf fields "attention_implementation" = .str r.attentionImplementation ∧
    fieldOf fields "dtype" = .str r.dtype ∧ fieldOf fields "quantization" = .str r.quantization ∧
    fieldOf fields "adapter_profile" = .str r.adapterProfile

theorem RuntimeProfile.fromDict_iff {source : Json} {r : RuntimeProfile} :
    RuntimeProfile.fromDict lib source = .ok r ↔ r.Document source ∧ r.Valid lib := by
  unfold RuntimeProfile.fromDict
  simp only [bind_eq_ok, requireObject_ok, requireKeys_ok, requireString_ok, requireInt_ok]
  constructor
  · rintro ⟨fields, rfl, -, hexact, implementation, ⟨h₁, h₁'⟩, minimumVersion, ⟨h₂, h₂'⟩,
      maximumVersionExclusive, ⟨h₃, h₃'⟩, protocolVersion, ⟨h₄, h₄'⟩, tensorSchema, ⟨h₅, h₅'⟩,
      attentionImplementation, ⟨h₆, h₆'⟩, dtype, ⟨h₇, h₇'⟩, quantization, ⟨h₈, h₈'⟩,
      adapterProfile, ⟨h₉, h₉'⟩, ⟨⟩, hvalidated, h⟩
    cases h
    refine ⟨⟨fields, rfl, hexact, h₁, h₂, h₃, h₄, h₅, h₆, h₇, h₈, h₉⟩, ?_, h₄', hvalidated⟩
    simp only [RuntimeProfile.strings, List.forall_mem_cons]
    exact ⟨h₁', h₂', h₃', h₅', h₆', h₇', h₈', h₉', fun s hs => absurd hs List.not_mem_nil⟩
  · rintro ⟨⟨fields, rfl, hexact, h₁, h₂, h₃, h₄, h₅, h₆, h₇, h₈, h₉⟩, hstrings, hprotocol, hvalidated⟩
    simp only [RuntimeProfile.strings, List.forall_mem_cons] at hstrings
    obtain ⟨h₁', h₂', h₃', h₅', h₆', h₇', h₈', h₉', -⟩ := hstrings
    exact ⟨fields, rfl, (), hexact, _, ⟨h₁, h₁'⟩, _, ⟨h₂, h₂'⟩, _, ⟨h₃, h₃'⟩, _, ⟨h₄, hprotocol⟩, _,
      ⟨h₅, h₅'⟩, _, ⟨h₆, h₆'⟩, _, ⟨h₇, h₇'⟩, _, ⟨h₈, h₈'⟩, _, ⟨h₉, h₉'⟩, (), hvalidated, rfl⟩

/-! ### The manifest -/

/-- What `from_dict` asks of a manifest, besides its parts. -/
structure ModelManifestV1.Valid (lib : ManifestLibrary) (m : ModelManifestV1) : Prop where
  schemaVersion : m.schemaVersion = manifestSchemaVersion
  name : Normal lib m.name
  aliases : (∀ s ∈ m.aliases, Normal lib s) ∧ m.aliases.Nodup
  names : ((m.name :: m.aliases).map lib.casefold).Nodup
  paths : (m.artifacts.map ManifestArtifact.path).Nodup
  roles : missingRoles m.artifacts = []
  source : m.source.Valid lib
  model : m.model.Valid lib
  runtime : m.runtime.Valid lib
  artifacts : ∀ a ∈ m.artifacts, a.Valid lib

/-- A document of a manifest. -/
def ModelManifestV1.Document (m : ModelManifestV1) (source : Json) : Prop :=
  ∃ fields items, source = .obj fields ∧ Exact fields manifestFields ∧
    fieldOf fields "schema_version" = .int m.schemaVersion ∧ fieldOf fields "name" = .str m.name ∧
    fieldOf fields "aliases" = .arr (m.aliases.map .str) ∧ m.source.Document (fieldOf fields "source") ∧
    m.model.Document (fieldOf fields "model") ∧ m.runtime.Document (fieldOf fields "runtime") ∧
    fieldOf fields "artifacts" = .arr items ∧
    List.Forall₂ (fun item a => ManifestArtifact.Document a item) items m.artifacts

theorem readArtifacts_ok {value : Json} {artifacts : List ManifestArtifact} :
    readArtifacts lib value = .ok artifacts ↔ ∃ items, value = .arr items ∧
      List.Forall₂ (fun item a => ManifestArtifact.Document a item) items artifacts ∧
      ∀ a ∈ artifacts, a.Valid lib := by
  have hitems : ∀ items, List.Forall₂ (fun item a => ManifestArtifact.fromDict lib item = .ok a) items
      artifacts ↔ List.Forall₂ (fun item a => ManifestArtifact.Document a item) items artifacts ∧
        ∀ a ∈ artifacts, a.Valid lib := by
    intro items
    simp only [ManifestArtifact.fromDict_iff]
    constructor
    · intro h
      refine ⟨h.imp fun _ _ hand => hand.1, ?_⟩
      induction h with
      | nil => exact fun a ha => absurd ha List.not_mem_nil
      | cons hand _ ih => exact List.forall_mem_cons.mpr ⟨hand.2, ih⟩
    · rintro ⟨h, hvalid⟩
      induction h with
      | nil => exact .nil
      | cons hdocument _ ih =>
        rw [List.forall_mem_cons] at hvalid
        exact .cons ⟨hdocument, hvalid.1⟩ (ih hvalid.2)
  unfold readArtifacts raiseManifest
  split
  · rename_i items
    rw [mapM_eq_ok, hitems]
    constructor
    · exact fun h => ⟨items, rfl, h⟩
    · rintro ⟨items', h, hand⟩
      cases h
      exact hand
  · rename_i hnot
    refine iff_of_false (fun h => by cases h) ?_
    rintro ⟨items, h, -⟩
    exact hnot items h

/-- **The reader**: a document is accepted as the valid manifest that it describes. -/
theorem ModelManifestV1.fromDict_iff {source : Json} {m : ModelManifestV1} :
    ModelManifestV1.fromDict lib source = .ok m ↔ m.Document source ∧ m.Valid lib := by
  unfold ModelManifestV1.fromDict
  simp only [bind_eq_ok, requireObject_ok, requireKeys_ok, requireString_ok, requireInt_ok,
    requireStringList_ok, rejectIf_ok, readArtifacts_ok, ModelSource.fromDict_iff,
    ModelDescription.fromDict_iff, RuntimeProfile.fromDict_iff, Bool.not_eq_false', decide_eq_true_eq,
    decide_eq_false_iff_not, not_not, bne_eq_false_iff_eq]
  constructor
  · rintro ⟨fields, rfl, -, hexact, schemaVersion, ⟨hschema, -⟩, -, hversion, artifacts,
      ⟨items, hartifacts, hitems, hvalid⟩, -, hpaths, -, hroles, name, ⟨hname, hname'⟩, aliases,
      ⟨haliases, haliases'⟩, source, ⟨hsource, hsource'⟩, model, ⟨hmodel, hmodel'⟩, runtime,
      ⟨hruntime, hruntime'⟩, -, hnames, h⟩
    cases h
    exact ⟨⟨fields, items, rfl, hexact, hschema, hname, haliases, hsource, hmodel, hruntime, hartifacts,
      hitems⟩, hversion, hname', haliases', hnames, hpaths, hroles, hsource', hmodel', hruntime', hvalid⟩
  · rintro ⟨⟨fields, items, rfl, hexact, hschema, hname, haliases, hsource, hmodel, hruntime, hartifacts,
      hitems⟩, hvalid⟩
    have hpositive : 1 ≤ m.schemaVersion := by
      rw [hvalid.schemaVersion]
      decide
    exact ⟨fields, rfl, (), hexact, _, ⟨hschema, hpositive⟩, (), hvalid.schemaVersion, _,
      ⟨items, hartifacts, hitems, hvalid.artifacts⟩, (), hvalid.paths, (), hvalid.roles, _,
      ⟨hname, hvalid.name⟩, _, ⟨haliases, hvalid.aliases⟩, _, ⟨hsource, hvalid.source⟩, _,
      ⟨hmodel, hvalid.model⟩, _, ⟨hruntime, hvalid.runtime⟩, (), hvalid.names, rfl⟩

end Readers

/-! ### The normal form -/

theorem artifactLe_total (a b : ManifestArtifact) : artifactLe a b ∨ artifactLe b a := by
  unfold artifactLe
  rcases lt_trichotomy a.path b.path with h | h | h
  · exact Or.inl (Or.inl h)
  · rcases le_total a.role b.role with h' | h'
    · exact Or.inl (Or.inr ⟨h, h'⟩)
    · exact Or.inr (Or.inr ⟨h.symm, h'⟩)
  · exact Or.inr (Or.inl h)

theorem artifactLe_trans (a b c : ManifestArtifact) (hab : artifactLe a b) (hbc : artifactLe b c) :
    artifactLe a c := by
  unfold artifactLe at *
  rcases hab with hab | ⟨hab, hab'⟩
  · rcases hbc with hbc | ⟨hbc, -⟩
    · exact Or.inl (hab.trans hbc)
    · exact Or.inl (hbc ▸ hab)
  · rcases hbc with hbc | ⟨hbc, hbc'⟩
    · exact Or.inl (hab ▸ hbc)
    · exact Or.inr ⟨hab.trans hbc, hab'.trans hbc'⟩

instance : Std.Total artifactLe := ⟨artifactLe_total⟩

instance : IsTrans ManifestArtifact artifactLe := ⟨artifactLe_trans⟩

/-- The order of artifacts is one of their paths, where these are distinct. -/
theorem insertionSort_artifacts_congr {artifacts artifacts' : List ManifestArtifact}
    (h : artifacts.Perm artifacts') (hpaths : (artifacts.map ManifestArtifact.path).Nodup) :
    artifacts.insertionSort artifactLe = artifacts'.insertionSort artifactLe := by
  have hinj : ∀ a ∈ artifacts, ∀ b ∈ artifacts, a.path = b.path → a = b := fun a ha b hb =>
    List.inj_on_of_nodup_map hpaths ha hb
  refine List.Perm.eq_of_pairwise ?_ (List.pairwise_insertionSort artifactLe _)
    (List.pairwise_insertionSort artifactLe _)
    ((List.perm_insertionSort _ _).trans (h.trans (List.perm_insertionSort _ _).symm))
  intro a b ha hb hab hba
  have ha' : a ∈ artifacts := (List.perm_insertionSort _ _).mem_iff.mp ha
  have hb' : b ∈ artifacts := h.mem_iff.mpr ((List.perm_insertionSort _ _).mem_iff.mp hb)
  refine hinj a ha' b hb' ?_
  rcases hab with hab | hab
  · rcases hba with hba | hba
    · exact absurd hba (lt_asymm hab)
    · exact hba.1.symm
  · exact hab.1

namespace ModelManifestV1

/-- The manifest with its aliases and artifacts in order. -/
def normal (m : ModelManifestV1) : ModelManifestV1 :=
  { m with
    aliases := m.aliases.insertionSort (· ≤ ·)
    artifacts := m.artifacts.insertionSort artifactLe }

/-- Two manifests that differ in the order of aliases and artifacts alone. -/
structure Similar (m m' : ModelManifestV1) : Prop where
  schemaVersion : m.schemaVersion = m'.schemaVersion
  name : m.name = m'.name
  aliases : m.aliases.Perm m'.aliases
  source : m.source = m'.source
  model : m.model = m'.model
  runtime : m.runtime = m'.runtime
  artifacts : m.artifacts.Perm m'.artifacts

variable {lib : ManifestLibrary} {m m' : ModelManifestV1}

theorem normal_similar (m : ModelManifestV1) : m.normal.Similar m :=
  ⟨rfl, rfl, List.perm_insertionSort _ _, rfl, rfl, rfl, List.perm_insertionSort _ _⟩

theorem Similar.symm (h : m.Similar m') : m'.Similar m :=
  ⟨h.schemaVersion.symm, h.name.symm, h.aliases.symm, h.source.symm, h.model.symm, h.runtime.symm,
    h.artifacts.symm⟩

theorem Similar.trans {m'' : ModelManifestV1} (h : m.Similar m') (h' : m'.Similar m'') :
    m.Similar m'' :=
  ⟨h.schemaVersion.trans h'.schemaVersion, h.name.trans h'.name, h.aliases.trans h'.aliases,
    h.source.trans h'.source, h.model.trans h'.model, h.runtime.trans h'.runtime,
    h.artifacts.trans h'.artifacts⟩

theorem hasRole_perm {artifacts artifacts' : List ManifestArtifact} (h : artifacts.Perm artifacts')
    (roles : List String) : hasRole artifacts roles = hasRole artifacts' roles := h.any_eq

/-- Validity does not depend on the order. -/
theorem Similar.valid (h : m.Similar m') (hvalid : m.Valid lib) : m'.Valid lib where
  schemaVersion := h.schemaVersion ▸ hvalid.schemaVersion
  name := h.name ▸ hvalid.name
  aliases := ⟨fun s hs => hvalid.aliases.1 s (h.aliases.mem_iff.mpr hs),
    h.aliases.nodup_iff.mp hvalid.aliases.2⟩
  names := by
    have hperm : (m.name :: m.aliases).Perm (m'.name :: m'.aliases) := h.name ▸ h.aliases.cons m.name
    exact (hperm.map lib.casefold).nodup_iff.mp hvalid.names
  paths := (h.artifacts.map _).nodup_iff.mp hvalid.paths
  roles := by
    have hroles := hvalid.roles
    unfold missingRoles at hroles ⊢
    simpa only [hasRole_perm h.artifacts] using hroles
  source := h.source ▸ hvalid.source
  model := h.model ▸ hvalid.model
  runtime := h.runtime ▸ hvalid.runtime
  artifacts := fun a ha => hvalid.artifacts a (h.artifacts.mem_iff.mpr ha)

/-- The normal form does not depend on the order. -/
theorem Similar.normal_eq (h : m.Similar m') (hvalid : m.Valid lib) : m.normal = m'.normal := by
  have haliases : m.aliases.insertionSort (· ≤ ·) = m'.aliases.insertionSort (· ≤ ·) :=
    List.Perm.eq_of_pairwise' (List.pairwise_insertionSort _ _) (List.pairwise_insertionSort _ _)
      ((List.perm_insertionSort _ _).trans (h.aliases.trans (List.perm_insertionSort _ _).symm))
  have hartifacts := insertionSort_artifacts_congr h.artifacts hvalid.paths
  obtain ⟨schemaVersion, name, aliases, source, model, runtime, artifacts⟩ := m
  obtain ⟨schemaVersion', name', aliases', source', model', runtime', artifacts'⟩ := m'
  obtain ⟨rfl, rfl, -, rfl, rfl, rfl, -⟩ := h
  unfold normal
  dsimp only at haliases hartifacts ⊢
  rw [haliases, hartifacts]

/-- The rendering is one of the normal form. -/
theorem toDict_normal (m : ModelManifestV1) : m.normal.toDict = m.toDict := by
  unfold toDict normal
  dsimp only
  rw [(List.pairwise_insertionSort (· ≤ ·) m.aliases).insertionSort_eq,
    (List.pairwise_insertionSort artifactLe m.artifacts).insertionSort_eq]

end ModelManifestV1

/-! ### The canonical text is read back -/

/-- A sorted object is a document of the same fields, sorted inside. -/
theorem exact_sortKeys (table : List (String × Json)) (hnodup : (table.map Prod.fst).Nodup) :
    ∃ fields, (Json.obj table).sortKeys = .obj fields ∧ Exact fields (table.map Prod.fst) ∧
      ∀ key, fieldOf fields key = (fieldOf table key).sortKeys := by
  obtain ⟨fields, heq, hperm⟩ := Json.sortKeys_obj_perm table
  have hkeys : (fields.map Prod.fst).Nodup := by
    rw [(hperm.map Prod.fst).nodup_iff, List.map_map]
    exact hnodup
  have hlookup : ∀ key, fields.lookup key = (table.lookup key).map Json.sortKeys := by
    intro key
    rw [Json.lookup_perm hperm hkeys, Json.lookup_map_snd]
  refine ⟨fields, heq, ⟨?_, ?_⟩, ?_⟩
  · intro name hname
    obtain ⟨⟨key, value⟩, hmem, rfl⟩ := List.mem_map.mp hname
    rw [hlookup, (Json.lookup_eq_some_iff hnodup).mpr hmem]
    rfl
  · intro f hf
    obtain ⟨g, hg, rfl⟩ := List.mem_map.mp (hperm.mem_iff.mp hf)
    exact List.mem_map.mpr ⟨g, hg, rfl⟩
  · intro key
    unfold fieldOf
    rw [hlookup]
    cases table.lookup key <;> rfl

theorem ManifestArtifact.document_toDict (a : ManifestArtifact) : a.Document a.toDict.sortKeys := by
  obtain ⟨fields, heq, hexact, hfield⟩ := exact_sortKeys [("role", .str a.role),
    ("path", .str a.path), ("sha256", .str a.sha256), ("size", .int a.size)] (by
      change ["role", "path", "sha256", "size"].Nodup
      decide)
  exact ⟨fields, heq, hexact, hfield _, hfield _, hfield _, hfield _⟩

theorem ModelSource.document_toDict (s : ModelSource) : s.Document s.toDict.sortKeys := by
  obtain ⟨fields, heq, hexact, hfield⟩ := exact_sortKeys [("repository", .str s.repository),
    ("revision", .str s.revision)] (by
      change ["repository", "revision"].Nodup
      decide)
  exact ⟨fields, heq, hexact, hfield _, hfield _⟩

theorem ModelDescription.document_toDict (m : ModelDescription) : m.Document m.toDict.sortKeys := by
  obtain ⟨fields, heq, hexact, hfield⟩ := exact_sortKeys [("architecture", .str m.architecture),
    ("num_blocks", .int m.numBlocks), ("context_length", .int m.contextLength),
    ("license", .str m.license), ("gated", .bool m.gated)] (by
      change ["architecture", "num_blocks", "context_length", "license", "gated"].Nodup
      decide)
  exact ⟨fields, heq, hexact, hfield _, hfield _, hfield _, hfield _, hfield _⟩

theorem RuntimeProfile.document_toDict (r : RuntimeProfile) : r.Document r.toDict.sortKeys := by
  obtain ⟨fields, heq, hexact, hfield⟩ := exact_sortKeys [
    ("implementation", .str r.implementation), ("minimum_version", .str r.minimumVersion),
    ("maximum_version_exclusive", .str r.maximumVersionExclusive),
    ("protocol_version", .int r.protocolVersion), ("tensor_schema", .str r.tensorSchema),
    ("attention_implementation", .str r.attentionImplementation), ("dtype", .str r.dtype),
    ("quantization", .str r.quantization), ("adapter_profile", .str r.adapterProfile)] (by
      change runtimeFields.Nodup
      decide)
  exact ⟨fields, heq, hexact, hfield _, hfield _, hfield _, hfield _, hfield _, hfield _, hfield _,
    hfield _, hfield _⟩

namespace ModelManifestV1

variable {lib : ManifestLibrary} {m m' : ModelManifestV1}

/-- The rendering of a manifest is a document of its normal form. -/
theorem document_toDict (m : ModelManifestV1) : m.normal.Document m.toDict.sortKeys := by
  obtain ⟨fields, heq, hexact, hfield⟩ := exact_sortKeys [
    ("schema_version", .int m.schemaVersion), ("name", .str m.name),
    ("aliases", .arr ((m.aliases.insertionSort (· ≤ ·)).map .str)), ("source", m.source.toDict),
    ("model", m.model.toDict), ("runtime", m.runtime.toDict),
    ("artifacts", .arr ((m.artifacts.insertionSort artifactLe).map ManifestArtifact.toDict))] (by
      change manifestFields.Nodup
      decide)
  have harr : ∀ items : List Json, (Json.arr items).sortKeys = .arr (items.map Json.sortKeys) :=
    fun items => congrArg Json.arr (Json.sortItems_eq items)
  have hsource : fieldOf fields "source" = m.source.toDict.sortKeys := hfield "source"
  have hmodel : fieldOf fields "model" = m.model.toDict.sortKeys := hfield "model"
  have hruntime : fieldOf fields "runtime" = m.runtime.toDict.sortKeys := hfield "runtime"
  refine ⟨fields, _, heq, hexact, hfield _, hfield _, ?_, hsource ▸ m.source.document_toDict,
    hmodel ▸ m.model.document_toDict, hruntime ▸ m.runtime.document_toDict,
    (hfield "artifacts").trans (harr _), ?_⟩
  · refine (hfield "aliases").trans ((harr _).trans ?_)
    rw [List.map_map]
    rfl
  · rw [List.map_map, List.forall₂_map_left_iff]
    exact List.forall₂_same.mpr fun a _ => a.document_toDict

/-- The rendering holds neither fractions nor values foreign to JSON. -/
theorem plain_toDict (m : ModelManifestV1) : m.toDict.Plain := by
  have haliases : Json.PlainItems ((m.aliases.insertionSort (· ≤ ·)).map .str) := by
    rw [Json.plainItems_iff]
    intro x hx
    obtain ⟨s, -, rfl⟩ := List.mem_map.mp hx
    trivial
  have hartifacts : Json.PlainItems ((m.artifacts.insertionSort artifactLe).map
      ManifestArtifact.toDict) := by
    rw [Json.plainItems_iff]
    intro x hx
    obtain ⟨a, -, rfl⟩ := List.mem_map.mp hx
    exact ⟨trivial, trivial, trivial, trivial, trivial⟩
  exact ⟨trivial, trivial, haliases, ⟨trivial, trivial, trivial⟩,
    ⟨trivial, trivial, trivial, trivial, trivial, trivial⟩,
    ⟨trivial, trivial, trivial, trivial, trivial, trivial, trivial, trivial, trivial, trivial⟩,
    hartifacts, trivial⟩

/-- No object of the rendering has a key twice. -/
theorem distinctKeys_toDict (m : ModelManifestV1) : m.toDict.distinctKeys = true := by
  have haliases : Json.distinctItems ((m.aliases.insertionSort (· ≤ ·)).map .str) = true := by
    rw [Json.distinctItems_iff]
    intro x hx
    obtain ⟨s, -, rfl⟩ := List.mem_map.mp hx
    rfl
  have hartifacts : Json.distinctItems ((m.artifacts.insertionSort artifactLe).map
      ManifestArtifact.toDict) = true := by
    rw [Json.distinctItems_iff]
    intro x hx
    obtain ⟨a, -, rfl⟩ := List.mem_map.mp hx
    rfl
  change (decide manifestFields.Nodup && Json.distinctFields _) = true
  rw [Bool.and_eq_true, Json.distinctFields_iff]
  refine ⟨by decide, ?_⟩
  simp only [List.forall_mem_cons]
  exact ⟨rfl, rfl, haliases, rfl, rfl, rfl, hartifacts, fun f hf => absurd hf List.not_mem_nil⟩

/-- **The canonical text is read** as the normal form, also where blanks follow it. -/
theorem fromJson_canonicalJson_append (hvalid : m.Valid lib) {tail : String}
    (htail : tail.toList.all Json.isSpace = true) : fromJson lib (m.canonicalJson ++ tail) = .ok m.normal := by
  have hloads : Json.loads (m.canonicalJson ++ tail) = some m.toDict.sortKeys :=
    Json.loads_dumps m.plain_toDict tail htail
  unfold fromJson
  rw [hloads]
  dsimp only
  rw [if_neg (by rw [Json.distinctKeys_sortKeys _ m.distinctKeys_toDict]; decide)]
  exact fromDict_iff.mpr ⟨m.document_toDict, m.normal_similar.symm.valid hvalid⟩

theorem fromJson_canonicalJson (hvalid : m.Valid lib) : fromJson lib m.canonicalJson = .ok m.normal := by
  have hread := fromJson_canonicalJson_append hvalid (rfl : "".toList.all Json.isSpace = true)
  rwa [String.append_empty] at hread

/-- Equal canonical texts are those of similar manifests. -/
theorem similar_of_canonicalJson (hvalid : m.Valid lib) (hvalid' : m'.Valid lib)
    (h : m.canonicalJson = m'.canonicalJson) : m.Similar m' := by
  have hread := fromJson_canonicalJson hvalid
  rw [h, fromJson_canonicalJson hvalid'] at hread
  have hnormal : m'.normal = m.normal := Except.ok.inj hread
  exact m.normal_similar.symm.trans (hnormal ▸ m'.normal_similar)

/-- Similar manifests have one canonical text. -/
theorem canonicalJson_congr (h : m.Similar m') (hvalid : m.Valid lib) :
    m.canonicalJson = m'.canonicalJson := by
  unfold canonicalJson
  rw [← m.toDict_normal, h.normal_eq hvalid, m'.toDict_normal]

end ModelManifestV1

/-! ### The order in the source document -/

/-- The document with other aliases and artifacts. -/
def withLists (fields : List (String × Json)) (aliases artifacts : List Json) : List (String × Json) :=
  fields.map fun f =>
    if f.1 = "aliases" then (f.1, .arr aliases)
    else if f.1 = "artifacts" then (f.1, .arr artifacts)
    else f

theorem map_fst_withLists (fields : List (String × Json)) (aliases artifacts : List Json) :
    (withLists fields aliases artifacts).map Prod.fst = fields.map Prod.fst := by
  unfold withLists
  rw [List.map_map]
  refine List.map_congr_left fun f _ => ?_
  rw [Function.comp_apply]
  split_ifs <;> rfl

theorem lookup_withLists (fields : List (String × Json)) (aliases artifacts : List Json) (key : String) :
    (withLists fields aliases artifacts).lookup key =
      (fields.lookup key).map fun value =>
        if key = "aliases" then .arr aliases else if key = "artifacts" then .arr artifacts else value := by
  induction fields with
  | nil => rfl
  | cons f fields ih =>
    obtain ⟨k, value⟩ := f
    have hkey : (if k = "aliases" then (k, Json.arr aliases)
        else if k = "artifacts" then (k, Json.arr artifacts) else (k, value)) =
        (k, if k = "aliases" then Json.arr aliases
          else if k = "artifacts" then Json.arr artifacts else value) := by
      split_ifs <;> rfl
    unfold withLists at ih ⊢
    rw [List.map_cons, List.lookup_cons, hkey, List.lookup_cons, ih]
    by_cases heq : key = k
    · subst heq
      rw [beq_self_eq_true]
      rfl
    · rw [beq_false_of_ne heq]

/-- The other fields are as they were. -/
theorem fieldOf_withLists {fields : List (String × Json)} {aliases artifacts : List Json} {key : String}
    (haliases : key ≠ "aliases") (hartifacts : key ≠ "artifacts") :
    fieldOf (withLists fields aliases artifacts) key = fieldOf fields key := by
  unfold fieldOf
  rw [lookup_withLists]
  simp only [haliases, hartifacts, if_false, Option.map_id']

/-- A field that is there has the new list. -/
theorem fieldOf_withLists_of_isSome {fields : List (String × Json)} {aliases artifacts : List Json}
    {key : String} (h : (fields.lookup key).isSome = true) :
    fieldOf (withLists fields aliases artifacts) key =
      if key = "aliases" then .arr aliases else if key = "artifacts" then .arr artifacts
      else fieldOf fields key := by
  obtain ⟨value, hvalue⟩ := Option.isSome_iff_exists.mp h
  unfold fieldOf
  rw [lookup_withLists, hvalue]
  rfl

theorem exact_withLists {fields : List (String × Json)} {names : List String} (h : Exact fields names)
    (aliases artifacts : List Json) : Exact (withLists fields aliases artifacts) names := by
  refine ⟨fun name hname => ?_, fun f hf => ?_⟩
  · rw [lookup_withLists, Option.isSome_map]
    exact h.1 name hname
  · have hkey : f.1 ∈ (withLists fields aliases artifacts).map Prod.fst := List.mem_map_of_mem hf
    rw [map_fst_withLists] at hkey
    obtain ⟨g, hg, heq⟩ := List.mem_map.mp hkey
    exact heq ▸ h.2 g hg

/-- A permutation of what is described is described by a permutation. -/
theorem forall₂_perm {α β : Type} {r : α → β → Prop} {xs xs' : List α} {ys : List β}
    (h : List.Forall₂ r xs ys) (hperm : xs.Perm xs') : ∃ ys', ys'.Perm ys ∧ List.Forall₂ r xs' ys' := by
  obtain ⟨ys', hforall, hys⟩ := List.perm_comp_forall₂ hperm.symm h
  exact ⟨ys', hys, hforall⟩

namespace ModelManifestV1

variable {lib : ManifestLibrary} {m m' : ModelManifestV1}

/-- **The source document may list aliases and artifacts in any order.** -/
theorem fromDict_withLists {fields : List (String × Json)} {aliases aliases' artifacts artifacts' : List Json}
    (h : fromDict lib (.obj fields) = .ok m) (haliases : fieldOf fields "aliases" = .arr aliases)
    (hartifacts : fieldOf fields "artifacts" = .arr artifacts) (hperm : aliases.Perm aliases')
    (hperm' : artifacts.Perm artifacts') :
    ∃ m', fromDict lib (.obj (withLists fields aliases' artifacts')) = .ok m' ∧ m.Similar m' := by
  obtain ⟨⟨_, items, hobj, hexact, hschema, hname, hread, hsource, hmodel, hruntime, hitems, hdocuments⟩,
    hvalid⟩ := fromDict_iff.mp h
  cases hobj
  rw [haliases] at hread
  rw [hartifacts] at hitems
  cases hread
  cases hitems
  have hstrings : List.Forall₂ (fun item s => item = Json.str s) (m.aliases.map .str) m.aliases := by
    rw [List.forall₂_map_left_iff]
    exact List.forall₂_same.mpr fun _ _ => rfl
  obtain ⟨strings, hstringsPerm, hstrings'⟩ := forall₂_perm hstrings hperm
  obtain ⟨listed, hlistedPerm, hdocuments'⟩ := forall₂_perm hdocuments hperm'
  have halias : aliases' = strings.map .str := by
    have heq : List.Forall₂ (· = ·) aliases' (strings.map .str) :=
      List.forall₂_map_right_iff.mpr hstrings'
    rwa [List.forall₂_eq_eq_eq] at heq
  have hsimilar : m.Similar { m with aliases := strings, artifacts := listed } :=
    ⟨rfl, rfl, hstringsPerm.symm, rfl, rfl, rfl, hlistedPerm.symm⟩
  refine ⟨_, ?_, hsimilar⟩
  have hlists : (fields.lookup "aliases").isSome = true ∧ (fields.lookup "artifacts").isSome = true :=
    ⟨hexact.1 _ (by decide), hexact.1 _ (by decide)⟩
  refine fromDict_iff.mpr ⟨⟨_, artifacts', rfl, exact_withLists hexact _ _, ?_, ?_, ?_, ?_, ?_, ?_, ?_,
    hdocuments'⟩, hsimilar.valid hvalid⟩
  · rwa [fieldOf_withLists (by decide) (by decide)]
  · rwa [fieldOf_withLists (by decide) (by decide)]
  · rw [fieldOf_withLists_of_isSome hlists.1, if_pos rfl, halias]
  · rwa [fieldOf_withLists (by decide) (by decide)]
  · rwa [fieldOf_withLists (by decide) (by decide)]
  · rwa [fieldOf_withLists (by decide) (by decide)]
  · rw [fieldOf_withLists_of_isSome hlists.2, if_neg (by decide), if_pos rfl]

/-- **The identity is canonical.** The canonical text of an accepted manifest is accepted and stands for
the same text, digest and namespace; the digest does not depend on the order of aliases and artifacts in
the source document; and equal texts are those of manifests that differ in this order alone. -/
theorem manifest_identity_canonical (lib : ManifestLibrary) (sha256 : String → String) :
    (∀ source m, fromDict lib source = .ok m → ∃ m', fromJson lib m.canonicalJson = .ok m' ∧
      m'.Similar m ∧ m'.canonicalJson = m.canonicalJson ∧ m'.digest sha256 = m.digest sha256 ∧
      m'.dhtPrefix sha256 = m.dhtPrefix sha256) ∧
    (∀ fields m aliases aliases' artifacts artifacts', fromDict lib (.obj fields) = .ok m →
      fieldOf fields "aliases" = .arr aliases → fieldOf fields "artifacts" = .arr artifacts →
      aliases.Perm aliases' → artifacts.Perm artifacts' →
      ∃ m', fromDict lib (.obj (withLists fields aliases' artifacts')) = .ok m' ∧
        m'.digest sha256 = m.digest sha256) ∧
    ∀ source source' m m', fromDict lib source = .ok m → fromDict lib source' = .ok m' →
      m.canonicalJson = m'.canonicalJson → m.Similar m' := by
  refine ⟨?_, ?_, ?_⟩
  · intro source m h
    have hvalid := (fromDict_iff.mp h).2
    have htext : m.normal.canonicalJson = m.canonicalJson := congrArg Json.dumps m.toDict_normal
    refine ⟨m.normal, fromJson_canonicalJson hvalid, m.normal_similar, htext, congrArg sha256 htext, ?_⟩
    exact congrArg (fun text => manifestNamespacePrefix ++ sha256 text) htext
  · intro fields m aliases aliases' artifacts artifacts' h haliases hartifacts hperm hperm'
    obtain ⟨m', h', hsimilar⟩ := fromDict_withLists h haliases hartifacts hperm hperm'
    exact ⟨m', h', congrArg sha256 (canonicalJson_congr hsimilar (fromDict_iff.mp h).2).symm⟩
  · intro source source' m m' h h'
    exact similar_of_canonicalJson (fromDict_iff.mp h).2 (fromDict_iff.mp h').2

end ModelManifestV1

/-! ### A small manifest -/

/-- What the parameters are on the strings below. -/
def asciiLibrary : ManifestLibrary where
  isNfc := fun _ => true
  casefold := String.toLower
  versionLess := fun a b => if a = "2.3.0" ∧ b = "3.0.0" then some true else none

/-- A digest of 64 digits. -/
def someDigest (c : Char) : String := String.ofList (List.replicate 64 c)

/-- A source document with two aliases and three artifacts. -/
def smallDocument : List (String × Json) :=
  [("schema_version", .int 1), ("name", .str "tiny"), ("aliases", .arr [.str "small", .str "mini"]),
    ("source", .obj [("repository", .str "org/tiny"),
      ("revision", .str (String.ofList (List.replicate 40 'a')))]),
    ("model", .obj [("architecture", .str "LlamaForCausalLM"), ("num_blocks", .int 2),
      ("context_length", .int 128), ("license", .str "mit"), ("gated", .bool false)]),
    ("runtime", .obj [("implementation", .str "drift"), ("minimum_version", .str "2.3.0"),
      ("maximum_version_exclusive", .str "3.0.0"), ("protocol_version", .int 1),
      ("tensor_schema", .str "hidden-states-v1"), ("attention_implementation", .str "auto"),
      ("dtype", .str "float16"), ("quantization", .str "none"), ("adapter_profile", .str "none")]),
    ("artifacts", .arr [
      (ManifestArtifact.toDict ⟨"weight", "model.safetensors", someDigest '1', 10⟩),
      (ManifestArtifact.toDict ⟨"tokenizer", "tokenizer.json", someDigest '2', 5⟩),
      (ManifestArtifact.toDict ⟨"config", "config.json", someDigest '3', 3⟩)])]

theorem manifest_identity_canonical_of_small :
    ∃ m, ModelManifestV1.fromDict asciiLibrary (.obj smallDocument) = .ok m ∧
      (∃ m', ModelManifestV1.fromJson asciiLibrary m.canonicalJson = .ok m' ∧
        m'.canonicalJson = m.canonicalJson) ∧
      ∃ m', ModelManifestV1.fromDict asciiLibrary (.obj (withLists smallDocument
          [.str "mini", .str "small"] [
            (ManifestArtifact.toDict ⟨"tokenizer", "tokenizer.json", someDigest '2', 5⟩),
            (ManifestArtifact.toDict ⟨"weight", "model.safetensors", someDigest '1', 10⟩),
            (ManifestArtifact.toDict ⟨"config", "config.json", someDigest '3', 3⟩)])) = .ok m' ∧
        m'.digest id = m.digest id ∧ m.Similar m' := by
  have haccepted : (ModelManifestV1.fromDict asciiLibrary (.obj smallDocument)).isOk = true := by
    decide +kernel
  cases h : ModelManifestV1.fromDict asciiLibrary (.obj smallDocument) with
  | error e =>
    rw [h] at haccepted
    cases haccepted
  | ok m =>
    obtain ⟨hread, horder, hequal⟩ := ModelManifestV1.manifest_identity_canonical asciiLibrary id
    obtain ⟨m₁, hread₁, -, htext, -⟩ := hread _ m h
    obtain ⟨m₂, hread₂, hdigest⟩ := horder smallDocument m _ _ _ _ h rfl rfl (List.Perm.swap _ _ _)
      (List.Perm.swap _ _ _)
    exact ⟨m, rfl, ⟨m₁, hread₁, htext⟩, m₂, hread₂, hdigest, hequal _ _ m m₂ h hread₂ hdigest.symm⟩

end Drift.Manifest
