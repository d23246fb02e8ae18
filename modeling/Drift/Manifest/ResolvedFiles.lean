import Drift.Manifest.CanonicalManifest
import Drift.Manifest.ResumableDownload

/-!
# Resolved files

A loader resolves files on its own, and the verifier maps each of them back to the artifact it is: the one
whose path ends the file's path. Where this does not single out an artifact the file is refused. A file
that `ensure_path` has returned lies below the snapshot root under its artifact's path, so that its
artifact is always among the matches; it is the only one unless another declared path ends the file's path
as well.

* `verifyResolvedFile` — `verify_resolved_file`, over the parts of an absolute path;
* `ModelManifestV1.verified` — the verifier's view of an accepted manifest;
* `resolved_file_iff` — when a materialized file is accepted.
-/

namespace Drift.Manifest

open Drift.Lib

/-- The artifacts whose path ends a path. -/
def matchingArtifacts (artifacts : List ManifestArtifact) (candidate : List String) :
    List ManifestArtifact :=
  artifacts.filter fun artifact => decide (pathParts artifact.path <:+ candidate)

/-- `verify_resolved_file`, with the content of the file. It gives the artifact the file is taken for. -/
def verifyResolvedFile (sha256 : Bytes → String) (artifacts : List ManifestArtifact)
    (candidate : List String) (content : Option Bytes) (allowedRoles : Option (List String)) :
    Except ManifestError ManifestArtifact :=
  match matchingArtifacts artifacts candidate with
  | [artifact] => do
    artifact.checkRole allowedRoles
    match content with
    | none => raiseManifest s!"Could not read artifact {artifact.path}"
    | some content =>
      verifyArtifactFile sha256 artifact content
      pure artifact
  | _ =>
    let file := "/".intercalate candidate
    raiseManifest (s!"Resolved checkpoint file {file} does not map uniquely to a declared manifest " ++
      "artifact")

/-- What a verifier of an accepted manifest knows of it. -/
def ModelManifestV1.verified {lib : ManifestLibrary} (m : ModelManifestV1) (h : m.Valid lib) :
    ModelManifest where
  repository := m.source.repository
  revision := m.source.revision
  artifacts := m.artifacts
  paths_nodup := h.paths
  roles := by
    have hroles := h.roles
    unfold missingRoles at hroles
    obtain ⟨hnamed, hweights⟩ := List.append_eq_nil_iff.mp hroles
    rw [List.filter_eq_nil_iff] at hnamed
    refine ⟨by simpa using hnamed "config" (by decide), by simpa using hnamed "tokenizer" (by decide), ?_⟩
    by_contra hnone
    rw [if_neg hnone] at hweights
    cases hweights

section Verifier

variable {sha256 : Bytes → String} {lib : ManifestLibrary} {m : ModelManifestV1}

/-- The artifact of a file below a root is among the matches. -/
theorem mem_matchingArtifacts {artifacts : List ManifestArtifact} {a : ManifestArtifact}
    (ha : a ∈ artifacts) (root : List String) :
    a ∈ matchingArtifacts artifacts (root ++ pathParts a.path) :=
  List.mem_filter.mpr ⟨ha, decide_eq_true (List.suffix_append _ _)⟩

/-- It is the only one where no other path ends the file's. -/
theorem matchingArtifacts_eq_singleton {artifacts : List ManifestArtifact} {a : ManifestArtifact}
    (ha : a ∈ artifacts) (hnodup : artifacts.Nodup) (root : List String) :
    matchingArtifacts artifacts (root ++ pathParts a.path) = [a] ↔
      ∀ b ∈ artifacts, pathParts b.path <:+ root ++ pathParts a.path → b = a := by
  constructor
  · intro h b hb hsuffix
    have hmem : b ∈ matchingArtifacts artifacts (root ++ pathParts a.path) :=
      List.mem_filter.mpr ⟨hb, decide_eq_true hsuffix⟩
    rw [h] at hmem
    exact List.mem_singleton.mp hmem
  · intro h
    refine List.perm_singleton.mp ((List.perm_ext_iff_of_nodup (hnodup.filter _)
      (List.nodup_singleton a)).mpr fun b => ?_)
    rw [List.mem_singleton]
    constructor
    · intro hb
      obtain ⟨hmem, hsuffix⟩ := List.mem_filter.mp hb
      exact h b hmem (of_decide_eq_true hsuffix)
    · rintro rfl
      exact mem_matchingArtifacts ha root

/-- What is accepted is a match, and the only one. -/
theorem verifyResolvedFile_ok {artifacts : List ManifestArtifact} {candidate : List String}
    {content : Option Bytes} {allowedRoles : Option (List String)} {a : ManifestArtifact} :
    verifyResolvedFile sha256 artifacts candidate content allowedRoles = .ok a ↔
      matchingArtifacts artifacts candidate = [a] ∧ a.checkRole allowedRoles = .ok () ∧
        ∃ bytes, content = some bytes ∧ verifyArtifactFile sha256 a bytes = .ok () := by
  unfold verifyResolvedFile raiseManifest
  split
  · rename_i artifact hmatches
    rw [hmatches, bind_eq_ok]
    cases content with
    | none =>
      refine iff_of_false ?_ ?_
      · rintro ⟨-, -, h⟩
        cases h
      · rintro ⟨-, -, bytes, h, -⟩
        cases h
    | some bytes =>
      simp only [bind_eq_ok, Option.some.injEq, List.cons.injEq, and_true]
      constructor
      · rintro ⟨⟨⟩, hrole, ⟨⟩, hverified, h⟩
        cases h
        exact ⟨rfl, hrole, bytes, rfl, hverified⟩
      · rintro ⟨rfl, hrole, bytes', rfl, hverified⟩
        exact ⟨(), hrole, (), hverified, rfl⟩
  · rename_i hnot
    exact iff_of_false (fun h => by cases h) fun h => hnot a h.1

/-- **A verified file below a root** is accepted as its artifact where no other declared path ends its
path, and is never taken for another artifact. -/
theorem verifyResolvedFile_below {artifacts : List ManifestArtifact} {a : ManifestArtifact}
    (ha : a ∈ artifacts) (hpaths : (artifacts.map ManifestArtifact.path).Nodup) (root : List String)
    {content : Bytes} (hverified : verifyArtifactFile sha256 a content = .ok ()) :
    (verifyResolvedFile sha256 artifacts (root ++ pathParts a.path) (some content) none = .ok a ↔
      ∀ b ∈ artifacts, pathParts b.path <:+ root ++ pathParts a.path → b = a) ∧
    ∀ b, verifyResolvedFile sha256 artifacts (root ++ pathParts a.path) (some content) none = .ok b →
      b = a := by
  rw [verifyResolvedFile_ok, matchingArtifacts_eq_singleton ha (List.Nodup.of_map _ hpaths)]
  refine ⟨⟨fun h => h.1, fun h => ⟨h, rfl, content, rfl, hverified⟩⟩, ?_⟩
  intro b hb
  have hmem := mem_matchingArtifacts ha root
  rw [(verifyResolvedFile_ok.mp hb).1] at hmem
  exact (List.mem_singleton.mp hmem).symm

/-- A declared path is found as it is. -/
theorem getArtifact_of_mem {v : ManifestArtifactVerifier} {a : ManifestArtifact}
    (ha : a ∈ v.manifest.artifacts) (hpath : isRelativePath a.path = true) :
    v.getArtifact a.path = .ok a := by
  have hposix : asPosix a.path = a.path := by
    unfold isRelativePath at hpath
    simp only [Bool.not_eq_true', Bool.or_eq_false_iff, bne_eq_false_iff_eq] at hpath
    exact hpath.1.2.symm
  have hfind : v.manifest.artifacts.find? (fun artifact => artifact.path == a.path) = some a := by
    obtain ⟨before, after, hsplit⟩ := List.append_of_mem ha
    have hnodup := v.manifest.paths_nodup
    rw [hsplit, List.map_append, List.map_cons] at hnodup
    have hbefore : before.find? (fun artifact => artifact.path == a.path) = none := by
      rw [List.find?_eq_none]
      intro b hb heq
      exact (List.nodup_append.mp hnodup).2.2 b.path (List.mem_map_of_mem hb) a.path
        List.mem_cons_self (beq_iff_eq.mp heq)
    rw [hsplit, List.find?_append, hbefore, List.find?_cons, beq_self_eq_true]
    rfl
  unfold ManifestArtifactVerifier.getArtifact
  rw [hposix, hfind]

/-- What `ensure_path` returns has been verified. -/
theorem ensurePath_verified {v : ManifestArtifactVerifier} {s s' : VerifierState} {call : EnsureCall}
    {root : SnapshotRoot} {a : ManifestArtifact} (ha : v.getArtifact call.path = .ok a)
    (h : v.ensurePath sha256 s call = (.ok root, s')) :
    ∃ content, v.contentAt s'.dir root a.path = some content ∧
      verifyArtifactFile sha256 a content = .ok () := by
  unfold ManifestArtifactVerifier.ensurePath at h
  rw [ha] at h
  dsimp only at h
  split at h
  · cases h
  split at h
  · cases h
  · rename_i root' s'' hmaterialized
    obtain ⟨hresult, rfl⟩ := Prod.mk.inj h
    unfold ManifestArtifactVerifier.verify at hresult
    split at hresult
    · cases hresult
    · rename_i content hcontent
      cases hverified : verifyArtifactFile sha256 a content with
      | error e =>
        rw [hverified] at hresult
        cases hresult
      | ok u =>
        rw [hverified] at hresult
        cases hresult
        exact ⟨content, hcontent, hverified⟩

/-- **Verification accepts what materialization returns**, of any accepted manifest, exactly where no other
declared path ends the returned path; it never takes the file for another artifact. This holds of every
verified file below a root, and so of what `ensure_path` returns. -/
theorem resolved_file_iff {source : Json} (h : ModelManifestV1.fromDict lib source = .ok m)
    {a : ManifestArtifact} (ha : a ∈ m.artifacts) :
    (∀ (root : List String) (content : Bytes), verifyArtifactFile sha256 a content = .ok () →
      (verifyResolvedFile sha256 m.artifacts (root ++ pathParts a.path) (some content) none = .ok a ↔
        ∀ b ∈ m.artifacts, pathParts b.path <:+ root ++ pathParts a.path → b = a) ∧
      ∀ b, verifyResolvedFile sha256 m.artifacts (root ++ pathParts a.path) (some content) none = .ok b →
        b = a) ∧
    ∀ (directory : SnapshotRoot → List String) (maxDiskSpace : Option Int) (s s' : VerifierState)
      (call : EnsureCall) (root : SnapshotRoot), call.path = a.path →
      let v : ManifestArtifactVerifier :=
        ⟨m.verified (ModelManifestV1.fromDict_iff.mp h).2, maxDiskSpace⟩
      let candidate := directory root ++ pathParts a.path
      let content := v.contentAt s'.dir root a.path
      v.ensurePath sha256 s call = (.ok root, s') →
      (verifyResolvedFile sha256 m.artifacts candidate content none = .ok a ↔
        ∀ b ∈ m.artifacts, pathParts b.path <:+ candidate → b = a) ∧
      ∀ b, verifyResolvedFile sha256 m.artifacts candidate content none = .ok b → b = a := by
  have hvalid := (ModelManifestV1.fromDict_iff.mp h).2
  have hbelow := fun root content => @verifyResolvedFile_below sha256 _ _ ha hvalid.paths root content
  refine ⟨hbelow, ?_⟩
  intro directory maxDiskSpace s s' call root hpath v candidate content hreturned
  have hartifact : v.getArtifact call.path = .ok a := by
    rw [hpath]
    exact getArtifact_of_mem (v := v) ha (hvalid.artifacts a ha).path.2
  obtain ⟨bytes, hcontent, hverified⟩ := ensurePath_verified hartifact hreturned
  have hresult := hbelow (directory root) bytes hverified
  simp only [content, hcontent, candidate]
  exact hresult

end Verifier

/-! ### A nested artifact -/

/-- A manifest whose weights have a second copy in a directory. -/
def nestedManifest : ModelManifestV1 where
  schemaVersion := 1
  name := "tiny"
  aliases := []
  source := ⟨"org/tiny", String.ofList (List.replicate 40 'a')⟩
  model := ⟨"LlamaForCausalLM", 2, 128, "mit", false⟩
  runtime := ⟨"drift", "2.3.0", "3.0.0", 1, "hidden-states-v1", "auto", "float16", "none", "none"⟩
  artifacts := [⟨"config", "config.json", emptyDigest, 0⟩,
    ⟨"weight", "model.safetensors", someDigest '1', 10⟩,
    ⟨"weight", "original/model.safetensors", emptyDigest, 0⟩,
    ⟨"tokenizer", "tokenizer.json", someDigest '2', 5⟩]

/-- SHA-256, on the content of the files below. -/
def emptySha256 (content : Bytes) : String := if content = [] then emptyDigest else ""

/-- The Hub's cache has the configuration and the second copy. -/
def nestedState : VerifierState where
  dir := ⟨[⟨"org/tiny", String.ofList (List.replicate 40 'a'), "config.json", [], 0⟩,
    ⟨"org/tiny", String.ofList (List.replicate 40 'a'), "original/model.safetensors", [], 0⟩], ∅, ∅⟩
  snapshotRoot := none

/-- A call for a file of the cache. -/
def callFor (path : String) : EnsureCall := ⟨path, none, 0, .refused, 0, true⟩

theorem fromDict_nestedManifest :
    ModelManifestV1.fromDict asciiLibrary nestedManifest.toDict = .ok nestedManifest := by
  have hread : (ModelManifestV1.fromDict asciiLibrary nestedManifest.toDict).toOption =
      some nestedManifest := by decide +kernel
  cases h : ModelManifestV1.fromDict asciiLibrary nestedManifest.toDict with
  | error e =>
    rw [h] at hread
    cases hread
  | ok m =>
    rw [h] at hread
    cases hread
    rfl

/-- The verifier of this manifest. -/
def nestedVerifier : ManifestArtifactVerifier :=
  ⟨nestedManifest.verified (ModelManifestV1.fromDict_iff.mp fromDict_nestedManifest).2, none⟩

/-- What a computation that returns leaves. -/
theorem returns_of_toOption {ε α β : Type} {x : Except ε α × β} {a : α} (h : x.1.toOption = some a) :
    x = (.ok a, x.2) := by
  obtain ⟨result, s⟩ := x
  cases result with
  | error e => cases h
  | ok b =>
    cases h
    rfl

/-- The second copy is materialized and verified, and refused as a resolved file: the path of the first one
ends its path. -/
theorem nested_artifact_refused :
    ModelManifestV1.fromDict asciiLibrary nestedManifest.toDict = .ok nestedManifest ∧
      nestedVerifier.ensurePath emptySha256 nestedState (callFor "original/model.safetensors") =
        (.ok .hub, (nestedVerifier.ensurePath emptySha256 nestedState
          (callFor "original/model.safetensors")).2) ∧
      ∀ b, verifyResolvedFile emptySha256 nestedManifest.artifacts
        ["/", "cache", "snapshots", "original", "model.safetensors"] (some []) none ≠ .ok b := by
  refine ⟨fromDict_nestedManifest, returns_of_toOption (by decide +kernel), ?_⟩
  intro b h
  have hmatches := (verifyResolvedFile_ok.mp h).1
  have htwo : (matchingArtifacts nestedManifest.artifacts
      ["/", "cache", "snapshots", "original", "model.safetensors"]).length = 2 := by decide +kernel
  rw [hmatches] at htwo
  cases htwo

/-- The configuration is accepted. -/
theorem resolved_file_iff_of_config :
    verifyResolvedFile emptySha256 nestedManifest.artifacts ["/", "cache", "snapshots", "config.json"]
      (nestedVerifier.contentAt (nestedVerifier.ensurePath emptySha256 nestedState
        (callFor "config.json")).2.dir .hub "config.json") none =
      .ok ⟨"config", "config.json", emptyDigest, 0⟩ := by
  have hreturned := (@resolved_file_iff emptySha256 _ _ _ fromDict_nestedManifest
    ⟨"config", "config.json", emptyDigest, 0⟩ List.mem_cons_self).2
    (fun _ => ["/", "cache", "snapshots"]) none nestedState _ (callFor "config.json") .hub rfl
    (returns_of_toOption (by decide +kernel))
  exact hreturned.1.mpr (by decide +kernel)

end Drift.Manifest
