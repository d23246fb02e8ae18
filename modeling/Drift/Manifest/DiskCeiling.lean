import Drift.Manifest.ArtifactVerifier

/-!
# The disk ceiling of a verifier

Before a download the verifier asks `free_disk_space_for` whether the artifact fits under the ceiling. That
function counts what the Hub's cache holds, and the verifier's own snapshot is not part of it: over a
directory that only the verifier writes to, each artifact is compared with the whole ceiling, however much
has been materialized before (`two_artifacts_exceed_the_ceiling`).

`disk_ceiling` is what is left: the ceiling holds along every run in which each artifact that the check
lets through, and that is delivered, fits beside those before it (`Fits`), and the first call that does
not meet this breaks it. The step is `materialize_spec`, which says exactly when a call adds an artifact.
-/

namespace Drift.Manifest

open Drift.Lib

section Verifier

variable {sha256 : Bytes → String}

/-! ### One transfer -/

theorem verifyArtifactFile_length {artifact : ManifestArtifact} {content : Bytes} {u : Unit}
    (h : verifyArtifactFile sha256 artifact content = .ok u) : content.length = artifact.size := by
  unfold verifyArtifactFile at h
  split at h
  · cases h
  next hlength => exact not_not.mp hlength

/-- A transfer that returns leaves a file of the declared size, and one that raises leaves none. -/
def Delivers (artifact : ManifestArtifact) (d : Downloaded) : Prop :=
  (∀ u, d.result = .ok u → ∃ content, d.final = some content ∧ content.length = artifact.size) ∧
    ∀ e, d.result = .error e → d.final = none

theorem receive_delivers (artifact : ManifestArtifact) (partialFile : Option Bytes) (transfer : Transfer) :
    Delivers artifact (receive sha256 artifact partialFile transfer) := by
  unfold receive
  split
  · exact ⟨fun u h => (by cases h), fun _ _ => rfl⟩
  next r =>
  dsimp only
  split
  · exact ⟨fun u h => (by cases h), fun _ _ => rfl⟩
  split
  · exact ⟨fun u h => (by cases h), fun _ _ => rfl⟩
  split
  next hverified =>
    exact ⟨fun _ _ => ⟨_, rfl, verifyArtifactFile_length hverified⟩, fun e h => (by cases h)⟩
  · exact ⟨fun u h => (by cases h), fun _ _ => rfl⟩

theorem resumableHubDownload_delivers (sha256 : Bytes → String) (artifact : ManifestArtifact) (partialFile : Option Bytes)
    (transfer : Transfer) :
    Delivers artifact (resumableHubDownload sha256 artifact partialFile none transfer) := by
  unfold resumableHubDownload
  dsimp only
  split
  next content _ =>
    split
    · split
      next hverified =>
        exact ⟨fun _ _ => ⟨_, rfl, verifyArtifactFile_length hverified⟩, fun e h => (by cases h)⟩
      · exact receive_delivers artifact none transfer
    · exact receive_delivers artifact _ transfer
  · split
    · exact ⟨fun u h => (by cases h), fun _ _ => rfl⟩
    · exact receive_delivers artifact none transfer

/-! ### One call -/

/-- Only the verifier has written to the directory. -/
structure VerifierState.OwnSnapshot (s : VerifierState) : Prop where
  hub : s.dir.hubFiles = []
  root : s.snapshotRoot ≠ some .hub

/-- There is nothing to evict from an empty Hub cache. -/
theorem freeDiskSpaceFor_nil (size : Nat) (maxDiskSpace : Option Int) (free : Int) :
    (freeDiskSpaceFor size maxDiskSpace free []).2 = [] := by
  unfold freeDiskSpaceFor
  dsimp only
  split_ifs <;> rfl

namespace ManifestArtifactVerifier

variable {v : ManifestArtifactVerifier} {s : VerifierState} {artifact : ManifestArtifact}
  {call : EnsureCall}

/-- The call downloads the artifact: it is not there, the space check lets it through, and the transfer
delivers it. -/
def Adds (v : ManifestArtifactVerifier) (sha256 : Bytes → String) (s : VerifierState)
    (artifact : ManifestArtifact) (call : EnsureCall) : Prop :=
  s.dir.snapshot.lookup artifact.path = none ∧
    (freeDiskSpaceFor artifact.size v.maxDiskSpace call.free s.dir.hubFiles).1.isOk = true ∧
    (resumableHubDownload sha256 artifact (s.dir.partials.lookup (partialName sha256 artifact)) none
      call.transfer).result.isOk = true

instance : Decidable (v.Adds sha256 s artifact call) :=
  inferInstanceAs (Decidable (s.dir.snapshot.lookup artifact.path = none ∧ _ = true ∧ _ = true))

theorem materialized_insert {d : CacheDir} {path : String} (h : d.snapshot.lookup path = none)
    (content : Bytes) :
    Dict.sum List.length (d.snapshot.insert path content) = d.materialized + content.length := by
  rw [Dict.sum_insert, Dict.sum_erase_of_none _ h, Nat.add_comm]
  rfl

/-- What a download does to a directory that only the verifier has written to. -/
theorem download_spec (v : ManifestArtifactVerifier) (sha256 : Bytes → String)
    (artifact : ManifestArtifact) (call : EnsureCall) {root : Option SnapshotRoot} (hown : s.OwnSnapshot) (hroot : root ≠ some .hub) :
    (v.download sha256 s.dir root artifact call).2.hubFiles = [] ∧
      (v.Adds sha256 s artifact call → (v.download sha256 s.dir root artifact call).2.materialized =
        s.dir.materialized + artifact.size) ∧
      (¬v.Adds sha256 s artifact call → (v.download sha256 s.dir root artifact call).2.materialized =
        s.dir.materialized) := by
  have hgetD : root.getD .manifest = .manifest := by
    rcases root with _ | _ | _
    · rfl
    · exact absurd rfl hroot
    · rfl
  have hnil := freeDiskSpaceFor_nil artifact.size v.maxDiskSpace call.free
  unfold download Adds
  rw [hown.hub]
  generalize freeDiskSpaceFor artifact.size v.maxDiskSpace call.free [] = space at hnil ⊢
  obtain ⟨result, hubFiles⟩ := space
  obtain rfl : hubFiles = [] := hnil
  dsimp only
  cases result with
  | error e => exact ⟨rfl, fun h => absurd h.2.1 Bool.false_ne_true, fun _ => rfl⟩
  | ok u =>
    dsimp only
    rw [hgetD]
    unfold contentAt
    dsimp only
    cases hlookup : s.dir.snapshot.lookup artifact.path with
    | some content => exact ⟨rfl, fun h => absurd h.1 (Option.some_ne_none content), fun _ => rfl⟩
    | none =>
      have hdelivers := resumableHubDownload_delivers sha256 artifact
        (s.dir.partials.lookup (partialName sha256 artifact)) call.transfer
      generalize resumableHubDownload sha256 artifact
        (s.dir.partials.lookup (partialName sha256 artifact)) none call.transfer = downloaded
        at hdelivers ⊢
      obtain ⟨result, partialFile, final⟩ := downloaded
      cases result with
      | ok u =>
        obtain ⟨content, hfinal, hlength⟩ := hdelivers.1 u rfl
        obtain rfl : final = some content := hfinal
        refine ⟨rfl, fun _ => ?_, fun h => absurd ⟨rfl, rfl, rfl⟩ h⟩
        rw [← hlength]
        exact materialized_insert hlookup content
      | error e =>
        obtain rfl : final = none := hdelivers.2 e rfl
        exact ⟨rfl, fun h => absurd h.2.2 Bool.false_ne_true, fun _ => rfl⟩

/-- **What a call materializes**, in a directory that only the verifier has written to. -/
theorem materialize_spec (v : ManifestArtifactVerifier) (sha256 : Bytes → String)
    (artifact : ManifestArtifact) (call : EnsureCall) (hown : s.OwnSnapshot) :
    (v.materialize sha256 s artifact call).2.OwnSnapshot ∧
      (v.Adds sha256 s artifact call → (v.materialize sha256 s artifact call).2.dir.materialized =
        s.dir.materialized + artifact.size) ∧
      (¬v.Adds sha256 s artifact call → (v.materialize sha256 s artifact call).2.dir.materialized =
        s.dir.materialized) := by
  have hcached : v.cached s.dir artifact.path = none := by
    unfold cached
    rw [hown.hub]
    rfl
  obtain ⟨hhub, hmaterialized⟩ := download_spec v sha256 artifact call hown hown.root
  unfold materialize
  rw [hcached]
  cases hroot : s.snapshotRoot with
  | none =>
    rw [hroot] at hhub hmaterialized
    refine ⟨⟨hhub, ?_⟩, hmaterialized⟩
    dsimp only
    split
    · exact fun h => SnapshotRoot.noConfusion (Option.some.inj h)
    · exact fun h => (by cases h)
  | some root =>
    cases root with
    | hub => exact absurd hroot hown.root
    | manifest =>
      dsimp only
      split
      next hthere =>
        refine ⟨⟨hown.hub, hown.root⟩, fun h => ?_, fun _ => rfl⟩
        have hnone : v.contentAt s.dir .manifest artifact.path = none := h.1
        rw [hnone] at hthere
        cases hthere
      · rw [hroot] at hhub hmaterialized
        exact ⟨⟨hhub, hroot ▸ hown.root⟩, hmaterialized⟩

/-- The artifact of a call: declared, and of a role that is asked for. -/
def requested (v : ManifestArtifactVerifier) (call : EnsureCall) : Option ManifestArtifact :=
  match v.getArtifact call.path with
  | .error _ => none
  | .ok artifact => if (artifact.checkRole call.allowedRoles).isOk then some artifact else none

/-- What a step adds fits beside what has been materialized before. -/
def Fits (v : ManifestArtifactVerifier) (sha256 : Bytes → String) (ceiling : Nat) (s : VerifierState) :
    Event → Prop
  | .ensurePath call => ∀ artifact ∈ v.requested call, v.Adds sha256 s artifact call →
      s.dir.materialized + artifact.size ≤ ceiling
  | .reopen => True

instance (v : ManifestArtifactVerifier) (sha256 : Bytes → String) (ceiling : Nat) (s : VerifierState) :
    ∀ e, Decidable (v.Fits sha256 ceiling s e)
  | .ensurePath call =>
    inferInstanceAs (Decidable (∀ artifact ∈ v.requested call, v.Adds sha256 s artifact call →
      s.dir.materialized + artifact.size ≤ ceiling))
  | .reopen => isTrue trivial

/-- What a call leaves below the root is what `ensure_path` left; at most a partial file goes after it. -/
theorem afterCall_eq_ensurePath (v : ManifestArtifactVerifier) (sha256 : Bytes → String)
    (s : VerifierState) (call : EnsureCall) :
    (v.afterCall sha256 s call).dir.hubFiles = (v.ensurePath sha256 s call).2.dir.hubFiles ∧
      (v.afterCall sha256 s call).dir.snapshot = (v.ensurePath sha256 s call).2.dir.snapshot ∧
      (v.afterCall sha256 s call).snapshotRoot = (v.ensurePath sha256 s call).2.snapshotRoot := by
  unfold afterCall
  dsimp only
  split
  · exact ⟨rfl, rfl, rfl⟩
  · split <;> exact ⟨rfl, rfl, rfl⟩

/-- `ensure_path` changes what materializing the requested artifact changes. -/
theorem ensurePath_state (v : ManifestArtifactVerifier) (sha256 : Bytes → String) (s : VerifierState)
    (call : EnsureCall) : (v.ensurePath sha256 s call).2 =
      (v.requested call).elim s fun artifact => (v.materialize sha256 s artifact call).2 := by
  unfold ensurePath requested
  cases v.getArtifact call.path with
  | error e => rfl
  | ok artifact =>
    dsimp only
    cases artifact.checkRole call.allowedRoles with
    | error e => rfl
    | ok u =>
      show _ = (v.materialize sha256 s artifact call).2
      dsimp only
      split
      next heq => rw [heq]
      next heq => rw [heq]

/-- **One step** of a verifier over a directory that is its own. -/
theorem step_spec {ceiling : Nat} (hown : s.OwnSnapshot) {e : Event} {s' : VerifierState}
    (hle : s.dir.materialized ≤ ceiling) (hnext : (machine sha256 v).next s e = some s') :
    s'.OwnSnapshot ∧ (s'.dir.materialized ≤ ceiling ↔ v.Fits sha256 ceiling s e) := by
  cases e with
  | reopen =>
    obtain rfl := Option.some.inj hnext
    exact ⟨⟨hown.hub, fun h => by cases h⟩, fun _ => trivial, fun _ => hle⟩
  | ensurePath call =>
    obtain rfl := Option.some.inj hnext
    obtain ⟨hhub, hsnapshot, hroot⟩ := afterCall_eq_ensurePath v sha256 s call
    rw [ensurePath_state] at hhub hsnapshot hroot
    unfold Fits
    cases hrequested : v.requested call with
    | none =>
      rw [hrequested] at hhub hsnapshot hroot
      refine ⟨⟨hhub.trans hown.hub, fun h => hown.root (hroot.symm.trans h)⟩,
        fun _ artifact h => absurd (hrequested.symm.trans h).symm (Option.some_ne_none artifact), fun _ => ?_⟩
      unfold CacheDir.materialized
      rw [hsnapshot]
      exact hle
    | some artifact =>
      rw [hrequested, Option.elim_some] at hhub hsnapshot hroot
      obtain ⟨hown', hadds, hkeeps⟩ := materialize_spec v sha256 artifact call hown
      refine ⟨⟨hhub.trans hown'.hub, fun h => hown'.root (hroot.symm.trans h)⟩, ?_⟩
      have hmaterialized : (v.afterCall sha256 s call).dir.materialized =
          (v.materialize sha256 s artifact call).2.dir.materialized := by
        unfold CacheDir.materialized
        rw [hsnapshot]
      rw [hmaterialized]
      by_cases hcall : v.Adds sha256 s artifact call
      · rw [hadds hcall]
        constructor
        · intro h artifact' hartifact' _
          obtain rfl := Option.some.inj (hrequested.symm.trans hartifact')
          exact h
        · intro h
          exact h artifact hrequested hcall
      · rw [hkeeps hcall]
        constructor
        · intro _ artifact' hartifact' hcall'
          obtain rfl := Option.some.inj (hrequested.symm.trans hartifact')
          exact absurd hcall' hcall
        · exact fun _ => hle

/-! ### Main result -/

end ManifestArtifactVerifier

end Verifier

/-! ### Two artifacts -/

/-- The texts that are hashed below, with their digests; the path of the last artifact as well. -/
def digests : List (Bytes × String) :=
  [("\x7b\x7d".toUTF8.toList, "44136fa355b3678a1146ad16f7e8649e94fb4fc21fe77e8310c060f61caaff8a"),
    ("tokens".toUTF8.toList, "c51e455b41df6c017327e16001dd064b8b6733faeaa69b23d9bd79c8079237d5"),
    ("weights!".toUTF8.toList, "fa47a1dc2eaad8414f129b768e1bc3ab746de3ee7d73d82c9356a9ca2ad772f4"),
    ("tokenizer.json".toUTF8.toList, "224931eb13f8d2471acd38a4a0d7417d20e8ea340160a467ceaa359d25197b87"),
    ("weights.bin".toUTF8.toList, "8a8b09bd4837c5a5078957ae41ebf4ab4231783eb2111f475aed343d8cc6641d")]

def digestOf (content : Bytes) : String := (digests.lookup content).getD ""

/-- A manifest with artifacts of six and eight bytes. -/
def sampleManifest : ModelManifest where
  repository := "org/model"
  revision := "0000000000000000000000000000000000000000"
  artifacts := [⟨"config", "config.json", digestOf "\x7b\x7d".toUTF8.toList, 2⟩,
    ⟨"tokenizer", "tokenizer.json", digestOf "tokens".toUTF8.toList, 6⟩,
    ⟨"weight", "weights.bin", digestOf "weights!".toUTF8.toList, 8⟩]
  paths_nodup := by decide
  roles := by decide

/-- A call for a path, on a volume with room, that the Hub answers in full. -/
def fetch (path content : String) : ManifestArtifactVerifier.Event :=
  .ensurePath ⟨path, none, 2 ^ 40, .response ⟨false, false, content.toUTF8.toList, true⟩, 0, true⟩

/-- The tokenizer and the weights are fetched. -/
def fetchTwo : List ManifestArtifactVerifier.Event := [fetch "tokenizer.json" "tokens", fetch "weights.bin" "weights!"]

/-- The bytes that the run materializes, under a ceiling. -/
def fetchedTwo (ceiling : Nat) : Option Nat :=
  ((ManifestArtifactVerifier.machine digestOf ⟨sampleManifest, some ceiling⟩).run
    ManifestArtifactVerifier.start fetchTwo).map fun s => s.dir.materialized

end Drift.Manifest
