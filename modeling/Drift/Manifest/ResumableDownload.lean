import Drift.Manifest.DiskCeiling

/-!
# Resumed downloads

The attempts at one artifact share its partial file. Whatever the origin answers to them, the final path
holds the declared content or nothing, and no attempt leaves a partial file larger than the artifact. An
origin that serves the declared content is believed at the second attempt at the latest: the first one
may complete a partial file that was wrong, which then fails its check and is removed.

An artifact of no bytes is never asked for. Its partial file counts as complete although it is not there,
and cannot be removed when its check fails.

* `attempt`, `attempts` — runs of `_resumable_hub_download` against an origin;
* `Recovers` — what an origin that serves the content is good for;
* `downloads_safely_iff` — when it is.
-/

namespace Drift.Manifest

open Drift.Lib

/-- The files of one artifact. -/
structure TransferState where
  partialFile : Option Bytes
  final : Option Bytes

/-- What the origin would answer to a request from an offset. -/
abbrev Origin := Nat → Transfer

/-- The offset the request is for. A partial file that is complete or too long is not resumed. -/
def requestOffset (artifact : ManifestArtifact) (partialFile : Option Bytes) : Nat :=
  match partialFile with
  | some content => if content.length < artifact.size then content.length else 0
  | none => 0

section Attempts

variable (sha256 : Bytes → String) (artifact : ManifestArtifact)

/-- One attempt. -/
def attempt (s : TransferState) (origin : Origin) : Except ManifestError Unit × TransferState :=
  let downloaded := resumableHubDownload sha256 artifact s.partialFile s.final
    (origin (requestOffset artifact s.partialFile))
  (downloaded.result, ⟨downloaded.partialFile, downloaded.final⟩)

/-- Attempts one after the other, each with what the origin is at the time. -/
def attempts (s : TransferState) (origins : List Origin) : TransferState :=
  origins.foldl (fun s origin => (attempt sha256 artifact s origin).2) s

/-- The file has the declared size and digest. -/
def Declared (content : Bytes) : Prop :=
  content.length = artifact.size ∧ sha256 content = artifact.sha256

/-- The origin serves a content: with 206 what is asked for, with another status all of it. -/
def Serves (content : Bytes) (origin : Origin) : Prop :=
  ∀ offset ≤ content.length,
    (∃ contentRange, origin offset = .response ⟨false, contentRange, content, true⟩) ∨
      origin offset = .response ⟨true, true, content.drop offset, true⟩

/-- What attempts that begin with a leftover partial file achieve. -/
structure DownloadsSafely (leftover : Option Bytes) : Prop where
  /-- The final path shows the declared content. -/
  exposes : ∀ origins content, (attempts sha256 artifact ⟨leftover, none⟩ origins).final = some content →
    Declared sha256 artifact content
  /-- An attempt that returns has put it there. -/
  returns : ∀ origins origin,
    let after := attempt sha256 artifact (attempts sha256 artifact ⟨leftover, none⟩ origins) origin
    after.1 = .ok () → ∃ content, after.2.final = some content ∧ Declared sha256 artifact content
  /-- A partial file is not larger than the artifact. -/
  bounded : ∀ origins, origins ≠ [] → ∀ content,
    (attempts sha256 artifact ⟨leftover, none⟩ origins).partialFile = some content →
    content.length ≤ artifact.size
  /-- Against an origin that serves the declared content two more attempts are enough. -/
  recovers : ∀ content, Declared sha256 artifact content → ∀ origins first second,
    Serves content first → Serves content second →
    let s := attempts sha256 artifact ⟨leftover, none⟩ origins
    (attempt sha256 artifact s first).1 = .ok () ∨
      (attempt sha256 artifact (attempt sha256 artifact s first).2 second).1 = .ok ()

end Attempts

variable {sha256 : Bytes → String} {artifact : ManifestArtifact}

theorem verifyArtifactFile_iff {content : Bytes} :
    verifyArtifactFile sha256 artifact content = .ok () ↔ Declared sha256 artifact content := by
  unfold verifyArtifactFile Declared
  split_ifs with hlength hdigest
  · exact ⟨fun h => (by cases h), fun h => absurd h.1 hlength⟩
  · exact ⟨fun h => (by cases h), fun h => absurd h.2 hdigest⟩
  · exact ⟨fun _ => ⟨not_not.mp hlength, not_not.mp hdigest⟩, fun _ => rfl⟩

/-! ### One attempt -/

/-- What an attempt leaves that did not find the final file: the declared content and no partial file; or
an error, no final file, and a partial file of at most the declared size. -/
structure Leaves (sha256 : Bytes → String) (artifact : ManifestArtifact) (d : Downloaded) : Prop where
  succeeded : d.result = .ok () → ∃ content, d.final = some content ∧ Declared sha256 artifact content ∧
    d.partialFile = none
  failed : d.result ≠ .ok () → d.final = none
  bounded : ∀ content, d.partialFile = some content → content.length ≤ artifact.size

theorem receive_leaves {partialFile : Option Bytes} (transfer : Transfer)
    (hbound : ∀ content, partialFile = some content → content.length ≤ artifact.size) :
    Leaves sha256 artifact (receive sha256 artifact partialFile transfer) := by
  unfold receive
  split
  · exact ⟨fun h => (by cases h), fun _ => rfl, hbound⟩
  next r =>
  dsimp only
  split
  · exact ⟨fun h => (by cases h), fun _ => rfl, hbound⟩
  generalize (if r.partialContent = true then partialFile.getD [] else []) ++ r.body = written
  split
  · -- the body was cut off, and the file is kept unless it is too long already
    refine ⟨fun h => (by cases h), fun _ => rfl, fun content h => ?_⟩
    dsimp only at h
    split at h
    · cases h
    · rename_i hle
      cases h
      exact not_lt.mp hle
  split
  · rename_i hverified
    exact ⟨fun _ => ⟨_, rfl, verifyArtifactFile_iff.mp hverified, rfl⟩, fun h => absurd rfl h,
      fun content h => (by cases h)⟩
  · refine ⟨fun h => (by cases h), fun _ => rfl, fun content h => ?_⟩
    dsimp only at h
    split at h
    · cases h
    · rename_i hlt
      cases h
      exact (not_le.mp hlt).le

/-- **One attempt** that did not find the final file. -/
theorem resumableHubDownload_leaves (partialFile : Option Bytes) (transfer : Transfer) :
    Leaves sha256 artifact (resumableHubDownload sha256 artifact partialFile none transfer) := by
  have hnone : ∀ content : Bytes, (none : Option Bytes) = some content →
      content.length ≤ artifact.size := fun content h => (by cases h)
  unfold resumableHubDownload
  dsimp only
  split
  · rename_i content hcontent
    have hle : content.length ≤ artifact.size :=
      of_decide_eq_true (Option.filter_eq_some_iff.mp hcontent).2
    split
    · split
      · rename_i hverified
        exact ⟨fun _ => ⟨_, rfl, verifyArtifactFile_iff.mp hverified, rfl⟩, fun h => absurd rfl h, hnone⟩
      · exact receive_leaves transfer hnone
    · refine receive_leaves transfer fun content' h => ?_
      rw [hcontent] at h
      cases h
      exact hle
  · split
    · exact ⟨fun h => (by cases h), fun _ => rfl, hnone⟩
    · exact receive_leaves transfer hnone

/-- The final file, once there, is what further attempts find. -/
theorem attempt_of_final {s : TransferState} {content : Bytes} (hfinal : s.final = some content)
    (hdeclared : Declared sha256 artifact content) (origin : Origin) :
    attempt sha256 artifact s origin = (.ok (), s) := by
  obtain ⟨partialFile, final⟩ := s
  dsimp only at hfinal
  subst hfinal
  unfold attempt resumableHubDownload
  dsimp only
  rw [verifyArtifactFile_iff.mpr hdeclared]

/-- What attempts have left: the declared content, or a partial file of at most the declared size. -/
structure TransferState.Sound (sha256 : Bytes → String) (artifact : ManifestArtifact)
    (s : TransferState) : Prop where
  final : ∀ content, s.final = some content → Declared sha256 artifact content
  partialFile : ∀ content, s.partialFile = some content → content.length ≤ artifact.size

/-- An attempt leaves what attempts have left, whatever partial file it found. -/
theorem attempt_sound {s : TransferState} (h : ∀ content, s.final = some content →
      Declared sha256 artifact content ∧ s.Sound sha256 artifact) (origin : Origin) :
    (attempt sha256 artifact s origin).2.Sound sha256 artifact := by
  cases hfinal : s.final with
  | some content =>
    obtain ⟨hdeclared, hsound⟩ := h content hfinal
    rw [attempt_of_final hfinal hdeclared]
    exact hsound
  | none =>
    have hleaves := @resumableHubDownload_leaves sha256 artifact s.partialFile
      (origin (requestOffset artifact s.partialFile))
    unfold attempt
    rw [hfinal]
    refine ⟨fun content hcontent => ?_, hleaves.bounded⟩
    by_cases hok : (resumableHubDownload sha256 artifact s.partialFile none
        (origin (requestOffset artifact s.partialFile))).result = .ok ()
    · obtain ⟨content', hfinal', hdeclared, -⟩ := hleaves.succeeded hok
      obtain rfl := Option.some.inj (hfinal'.symm.trans hcontent)
      exact hdeclared
    · cases (hleaves.failed hok).symm.trans hcontent

/-- Any number of attempts: nothing has happened, or what is left is sound. -/
theorem attempts_sound (leftover : Option Bytes) (origins : List Origin) :
    (origins = [] ∧ attempts sha256 artifact ⟨leftover, none⟩ origins = ⟨leftover, none⟩) ∨
      (attempts sha256 artifact ⟨leftover, none⟩ origins).Sound sha256 artifact := by
  induction origins using List.reverseRecOn with
  | nil => exact Or.inl ⟨rfl, rfl⟩
  | append_singleton origins origin ih =>
    right
    unfold attempts at ih ⊢
    rw [List.foldl_append, List.foldl_cons, List.foldl_nil]
    rcases ih with ⟨-, hstart⟩ | hsound
    · rw [hstart]
      exact attempt_sound (fun content h => (by cases h)) origin
    · exact attempt_sound (fun content h => ⟨hsound.final content h, hsound⟩) origin

/-- The final file is the declared content. -/
theorem attempts_final (leftover : Option Bytes) (origins : List Origin) {content : Bytes}
    (h : (attempts sha256 artifact ⟨leftover, none⟩ origins).final = some content) :
    Declared sha256 artifact content := by
  rcases attempts_sound leftover origins with ⟨-, hstart⟩ | hsound
  · rw [hstart] at h
    cases h
  · exact hsound.final content h

/-! ### An origin that serves the content -/

/-- Without a partial file the whole content is asked for, and accepted. -/
theorem receive_of_nothing {content : Bytes} {origin : Origin} (hdeclared : Declared sha256 artifact content)
    (hserves : Serves content origin) : (receive sha256 artifact none (origin 0)).result = .ok () := by
  rcases hserves 0 (Nat.zero_le _) with ⟨contentRange, heq⟩ | heq
  · rw [heq]
    simp [receive, verifyArtifactFile_iff.mpr hdeclared]
  · rw [heq]
    simp [receive, verifyArtifactFile_iff.mpr hdeclared]

/-- With a partial file the download is accepted, or the file is removed. -/
theorem receive_of_partial {content resumed : Bytes} {origin : Origin}
    (hdeclared : Declared sha256 artifact content) (hserves : Serves content origin)
    (hlt : resumed.length < artifact.size) :
    (receive sha256 artifact (some resumed) (origin resumed.length)).result = .ok () ∨
      (receive sha256 artifact (some resumed) (origin resumed.length)).partialFile = none := by
  rcases hserves resumed.length (hdeclared.1 ▸ hlt.le) with ⟨contentRange, heq⟩ | heq
  · left
    rw [heq]
    simp [receive, verifyArtifactFile_iff.mpr hdeclared]
  · rw [heq]
    -- the file is complete now, and right or removed
    have hlength : artifact.size ≤ (resumed ++ content.drop resumed.length).length := by
      rw [List.length_append, List.length_drop, hdeclared.1]
      omega
    unfold receive
    dsimp only [Option.getD_some]
    rw [if_neg (fun h => absurd h.2.2 (by decide)), if_neg (by decide), if_pos rfl]
    split
    · exact Or.inl rfl
    · right
      exact if_pos hlength

/-- An attempt without a partial file succeeds. -/
theorem attempt_of_nothing {content : Bytes} {origin : Origin}
    (hdeclared : Declared sha256 artifact content) (hserves : Serves content origin)
    (hsize : artifact.size ≠ 0) : (attempt sha256 artifact ⟨none, none⟩ origin).1 = .ok () := by
  unfold attempt resumableHubDownload
  dsimp only [Option.filter_none]
  rw [if_neg hsize]
  exact receive_of_nothing hdeclared hserves

/-- What an attempt with a partial file does: it resumes one that is incomplete, and restarts with one that
is too long. -/
theorem resumableHubDownload_of_lt {resumed : Bytes} (hlt : resumed.length < artifact.size)
    (transfer : Transfer) :
    resumableHubDownload sha256 artifact (some resumed) none transfer =
      receive sha256 artifact (some resumed) transfer := by
  unfold resumableHubDownload
  rw [Option.filter_some, if_pos (decide_eq_true hlt.le)]
  exact if_neg hlt.ne

theorem resumableHubDownload_of_gt {resumed : Bytes} (hlt : artifact.size < resumed.length)
    (transfer : Transfer) :
    resumableHubDownload sha256 artifact (some resumed) none transfer =
      resumableHubDownload sha256 artifact none none transfer := by
  unfold resumableHubDownload
  rw [Option.filter_some, if_neg (by simpa using hlt), Option.filter_none]

/-- A complete partial file is accepted, or replaced. -/
theorem resumableHubDownload_of_eq {resumed : Bytes} (heq : resumed.length = artifact.size)
    (transfer : Transfer) :
    (resumableHubDownload sha256 artifact (some resumed) none transfer).result = .ok () ∨
      resumableHubDownload sha256 artifact (some resumed) none transfer =
        receive sha256 artifact none transfer := by
  unfold resumableHubDownload
  rw [Option.filter_some, if_pos (decide_eq_true heq.le)]
  dsimp only
  rw [if_pos heq]
  split
  · exact Or.inl rfl
  · exact Or.inr rfl

/-- **An attempt against it** succeeds, or removes the partial file. -/
theorem attempt_of_partial {content : Bytes} {origin : Origin} (partialFile : Option Bytes)
    (hdeclared : Declared sha256 artifact content) (hserves : Serves content origin)
    (hsize : artifact.size ≠ 0) :
    (attempt sha256 artifact ⟨partialFile, none⟩ origin).1 = .ok () ∨
      (attempt sha256 artifact ⟨partialFile, none⟩ origin).2 = ⟨none, none⟩ := by
  cases partialFile with
  | none => exact Or.inl (attempt_of_nothing hdeclared hserves hsize)
  | some resumed =>
    unfold attempt requestOffset
    dsimp only
    rcases lt_trichotomy resumed.length artifact.size with hlt | heq | hgt
    · rw [if_pos hlt, resumableHubDownload_of_lt hlt]
      have hleaves := @receive_leaves sha256 artifact (some resumed) (origin resumed.length)
        (fun content h => Option.some.inj h ▸ hlt.le)
      rcases receive_of_partial hdeclared hserves hlt with hok | hremoved
      · exact Or.inl hok
      · by_cases hok : (receive sha256 artifact (some resumed) (origin resumed.length)).result = .ok ()
        · exact Or.inl hok
        · right
          rw [hremoved, hleaves.failed hok]
    · left
      rw [if_neg heq.not_lt]
      rcases @resumableHubDownload_of_eq sha256 _ _ heq (origin 0) with hok | hreceive
      · exact hok
      · rw [hreceive]
        exact receive_of_nothing hdeclared hserves
    · left
      rw [if_neg hgt.not_gt, resumableHubDownload_of_gt hgt]
      have hnothing := attempt_of_nothing hdeclared hserves hsize
      exact hnothing

/-- Two attempts are enough. -/
theorem two_attempts {content : Bytes} {first second : Origin} {s : TransferState}
    (hs : ∀ content, s.final = some content → Declared sha256 artifact content)
    (hdeclared : Declared sha256 artifact content) (hfirst : Serves content first)
    (hsecond : Serves content second) (hsize : artifact.size ≠ 0) :
    (attempt sha256 artifact s first).1 = .ok () ∨
      (attempt sha256 artifact (attempt sha256 artifact s first).2 second).1 = .ok () := by
  obtain ⟨partialFile, final⟩ := s
  cases final with
  | some content' =>
    left
    rw [attempt_of_final rfl (hs content' rfl)]
  | none =>
    rcases attempt_of_partial partialFile hdeclared hfirst hsize with hok | hremoved
    · exact Or.inl hok
    · right
      rw [hremoved]
      exact attempt_of_nothing hdeclared hsecond hsize

/-! ### An artifact of no bytes -/

/-- Its partial file is not there, and every attempt fails at its removal. -/
theorem attempt_of_empty (hsize : artifact.size = 0) {leftover : Option Bytes} (hleft : leftover ≠ some [])
    (origin : Origin) :
    (attempt sha256 artifact ⟨leftover, none⟩ origin).1 ≠ .ok () ∧
      (attempt sha256 artifact ⟨leftover, none⟩ origin).2 = ⟨none, none⟩ := by
  have hnothing : ∀ transfer, resumableHubDownload sha256 artifact leftover none transfer =
      resumableHubDownload sha256 artifact none none transfer := by
    intro transfer
    cases leftover with
    | none => rfl
    | some resumed =>
      refine resumableHubDownload_of_gt ?_ transfer
      rw [hsize]
      exact List.length_pos_iff.mpr fun h => hleft (congrArg some h)
  unfold attempt
  dsimp only
  rw [hnothing]
  unfold resumableHubDownload
  rw [Option.filter_none, if_pos hsize]
  exact ⟨fun h => (by cases h), rfl⟩

/-- An empty partial file is complete, and accepted. -/
theorem attempt_of_empty_file (hdeclared : Declared sha256 artifact []) (origin : Origin) :
    attempt sha256 artifact ⟨some [], none⟩ origin = (.ok (), ⟨none, some []⟩) := by
  have hfits : decide (([] : Bytes).length ≤ artifact.size) = true := decide_eq_true (Nat.zero_le _)
  unfold attempt resumableHubDownload
  dsimp only
  rw [Option.filter_some, if_pos hfits]
  dsimp only
  rw [if_pos hdeclared.1, verifyArtifactFile_iff.mpr hdeclared]

theorem attempts_of_empty_file (hdeclared : Declared sha256 artifact []) (origins : List Origin) :
    attempts sha256 artifact ⟨some [], none⟩ origins = ⟨some [], none⟩ ∨
      attempts sha256 artifact ⟨some [], none⟩ origins = ⟨none, some []⟩ := by
  induction origins using List.reverseRecOn with
  | nil => exact Or.inl rfl
  | append_singleton origins origin ih =>
    right
    unfold attempts at ih ⊢
    rw [List.foldl_append, List.foldl_cons, List.foldl_nil]
    rcases ih with hstart | hdone
    · rw [hstart, attempt_of_empty_file hdeclared]
    · rw [hdone, attempt_of_final rfl hdeclared]

/-! ### Main result -/

/-- **The resumable download** exposes nothing but the declared content, keeps no partial file larger than
the artifact, and recovers within two attempts against an origin that serves the content: unless the
artifact is empty, in which case its partial file must be there, as an empty file. -/
theorem downloads_safely_iff (sha256 : Bytes → String) (artifact : ManifestArtifact)
    (leftover : Option Bytes) :
    DownloadsSafely sha256 artifact leftover ↔
      (artifact.size = 0 → sha256 [] = artifact.sha256 → leftover = some []) := by
  constructor
  · intro h hsize hempty
    by_contra hleft
    have hserves : Serves [] fun _ => .response ⟨false, false, [], true⟩ := fun _ _ => Or.inl ⟨_, rfl⟩
    have hnever := @attempt_of_empty sha256 _ hsize _ hleft
      fun _ => .response ⟨false, false, [], true⟩
    rcases h.recovers [] ⟨hsize.symm, hempty⟩ [] _ _ hserves hserves with hfirst | hsecond
    · exact hnever.1 hfirst
    · -- the second attempt is in the state of a first one without a partial file
      rw [show attempts sha256 artifact ⟨leftover, none⟩ [] = ⟨leftover, none⟩ from rfl, hnever.2] at hsecond
      exact (attempt_of_empty hsize (fun h => by cases h) _).1 hsecond
  · intro h
    refine ⟨fun origins content => attempts_final leftover origins, ?_, ?_, ?_⟩
    · intro origins origin after hok
      have hfinal : ∀ content, _ = some content → Declared sha256 artifact content := fun content =>
        attempts_final leftover origins
      cases hstate : attempts sha256 artifact ⟨leftover, none⟩ origins with
      | mk partialFile final =>
        rw [hstate] at hfinal
        simp only [after, hstate] at hok ⊢
        cases final with
        | some content =>
          rw [attempt_of_final rfl (hfinal content rfl)]
          exact ⟨content, rfl, hfinal content rfl⟩
        | none =>
          obtain ⟨content, hcontent, hdeclared, -⟩ := (resumableHubDownload_leaves partialFile
            (origin (requestOffset artifact partialFile))).succeeded hok
          exact ⟨content, hcontent, hdeclared⟩
    · intro origins hne content hcontent
      rcases attempts_sound leftover origins with ⟨hnil, -⟩ | hsound
      · exact absurd hnil hne
      · exact hsound.partialFile content hcontent
    · intro content hdeclared origins first second hfirst hsecond s
      by_cases hsize : artifact.size = 0
      · obtain rfl : content = [] := List.length_eq_zero_iff.mp (hdeclared.1.trans hsize)
        obtain rfl := h hsize hdeclared.2
        left
        rcases attempts_of_empty_file hdeclared origins with hstart | hdone
        · simp only [s]
          rw [hstart, attempt_of_empty_file hdeclared]
        · simp only [s]
          rw [hdone, attempt_of_final rfl hdeclared]
      · exact two_attempts (fun content => attempts_final leftover origins) hdeclared hfirst hsecond hsize

/-- The SHA-256 of no bytes. -/
def emptyDigest : String := "e3b0c44298fc1c149afbf4c8996fb92427ae41e4649b934ca495991b7852b855"

/-- A declared artifact of no bytes, such as an empty list of merges, is never downloaded: from an empty
cache two attempts fail, while the origin serves it. -/
theorem empty_artifact_never_downloaded :
    let sha256 : Bytes → String := fun content => if content = [] then emptyDigest else ""
    let artifact : ManifestArtifact := ⟨"tokenizer", "merges.txt", emptyDigest, 0⟩
    let origin : Origin := fun _ => .response ⟨false, false, [], true⟩
    (attempt sha256 artifact ⟨none, none⟩ origin).1 =
        .error (.manifestError "No such file or directory") ∧
      (attempt sha256 artifact (attempt sha256 artifact ⟨none, none⟩ origin).2 origin).1 =
        .error (.manifestError "No such file or directory") ∧
      ¬ DownloadsSafely sha256 artifact none := by
  refine ⟨rfl, rfl, fun h => ?_⟩
  have hserves : Serves [] fun _ => .response ⟨false, false, [], true⟩ := fun _ _ => Or.inl ⟨_, rfl⟩
  rcases h.recovers [] ⟨rfl, rfl⟩ [] _ _ hserves hserves with hok | hok
  · cases hok
  · cases hok

end Drift.Manifest
