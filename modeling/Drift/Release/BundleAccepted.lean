import Drift.Lib.JsonSize
import Drift.Manifest.CanonicalManifest
import Drift.Release.BundleWriter

/-!
# What the writer builds is accepted

The loader accepts the bundle that the writer builds, for any number of manifests, where its documents are read as
they are rendered and its files keep to the limits. So a release that was verified is published, unless an operation
on files fails.

* `stageMembers_eq` — the directory that is built;
* `readIndex_bundleIndex`, `readDocuments_sorted`, `checkRelease_ok` — the loader, part by part;
* `load_releaseListing`, `publishable_of_verified` — the whole of it;
* `late_fault_leaves_bundle` — a release whose publication is not atomic.
-/

namespace Drift.Release

open Drift.Lib Drift.Identity Drift.Manifest

variable {Bootstrap Envelope : Type} {code : ReleaseCode Bootstrap Envelope} {p : Publication Bootstrap Envelope}
variable {report : List (String × Json)} {members : List (String × Raw)} {listing : Listing} {prior : Place}

/-- What is documented of the libraries, and what a verified catalog has. -/
structure LawfulCode (code : ReleaseCode Bootstrap Envelope) : Prop where
  loads_dumps : ∀ j : Json, j.Plain → j.distinctKeys = true → code.loads (j.dumps ++ "\n") = some j.sortKeys
  sha256Hex_digest : ∀ raw, isDigest (code.sha256Hex raw) = true
  verifyEnvelope_ok : ∀ envelope bootstrap now catalog, code.verifyEnvelope envelope bootstrap now = .ok catalog →
    catalog.catalogId = code.trustRootCatalogId bootstrap ∧ 1 ≤ catalog.sequence ∧ Node.isDigestId catalog.digest = true

/-! ### Paths -/

theorem isDigest_manifestDigest (hcode : LawfulCode code) (m : ModelManifestV1) :
    isDigest (manifestDigest code m) = true :=
  hcode.sha256Hex_digest _

theorem length_of_isDigest {s : String} (h : isDigest s = true) : s.toList.length = 64 := by
  unfold isDigest at h
  rw [Bool.and_eq_true, beq_iff_eq] at h
  exact h.1

theorem slash_notMem_of_isDigest {s : String} (h : isDigest s = true) : '/' ∉ s.toList := by
  unfold isDigest at h
  rw [Bool.and_eq_true, List.all_eq_true] at h
  intro hmem
  exact absurd (h.2 '/' hmem) (by decide)

theorem toList_manifestPath (m : ModelManifestV1) : (manifestPath code m).toList =
    "manifests/".toList ++ ((manifestDigest code m).toList ++ ".json".toList) := by
  unfold manifestPath
  rw [String.toList_append, String.toList_append, List.append_assoc]

theorem isManifestBundlePath_manifestPath (hcode : LawfulCode code) (m : ModelManifestV1) :
    isManifestBundlePath (manifestPath code m) = true := by
  have hdigest := isDigest_manifestDigest hcode m
  have hname : String.ofList (((manifestPath code m).toList.drop "manifests/".length).take 64) =
      manifestDigest code m := by
    rw [toList_manifestPath]
    show String.ofList ((("manifests/".toList ++ _).drop "manifests/".toList.length).take 64) = _
    rw [List.drop_left, ← length_of_isDigest hdigest, List.take_left]
    exact String.ofList_toList
  unfold isManifestBundlePath
  dsimp only
  rw [hname, hdigest]
  exact decide_eq_true (rfl : manifestPath code m = _)

theorem manifestPath_inj {m m' : ModelManifestV1} (h : manifestPath code m = manifestPath code m') :
    manifestDigest code m = manifestDigest code m' := by
  have hlist := congrArg String.toList h
  rw [toList_manifestPath, toList_manifestPath] at hlist
  exact String.toList_inj.mp (List.append_cancel_right (List.append_cancel_left hlist))

/-- A file of a manifest is none of the others. -/
theorem manifestPath_notMem (hcode : LawfulCode code) (m : ModelManifestV1) {paths : List String}
    (h : paths.any isManifestBundlePath = false) : manifestPath code m ∉ paths := by
  intro hmem
  have := List.any_eq_false.mp h _ hmem
  exact this (isManifestBundlePath_manifestPath hcode m)

theorem parentDirectories_manifestPath (hcode : LawfulCode code) (m : ModelManifestV1) :
    parentDirectories (manifestPath code m) = ["manifests"] := by
  have hslash := slash_notMem_of_isDigest (isDigest_manifestDigest hcode m)
  have hsplit : (manifestPath code m).toList.splitOn '/' =
      ["manifests".toList, (manifestDigest code m).toList ++ ".json".toList] := by
    have hfirst : '/' ∉ "manifests".toList := by decide
    have hrest : '/' ∉ (manifestDigest code m).toList ++ ".json".toList := by
      intro hmem
      rcases List.mem_append.mp hmem with hmem | hmem
      · exact hslash hmem
      · exact absurd hmem (by decide)
    have htext : (manifestPath code m).toList =
        "manifests".toList ++ '/' :: ((manifestDigest code m).toList ++ ".json".toList) := toList_manifestPath m
    rw [htext, List.splitOn_append_cons_self_of_not_mem hfirst, List.splitOn_eq_singleton hrest]
  unfold parentDirectories
  rw [hsplit]
  rfl

/-! ### The directory that is built -/

/-- A member as the directory holds it. -/
def fileEntry (member : String × Raw) : String × Entry := (member.1, .file member.2)

theorem lookup_eq_none {path : String} (h : path ∉ listing.map Prod.fst) : listing.lookup path = none :=
  List.lookup_eq_none_iff.mpr fun _ he => bne_iff_ne.mpr fun heq => h (heq ▸ List.mem_map_of_mem he)

/-- A member that is new is written at the end. -/
theorem stageMember_eq {member : String × Raw} {listing' : Listing}
    (hmake : makeDirectories (parentDirectories member.1) listing = some listing')
    (hnew : member.1 ∉ listing'.map Prod.fst) : stageMember member listing = some (listing' ++ [fileEntry member]) := by
  have hcreate : createFile member.1 listing' = some (listing' ++ [(member.1, .file (.text ""))]) := by
    unfold createFile
    rw [lookup_eq_none hnew]
    rfl
  have hfill : fillFile member.1 member.2 (listing' ++ [(member.1, .file (.text ""))]) =
      listing' ++ [fileEntry member] := by
    have hkept : listing'.map (fun entry => if entry.1 = member.1 then (member.1, .file member.2) else entry) =
        listing' := by
      refine (List.map_congr_left fun _ he => if_neg fun heq => hnew ?_).trans (List.map_id _)
      exact heq ▸ List.mem_map_of_mem he
    unfold fillFile
    rw [List.map_append, hkept, List.map_singleton, if_pos rfl]
    rfl
  unfold stageMember
  rw [hmake, Option.bind_eq_bind, Option.bind_some, hcreate, Option.bind_some, hfill]
  rfl

/-- Members beside each other are written one after another, where their directories are there. -/
theorem stageMembers_append {ms : List (String × Raw)} (hparent : ∀ m ∈ ms, ∀ listing' : Listing,
      (∀ e ∈ listing, e ∈ listing') → (listing'.map Prod.fst).Nodup →
        makeDirectories (parentDirectories m.1) listing' = some listing')
    (hnodup : ((listing ++ ms.map fileEntry).map Prod.fst).Nodup) (rest : List (String × Raw)) :
    stageMembers (ms ++ rest) listing = stageMembers rest (listing ++ ms.map fileEntry) := by
  induction ms generalizing listing with
  | nil => rw [List.map_nil, List.append_nil, List.nil_append]
  | cons m ms ih =>
    have hassoc : listing ++ (m :: ms).map fileEntry = (listing ++ [fileEntry m]) ++ ms.map fileEntry := by
      rw [List.map_cons, List.append_assoc, List.singleton_append]
    have hlisting : (listing.map Prod.fst).Nodup := by
      rw [List.map_append] at hnodup
      exact (List.nodup_append.mp hnodup).1
    have hnew : m.1 ∉ listing.map Prod.fst := by
      intro hmem
      rw [List.map_append, List.nodup_append] at hnodup
      exact hnodup.2.2 _ hmem _ (List.mem_map_of_mem (List.mem_map_of_mem List.mem_cons_self)) rfl
    have hstage := stageMember_eq (hparent m List.mem_cons_self listing (fun _ he => he) hlisting) hnew
    rw [hassoc] at hnodup
    rw [List.cons_append, stageMembers, hstage, Option.bind_some, hassoc]
    refine ih ?_ hnodup
    intro m' hm' listing' hsub hnodup'
    exact hparent m' (List.mem_cons_of_mem _ hm') listing' (fun e he => hsub e (List.mem_append_left _ he)) hnodup'

variable {fixed : List (String × Raw)} {manifests : List ModelManifestV1} {index : Raw}

/-- The member of a manifest. -/
def manifestMember (code : ReleaseCode Bootstrap Envelope) (m : ModelManifestV1) : String × Raw :=
  (manifestPath code m, manifestBytes m)

/-- The members after the fixed ones. -/
def laterMembers (code : ReleaseCode Bootstrap Envelope) (manifests : List ModelManifestV1) (index : Raw) :
    List (String × Raw) :=
  manifests.map (manifestMember code) ++ [(catalogPublicationBundleIndexName, index)]

/-- The directory of a bundle. -/
def bundleListing (code : ReleaseCode Bootstrap Envelope) (fixed : List (String × Raw))
    (manifests : List ModelManifestV1) (index : Raw) : Listing :=
  fixed.map fileEntry ++ ("manifests", .directory) :: (laterMembers code manifests index).map fileEntry

theorem map_fst_fileEntry (members : List (String × Raw)) :
    (members.map fileEntry).map Prod.fst = members.map Prod.fst := by
  rw [List.map_map]
  rfl

theorem map_fst_manifestMember (manifests : List ModelManifestV1) :
    (manifests.map (manifestMember code)).map Prod.fst = manifests.map (manifestPath code) := by
  rw [List.map_map]
  rfl

theorem nodup_manifestPaths (hdigests : (manifests.map (manifestDigest code)).Nodup) :
    (manifests.map (manifestPath code)).Nodup := by
  rw [List.Nodup, List.pairwise_map] at hdigests ⊢
  exact hdigests.imp fun hne heq => hne (manifestPath_inj heq)

/-- No path stands twice in a bundle. -/
theorem nodup_bundleListing (hcode : LawfulCode code) (hfixed : fixed.map Prod.fst = fixedBundleMemberPaths)
    (hdigests : (manifests.map (manifestDigest code)).Nodup) :
    ((bundleListing code fixed manifests index).map Prod.fst).Nodup := by
  have hnot : ∀ m : ModelManifestV1, manifestPath code m ∉
      "manifests" :: catalogPublicationBundleIndexName :: fixedBundleMemberPaths :=
    fun m => manifestPath_notMem hcode m (by decide)
  unfold bundleListing laterMembers
  rw [List.map_append, List.map_cons, map_fst_fileEntry, map_fst_fileEntry, hfixed, List.map_append,
    map_fst_manifestMember]
  refine List.nodup_append.mpr ⟨by decide, List.nodup_cons.mpr ⟨?_, List.nodup_append.mpr
    ⟨nodup_manifestPaths hdigests, List.nodup_singleton _, ?_⟩⟩, ?_⟩
  · intro hmem
    rcases List.mem_append.mp hmem with hmem | hmem
    · obtain ⟨m, -, heq⟩ := List.mem_map.mp hmem
      exact hnot m (heq ▸ List.mem_cons_self)
    · exact absurd (List.mem_singleton.mp hmem) (by decide : "manifests" ≠ "bundle.json")
  · rintro path hpath path' hpath' rfl
    obtain ⟨m, -, rfl⟩ := List.mem_map.mp hpath
    exact hnot m (List.mem_cons_of_mem _ (List.mem_singleton.mp hpath' ▸ List.mem_cons_self))
  · rintro path hpath path' hpath' rfl
    rcases List.mem_cons.mp hpath' with rfl | hpath'
    · exact absurd hpath (by decide)
    · rcases List.mem_append.mp hpath' with hmem | hmem
      · obtain ⟨m, -, rfl⟩ := List.mem_map.mp hmem
        exact hnot m (List.mem_cons_of_mem _ (List.mem_cons_of_mem _ hpath))
      · rw [List.mem_singleton.mp hmem] at hpath
        exact absurd hpath (by decide : "bundle.json" ∉ fixedBundleMemberPaths)

theorem makeDirectories_nil_of_root {path : String} (h : parentDirectories path = []) (listing : Listing) :
    makeDirectories (parentDirectories path) listing = some listing := by
  rw [h]
  rfl

/-- **The directory that is built.** -/
theorem stageMembers_eq (hcode : LawfulCode code) (hfixed : fixed.map Prod.fst = fixedBundleMemberPaths)
    (hmanifests : manifests ≠ []) (hdigests : (manifests.map (manifestDigest code)).Nodup) :
    stageMembers (fixed ++ laterMembers code manifests index) [] =
      some (bundleListing code fixed manifests index) := by
  have hnodup : ((bundleListing code fixed manifests index).map Prod.fst).Nodup :=
    nodup_bundleListing hcode hfixed hdigests
  have hroot : ∀ path ∈ catalogPublicationBundleIndexName :: fixedBundleMemberPaths, parentDirectories path = [] := by
    decide
  obtain ⟨m, ms, rfl⟩ := List.exists_cons_of_ne_nil hmanifests
  have hshape : bundleListing code fixed (m :: ms) index =
      (fixed.map fileEntry ++ [("manifests", .directory)] ++ [fileEntry (manifestMember code m)]) ++
        (laterMembers code ms index).map fileEntry := by
    unfold bundleListing laterMembers
    simp only [List.map_cons, List.cons_append, List.append_assoc, List.nil_append]
  -- the fixed members, in the root
  have hfirst : stageMembers (fixed ++ laterMembers code (m :: ms) index) [] =
      stageMembers (laterMembers code (m :: ms) index) (fixed.map fileEntry) := by
    have hkeys : (([] ++ fixed.map fileEntry).map Prod.fst).Nodup := by
      rw [List.nil_append, map_fst_fileEntry, hfixed]
      decide
    refine stageMembers_append ?_ hkeys _
    intro member hmember listing' _ _
    refine makeDirectories_nil_of_root (hroot _ (List.mem_cons_of_mem _ ?_)) listing'
    exact hfixed ▸ List.mem_map_of_mem hmember
  -- the first manifest, with its directory
  have hsecond : stageMember (manifestMember code m) (fixed.map fileEntry) =
      some (fixed.map fileEntry ++ [("manifests", .directory)] ++ [fileEntry (manifestMember code m)]) := by
    rw [hshape, List.map_append, List.nodup_append, List.map_append, List.nodup_append] at hnodup
    refine stageMember_eq ?_ fun hmem => hnodup.1.2.2 _ hmem _ List.mem_cons_self rfl
    show makeDirectories (parentDirectories (manifestPath code m)) _ = _
    have hnew : "manifests" ∉ (fixed.map fileEntry).map Prod.fst := by
      rw [map_fst_fileEntry, hfixed]
      decide
    rw [parentDirectories_manifestPath hcode, makeDirectories, lookup_eq_none hnew]
    rfl
  -- the other manifests and the index
  have hthird : stageMembers (laterMembers code ms index)
      (fixed.map fileEntry ++ [("manifests", .directory)] ++ [fileEntry (manifestMember code m)]) =
      some (bundleListing code fixed (m :: ms) index) := by
    rw [hshape] at hnodup ⊢
    suffices hlast : stageMembers (laterMembers code ms index ++ []) _ = stageMembers [] _ by
      rwa [List.append_nil] at hlast
    refine stageMembers_append ?_ hnodup []
    intro member hmember listing' hsub hkeys
    rcases List.mem_append.mp hmember with hmember | hmember
    · obtain ⟨m', -, rfl⟩ := List.mem_map.mp hmember
      have hdirectory : listing'.lookup "manifests" = some .directory :=
        (Json.lookup_eq_some_iff hkeys).mpr (hsub _ (by simp))
      show makeDirectories (parentDirectories (manifestPath code m')) _ = _
      rw [parentDirectories_manifestPath hcode, makeDirectories, hdirectory]
      rfl
    · obtain rfl := List.mem_singleton.mp hmember
      exact makeDirectories_nil_of_root (hroot _ List.mem_cons_self) listing'
  rw [hfirst]
  show (stageMember (manifestMember code m) (fixed.map fileEntry)).bind _ = _
  rw [hsecond]
  exact hthird

/-- Every member is found in the directory. -/
theorem lookup_bundleListing (hcode : LawfulCode code) (hfixed : fixed.map Prod.fst = fixedBundleMemberPaths)
    (hdigests : (manifests.map (manifestDigest code)).Nodup) {member : String × Raw}
    (hmember : member ∈ fixed ++ laterMembers code manifests index) :
    (bundleListing code fixed manifests index).lookup member.1 = some (.file member.2) := by
  refine (Json.lookup_eq_some_iff (nodup_bundleListing hcode hfixed hdigests)).mpr ?_
  unfold bundleListing
  rcases List.mem_append.mp hmember with hmem | hmem
  · exact List.mem_append_left _ (List.mem_map_of_mem hmem)
  · exact List.mem_append_right _ (List.mem_cons_of_mem _ (List.mem_map_of_mem hmem))

theorem scanMembers_files (members : List (String × Raw)) {rest : Listing} {files directories : List String}
    (h : scanMembers rest = .ok (files, directories)) :
    scanMembers (members.map fileEntry ++ rest) = .ok (members.map Prod.fst ++ files, directories) := by
  induction members with
  | nil => exact h
  | cons member members ih =>
    show (scanMembers (members.map fileEntry ++ rest) >>= _) = _
    rw [ih]
    rfl

theorem scanMembers_bundleListing : scanMembers (bundleListing code fixed manifests index) =
    .ok (fixed.map Prod.fst ++ (laterMembers code manifests index).map Prod.fst, ["manifests"]) := by
  have hlater : scanMembers ((laterMembers code manifests index).map fileEntry) =
      .ok ((laterMembers code manifests index).map Prod.fst, []) := by
    have h := scanMembers_files (laterMembers code manifests index) (rfl : scanMembers [] = .ok ([], []))
    rwa [List.append_nil, List.append_nil] at h
  have hdirectory : scanMembers (("manifests", .directory) :: (laterMembers code manifests index).map fileEntry) =
      .ok ((laterMembers code manifests index).map Prod.fst, ["manifests"]) := by
    show (scanMembers ((laterMembers code manifests index).map fileEntry) >>= _) = _
    rw [hlater]
    rfl
  exact scanMembers_files fixed hdirectory

theorem sameElements_of_mem {xs ys : List String} (h : ∀ x, x ∈ xs ↔ x ∈ ys) : sameElements xs ys = true := by
  unfold sameElements
  rw [Bool.and_eq_true, List.all_eq_true, List.all_eq_true]
  exact ⟨fun x hx => List.contains_iff_mem.mpr ((h x).mp hx), fun x hx => List.contains_iff_mem.mpr ((h x).mpr hx)⟩

theorem any_not_contains_eq_false {xs ys : List String} :
    (xs.any fun x => !ys.contains x) = false ↔ ∀ x ∈ xs, x ∈ ys := by
  rw [List.any_eq_false]
  refine forall₂_congr fun x _ => ?_
  rw [Bool.not_eq_true, Bool.not_eq_false', List.contains_iff_mem]

theorem raiseIf_false {condition : Bool} {message : String} (h : condition = false) :
    raiseIf condition message = .ok () := by
  rw [h]
  rfl

/-! ### The index -/

/-- A member as the index names it. -/
def memberEntry (code : ReleaseCode Bootstrap Envelope) (member : String × Raw) : MemberEntry :=
  ⟨member.1, sha256DigestBytes code member.2, member.2.size⟩

/-- A file that the index may name. -/
structure Bounded (member : String × Raw) : Prop where
  path : fixedBundleMemberPaths.contains member.1 = true ∨ isManifestBundlePath member.1 = true
  pos : 1 ≤ member.2.size
  le : member.2.size ≤ maxCatalogPublicationBundleMemberBytes

theorem isDigestId_sha256DigestBytes (hcode : LawfulCode code) (raw : Raw) :
    Node.isDigestId (sha256DigestBytes code raw) = true := by
  unfold Node.isDigestId sha256DigestBytes
  rw [stripSha256_append]
  exact hcode.sha256Hex_digest raw

theorem readMemberEntry_memberJson (hcode : LawfulCode code) {known : List MemberEntry} {member : String × Raw}
    (hbounded : Bounded member) (hnew : member.1 ∉ known.map MemberEntry.path) :
    readMemberEntry known (memberJson code member) = .ok (memberEntry code member) := by
  have hpath : (!fixedBundleMemberPaths.contains member.1 && !isManifestBundlePath member.1) = false := by
    rcases hbounded.path with h | h <;> rw [h] <;> simp
  have hsize : decide ((member.2.size : Int) < 1 ∨ (maxCatalogPublicationBundleMemberBytes : Int) < member.2.size) =
      false := by
    have := hbounded.pos
    have := hbounded.le
    rw [decide_eq_false_iff_not]
    omega
  have hcontains : (known.map MemberEntry.path).contains member.1 = false := by
    rw [List.contains_eq_mem]
    exact decide_eq_false hnew
  have hfields : (!Json.hasExactly [("path", .str member.1), ("sha256", .str (sha256DigestBytes code member.2)),
      ("size", .int member.2.size)] ["path", "sha256", "size"]) = false := rfl
  show (raiseIf (!Json.hasExactly _ ["path", "sha256", "size"]) _ >>= fun _ =>
    raiseIf ((known.map MemberEntry.path).contains member.1) _ >>= fun _ =>
    raiseIf (!fixedBundleMemberPaths.contains member.1 && !isManifestBundlePath member.1) _ >>= fun _ =>
    raiseIf (!Node.isDigestId (sha256DigestBytes code member.2)) _ >>= fun _ =>
    raiseIf (decide ((member.2.size : Int) < 1 ∨ (maxCatalogPublicationBundleMemberBytes : Int) < member.2.size)) _ >>=
      fun _ => (.ok (memberEntry code member) : Except String MemberEntry)) = _
  rw [raiseIf_false hfields, ok_bind, raiseIf_false hcontains, ok_bind, raiseIf_false hpath, ok_bind,
    raiseIf_false (by rw [isDigestId_sha256DigestBytes hcode]; rfl), ok_bind, raiseIf_false hsize, ok_bind]

/-- The items of an index are read as the members that they name. -/
theorem readMemberEntries_eq (hcode : LawfulCode code) {known : List MemberEntry} {members : List (String × Raw)}
    (hbounded : ∀ member ∈ members, Bounded member)
    (hnodup : (known.map MemberEntry.path ++ members.map Prod.fst).Nodup) :
    readMemberEntries known (members.map (memberJson code)) = .ok (known ++ members.map (memberEntry code)) := by
  induction members generalizing known with
  | nil => rw [List.map_nil, List.map_nil, List.append_nil, readMemberEntries]
  | cons member members ih =>
    have hnew : member.1 ∉ known.map MemberEntry.path := by
      intro hmem
      exact (List.nodup_append.mp hnodup).2.2 _ hmem _ List.mem_cons_self rfl
    have hnext : ((known ++ [memberEntry code member]).map MemberEntry.path ++ members.map Prod.fst).Nodup := by
      rw [List.map_append, List.append_assoc]
      exact hnodup
    rw [List.map_cons, readMemberEntries, readMemberEntry_memberJson hcode (hbounded _ List.mem_cons_self) hnew,
      ok_bind, ih (fun m hm => hbounded m (List.mem_cons_of_mem _ hm)) hnext, List.map_cons, List.append_assoc]
    rfl

/-- The members in the order of the index. -/
def sortedMembers (members : List (String × Raw)) : List (String × Raw) := members.insertionSort fun a b => a.1 ≤ b.1

theorem perm_sortedMembers (members : List (String × Raw)) : (sortedMembers members).Perm members :=
  List.perm_insertionSort _ members

theorem pairwise_sortedMembers (members : List (String × Raw)) :
    ((sortedMembers members).map Prod.fst).Pairwise (· ≤ ·) := by
  have hmap : (sortedMembers members).map Prod.fst = (members.map Prod.fst).insertionSort (· ≤ ·) :=
    List.map_insertionSort _ (· ≤ ·) Prod.fst members fun _ _ _ _ => Iff.rfl
  rw [hmap]
  exact List.pairwise_insertionSort (· ≤ ·) _

/-- **The index is read** as it was built. -/
theorem readIndex_bundleIndex (hcode : LawfulCode code) {indexBytes : Raw}
    (hbounded : ∀ member ∈ members, Bounded member) (hnodup : (members.map Prod.fst).Nodup)
    (hfixed : ∀ path ∈ fixedBundleMemberPaths, path ∈ members.map Prod.fst)
    (htotal : indexBytes.size + (members.map fun member => member.2.size).sum ≤ maxCatalogPublicationBundleTotalBytes) :
    readIndex indexBytes (bundleIndex code report members) = .ok ((sortedMembers members).map (memberEntry code)) := by
  have hperm := perm_sortedMembers members
  have hpaths : ((sortedMembers members).map (memberEntry code)).map MemberEntry.path =
      (sortedMembers members).map Prod.fst := by
    rw [List.map_map]
    rfl
  have hsizes : (((sortedMembers members).map (memberEntry code)).map MemberEntry.size).sum =
      (members.map fun member => member.2.size).sum := by
    rw [List.map_map]
    exact (hperm.map _).sum_eq
  have hentries : readMemberEntries [] ((sortedMembers members).map (memberJson code)) =
      .ok ((sortedMembers members).map (memberEntry code)) := by
    refine readMemberEntries_eq hcode (fun member hmember => hbounded member (hperm.mem_iff.mp hmember)) ?_
    exact ((hperm.map Prod.fst).nodup_iff).mpr hnodup
  have hfields : (!Json.hasExactly (bundleIndex code report members) bundleIndexFields) = false := rfl
  have hsome : ((sortedMembers members).map (memberJson code)).isEmpty = false := by
    obtain ⟨member, hmember, -⟩ := List.mem_map.mp (hfixed "catalog-bootstrap.json" (by decide))
    rw [List.isEmpty_eq_false_iff_exists_mem]
    exact ⟨_, List.mem_map_of_mem (hperm.mem_iff.mpr hmember)⟩
  have hordered : (((sortedMembers members).map (memberEntry code)).map MemberEntry.path !=
      (((sortedMembers members).map (memberEntry code)).map MemberEntry.path).insertionSort (· ≤ ·)) = false := by
    rw [hpaths, (pairwise_sortedMembers members).insertionSort_eq]
    exact bne_self_eq_false _
  have htotal' : decide (maxCatalogPublicationBundleTotalBytes < indexBytes.size +
      (((sortedMembers members).map (memberEntry code)).map MemberEntry.size).sum) = false := by
    rw [hsizes]
    exact decide_eq_false (Nat.not_lt.mpr htotal)
  have hcomplete : (fixedBundleMemberPaths.any fun path =>
      !(((sortedMembers members).map (memberEntry code)).map MemberEntry.path).contains path) = false := by
    rw [hpaths]
    exact any_not_contains_eq_false.mpr fun path hpath => (hperm.map Prod.fst).mem_iff.mpr (hfixed path hpath)
  unfold readIndex
  rw [raiseIf_false hfields, ok_bind]
  show (raiseIf ((sortedMembers members).map (memberJson code)).isEmpty _ >>= fun _ =>
    readMemberEntries [] ((sortedMembers members).map (memberJson code)) >>= _) = _
  rw [raiseIf_false hsome, ok_bind, hentries, ok_bind]
  dsimp only
  rw [raiseIf_false hordered, ok_bind, raiseIf_false htotal', ok_bind, raiseIf_false hcomplete, ok_bind]
  rfl

/-! ### The report -/

theorem raiseIf_ok {condition : Bool} {message : String} {u : Unit} :
    raiseIf condition message = .ok u ↔ condition = false := by
  unfold raiseIf
  cases condition with
  | false => exact ⟨fun _ => rfl, fun _ => rfl⟩
  | true => exact ⟨(fun h => nomatch h), (fun h => nomatch h)⟩

/-- What was checked of a release. -/
structure Verified (code : ReleaseCode Bootstrap Envelope) (bootstrap : Bootstrap) (envelope : Envelope)
    (manifests : List ModelManifestV1) (now : ℚ) (mirrors : List String) (seeds : List SeedComponent)
    (catalog : ModelCatalog) : Prop where
  mirrors : mirrorHosts code bootstrap = .ok mirrors
  seeds : seedComponents code bootstrap = .ok seeds
  envelope : code.verifyEnvelope envelope bootstrap now = .ok catalog
  nodup : (manifests.map (manifestDigestId code)).Nodup
  supplied : ∀ d, d ∈ manifests.map (manifestDigestId code) ↔ d ∈ catalog.models.map CatalogModel.manifestDigest
  models : ∃ selectors, catalog.models.foldlM (checkModel code manifests) [] = .ok selectors
  rungs : catalog.rungs.forM checkRung = .ok ()

theorem verify_iff {bootstrap : Bootstrap} {envelope : Envelope} {now : ℚ} :
    verifyCatalogPublicationBundle code bootstrap envelope manifests now = .ok report ↔
      ∃ mirrors seeds catalog, Verified code bootstrap envelope manifests now mirrors seeds catalog ∧
        report = preflightReport code bootstrap catalog mirrors seeds := by
  unfold verifyCatalogPublicationBundle
  constructor
  · intro h
    obtain ⟨mirrors, hmirrors, h⟩ := bind_eq_ok.mp h
    obtain ⟨seeds, hseeds, h⟩ := bind_eq_ok.mp h
    obtain ⟨catalog, hcatalog, h⟩ := bind_eq_ok.mp h
    obtain ⟨_, hnodup, h⟩ := bind_eq_ok.mp h
    obtain ⟨_, hmissing, h⟩ := bind_eq_ok.mp h
    obtain ⟨_, hextra, h⟩ := bind_eq_ok.mp h
    obtain ⟨selectors, hmodels, h⟩ := bind_eq_ok.mp h
    obtain ⟨⟨⟩, hrungs, h⟩ := bind_eq_ok.mp h
    have hnodup : (manifests.map (manifestDigestId code)).Nodup := by
      rw [raiseIf_ok, Bool.not_eq_false', decide_eq_true_eq] at hnodup
      exact hnodup
    have hmissing := any_not_contains_eq_false.mp (raiseIf_ok.mp hmissing)
    have hextra := any_not_contains_eq_false.mp (raiseIf_ok.mp hextra)
    exact ⟨mirrors, seeds, catalog, ⟨hmirrors, hseeds, hcatalog, hnodup, fun d => ⟨hextra d, hmissing d⟩,
      ⟨selectors, hmodels⟩, hrungs⟩, (Except.ok.inj h).symm⟩
  · rintro ⟨mirrors, seeds, catalog, hverified, rfl⟩
    obtain ⟨selectors, hmodels⟩ := hverified.models
    rw [hverified.mirrors, ok_bind, hverified.seeds, ok_bind, hverified.envelope, ok_bind]
    have hnodup : (!decide (manifests.map (manifestDigestId code)).Nodup) = false := by
      rw [decide_eq_true hverified.nodup]
      rfl
    have hmissing := any_not_contains_eq_false.mpr fun d hd => (hverified.supplied d).mpr hd
    have hextra := any_not_contains_eq_false.mpr fun d hd => (hverified.supplied d).mp hd
    dsimp only
    rw [raiseIf_false hnodup, ok_bind, raiseIf_false hmissing, ok_bind, raiseIf_false hextra, ok_bind, hmodels, ok_bind,
      hverified.rungs, ok_bind]
    rfl

theorem nodup_manifestDigests {bootstrap : Bootstrap} {envelope : Envelope} {now : ℚ} {mirrors : List String}
    {seeds : List SeedComponent} {catalog : ModelCatalog}
    (h : Verified code bootstrap envelope manifests now mirrors seeds catalog) :
    (manifests.map (manifestDigest code)).Nodup := by
  refine List.Nodup.of_map (fun d => "sha256:" ++ d) ?_
  rw [List.map_map]
  exact h.nodup

/-- Of values with different keys, the one with a key is found wherever it stands. -/
theorem find_perm {α : Type} {f : α → String} {xs ys : List α} (h : xs.Perm ys) (hnodup : (xs.map f).Nodup)
    (key : String) : (xs.find? fun x => f x == key) = ys.find? fun x => f x == key := by
  induction h with
  | nil => rfl
  | cons x _ ih =>
    rw [List.find?_cons, List.find?_cons, ih (List.nodup_cons.mp hnodup).2]
  | swap x y l =>
    have hne : f y ≠ f x := fun heq => (List.nodup_cons.mp hnodup).1 (heq ▸ List.mem_cons_self)
    simp only [List.find?_cons]
    by_cases hx : f x = key
    · rw [beq_iff_eq.mpr hx, beq_eq_false_iff_ne.mpr (hx ▸ hne)]
    · rw [beq_eq_false_iff_ne.mpr hx]
  | trans h _ ih ih' =>
    exact (ih hnodup).trans (ih' ((h.map f).nodup_iff.mp hnodup))

/-- The order of the manifests does not matter. -/
theorem Verified.perm {bootstrap : Bootstrap} {envelope : Envelope} {now : ℚ} {mirrors : List String}
    {seeds : List SeedComponent} {catalog : ModelCatalog} {manifests' : List ModelManifestV1}
    (h : Verified code bootstrap envelope manifests now mirrors seeds catalog) (hperm : manifests.Perm manifests') :
    Verified code bootstrap envelope manifests' now mirrors seeds catalog := by
  have hcheck : checkModel code manifests = checkModel code manifests' := by
    funext selectors model
    unfold checkModel
    rw [find_perm hperm h.nodup]
  refine ⟨h.mirrors, h.seeds, h.envelope, ((hperm.map _).nodup_iff).mp h.nodup, ?_, hcheck ▸ h.models, h.rungs⟩
  exact fun d => (hperm.map _).mem_iff.symm.trans (h.supplied d)

theorem plain_preflightReport (bootstrap : Bootstrap) (catalog : ModelCatalog) (mirrors : List String)
    (seeds : List SeedComponent) : (Json.obj (preflightReport code bootstrap catalog mirrors seeds)).Plain := by
  simp [preflightReport, notCovered, Json.Plain, Json.PlainFields, Json.PlainItems]

theorem distinctKeys_preflightReport (bootstrap : Bootstrap) (catalog : ModelCatalog) (mirrors : List String)
    (seeds : List SeedComponent) :
    (Json.obj (preflightReport code bootstrap catalog mirrors seeds)).distinctKeys = true := by
  simp [preflightReport, notCovered, Json.distinctKeys, Json.distinctFields, Json.distinctItems]

theorem sortKeys_preflightReport (bootstrap : Bootstrap) (catalog : ModelCatalog) (mirrors : List String)
    (seeds : List SeedComponent) : (Json.obj (preflightReport code bootstrap catalog mirrors seeds)).sortKeys =
      .obj (preflightReport code bootstrap catalog mirrors seeds) := by
  have hkeys : (preflightReport code bootstrap catalog mirrors seeds).map Prod.fst =
      ["bootstrap_digest", "catalog_digest", "catalog_id", "catalog_mirror_count", "catalog_sequence",
        "complete_release_qualification", "distinct_seed_address_count", "distinct_seed_host_count",
        "distinct_seed_identity_count", "model_count", "not_covered", "result", "rung_count", "schema_version",
        "scope"] := rfl
  refine Json.sortKeys_obj_eq_self hkeys (by decide) ?_
  intro f hf
  simp only [preflightReport, List.mem_cons, List.not_mem_nil, or_false] at hf
  rcases hf with rfl | rfl | rfl | rfl | rfl | rfl | rfl | rfl | rfl | rfl | rfl | rfl | rfl | rfl | rfl <;> rfl

theorem plain_bundleIndex (bootstrap : Bootstrap) (catalog : ModelCatalog) (mirrors : List String)
    (seeds : List SeedComponent) (members : List (String × Raw)) :
    (Json.obj (bundleIndex code (preflightReport code bootstrap catalog mirrors seeds) members)).Plain := by
  have hfiles : ∀ x ∈ (sortedMembers members).map (memberJson code), x.Plain := by
    intro x hx
    obtain ⟨member, -, rfl⟩ := List.mem_map.mp hx
    simp [memberJson, Json.Plain, Json.PlainFields]
  refine Json.plainFields_iff.mpr ?_
  intro f hf
  simp only [bundleIndex, List.mem_cons, List.not_mem_nil, or_false] at hf
  rcases hf with rfl | rfl | rfl | rfl | rfl | rfl | rfl | rfl
  iterate 5 exact trivial
  · exact Json.plainItems_iff.mpr hfiles
  iterate 2 exact trivial

theorem distinctKeys_bundleIndex (bootstrap : Bootstrap) (catalog : ModelCatalog) (mirrors : List String)
    (seeds : List SeedComponent) (members : List (String × Raw)) :
    (Json.obj (bundleIndex code (preflightReport code bootstrap catalog mirrors seeds) members)).distinctKeys =
      true := by
  have hfiles : ∀ x ∈ (sortedMembers members).map (memberJson code), x.distinctKeys = true := by
    intro x hx
    obtain ⟨member, -, rfl⟩ := List.mem_map.mp hx
    simp [memberJson, Json.distinctKeys, Json.distinctFields]
  have hkeys : decide ((bundleIndex code (preflightReport code bootstrap catalog mirrors seeds) members).map
      Prod.fst).Nodup = true := rfl
  unfold Json.distinctKeys
  rw [hkeys, Bool.true_and, Json.distinctFields_iff]
  intro f hf
  simp only [bundleIndex, List.mem_cons, List.not_mem_nil, or_false] at hf
  rcases hf with rfl | rfl | rfl | rfl | rfl | rfl | rfl | rfl
  iterate 5 rfl
  · exact Json.distinctItems_iff.mpr hfiles
  iterate 2 rfl

theorem sortKeys_bundleIndex (bootstrap : Bootstrap) (catalog : ModelCatalog) (mirrors : List String)
    (seeds : List SeedComponent) (members : List (String × Raw)) :
    (Json.obj (bundleIndex code (preflightReport code bootstrap catalog mirrors seeds) members)).sortKeys =
      .obj (bundleIndex code (preflightReport code bootstrap catalog mirrors seeds) members) := by
  have hitem : ∀ member : String × Raw, (memberJson code member).sortKeys = memberJson code member := by
    intro member
    refine Json.sortKeys_obj_eq_self (rfl : _ = ["path", "sha256", "size"]) (by decide) ?_
    intro f hf
    simp only [List.mem_cons, List.not_mem_nil, or_false] at hf
    rcases hf with rfl | rfl | rfl <;> rfl
  have hfiles : Json.sortKeys (.arr ((sortedMembers members).map (memberJson code))) =
      .arr ((sortedMembers members).map (memberJson code)) := by
    rw [Json.sortKeys, Json.sortItems_eq, List.map_map]
    exact congrArg Json.arr (List.map_congr_left fun member _ => hitem member)
  have hkeys : (bundleIndex code (preflightReport code bootstrap catalog mirrors seeds) members).map Prod.fst =
      ["bootstrap_digest", "catalog_digest", "catalog_id", "catalog_sequence", "complete_release_qualification",
        "files", "schema_version", "scope"] := rfl
  refine Json.sortKeys_obj_eq_self hkeys (by decide) ?_
  intro f hf
  simp only [bundleIndex, List.mem_cons, List.not_mem_nil, or_false] at hf
  rcases hf with rfl | rfl | rfl | rfl | rfl | rfl | rfl | rfl
  iterate 5 rfl
  · exact hfiles
  iterate 2 rfl

/-! ### The loader -/

/-- The directory has the members of the index. -/
theorem checkMembership_bundleListing
    (hmembers : members = fixed ++ manifests.map (manifestMember code)) :
    checkMembership (bundleListing code fixed manifests index) ((sortedMembers members).map (memberEntry code)) =
      .ok () := by
  have hpaths : ((sortedMembers members).map (memberEntry code)).map MemberEntry.path =
      (sortedMembers members).map Prod.fst := by
    rw [List.map_map]
    rfl
  have hsame : sameElements (fixed.map Prod.fst ++ (laterMembers code manifests index).map Prod.fst)
      (catalogPublicationBundleIndexName :: ((sortedMembers members).map (memberEntry code)).map MemberEntry.path) =
      true := by
    refine sameElements_of_mem fun path => ?_
    rw [hpaths, List.mem_cons, ((perm_sortedMembers members).map Prod.fst).mem_iff, hmembers, laterMembers,
      List.map_append, List.map_append, List.mem_append, List.mem_append, List.mem_append, List.map_singleton,
      List.mem_singleton]
    tauto
  unfold checkMembership
  rw [scanMembers_bundleListing, ok_bind]
  dsimp only
  rw [raiseIf_false (by rw [hsame]; rfl), ok_bind]
  rfl

/-- The members of the index are read from the directory. -/
theorem mapM_readMember_bundleListing (hcode : LawfulCode code)
    (hfixed : fixed.map Prod.fst = fixedBundleMemberPaths) (hdigests : (manifests.map (manifestDigest code)).Nodup)
    (hmembers : members = fixed ++ manifests.map (manifestMember code)) (hbounded : ∀ member ∈ members, Bounded member) :
    ((sortedMembers members).map (memberEntry code)).mapM (readMember code (bundleListing code fixed manifests index)) =
      .ok (sortedMembers members) := by
  have hread : ∀ member ∈ members, readMember code (bundleListing code fixed manifests index) (memberEntry code member) =
      .ok member := by
    intro member hmember
    have hlater : member ∈ fixed ++ laterMembers code manifests index := by
      rw [laterMembers, ← List.append_assoc, ← hmembers]
      exact List.mem_append_left _ hmember
    have hsize : decide (member.2.size < 1 ∨ maxCatalogPublicationBundleMemberBytes < member.2.size) = false := by
      have := (hbounded member hmember).pos
      have := (hbounded member hmember).le
      rw [decide_eq_false_iff_not]
      omega
    have hbytes : bundleMemberBytes (bundleListing code fixed manifests index) member.1
        maxCatalogPublicationBundleMemberBytes = .ok member.2 := by
      unfold bundleMemberBytes
      rw [lookup_bundleListing hcode hfixed hdigests hlater]
      dsimp only
      rw [raiseIf_false hsize, ok_bind]
      rfl
    show (bundleMemberBytes (bundleListing code fixed manifests index) member.1 _ >>= _) = _
    rw [hbytes, ok_bind]
    dsimp only [memberEntry]
    rw [raiseIf_false (bne_self_eq_false _), ok_bind, raiseIf_false (bne_self_eq_false _), ok_bind]
    rfl
  exact mapM_map_eq_self fun member hmember => hread member ((perm_sortedMembers members).mem_iff.mp hmember)

/-- The members of a bundle, without the index. -/
structure Members (code : ReleaseCode Bootstrap Envelope) (manifests : List ModelManifestV1)
    (fixed members : List (String × Raw)) : Prop where
  paths : fixed.map Prod.fst = fixedBundleMemberPaths
  eq : members = fixed ++ manifests.map (manifestMember code)
  digests : (manifests.map (manifestDigest code)).Nodup

theorem Members.nodup (hcode : LawfulCode code) (h : Members code manifests fixed members) :
    (members.map Prod.fst).Nodup := by
  rw [h.eq, List.map_append, map_fst_manifestMember, h.paths]
  refine List.nodup_append.mpr ⟨by decide, nodup_manifestPaths h.digests, ?_⟩
  rintro path hpath path' hpath' rfl
  obtain ⟨m, -, rfl⟩ := List.mem_map.mp hpath'
  exact manifestPath_notMem hcode m (by decide) hpath

/-- A member is found by its path. -/
theorem Members.lookup (hcode : LawfulCode code) (h : Members code manifests fixed members) {member : String × Raw}
    (hmember : member ∈ members) : (sortedMembers members).lookup member.1 = some member.2 := by
  have hperm := perm_sortedMembers members
  exact (Json.lookup_eq_some_iff (((hperm.map _).nodup_iff).mpr (h.nodup hcode))).mpr (hperm.mem_iff.mpr hmember)

/-- The manifests in the order of their paths. -/
def pathOrder (code : ReleaseCode Bootstrap Envelope) (manifests : List ModelManifestV1) : List ModelManifestV1 :=
  manifests.insertionSort fun a b => manifestPath code a ≤ manifestPath code b

/-- The paths of the manifests, as the loader lists them. -/
theorem Members.manifestPaths (hcode : LawfulCode code) (h : Members code manifests fixed members) :
    ((((sortedMembers members).map Prod.fst).filter fun path => !fixedBundleMemberPaths.contains path).insertionSort
      (· ≤ ·)) = (pathOrder code manifests).map (manifestPath code) := by
  have hfilter : ((members.map Prod.fst).filter fun path => !fixedBundleMemberPaths.contains path) =
      manifests.map (manifestPath code) := by
    have hmanifests : ∀ path ∈ manifests.map (manifestPath code), (!fixedBundleMemberPaths.contains path) = true := by
      intro path hpath
      obtain ⟨m, -, rfl⟩ := List.mem_map.mp hpath
      rw [Bool.not_eq_true', List.contains_eq_mem]
      exact decide_eq_false (manifestPath_notMem hcode m (by decide))
    rw [h.eq, List.map_append, map_fst_manifestMember, h.paths, List.filter_append,
      List.filter_eq_self.mpr hmanifests]
    rfl
  have hsort : (pathOrder code manifests).map (manifestPath code) =
      (manifests.map (manifestPath code)).insertionSort (· ≤ ·) :=
    List.map_insertionSort _ (· ≤ ·) (manifestPath code) manifests fun _ _ _ _ => Iff.rfl
  have hperm := ((perm_sortedMembers members).map Prod.fst).filter fun path => !fixedBundleMemberPaths.contains path
  rw [hfilter] at hperm
  rw [hsort]
  refine List.Perm.eq_of_pairwise (fun a b _ _ hab hba => le_antisymm hab hba) (List.pairwise_insertionSort _ _)
    (List.pairwise_insertionSort _ _) ?_
  exact (List.perm_insertionSort _ _).trans (hperm.trans (List.perm_insertionSort _ _).symm)

/-- Documents that are read as they are rendered. -/
structure Readable (code : ReleaseCode Bootstrap Envelope) (p : Publication Bootstrap Envelope) : Prop where
  bootstrap : code.bootstrapFromJson ((code.bootstrapToDict p.bootstrap).dumps ++ "\n") = .ok p.bootstrap
  envelope : code.envelopeFromJson ((code.envelopeToDict p.envelope).dumps ++ "\n") = .ok p.envelope
  manifests : ∀ m ∈ p.manifests, m.Valid code.manifestLibrary ∧ m.normal = m

/-- The members that are not manifests. -/
def fixedMembers (code : ReleaseCode Bootstrap Envelope) (p : Publication Bootstrap Envelope)
    (report : List (String × Json)) : List (String × Raw) :=
  [("catalog-bootstrap.json", canonicalJsonBytes (code.bootstrapToDict p.bootstrap)),
    ("catalog.signed.json", canonicalJsonBytes (code.envelopeToDict p.envelope)),
    ("publication-preflight.json", canonicalJsonBytes (.obj report))]

theorem memberText_of_lookup {path text : String} (h : members.lookup path = some (.text text)) :
    memberText members path = .ok text := by
  unfold memberText
  rw [h]

/-- A manifest is read from its member. -/
theorem memberManifest_of_lookup {m : ModelManifestV1} (hvalid : m.Valid code.manifestLibrary) (hnormal : m.normal = m)
    {path : String} (h : members.lookup path = some (manifestBytes m)) : memberManifest code members path = .ok m := by
  have hread := ModelManifestV1.fromJson_canonicalJson_append hvalid (rfl : "\n".toList.all Json.isSpace = true)
  unfold memberManifest
  rw [memberText_of_lookup h, ok_bind, hread, hnormal]
  rfl

/-- **The documents are read** back. -/
theorem readDocuments_sorted (hcode : LawfulCode code) (hreadable : Readable code p)
    (hmembers : Members code manifests (fixedMembers code p report) members) (hperm : manifests.Perm p.manifests) :
    readDocuments code (sortedMembers members) = .ok ⟨p.bootstrap, p.envelope, pathOrder code manifests⟩ := by
  have hfixed : ∀ member ∈ fixedMembers code p report, (sortedMembers members).lookup member.1 = some member.2 :=
    fun member hmember => hmembers.lookup hcode (hmembers.eq ▸ List.mem_append_left _ hmember)
  have hbootstrap := hfixed _ List.mem_cons_self
  have henvelope := hfixed _ (List.mem_cons_of_mem _ List.mem_cons_self)
  have horder : (pathOrder code manifests).Perm manifests := List.perm_insertionSort _ manifests
  have hlookup : ∀ m ∈ pathOrder code manifests,
      (sortedMembers members).lookup (manifestPath code m) = some (manifestBytes m) := by
    intro m hm
    have hmem : manifestMember code m ∈ members :=
      hmembers.eq ▸ List.mem_append_right _ (List.mem_map_of_mem (horder.mem_iff.mp hm))
    exact hmembers.lookup hcode hmem
  have hmanifest : ∀ m ∈ pathOrder code manifests,
      memberManifest code (sortedMembers members) (manifestPath code m) = .ok m := by
    intro m hm
    obtain ⟨hvalid, hnormal⟩ := hreadable.manifests m (hperm.mem_iff.mp (horder.mem_iff.mp hm))
    exact memberManifest_of_lookup hvalid hnormal (hlookup m hm)
  have hmanifests : ((pathOrder code manifests).map (manifestPath code)).mapM
      (memberManifest code (sortedMembers members)) = .ok (pathOrder code manifests) := mapM_map_eq_self hmanifest
  have hcanonical : (((pathOrder code manifests).map (manifestPath code)).zip (pathOrder code manifests)).any
      (fun pair => (sortedMembers members).lookup pair.1 != some (manifestBytes pair.2)) = false := by
    have hzip : ((pathOrder code manifests).map (manifestPath code)).zip (pathOrder code manifests) =
        (pathOrder code manifests).map fun m => (manifestPath code m, id m) := by
      rw [← List.zip_map', List.map_id]
    rw [List.any_eq_false, hzip]
    intro pair hpair
    rw [List.mem_map] at hpair
    obtain ⟨m, hm, rfl⟩ := hpair
    show ¬((sortedMembers members).lookup (manifestPath code m) != some (manifestBytes m)) = true
    rw [hlookup m hm, bne_self_eq_false]
    exact Bool.false_ne_true
  have hsame : sameElements ((pathOrder code manifests).map (manifestPath code))
      ((pathOrder code manifests).map (manifestPath code)) = true := sameElements_of_mem fun _ => Iff.rfl
  unfold readDocuments
  rw [memberText_of_lookup hbootstrap, ok_bind, hreadable.bootstrap, ok_bind, memberText_of_lookup henvelope, ok_bind,
    hreadable.envelope, ok_bind, hmembers.manifestPaths hcode]
  dsimp only
  rw [hmanifests, ok_bind, hbootstrap, henvelope]
  rw [raiseIf_false (bne_self_eq_false _), ok_bind, raiseIf_false (bne_self_eq_false _), ok_bind,
    raiseIf_false (by rw [hsame]; rfl), ok_bind, raiseIf_false hcanonical, ok_bind]
  rfl

section Verified

variable {bootstrap : Bootstrap} {mirrors : List String} {seeds : List SeedComponent} {catalog : ModelCatalog}
variable {envelope : Envelope} {now : ℚ}

/-- A report is read back from its bytes. -/
theorem loadStrictJsonDocument_report (hcode : LawfulCode code) (name : String) :
    loadStrictJsonDocument code (canonicalJsonBytes (.obj (preflightReport code bootstrap catalog mirrors seeds)))
      name = .ok (preflightReport code bootstrap catalog mirrors seeds) := by
  unfold loadStrictJsonDocument canonicalJsonBytes
  dsimp only
  rw [hcode.loads_dumps _ (plain_preflightReport bootstrap catalog mirrors seeds)
    (distinctKeys_preflightReport bootstrap catalog mirrors seeds), sortKeys_preflightReport]

theorem loadStrictJsonDocument_index (hcode : LawfulCode code) (members : List (String × Raw)) (name : String) :
    loadStrictJsonDocument code
      (canonicalJsonBytes (.obj (bundleIndex code (preflightReport code bootstrap catalog mirrors seeds) members)))
      name = .ok (bundleIndex code (preflightReport code bootstrap catalog mirrors seeds) members) := by
  unfold loadStrictJsonDocument canonicalJsonBytes
  dsimp only
  rw [hcode.loads_dumps _ (plain_bundleIndex bootstrap catalog mirrors seeds members)
    (distinctKeys_bundleIndex bootstrap catalog mirrors seeds members), sortKeys_bundleIndex]

theorem pyEq_str (s : String) : (Json.str s).pyEq (.str s) = true := beq_self_eq_true s

theorem pyEq_int (n : Int) : (Json.int n).pyEq (.int n) = true := beq_self_eq_true _

/-- **The report passes its own check**, against the bootstrap that it was made for. -/
theorem verifyPreflightReport_report (hcode : LawfulCode code)
    (hverified : Verified code bootstrap envelope manifests now mirrors seeds catalog) :
    ∃ kept, verifyPreflightReport code bootstrap (preflightReport code bootstrap catalog mirrors seeds) = .ok kept := by
  obtain ⟨hid, hsequence, hdigest⟩ := hcode.verifyEnvelope_ok _ _ _ _ hverified.envelope
  have hid' : (!(Json.str catalog.catalogId).pyEq (.str (code.trustRootCatalogId bootstrap))) = false := by
    rw [hid, pyEq_str]
    rfl
  have hbootstrap : (!(Json.str (catalogBootstrapDigest code bootstrap)).pyEq
      (.str (catalogBootstrapDigest code bootstrap))) = false := by
    rw [pyEq_str]
    rfl
  have hsequence' : decide (catalog.sequence < 1) = false := decide_eq_false (not_lt.mpr hsequence)
  have hdigest' : (!Node.isDigestId catalog.digest) = false := by
    rw [hdigest]
    rfl
  unfold verifyPreflightReport
  show ∃ kept, (raiseIf false _ >>= fun _ => raiseIf false _ >>= fun _ => raiseIf false _ >>= fun _ => raiseIf false _ >>=
    fun _ => raiseIf (!(Json.str catalog.catalogId).pyEq (.str (code.trustRootCatalogId bootstrap))) _ >>= fun _ =>
    raiseIf (decide (catalog.sequence < 1)) _ >>= fun _ => raiseIf (!Node.isDigestId catalog.digest) _ >>= fun _ =>
    raiseIf (!(Json.str (catalogBootstrapDigest code bootstrap)).pyEq
      (.str (catalogBootstrapDigest code bootstrap))) _ >>= _) = Except.ok kept
  rw [raiseIf_false rfl, ok_bind, raiseIf_false rfl, ok_bind, raiseIf_false rfl, ok_bind, raiseIf_false rfl, ok_bind,
    raiseIf_false hid', ok_bind, raiseIf_false hsequence', ok_bind, raiseIf_false hdigest', ok_bind,
    raiseIf_false hbootstrap, ok_bind]
  exact ⟨_, rfl⟩

/-- **The release is accepted**: the report of the bundle and its index are those of its documents. -/
theorem checkRelease_ok (hcode : LawfulCode code)
    (hverified : Verified code bootstrap envelope manifests now mirrors seeds catalog)
    (hsource : members.lookup "publication-preflight.json" =
      some (canonicalJsonBytes (.obj (preflightReport code bootstrap catalog mirrors seeds))))
    (named : List (String × Raw)) :
    checkRelease code (bundleIndex code (preflightReport code bootstrap catalog mirrors seeds) named) members
      ⟨bootstrap, envelope, manifests⟩ now = .ok () := by
  have hverify := verify_iff.mpr ⟨mirrors, seeds, catalog, hverified, rfl⟩
  obtain ⟨kept, hreport⟩ := verifyPreflightReport_report hcode hverified
  have hequal : (!(Json.obj (preflightReport code bootstrap catalog mirrors seeds)).pyEq
      (.obj (preflightReport code bootstrap catalog mirrors seeds))) = false := by
    rw [Json.pyEq_refl _ (plain_preflightReport bootstrap catalog mirrors seeds)
      (distinctKeys_preflightReport bootstrap catalog mirrors seeds)]
    rfl
  have hidentity : ∀ name ∈ identityFields,
      raiseIf (!(field (bundleIndex code (preflightReport code bootstrap catalog mirrors seeds) named) name).pyEq
        (field (preflightReport code bootstrap catalog mirrors seeds) name))
        s!"Catalog publication bundle index {name} does not match its exact release inputs" = .ok () := by
    intro name hname
    refine raiseIf_false ?_
    simp only [identityFields, List.mem_cons, List.not_mem_nil, or_false] at hname
    rcases hname with rfl | rfl | rfl | rfl
    · show (!(Json.str catalog.catalogId).pyEq (.str catalog.catalogId)) = false
      rw [pyEq_str]
      rfl
    · show (!(Json.int catalog.sequence).pyEq (.int catalog.sequence)) = false
      rw [pyEq_int]
      rfl
    · show (!(Json.str catalog.digest).pyEq (.str catalog.digest)) = false
      rw [pyEq_str]
      rfl
    · show (!(Json.str (catalogBootstrapDigest code bootstrap)).pyEq
        (.str (catalogBootstrapDigest code bootstrap))) = false
      rw [pyEq_str]
      rfl
  unfold checkRelease
  dsimp only
  rw [hsource, Option.getD_some, loadStrictJsonDocument_report hcode, ok_bind, raiseIf_false (bne_self_eq_false _),
    ok_bind, hverify, ok_bind, raiseIf_false hequal, ok_bind, hreport, ok_bind]
  exact forM_eq_ok hidentity

end Verified

section Accepted

variable {mirrors : List String} {seeds : List SeedComponent} {catalog : ModelCatalog}

/-- The manifests in the order of the writer. -/
def digestOrder (code : ReleaseCode Bootstrap Envelope) (manifests : List ModelManifestV1) : List ModelManifestV1 :=
  manifests.insertionSort fun a b => manifestDigest code a ≤ manifestDigest code b

/-- The members of a release. -/
def releaseMembers (code : ReleaseCode Bootstrap Envelope) (p : Publication Bootstrap Envelope)
    (report : List (String × Json)) : List (String × Raw) :=
  fixedMembers code p report ++ (digestOrder code p.manifests).map (manifestMember code)

/-- The index of a release, and its bytes. -/
def releaseIndex (code : ReleaseCode Bootstrap Envelope) (p : Publication Bootstrap Envelope)
    (report : List (String × Json)) : Json :=
  .obj (bundleIndex code report (releaseMembers code p report))

/-- The directory of a release. -/
def releaseListing (code : ReleaseCode Bootstrap Envelope) (p : Publication Bootstrap Envelope)
    (report : List (String × Json)) : Listing :=
  bundleListing code (fixedMembers code p report) (digestOrder code p.manifests)
    (canonicalJsonBytes (releaseIndex code p report))

/-- The files of a release keep to the limits. -/
structure WithinLimits (code : ReleaseCode Bootstrap Envelope) (p : Publication Bootstrap Envelope)
    (report : List (String × Json)) : Prop where
  member : ∀ member ∈ releaseMembers code p report, member.2.size ≤ maxCatalogPublicationBundleMemberBytes
  index : (canonicalJsonBytes (releaseIndex code p report)).size ≤ maxPublicationPreflightBytes
  total : (canonicalJsonBytes (releaseIndex code p report)).size +
    ((releaseMembers code p report).map fun member => member.2.size).sum ≤ maxCatalogPublicationBundleTotalBytes

theorem addManifests_eq {known : List (String × Raw)}
    (hnodup : ((known ++ manifests.map (manifestMember code)).map Prod.fst).Nodup) :
    addManifests code known manifests = .ok (known ++ manifests.map (manifestMember code)) := by
  induction manifests generalizing known with
  | nil => rw [List.map_nil, List.append_nil, addManifests]
  | cons m ms ih =>
    have hassoc : known ++ (m :: ms).map (manifestMember code) =
        (known ++ [manifestMember code m]) ++ ms.map (manifestMember code) := by
      rw [List.map_cons, List.append_assoc, List.singleton_append]
    have hnew : (known.map Prod.fst).contains (manifestPath code m) = false := by
      rw [List.map_append, List.nodup_append] at hnodup
      rw [List.contains_eq_mem]
      exact decide_eq_false fun hmem => hnodup.2.2 _ hmem _ List.mem_cons_self rfl
    rw [hassoc] at hnodup ⊢
    rw [addManifests, raiseIf_false hnew, ok_bind]
    exact ih hnodup

theorem size_canonicalJsonBytes_pos (j : Json) : 1 ≤ (canonicalJsonBytes j).size := by
  show 1 ≤ (j.dumps ++ "\n").utf8ByteSize
  rw [String.utf8ByteSize_append]
  exact Nat.le_add_left 1 _

theorem members_release (h : (p.manifests.map (manifestDigest code)).Nodup) :
    Members code (digestOrder code p.manifests) (fixedMembers code p report) (releaseMembers code p report) where
  paths := rfl
  eq := rfl
  digests := (((List.perm_insertionSort _ p.manifests).map _).nodup_iff).mpr h

theorem bounded_release (hcode : LawfulCode code) (hlimits : WithinLimits code p report) :
    ∀ member ∈ releaseMembers code p report, Bounded member := by
  intro member hmember
  have hle := hlimits.member member hmember
  rcases List.mem_append.mp hmember with hmember | hmember
  · simp only [fixedMembers, List.mem_cons, List.not_mem_nil, or_false] at hmember
    rcases hmember with rfl | rfl | rfl
    iterate 3 exact ⟨Or.inl rfl, size_canonicalJsonBytes_pos _, hle⟩
  · obtain ⟨m, -, rfl⟩ := List.mem_map.mp hmember
    exact ⟨Or.inr (isManifestBundlePath_manifestPath hcode m), size_canonicalJsonBytes_pos m.toDict, hle⟩

/-- What is prepared for a verified release. -/
theorem prepareBundle_eq (hcode : LawfulCode code)
    (hverified : Verified code p.bootstrap p.envelope p.manifests p.now mirrors seeds catalog)
    (hreport : report = preflightReport code p.bootstrap catalog mirrors seeds) :
    prepareBundle code p = .ok (fixedMembers code p report ++ laterMembers code (digestOrder code p.manifests)
      (canonicalJsonBytes (releaseIndex code p report)), releaseIndex code p report) := by
  have hverify : verifyCatalogPublicationBundle code p.bootstrap p.envelope p.manifests p.now = .ok report :=
    verify_iff.mpr ⟨mirrors, seeds, catalog, hverified, hreport⟩
  have hmembers : Members code _ (fixedMembers code p report) _ := members_release (nodup_manifestDigests hverified)
  have hadded : bundleMembers code p report = .ok (releaseMembers code p report) :=
    addManifests_eq (hmembers.nodup hcode)
  unfold prepareBundle
  rw [hverify, ok_bind, hadded, ok_bind]
  unfold laterMembers
  rw [← List.append_assoc]
  rfl

/-- **The loader accepts** what is built for a verified release, and returns its index. -/
theorem load_releaseListing (hcode : LawfulCode code) (hreadable : Readable code p)
    (hverified : Verified code p.bootstrap p.envelope p.manifests p.now mirrors seeds catalog)
    (hreport : report = preflightReport code p.bootstrap catalog mirrors seeds)
    (hlimits : WithinLimits code p report) :
    loadCatalogPublicationBundle code (.directory (releaseListing code p report)) p.now =
      .ok (releaseIndex code p report) := by
  have hperm : (digestOrder code p.manifests).Perm p.manifests := List.perm_insertionSort _ _
  have hmembers : Members code _ (fixedMembers code p report) _ := members_release (nodup_manifestDigests hverified)
  have hbounded := bounded_release hcode hlimits
  have hindex : bundleMemberBytes (releaseListing code p report) catalogPublicationBundleIndexName
      maxPublicationPreflightBytes = .ok (canonicalJsonBytes (releaseIndex code p report)) := by
    have hlookup : (releaseListing code p report).lookup catalogPublicationBundleIndexName =
        some (.file (canonicalJsonBytes (releaseIndex code p report))) :=
      lookup_bundleListing hcode hmembers.paths hmembers.digests
        (List.mem_append_right _ (List.mem_append_right _ (List.mem_singleton.mpr rfl)))
    have hsize : decide ((canonicalJsonBytes (releaseIndex code p report)).size < 1 ∨
        maxPublicationPreflightBytes < (canonicalJsonBytes (releaseIndex code p report)).size) = false := by
      have := size_canonicalJsonBytes_pos (releaseIndex code p report)
      have := hlimits.index
      rw [decide_eq_false_iff_not]
      omega
    unfold bundleMemberBytes
    rw [hlookup]
    dsimp only
    rw [raiseIf_false hsize, ok_bind]
    rfl
  have hfixed : ∀ path ∈ fixedBundleMemberPaths, path ∈ (releaseMembers code p report).map Prod.fst := by
    intro path hpath
    rw [hmembers.eq, List.map_append, hmembers.paths]
    exact List.mem_append_left _ hpath
  have hread : readIndex (canonicalJsonBytes (releaseIndex code p report))
      (bundleIndex code report (releaseMembers code p report)) = .ok _ :=
    readIndex_bundleIndex hcode hbounded (hmembers.nodup hcode) hfixed hlimits.total
  have hmembership : checkMembership (releaseListing code p report) _ = .ok () :=
    checkMembership_bundleListing hmembers.eq
  have hcontents : List.mapM (readMember code (releaseListing code p report)) _ = .ok _ :=
    mapM_readMember_bundleListing hcode hmembers.paths hmembers.digests hmembers.eq hbounded
  have hdocuments := readDocuments_sorted hcode hreadable hmembers hperm
  have hsource : (sortedMembers (releaseMembers code p report)).lookup "publication-preflight.json" =
      some (canonicalJsonBytes (.obj report)) := by
    have hmem : ("publication-preflight.json", canonicalJsonBytes (.obj report)) ∈ releaseMembers code p report :=
      List.mem_append_left _ (by simp [fixedMembers])
    exact hmembers.lookup hcode hmem
  have hordered : (pathOrder code (digestOrder code p.manifests)).Perm p.manifests :=
    (List.perm_insertionSort _ _).trans hperm
  have hrelease : checkRelease code (bundleIndex code report (releaseMembers code p report))
      (sortedMembers (releaseMembers code p report))
      ⟨p.bootstrap, p.envelope, pathOrder code (digestOrder code p.manifests)⟩ p.now = .ok () := by
    subst hreport
    exact checkRelease_ok hcode (hverified.perm hordered.symm) hsource _
  have hloaded : loadStrictJsonDocument code (canonicalJsonBytes (releaseIndex code p report))
      "catalog publication bundle index" = .ok (bundleIndex code report (releaseMembers code p report)) := by
    subst hreport
    exact loadStrictJsonDocument_index hcode _ _
  have hcanonical : (canonicalJsonBytes (releaseIndex code p report) !=
      canonicalJsonBytes (.obj (bundleIndex code report (releaseMembers code p report)))) = false :=
    bne_self_eq_false (canonicalJsonBytes (releaseIndex code p report))
  unfold loadCatalogPublicationBundle
  dsimp only
  rw [hindex, ok_bind, hloaded, ok_bind, hread, ok_bind, hmembership, ok_bind, hcontents, ok_bind,
    raiseIf_false hcanonical, ok_bind, hdocuments, ok_bind, hrelease, ok_bind]
  rfl

/-- **A verified release is published**, where its documents are read as they are rendered and its files keep to the
limits: the writer gets to the exchange. -/
theorem publishable_of_verified (hcode : LawfulCode code) (hreadable : Readable code p) (hroot : p.isRoot = false)
    (hreplaceable : prior = .absent ∨ p.force = true ∧
      ∃ index, loadCatalogPublicationBundle code prior p.now = .ok index) (hsome : p.manifests ≠ [])
    (hverified : Verified code p.bootstrap p.envelope p.manifests p.now mirrors seeds catalog)
    (hreport : report = preflightReport code p.bootstrap catalog mirrors seeds)
    (hlimits : WithinLimits code p report) : Publishable code p prior (releaseListing code p report) where
  notRoot := hroot
  replaceable := hreplaceable
  accepted := by
    have hmembers : Members code _ (fixedMembers code p report) _ := members_release (nodup_manifestDigests hverified)
    have hsome' : digestOrder code p.manifests ≠ [] := by
      intro hnil
      have hlength := (List.perm_insertionSort (fun a b => manifestDigest code a ≤ manifestDigest code b)
        p.manifests).length_eq
      rw [show p.manifests.insertionSort _ = [] from hnil] at hlength
      exact hsome (List.eq_nil_of_length_eq_zero hlength.symm)
    have hequal : (releaseIndex code p report).pyEq (releaseIndex code p report) = true := by
      subst hreport
      exact Json.pyEq_refl _ (plain_bundleIndex _ _ _ _ _) (distinctKeys_bundleIndex _ _ _ _ _)
    exact ⟨_, _, _, prepareBundle_eq hcode hverified hreport, stageMembers_eq hcode hmembers.paths hsome'
      hmembers.digests, load_releaseListing hcode hreadable hverified hreport hlimits, hequal⟩

end Accepted

/-! ### A release whose publication is not atomic -/

theorem size_canonicalJsonBytes_le (j : Json) : (canonicalJsonBytes j).size ≤ 4 * j.weight + 1 := by
  show (j.dumps ++ "\n").utf8ByteSize ≤ _
  rw [String.utf8ByteSize_append]
  exact Nat.add_le_add_right (Json.utf8ByteSize_dumps_le j) _

theorem manifestBytes_eq (m : ModelManifestV1) : manifestBytes m = canonicalJsonBytes m.toDict := rfl

/-- The files of an index take as much text as they are many and large. -/
theorem weight_files (members : List (String × Raw)) :
    Json.weight (.arr ((sortedMembers members).map (memberJson code))) =
      (members.map fun member => (memberJson code member).weight + 1).sum + 2 := by
  have hperm := (perm_sortedMembers members).map fun member => (memberJson code member).weight + 1
  rw [Json.weight, Json.weightItems_eq, List.map_map]
  exact congrArg (· + 2) hperm.sum_eq

def sampleManifest : ModelManifestV1 where
  schemaVersion := 1
  name := "tiny"
  aliases := ["mini"]
  source := ⟨"org/tiny", String.ofList (List.replicate 40 'a')⟩
  model := ⟨"LlamaForCausalLM", 2, 128, "mit", false⟩
  runtime := ⟨"drift", "2.3.0", "3.0.0", 1, "hidden-states-v1", "auto", "float16", "none", "none"⟩
  artifacts := [⟨"config", "config.json", someDigest '3', 3⟩, ⟨"weight", "model.safetensors", someDigest '1', 10⟩,
    ⟨"tokenizer", "tokenizer.json", someDigest '2', 5⟩]

/-- A bootstrap with a mirror. -/
def bootstrapDocument (mirror : String) : Json :=
  .obj [("catalog_mirrors", .arr [.str mirror]),
    ("initial_peers", .arr [.str "/dns4/seed.example/tcp/31337/p2p/QmSeed"]), ("schema_version", .int 1)]

def readBootstrapDocument (text : String) : Except String String :=
  match Json.loads text with
  | some (.obj [(_, .arr [.str mirror]), _, _]) => .ok mirror
  | _ => .error "Catalog bootstrap is not valid"

/-- A catalog with one model, and bootstraps that differ in their mirror. -/
def sampleCode : ReleaseCode String Unit where
  bootstrapFromJson := readBootstrapDocument
  bootstrapToDict := bootstrapDocument
  trustRootCatalogId _ := "community"
  catalogMirrors mirror := [mirror]
  initialPeers _ := ["/dns4/seed.example/tcp/31337/p2p/QmSeed"]
  envelopeFromJson _ := .ok ()
  envelopeToDict _ := .obj [("signatures", .arr []), ("signed", .obj [])]
  verifyEnvelope _ _ _ := .ok ⟨"community", 1, "sha256:" ++ someDigest '0', [⟨"sha256:" ++ someDigest '0', 10⟩],
    [⟨"base", 1, 1, 1⟩]⟩
  manifestLibrary := asciiLibrary
  loads s := (Json.loads s).filter Json.distinctKeys
  sha256Hex _ := someDigest '0'
  hostname _ := some "mirror.example"

def samplePublication (mirror : String) : Publication String Unit where
  bootstrap := mirror
  envelope := ()
  manifests := [sampleManifest]
  now := 0
  force := true
  isRoot := false

def sampleReport : List (String × Json) :=
  [("bootstrap_digest", .str ("sha256:" ++ someDigest '0')), ("catalog_digest", .str ("sha256:" ++ someDigest '0')),
    ("catalog_id", .str "community"), ("catalog_mirror_count", .int 1),
    ("catalog_sequence", .int 1), ("complete_release_qualification", .bool false),
    ("distinct_seed_address_count", .int 1), ("distinct_seed_host_count", .int 1),
    ("distinct_seed_identity_count", .int 1), ("model_count", .int 1), ("not_covered", .arr (notCovered.map .str)),
    ("result", .str "passed"), ("rung_count", .int 1), ("schema_version", .int 1),
    ("scope", .str "catalog-publication-transport-preflight")]

theorem lawful_sampleCode : LawfulCode sampleCode where
  loads_dumps j hplain hdistinct := by
    show (Json.loads (j.dumps ++ "\n")).filter Json.distinctKeys = _
    rw [Json.loads_dumps hplain "\n" rfl, Option.filter_some, Json.distinctKeys_sortKeys j hdistinct]
    rfl
  sha256Hex_digest _ := by
    show isDigest (someDigest '0') = true
    decide
  verifyEnvelope_ok _ _ _ _ h := by
    obtain rfl := Except.ok.inj h
    exact ⟨rfl, le_rfl, by decide⟩

theorem valid_sampleManifest : sampleManifest.Valid asciiLibrary := by
  have hread : ModelManifestV1.fromDict asciiLibrary sampleManifest.toDict = .ok sampleManifest := by
    with_unfolding_all rfl
  exact (ModelManifestV1.fromDict_iff.mp hread).2

theorem normal_sampleManifest : sampleManifest.normal = sampleManifest := by
  with_unfolding_all rfl

theorem verify_sample (mirror : String) : verifyCatalogPublicationBundle sampleCode mirror () [sampleManifest] 0 =
    .ok sampleReport := by
  with_unfolding_all rfl

theorem bootstrapFromJson_sampleCode : sampleCode.bootstrapFromJson = readBootstrapDocument := rfl

theorem bootstrapToDict_sampleCode : sampleCode.bootstrapToDict = bootstrapDocument := rfl

theorem bootstrap_samplePublication (mirror : String) : (samplePublication mirror).bootstrap = mirror := rfl

theorem readable_sample (mirror : String) : Readable sampleCode (samplePublication mirror) where
  bootstrap := by
    have hplain : (bootstrapDocument mirror).Plain := by
      simp [bootstrapDocument, Json.Plain, Json.PlainFields, Json.PlainItems]
    have hsorted : (bootstrapDocument mirror).sortKeys = bootstrapDocument mirror := by
      refine Json.sortKeys_obj_eq_self (rfl : _ = ["catalog_mirrors", "initial_peers", "schema_version"]) (by decide) ?_
      intro f hf
      simp only [List.mem_cons, List.not_mem_nil, or_false] at hf
      rcases hf with rfl | rfl | rfl <;> rfl
    rw [bootstrapFromJson_sampleCode, bootstrapToDict_sampleCode, bootstrap_samplePublication]
    unfold readBootstrapDocument
    rw [Json.loads_dumps hplain "\n" rfl, hsorted]
    rfl
  envelope := rfl
  manifests := by
    intro m hm
    obtain rfl := List.mem_singleton.mp hm
    exact ⟨valid_sampleManifest, normal_sampleManifest⟩

theorem weight_sampleManifest : sampleManifest.toDict.weight ≤ 8000 := by
  with_unfolding_all decide

theorem weight_sampleReport : (Json.obj sampleReport).weight ≤ 8000 := by
  with_unfolding_all decide

theorem length_manifestPath_sample : (manifestPath sampleCode sampleManifest).length = 79 := by
  decide

theorem weight_memberJson_sample (member : String × Raw) :
    (memberJson sampleCode member).weight = 6 * member.1.length + member.2.size + 530 := by
  have hdigest : (sha256DigestBytes sampleCode member.2).length = 71 := by
    show ("sha256:" ++ someDigest '0').length = 71
    decide
  have hpath : "path".length = 4 := rfl
  have hsha256 : "sha256".length = 6 := rfl
  have hsize : "size".length = 4 := rfl
  unfold memberJson
  simp only [Json.weight, Json.weightFields, hdigest, hpath, hsha256, hsize, Int.natAbs_natCast]
  omega

theorem weight_files_sample (a b c d : String) (x y z w : Raw) :
    Json.weight (.arr ((sortedMembers [(a, x), (b, y), (c, z), (d, w)]).map (memberJson sampleCode))) =
      6 * (a.length + b.length + c.length + d.length) + (x.size + y.size + z.size + w.size) + 2126 := by
  rw [weight_files]
  simp only [weight_memberJson_sample, List.map_cons, List.map_nil, List.sum_cons, List.sum_nil]
  omega

/-- The mirrors of two bootstraps. -/
def formerMirror : String := "https://mirror.example/former.json"

def currentMirror : String := "https://mirror.example/current.json"

theorem weight_sampleEnvelope : (sampleCode.envelopeToDict ()).weight ≤ 2000 := by
  with_unfolding_all decide

theorem releaseMembers_sample (mirror : String) : releaseMembers sampleCode (samplePublication mirror) sampleReport =
    [("catalog-bootstrap.json", canonicalJsonBytes (bootstrapDocument mirror)),
      ("catalog.signed.json", canonicalJsonBytes (sampleCode.envelopeToDict ())),
      ("publication-preflight.json", canonicalJsonBytes (.obj sampleReport)),
      (manifestPath sampleCode sampleManifest, manifestBytes sampleManifest)] := rfl

/-- The index without its files. -/
theorem weight_emptyIndex : (Json.obj (bundleIndex sampleCode sampleReport [])).weight ≤ 8000 := by
  with_unfolding_all decide

theorem weight_releaseIndex_sample (mirror : String) :
    (releaseIndex sampleCode (samplePublication mirror) sampleReport).weight + 2 =
      (Json.obj (bundleIndex sampleCode sampleReport [])).weight +
        Json.weight (.arr ((sortedMembers (releaseMembers sampleCode (samplePublication mirror)
          sampleReport)).map (memberJson sampleCode))) := by
  have hnone : Json.weight (.arr ((List.insertionSort (fun a b : String × Raw => a.1 ≤ b.1) []).map
      (memberJson sampleCode))) = 2 := rfl
  unfold releaseIndex bundleIndex sortedMembers
  simp only [Json.weight_obj, Json.weightFields, hnone]
  omega

theorem sum_sizes_sample (a b c d : String) (x y z w : Raw) :
    ([(a, x), (b, y), (c, z), (d, w)].map fun member => member.2.size).sum = x.size + y.size + z.size + w.size := by
  simp only [List.map_cons, List.map_nil, List.sum_cons, List.sum_nil]
  omega

theorem withinLimits_iff : WithinLimits code p report ↔
    (∀ member ∈ releaseMembers code p report, member.2.size ≤ maxCatalogPublicationBundleMemberBytes) ∧
      (canonicalJsonBytes (releaseIndex code p report)).size ≤ maxPublicationPreflightBytes ∧
      (canonicalJsonBytes (releaseIndex code p report)).size +
        ((releaseMembers code p report).map fun member => member.2.size).sum ≤
          maxCatalogPublicationBundleTotalBytes :=
  ⟨fun h => ⟨h.member, h.index, h.total⟩, fun h => ⟨h.1, h.2.1, h.2.2⟩⟩

theorem withinLimits_sample {mirror : String} (hmirror : (bootstrapDocument mirror).weight ≤ 2000) :
    WithinLimits sampleCode (samplePublication mirror) sampleReport := by
  have hbootstrap := size_canonicalJsonBytes_le (bootstrapDocument mirror)
  have henvelope := size_canonicalJsonBytes_le (sampleCode.envelopeToDict ())
  have henvelope' := weight_sampleEnvelope
  have hreport := size_canonicalJsonBytes_le (.obj sampleReport)
  have hreport' := weight_sampleReport
  have hmanifest := size_canonicalJsonBytes_le sampleManifest.toDict
  have hmanifest' := weight_sampleManifest
  have hpath := length_manifestPath_sample
  have hindex := size_canonicalJsonBytes_le (releaseIndex sampleCode (samplePublication mirror) sampleReport)
  have hrest := weight_emptyIndex
  have hweight := weight_releaseIndex_sample mirror
  have hmembers := releaseMembers_sample mirror
  have hfixed : ∀ path ∈ fixedBundleMemberPaths, path.length ≤ 100 := by decide
  have hlimits : maxCatalogPublicationBundleMemberBytes = 16777216 ∧ maxPublicationPreflightBytes = 1048576 ∧
    maxCatalogPublicationBundleTotalBytes = 67108864 := ⟨rfl, rfl, rfl⟩
  have h₁ := hfixed "catalog-bootstrap.json" (by decide)
  have h₂ := hfixed "catalog.signed.json" (by decide)
  have h₃ := hfixed "publication-preflight.json" (by decide)
  rw [← manifestBytes_eq] at hmanifest
  rw [hmembers] at hweight
  refine withinLimits_iff.mpr ?_
  rw [hmembers]
  -- the texts stay closed: only their sizes count
  generalize releaseIndex sampleCode (samplePublication mirror) sampleReport = releaseIndex at *
  generalize Json.obj (bundleIndex sampleCode sampleReport []) = emptyIndex at *
  generalize canonicalJsonBytes (bootstrapDocument mirror) = bootstrapBytes at *
  generalize canonicalJsonBytes (sampleCode.envelopeToDict ()) = envelopeBytes at *
  generalize canonicalJsonBytes (.obj sampleReport) = reportBytes at *
  generalize manifestBytes sampleManifest = bytes at *
  generalize manifestPath sampleCode sampleManifest = path at *
  rw [weight_files_sample] at hweight
  refine ⟨?_, ?_, ?_⟩
  · intro member hmember
    simp only [List.mem_cons, List.not_mem_nil, or_false] at hmember
    rcases hmember with rfl | rfl | rfl | rfl <;> dsimp only <;> omega
  · omega
  · rw [sum_sizes_sample]
    omega

/-- The directory of a sample release. -/
def sampleListing (mirror : String) : Listing := releaseListing sampleCode (samplePublication mirror) sampleReport

theorem load_sampleListing {mirror : String} (hmirror : (bootstrapDocument mirror).weight ≤ 2000) :
    ∃ index, loadCatalogPublicationBundle sampleCode (.directory (sampleListing mirror)) 0 = .ok index := by
  obtain ⟨mirrors, seeds, catalog, hverified, hreport⟩ := verify_iff.mp (verify_sample mirror)
  exact ⟨_, load_releaseListing (p := samplePublication mirror) lawful_sampleCode (readable_sample mirror) hverified
    hreport (withinLimits_sample hmirror)⟩

theorem sampleListing_not_same {mirror mirror' : String} (hne : mirror ≠ mirror') :
    ¬(Place.directory (sampleListing mirror)).Same (.directory (sampleListing mirror')) := by
  intro hsame
  have hperm : (sampleListing mirror).Perm (sampleListing mirror') := hsame
  have hdigests : ([sampleManifest].map (manifestDigest sampleCode)).Nodup := List.nodup_singleton _
  have hnodup : ((sampleListing mirror).map Prod.fst).Nodup := by
    have hmembers : Members sampleCode _ (fixedMembers sampleCode (samplePublication mirror) sampleReport) _ :=
      members_release hdigests
    exact nodup_bundleListing lawful_sampleCode hmembers.paths hmembers.digests
  have hlookup : ∀ m : String, (sampleListing m).lookup "catalog-bootstrap.json" =
      some (.file (canonicalJsonBytes (bootstrapDocument m))) := by
    intro m
    have hmembers : Members sampleCode _ (fixedMembers sampleCode (samplePublication m) sampleReport) _ :=
      members_release hdigests
    have hmem : ("catalog-bootstrap.json", canonicalJsonBytes (bootstrapDocument m)) ∈
        fixedMembers sampleCode (samplePublication m) sampleReport := List.mem_cons_self
    exact lookup_bundleListing lawful_sampleCode hmembers.paths hmembers.digests (List.mem_append_left _ hmem)
  have hbytes := Json.lookup_perm hperm hnodup "catalog-bootstrap.json"
  rw [hlookup, hlookup, Option.some.injEq, Entry.file.injEq] at hbytes
  have htext : (bootstrapDocument mirror).dumps ++ "\n" = (bootstrapDocument mirror').dumps ++ "\n" := by
    unfold canonicalJsonBytes at hbytes
    exact Raw.text.inj hbytes
  have hread := (readable_sample mirror).bootstrap
  have hread' := (readable_sample mirror').bootstrap
  rw [bootstrapFromJson_sampleCode, bootstrapToDict_sampleCode, bootstrap_samplePublication] at hread hread'
  rw [htext, hread'] at hread
  exact hne (Except.ok.inj hread).symm

/-- **A late fault** leaves the new bundle: the bundle of a former release is replaced, and is not removed. -/
theorem late_fault_leaves_bundle : ¬PublicationAtomic sampleCode (samplePublication currentMirror)
    (some ⟨.removeBackup, .text "", .directory (sampleListing formerMirror)⟩)
    (.directory (sampleListing formerMirror)) := by
  have hformer : (bootstrapDocument formerMirror).weight ≤ 2000 := by with_unfolding_all decide
  have hcurrent : (bootstrapDocument currentMirror).weight ≤ 2000 := by with_unfolding_all decide
  obtain ⟨mirrors, seeds, catalog, hverified, hreport⟩ := verify_iff.mp (verify_sample currentMirror)
  have hpublishable : Publishable sampleCode (samplePublication currentMirror)
      (.directory (sampleListing formerMirror)) (sampleListing currentMirror) :=
    publishable_of_verified (p := samplePublication currentMirror) lawful_sampleCode (readable_sample currentMirror) rfl
      (Or.inr ⟨rfl, load_sampleListing hformer⟩) (List.cons_ne_nil _ _) hverified hreport (withinLimits_sample hcurrent)
  rw [publication_atomic_iff, not_not]
  refine ⟨sampleListing currentMirror, hpublishable, sampleListing_not_same (by decide), _, rfl, ?_⟩
  exact Or.inr (Or.inr ⟨rfl, fun h => nomatch h⟩)

end Drift.Release
