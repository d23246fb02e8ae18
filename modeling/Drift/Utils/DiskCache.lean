import Mathlib.Algebra.BigOperators.Group.Finset.Basic
import Mathlib.Algebra.Order.BigOperators.Group.Finset
import Mathlib.Data.List.Sort
import Mathlib.Data.Rat.Defs
import Mathlib.Algebra.Order.Ring.Rat
import Mathlib.Algebra.Ring.Nat

/-!
# The disk cache

Before a block is downloaded the server makes room for it in the Hub's cache. A file of the cache is a
link in the snapshot of a revision, and a blob that holds its bytes; revisions of a repository, and files
of one revision, may link to the same blob. `free_disk_space_for` goes through the files from the least
recently used one and removes the link and the blob of each, until what it has removed is enough.

* `freeDiskSpaceFor` — the call, over the paths of the volume;
* `Matches` — what has been removed so far is a list of files without a shared blob;
* `evicts_honestly_iff` — when the call frees what it counts.

It stops at a blob that it has removed before. This is an error of its own, whatever could still be
freed.
-/

namespace Drift.Utils

/-- `CachedFileInfo`, of a scan of the cache. -/
structure CachedFileInfo where
  filePath : String
  blobPath : String
  sizeOnDisk : Nat
  blobLastAccessed : Rat
  deriving DecidableEq

/-- The blobs of files, each once, with their sizes. -/
def distinctBlobs (files : List CachedFileInfo) : Finset (String × Nat) :=
  (files.map fun file => (file.blobPath, file.sizeOnDisk)).toFinset

/-- The bytes of these blobs. -/
def blobBytes (files : List CachedFileInfo) : Nat := ∑ blob ∈ distinctBlobs files, blob.2

/-- `[file for repo in repos for revision in repo.revisions for file in revision.files]`. -/
def cachedFiles (repos : List (List (List CachedFileInfo))) : List CachedFileInfo :=
  repos.flatMap List.flatten

/-- A cache directory: its repositories, their revisions and files, and the paths that are there. The size
and the access time of a file are those of its blob. Where the volume has no links, a file is its own
blob. -/
structure HubCache where
  repos : List (List (List CachedFileInfo))
  volume : List String
  present : ∀ file ∈ cachedFiles repos, file.filePath ∈ volume ∧ file.blobPath ∈ volume
  paths_nodup : ((cachedFiles repos).map CachedFileInfo.filePath).Nodup
  links : ∀ file ∈ cachedFiles repos, ∀ other ∈ cachedFiles repos, file.filePath = other.blobPath →
    file = other
  stats : ∀ file ∈ cachedFiles repos, ∀ other ∈ cachedFiles repos, file.blobPath = other.blobPath →
    file.sizeOnDisk = other.sizeOnDisk ∧ file.blobLastAccessed = other.blobLastAccessed

/-- What the call raises. The text of the `RuntimeError` names the bytes that are missing. -/
inductive EvictionError
  | fileNotFoundError (path : String)
  | runtimeError (missing : Int)
  deriving DecidableEq

/-- What has been removed. -/
structure Eviction where
  volume : List String
  removedFiles : List CachedFileInfo
  freedSpace : Nat

/-- `os.remove`. -/
def remove (volume : List String) (path : String) : Except EvictionError (List String) :=
  if path ∈ volume then .ok (volume.filter (· ≠ path)) else .error (.fileNotFoundError path)

/-- The loop over the files. -/
def removeFiles (extraSpaceNeeded : Int) : List CachedFileInfo → Eviction →
    Except EvictionError Unit × Eviction
  | [], s => (.ok (), s)
  | file :: files, s =>
    match remove s.volume file.filePath with
    | .error e => (.error e, s)
    | .ok volume =>
      match remove volume file.blobPath with
      | .error e => (.error e, { s with volume := volume })
      | .ok volume =>
        let s := ⟨volume, s.removedFiles ++ [file], s.freedSpace + file.sizeOnDisk⟩
        if extraSpaceNeeded ≤ s.freedSpace then (.ok (), s) else removeFiles extraSpaceNeeded files s

/-- The least recently used files first. -/
def evictionOrder (files : List CachedFileInfo) : List CachedFileInfo :=
  files.insertionSort fun a b => a.blobLastAccessed ≤ b.blobLastAccessed

namespace HubCache

variable (c : HubCache)

/-- The files, per revision. -/
abbrev files : List CachedFileInfo := cachedFiles c.repos

/-- The space that may be used without an eviction. `size_on_disk` counts a blob once. -/
def availableSpace (maxDiskSpace : Option Int) (free osQuota : Int) : Int :=
  match maxDiskSpace with
  | none => free - osQuota
  | some maxDiskSpace => min (free - osQuota) (maxDiskSpace - blobBytes c.files)

/-- `free_disk_space_for`. -/
def freeDiskSpaceFor (size : Nat) (maxDiskSpace : Option Int) (free osQuota : Int) :
    Except EvictionError Unit × Eviction :=
  let start : Eviction := ⟨c.volume, [], 0⟩
  let availableSpace := c.availableSpace maxDiskSpace free osQuota
  if (size : Int) ≤ availableSpace then (.ok (), start)
  else
    let extraSpaceNeeded := size - availableSpace
    match removeFiles extraSpaceNeeded (evictionOrder c.files) start with
    | (.error e, s) => (.error e, s)
    | (.ok (), s) =>
      if (s.freedSpace : Int) < extraSpaceNeeded then
        (.error (.runtimeError (extraSpaceNeeded - s.freedSpace)), s)
      else (.ok (), s)

end HubCache

/-! ### The loop -/

/-- The bytes that a list of files counts. -/
def counted (files : List CachedFileInfo) : Nat := (files.map CachedFileInfo.sizeOnDisk).sum

/-- The blob of a file can be removed after others: it is not the file itself, and not one of theirs. -/
def Removable (done : List CachedFileInfo) (file : CachedFileInfo) : Prop :=
  file.filePath ≠ file.blobPath ∧ file.blobPath ∉ done.map CachedFileInfo.blobPath

/-- What the loop has removed: these files, and of the volume their links and blobs. -/
structure Matches (c : HubCache) (done : List CachedFileInfo) (s : Eviction) : Prop where
  removedFiles : s.removedFiles = done
  freedSpace : s.freedSpace = counted done
  volume : ∀ path, path ∈ s.volume ↔ path ∈ c.volume ∧ path ∉ done.map CachedFileInfo.filePath ∧
    path ∉ done.map CachedFileInfo.blobPath
  blobs_nodup : (done.map CachedFileInfo.blobPath).Nodup

theorem mem_evictionOrder {files : List CachedFileInfo} {file : CachedFileInfo} :
    file ∈ evictionOrder files ↔ file ∈ files :=
  List.mem_insertionSort _

theorem remove_ok {volume : List String} {path : String} (h : path ∈ volume) :
    remove volume path = .ok (volume.filter (· ≠ path)) := if_pos h

theorem remove_missing {volume : List String} {path : String} (h : path ∉ volume) :
    remove volume path = .error (.fileNotFoundError path) := if_neg h

section Loop

variable {c : HubCache} {needed : Int} {done rest : List CachedFileInfo} {file : CachedFileInfo}
  {s : Eviction}

/-- The link of the next file is still there. -/
theorem Matches.filePath_mem (h : Matches c done s) (horder : evictionOrder c.files = done ++ file :: rest) :
    file.filePath ∈ s.volume := by
  have hfiles : ∀ other ∈ done ++ file :: rest, other ∈ c.files := fun other hother =>
    mem_evictionOrder.mp (horder ▸ hother)
  have hfile := hfiles file (List.mem_append_right _ List.mem_cons_self)
  have hnodup : ((done ++ file :: rest).map CachedFileInfo.filePath).Nodup := by
    rw [← horder]
    exact ((List.perm_insertionSort _ c.files).map _).nodup_iff.mpr c.paths_nodup
  have hfresh : file.filePath ∉ done.map CachedFileInfo.filePath := by
    rw [List.map_append, List.map_cons] at hnodup
    exact fun hmem => (List.nodup_append.mp hnodup).2.2 _ hmem _ List.mem_cons_self rfl
  refine (h.volume _).mpr ⟨(c.present file hfile).1, hfresh, ?_⟩
  -- a file that is the blob of one that has been removed is that one
  intro hmem
  obtain ⟨other, hother, heq⟩ := List.mem_map.mp hmem
  obtain rfl := c.links file hfile other (hfiles other (List.mem_append_left _ hother)) heq.symm
  exact hfresh (List.mem_map_of_mem hother)

/-- The next file comes once. -/
theorem file_notMem (horder : evictionOrder c.files = done ++ file :: rest) : file ∉ done := by
  have hnodup : ((done ++ file :: rest).map CachedFileInfo.filePath).Nodup := by
    rw [← horder]
    exact ((List.perm_insertionSort _ c.files).map _).nodup_iff.mpr c.paths_nodup
  intro hmem
  exact (List.nodup_append.mp (List.Nodup.of_map _ hnodup)).2.2 _ hmem _ List.mem_cons_self rfl

/-- **A file that can be removed** is removed, with its blob. -/
theorem Matches.remove (h : Matches c done s) (horder : evictionOrder c.files = done ++ file :: rest)
    (hremovable : Removable done file) :
    ∃ links blobs, Utils.remove s.volume file.filePath = .ok links ∧
      Utils.remove links file.blobPath = .ok blobs ∧
      Matches c (done ++ [file]) ⟨blobs, s.removedFiles ++ [file], s.freedSpace + file.sizeOnDisk⟩ := by
  have hfiles : ∀ other ∈ done ++ file :: rest, other ∈ c.files := fun other hother =>
    mem_evictionOrder.mp (horder ▸ hother)
  have hfile := hfiles file (List.mem_append_right _ List.mem_cons_self)
  have hblob : file.blobPath ∈ s.volume.filter (· ≠ file.filePath) := by
    refine List.mem_filter.mpr ⟨(h.volume _).mpr ⟨(c.present file hfile).2, ?_, hremovable.2⟩,
      decide_eq_true hremovable.1.symm⟩
    intro hmem
    obtain ⟨other, hother, heq⟩ := List.mem_map.mp hmem
    obtain rfl := c.links other (hfiles other (List.mem_append_left _ hother)) file hfile heq
    exact file_notMem horder hother
  refine ⟨_, _, remove_ok (h.filePath_mem horder), remove_ok hblob, ?_, ?_, ?_, ?_⟩
  · rw [h.removedFiles]
  · rw [h.freedSpace, counted, counted, List.map_append, List.sum_append]
    rfl
  · intro path
    simp only [List.mem_filter, decide_eq_true_eq, h.volume, List.map_append, List.mem_append, not_or,
      List.map_cons, List.map_nil, List.mem_singleton]
    tauto
  · rw [List.map_append, List.map_cons, List.map_nil]
    exact List.nodup_append.mpr ⟨h.blobs_nodup, List.nodup_singleton _, fun a ha b hb heq =>
      hremovable.2 (List.mem_singleton.mp hb ▸ heq ▸ ha)⟩

/-- **At another file** the loop raises. -/
theorem Matches.remove_fails (h : Matches c done s) (horder : evictionOrder c.files = done ++ file :: rest)
    (hremovable : ¬ Removable done file) :
    ∃ links, Utils.remove s.volume file.filePath = .ok links ∧
      Utils.remove links file.blobPath = .error (.fileNotFoundError file.blobPath) := by
  refine ⟨_, remove_ok (h.filePath_mem horder), remove_missing fun hmem => hremovable ?_⟩
  obtain ⟨hvolume, hne⟩ := List.mem_filter.mp hmem
  exact ⟨(of_decide_eq_true hne).symm, ((h.volume _).mp hvolume).2.2⟩

/-- What precedes a longer prefix is part of it. -/
theorem counted_le_of_prefix {before after : List CachedFileInfo} (h : before <+: after) :
    counted before ≤ counted after := by
  obtain ⟨rest, rfl⟩ := h
  rw [counted, counted, List.map_append, List.sum_append]
  exact Nat.le_add_right _ _

/-- Until enough has been freed, no file has the blob of an earlier one. -/
def FreesBeforeRepeat (files : List CachedFileInfo) (needed : Int) : Prop :=
  ∀ before file after, evictionOrder files = before ++ file :: after → (counted before : Int) < needed →
    Removable before file

/-- **The loop**: it has removed a prefix of the order that is enough, or everything, and met no repeated
blob; or it has raised at one. -/
theorem removeFiles_cases (hmatches : Matches c done s) (horder : evictionOrder c.files = done ++ rest)
    (hneeded : (counted done : Int) < needed) :
    ((removeFiles needed rest s).1 = .ok () ∧
        (∃ removed, removed <+: evictionOrder c.files ∧ Matches c removed (removeFiles needed rest s).2 ∧
          (needed ≤ counted removed ∨ removed = evictionOrder c.files)) ∧
        ∀ before file after, evictionOrder c.files = before ++ file :: after →
          done.length ≤ before.length → (counted before : Int) < needed → Removable before file) ∨
      ((∃ path, (removeFiles needed rest s).1 = .error (.fileNotFoundError path)) ∧
        ¬ FreesBeforeRepeat c.files needed) := by
  induction rest generalizing done s with
  | nil =>
    left
    refine ⟨rfl, ⟨done, ⟨[], horder.symm⟩, hmatches, Or.inr ?_⟩, ?_⟩
    · rw [horder, List.append_nil]
    · intro before file after hsplit hlength _
      have hlengths := congrArg List.length (horder.symm.trans hsplit)
      simp only [List.length_append, List.length_nil, List.length_cons] at hlengths
      omega
  | cons file rest ih =>
    by_cases hremovable : Removable done file
    · obtain ⟨links, blobs, hlink, hblob, hnext⟩ := hmatches.remove horder hremovable
      have horder' : evictionOrder c.files = done ++ [file] ++ rest := by
        rw [horder, List.append_assoc, List.singleton_append]
      -- a file after this one in the order comes behind all that has been removed with it
      have hlater : ∀ before other after, evictionOrder c.files = before ++ other :: after →
          done.length ≤ before.length → before = done ∧ other = file ∨
            (done ++ [file]).length ≤ before.length := by
        intro before other after hsplit hlength
        rcases hlength.eq_or_lt with heq | hlt
        · left
          obtain ⟨hdone, hrest⟩ := List.append_inj (horder.symm.trans hsplit) heq
          exact ⟨hdone.symm, (List.cons.inj hrest).1.symm⟩
        · right
          rw [List.length_append, List.length_singleton]
          exact hlt
      unfold removeFiles
      rw [hlink]
      dsimp only
      rw [hblob]
      dsimp only
      have hfreed := hnext.freedSpace
      dsimp only at hfreed
      split
      · rename_i henough
        rw [hfreed] at henough
        left
        refine ⟨rfl, ⟨done ++ [file], ⟨rest, horder'.symm⟩, hnext, Or.inl henough⟩, ?_⟩
        intro before other after hsplit hlength hbefore
        rcases hlater before other after hsplit hlength with ⟨rfl, rfl⟩ | hlonger
        · exact hremovable
        · have hleading : done ++ [file] <+: before :=
            List.prefix_of_prefix_length_le ⟨rest, horder'.symm⟩ ⟨other :: after, hsplit.symm⟩ hlonger
          have := counted_le_of_prefix hleading
          omega
      · rename_i hmore
        rw [hfreed, not_le] at hmore
        rcases ih hnext horder' hmore with ⟨hok, hremoved, hall⟩ | hfails
        · left
          refine ⟨hok, hremoved, ?_⟩
          intro before other after hsplit hlength hbefore
          rcases hlater before other after hsplit hlength with ⟨rfl, rfl⟩ | hlonger
          · exact hremovable
          · exact hall before other after hsplit hlonger hbefore
        · exact Or.inr hfails
    · right
      obtain ⟨links, hlink, hblob⟩ := hmatches.remove_fails horder hremovable
      unfold removeFiles
      rw [hlink]
      dsimp only
      rw [hblob]
      exact ⟨⟨_, rfl⟩, fun h => hremovable (h done file rest horder hneeded)⟩

end Loop

/-! ### The bytes -/

/-- Files without a shared blob count the bytes of their blobs. -/
theorem blobBytes_of_nodup {files : List CachedFileInfo}
    (h : (files.map CachedFileInfo.blobPath).Nodup) : blobBytes files = counted files := by
  have hpairs : (files.map fun file => (file.blobPath, file.sizeOnDisk)).Nodup := by
    refine List.Nodup.of_map Prod.fst ?_
    rw [List.map_map]
    exact h
  unfold blobBytes distinctBlobs counted
  rw [List.sum_toFinset _ hpairs, List.map_map]
  rfl

/-- A part of the files has a part of the blobs. -/
theorem blobBytes_mono {files others : List CachedFileInfo} (h : files ⊆ others) :
    blobBytes files ≤ blobBytes others := by
  refine Finset.sum_le_sum_of_subset fun blob hblob => ?_
  unfold distinctBlobs at hblob ⊢
  rw [List.mem_toFinset] at hblob ⊢
  exact List.map_subset _ h hblob

theorem blobBytes_evictionOrder (files : List CachedFileInfo) :
    blobBytes (evictionOrder files) = blobBytes files :=
  le_antisymm (blobBytes_mono fun _ h => mem_evictionOrder.mp h)
    (blobBytes_mono fun _ h => mem_evictionOrder.mpr h)

/-! ### Main result -/

/-- What a call is good for. Where the distinct blobs and the available space suffice, it returns, and has
removed a prefix of the least recently used files, no blob twice, whose blobs have the missing bytes;
otherwise it raises the `RuntimeError`. -/
structure HubCache.EvictsHonestly (c : HubCache) (size : Nat) (maxDiskSpace : Option Int)
    (free osQuota : Int) : Prop where
  enough : (size : Int) ≤ c.availableSpace maxDiskSpace free osQuota + blobBytes c.files →
    (c.freeDiskSpaceFor size maxDiskSpace free osQuota).1 = .ok () ∧
      ∃ removed, removed <+: evictionOrder c.files ∧
        Matches c removed (c.freeDiskSpaceFor size maxDiskSpace free osQuota).2 ∧
        size - c.availableSpace maxDiskSpace free osQuota ≤ blobBytes removed
  lacking : c.availableSpace maxDiskSpace free osQuota + blobBytes c.files < size →
    ∃ missing, (c.freeDiskSpaceFor size maxDiskSpace free osQuota).1 = .error (.runtimeError missing)

/-- Nothing has been removed. -/
theorem matches_nil (c : HubCache) : Matches c [] ⟨c.volume, [], 0⟩ :=
  ⟨rfl, rfl, fun path => by simp, List.nodup_nil⟩

section Call

variable {c : HubCache} {size : Nat} {maxDiskSpace : Option Int} {free osQuota : Int} {s : Eviction}

/-- The call where the loop raises. -/
theorem freeDiskSpaceFor_error {e : EvictionError}
    (hfits : ¬ (size : Int) ≤ c.availableSpace maxDiskSpace free osQuota)
    (h : removeFiles (size - c.availableSpace maxDiskSpace free osQuota) (evictionOrder c.files)
      ⟨c.volume, [], 0⟩ = (.error e, s)) :
    c.freeDiskSpaceFor size maxDiskSpace free osQuota = (.error e, s) := by
  unfold HubCache.freeDiskSpaceFor
  dsimp only
  rw [if_neg hfits, h]

/-- The call where the loop comes to its end. -/
theorem freeDiskSpaceFor_ok (hfits : ¬ (size : Int) ≤ c.availableSpace maxDiskSpace free osQuota)
    (h : removeFiles (size - c.availableSpace maxDiskSpace free osQuota) (evictionOrder c.files)
      ⟨c.volume, [], 0⟩ = (.ok (), s)) :
    c.freeDiskSpaceFor size maxDiskSpace free osQuota =
      if (s.freedSpace : Int) < size - c.availableSpace maxDiskSpace free osQuota then
        (.error (.runtimeError (size - c.availableSpace maxDiskSpace free osQuota - s.freedSpace)), s)
      else (.ok (), s) := by
  unfold HubCache.freeDiskSpaceFor
  dsimp only
  rw [if_neg hfits, h]

end Call

/-- **Eviction frees what it counts** where enough has been freed before a blob comes a second time; and
only there. -/
theorem evicts_honestly_iff (c : HubCache) (size : Nat) (maxDiskSpace : Option Int)
    (free osQuota : Int) :
    c.EvictsHonestly size maxDiskSpace free osQuota ↔
      FreesBeforeRepeat c.files (size - c.availableSpace maxDiskSpace free osQuota) := by
  by_cases hfits : (size : Int) ≤ c.availableSpace maxDiskSpace free osQuota
  · -- there is nothing to remove
    have hresult : c.freeDiskSpaceFor size maxDiskSpace free osQuota = (.ok (), ⟨c.volume, [], 0⟩) :=
      if_pos hfits
    constructor
    · intro _ before file after _ hbefore
      omega
    · intro _
      refine ⟨fun _ => ?_, fun hlacking => by omega⟩
      rw [hresult]
      exact ⟨rfl, [], List.nil_prefix, matches_nil c, by omega⟩
  · have hpositive : (counted [] : Int) < size - c.availableSpace maxDiskSpace free osQuota := by
      rw [counted, List.map_nil, List.sum_nil, Nat.cast_zero]
      omega
    have hcases := @removeFiles_cases c _ [] (evictionOrder c.files) _ (matches_nil c) rfl hpositive
    rcases hloop : removeFiles (size - c.availableSpace maxDiskSpace free osQuota)
      (evictionOrder c.files) ⟨c.volume, [], 0⟩ with ⟨result, s⟩
    rw [hloop] at hcases
    rcases hcases with ⟨hok, ⟨removed, hleading, hmatches, hstopped⟩, hall⟩ | ⟨⟨path, herror⟩, hrepeat⟩
    · dsimp only at hok hmatches
      subst hok
      refine iff_of_true ?_ fun before file after hsplit hbefore =>
        hall before file after hsplit (Nat.zero_le _) hbefore
      have hbytes : blobBytes removed = counted removed := blobBytes_of_nodup hmatches.blobs_nodup
      have htotal : blobBytes removed ≤ blobBytes c.files :=
        blobBytes_mono fun _ h => mem_evictionOrder.mp (hleading.subset h)
      have hfreed := hmatches.freedSpace
      have hcall := freeDiskSpaceFor_ok hfits hloop
      constructor
      · intro henough
        -- either the loop has stopped, or it has removed all there is
        have hmissing : size - c.availableSpace maxDiskSpace free osQuota ≤ (counted removed : Int) := by
          rcases hstopped with hstopped | heverything
          · exact hstopped
          · rw [heverything, blobBytes_evictionOrder] at hbytes
            rw [heverything]
            omega
        rw [hfreed, if_neg (not_lt.mpr hmissing)] at hcall
        rw [hcall]
        exact ⟨rfl, removed, hleading, hmatches, hbytes.symm ▸ hmissing⟩
      · intro hlacking
        rw [hfreed, if_pos (by omega)] at hcall
        exact ⟨_, congrArg Prod.fst hcall⟩
    · dsimp only at herror
      subst herror
      refine iff_of_false (fun h => ?_) hrepeat
      have hcall := congrArg Prod.fst (freeDiskSpaceFor_error hfits hloop)
      rcases le_or_gt (size : Int) (c.availableSpace maxDiskSpace free osQuota + blobBytes c.files) with
        henough | hlacking
      · cases (h.enough henough).1.symm.trans hcall
      · obtain ⟨missing, hmissing⟩ := h.lacking hlacking
        cases hmissing.symm.trans hcall

/-- A cache in which no two files share a blob, and every file is a link, is one where it does. -/
theorem freesBeforeRepeat_of_distinct {files : List CachedFileInfo} {needed : Int}
    (hlinks : ∀ file ∈ files, file.filePath ≠ file.blobPath)
    (hnodup : (files.map CachedFileInfo.blobPath).Nodup) : FreesBeforeRepeat files needed := by
  intro before file after hsplit _
  have hfile : file ∈ files :=
    mem_evictionOrder.mp (hsplit ▸ List.mem_append_right _ List.mem_cons_self)
  have horder : ((before ++ file :: after).map CachedFileInfo.blobPath).Nodup := by
    rw [← hsplit]
    exact ((List.perm_insertionSort _ files).map _).nodup_iff.mpr hnodup
  rw [List.map_append, List.map_cons] at horder
  exact ⟨hlinks file hfile, fun hmem =>
    (List.nodup_append.mp horder).2.2 _ hmem _ List.mem_cons_self rfl⟩

/-! ### Two revisions that share a blob -/

/-- The configuration of two revisions is one blob; the weights of the second one are another. -/
def sharedCache : HubCache where
  repos := [[[⟨"snapshots/a/config.json", "blobs/1", 4, 1⟩],
    [⟨"snapshots/b/config.json", "blobs/1", 4, 1⟩, ⟨"snapshots/b/model.safetensors", "blobs/2", 10, 2⟩]]]
  volume := ["snapshots/a/config.json", "snapshots/b/config.json", "snapshots/b/model.safetensors",
    "blobs/1", "blobs/2"]
  present := by decide +kernel
  paths_nodup := by decide +kernel
  links := by decide +kernel
  stats := by decide +kernel

/-- Five bytes are missing and fourteen could be freed; the call fails at the blob it has removed. -/
theorem shared_blob_stops_eviction :
    (5 : Int) ≤ sharedCache.availableSpace none 0 0 + blobBytes sharedCache.files ∧
      (sharedCache.freeDiskSpaceFor 5 none 0 0).1 = .error (.fileNotFoundError "blobs/1") ∧
      (sharedCache.freeDiskSpaceFor 5 none 0 0).2.freedSpace = 4 ∧
      ¬ sharedCache.EvictsHonestly 5 none 0 0 := by
  have herror : (sharedCache.freeDiskSpaceFor 5 none 0 0).1 = .error (.fileNotFoundError "blobs/1") := by
    decide +kernel
  have hspace : (5 : Int) ≤ sharedCache.availableSpace none 0 0 + blobBytes sharedCache.files := by
    decide +kernel
  refine ⟨hspace, herror, by decide +kernel, fun h => ?_⟩
  cases (h.enough hspace).1.symm.trans herror

end Drift.Utils
