import Drift.Identity.Verification

/-!
# Reading module infos from the DHT

`get_remote_module_infos` runs in the DHT process, on a pickled copy of its arguments; the copy of
the replay guard is among them. The content it walks over is whatever the untrusted DHT returns.

* `ReplayGuard.unpickle` — the copy the coroutine works on;
* `LookupContext.readEntry` — one entry of one block key, with the verification it goes through;
* `LookupContext.offered` — the record of an entry that comes to the guard, if any;
* `readEntry_cases` — an entry either does not come to the guard and changes nothing, or its result
  is the guard's.
-/

namespace Drift.Dht

open Drift.Lib Drift.Identity

/-- A block key, taken apart by `parse_uid`. -/
structure ModuleUid where
  dhtPrefix : String
  blockIndex : Nat
  deriving DecidableEq, Repr

/-- `ServerInfo`. The fields the lookup itself does not read are kept together. -/
structure ServerInfo where
  state : Int
  throughput : Json
  startBlock : Option Nat
  endBlock : Option Nat
  manifestDigest : Option String
  signedAnnouncement : Option Json
  adapters : List String
  otherFields : List (String × Json)

/-- `ServerInfo.signed_payload`: everything but the announcement itself. -/
def ServerInfo.signedPayload (info : ServerInfo) : Json :=
  let block (b : Option Nat) : Json := (b.map fun n => Json.int n).getD .null
  .obj ([("state", .int info.state), ("throughput", info.throughput),
    ("start_block", block info.startBlock), ("end_block", block info.endBlock),
    ("manifest_digest", (info.manifestDigest.map Json.str).getD .null),
    ("adapters", .arr (info.adapters.map Json.str))] ++ info.otherFields)

/-- The arguments of a lookup that do not change. `manifest` is the digest with the execution
profile, which are given together or not at all. -/
structure LookupContext where
  prim : Primitives
  revocations : RevocationStore
  activeAdapter : Option String
  manifest : Option (String × Json)

/-- `ReplayGuard.__setstate__` on what `__getstate__` gave: a guard with a path reads its file
again. -/
def ReplayGuard.unpickle (prim : Primitives) (g : ReplayGuard) (file : HistoryFile) (nowMs : Int) :
    Checked ReplayGuard :=
  if g.path.isNone then .ok g
  else do
    let latest ← g.load prim file nowMs
    pure { g with latest }

/-- What reading one entry does: the server it lists, the announcement it accepted, and the guard
and its file afterwards. -/
structure EntryResult where
  listed : Option ServerInfo
  accepted : Option SignedRecord
  guard : ReplayGuard
  file : HistoryFile

/-- One entry under a block key. `info` is `none` where decoding the peer id or the server info
raises. The verification of the entry reads the clock at `validateMs`, the guard at `nowMs`. -/
structure Entry where
  uid : ModuleUid
  peerId : String
  info : Option ServerInfo
  validateMs : Int
  nowMs : Int

namespace LookupContext

/-- `active_adapter and active_adapter not in server_info.adapters`. -/
def lacksAdapter (ctx : LookupContext) (info : ServerInfo) : Bool :=
  match ctx.activeAdapter with
  | none => false
  | some adapter => adapter != "" && !info.adapters.contains adapter

/-- What the announcement published under a block key by a peer must say. -/
def expected (uid : ModuleUid) (peerId digest : String) (profile : Json) (info : ServerInfo) :
    ExpectedAnnouncement where
  peerId := peerId
  dhtPrefix := uid.dhtPrefix
  manifestDigest := digest
  serverInfo := info.signedPayload
  executionProfile := profile

/-- `start_block <= block_index < end_block` for blocks that are given. -/
def coversBlock (uid : ModuleUid) (info : ServerInfo) : Bool :=
  match info.startBlock, info.endBlock with
  | some first, some last => decide (first ≤ uid.blockIndex ∧ uid.blockIndex < last)
  | _, _ => false

/-- One iteration of the inner loop of `_get_remote_module_infos`. -/
def readEntry (ctx : LookupContext) (e : Entry) (outcome : WriteOutcome) (g : ReplayGuard)
    (file : HistoryFile) : EntryResult :=
  let skipped : EntryResult := ⟨none, none, g, file⟩
  match e.info with
  | none => skipped
  | some info =>
    if ctx.lacksAdapter info then skipped
    else match ctx.manifest with
    | none => { skipped with listed := some info }
    | some (digest, profile) =>
      if info.manifestDigest ≠ some digest then skipped
      else match info.signedAnnouncement with
      | none => skipped
      | some source =>
        match verifyWorkerAnnouncement ctx.prim ctx.revocations
            (expected e.uid e.peerId digest profile info) e.validateMs source g file e.nowMs outcome with
        | (.error _, g', file') => ⟨none, none, g', file'⟩
        | (.ok r, g', file') =>
          ⟨if coversBlock e.uid info then some info else none, some r, g', file'⟩

/-- The announcement of an entry that passes everything up to the guard. -/
def offered (ctx : LookupContext) (e : Entry) : Option SignedRecord :=
  match e.info, ctx.manifest with
  | some info, some (digest, profile) =>
    if ctx.lacksAdapter info ∨ info.manifestDigest ≠ some digest then none
    else match info.signedAnnouncement with
    | none => none
    | some source =>
      (checkWorkerAnnouncement ctx.prim ctx.revocations (expected e.uid e.peerId digest profile info)
        e.validateMs source).toOption
  | _, _ => none

/-- What comes to the guard is an admissible announcement. -/
theorem offered_admissible {ctx : LookupContext} {e : Entry} {r : SignedRecord}
    (h : ctx.offered e = some r) : Admissible r "worker_announcement" e.validateMs := by
  unfold offered at h
  split at h
  · split at h
    · cases h
    split at h
    · cases h
    · next source _ =>
      cases hc : checkWorkerAnnouncement ctx.prim ctx.revocations (expected e.uid e.peerId _ _ _)
          e.validateMs source with
      | error err => rw [hc] at h; cases h
      | ok r' =>
        rw [hc] at h
        obtain rfl : r' = r := Option.some.inj h
        exact checkWorkerAnnouncement_ok hc
  · cases h

/-- **Reading an entry.** Where nothing comes to the guard, nothing is accepted and nothing changes;
where a record comes to it, the guard decides, and the guard and its file are as its check leaves
them. -/
theorem readEntry_cases (ctx : LookupContext) (e : Entry) (outcome : WriteOutcome) (g : ReplayGuard)
    (file : HistoryFile) :
    let result := ctx.readEntry e outcome g file
    PassesGuard ctx.prim (ctx.offered e) result.accepted g file e.nowMs outcome result.guard
      result.file := by
  intro result
  unfold result readEntry offered PassesGuard
  cases e.info with
  | none => exact Or.inl ⟨rfl, rfl, rfl, rfl⟩
  | some info =>
    dsimp only
    by_cases hadapter : ctx.lacksAdapter info = true
    · left
      rw [if_pos hadapter]
      refine ⟨?_, rfl, rfl, rfl⟩
      cases ctx.manifest with
      | none => rfl
      | some manifest => exact if_pos (Or.inl hadapter)
    rw [if_neg hadapter]
    cases hman : ctx.manifest with
    | none => exact Or.inl ⟨rfl, rfl, rfl, rfl⟩
    | some manifest =>
      obtain ⟨digest, profile⟩ := manifest
      dsimp only
      by_cases hdigest : info.manifestDigest ≠ some digest
      · left
        rw [if_pos hdigest, if_pos (Or.inr hdigest)]
        exact ⟨rfl, rfl, rfl, rfl⟩
      rw [if_neg hdigest, if_neg (by rintro (h | h) <;> contradiction)]
      cases hsource : info.signedAnnouncement with
      | none => exact Or.inl ⟨rfl, rfl, rfl, rfl⟩
      | some source =>
        dsimp only
        unfold verifyWorkerAnnouncement guardChecked
        cases hchecked : checkWorkerAnnouncement ctx.prim ctx.revocations
            (expected e.uid e.peerId digest profile info) e.validateMs source with
        | error err => exact Or.inl ⟨rfl, rfl, rfl, rfl⟩
        | ok r =>
          refine Or.inr ⟨r, rfl, ?_⟩
          dsimp only
          -- the guard's answer decides, whatever it is
          obtain ⟨answer, g', file'⟩ := g.check ctx.prim file e.nowMs outcome r
          cases answer with
          | error err => exact ⟨rfl, rfl, Or.inl ⟨err, rfl, rfl⟩⟩
          | ok u => exact ⟨rfl, rfl, Or.inr ⟨rfl, rfl⟩⟩

end LookupContext

/-! ### A worked server -/

/-- A server that holds block 0, publishing `announcement`. -/
def sampleServer (announcement : Option Json) : ServerInfo where
  state := 2
  throughput := .int 1
  startBlock := some 0
  endBlock := some 1
  manifestDigest := some sampleDigest
  signedAnnouncement := announcement
  adapters := []
  otherFields := []

/-- The entry of the server whose announcement was issued at `issuedAtMs`, read at `nowMs`. -/
def sampleEntry (issuedAtMs nowMs : Int) : Entry where
  uid := ⟨"drift-m1-" ++ sampleDigest, 0⟩
  peerId := "k"
  info := some (sampleServer (some (.obj
    (announcementAt (sampleServer none).signedPayload issuedAtMs (issuedAtMs + 2000) 0).toDict)))
  validateMs := nowMs
  nowMs := nowMs

end Drift.Dht
