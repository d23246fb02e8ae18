import Drift.Identity.ReplayGuard
import Drift.Lib.BoundedCache
import Drift.Lib.IpAddress
import Drift.Lib.JsonText
import Drift.Lib.Machine
import Drift.Lib.Outcome

/-!
# The cache of discovery peers

A node keeps the addresses of peers it has met in a file, under a scope for each list of seeds. The reader is
strict: one entry that fails a check refuses the whole file, and with it every scope.

* `loadScopes`, `PeerCache.load`, `PeerCache.store` — the reader, and the two calls;
* `loadScopes_rendered`, `wellFormed_of_loadScopes` — what is written is read, and what is read is well formed;
* `store_cases` — what a call leaves;
* `Kept` — a stored selection through later calls, up to its age and its eviction;
* `peer_cache_stays_loadable` — both, over all runs from any file.
-/

namespace Drift.Node

open Drift.Lib Drift.Identity

/-! ### The file -/

def peerCacheSchemaVersion : Int := 1
def maxPeerCacheBytes : Nat := 256 * 1024
def maxPeerCacheScopes : Nat := 8
def maxPeerCachePeers : Nat := 32
def maxPeerCacheAgeSeconds : Int := 7 * 24 * 60 * 60
def maxPeerCacheFutureSeconds : Int := 5 * 60
def minPeerCacheWriteIntervalSeconds : ℚ := 5 * 60

/-- The libraries: the strict reader of JSON, which refuses an object with a duplicate key; the digest; the peer
identifiers in canonical base58; and the global addresses. -/
structure CacheLibrary where
  loads : String → Option Json
  sha256Hex : String → String
  canonicalPeerId : List Char → Bool
  isGlobal : List Char → Bool
  loads_dumps : ∀ j : Json, j.Plain → j.distinctKeys = true → loads (j.dumps ++ "\n") = some j.sortKeys
  loads_distinct : ∀ s j, loads s = some j → j.distinctKeys = true
  sha256Hex_digest : ∀ s, isDigest (sha256Hex s) = true

/-- An entry of the file. -/
structure PeerEntry where
  savedAtMs : Int
  peers : List String
  deriving DecidableEq

/-- What is at the path: nothing, something else than a regular file, bytes that are no text, or a text. -/
inductive CacheFile
  | missing
  | irregular
  | undecodable (sizeBytes : Nat)
  | text (content : String)
  deriving DecidableEq

variable (lib : CacheLibrary)

/-- `[1-9][0-9]{0,4}`, at most 65535. -/
def isPort (port : List Char) : Bool :=
  !port.isEmpty && port.all Char.isDigit && port.head? != some '0' && decide (port.length ≤ 5) &&
    decide (Nat.ofDigitChars 10 port 0 ≤ 65535)

/-- `_cacheable_peer_address`. -/
def cacheablePeerAddress (value : String) : Bool :=
  decide (value.length ≤ 512) && value.toList.all (fun c => c != '\r' && c != '\n' && c.toNat != 0) &&
    match value.toList.splitOn '/' with
    | [first, kind, host, transport, port, p2p, peerId] =>
      first.isEmpty && (kind == ['i', 'p', '4'] || kind == ['i', 'p', '6']) && !host.isEmpty &&
        transport == ['t', 'c', 'p'] && isPort port && p2p == ['p', '2', 'p'] &&
        decide (20 ≤ peerId.length ∧ peerId.length ≤ 128) && lib.canonicalPeerId peerId &&
        ipVersion host == (if kind == ['i', 'p', '6'] then some 6 else some 4) && lib.isGlobal host
    | _ => false

/-- `_peer_cache_scope`. -/
def peerCacheScope (initialPeers : List String) : String :=
  lib.sha256Hex (Json.arr (initialPeers.map .str)).dumps

/-- The strings of a decoded list. -/
def readStrings (items : List Json) : Except String (List String) :=
  items.mapM fun
    | .str s => .ok s
    | _ => .error "cache scope contents are invalid"

/-- The entry of one scope. -/
def loadPeerEntry (nowMs : Int) (field : String × Json) : Except String (String × PeerEntry) :=
  match field with
  | (scope, .obj fields) =>
    if !isDigest scope || !Json.hasExactly fields ["saved_at_ms", "peers"] then .error "cache scope is invalid"
    else match fields.lookup "saved_at_ms", fields.lookup "peers" with
      | some (.int savedAtMs), some (.arr items) => do
        let peers ← readStrings items
        if peers = [] ∨ peers.length > maxPeerCachePeers ∨ ¬peers.Nodup ∨
            peers.any (fun peer => !cacheablePeerAddress lib peer) then
          throw "cache scope contents are invalid"
        if savedAtMs > nowMs + maxPeerCacheFutureSeconds * 1000 then throw "cache timestamp is in the future"
        return (scope, ⟨savedAtMs, peers⟩)
      | _, _ => .error "cache scope contents are invalid"
  | _ => .error "cache scope is invalid"

/-- `isinstance(value, bool)`. -/
def isBool : Json → Bool
  | .bool _ => true
  | _ => false

/-- An entry that has not aged out. -/
def isFreshEntry (nowMs : Int) (e : PeerEntry) : Bool := decide (nowMs - e.savedAtMs ≤ maxPeerCacheAgeSeconds * 1000)

/-- The scopes of a decoded file. -/
def loadSource (nowMs : Int) (source : List (String × Json)) : Except String (List (String × PeerEntry)) :=
  match source.lookup "schema_version", source.lookup "scopes" with
  | some version, some (.obj scopes) =>
    if !Json.hasExactly source ["schema_version", "scopes"] || isBool version ||
        !version.equalsInt peerCacheSchemaVersion || decide (scopes.length > maxPeerCacheScopes) then
      .error "cache schema is invalid"
    else do
      let entries ← scopes.mapM (loadPeerEntry lib nowMs)
      return entries.filter fun e => isFreshEntry nowMs e.2
  | _, _ => .error "cache schema is invalid"

/-- `_load_scopes`. -/
def loadScopes (file : CacheFile) (nowMs : Int) : Except String (List (String × PeerEntry)) :=
  match file with
  | .missing => .ok []
  | .irregular => .error "cache path is not a regular file"
  | .undecodable sizeBytes =>
    if sizeBytes > maxPeerCacheBytes then .error "cache exceeds its byte limit" else .error "invalid UTF-8"
  | .text content =>
    if content.utf8ByteSize > maxPeerCacheBytes then .error "cache exceeds its byte limit"
    else match lib.loads content with
      | none => .error "invalid JSON"
      | some (.obj source) => loadSource lib nowMs source
      | some _ => .error "cache must be a JSON object"

/-! ### The calls -/

/-- A cache: its file, and the last writes of this process. -/
structure PeerCache where
  file : CacheFile
  lastWrites : Dict String (List String × ℚ)

/-- `int(now * 1000)`. -/
def toMs (now : ℚ) : Int := if 0 ≤ now * 1000 then ⌊now * 1000⌋ else ⌈now * 1000⌉

/-- `PeerCache.load`. -/
def PeerCache.load (cache : PeerCache) (initialPeers : List String) (now : ℚ) : List String :=
  match loadScopes lib cache.file (toMs now) with
  | .ok scopes => ((scopes.lookup (peerCacheScope lib initialPeers)).map PeerEntry.peers).getD []
  | .error _ => []

/-- The addresses that a call stores. -/
def selectPeers (peers : List String) : List String :=
  (((peers.filter (cacheablePeerAddress lib)).dedup).insertionSort (· ≤ ·)).take maxPeerCachePeers

/-- One entry of the rendered file. -/
def peerEntryJson (e : String × PeerEntry) : String × Json :=
  (e.1, .obj [("saved_at_ms", .int e.2.savedAtMs), ("peers", .arr (e.2.peers.map .str))])

/-- The document that is rendered. -/
def cacheDocument (scopes : List (String × PeerEntry)) : Json :=
  .obj [("schema_version", .int peerCacheSchemaVersion), ("scopes", .obj (scopes.map peerEntryJson))]

def rendered (scopes : List (String × PeerEntry)) : String := (cacheDocument scopes).dumps ++ "\n"

/-- A call of `store`: the seeds, the peers, the two readings of the clock, and how its writes end. -/
structure StoreCall where
  initialPeers : List String
  peers : List String
  now : ℚ
  loadNow : ℚ
  outcome : WriteOutcome

/-- The same selection was written shortly before. -/
def PeerCache.suppresses (cache : PeerCache) (scope : String) (selected : List String) (now : ℚ) : Bool :=
  match cache.lastWrites.lookup scope with
  | some (peers, writtenAt) =>
    decide (selected = peers ∧ now - writtenAt < minPeerCacheWriteIntervalSeconds)
  | none => false

/-- The scopes with the new entry: those of the file, or none where the reader refuses it. -/
def storedScopes (file : CacheFile) (call : StoreCall) : List (String × PeerEntry) :=
  let scopes := match loadScopes lib file (toMs call.loadNow) with
    | .ok scopes => scopes
    | .error _ => []
  put PeerEntry.savedAtMs maxPeerCacheScopes (peerCacheScope lib call.initialPeers)
    ⟨toMs call.now, selectPeers lib call.peers⟩ scopes

/-- `PeerCache.store`. -/
def PeerCache.store (cache : PeerCache) (call : StoreCall) : Except String Bool × PeerCache :=
  let selected := selectPeers lib call.peers
  let scope := peerCacheScope lib call.initialPeers
  if selected.isEmpty then (.ok false, cache)
  else if cache.suppresses scope selected call.now then (.ok false, cache)
  else if cache.file = .irregular then (.error "refusing to replace the peer cache", cache)
  else
    let content := rendered (storedScopes lib cache.file call)
    if content.utf8ByteSize > maxPeerCacheBytes then (.error "rendered peer cache exceeds its byte limit", cache)
    else match call.outcome with
      | .failed => (.error "the peer cache could not be written", cache)
      | .failedAfterReplace => (.error "the peer cache could not be written", { cache with file := .text content })
      | .written =>
        (.ok true, { file := .text content, lastWrites := cache.lastWrites.insert scope (selected, call.now) })

/-- A cache with the last reading of its clock. -/
structure CacheRun where
  cache : PeerCache
  clock : ℚ

/-- Calls under a clock that does not go back. -/
def CacheRun.next (s : CacheRun) (call : StoreCall) : Option CacheRun :=
  if s.clock ≤ call.now ∧ call.now ≤ call.loadNow then some ⟨(s.cache.store lib call).2, call.loadNow⟩ else none

def peerCacheMachine : Machine CacheRun StoreCall := ⟨CacheRun.next lib⟩

/-! ### What is written is read -/

/-- What the reader asks of one entry, apart from the clock. -/
structure EntryWellFormed (e : String × PeerEntry) : Prop where
  digest : isDigest e.1 = true
  peers_ne : e.2.peers ≠ []
  length_le : e.2.peers.length ≤ maxPeerCachePeers
  nodup : e.2.peers.Nodup
  cacheable : ∀ peer ∈ e.2.peers, cacheablePeerAddress lib peer = true

/-- Entries that the reader accepts at the clock reading and later. -/
structure WellFormed (nowMs : Int) (entries : List (String × PeerEntry)) : Prop where
  nodup : (entries.map Prod.fst).Nodup
  length_le : entries.length ≤ maxPeerCacheScopes
  entry : ∀ e ∈ entries, EntryWellFormed lib e
  saved_le : ∀ e ∈ entries, e.2.savedAtMs ≤ nowMs + maxPeerCacheFutureSeconds * 1000

variable {lib}
variable {nowMs laterMs : Int} {entries : List (String × PeerEntry)} {e : String × PeerEntry}

theorem WellFormed.mono (h : WellFormed lib nowMs entries) (hle : nowMs ≤ laterMs) : WellFormed lib laterMs entries where
  nodup := h.nodup
  length_le := h.length_le
  entry := h.entry
  saved_le e he := (h.saved_le e he).trans (Int.add_le_add_right hle _)

theorem WellFormed.sublist {entries' : List (String × PeerEntry)} (h : WellFormed lib nowMs entries)
    (hsub : entries'.Sublist entries) : WellFormed lib nowMs entries' where
  nodup := h.nodup.sublist (hsub.map Prod.fst)
  length_le := hsub.length_le.trans h.length_le
  entry e he := h.entry e (hsub.subset he)
  saved_le e he := h.saved_le e (hsub.subset he)

theorem WellFormed.perm {entries' : List (String × PeerEntry)} (h : WellFormed lib nowMs entries)
    (hperm : entries'.Perm entries) : WellFormed lib nowMs entries' where
  nodup := (hperm.map Prod.fst).nodup_iff.mpr h.nodup
  length_le := hperm.length_eq.trans_le h.length_le
  entry e he := h.entry e (hperm.mem_iff.mp he)
  saved_le e he := h.saved_le e (hperm.mem_iff.mp he)

/-- Texts are read as they are, and nothing else is. -/
theorem readStrings_eq_ok {items : List Json} {peers : List String} :
    readStrings items = .ok peers ↔ items = peers.map .str := by
  unfold readStrings
  rw [mapM_eq_ok]
  constructor
  · intro h
    induction h with
    | nil => rfl
    | @cons item peer items peers hitem _ ih =>
      rw [List.map_cons, ih]
      cases item with
      | str s => rw [Except.ok.inj hitem]
      | _ => cases hitem
  · rintro rfl
    rw [List.forall₂_map_left_iff, List.forall₂_same]
    exact fun _ _ => rfl

/-- What the reader accepts as an entry. -/
theorem loadPeerEntry_eq_ok {scope : String} {fields : List (String × Json)} :
    loadPeerEntry lib nowMs (scope, .obj fields) = .ok e ↔
      Json.hasExactly fields ["saved_at_ms", "peers"] = true ∧ e.1 = scope ∧
        fields.lookup "saved_at_ms" = some (.int e.2.savedAtMs) ∧
        fields.lookup "peers" = some (.arr (e.2.peers.map .str)) ∧ EntryWellFormed lib e ∧
        e.2.savedAtMs ≤ nowMs + maxPeerCacheFutureSeconds * 1000 := by
  unfold loadPeerEntry
  constructor
  · intro h
    dsimp only at h
    split at h
    · cases h
    · rename_i hscope
      rw [Bool.or_eq_true, not_or, Bool.not_eq_true, Bool.not_eq_true, Bool.not_eq_false', Bool.not_eq_false'] at hscope
      split at h
      · rename_i savedAtMs items hsaved hpeers
        obtain ⟨peers, hread, h⟩ := bind_eq_ok.mp h
        split at h
        · cases h
        · rename_i hcontents
          rw [not_or, not_or, not_or] at hcontents
          obtain ⟨hne, hlength, hnodup, hcacheable⟩ := hcontents
          split at h
          · cases h
          · rename_i hfuture
            cases h
            refine ⟨hscope.2, rfl, hsaved, ?_, ⟨hscope.1, hne, not_lt.mp hlength, not_not.mp hnodup, ?_⟩, not_lt.mp hfuture⟩
            · rw [hpeers, readStrings_eq_ok.mp hread]
            · intro peer hpeer
              by_contra hnot
              exact hcacheable (List.any_eq_true.mpr ⟨peer, hpeer, by simpa using hnot⟩)
      · cases h
  · rintro ⟨hexactly, rfl, hsaved, hpeers, hentry, hfuture⟩
    have hall : e.2.peers.any (fun peer => !cacheablePeerAddress lib peer) = false := by
      rw [List.any_eq_false]
      intro peer hpeer
      rw [hentry.cacheable peer hpeer]
      exact Bool.false_ne_true
    dsimp only
    rw [hentry.digest, hexactly, hsaved, hpeers, if_neg (by decide)]
    dsimp only
    rw [readStrings_eq_ok.mpr rfl, ok_bind, if_neg, if_neg (not_lt.mpr hfuture)]
    · rfl
    · rw [hall]
      rintro (h | h | h | h)
      · exact hentry.peers_ne h
      · exact not_lt.mpr hentry.length_le h
      · exact h hentry.nodup
      · exact Bool.false_ne_true h

/-- The fields of a rendered entry, sorted. -/
theorem sortKeys_peerEntryJson (e : String × PeerEntry) : (peerEntryJson e).2.sortKeys =
    .obj [("peers", .arr (e.2.peers.map .str)), ("saved_at_ms", .int e.2.savedAtMs)] := by
  have hitems : Json.sortItems (e.2.peers.map .str) = e.2.peers.map .str := by
    rw [Json.sortItems_eq, List.map_map]
    exact List.map_congr_left fun peer _ => by simp [Json.sortKeys]
  unfold peerEntryJson
  rw [Json.sortKeys_obj]
  simp [Json.sortedFields, List.orderedInsert, Json.keyLe_iff, Json.sortKeys, hitems]

/-- A rendered entry is read as it was. -/
theorem loadPeerEntry_rendered (hentry : EntryWellFormed lib e)
    (hsaved : e.2.savedAtMs ≤ nowMs + maxPeerCacheFutureSeconds * 1000) :
    loadPeerEntry lib nowMs (e.1, (peerEntryJson e).2.sortKeys) = .ok e := by
  rw [sortKeys_peerEntryJson, loadPeerEntry_eq_ok]
  exact ⟨rfl, rfl, rfl, rfl, hentry, hsaved⟩

/-- The rendered document, as a reader returns it. -/
theorem sortKeys_cacheDocument (entries : List (String × PeerEntry)) : (cacheDocument entries).sortKeys =
    .obj [("schema_version", .int peerCacheSchemaVersion),
      ("scopes", .obj ((entries.insertionSort Json.keyLe).map fun e => (e.1, (peerEntryJson e).2.sortKeys)))] := by
  have hscopes : Json.sortKeys (.obj (entries.map peerEntryJson)) =
      .obj ((entries.insertionSort Json.keyLe).map fun e => (e.1, (peerEntryJson e).2.sortKeys)) := by
    have hsorted : (entries.map peerEntryJson).insertionSort Json.keyLe =
        (entries.insertionSort Json.keyLe).map peerEntryJson :=
      (List.map_insertionSort Json.keyLe Json.keyLe peerEntryJson entries fun _ _ _ _ => Iff.rfl).symm
    rw [Json.sortKeys_obj, Json.sortedFields, hsorted, List.map_map]
    rfl
  unfold cacheDocument
  rw [Json.sortKeys_obj]
  simp [Json.sortedFields, Json.keyLe_iff, hscopes, Json.sortKeys.eq_def (.int _)]

theorem plain_cacheDocument (entries : List (String × PeerEntry)) : (cacheDocument entries).Plain := by
  refine ⟨trivial, Json.plainFields_iff.mpr fun field hfield => ?_, trivial⟩
  obtain ⟨e, -, rfl⟩ := List.mem_map.mp hfield
  refine ⟨trivial, Json.plainItems_iff.mpr fun item hitem => ?_, trivial⟩
  obtain ⟨peer, -, rfl⟩ := List.mem_map.mp hitem
  trivial

theorem distinctKeys_cacheDocument (hnodup : (entries.map Prod.fst).Nodup) :
    (cacheDocument entries).distinctKeys = true := by
  have hentry : ∀ field ∈ entries.map peerEntryJson, field.2.distinctKeys = true := by
    intro field hfield
    obtain ⟨e, -, rfl⟩ := List.mem_map.mp hfield
    have hitems : Json.distinctItems (e.2.peers.map .str) = true := by
      rw [Json.distinctItems_iff]
      intro item hitem
      obtain ⟨peer, -, rfl⟩ := List.mem_map.mp hitem
      rfl
    show (true && (true && (Json.distinctItems (e.2.peers.map .str) && true))) = true
    rw [hitems]
    rfl
  have hscopes : Json.distinctKeys (.obj (entries.map peerEntryJson)) = true := by
    show (decide (((entries.map peerEntryJson).map Prod.fst).Nodup) && Json.distinctFields _) = true
    rw [Json.distinctFields_iff.mpr hentry, List.map_map, Bool.and_true]
    exact decide_eq_true hnodup
  show (true && (true && (Json.distinctKeys (.obj (entries.map peerEntryJson)) && true))) = true
  rw [hscopes]
  rfl

/-- The entries that a reader returns. -/
def readEntries (nowMs : Int) (entries : List (String × PeerEntry)) : List (String × PeerEntry) :=
  (entries.insertionSort Json.keyLe).filter fun e => isFreshEntry nowMs e.2

/-- **What is written is read**, except for what has aged out. -/
theorem loadScopes_rendered (h : WellFormed lib nowMs entries)
    (hsize : (rendered entries).utf8ByteSize ≤ maxPeerCacheBytes) :
    loadScopes lib (.text (rendered entries)) nowMs =
      .ok (readEntries nowMs entries) := by
  have hloads : lib.loads (rendered entries) = some (cacheDocument entries).sortKeys :=
    lib.loads_dumps _ (plain_cacheDocument entries) (distinctKeys_cacheDocument h.nodup)
  have hperm : (entries.insertionSort Json.keyLe).Perm entries := List.perm_insertionSort _ _
  have hentries : ((entries.insertionSort Json.keyLe).map fun e => (e.1, (peerEntryJson e).2.sortKeys)).mapM
      (loadPeerEntry lib nowMs) = .ok (entries.insertionSort Json.keyLe) := by
    rw [mapM_eq_ok, List.forall₂_map_left_iff, List.forall₂_same]
    exact fun e he => loadPeerEntry_rendered (h.entry e (hperm.mem_iff.mp he)) (h.saved_le e (hperm.mem_iff.mp he))
  unfold loadScopes
  dsimp only
  rw [if_neg (not_lt.mpr hsize), hloads, sortKeys_cacheDocument]
  unfold loadSource
  show (if _ then _ else _) = _
  rw [if_neg, hentries]
  · rfl
  · rw [List.length_map, hperm.length_eq, decide_eq_false (not_lt.mpr h.length_le)]
    exact Bool.false_ne_true

/-- An object that no entry refuses. -/
theorem loadPeerEntry_fields {field : String × Json} (h : loadPeerEntry lib nowMs field = .ok e) :
    e.1 = field.1 ∧ EntryWellFormed lib e ∧ e.2.savedAtMs ≤ nowMs + maxPeerCacheFutureSeconds * 1000 := by
  obtain ⟨scope, value⟩ := field
  cases value with
  | obj fields =>
    obtain ⟨-, hscope, -, -, hentry, hsaved⟩ := loadPeerEntry_eq_ok.mp h
    exact ⟨hscope, hentry, hsaved⟩
  | _ => cases h

theorem loadPeerEntries_fields {fields : List (String × Json)}
    (h : List.Forall₂ (fun field e => loadPeerEntry lib nowMs field = .ok e) fields entries) :
    entries.map Prod.fst = fields.map Prod.fst ∧ ∀ e ∈ entries,
      EntryWellFormed lib e ∧ e.2.savedAtMs ≤ nowMs + maxPeerCacheFutureSeconds * 1000 := by
  induction h with
  | nil => exact ⟨rfl, fun _ he => absurd he List.not_mem_nil⟩
  | cons hfield _ ih =>
    obtain ⟨hkey, hentry⟩ := loadPeerEntry_fields hfield
    rw [List.map_cons, List.map_cons, hkey, ih.1]
    exact ⟨rfl, List.forall_mem_cons.mpr ⟨hentry, ih.2⟩⟩

/-- What is read of an object is well formed. -/
theorem wellFormed_of_loadSource {source : List (String × Json)} (hdistinct : (Json.obj source).distinctKeys = true)
    (h : loadSource lib nowMs source = .ok entries) : WellFormed lib nowMs entries := by
  unfold loadSource at h
  split at h
  · rename_i version scopes hversion hscopes
    split at h
    · cases h
    · rename_i hschema
      obtain ⟨read, hread, h⟩ := bind_eq_ok.mp h
      obtain rfl := Except.ok.inj h
      have hread := mapM_eq_ok.mp hread
      have hlength : scopes.length ≤ maxPeerCacheScopes := by
        rw [Bool.or_eq_true, not_or, decide_eq_true_eq] at hschema
        exact not_lt.mp hschema.2
      have hnodup : (scopes.map Prod.fst).Nodup := by
        have hmem : ("scopes", Json.obj scopes) ∈ source := by
          obtain ⟨before, after, rfl, -⟩ := List.lookup_eq_some_iff.mp hscopes
          exact List.mem_append_right _ List.mem_cons_self
        have hfields : Json.distinctFields source = true := ((Bool.and_eq_true _ _).mp hdistinct).2
        have hvalue : (decide (scopes.map Prod.fst).Nodup && Json.distinctFields scopes) = true :=
          Json.distinctFields_iff.mp hfields _ hmem
        exact of_decide_eq_true ((Bool.and_eq_true _ _).mp hvalue).1
      obtain ⟨hkeys, hentry⟩ := loadPeerEntries_fields hread
      have hwell : WellFormed lib nowMs read :=
        ⟨hkeys ▸ hnodup, hread.length_eq ▸ hlength, fun e he => (hentry e he).1, fun e he => (hentry e he).2⟩
      exact hwell.sublist List.filter_sublist
  · cases h

/-- **What is read is well formed**, whatever the file is. -/
theorem wellFormed_of_loadScopes {file : CacheFile} (h : loadScopes lib file nowMs = .ok entries) :
    WellFormed lib nowMs entries := by
  unfold loadScopes at h
  split at h
  · obtain rfl := Except.ok.inj h
    exact ⟨List.nodup_nil, Nat.zero_le _, fun _ he => absurd he List.not_mem_nil, fun _ he => absurd he List.not_mem_nil⟩
  · cases h
  · split at h <;> cases h
  · split at h
    · cases h
    · split at h
      · cases h
      · rename_i source hloads
        exact wellFormed_of_loadSource (lib.loads_distinct _ _ hloads) h
      · cases h

/-! ### What a call leaves -/

/-- The whole milliseconds of a clock that does not go back do not go back. -/
theorem toMs_mono {now later : ℚ} (h : now ≤ later) : toMs now ≤ toMs later := by
  have hscaled : now * 1000 ≤ later * 1000 := by linarith
  unfold toMs
  split <;> rename_i hnow <;> split <;> rename_i hlater
  · exact Int.floor_mono hscaled
  · exact absurd (hnow.trans hscaled) hlater
  · have hneg : ⌈now * 1000⌉ ≤ 0 := Int.ceil_le.mpr (by exact_mod_cast (not_le.mp hnow).le)
    exact hneg.trans (Int.floor_nonneg.mpr hlater)
  · exact Int.ceil_mono hscaled

/-- A selection that is stored is one that the reader accepts. -/
theorem entryWellFormed_selectPeers {initialPeers peers : List String} (savedAtMs : Int)
    (hne : selectPeers lib peers ≠ []) :
    EntryWellFormed lib (peerCacheScope lib initialPeers, ⟨savedAtMs, selectPeers lib peers⟩) where
  digest := lib.sha256Hex_digest _
  peers_ne := hne
  length_le := List.length_take_le _ _
  nodup := by
    have hsorted : (((peers.filter (cacheablePeerAddress lib)).dedup).insertionSort (· ≤ ·)).Nodup :=
      (List.perm_insertionSort _ _).nodup_iff.mpr (List.nodup_dedup _)
    exact hsorted.sublist (List.take_sublist _ _)
  cacheable peer hpeer := by
    have hmem := (List.mem_insertionSort _).mp (List.mem_of_mem_take hpeer)
    exact (List.mem_filter.mp (List.mem_dedup.mp hmem)).2

/-- The new entry among those of the file that the reader returns. -/
theorem storedScopes_eq (lib : CacheLibrary) (file : CacheFile) (call : StoreCall) :
    ∃ base, (loadScopes lib file (toMs call.loadNow) = .ok base ∨
        base = [] ∧ ∀ scopes, loadScopes lib file (toMs call.loadNow) ≠ .ok scopes) ∧
      storedScopes lib file call = put PeerEntry.savedAtMs maxPeerCacheScopes (peerCacheScope lib call.initialPeers)
        ⟨toMs call.now, selectPeers lib call.peers⟩ base := by
  unfold storedScopes
  cases loadScopes lib file (toMs call.loadNow) with
  | ok scopes => exact ⟨scopes, Or.inl rfl, rfl⟩
  | error e => exact ⟨[], Or.inr ⟨rfl, fun _ h => nomatch h⟩, rfl⟩

theorem wellFormed_nil : WellFormed lib nowMs [] :=
  ⟨List.nodup_nil, Nat.zero_le _, fun _ he => absurd he List.not_mem_nil, fun _ he => absurd he List.not_mem_nil⟩

theorem WellFormed.put (h : WellFormed lib nowMs entries) (he : EntryWellFormed lib e)
    (hsaved : e.2.savedAtMs ≤ nowMs + maxPeerCacheFutureSeconds * 1000) :
    WellFormed lib nowMs (put PeerEntry.savedAtMs maxPeerCacheScopes e.1 e.2 entries) where
  nodup := nodup_put h.nodup
  length_le := length_put_le h.nodup (by decide) h.length_le
  entry e' he' := by
    rcases mem_of_mem_put he' with rfl | ⟨hmem, -⟩
    · exact he
    · exact h.entry e' hmem
  saved_le e' he' := by
    rcases mem_of_mem_put he' with rfl | ⟨hmem, -⟩
    · exact hsaved
    · exact h.saved_le e' hmem

/-- What a call writes is well formed, whatever the file was. -/
theorem wellFormed_storedScopes {file : CacheFile} {call : StoreCall} (hclock : call.now ≤ call.loadNow)
    (hne : selectPeers lib call.peers ≠ []) :
    WellFormed lib (toMs call.loadNow) (storedScopes lib file call) := by
  have hsaved : toMs call.now ≤ toMs call.loadNow + maxPeerCacheFutureSeconds * 1000 :=
    (toMs_mono hclock).trans (Int.le_add_of_nonneg_right (by decide))
  obtain ⟨base, hbase, heq⟩ := storedScopes_eq lib file call
  have hwell : WellFormed lib (toMs call.loadNow) base := by
    rcases hbase with hload | ⟨rfl, -⟩
    · exact wellFormed_of_loadScopes hload
    · exact wellFormed_nil
  rw [heq]
  exact hwell.put (entryWellFormed_selectPeers _ hne) hsaved

/-- **What a call leaves**: the file as it was, and it did not return that it stored; or the new entries. -/
theorem store_cases (lib : CacheLibrary) (cache : PeerCache) (call : StoreCall) :
    ((cache.store lib call).2.file = cache.file ∧ (cache.store lib call).1 ≠ .ok true) ∨
      ((cache.store lib call).2.file = .text (rendered (storedScopes lib cache.file call)) ∧
        (rendered (storedScopes lib cache.file call)).utf8ByteSize ≤ maxPeerCacheBytes ∧
        selectPeers lib call.peers ≠ []) := by
  unfold PeerCache.store
  dsimp only
  by_cases hempty : (selectPeers lib call.peers).isEmpty = true
  · rw [if_pos hempty]
    exact Or.inl ⟨rfl, fun h => nomatch h⟩
  rw [if_neg hempty]
  by_cases hsuppressed : cache.suppresses (peerCacheScope lib call.initialPeers) (selectPeers lib call.peers) call.now = true
  · rw [if_pos hsuppressed]
    exact Or.inl ⟨rfl, fun h => nomatch h⟩
  rw [if_neg hsuppressed]
  by_cases hirregular : cache.file = .irregular
  · rw [if_pos hirregular]
    exact Or.inl ⟨rfl, fun h => nomatch h⟩
  rw [if_neg hirregular]
  by_cases hsize : (rendered (storedScopes lib cache.file call)).utf8ByteSize > maxPeerCacheBytes
  · rw [if_pos hsize]
    exact Or.inl ⟨rfl, fun h => nomatch h⟩
  rw [if_neg hsize]
  have hselected : selectPeers lib call.peers ≠ [] := fun h => hempty (List.isEmpty_iff.mpr h)
  cases call.outcome with
  | failed => exact Or.inl ⟨rfl, fun h => nomatch h⟩
  | failedAfterReplace => exact Or.inr ⟨rfl, not_lt.mp hsize, hselected⟩
  | written => exact Or.inr ⟨rfl, not_lt.mp hsize, hselected⟩

/-! ### A stored selection through later calls -/

variable (lib)

/-- A selection is there, or it has aged out, or newer scopes fill the cache. -/
def Held (scope : String) (stored : PeerEntry) (nowMs : Int) (entries : List (String × PeerEntry)) : Prop :=
  (scope, stored) ∈ entries ∨ isFreshEntry nowMs stored = false ∨
    Displaced PeerEntry.savedAtMs maxPeerCacheScopes scope stored.savedAtMs entries

/-- A file that holds a selection stored before. -/
structure Kept (scope : String) (stored : PeerEntry) (s : CacheRun) (entries : List (String × PeerEntry)) : Prop where
  file : s.cache.file = .text (rendered entries)
  size_le : (rendered entries).utf8ByteSize ≤ maxPeerCacheBytes
  wellFormed : WellFormed lib (toMs s.clock) entries
  saved_le : stored.savedAtMs ≤ toMs s.clock
  only : ∀ e ∈ entries, e.1 = scope → e.2 = stored
  held : Held scope stored (toMs s.clock) entries

variable {lib}
variable {scope key : String} {stored new : PeerEntry}

theorem mem_readEntries : e ∈ readEntries nowMs entries ↔ e ∈ entries ∧ isFreshEntry nowMs e.2 = true := by
  unfold readEntries
  rw [List.mem_filter, List.mem_insertionSort]

theorem isFreshEntry_eq_false : isFreshEntry nowMs stored = false ↔
    maxPeerCacheAgeSeconds * 1000 < nowMs - stored.savedAtMs := by
  unfold isFreshEntry
  rw [decide_eq_false_iff_not, not_le]

/-- What has aged out stays so, and so does what is older. -/
theorem isFreshEntry_antitone (h : isFreshEntry nowMs new = false) (hle : nowMs ≤ laterMs)
    (hsaved : stored.savedAtMs ≤ new.savedAtMs) : isFreshEntry laterMs stored = false := by
  rw [isFreshEntry_eq_false] at h ⊢
  omega

/-- Reading drops no entry that is not older than one that has aged out. -/
theorem Held.read (h : Held scope stored nowMs entries) (hle : nowMs ≤ laterMs) :
    Held scope stored laterMs (readEntries laterMs entries) := by
  by_cases hfresh : isFreshEntry laterMs stored = false
  · exact Or.inr (Or.inl hfresh)
  rw [Bool.not_eq_false] at hfresh
  rcases h with hmem | haged | hdisplaced
  · exact Or.inl (mem_readEntries.mpr ⟨hmem, hfresh⟩)
  · exact Or.inr (Or.inl (isFreshEntry_antitone haged hle le_rfl))
  · have hall : ∀ e ∈ entries, isFreshEntry laterMs e.2 = true := by
      intro e he
      by_contra haged
      rw [isFreshEntry_antitone (Bool.eq_false_of_not_eq_true haged) le_rfl (hdisplaced.newer e he)] at hfresh
      cases hfresh
    have hperm : (readEntries laterMs entries).Perm entries := by
      unfold readEntries
      rw [List.filter_eq_self.mpr fun e he => hall e ((List.mem_insertionSort _).mp he)]
      exact List.perm_insertionSort _ _
    exact Or.inr (Or.inr (hdisplaced.perm hperm))

/-- Another scope's entry that is not older. -/
theorem Held.put (h : Held scope stored nowMs entries) (hwell : WellFormed lib nowMs entries) (hne : scope ≠ key)
    (hnew : stored.savedAtMs ≤ new.savedAtMs) :
    Held scope stored nowMs (put PeerEntry.savedAtMs maxPeerCacheScopes key new entries) := by
  rcases h with hmem | haged | hdisplaced
  · rcases put_held hwell.nodup (by decide) hwell.length_le hmem hne hnew with hput | hput
    · exact Or.inl hput
    · exact Or.inr (Or.inr hput)
  · exact Or.inr (Or.inl haged)
  · exact Or.inr (Or.inr (put_displaced hdisplaced hwell.nodup (by decide) hne hnew))

/-- The readings of the clock, and the cache after a call. -/
theorem CacheRun.next_eq_some {s s' : CacheRun} {call : StoreCall} (h : s.next lib call = some s') :
    s.clock ≤ call.now ∧ call.now ≤ call.loadNow ∧ s' = ⟨(s.cache.store lib call).2, call.loadNow⟩ := by
  unfold CacheRun.next at h
  split at h
  · rename_i hclock
    exact ⟨hclock.1, hclock.2, (Option.some.inj h).symm⟩
  · cases h

variable (lib) in
/-- A call that does not exchange the file for the scope. -/
def LeavesScope (scope : String) (s : CacheRun) (call : StoreCall) : Prop :=
  peerCacheScope lib call.initialPeers = scope → (s.cache.store lib call).2.file = s.cache.file

variable {s s' : CacheRun} {call : StoreCall}

/-- The entries that a reader returns of a kept file. -/
theorem Kept.loadScopes_eq (h : Kept lib scope stored s entries) {now : ℚ} (hnow : s.clock ≤ now) :
    loadScopes lib s.cache.file (toMs now) = .ok (readEntries (toMs now) entries) := by
  rw [h.file]
  exact loadScopes_rendered (h.wellFormed.mono (toMs_mono hnow)) h.size_le

/-- **A later call keeps a selection** of another scope, up to its age and its eviction. -/
theorem Kept.step (h : Kept lib scope stored s entries) (hleaves : LeavesScope lib scope s call)
    (hnext : s.next lib call = some s') : ∃ entries', Kept lib scope stored s' entries' := by
  obtain ⟨hclock, hload, rfl⟩ := CacheRun.next_eq_some hnext
  have hlater : toMs s.clock ≤ toMs call.loadNow := toMs_mono (hclock.trans hload)
  by_cases hsame : (s.cache.store lib call).2.file = s.cache.file
  · refine ⟨entries, hsame.trans h.file, h.size_le, h.wellFormed.mono hlater, h.saved_le.trans hlater, h.only, ?_⟩
    rcases h.held with hmem | haged | hdisplaced
    · exact Or.inl hmem
    · exact Or.inr (Or.inl (isFreshEntry_antitone haged hlater le_rfl))
    · exact Or.inr (Or.inr hdisplaced)
  · have hne : scope ≠ peerCacheScope lib call.initialPeers := fun heq => hsame (hleaves heq.symm)
    rcases store_cases lib s.cache call with ⟨heq, -⟩ | ⟨hfile, hsize, hselected⟩
    · exact absurd heq hsame
    have hread := h.loadScopes_eq (hclock.trans hload)
    have hbase : storedScopes lib s.cache.file call =
        put PeerEntry.savedAtMs maxPeerCacheScopes (peerCacheScope lib call.initialPeers)
          ⟨toMs call.now, selectPeers lib call.peers⟩ (readEntries (toMs call.loadNow) entries) := by
      unfold storedScopes
      rw [hread]
    refine ⟨_, hfile, hsize, wellFormed_storedScopes hload hselected, h.saved_le.trans hlater, fun e he hkey => ?_, ?_⟩
    · rw [hbase] at he
      rcases mem_of_mem_put he with rfl | ⟨hmem, -⟩
      · exact absurd hkey.symm hne
      · exact h.only e (mem_readEntries.mp hmem).1 hkey
    · rw [hbase]
      exact (h.held.read hlater).put (wellFormed_of_loadScopes hread) hne (h.saved_le.trans (toMs_mono hclock))

/-- So do later calls. -/
theorem Kept.reach (h : Kept lib scope stored s entries)
    (hreach : (peerCacheMachine lib).Reach (LeavesScope lib scope) s s') :
    ∃ entries', Kept lib scope stored s' entries' := by
  induction hreach with
  | refl => exact ⟨entries, h⟩
  | tail _ hleaves hnext ih =>
    obtain ⟨_, hkept⟩ := ih
    exact hkept.step hleaves hnext

/-- What a load returns of a kept file. -/
theorem Kept.load {initialPeers : List String} (h : Kept lib (peerCacheScope lib initialPeers) stored s entries)
    {now : ℚ} (hnow : s.clock ≤ now) :
    (isFreshEntry (toMs now) stored = false → s.cache.load lib initialPeers now = []) ∧
      (isFreshEntry (toMs now) stored = true → s.cache.load lib initialPeers now = stored.peers ∨
        s.cache.load lib initialPeers now = [] ∧ ∃ scopes, loadScopes lib s.cache.file (toMs now) = .ok scopes ∧
          Displaced PeerEntry.savedAtMs maxPeerCacheScopes (peerCacheScope lib initialPeers) stored.savedAtMs scopes) := by
  have hread := h.loadScopes_eq hnow
  have hload : s.cache.load lib initialPeers now =
      (((readEntries (toMs now) entries).lookup (peerCacheScope lib initialPeers)).map PeerEntry.peers).getD [] := by
    unfold PeerCache.load
    rw [hread]
  have hnodup := (wellFormed_of_loadScopes hread).nodup
  have habsent : peerCacheScope lib initialPeers ∉ (readEntries (toMs now) entries).map Prod.fst →
      s.cache.load lib initialPeers now = [] := by
    intro habsent
    have hnone : (readEntries (toMs now) entries).lookup (peerCacheScope lib initialPeers) = none :=
      List.lookup_eq_none_iff.mpr fun e he => bne_iff_ne.mpr fun heq => habsent (heq ▸ List.mem_map_of_mem he)
    rw [hload, hnone]
    rfl
  constructor
  · intro haged
    apply habsent
    intro hmem
    obtain ⟨e, he, hkey⟩ := List.mem_map.mp hmem
    obtain ⟨he, hfresh⟩ := mem_readEntries.mp he
    rw [h.only e he hkey, haged] at hfresh
    cases hfresh
  · intro hfresh
    rcases h.held.read (toMs_mono hnow) with hmem | haged | hdisplaced
    · left
      rw [hload, (Json.lookup_eq_some_iff hnodup).mpr hmem]
      rfl
    · rw [haged] at hfresh
      cases hfresh
    · exact Or.inr ⟨habsent hdisplaced.absent, _, hread, hdisplaced⟩

/-- What a call that returns that it stored leaves. -/
theorem kept_of_store (hnext : s.next lib call = some s') (htrue : (s.cache.store lib call).1 = .ok true) :
    ∃ entries, Kept lib (peerCacheScope lib call.initialPeers) ⟨toMs call.now, selectPeers lib call.peers⟩ s' entries := by
  obtain ⟨-, hload, rfl⟩ := CacheRun.next_eq_some hnext
  rcases store_cases lib s.cache call with ⟨-, hnot⟩ | ⟨hfile, hsize, hselected⟩
  · exact absurd htrue hnot
  obtain ⟨base, -, heq⟩ := storedScopes_eq lib s.cache.file call
  refine ⟨_, hfile, hsize, wellFormed_storedScopes hload hselected, toMs_mono hload, fun e he hkey => ?_, Or.inl ?_⟩
  · rw [heq] at he
    rcases mem_of_mem_put he with rfl | ⟨-, hne⟩
    · rfl
    · exact absurd hkey hne
  · rw [heq]
    exact mem_put_self

/-- **The cache stays loadable and bounded, and a stored selection is loaded** until it ages out or is evicted.
Whatever the file is and whatever was called before, a call that returns that it stored leaves a file that is
accepted from then on and is within the bounds; and after any further calls that do not store for the scope, a load
for it returns the selection, or nothing: where it has aged out, or where the file is full of other scopes that are
not older. -/
theorem peer_cache_stays_loadable (lib : CacheLibrary) {s s' : CacheRun} {call : StoreCall}
    (hnext : (peerCacheMachine lib).next s call = some s') (htrue : (s.cache.store lib call).1 = .ok true) :
    (∃ entries, s'.cache.file = .text (rendered entries) ∧ (rendered entries).utf8ByteSize ≤ maxPeerCacheBytes ∧
      WellFormed lib (toMs s'.clock) entries ∧
      ∀ now, s'.clock ≤ now → loadScopes lib s'.cache.file (toMs now) = .ok (readEntries (toMs now) entries)) ∧
    ∀ s'', (peerCacheMachine lib).Reach (LeavesScope lib (peerCacheScope lib call.initialPeers)) s' s'' →
      ∀ now, s''.clock ≤ now →
        (isFreshEntry (toMs now) ⟨toMs call.now, selectPeers lib call.peers⟩ = false →
          s''.cache.load lib call.initialPeers now = []) ∧
        (isFreshEntry (toMs now) ⟨toMs call.now, selectPeers lib call.peers⟩ = true →
          s''.cache.load lib call.initialPeers now = selectPeers lib call.peers ∨
          s''.cache.load lib call.initialPeers now = [] ∧
            ∃ scopes, loadScopes lib s''.cache.file (toMs now) = .ok scopes ∧
              Displaced PeerEntry.savedAtMs maxPeerCacheScopes (peerCacheScope lib call.initialPeers)
                (toMs call.now) scopes) := by
  obtain ⟨entries, hkept⟩ := kept_of_store hnext htrue
  refine ⟨⟨entries, hkept.file, hkept.size_le, hkept.wellFormed, fun now hnow => hkept.loadScopes_eq hnow⟩, ?_⟩
  intro s'' hlater now hnow
  obtain ⟨entries', hkept'⟩ := hkept.reach hlater
  exact hkept'.load hnow

/-- The address that the sample call stores. -/
def samplePeer : String := "/ip4/8.8.8.8/tcp/31337/p2p/QmAAAAAAAAAAAAAAAAAAAAAAAAAAAAAAAAAAAAAAAAAAAA"

/-- The libraries, as far as the sample call asks them: no seeds, and one peer. -/
def sampleCacheLibrary : CacheLibrary where
  loads s := (Json.loads s).filter Json.distinctKeys
  sha256Hex _ := "4f53cda18c2baa0c0354bb5f9a3ecbe5ed12ab4d8e11ba873c2f11161202b945"
  canonicalPeerId id := id == ("QmAAAAAAAAAAAAAAAAAAAAAAAAAAAAAAAAAAAAAAAAAAAA").toList
  isGlobal host := host == ("8.8.8.8").toList
  loads_dumps j hplain hdistinct := by
    rw [Json.loads_dumps hplain "\n" rfl, Option.filter_some, Json.distinctKeys_sortKeys j hdistinct]
    rfl
  loads_distinct s j h := (Option.filter_eq_some_iff.mp h).2
  sha256Hex_digest _ := by decide

/-- The call at the epoch, on a fresh start. -/
def sampleStoreCall : StoreCall := ⟨[], [samplePeer], 0, 0, .written⟩

def samplePeerCache : PeerCache := ⟨.missing, ∅⟩

theorem store_sampleStoreCall : (samplePeerCache.store sampleCacheLibrary sampleStoreCall).1 = .ok true := by
  decide +kernel

/-- The cache before and after the sample call. -/
def freshRun : CacheRun := ⟨samplePeerCache, 0⟩

def storedRun : CacheRun := ⟨(freshRun.cache.store sampleCacheLibrary sampleStoreCall).2, sampleStoreCall.loadNow⟩

theorem next_sampleStoreCall : (peerCacheMachine sampleCacheLibrary).next freshRun sampleStoreCall = some storedRun := by
  show CacheRun.next sampleCacheLibrary freshRun sampleStoreCall = some storedRun
  unfold CacheRun.next
  rw [if_pos ⟨le_rfl, le_rfl⟩]
  rfl

/-- The file of the sample call is accepted from then on, and its address is not loaded past its age. -/
theorem peer_cache_stays_loadable_of_sample :
    (∀ now, storedRun.clock ≤ now →
      ∃ scopes, loadScopes sampleCacheLibrary storedRun.cache.file (toMs now) = .ok scopes) ∧
    ∀ now, storedRun.clock ≤ now →
      isFreshEntry (toMs now) ⟨toMs sampleStoreCall.now, selectPeers sampleCacheLibrary sampleStoreCall.peers⟩ = false →
        storedRun.cache.load sampleCacheLibrary sampleStoreCall.initialPeers now = [] := by
  obtain ⟨⟨entries, -, -, -, haccepted⟩, hload⟩ :=
    peer_cache_stays_loadable sampleCacheLibrary next_sampleStoreCall store_sampleStoreCall
  exact ⟨fun now hnow => ⟨_, haccepted now hnow⟩, fun now hnow => (hload _ .refl now hnow).1⟩

end Drift.Node
