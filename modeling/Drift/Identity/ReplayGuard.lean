import Drift.Lib.Dict
import Drift.Identity.Records
import Mathlib.Data.Prod.Lex

/-!
# The replay guard

`ReplayGuard` remembers, for every scope `(kind, key_id)`, the newest record it accepted, and rejects
what is older. A guard with a path also writes every change to a file and reads it back when it is
re-created, so the model has two parts of state: the object (`ReplayGuard`) and what is on disk
(`HistoryFile`). The clock is an argument of every operation, in milliseconds, as is the outcome of
the file write.
-/

namespace Drift.Identity

open Drift.Lib

def replayHistorySchemaVersion : Int := 1
def maxReplayHistoryBytes : Nat := 256 * 1024
def maxReplayHistoryEntries : Nat := 256

theorem maxReplayHistoryEntries_pos : 0 < maxReplayHistoryEntries := by decide

/-- `(kind, key_id)`: what a watermark is kept for. -/
abbrev Scope := String × String

/-- `(issued_at_ms, sequence)`, compared lexicographically as Python compares tuples. -/
abbrev RecordOrder := ℤ ×ₗ ℤ

/-- One value of the `_latest` dictionary. -/
structure Watermark where
  issuedAtMs : Int
  sequence : Int
  recordDigest : String
  retainUntilMs : Int
  deriving DecidableEq, Repr

/-- `item[:2]`. -/
def Watermark.order (w : Watermark) : RecordOrder := toLex (w.issuedAtMs, w.sequence)

/-- `{key: item for key, item in latest.items() if item[3] > now_ms}`. -/
def live (nowMs : Int) (latest : Dict Scope Watermark) : Dict Scope Watermark :=
  latest.keep fun w => decide (w.retainUntilMs > nowMs)

/-- What `_load` and `_persist` find at the guard's path. The parent directory and the path itself
may be something else than a directory and a regular file; a regular file has a size and the document
its text decodes to, `none` where the strict decoding raises. -/
inductive HistoryFile
  | missing
  | irregularDirectory
  | irregularPath
  | regular (sizeBytes : Nat) (document : Option Json)

/-- `ReplayGuard`. The constructor refuses an entry limit that is not positive. -/
structure ReplayGuard where
  path : Option String
  maxEntries : Nat
  maxEntries_pos : 0 < maxEntries
  latest : Dict Scope Watermark

/-! ### Reading the file -/

def historyEntryFields : List String :=
  ["kind", "key_id", "issued_at_ms", "sequence", "record_digest", "retain_until_ms"]

/-- One entry of the file: its scope and its watermark, after the checks of `_load`. -/
def loadEntry (prim : Primitives) (entry : Json) : Checked (Scope × Watermark) := do
  let .obj fields := entry | refuse "replay history entry schema is invalid"
  refuseIf (!Json.hasExactly fields historyEntryFields) "replay history entry schema is invalid"
  let kind ← requireText prim (fields.lookup "kind") "replay history kind"
  refuseIf (kind.length > 64) "replay history kind is too long"
  let keyId ← requireKeyId prim (fields.lookup "key_id") "replay history key_id"
  let issuedAtMs ← requireInt (fields.lookup "issued_at_ms") "issued_at_ms" (some 0)
  let sequence ← requireInt (fields.lookup "sequence") "sequence" (some 0)
  let recordDigest ← requireDigest prim (fields.lookup "record_digest") "record_digest"
  let retainUntilMs ← requireInt (fields.lookup "retain_until_ms") "retain_until_ms" (some 0)
  refuseIf (retainUntilMs ≤ issuedAtMs) "replay history entry retention ends before it was issued"
  pure ((kind, keyId), ⟨issuedAtMs, sequence, recordDigest, retainUntilMs⟩)

/-- The loop of `_load` over the entries: an entry that is past its retention is checked and
dropped. -/
def loadEntries (prim : Primitives) (nowMs : Int) (latest : Dict Scope Watermark) :
    List Json → Checked (Dict Scope Watermark)
  | [] => .ok latest
  | entry :: rest => do
    let (scope, w) ← loadEntry prim entry
    refuseIf (decide (scope ∈ latest)) "replay history contains a duplicate identity scope"
    loadEntries prim nowMs (if w.retainUntilMs > nowMs then latest.insert scope w else latest) rest

/-- The part of `_load` after the file was decoded. -/
def loadDocument (prim : Primitives) (maxEntries : Nat) (nowMs : Int) (document : Json) :
    Checked (Dict Scope Watermark) := do
  let .obj source := document | refuse "replay history must be a JSON object"
  let versionOk := match source.lookup "schema_version" with
    | some (.bool _) => false
    | some v => v.equalsInt replayHistorySchemaVersion
    | none => false
  refuseIf (!Json.hasExactly source ["schema_version", "entries"] || !versionOk)
    "replay history schema is invalid"
  let some (.arr entries) := source.lookup "entries"
    | refuse "replay history entry list is invalid"
  refuseIf (entries.length > maxEntries) "replay history entry list is invalid"
  loadEntries prim nowMs ∅ entries

/-- `ReplayGuard._load` through `_reload`, at the clock reading `nowMs`. -/
def ReplayGuard.load (prim : Primitives) (g : ReplayGuard) (file : HistoryFile) (nowMs : Int) :
    Checked (Dict Scope Watermark) :=
  if g.path.isNone then .ok ∅
  else match file with
    | .missing => .ok ∅
    | .irregularDirectory => refuse "replay history directory is not a regular directory"
    | .irregularPath => refuse "replay history path is not a regular file"
    | .regular sizeBytes document =>
      if sizeBytes > maxReplayHistoryBytes then refuse "replay history exceeds its byte limit"
      else match document with
        | none => refuse "replay history could not be loaded safely"
        | some doc => loadDocument prim g.maxEntries nowMs doc

/-- `ReplayGuard(path, max_entries)`: a new guard, or the refusal of the file it was to read. -/
def ReplayGuard.create (prim : Primitives) (path : Option String) (maxEntries : Nat)
    (hpos : 0 < maxEntries) (file : HistoryFile) (nowMs : Int) : Checked ReplayGuard := do
  let fresh : ReplayGuard := ⟨path, maxEntries, hpos, ∅⟩
  let latest ← fresh.load prim file nowMs
  pure { fresh with latest }

/-! ### Writing the file -/

/-- How the write of a snapshot ends: the file is replaced, or the write raises and leaves the old
file, or it raises when the file was already replaced (a crash right after the exchange). -/
inductive WriteOutcome
  | written
  | failed
  | failedAfterReplace
  deriving DecidableEq

/-- One entry of the rendered file. -/
def entryJson (e : Scope × Watermark) : Json :=
  .obj [("kind", .str e.1.1), ("key_id", .str e.1.2), ("issued_at_ms", .int e.2.issuedAtMs),
    ("sequence", .int e.2.sequence), ("record_digest", .str e.2.recordDigest),
    ("retain_until_ms", .int e.2.retainUntilMs)]

/-- `sorted(latest.items())`: by kind, then by key id. -/
def sortedItems (latest : Dict Scope Watermark) : List (Scope × Watermark) :=
  (latest.entries.map fun e => (e.1, e.2)).insertionSort fun a b =>
    a.1.1 < b.1.1 ∨ (a.1.1 = b.1.1 ∧ a.1.2 ≤ b.1.2)

/-- The document `_persist` writes. -/
def historyDocument (latest : Dict Scope Watermark) : Json :=
  .obj [("schema_version", .int replayHistorySchemaVersion),
    ("entries", .arr ((sortedItems latest).map entryJson))]

/-- The size of the rendered document with its final newline. -/
def renderedBytes (document : Json) : Nat := (document.dumps ++ "\n").utf8ByteSize

/-- `ReplayGuard._persist`: the result and the file it leaves. -/
def ReplayGuard.persist (g : ReplayGuard) (latest : Dict Scope Watermark) (file : HistoryFile)
    (outcome : WriteOutcome) : Checked Unit × HistoryFile :=
  if g.path.isNone then (.ok (), file)
  else
    let document := historyDocument latest
    let replaced := HistoryFile.regular (renderedBytes document) (some document)
    match file with
    | .irregularPath => (refuse "replay history path is not a regular file", file)
    | .irregularDirectory =>
      if renderedBytes document > maxReplayHistoryBytes then
        (refuse "rendered replay history exceeds its byte limit", file)
      else (refuse "replay history directory is not a regular directory", file)
    | _ =>
      if renderedBytes document > maxReplayHistoryBytes then
        (refuse "rendered replay history exceeds its byte limit", file)
      else match outcome with
        | .written => (.ok (), replaced)
        | .failed => (refuse "replay history could not be persisted safely", file)
        | .failedAfterReplace => (refuse "replay history could not be persisted safely", replaced)

/-! ### The check -/

/-- The retention that a kind of record needs. -/
def maximumTtlSeconds (kind : String) : Int :=
  if kind = "route_demand" then routeDemandMaxTtlSeconds else maxSignedRecordTtlSeconds

/-- The watermark a record leaves. -/
def watermarkOf (prim : Primitives) (r : SignedRecord) (issuedAtMs expiresAtMs sequence : Int) :
    Watermark where
  issuedAtMs := issuedAtMs
  sequence := sequence
  recordDigest := r.digest prim
  retainUntilMs := max expiresAtMs (issuedAtMs + maximumTtlSeconds r.kind * 1000)

/-- The comparison of `check` with the current watermark of the scope. -/
def compareWatermark (current : Option Watermark) (w : Watermark) : Checked Unit :=
  match current with
  | none => .ok ()
  | some c =>
    if w.order < c.order then
      refuse "signed record is older than a record already observed for this identity"
    else if w.order = c.order ∧ w.recordDigest ≠ c.recordDigest then
      refuse "identity equivocated by signing different records at one sequence"
    else .ok ()

/-- `current is None or order > current[:2]`. -/
def advances (current : Option Watermark) (w : Watermark) : Bool :=
  match current with
  | none => true
  | some c => decide (w.order > c.order)

/-- The dictionary `check` continues with once the comparison passed: a newer record takes its
scope. -/
def admitted (latest : Dict Scope Watermark) (scope : Scope) (w : Watermark) :
    Dict Scope Watermark :=
  if advances (latest.lookup scope) w then latest.insert scope w else latest

/-- `changed`: an entry was pruned, or the record takes its scope. -/
def ReplayGuard.changes (g : ReplayGuard) (nowMs : Int) (scope : Scope) (w : Watermark) : Bool :=
  decide ((live nowMs g.latest).entries ≠ g.latest.entries) ||
    advances ((live nowMs g.latest).lookup scope) w

/-- The part of `ReplayGuard.check` that holds the lock. -/
def ReplayGuard.admitLocked (g : ReplayGuard) (file : HistoryFile) (nowMs : Int) (outcome : WriteOutcome)
    (scope : Scope) (w : Watermark) : Checked Unit × ReplayGuard × HistoryFile :=
  let latest := live nowMs g.latest
  match compareWatermark (latest.lookup scope) w with
  | .error e => (.error e, g, file)
  | .ok () =>
    let updated := admitted latest scope w
    if updated.entries.length > g.maxEntries then
      (refuse "replay history reached its active entry limit", g, file)
    else if g.changes nowMs scope w then
      match g.persist updated file outcome with
      | (.ok (), file') => (.ok (), { g with latest := updated }, file')
      | (.error e, file') => (.error e, g, file')
    else (.ok (), g, file)

/-- `ReplayGuard.check`, at the clock reading `nowMs`. -/
def ReplayGuard.check (prim : Primitives) (g : ReplayGuard) (file : HistoryFile) (nowMs : Int)
    (outcome : WriteOutcome) (r : SignedRecord) : Checked Unit × ReplayGuard × HistoryFile :=
  match requireInt (r.payload.lookup "issued_at_ms") "issued_at_ms" (some 0),
      requireInt (r.payload.lookup "expires_at_ms") "expires_at_ms" (some 0),
      requireInt (r.payload.lookup "sequence") "sequence" (some 0) with
  | .ok issuedAtMs, .ok expiresAtMs, .ok sequence =>
    g.admitLocked file nowMs outcome (r.kind, r.keyId) (watermarkOf prim r issuedAtMs expiresAtMs sequence)
  | .error e, _, _ => (.error e, g, file)
  | .ok _, .error e, _ => (.error e, g, file)
  | .ok _, .ok _, .error e => (.error e, g, file)

end Drift.Identity
