import Drift.Identity.Records
import Drift.Lib.Dict
import Drift.Lib.JsonText
import Drift.Lib.Machine

/-!
# The API key store

A node keeps the hashes of its bearer keys in one JSON file, which it replaces at every change. The
loader is strict and is written apart from the writer: it checks each field of each record, and refuses
the whole file where one of them is not what it asks for.

* `load` — the loader, from the text of the file;
* `writeLocked` — the replacement of the file, and how it can go wrong;
* `ensureKey`, `create`, `updateLabel`, `revoke` — the mutations, each with its own undo.

The wall clock is an argument of each call, as are the random tokens. The SHA-256 digest and
`str.casefold` are parameters. A text is a string without surrogates.
-/

namespace Drift.Node

open Drift.Lib Drift.Identity

def apiKeyStoreSchemaVersion : Int := 1

/-- The exceptions of the store, by their class. -/
inductive KeyStoreError
  | apiKeyStoreError (message : String)
  /-- `ApiKeyNotFoundError`, which names the key. -/
  | notFound (keyId : String)
  | lastActive (message : String)
  /-- What the write raised. -/
  | writeFailed
  deriving DecidableEq, Repr

/-- Sixteen lower-case hexadecimal digits. -/
def isToken (cs : List Char) : Bool :=
  cs.length == 16 && cs.all fun c => "0123456789abcdef".toList.contains c

def keyPrefix : String := "key_"

/-- `_KEY_ID_RE.fullmatch`. -/
def isKeyId (s : String) : Bool :=
  keyPrefix.toList.isPrefixOf s.toList && isToken (s.toList.drop keyPrefix.toList.length)

/-- What `secrets.token_hex(8)` returns. -/
structure HexToken where
  digits : String
  hex : isToken digits.toList = true

/-- `_key_hash`, and `str.casefold`. -/
structure KeyLibrary where
  keyHash : String → String
  casefold : String → String
  /-- A hexadecimal digest has 64 lower-case digits. -/
  keyHash_digest : ∀ secret, isDigest (keyHash secret) = true
  /-- Lower-case letters, digits and underscores are their own folding. -/
  casefold_id : ∀ s, isKeyId s = true → casefold s = s

/-- `_ApiKeyRecord`. -/
structure ApiKeyRecord where
  keyId : String
  label : String
  secretHash : String
  createdAt : Int
  revokedAt : Option Int
  deriving DecidableEq, Repr

/-- What `metadata` tells of a record. -/
structure KeyMetadata where
  id : String
  label : String
  fingerprint : String
  createdAt : Int
  revokedAt : Option Int
  deriving DecidableEq, Repr

/-- `metadata`. -/
def ApiKeyRecord.metadata (r : ApiKeyRecord) : KeyMetadata :=
  ⟨r.keyId, r.label, String.ofList (r.secretHash.toList.take 12), r.createdAt, r.revokedAt⟩

abbrev KeyRecords := Dict String ApiKeyRecord

/-- The store: `_records`, and the text of its file where there is one. -/
structure ApiKeyStore where
  records : KeyRecords
  file : Option String

/-! ### Loading -/

/-- `raise ApiKeyStoreError(message)` where the condition holds. -/
def keyRefuseIf (condition : Bool) (message : String) : Except KeyStoreError Unit :=
  if condition then .error (.apiKeyStoreError message) else .ok ()

def keyRecordFields : List String := ["id", "label", "secret_hash", "created_at", "revoked_at"]

/-- One record of the file. -/
def readKeyRecord (index : Nat) (item : Json) : Except KeyStoreError ApiKeyRecord := do
  let .obj fields := item
    | .error (.apiKeyStoreError s!"API key store keys[{index}] has invalid fields")
  keyRefuseIf (!Json.hasExactly fields keyRecordFields)
    s!"API key store keys[{index}] has invalid fields"
  let some (.str keyId) := fields.lookup "id"
    | .error (.apiKeyStoreError s!"API key store keys[{index}].id is invalid")
  keyRefuseIf (!isKeyId keyId) s!"API key store keys[{index}].id is invalid"
  let some (.str label) := fields.lookup "label"
    | .error (.apiKeyStoreError s!"API key store keys[{index}].label is invalid")
  keyRefuseIf (label == "" || decide (64 < label.length))
    s!"API key store keys[{index}].label is invalid"
  let some (.str secretHash) := fields.lookup "secret_hash"
    | .error (.apiKeyStoreError s!"API key store keys[{index}].secret_hash is invalid")
  keyRefuseIf (!isDigest secretHash) s!"API key store keys[{index}].secret_hash is invalid"
  let some (.int createdAt) := fields.lookup "created_at"
    | .error (.apiKeyStoreError s!"API key store keys[{index}].created_at is invalid")
  keyRefuseIf (decide (createdAt < 0)) s!"API key store keys[{index}].created_at is invalid"
  match fields.lookup "revoked_at" with
  | some .null => pure ⟨keyId, label, secretHash, createdAt, none⟩
  | some (.int revokedAt) =>
    keyRefuseIf (decide (revokedAt < createdAt)) s!"API key store keys[{index}].revoked_at is invalid"
    pure ⟨keyId, label, secretHash, createdAt, some revokedAt⟩
  | _ => .error (.apiKeyStoreError s!"API key store keys[{index}].revoked_at is invalid")

/-- The records of the file, one after the other. -/
def readKeyRecords (lib : KeyLibrary) : Nat → List Json → KeyRecords → Except KeyStoreError KeyRecords
  | _, [], records => .ok records
  | index, item :: items, records => do
    let record ← readKeyRecord index item
    let normalized := lib.casefold record.keyId
    keyRefuseIf (records.lookup normalized).isSome
      s!"API key store contains duplicate id '{record.keyId}'"
    readKeyRecords lib (index + 1) items (records.insert normalized record)

/-- `_load`. -/
def load (lib : KeyLibrary) (file : Option String) : Except KeyStoreError KeyRecords :=
  match file with
  | none => .ok ∅
  | some text =>
    match Json.loads text with
    | none => .error (.apiKeyStoreError "Could not read API key store")
    | some source => do
      keyRefuseIf (!source.distinctKeys) "API key store contains duplicate object key"
      let .obj fields := source
        | .error (.apiKeyStoreError "API key store must contain exactly schema_version and keys")
      keyRefuseIf (!Json.hasExactly fields ["schema_version", "keys"])
        "API key store must contain exactly schema_version and keys"
      let some (.int version) := fields.lookup "schema_version"
        | .error (.apiKeyStoreError "Unsupported API key store schema_version")
      keyRefuseIf (version != apiKeyStoreSchemaVersion) "Unsupported API key store schema_version"
      let some (.arr items) := fields.lookup "keys"
        | .error (.apiKeyStoreError "API key store keys must be an array")
      readKeyRecords lib 0 items ∅

/-! ### Writing -/

/-- A record as it is written. -/
def ApiKeyRecord.toDict (r : ApiKeyRecord) : Json :=
  .obj [("id", .str r.keyId), ("label", .str r.label), ("secret_hash", .str r.secretHash),
    ("created_at", .int r.createdAt),
    ("revoked_at", match r.revokedAt with | none => .null | some t => .int t)]

/-- `sorted(self._records.values(), key=lambda item: item.key_id)`. -/
def sortedRecords (records : KeyRecords) : List ApiKeyRecord :=
  (records.items.map Prod.snd).insertionSort fun a b => a.keyId ≤ b.keyId

/-- The document of the file. -/
def keyDocument (records : KeyRecords) : Json :=
  .obj [("schema_version", .int apiKeyStoreSchemaVersion),
    ("keys", .arr ((sortedRecords records).map ApiKeyRecord.toDict))]

/-- The text of the file. -/
def keyText (records : KeyRecords) : String := (keyDocument records).dumps ++ "\n"

/-- How a write ends: it returns, it raises before the renaming, or it is interrupted after it. -/
inductive KeyWriteOutcome
  | done
  | failed
  | interrupted
  deriving DecidableEq, Repr

/-- `_write_locked`: the file after it, and whether it returns. -/
def writeLocked (records : KeyRecords) (file : Option String) : KeyWriteOutcome → Option String × Bool
  | .done => (some (keyText records), true)
  | .failed => (file, false)
  | .interrupted => (some (keyText records), false)

/-! ### Labels -/

/-- White space, as `str.strip` has it. -/
def isWhitespace (c : Char) : Bool :=
  let n := c.toNat
  decide (9 ≤ n ∧ n ≤ 13 ∨ 28 ≤ n ∧ n ≤ 32 ∨ n = 0x85 ∨ n = 0xa0 ∨ n = 0x1680 ∨ 0x2000 ≤ n ∧ n ≤ 0x200a ∨
    n = 0x2028 ∨ n = 0x2029 ∨ n = 0x202f ∨ n = 0x205f ∨ n = 0x3000)

/-- `str.strip`. -/
def strip (s : String) : String :=
  String.ofList ((s.toList.dropWhile isWhitespace).rdropWhile isWhitespace)

/-- `_validate_label`. -/
def validateLabel (label : String) : Except KeyStoreError String :=
  if strip label = "" ∨ 64 < label.length then
    .error (.apiKeyStoreError "API key label must be a non-empty string of at most 64 characters")
  else .ok (strip label)

/-! ### The operations -/

namespace ApiKeyStore

variable (lib : KeyLibrary) (s : ApiKeyStore)

/-- `ensure_key`, for a text. -/
def ensureKey (secret label : String) (token : HexToken) (now : Int) (write : KeyWriteOutcome) :
    Except KeyStoreError KeyMetadata × ApiKeyStore :=
  if secret = "" then (.error (.apiKeyStoreError "API key secret must not be empty"), s)
  else
    match validateLabel label with
    | .error e => (.error e, s)
    | .ok label =>
      let secretHash := lib.keyHash secret
      match s.records.items.find? (fun e => e.2.secretHash == secretHash) with
      | some (_, record) =>
        if record.revokedAt.isSome then
          (.error (.apiKeyStoreError "a revoked API key cannot be imported again"), s)
        else (.ok record.metadata, s)
      | none =>
        let record : ApiKeyRecord := ⟨keyPrefix ++ token.digits, label, secretHash, now, none⟩
        let key := lib.casefold record.keyId
        let records := s.records.insert key record
        match writeLocked records s.file write with
        | (file, true) => (.ok record.metadata, ⟨records, file⟩)
        | (file, false) => (.error .writeFailed, ⟨records.erase key, file⟩)

/-- `create`, for the random part of the secret. -/
def create (random label : String) (token : HexToken) (now : Int) (write : KeyWriteOutcome) :
    Except KeyStoreError (KeyMetadata × String) × ApiKeyStore :=
  let secret := "drift_" ++ random
  let result := s.ensureKey lib secret label token now write
  (result.1.map fun metadata => (metadata, secret), result.2)

/-- `verify`. -/
def verify (candidate : String) : Bool :=
  candidate != "" && s.records.items.any fun e =>
    e.2.revokedAt.isNone && e.2.secretHash == lib.keyHash candidate

/-- `update_label`. -/
def updateLabel (keyId label : String) (write : KeyWriteOutcome) :
    Except KeyStoreError KeyMetadata × ApiKeyStore :=
  match validateLabel label with
  | .error e => (.error e, s)
  | .ok label =>
    let key := lib.casefold keyId
    match s.records.lookup key with
    | none => (.error (.notFound keyId), s)
    | some record =>
      let updated := { record with label := label }
      let records := s.records.insert key updated
      match writeLocked records s.file write with
      | (file, true) => (.ok updated.metadata, ⟨records, file⟩)
      | (file, false) =>
        (.error .writeFailed, ⟨records.insert key { updated with label := record.label }, file⟩)

/-- `revoke`. -/
def revoke (keyId : String) (now : Int) (write : KeyWriteOutcome) :
    Except KeyStoreError KeyMetadata × ApiKeyStore :=
  let key := lib.casefold keyId
  match s.records.lookup key with
  | none => (.error (.notFound keyId), s)
  | some record =>
    if record.revokedAt.isSome then (.ok record.metadata, s)
    else if (s.records.items.filter fun e => e.2.revokedAt.isNone).length ≤ 1 then
      (.error (.lastActive "cannot revoke the last active API key"), s)
    else
      let updated := { record with revokedAt := some now }
      let records := s.records.insert key updated
      match writeLocked records s.file write with
      | (file, true) => (.ok updated.metadata, ⟨records, file⟩)
      | (file, false) =>
        (.error .writeFailed, ⟨records.insert key { updated with revokedAt := none }, file⟩)

end ApiKeyStore

/-! ### Runs of a store -/

/-- An operation of the store, or a restart of the node. -/
inductive KeyEvent
  | ensureKey (secret label : String) (token : HexToken) (now : Int) (write : KeyWriteOutcome)
  | create (random label : String) (token : HexToken) (now : Int) (write : KeyWriteOutcome)
  | updateLabel (keyId label : String) (write : KeyWriteOutcome)
  | revoke (keyId : String) (now : Int) (write : KeyWriteOutcome)
  | restart

/-- Stores as a machine. A restart reads the file, and fails where the loader refuses it. -/
def keyMachine (lib : KeyLibrary) : Machine ApiKeyStore KeyEvent where
  next s
    | .ensureKey secret label token now write => some (s.ensureKey lib secret label token now write).2
    | .create random label token now write => some (s.create lib random label token now write).2
    | .updateLabel keyId label write => some (s.updateLabel lib keyId label write).2
    | .revoke keyId now write => some (s.revoke lib keyId now write).2
    | .restart =>
      match load lib s.file with
      | .ok records => some { s with records := records }
      | .error _ => none

end Drift.Node
