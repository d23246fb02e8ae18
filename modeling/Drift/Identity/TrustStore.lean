import Drift.Identity.Verification
import Drift.Lib.Chains

/-!
# The store of rotations and revocations

`RevocationStore.from_records` reads a bundle of trust records: rotations, by which a key names its
successor, and revocations, which a key signs for itself or for one that it has succeeded. The rotations
are taken in first, and must not fork nor form a cycle; each revocation is then checked against them.

* `verifyRotationRecord`, `TrustStore.addRotation`, `TrustStore.addRevocation` — one record;
* `TrustStore.fromRecords` — a bundle.
-/

namespace Drift.Identity

open Drift.Lib

/-- `RevocationStore`, with all its fields. -/
structure TrustStore extends RevocationStore where
  successors : Dict String String
  peerIds : Dict String String

/-- `_require_text` with `allow_empty=True`. -/
def requireTextAllowEmpty (prim : Primitives) (value : Option Json) (name : String) :
    Checked String :=
  match value with
  | some (.str s) => if !prim.isNfc s then refuse s!"{name} must be NFC-normalized" else .ok s
  | _ => refuse s!"{name} must be a string"

/-! ### Rotations -/

def rotationFields : List String := ["schema_version", "kind", "payload", "old_proof", "new_proof"]

def rotationPayloadFields : List String :=
  ["old_key_id", "old_peer_id", "new_key_id", "new_peer_id", "issued_at_ms", "sequence"]

/-- `source[name]`, for an object that has the field. -/
def field (source : List (String × Json)) (name : String) : Json :=
  (source.lookup name).getD .null

/-- `verify_rotation_record`. -/
def verifyRotationRecord (prim : Primitives) (source : List (String × Json)) :
    Checked (String × String) := do
  strictFields source rotationFields "identity rotation"
  refuseIf (!fieldEquals source "schema_version" (.int signedRecordSchemaVersion) ||
      !fieldEquals source "kind" (.str "identity_rotation"))
    "unsupported identity rotation record"
  let .obj payload := field source "payload"
    | refuse "identity rotation payload must be an object"
  normalizeJson prim "identity rotation payload" (.obj payload)
  strictFields payload rotationPayloadFields "identity rotation payload"
  let oldProof ← SignedRecord.fromDict prim (field source "old_proof")
  let newProof ← SignedRecord.fromDict prim (field source "new_proof")
  oldProof.verify prim "identity_rotation_old"
  newProof.verify prim "identity_rotation_new"
  refuseIf (!(Json.obj oldProof.payload).pyEq (.obj payload) ||
      !(Json.obj newProof.payload).pyEq (.obj payload))
    "identity rotation proofs do not cover the same payload"
  let _ ← requireKeyId prim (payload.lookup "old_key_id") "old_key_id"
  let _ ← requireKeyId prim (payload.lookup "new_key_id") "new_key_id"
  let oldPeerId ← oldProof.peerId prim
  refuseIf (!fieldEquals payload "old_key_id" (.str oldProof.keyId) ||
      !fieldEquals payload "old_peer_id" (.str oldPeerId))
    "identity rotation old proof does not match the old identity"
  let newPeerId ← newProof.peerId prim
  refuseIf (!fieldEquals payload "new_key_id" (.str newProof.keyId) ||
      !fieldEquals payload "new_peer_id" (.str newPeerId))
    "identity rotation new proof does not match the new identity"
  refuseIf (oldProof.keyId == newProof.keyId) "identity rotation must change the key"
  let _ ← requireInt (payload.lookup "issued_at_ms") "issued_at_ms" (some 0)
  let _ ← requireInt (payload.lookup "sequence") "sequence" (some 0)
  pure (oldProof.keyId, newProof.keyId)

/-- `rotation["payload"][name]`, a text in a record that has been verified. -/
def payloadText (rotation : List (String × Json)) (name : String) : String :=
  match field rotation "payload" with
  | .obj payload =>
    match field payload name with
    | .str s => s
    | _ => ""
  | _ => ""

namespace TrustStore

/-- `cls()`. -/
def empty : TrustStore := ⟨⟨[]⟩, ∅, ∅⟩

/-- The assignments for a rotation from one key to another. -/
def rotate (store : TrustStore) (oldKeyId newKeyId oldPeerId newPeerId : String) : TrustStore :=
  { store with
    successors := store.successors.insert oldKeyId newKeyId
    peerIds := (store.peerIds.insert oldKeyId oldPeerId).insert newKeyId newPeerId }

/-- The body of the loop over the rotations. -/
def addRotation (prim : Primitives) (store : TrustStore) (rotation : List (String × Json)) :
    Checked TrustStore := do
  let (oldKeyId, newKeyId) ← verifyRotationRecord prim rotation
  refuseIf ((store.successors.lookup oldKeyId).any (· != newKeyId))
    "identity rotation forks to multiple successor keys"
  pure (store.rotate oldKeyId newKeyId (payloadText rotation "old_peer_id")
    (payloadText rotation "new_peer_id"))

/-- The loop that looks for a cycle. -/
def checkCycles (store : TrustStore) : Checked Unit :=
  store.successors.keys.forM fun predecessor =>
    refuseIf (store.successors.comesBack [] predecessor) "identity rotation chain contains a cycle"

/-- `_is_successor`. -/
def isSuccessor (store : TrustStore) (candidate predecessor : String) : Bool :=
  store.successors.passes candidate [] predecessor

/-! ### Revocations -/

def revocationPayloadFields : List String :=
  ["authority_key_id", "revoked_key_id", "revoked_peer_id", "issued_at_ms", "sequence", "reason"]

/-- The PeerID that a revocation has to name, where it is known. -/
def expectedPeerId (prim : Primitives) (store : TrustStore) (record : SignedRecord)
    (revoked : String) : Checked (Option String) :=
  if record.keyId = revoked then some <$> record.peerId prim
  else pure (store.peerIds.lookup revoked)

/-- The body of the loop over the revocations, up to the assignment: the key that is revoked. -/
def checkRevocation (prim : Primitives) (store : TrustStore) (revocation : List (String × Json)) :
    Checked String := do
  let record ← SignedRecord.fromDict prim (.obj revocation)
  record.verify prim "identity_revocation"
  let payload := record.payload
  strictFields payload revocationPayloadFields "identity revocation payload"
  let authority ← requireKeyId prim (payload.lookup "authority_key_id") "authority_key_id"
  let revoked ← requireKeyId prim (payload.lookup "revoked_key_id") "revoked_key_id"
  let revokedPeerId ← requireText prim (payload.lookup "revoked_peer_id") "revoked_peer_id"
  refuseIf (authority != record.keyId) "revocation authority does not match its signing key"
  let _ ← requireInt (payload.lookup "issued_at_ms") "issued_at_ms" (some 0)
  let _ ← requireInt (payload.lookup "sequence") "sequence" (some 0)
  let _ ← requireTextAllowEmpty prim (payload.lookup "reason") "reason"
  refuseIf (authority != revoked && !store.isSuccessor authority revoked)
    "revocation is not signed by the revoked key or a proven successor"
  let expected ← store.expectedPeerId prim record revoked
  refuseIf (expected.any (· != revokedPeerId))
    "revocation names the wrong PeerID for the revoked key"
  pure revoked

/-- The body of the loop over the revocations. -/
def addRevocation (prim : Primitives) (store : TrustStore) (revocation : List (String × Json)) :
    Checked TrustStore := do
  let revoked ← store.checkRevocation prim revocation
  pure { store with revokedKeyIds := store.revokedKeyIds.insert revoked }

/-! ### Bundles -/

/-- The objects of a kind, in the order of the bundle. -/
def ofKind (kind : String) (records : List Json) : List (List (String × Json)) :=
  records.filterMap fun item =>
    match item with
    | .obj fields => if fieldEquals fields "kind" (.str kind) then some fields else none
    | _ => none

/-- Whether a record is an object of a known kind. -/
def known : Json → Bool
  | .obj fields => fieldEquals fields "kind" (.str "identity_rotation") ||
      fieldEquals fields "kind" (.str "identity_revocation")
  | _ => false

/-- `RevocationStore.from_records`. -/
def fromRecords (prim : Primitives) (records : List Json) : Checked TrustStore := do
  -- a list or an object as the kind cannot be looked up in the set of kinds, and raises as well
  refuseIf (!records.all known) "Trust bundle contains an unknown identity record"
  let store ← (ofKind "identity_rotation" records).foldlM (addRotation prim) empty
  store.checkCycles
  (ofKind "identity_revocation" records).foldlM (addRevocation prim) store

end TrustStore

end Drift.Identity
