import Drift.Lib.Json
import Drift.Lib.Outcome

/-!
# Signed protocol records

The signed-record envelope of the public swarm and the checks every record passes before it is
believed: the field checks, the signature, the lifetime of its kind and the bindings of the two
record kinds that clients and nodes read from the DHT, worker announcements and route demand.

Cryptography and the Unicode tables are outside the repository, so they are a parameter
(`Primitives`); nothing is assumed of them. The checks stop short of the replay guard, which is
stateful and lives in `Drift.Identity.ReplayGuard`.
-/

namespace Drift.Identity

open Drift.Lib

/-- `ProtocolSecurityError`: a record or an identity failed closed. -/
structure ProtocolSecurityError where
  message : String
  deriving DecidableEq, Repr

/-- The functions of the cryptographic and Unicode libraries that the checks call. -/
structure Primitives where
  /-- `unicodedata.normalize("NFC", value) == value`. -/
  isNfc : String → Bool
  /-- Canonical base64 decoding. -/
  b64decode : String → Option (List UInt8)
  sha256Hex : List UInt8 → String
  /-- The size of the RSA key a DER string encodes, `none` for another kind of key; outer `none`
  where it encodes no key. -/
  loadRsa : List UInt8 → Option (Option Nat)
  rsaVerify : List UInt8 → List UInt8 → List UInt8 → Bool
  /-- The base58 PeerID derived from a DER public key. -/
  peerIdOfKey : List UInt8 → String

abbrev Checked (α : Type) := Except ProtocolSecurityError α

/-- `raise ProtocolSecurityError(message)`. -/
def refuse {α : Type} (message : String) : Checked α := .error ⟨message⟩

/-- `if condition: raise ProtocolSecurityError(message)`. -/
def refuseIf (condition : Bool) (message : String) : Checked Unit :=
  if condition then refuse message else .ok ()

def signedRecordSchemaVersion : Int := 1
def signedRecordDomain : String := "drift-signed-record-v1\x00"
def signatureAlgorithm : String := "rsa-pss-sha256"
def transportSecurity : String := "libp2p-tls1.3"
def maxSignedRecordTtlSeconds : Int := 60 * 60
def maxClockSkewSeconds : Int := 60
def routeDemandMaxTtlSeconds : Int := 90

/-! ### Field checks -/

/-- A list of strings as Python prints it. -/
def reprNames (names : List String) : String :=
  "[" ++ ", ".intercalate (names.map fun n => "'" ++ n ++ "'") ++ "]"

/-- `_strict_fields`: exactly the expected keys. -/
def strictFields (value : List (String × Json)) (fields : List String) (name : String) :
    Checked Unit := do
  let missing := (fields.filter fun f => (value.lookup f).isNone).insertionSort (· ≤ ·)
  let unknown := ((value.map Prod.fst).filter fun k => !fields.contains k).insertionSort (· ≤ ·)
  refuseIf (!missing.isEmpty) s!"{name} is missing required fields: {reprNames missing}"
  refuseIf (!unknown.isEmpty) s!"{name} contains unknown fields: {reprNames unknown}"

/-- `_require_int`: booleans are not integers here; a missing value is `None`. -/
def requireInt (value : Option Json) (name : String) (minimum : Option Int) : Checked Int :=
  match value with
  | some (.int n) =>
    match minimum with
    | some m => if n < m then refuse s!"{name} must be at least {m}" else .ok n
    | none => .ok n
  | _ => refuse s!"{name} must be an integer"

/-- `_require_text` with `allow_empty=False`: a non-empty NFC-normalized string. -/
def requireText (prim : Primitives) (value : Option Json) (name : String) : Checked String :=
  match value with
  | some (.str s) =>
    if s.isEmpty then refuse s!"{name} must be a non-empty string"
    else if !prim.isNfc s then refuse s!"{name} must be NFC-normalized"
    else .ok s
  | _ => refuse s!"{name} must be a non-empty string"

/-- 64 lowercase hexadecimal digits. -/
def isDigest (s : String) : Bool :=
  s.toList.length == 64 && s.toList.all fun c => "0123456789abcdef".toList.contains c

/-- `_require_digest`. -/
def requireDigest (prim : Primitives) (value : Option Json) (name : String) : Checked String := do
  let s ← requireText prim value name
  refuseIf (!isDigest s) s!"{name} must be a lowercase SHA-256 digest"
  pure s

/-- The prefix of a key identifier. -/
def sha256Prefix : String := "sha256:"

/-- `value.removeprefix("sha256:")` where the prefix is there, `none` where it is not. -/
def stripSha256 (s : String) : Option String :=
  if sha256Prefix.toList.isPrefixOf s.toList then
    some (String.ofList (s.toList.drop sha256Prefix.toList.length))
  else none

theorem stripSha256_append (s : String) : stripSha256 ("sha256:" ++ s) = some s := by
  have hlist : ("sha256:" ++ s).toList = sha256Prefix.toList ++ s.toList := String.toList_append
  unfold stripSha256
  rw [hlist, if_pos (by simp), List.drop_left]
  exact congrArg some String.ofList_toList

/-- A digest is ASCII. -/
theorem isDigest_ascii {s : String} (h : isDigest s = true) : ∀ c ∈ s.toList, c.toNat < 128 := by
  intro c hc
  unfold isDigest at h
  rw [Bool.and_eq_true, List.all_eq_true] at h
  have hhex := List.elem_iff.mp (h.2 c hc)
  exact (by simp : ∀ c ∈ "0123456789abcdef".toList, c.toNat < 128) c hhex

/-- What is left without its prefix follows it. -/
theorem toList_of_stripSha256 {s digest : String} (h : stripSha256 s = some digest) :
    s.toList = sha256Prefix.toList ++ digest.toList := by
  unfold stripSha256 at h
  split at h
  · next hpre =>
    obtain ⟨rest, hrest⟩ := List.isPrefixOf_iff_prefix.mp hpre
    have hdigest : digest.toList = rest := by
      rw [← Option.some.inj h, String.toList_ofList, ← hrest, List.drop_left]
    rw [hdigest, hrest]
  · cases h

/-- A digest identifier is ASCII. -/
theorem stripSha256_ascii {s digest : String} (h : stripSha256 s = some digest)
    (hdigest : isDigest digest = true) : ∀ c ∈ s.toList, c.toNat < 128 := by
  intro c hc
  rw [toList_of_stripSha256 h, List.mem_append] at hc
  rcases hc with hc | hc
  · exact (by simp [sha256Prefix] : ∀ c ∈ sha256Prefix.toList, c.toNat < 128) c hc
  · exact isDigest_ascii hdigest c hc

theorem ne_empty_of_stripSha256 {s digest : String} (h : stripSha256 s = some digest) : s ≠ "" := by
  rintro rfl
  exact absurd (congrArg List.length (toList_of_stripSha256 h)) (by simp [sha256Prefix])

/-- `_require_key_id`. -/
def requireKeyId (prim : Primitives) (value : Option Json) (name : String) : Checked String := do
  let s ← requireText prim value name
  match stripSha256 s with
  | none => refuse s!"{name} must be a sha256: key identifier"
  | some digest =>
    let _ ← requireDigest prim (some (.str digest)) name
    pure s

/-- `_b64decode`. -/
def b64decode (prim : Primitives) (value : Option Json) (name : String) : Checked (List UInt8) := do
  let s ← requireText prim value name
  match prim.b64decode s with
  | some bytes => pure bytes
  | none => refuse s!"{name} is not canonical base64"

mutual

/-- `_normalize_json`: a value in the one representation allowed in signed payloads. -/
def normalizeJson (prim : Primitives) (path : String) : Json → Checked Unit
  | .str s => refuseIf (!prim.isNfc s) s!"{path} must contain only NFC-normalized strings"
  | .arr items => normalizeItems prim s!"{path}[]" items
  | .obj fields => normalizeFields prim path fields
  | .foreign typeName => refuse s!"{path} contains unsupported value {typeName}"
  | _ => .ok ()

/-- `_normalize_json` on the elements of a list. -/
def normalizeItems (prim : Primitives) (path : String) : List Json → Checked Unit
  | [] => .ok ()
  | x :: xs => do
    normalizeJson prim path x
    normalizeItems prim path xs

/-- `_normalize_json` on the fields of an object. -/
def normalizeFields (prim : Primitives) (path : String) : List (String × Json) → Checked Unit
  | [] => .ok ()
  | (key, x) :: xs => do
    refuseIf key.isEmpty s!"{path} contains a non-string or empty object key"
    let _ ← requireText prim (some (.str key)) s!"{path} key"
    normalizeJson prim s!"{path}.{key}" x
    normalizeFields prim path xs

end

/-! ### The envelope -/

/-- `SignedRecord`. -/
structure SignedRecord where
  schemaVersion : Int
  kind : String
  algorithm : String
  keyId : String
  publicKey : String
  payload : List (String × Json)
  signature : String

namespace SignedRecord

/-- `SignedRecord.unsigned_dict`. -/
def unsignedDict (r : SignedRecord) : List (String × Json) :=
  [("schema_version", .int r.schemaVersion), ("kind", .str r.kind), ("algorithm", .str r.algorithm),
   ("key_id", .str r.keyId), ("public_key", .str r.publicKey), ("payload", .obj r.payload)]

/-- `SignedRecord.to_dict`. -/
def toDict (r : SignedRecord) : List (String × Json) :=
  r.unsignedDict ++ [("signature", .str r.signature)]

/-- `SignedRecord.signing_bytes`: the domain separator and the canonical JSON. -/
def signingBytes (r : SignedRecord) : List UInt8 :=
  (signedRecordDomain ++ (Json.obj r.unsignedDict).dumps).toUTF8.toList

/-- `SignedRecord.digest`. -/
def digest (prim : Primitives) (r : SignedRecord) : String :=
  prim.sha256Hex (Json.obj r.toDict).dumps.toUTF8.toList

/-- `SignedRecord.public_key_der`. -/
def publicKeyDer (prim : Primitives) (r : SignedRecord) : Checked (List UInt8) :=
  b64decode prim (some (.str r.publicKey)) "signed record public_key"

/-- `SignedRecord.peer_id`, in base58. -/
def peerId (prim : Primitives) (r : SignedRecord) : Checked String := do
  let der ← r.publicKeyDer prim
  pure (prim.peerIdOfKey der)

/-- `SignedRecord.from_dict`. -/
def fromDict (prim : Primitives) (source : Json) : Checked SignedRecord := do
  let .obj fields := source | refuse "signed record must be an object"
  strictFields fields
    ["schema_version", "kind", "algorithm", "key_id", "public_key", "payload", "signature"]
    "signed record"
  let schemaVersion ←
    requireInt (fields.lookup "schema_version") "signed record schema_version" (some 1)
  refuseIf (schemaVersion != signedRecordSchemaVersion)
    s!"Unsupported signed record schema version {schemaVersion}"
  let kind ← requireText prim (fields.lookup "kind") "signed record kind"
  let some (.str algorithm) := fields.lookup "algorithm" | refuse "Unsupported signature algorithm"
  refuseIf (algorithm != signatureAlgorithm) s!"Unsupported signature algorithm '{algorithm}'"
  let keyId ← requireText prim (fields.lookup "key_id") "signed record key_id"
  let _ ← b64decode prim (fields.lookup "public_key") "signed record public_key"
  let some (.obj payload) := fields.lookup "payload"
    | refuse "signed record payload must be an object"
  let _ ← b64decode prim (fields.lookup "signature") "signed record signature"
  normalizeJson prim "signed record payload" (.obj payload)
  let publicKey ← requireText prim (fields.lookup "public_key") "signed record public_key"
  let signature ← requireText prim (fields.lookup "signature") "signed record signature"
  pure { schemaVersion, kind, algorithm, keyId, publicKey, payload, signature }

/-- `_load_public_key`. -/
def loadPublicKey (prim : Primitives) (der : List UInt8) : Checked Unit :=
  match prim.loadRsa der with
  | none => refuse "signed record contains an invalid DER public key"
  | some none => refuse "signed record requires an RSA public key of at least 2048 bits"
  | some (some bits) =>
    refuseIf (bits < 2048) "signed record requires an RSA public key of at least 2048 bits"

/-- `SignedRecord.verify`. -/
def verify (prim : Primitives) (r : SignedRecord) (expectedKind : String) : Checked Unit := do
  refuseIf (r.kind != expectedKind)
    s!"Expected signed record kind '{expectedKind}', got '{r.kind}'"
  let der ← r.publicKeyDer prim
  refuseIf (r.keyId != sha256Prefix ++ prim.sha256Hex der)
    "signed record key_id does not match its public key"
  loadPublicKey prim der
  let signature ← b64decode prim (some (.str r.signature)) "signed record signature"
  refuseIf (!prim.rsaVerify der signature r.signingBytes) "signed record has an invalid signature"

end SignedRecord

/-! ### Lifetimes -/

/-- `_validate_lifetime`, at the clock reading `currentMs`. -/
def validateLifetime (payload : List (String × Json)) (currentMs : Int) : Checked (Int × Int) := do
  let issuedAtMs ← requireInt (payload.lookup "issued_at_ms") "issued_at_ms" (some 0)
  let expiresAtMs ← requireInt (payload.lookup "expires_at_ms") "expires_at_ms" (some 0)
  refuseIf (expiresAtMs ≤ issuedAtMs) "signed record must expire after it was issued"
  refuseIf (expiresAtMs - issuedAtMs > maxSignedRecordTtlSeconds * 1000)
    "signed record lifetime exceeds the public-swarm maximum"
  refuseIf (issuedAtMs > currentMs + maxClockSkewSeconds * 1000)
    "signed record was issued too far in the future"
  refuseIf (expiresAtMs ≤ currentMs) "signed record has expired"
  pure (issuedAtMs, expiresAtMs)

/-- `_validate_route_demand_lifetime`. -/
def validateRouteDemandLifetime (payload : List (String × Json)) (currentMs : Int) :
    Checked (Int × Int) := do
  let (issuedAtMs, expiresAtMs) ← validateLifetime payload currentMs
  refuseIf (expiresAtMs - issuedAtMs > routeDemandMaxTtlSeconds * 1000)
    "route demand lifetime exceeds 90 seconds"
  pure (issuedAtMs, expiresAtMs)

/-- The lifetime validation of a record kind. -/
def validateLifetimeOf (kind : String) (payload : List (String × Json)) (currentMs : Int) :
    Checked (Int × Int) :=
  if kind = "route_demand" then validateRouteDemandLifetime payload currentMs
  else validateLifetime payload currentMs

/-! ### What the field checks say when they pass -/

theorem refuseIf_eq_ok {c : Bool} {message : String} {u : Unit} :
    refuseIf c message = .ok u ↔ c = false := by
  cases c <;> simp [refuseIf, refuse]

theorem requireInt_eq_ok {v : Option Json} {name : String} {m n : Int} :
    requireInt v name (some m) = .ok n ↔ v = some (.int n) ∧ m ≤ n := by
  unfold requireInt
  split
  · next k =>
    by_cases hk : k < m
    · simp only [hk, if_true, refuse, reduceCtorEq, Option.some.injEq, Json.int.injEq, false_iff]
      rintro ⟨rfl, hle⟩
      omega
    · simp only [hk, if_false, Except.ok.injEq, Option.some.injEq, Json.int.injEq]
      exact ⟨fun h => ⟨h, h ▸ (not_lt.mp hk)⟩, fun h => h.1⟩
  · next hv =>
    simp only [refuse, reduceCtorEq, false_iff]
    rintro ⟨rfl, -⟩
    exact hv n rfl

theorem requireText_str {prim : Primitives} {s t name : String}
    (h : requireText prim (some (.str s)) name = .ok t) : t = s := by
  unfold requireText at h
  dsimp only at h
  split at h
  · cases h
  split at h
  · cases h
  · exact (Except.ok.inj h).symm

theorem requireDigest_str {prim : Primitives} {s t name : String}
    (h : requireDigest prim (some (.str s)) name = .ok t) : t = s := by
  unfold requireDigest at h
  obtain ⟨u, hu, h⟩ := bind_eq_ok.mp h
  obtain ⟨_, -, h⟩ := bind_eq_ok.mp h
  rw [← Except.ok.inj h, requireText_str hu]

theorem requireKeyId_str {prim : Primitives} {s t name : String}
    (h : requireKeyId prim (some (.str s)) name = .ok t) : t = s := by
  unfold requireKeyId at h
  obtain ⟨u, hu, h⟩ := bind_eq_ok.mp h
  split at h
  · cases h
  · obtain ⟨_, -, h⟩ := bind_eq_ok.mp h
    rw [← Except.ok.inj h, requireText_str hu]

end Drift.Identity
