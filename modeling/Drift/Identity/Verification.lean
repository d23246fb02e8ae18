import Drift.Identity.ReplayGuard

/-!
# Verification of worker announcements and route demand

The two verifications that end in a replay guard. Each is a stateless part, which depends on the
record, on what the caller expects and on one reading of the clock, followed by the guard's check,
which reads the clock again:

* `checkWorkerAnnouncement` and `verifyWorkerAnnouncement`;
* `checkRouteDemand` and `verifyRouteDemand`.

What the guard relies on is that the stateless part fixes the kind of the record and validates the
lifetime of that kind (`checkWorkerAnnouncement_ok`, `checkRouteDemand_ok`).
-/

namespace Drift.Identity

open Drift.Lib

/-- `RevocationStore`, with the field the verifications read. -/
structure RevocationStore where
  revokedKeyIds : List String

/-- `RevocationStore.require_active`. -/
def RevocationStore.requireActive (store : RevocationStore) (keyId : String) : Checked Unit :=
  refuseIf (store.revokedKeyIds.contains keyId) s!"identity {keyId} is revoked"

/-- `payload[name] == value` for a field that is there. -/
def fieldEquals (payload : List (String × Json)) (name : String) (value : Json) : Bool :=
  match payload.lookup name with
  | some v => v.pyEq value
  | none => false

/-! ### Worker announcements -/

/-- What the reader of an announcement expects of it. -/
structure ExpectedAnnouncement where
  peerId : String
  dhtPrefix : String
  manifestDigest : String
  serverInfo : Json
  executionProfile : Json

def announcementFields : List String :=
  ["peer_id", "dht_prefix", "manifest_digest", "execution_profile", "server_info",
   "transport_security", "issued_at_ms", "expires_at_ms", "sequence"]

/-- `verify_worker_announcement` up to the replay guard, at the clock reading `currentMs`. -/
def checkWorkerAnnouncement (prim : Primitives) (revocations : RevocationStore)
    (expected : ExpectedAnnouncement) (currentMs : Int) (source : Json) :
    Checked SignedRecord := do
  let record ← SignedRecord.fromDict prim source
  record.verify prim "worker_announcement"
  let payload := record.payload
  strictFields payload announcementFields "worker announcement payload"
  let derived ← record.peerId prim
  refuseIf (derived != expected.peerId || !fieldEquals payload "peer_id" (.str expected.peerId))
    "worker announcement public key does not derive its DHT PeerID"
  refuseIf (!fieldEquals payload "dht_prefix" (.str expected.dhtPrefix))
    "worker announcement is bound to a different DHT namespace"
  refuseIf (expected.dhtPrefix != "drift-m1-" ++ expected.manifestDigest)
    "manifested announcement namespace is not derived from its manifest digest"
  refuseIf (!fieldEquals payload "manifest_digest" (.str expected.manifestDigest))
    "worker announcement is bound to a different manifest"
  let _ ← requireDigest prim (payload.lookup "manifest_digest") "manifest_digest"
  refuseIf (!fieldEquals payload "transport_security" (.str transportSecurity))
    "worker announcement does not require authenticated encrypted transport"
  normalizeJson prim "server_info" expected.serverInfo
  refuseIf (!fieldEquals payload "server_info" expected.serverInfo)
    "worker announcement does not cover the published server metadata"
  let some (.obj _) := payload.lookup "execution_profile"
    | refuse "worker announcement execution_profile must be an object"
  normalizeJson prim "execution_profile" expected.executionProfile
  refuseIf (!fieldEquals payload "execution_profile" expected.executionProfile)
    "worker announcement execution profile does not match the manifest"
  let _ ← validateLifetime payload currentMs
  let _ ← requireInt (payload.lookup "sequence") "sequence" (some 0)
  revocations.requireActive record.keyId
  pure record

/-! ### Route demand -/

def routeDemandSchemaVersion : Int := 1

def routeDemandFields : List String :=
  ["schema_version", "manifest_digest", "window_seconds", "attempts_bucket", "successes_bucket",
   "useful_tokens_per_second_milli", "reliability_milli", "age_seconds_bucket"]

def routeDemandCountBuckets : List Int := [0, 1, 2, 4, 8, 16, 32, 64]

def routeDemandThroughputBuckets : List Int :=
  [0, 250, 500, 1000, 2000, 4000, 8000, 16000, 32000, 64000]

/-- `_validate_route_demand_observation`, whose result the verification does not use. -/
def validateRouteDemandObservation (prim : Primitives) (value : Option Json)
    (expectedManifestDigest : String) : Checked Unit := do
  let some (.obj fields) := value | refuse "route demand observation must be an object"
  strictFields fields routeDemandFields "route demand observation"
  let schemaVersion ←
    requireInt (fields.lookup "schema_version") "route demand schema_version" (some 1)
  refuseIf (schemaVersion != routeDemandSchemaVersion)
    s!"unsupported route demand schema version {schemaVersion}"
  let manifestDigest ←
    requireText prim (fields.lookup "manifest_digest") "route demand manifest_digest"
  let some bare := stripSha256 manifestDigest
    | refuse "route demand manifest_digest must use the sha256: prefix"
  let digest ← requireDigest prim (some (.str bare)) "route demand manifest_digest"
  refuseIf (digest != expectedManifestDigest) "route demand is bound to a different manifest"
  let windowSeconds ←
    requireInt (fields.lookup "window_seconds") "route demand window_seconds" (some 60)
  refuseIf (windowSeconds != 5 * 60) "route demand must use a closed five-minute window"
  let attempts ←
    requireInt (fields.lookup "attempts_bucket") "route demand attempts_bucket" (some 4)
  let successes ←
    requireInt (fields.lookup "successes_bucket") "route demand successes_bucket" (some 0)
  refuseIf (!routeDemandCountBuckets.contains attempts ||
      !routeDemandCountBuckets.contains successes || decide (successes > attempts))
    "route demand count buckets are invalid"
  let throughput ←
    requireInt (fields.lookup "useful_tokens_per_second_milli") "route demand throughput bucket"
      (some 0)
  refuseIf (!routeDemandThroughputBuckets.contains throughput)
    "route demand throughput bucket is invalid"
  let reliability ←
    requireInt (fields.lookup "reliability_milli") "route demand reliability bucket" (some 0)
  refuseIf (decide (reliability > 1000) || reliability % 100 != 0)
    "route demand reliability must use 10-percent buckets"
  let age ← requireInt (fields.lookup "age_seconds_bucket") "route demand age bucket" (some 0)
  refuseIf (decide (age > windowSeconds) || age % 15 != 0)
    "route demand age must use bounded 15-second buckets"

/-- `verify_route_demand` up to the replay guard, at the clock reading `currentMs`. -/
def checkRouteDemand (prim : Primitives) (revocations : RevocationStore)
    (expectedManifestDigest : String) (currentMs : Int) (source : Json) :
    Checked SignedRecord := do
  let record ← SignedRecord.fromDict prim source
  record.verify prim "route_demand"
  let payload := record.payload
  strictFields payload
    ["manifest_digest", "observation", "issued_at_ms", "expires_at_ms", "sequence"]
    "route demand payload"
  let digest ← requireDigest prim (payload.lookup "manifest_digest") "manifest_digest"
  refuseIf (digest != expectedManifestDigest) "route demand is bound to a different manifest"
  validateRouteDemandObservation prim (payload.lookup "observation") digest
  let _ ← validateRouteDemandLifetime payload currentMs
  let _ ← requireInt (payload.lookup "sequence") "sequence" (some 0)
  revocations.requireActive record.keyId
  pure record

/-! ### The guard at the end -/

/-- The end of both verifications: a record that passed the stateless part goes to the guard, at the
clock reading `nowMs`. -/
def guardChecked (prim : Primitives) (checked : Checked SignedRecord) (g : ReplayGuard)
    (file : HistoryFile) (nowMs : Int) (outcome : WriteOutcome) :
    Checked SignedRecord × ReplayGuard × HistoryFile :=
  match checked with
  | .error e => (.error e, g, file)
  | .ok r =>
    let (result, g', file') := g.check prim file nowMs outcome r
    (result.map fun _ => r, g', file')

/-- `verify_worker_announcement` with a replay guard. -/
def verifyWorkerAnnouncement (prim : Primitives) (revocations : RevocationStore)
    (expected : ExpectedAnnouncement) (currentMs : Int) (source : Json) (g : ReplayGuard)
    (file : HistoryFile) (nowMs : Int) (outcome : WriteOutcome) :
    Checked SignedRecord × ReplayGuard × HistoryFile :=
  guardChecked prim (checkWorkerAnnouncement prim revocations expected currentMs source) g file
    nowMs outcome

/-- `verify_route_demand` with a replay guard. -/
def verifyRouteDemand (prim : Primitives) (revocations : RevocationStore)
    (expectedManifestDigest : String) (currentMs : Int) (source : Json) (g : ReplayGuard)
    (file : HistoryFile) (nowMs : Int) (outcome : WriteOutcome) :
    Checked SignedRecord × ReplayGuard × HistoryFile :=
  guardChecked prim (checkRouteDemand prim revocations expectedManifestDigest currentMs source) g
    file nowMs outcome

/-- How a caller passes a record through the guard: nothing came to it and nothing changed, or the
guard's check of `r` gave the answer, the guard and the file. -/
def PassesGuard (prim : Primitives) (offered accepted : Option SignedRecord) (g : ReplayGuard)
    (file : HistoryFile) (nowMs : Int) (outcome : WriteOutcome) (g' : ReplayGuard)
    (file' : HistoryFile) : Prop :=
  (offered = none ∧ accepted = none ∧ g' = g ∧ file' = file) ∨
  ∃ r, offered = some r ∧ g' = (g.check prim file nowMs outcome r).2.1 ∧
    file' = (g.check prim file nowMs outcome r).2.2 ∧
    ((∃ e, (g.check prim file nowMs outcome r).1 = .error e ∧ accepted = none) ∨
      ((g.check prim file nowMs outcome r).1 = .ok () ∧ accepted = some r))

/-! ### What the stateless parts establish -/

/-- A record that passed `verify` is of the expected kind. -/
theorem kind_of_verify {prim : Primitives} {r : SignedRecord} {kind : String} {u : Unit}
    (h : r.verify prim kind = .ok u) : r.kind = kind := by
  unfold SignedRecord.verify at h
  obtain ⟨_, hkind, -⟩ := bind_eq_ok.mp h
  rw [refuseIf_eq_ok] at hkind
  simpa using hkind

/-- What a record went through before it comes to the guard: the lifetime of its kind was validated
at `currentMs` and its sequence number was read. -/
structure Admissible (r : SignedRecord) (kind : String) (currentMs : Int) : Prop where
  kind : r.kind = kind
  lifetime : ∃ p, validateLifetimeOf r.kind r.payload currentMs = .ok p
  sequence : ∃ n, requireInt (r.payload.lookup "sequence") "sequence" (some 0) = .ok n

/-- **Announcements.** What passes is an admissible worker announcement. -/
theorem checkWorkerAnnouncement_ok {prim : Primitives} {revocations : RevocationStore}
    {expected : ExpectedAnnouncement} {currentMs : Int} {source : Json} {r : SignedRecord}
    (h : checkWorkerAnnouncement prim revocations expected currentMs source = .ok r) :
    Admissible r "worker_announcement" currentMs := by
  unfold checkWorkerAnnouncement at h
  obtain ⟨record, -, h⟩ := bind_eq_ok.mp h
  obtain ⟨_, hverify, h⟩ := bind_eq_ok.mp h
  -- the bindings to the caller's expectations say nothing about kind and lifetime
  iterate 10 obtain ⟨_, -, h⟩ := bind_eq_ok.mp h
  split at h
  case h_2 => cases h
  iterate 2 obtain ⟨_, -, h⟩ := bind_eq_ok.mp h
  obtain ⟨p, hlife, h⟩ := bind_eq_ok.mp h
  obtain ⟨n, hseq, h⟩ := bind_eq_ok.mp h
  obtain ⟨_, -, h⟩ := bind_eq_ok.mp h
  obtain rfl : record = r := Except.ok.inj h
  have hkind := kind_of_verify hverify
  refine ⟨hkind, ⟨p, ?_⟩, n, hseq⟩
  unfold validateLifetimeOf
  rw [if_neg (by rw [hkind]; decide)]
  exact hlife

/-- **Route demand.** What passes is an admissible route demand. -/
theorem checkRouteDemand_ok {prim : Primitives} {revocations : RevocationStore}
    {expectedManifestDigest : String} {currentMs : Int} {source : Json} {r : SignedRecord}
    (h : checkRouteDemand prim revocations expectedManifestDigest currentMs source = .ok r) :
    Admissible r "route_demand" currentMs := by
  unfold checkRouteDemand at h
  obtain ⟨record, -, h⟩ := bind_eq_ok.mp h
  obtain ⟨_, hverify, h⟩ := bind_eq_ok.mp h
  iterate 4 obtain ⟨_, -, h⟩ := bind_eq_ok.mp h
  obtain ⟨p, hlife, h⟩ := bind_eq_ok.mp h
  obtain ⟨n, hseq, h⟩ := bind_eq_ok.mp h
  obtain ⟨_, -, h⟩ := bind_eq_ok.mp h
  obtain rfl : record = r := Except.ok.inj h
  have hkind := kind_of_verify hverify
  refine ⟨hkind, ⟨p, ?_⟩, n, hseq⟩
  unfold validateLifetimeOf
  rw [if_pos hkind]
  exact hlife

/-! ### A worked identity -/

/-- Cryptographic functions under which every signature is genuine and keys name themselves. There is
one digest: the worked records below are never told apart by theirs. -/
def trustingPrimitives : Primitives where
  isNfc := fun _ => true
  b64decode := fun s => some s.toUTF8.toList
  sha256Hex := fun _ => "aaaaaaaaaaaaaaaaaaaaaaaaaaaaaaaaaaaaaaaaaaaaaaaaaaaaaaaaaaaaaaaa"
  loadRsa := fun _ => some (some 2048)
  rsaVerify := fun _ _ _ => true
  peerIdOfKey := fun der => String.ofList (der.map fun b => Char.ofNat b.toNat)

/-- A manifest digest. -/
def sampleDigest : String := "aaaaaaaaaaaaaaaaaaaaaaaaaaaaaaaaaaaaaaaaaaaaaaaaaaaaaaaaaaaaaaaa"

/-- The identifier of the key `"k"`. -/
def sampleKeyId : String := sha256Prefix ++ trustingPrimitives.sha256Hex "k".toUTF8.toList

/-- A record of the key `"k"`. -/
def sampleRecord (kind : String) (payload : List (String × Json)) : SignedRecord where
  schemaVersion := signedRecordSchemaVersion
  kind := kind
  algorithm := signatureAlgorithm
  keyId := sampleKeyId
  publicKey := "k"
  payload := payload
  signature := "s"

/-- A worker announcement of the key `"k"`, with its metadata and its times. -/
def announcementAt (serverInfo : Json) (issuedAtMs expiresAtMs sequence : Int) : SignedRecord :=
  sampleRecord "worker_announcement"
    [("peer_id", .str "k"), ("dht_prefix", .str ("drift-m1-" ++ sampleDigest)),
     ("manifest_digest", .str sampleDigest), ("execution_profile", .obj []),
     ("server_info", serverInfo), ("transport_security", .str transportSecurity),
     ("issued_at_ms", .int issuedAtMs), ("expires_at_ms", .int expiresAtMs),
     ("sequence", .int sequence)]

/-- A route demand of the key `"k"`, with its times. -/
def routeDemandAt (issuedAtMs expiresAtMs sequence : Int) : SignedRecord :=
  sampleRecord "route_demand"
    [("manifest_digest", .str sampleDigest),
     ("observation", .obj
       [("schema_version", .int 1), ("manifest_digest", .str (sha256Prefix ++ sampleDigest)),
        ("window_seconds", .int 300), ("attempts_bucket", .int 4), ("successes_bucket", .int 4),
        ("useful_tokens_per_second_milli", .int 500), ("reliability_milli", .int 1000),
        ("age_seconds_bucket", .int 0)]),
     ("issued_at_ms", .int issuedAtMs), ("expires_at_ms", .int expiresAtMs),
     ("sequence", .int sequence)]

end Drift.Identity
