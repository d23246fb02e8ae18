import Drift.Identity.Records
import Drift.Lib.Dict

/-!
# Model catalogs and their rollback guard

A signed catalog is accepted if enough keys of the trust root have signed it, if it is neither expired
nor issued in the future, and if the rollback guard has not seen a newer one, or another one under the
same sequence. The guard has an entry for each catalog id; its document is what is kept on disk.

* `SignedModelCatalog.verify` — the checks, in the source's order;
* `CatalogRollbackGuard` — the guard, its check, and its document in both directions.

What the guard writes it reads back (`CatalogRollbackGuard.fromDict_toDict`), since an entry carries the
checks that the reader makes.
-/

namespace Drift.Node

open Drift.Lib Drift.Identity

/-- `ModelCatalogError`. -/
structure ModelCatalogError where
  message : String
  deriving DecidableEq, Repr

/-- The hash, the Unicode tables and the signatures. -/
structure CatalogPrimitives (Catalog : Type) where
  /-- `unicodedata.normalize("NFC", value) == value`. -/
  isNfc : String → Bool
  /-- `hashlib.sha256(...).hexdigest()` of the canonical JSON of a catalog. -/
  sha256Hex : Catalog → String
  /-- The verification of an Ed25519 signature over the signing bytes. -/
  ed25519Verify : String → String → Catalog → Bool
  /-- ASCII text is in normal form. -/
  isNfc_ascii : ∀ s : String, (∀ c ∈ s.toList, c.toNat < 128) → isNfc s = true
  /-- A digest has 64 lowercase hexadecimal digits. -/
  sha256Hex_digest : ∀ c, isDigest (sha256Hex c) = true

/-- `CatalogModel`, with the fields that the installation reads. -/
structure CatalogModel where
  manifestDigest : String
  manifestUrls : List String
  deriving DecidableEq, Repr

/-- What `_require_text` accepts. -/
def isText {Catalog : Type} (prim : CatalogPrimitives Catalog) (s : String) : Bool :=
  !s.isEmpty && prim.isNfc s

/-- What `_require_digest_id` accepts besides. -/
def isDigestId (s : String) : Bool :=
  match stripSha256 s with
  | some digest => isDigest digest
  | none => false

/-- The fields of a `ModelCatalog` that are read after it was parsed. -/
structure CatalogFields where
  catalogId : String
  sequence : Int
  issuedAtMs : Int
  expiresAtMs : Int
  models : List CatalogModel
  deriving DecidableEq, Repr

/-- `ModelCatalog`, with what `from_dict` has checked of its id and its sequence. -/
structure ModelCatalog (prim : CatalogPrimitives CatalogFields) extends CatalogFields where
  catalogId_text : isText prim catalogId = true
  sequence_pos : 1 ≤ sequence

structure CatalogSignature where
  keyId : String
  signature : String
  deriving DecidableEq, Repr

structure SignedModelCatalog (prim : CatalogPrimitives CatalogFields) where
  signed : ModelCatalog prim
  signatures : List CatalogSignature

structure CatalogTrustedKey where
  keyId : String
  publicKey : String
  deriving DecidableEq, Repr

structure CatalogTrustRoot where
  catalogId : String
  threshold : Nat
  keys : List CatalogTrustedKey
  deriving DecidableEq, Repr

/-- What the guard has accepted last under a catalog id. -/
structure AcceptedCatalog where
  sequence : Int
  digest : String
  sequence_pos : 1 ≤ sequence
  digest_id : isDigestId digest = true

def catalogStateSchemaVersion : Int := 1
def maxCatalogClockSkewSeconds : Int := 5 * 60

variable {prim : CatalogPrimitives CatalogFields}

/-- `ModelCatalog.digest`. -/
def ModelCatalog.digest (c : ModelCatalog prim) : String :=
  "sha256:" ++ prim.sha256Hex c.toCatalogFields

/-- `CatalogRollbackGuard`. -/
structure CatalogRollbackGuard (prim : CatalogPrimitives CatalogFields) where
  latest : Dict String AcceptedCatalog
  latest_text : ∀ id ∈ latest, isText prim id = true

/-- `raise ModelCatalogError(message)`. -/
def refuseCatalog {α : Type} (message : String) : Except ModelCatalogError α := .error ⟨message⟩

/-! ### Digests -/

theorem isDigestId_digest (c : ModelCatalog prim) : isDigestId c.digest = true := by
  unfold isDigestId ModelCatalog.digest
  rw [stripSha256_append]
  exact prim.sha256Hex_digest _

/-- What is accepted of a catalog. -/
def ModelCatalog.proposed (c : ModelCatalog prim) : AcceptedCatalog where
  sequence := c.sequence
  digest := c.digest
  sequence_pos := c.sequence_pos
  digest_id := isDigestId_digest c

/-! ### The check -/

namespace CatalogRollbackGuard

/-- An empty guard. -/
def empty : CatalogRollbackGuard prim := ⟨∅, fun _ h => absurd h (AList.notMem_empty _)⟩

/-- `self.latest[catalog.catalog_id] = proposed`. -/
def accept (g : CatalogRollbackGuard prim) (c : ModelCatalog prim) : CatalogRollbackGuard prim where
  latest := g.latest.insert c.catalogId c.proposed
  latest_text := by
    intro id hid
    rcases AList.mem_insert _ |>.mp hid with rfl | hid
    · exact c.catalogId_text
    · exact g.latest_text id hid

/-- `CatalogRollbackGuard.check`, with the guard it leaves. -/
def check (g : CatalogRollbackGuard prim) (c : ModelCatalog prim) :
    Except ModelCatalogError (CatalogRollbackGuard prim) :=
  match g.latest.lookup c.catalogId with
  | none => .ok (g.accept c)
  | some current =>
    if c.sequence < current.sequence then
      refuseCatalog "model catalog sequence is older than the last accepted catalog"
    else if c.sequence = current.sequence ∧ c.digest ≠ current.digest then
      refuseCatalog "model catalog equivocated at an already accepted sequence"
    else .ok (g.accept c)

/-- What the check accepts is recorded, and follows what was recorded. -/
theorem check_ok {g g' : CatalogRollbackGuard prim} {c : ModelCatalog prim}
    (h : g.check c = .ok g') :
    g' = g.accept c ∧ ∀ current, g.latest.lookup c.catalogId = some current →
      current.sequence ≤ c.sequence ∧ (current.sequence = c.sequence → current.digest = c.digest) := by
  unfold check at h
  split at h
  · next hnone =>
    cases h
    exact ⟨rfl, fun current hcurrent => by rw [hnone] at hcurrent; cases hcurrent⟩
  · next current hsome =>
    split at h
    · cases h
    · next hnewer =>
      split at h
      · cases h
      · next hsame =>
        cases h
        refine ⟨rfl, fun current' hcurrent => ?_⟩
        obtain rfl : current = current' := Option.some.inj (hsome.symm.trans hcurrent)
        refine ⟨Int.not_lt.mp hnewer, fun heq => ?_⟩
        by_contra hdigest
        exact hsame ⟨heq.symm, fun h => hdigest h.symm⟩

/-! ### The document -/

/-- `_require_text`. -/
def requireText (prim : CatalogPrimitives CatalogFields) (value : Json) (name : String) :
    Except ModelCatalogError {s : String // isText prim s = true} :=
  match value with
  | .str s =>
    if h : isText prim s = true then .ok ⟨s, h⟩
    else if s.isEmpty then refuseCatalog s!"{name} must be a non-empty string"
    else refuseCatalog s!"{name} must be NFC-normalized"
  | _ => refuseCatalog s!"{name} must be a non-empty string"

/-- `_require_int` with a minimum of 1. -/
def requirePositive (value : Option Json) (name : String) :
    Except ModelCatalogError {n : Int // 1 ≤ n} :=
  match value with
  | some (.int n) => if h : 1 ≤ n then .ok ⟨n, h⟩ else refuseCatalog s!"{name} must be an integer >= 1"
  | _ => refuseCatalog s!"{name} must be an integer >= 1"

/-- `_require_digest_id`. -/
def requireDigestId (prim : CatalogPrimitives CatalogFields) (value : Option Json) (name : String) :
    Except ModelCatalogError {s : String // isDigestId s = true} := do
  let s ← requireText prim (value.getD .null) name
  if h : isDigestId s.1 = true then pure ⟨s.1, h⟩
  else refuseCatalog s!"{name} must be a sha256: digest identifier"

/-- `_strict_fields` without optional fields. -/
def strictFields (fields : List (String × Json)) (required : List String) (name : String) :
    Except ModelCatalogError Unit := do
  let missing := (required.filter fun f => (fields.lookup f).isNone).insertionSort (· ≤ ·)
  let unknown := ((fields.map Prod.fst).filter fun k => !required.contains k).insertionSort (· ≤ ·)
  if !missing.isEmpty then refuseCatalog s!"{name} is missing required fields: {reprNames missing}"
  else if !unknown.isEmpty then refuseCatalog s!"{name} contains unknown fields: {reprNames unknown}"
  else pure ()

/-- The name of an entry in the messages. -/
def entryName (id : String) : String := "catalog rollback state '" ++ id ++ "'"

/-- One turn of the loop of `from_dict`. -/
def entryOf (prim : CatalogPrimitives CatalogFields) (id : String) (item : Json) :
    Except ModelCatalogError AcceptedCatalog := do
  match item with
  | .obj fields =>
    strictFields fields ["sequence", "digest"] (entryName id)
    let sequence ← requirePositive (fields.lookup "sequence") (entryName id ++ " sequence")
    let digest ← requireDigestId prim (fields.lookup "digest") (entryName id ++ " digest")
    pure ⟨sequence.1, digest.1, sequence.2, digest.2⟩
  | _ => refuseCatalog (entryName id ++ " must be a JSON object")

/-- The loop of `from_dict`. -/
def loadEntries (prim : CatalogPrimitives CatalogFields) :
    List (String × Json) → CatalogRollbackGuard prim →
      Except ModelCatalogError (CatalogRollbackGuard prim)
  | [], g => .ok g
  | (name, item) :: rest, g => do
    let id ← requireText prim (.str name) "catalog rollback state catalog id"
    let entry ← entryOf prim id.1 item
    loadEntries prim rest
      { latest := g.latest.insert id.1 entry
        latest_text := by
          intro id' hid
          rcases AList.mem_insert _ |>.mp hid with rfl | hid
          · exact id.2
          · exact g.latest_text id' hid }

/-- `CatalogRollbackGuard.from_dict`. -/
def fromDict (prim : CatalogPrimitives CatalogFields) (source : Json) :
    Except ModelCatalogError (CatalogRollbackGuard prim) := do
  match source with
  | .obj fields =>
    strictFields fields ["schema_version", "catalogs"] "catalog rollback state"
    let version ← requirePositive (fields.lookup "schema_version") "catalog rollback state schema_version"
    if version.1 ≠ catalogStateSchemaVersion then
      refuseCatalog s!"Unsupported catalog rollback-state schema version {version.1}"
    else
      match fields.lookup "catalogs" with
      | some (.obj catalogs) => loadEntries prim catalogs empty
      | _ => refuseCatalog "catalog rollback state catalogs must be a JSON object"
  | _ => refuseCatalog "catalog rollback state must be a JSON object"

def entryJson (e : AcceptedCatalog) : Json :=
  .obj [("sequence", .int e.sequence), ("digest", .str e.digest)]

/-- `sorted(self.latest.items())`. -/
def sortedItems (latest : Dict String AcceptedCatalog) : List (String × AcceptedCatalog) :=
  latest.items.insertionSort fun a b => a.1 ≤ b.1

/-- `CatalogRollbackGuard.to_dict`. -/
def toDict (g : CatalogRollbackGuard prim) : Json :=
  .obj [("schema_version", .int catalogStateSchemaVersion),
    ("catalogs", .obj ((sortedItems g.latest).map fun e => (e.1, entryJson e.2)))]

/-! ### Reading back -/

theorem requireText_eq {s : String} (h : isText prim s = true) (name : String) :
    requireText prim (.str s) name = .ok ⟨s, h⟩ :=
  dif_pos h

theorem requirePositive_eq {n : Int} (h : 1 ≤ n) (name : String) :
    requirePositive (some (.int n)) name = .ok ⟨n, h⟩ :=
  dif_pos h

/-- A digest identifier passes as text. -/
theorem isText_of_isDigestId {s : String} (h : isDigestId s = true) : isText prim s = true := by
  unfold isDigestId at h
  split at h
  · next digest hstrip =>
    unfold isText
    rw [prim.isNfc_ascii s (stripSha256_ascii hstrip h)]
    simp [ne_empty_of_stripSha256 hstrip]
  · cases h

theorem requireDigestId_eq {s : String} (h : isDigestId s = true) (name : String) :
    requireDigestId prim (some (.str s)) name = .ok ⟨s, h⟩ := by
  unfold requireDigestId
  rw [Option.getD_some, requireText_eq (isText_of_isDigestId h), ok_bind, dif_pos h]
  rfl

theorem entryOf_entryJson (id : String) (e : AcceptedCatalog) :
    entryOf prim id (entryJson e) = .ok e := by
  have hsequence := requirePositive_eq e.sequence_pos (entryName id ++ " sequence")
  have hdigest : requireDigestId prim (some (.str e.digest)) (entryName id ++ " digest") =
      .ok ⟨e.digest, e.digest_id⟩ := requireDigestId_eq e.digest_id _
  show (do
    let sequence ← requirePositive (some (.int e.sequence)) (entryName id ++ " sequence")
    let digest ← requireDigestId prim (some (.str e.digest)) (entryName id ++ " digest")
    pure (⟨sequence.1, digest.1, sequence.2, digest.2⟩ : AcceptedCatalog)) = _
  rw [hsequence, ok_bind, hdigest]
  rfl

/-- The loop reads rendered entries one after another into the guard. -/
theorem loadEntries_render (items : List (String × AcceptedCatalog))
    (htext : ∀ e ∈ items, isText prim e.1 = true) (g : CatalogRollbackGuard prim) :
    ∃ g' : CatalogRollbackGuard prim,
      loadEntries prim (items.map fun e => (e.1, entryJson e.2)) g = .ok g' ∧
        g'.latest = items.foldl (fun d e => d.insert e.1 e.2) g.latest := by
  induction items generalizing g with
  | nil => exact ⟨g, rfl, rfl⟩
  | cons e items ih =>
    have hfirst := htext e List.mem_cons_self
    rw [List.map_cons, loadEntries, requireText_eq hfirst, ok_bind, entryOf_entryJson, ok_bind]
    exact ih (fun e' he' => htext e' (List.mem_cons_of_mem _ he')) _

/-- **The round trip.** The document of a guard reads back as a guard with the same entries. -/
theorem fromDict_toDict (g : CatalogRollbackGuard prim) :
    ∃ g', fromDict prim g.toDict = .ok g' ∧
      ∀ id, g'.latest.lookup id = g.latest.lookup id := by
  have hitems : ∀ e, e ∈ sortedItems g.latest ↔ e ∈ g.latest.items := fun e =>
    List.mem_insertionSort _
  have htext : ∀ e ∈ sortedItems g.latest, isText prim e.1 = true := by
    intro e he
    apply g.latest_text
    rw [← AList.lookup_isSome, Dict.mem_items.mp ((hitems e).mp he)]
    rfl
  obtain ⟨g', hload, hlatest⟩ := loadEntries_render (sortedItems g.latest) htext empty
  refine ⟨g', ?_, fun id => ?_⟩
  · rw [← hload]
    rfl
  · rw [hlatest]
    exact Dict.lookup_ofPairs_items hitems id

end CatalogRollbackGuard

/-! ### Verification -/

/-- `ModelCatalog.validate_time`, at the clock reading `currentMs`. -/
def ModelCatalog.validateTime (c : ModelCatalog prim) (currentMs : Int) :
    Except ModelCatalogError Unit :=
  if c.issuedAtMs > currentMs + maxCatalogClockSkewSeconds * 1000 then
    refuseCatalog "model catalog was issued too far in the future"
  else if c.expiresAtMs ≤ currentMs then refuseCatalog "model catalog has expired"
  else pure ()

/-- The loop of `verify` over the signatures. -/
def CatalogTrustRoot.checkSignatures (root : CatalogTrustRoot) (c : ModelCatalog prim) :
    List CatalogSignature → Except ModelCatalogError Unit
  | [] => pure ()
  | signature :: rest =>
    match root.keys.find? fun key => key.keyId == signature.keyId with
    | none => refuseCatalog s!"model catalog contains untrusted signature {signature.keyId}"
    | some key =>
      if prim.ed25519Verify key.publicKey signature.signature c.toCatalogFields then
        root.checkSignatures c rest
      else refuseCatalog s!"model catalog signature from {signature.keyId} is invalid"

/-- `SignedModelCatalog.verify` with a guard: the catalog, and the guard that the check leaves. -/
def SignedModelCatalog.verify (e : SignedModelCatalog prim) (root : CatalogTrustRoot) (currentMs : Int)
    (g : CatalogRollbackGuard prim) :
    Except ModelCatalogError (ModelCatalog prim × CatalogRollbackGuard prim) := do
  if e.signed.catalogId ≠ root.catalogId then
    refuseCatalog "model catalog id does not match its trusted root"
  else
    e.signed.validateTime currentMs
    root.checkSignatures e.signed e.signatures
    let valid := (e.signatures.map CatalogSignature.keyId).dedup.length
    if valid < root.threshold then
      refuseCatalog s!"model catalog has {valid} valid trusted signature(s); {root.threshold} required"
    else
      let guard ← g.check e.signed
      pure (e.signed, guard)

/-- A verified catalog has the trust root's id, and has passed the guard. -/
theorem SignedModelCatalog.verify_ok {e : SignedModelCatalog prim} {root : CatalogTrustRoot}
    {currentMs : Int} {g g' : CatalogRollbackGuard prim} {c : ModelCatalog prim}
    (h : e.verify root currentMs g = .ok (c, g')) :
    c.catalogId = root.catalogId ∧ g.check c = .ok g' := by
  unfold verify at h
  split at h
  · cases h
  · next hid =>
    obtain ⟨_, -, h⟩ := bind_eq_ok.mp h
    obtain ⟨_, -, h⟩ := bind_eq_ok.mp h
    dsimp only at h
    split at h
    · cases h
    · obtain ⟨guard, hcheck, h⟩ := bind_eq_ok.mp h
      cases h
      exact ⟨not_not.mp hid, hcheck⟩

end Drift.Node
