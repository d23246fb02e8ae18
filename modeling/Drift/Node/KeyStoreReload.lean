import Drift.Node.ApiKeyStore
import Drift.Lib.Outcome

/-!
# The key store reloads what it wrote

The writer does not check what the loader asks for. A key that is created with a clock before the epoch,
and a key that is revoked with a clock before its creation, are written all the same, and the file is then
refused at the next start: `revocation_with_an_earlier_clock_locks_out`. Where no stored change meets such
a reading (`Regular`), the file is accepted after every run and holds exactly the records in memory
(`key_store_reloads`).

`Stored` is what a document needs so that it is read back: `load_keyText`. The step is `step_cases`: a
call leaves the store as it was, or it stores records that extend those before it. The undo of a mutation
gives back what was there only where the token was fresh and the write was not interrupted after the
renaming, which `Regular` asks for as well.
-/

namespace Drift.Node

open Drift.Lib Drift.Identity

/-! ### Reading back -/

/-- A record that the loader accepts. -/
structure ApiKeyRecord.Valid (r : ApiKeyRecord) : Prop where
  id : isKeyId r.keyId = true
  label : r.label ≠ "" ∧ r.label.length ≤ 64
  hash : isDigest r.secretHash = true
  created : 0 ≤ r.createdAt
  revoked : ∀ t ∈ r.revokedAt, r.createdAt ≤ t

/-- Records that a file can hold. -/
def Stored (records : KeyRecords) : Prop :=
  ∀ k r, records.lookup k = some r → r.keyId = k ∧ r.Valid

theorem keyRefuseIf_of_false {condition : Bool} (h : condition = false) (message : String) :
    keyRefuseIf condition message = .ok () := by
  rw [h]
  rfl

theorem plain_toDict (r : ApiKeyRecord) : r.toDict.Plain := by
  unfold ApiKeyRecord.toDict
  cases r.revokedAt <;> simp [Json.Plain, Json.PlainFields]

theorem sortKeys_toDict (r : ApiKeyRecord) :
    r.toDict.sortKeys = .obj [("created_at", .int r.createdAt), ("id", .str r.keyId),
      ("label", .str r.label),
      ("revoked_at", match r.revokedAt with | none => .null | some t => .int t),
      ("secret_hash", .str r.secretHash)] := by
  unfold ApiKeyRecord.toDict
  rw [Json.sortKeys_obj]
  unfold Json.sortedFields
  cases r.revokedAt <;> simp [List.orderedInsert, Json.keyLe_iff, Json.sortKeys]

theorem readKeyRecord_toDict {r : ApiKeyRecord} (h : r.Valid) (index : Nat) :
    readKeyRecord index r.toDict.sortKeys = .ok r := by
  have hlabel : (r.label == "" || decide (64 < r.label.length)) = false := by
    rw [beq_false_of_ne h.label.1, decide_eq_false (not_lt.mpr h.label.2)]
    rfl
  have hid : (!isKeyId r.keyId) = false := by rw [h.id]; rfl
  have hhash : (!isDigest r.secretHash) = false := by rw [h.hash]; rfl
  have hcreated : decide (r.createdAt < 0) = false := decide_eq_false (not_lt.mpr h.created)
  rw [sortKeys_toDict]
  obtain ⟨keyId, label, secretHash, createdAt, revokedAt⟩ := r
  cases revokedAt with
  | none =>
    show (do
      keyRefuseIf _ _
      keyRefuseIf (!isKeyId keyId) _
      keyRefuseIf (label == "" || decide (64 < label.length)) _
      keyRefuseIf (!isDigest secretHash) _
      keyRefuseIf (decide (createdAt < 0)) _
      pure ⟨keyId, label, secretHash, createdAt, none⟩ : Except KeyStoreError ApiKeyRecord) = _
    rw [keyRefuseIf_of_false (by rfl), ok_bind, keyRefuseIf_of_false hid, ok_bind,
      keyRefuseIf_of_false hlabel, ok_bind, keyRefuseIf_of_false hhash, ok_bind,
      keyRefuseIf_of_false hcreated, ok_bind]
    rfl
  | some t =>
    show (do
      keyRefuseIf _ _
      keyRefuseIf (!isKeyId keyId) _
      keyRefuseIf (label == "" || decide (64 < label.length)) _
      keyRefuseIf (!isDigest secretHash) _
      keyRefuseIf (decide (createdAt < 0)) _
      keyRefuseIf (decide (t < createdAt)) _
      pure ⟨keyId, label, secretHash, createdAt, some t⟩ : Except KeyStoreError ApiKeyRecord) = _
    have hrevoked : decide (t < createdAt) = false := decide_eq_false (not_lt.mpr (h.revoked t rfl))
    rw [keyRefuseIf_of_false (by rfl), ok_bind, keyRefuseIf_of_false hid, ok_bind,
      keyRefuseIf_of_false hlabel, ok_bind, keyRefuseIf_of_false hhash, ok_bind,
      keyRefuseIf_of_false hcreated, ok_bind, keyRefuseIf_of_false hrevoked, ok_bind]
    rfl

/-- The records of a file are read into a dictionary, each under its own identifier. -/
theorem readKeyRecords_toDict (lib : KeyLibrary) (rs : List ApiKeyRecord) (hvalid : ∀ r ∈ rs, r.Valid)
    (hnodup : (rs.map ApiKeyRecord.keyId).Nodup) (index : Nat) (records : KeyRecords)
    (hfresh : ∀ r ∈ rs, records.lookup r.keyId = none) :
    ∃ loaded, readKeyRecords lib index (rs.map fun r => r.toDict.sortKeys) records = .ok loaded ∧
      ∀ k r, loaded.lookup k = some r ↔ (r ∈ rs ∧ r.keyId = k) ∨ records.lookup k = some r := by
  induction rs generalizing index records with
  | nil =>
    refine ⟨records, rfl, fun k r => ?_⟩
    simp
  | cons r rs ih =>
    rw [List.map_cons, List.nodup_cons] at hnodup
    have hr := hvalid r List.mem_cons_self
    have hnone := hfresh r List.mem_cons_self
    have hfold : lib.casefold r.keyId = r.keyId := lib.casefold_id _ hr.id
    have hrest : ∀ r' ∈ rs, (records.insert r.keyId r).lookup r'.keyId = none := by
      intro r' hr'
      have hne : r'.keyId ≠ r.keyId := by
        intro heq
        exact hnodup.1 (List.mem_map.mpr ⟨r', hr', heq⟩)
      rw [AList.lookup_insert_ne hne]
      exact hfresh r' (List.mem_cons_of_mem r hr')
    obtain ⟨loaded, hloaded, hlookup⟩ :=
      ih (fun r' hr' => hvalid r' (List.mem_cons_of_mem r hr')) hnodup.2 (index + 1)
        (records.insert r.keyId r) hrest
    refine ⟨loaded, ?_, fun k r' => ?_⟩
    · rw [List.map_cons, readKeyRecords, readKeyRecord_toDict hr, ok_bind]
      dsimp only
      rw [hfold, hnone, keyRefuseIf_of_false (by rfl), ok_bind]
      exact hloaded
    · rw [hlookup, Dict.lookup_insert_eq, List.mem_cons]
      split
      next heq =>
        subst heq
        rw [hnone]
        constructor
        · rintro (⟨hmem, hkey⟩ | hsome)
          · exact Or.inl ⟨Or.inr hmem, hkey⟩
          · obtain rfl := Option.some.inj hsome
            exact Or.inl ⟨Or.inl rfl, rfl⟩
        · rintro (⟨rfl | hmem, hkey⟩ | hsome)
          · exact Or.inr rfl
          · exact Or.inl ⟨hmem, hkey⟩
          · cases hsome
      next hne =>
        constructor
        · exact Or.imp_left fun ⟨hmem, hkey⟩ => ⟨Or.inr hmem, hkey⟩
        · rintro (⟨rfl | hmem, hkey⟩ | hsome)
          · exact absurd hkey.symm hne
          · exact Or.inl ⟨hmem, hkey⟩
          · exact Or.inr hsome

theorem mem_sortedRecords {records : KeyRecords} (h : Stored records) {r : ApiKeyRecord} :
    r ∈ sortedRecords records ↔ records.lookup r.keyId = some r := by
  unfold sortedRecords
  rw [List.mem_insertionSort, List.mem_map]
  constructor
  · rintro ⟨⟨k, r'⟩, hmem, rfl⟩
    have hlookup := Dict.mem_items.mp hmem
    rw [(h k r' hlookup).1]
    exact hlookup
  · intro hlookup
    exact ⟨(r.keyId, r), Dict.mem_items.mpr hlookup, rfl⟩

theorem nodup_sortedRecords {records : KeyRecords} (h : Stored records) :
    ((sortedRecords records).map ApiKeyRecord.keyId).Nodup := by
  have hperm : ((sortedRecords records).map ApiKeyRecord.keyId).Perm
      ((records.items.map Prod.snd).map ApiKeyRecord.keyId) :=
    (List.perm_insertionSort _ _).map _
  have hkeys : (records.items.map Prod.snd).map ApiKeyRecord.keyId = records.entries.keys := by
    unfold Dict.items List.keys
    rw [List.map_map, List.map_map]
    apply List.map_congr_left
    rintro ⟨k, r⟩ hmem
    exact (h k r (AList.mem_lookup_iff.mpr hmem)).1
  rw [hperm.nodup_iff, hkeys]
  exact records.nodupKeys

theorem plain_keyDocument (records : KeyRecords) : (keyDocument records).Plain := by
  unfold keyDocument
  refine ⟨trivial, ?_, trivial⟩
  show Json.PlainItems _
  rw [Json.plainItems_iff]
  intro x hx
  obtain ⟨r, -, rfl⟩ := List.mem_map.mp hx
  exact plain_toDict r

theorem sortKeys_keyDocument (records : KeyRecords) :
    (keyDocument records).sortKeys =
      .obj [("keys", .arr ((sortedRecords records).map fun r => r.toDict.sortKeys)),
        ("schema_version", .int apiKeyStoreSchemaVersion)] := by
  unfold keyDocument
  rw [Json.sortKeys_obj]
  unfold Json.sortedFields
  simp [List.orderedInsert, Json.keyLe_iff, Json.sortKeys, Json.sortItems_eq]

theorem distinctKeys_keyDocument (records : KeyRecords) :
    (keyDocument records).sortKeys.distinctKeys = true := by
  have hitems : Json.distinctItems ((sortedRecords records).map fun r => r.toDict.sortKeys) = true := by
    rw [Json.distinctItems_iff]
    intro x hx
    obtain ⟨r, -, rfl⟩ := List.mem_map.mp hx
    rw [sortKeys_toDict]
    cases r.revokedAt <;> rfl
  rw [sortKeys_keyDocument]
  simp [Json.distinctKeys, Json.distinctFields, hitems]

/-- The loader gets to the records of a file that was written. -/
theorem load_keyText_eq (lib : KeyLibrary) (records : KeyRecords) :
    load lib (some (keyText records)) =
      readKeyRecords lib 0 ((sortedRecords records).map fun r => r.toDict.sortKeys) ∅ := by
  unfold load keyText
  dsimp only
  rw [Json.loads_dumps (plain_keyDocument records) "\n" (by decide)]
  dsimp only
  rw [distinctKeys_keyDocument, keyRefuseIf_of_false (by rfl), ok_bind, sortKeys_keyDocument]
  dsimp only
  rw [keyRefuseIf_of_false (by rfl), ok_bind]
  show (do
    keyRefuseIf _ _
    readKeyRecords lib 0 ((sortedRecords records).map fun r : ApiKeyRecord => r.toDict.sortKeys) ∅) = _
  rw [keyRefuseIf_of_false (by rfl), ok_bind]

/-- **The file is read back** as the records it was written from. -/
theorem load_keyText (lib : KeyLibrary) {records : KeyRecords} (h : Stored records) :
    ∃ loaded, load lib (some (keyText records)) = .ok loaded ∧
      ∀ k, loaded.lookup k = records.lookup k := by
  obtain ⟨loaded, hloaded, hlookup⟩ := readKeyRecords_toDict lib (sortedRecords records)
    (fun r hr => (h _ r ((mem_sortedRecords h).mp hr)).2) (nodup_sortedRecords h) 0 ∅ fun _ _ => rfl
  refine ⟨loaded, (load_keyText_eq lib records).trans hloaded, fun k => ?_⟩
  apply Option.ext
  intro r
  show loaded.lookup k = some r ↔ records.lookup k = some r
  rw [hlookup]
  constructor
  · rintro (⟨hmem, rfl⟩ | hnone)
    · exact (mem_sortedRecords h).mp hmem
    · cases hnone
  · intro hr
    have hkey := (h k r hr).1
    refine Or.inl ⟨(mem_sortedRecords h).mpr ?_, hkey⟩
    rw [hkey]
    exact hr

/-! ### Records in memory -/

/-- What the records of a store satisfy: a file can hold them, a secret has one record, and a key is
active where there is any. -/
structure SoundRecords (records : KeyRecords) : Prop where
  stored : Stored records
  hashes : ∀ k r k' r', records.lookup k = some r → records.lookup k' = some r' →
    r.secretHash = r'.secretHash → k = k'
  active : ∀ k r, records.lookup k = some r → ∃ k' r', records.lookup k' = some r' ∧ r'.revokedAt = none

/-- The records hold what was known before, and what was revoked stays revoked. -/
def Extends (records records' : KeyRecords) : Prop :=
  ∀ k r, records.lookup k = some r → ∃ r', records'.lookup k = some r' ∧
    r'.secretHash = r.secretHash ∧ (r.revokedAt.isSome = true → r'.revokedAt.isSome = true)

theorem soundRecords_empty : SoundRecords ∅ where
  stored _ _ h := by cases h
  hashes _ _ _ _ h := by cases h
  active _ _ h := by cases h

/-- A new record under a fresh key. -/
theorem SoundRecords.insert_fresh {records : KeyRecords} (h : SoundRecords records) {r : ApiKeyRecord}
    (hvalid : r.Valid) (hactive : r.revokedAt = none) (hfresh : records.lookup r.keyId = none)
    (hhash : ∀ k r', records.lookup k = some r' → r'.secretHash ≠ r.secretHash) :
    SoundRecords (records.insert r.keyId r) ∧ Extends records (records.insert r.keyId r) := by
  have hold : ∀ {k r'}, (records.insert r.keyId r).lookup k = some r' →
      k = r.keyId ∧ r' = r ∨ k ≠ r.keyId ∧ records.lookup k = some r' := by
    intro k r' hlookup
    rw [Dict.lookup_insert_eq] at hlookup
    split at hlookup
    next heq => exact Or.inl ⟨heq, (Option.some.inj hlookup).symm⟩
    next hne => exact Or.inr ⟨hne, hlookup⟩
  refine ⟨⟨fun k r' hr' => ?_, fun k r₁ k' r₂ h₁ h₂ heq => ?_, fun k r' hr' => ?_⟩, fun k r' hr' => ?_⟩
  · obtain ⟨rfl, rfl⟩ | ⟨-, hlookup⟩ := hold hr'
    · exact ⟨rfl, hvalid⟩
    · exact h.stored k r' hlookup
  · obtain ⟨rfl, rfl⟩ | ⟨-, hlookup₁⟩ := hold h₁
    · obtain ⟨rfl, rfl⟩ | ⟨-, hlookup₂⟩ := hold h₂
      · rfl
      · exact absurd heq.symm (hhash k' r₂ hlookup₂)
    · obtain ⟨rfl, rfl⟩ | ⟨-, hlookup₂⟩ := hold h₂
      · exact absurd heq (hhash k r₁ hlookup₁)
      · exact h.hashes k r₁ k' r₂ hlookup₁ hlookup₂ heq
  · exact ⟨r.keyId, r, AList.lookup_insert records, hactive⟩
  · have hne : k ≠ r.keyId := by
      rintro rfl
      rw [hfresh] at hr'
      cases hr'
    exact ⟨r', (AList.lookup_insert_ne hne).trans hr', rfl, id⟩

/-- A record is replaced by one of the same key and secret. -/
theorem SoundRecords.replace {records : KeyRecords} (h : SoundRecords records) {k : String}
    {r r' : ApiKeyRecord} (hr : records.lookup k = some r) (hkey : r'.keyId = r.keyId)
    (hhash : r'.secretHash = r.secretHash) (hvalid : r'.Valid)
    (hrevoked : r.revokedAt.isSome = true → r'.revokedAt.isSome = true)
    (hactive : ∃ k' r'', (records.insert k r').lookup k' = some r'' ∧ r''.revokedAt = none) :
    SoundRecords (records.insert k r') ∧ Extends records (records.insert k r') := by
  have hold : ∀ {k₁ r₁}, (records.insert k r').lookup k₁ = some r₁ →
      ∃ r₀, records.lookup k₁ = some r₀ ∧ r₁.secretHash = r₀.secretHash := by
    intro k₁ r₁ hlookup
    rw [Dict.lookup_insert_eq] at hlookup
    split at hlookup
    next heq =>
      obtain rfl := Option.some.inj hlookup
      exact ⟨r, heq ▸ hr, hhash⟩
    next => exact ⟨r₁, hlookup, rfl⟩
  refine ⟨⟨fun k₁ r₁ h₁ => ?_, fun k₁ r₁ k₂ r₂ h₁ h₂ heq => ?_, fun _ _ _ => hactive⟩, fun k₁ r₁ h₁ => ?_⟩
  · rw [Dict.lookup_insert_eq] at h₁
    split at h₁
    next heq =>
      obtain rfl := Option.some.inj h₁
      exact ⟨by rw [hkey, heq, (h.stored k r hr).1], hvalid⟩
    next => exact h.stored k₁ r₁ h₁
  · obtain ⟨r₃, h₃, heq₃⟩ := hold h₁
    obtain ⟨r₄, h₄, heq₄⟩ := hold h₂
    exact h.hashes k₁ r₃ k₂ r₄ h₃ h₄ (heq₃.symm.trans (heq.trans heq₄))
  · by_cases heq : k₁ = k
    · subst heq
      rw [hr] at h₁
      obtain rfl := Option.some.inj h₁
      exact ⟨r', AList.lookup_insert records, hhash, hrevoked⟩
    · exact ⟨r₁, (AList.lookup_insert_ne heq).trans h₁, rfl, id⟩

/-- Where more than one key is active, another one is. -/
theorem exists_other_active {records : KeyRecords} (k : String)
    (h : 1 < (records.items.filter fun e => e.2.revokedAt.isNone).length) :
    ∃ k' r', k' ≠ k ∧ records.lookup k' = some r' ∧ r'.revokedAt = none := by
  have hnodup : ((records.items.filter fun e => e.2.revokedAt.isNone).map Prod.fst).Nodup := by
    have hkeys : records.items.map Prod.fst = records.entries.keys := by
      unfold Dict.items List.keys
      rw [List.map_map]
      rfl
    refine List.Nodup.sublist (List.filter_sublist.map Prod.fst) ?_
    rw [hkeys]
    exact records.nodupKeys
  have hmem : ∀ e ∈ records.items.filter (fun e => e.2.revokedAt.isNone),
      records.lookup e.1 = some e.2 ∧ e.2.revokedAt = none := by
    intro e he
    obtain ⟨hitem, hnone⟩ := List.mem_filter.mp he
    exact ⟨Dict.mem_items.mp hitem, Option.isNone_iff_eq_none.mp hnone⟩
  generalize records.items.filter (fun e => e.2.revokedAt.isNone) = l at h hnodup hmem
  match l, h, hnodup, hmem with
  | a :: b :: l, _, hnodup, hmem =>
    have hne : a.1 ≠ b.1 := fun heq => (List.nodup_cons.mp hnodup).1 (by rw [heq]; exact List.mem_cons_self)
    by_cases ha : a.1 = k
    · have hb := hmem b (List.mem_cons_of_mem a List.mem_cons_self)
      exact ⟨b.1, b.2, fun hb => hne (ha.trans hb.symm), hb⟩
    · exact ⟨a.1, a.2, ha, hmem a List.mem_cons_self⟩

/-! ### Labels and identifiers -/

theorem validateLabel_ok {label label' : String} (h : validateLabel label = .ok label') :
    label' ≠ "" ∧ label'.length ≤ 64 := by
  unfold validateLabel at h
  split at h
  · cases h
  next hlabel =>
  obtain rfl := Except.ok.inj h
  rw [not_or, not_lt] at hlabel
  refine ⟨hlabel.1, le_trans ?_ hlabel.2⟩
  unfold strip
  rw [String.length_ofList, ← String.length_toList]
  exact le_trans (List.rdropWhile_prefix _ _).length_le (List.dropWhile_sublist _).length_le

theorem isKeyId_token (token : HexToken) : isKeyId (keyPrefix ++ token.digits) = true := by
  unfold isKeyId
  rw [String.toList_append, List.drop_left, token.hex, Bool.and_true, List.isPrefixOf_iff_prefix]
  exact List.prefix_append _ _

/-! ### One operation -/

namespace ApiKeyStore

/-- The call writes a new key. -/
def createsKey (lib : KeyLibrary) (s : ApiKeyStore) (secret label : String) : Bool :=
  secret != "" && (validateLabel label).isOk &&
    (s.records.items.find? (fun e => e.2.secretHash == lib.keyHash secret)).isNone

/-- The call writes a label. -/
def updatesLabel (lib : KeyLibrary) (s : ApiKeyStore) (keyId label : String) : Bool :=
  (validateLabel label).isOk && (s.records.lookup (lib.casefold keyId)).isSome

/-- The call writes a revocation. -/
def revokesKey (lib : KeyLibrary) (s : ApiKeyStore) (keyId : String) : Bool :=
  (s.records.lookup (lib.casefold keyId)).any (fun record => record.revokedAt.isNone) &&
    decide (1 < (s.records.items.filter fun e => e.2.revokedAt.isNone).length)

/-- A new key has a fresh identifier, and is not stored with a clock before the epoch. -/
def CreatesRegularly (s : ApiKeyStore) (token : HexToken) (now : Int) (write : KeyWriteOutcome) : Prop :=
  s.records.lookup (keyPrefix ++ token.digits) = none ∧ write ≠ .interrupted ∧ (write = .done → 0 ≤ now)

/-- What the step needs where it writes: no write is interrupted after the renaming, and no clock reading
is stored that the loader refuses. -/
def Regular (lib : KeyLibrary) (s : ApiKeyStore) : KeyEvent → Prop
  | .ensureKey secret label token now write =>
    s.createsKey lib secret label = true → s.CreatesRegularly token now write
  | .create random label token now write =>
    s.createsKey lib ("drift_" ++ random) label = true → s.CreatesRegularly token now write
  | .updateLabel keyId label write => s.updatesLabel lib keyId label = true → write ≠ .interrupted
  | .revoke keyId now write =>
    s.revokesKey lib keyId = true → write ≠ .interrupted ∧
      (write = .done → ∀ r ∈ s.records.lookup (lib.casefold keyId), r.createdAt ≤ now)
  | .restart => True

instance (lib : KeyLibrary) (s : ApiKeyStore) : ∀ e, Decidable (s.Regular lib e)
  | .ensureKey secret label token now write =>
    inferInstanceAs (Decidable (s.createsKey lib secret label = true →
      s.records.lookup (keyPrefix ++ token.digits) = none ∧ write ≠ .interrupted ∧
        (write = .done → 0 ≤ now)))
  | .create random label token now write =>
    inferInstanceAs (Decidable (s.createsKey lib ("drift_" ++ random) label = true →
      s.records.lookup (keyPrefix ++ token.digits) = none ∧ write ≠ .interrupted ∧
        (write = .done → 0 ≤ now)))
  | .updateLabel keyId label write =>
    inferInstanceAs (Decidable (s.updatesLabel lib keyId label = true → write ≠ .interrupted))
  | .revoke keyId now write =>
    inferInstanceAs (Decidable (s.revokesKey lib keyId = true → write ≠ .interrupted ∧
      (write = .done → ∀ r ∈ s.records.lookup (lib.casefold keyId), r.createdAt ≤ now)))
  | .restart => isTrue trivial

/-- Memory and file read the same. -/
def Same (s s' : ApiKeyStore) : Prop :=
  s'.file = s.file ∧ ∀ k, s'.records.lookup k = s.records.lookup k

theorem Same.refl (s : ApiKeyStore) : Same s s := ⟨rfl, fun _ => rfl⟩

/-- Records that extend those in memory are stored. -/
def StoresMore (s s' : ApiKeyStore) : Prop :=
  ∃ records, s' = ⟨records, some (keyText records)⟩ ∧ SoundRecords records ∧ Extends s.records records

variable {lib : KeyLibrary} {s : ApiKeyStore} {now : Int} {write : KeyWriteOutcome}

theorem ensureKey_cases (h : SoundRecords s.records) {secret label : String} {token : HexToken}
    (hregular : s.createsKey lib secret label = true → s.CreatesRegularly token now write) :
    Same s (s.ensureKey lib secret label token now write).2 ∨
      write = .done ∧ StoresMore s (s.ensureKey lib secret label token now write).2 := by
  unfold ensureKey
  split
  · exact Or.inl (Same.refl s)
  next hsecret =>
  split
  · exact Or.inl (Same.refl s)
  next label' hlabel =>
  dsimp only
  split
  · split
    · exact Or.inl (Same.refl s)
    · exact Or.inl (Same.refl s)
  next hfind =>
  have hcreates : s.createsKey lib secret label = true := by
    unfold createsKey
    rw [hlabel, hfind, bne_iff_ne.mpr hsecret]
    rfl
  obtain ⟨hfresh, hwrite, hclock⟩ := hregular hcreates
  have hid := isKeyId_token token
  rw [lib.casefold_id _ hid]
  cases write with
  | done =>
    obtain ⟨hne, hlength⟩ := validateLabel_ok hlabel
    have hvalid : ApiKeyRecord.Valid ⟨keyPrefix ++ token.digits, label', lib.keyHash secret, now, none⟩ :=
      ⟨hid, ⟨hne, hlength⟩, lib.keyHash_digest secret, hclock rfl, fun t ht => by cases ht⟩
    have hhash : ∀ k r', s.records.lookup k = some r' → r'.secretHash ≠ lib.keyHash secret := by
      intro k r' hr' heq
      have hnot := List.find?_eq_none.mp hfind (k, r') (Dict.mem_items.mpr hr')
      exact hnot (beq_iff_eq.mpr heq)
    exact Or.inr ⟨rfl, _, rfl, h.insert_fresh hvalid rfl hfresh hhash⟩
  | failed =>
    refine Or.inl ⟨rfl, fun k => ?_⟩
    show ((s.records.insert _ _).erase _).lookup k = _
    rw [Dict.erase_insert]
    by_cases hk : k = keyPrefix ++ token.digits
    · rw [hk, AList.lookup_erase, hfresh]
    · exact AList.lookup_erase_ne hk
  | interrupted => exact absurd rfl hwrite

theorem updateLabel_cases (h : SoundRecords s.records) {keyId label : String}
    (hregular : s.updatesLabel lib keyId label = true → write ≠ .interrupted) :
    Same s (s.updateLabel lib keyId label write).2 ∨
      write = .done ∧ StoresMore s (s.updateLabel lib keyId label write).2 := by
  unfold updateLabel
  split
  · exact Or.inl (Same.refl s)
  next label' hlabel =>
  dsimp only
  split
  · exact Or.inl (Same.refl s)
  next record hrecord =>
  have hwrite := hregular (by unfold updatesLabel; rw [hlabel, hrecord]; rfl)
  have hvalid := (h.stored _ record hrecord).2
  cases write with
  | done =>
    refine Or.inr ⟨rfl, _, rfl, h.replace hrecord rfl rfl ?_ id ?_⟩
    · exact ⟨hvalid.id, validateLabel_ok hlabel, hvalid.hash, hvalid.created, hvalid.revoked⟩
    · obtain ⟨k, r, hr, hactive⟩ := h.active _ record hrecord
      by_cases hk : k = lib.casefold keyId
      · subst hk
        rw [hrecord] at hr
        obtain rfl := Option.some.inj hr
        exact ⟨_, _, AList.lookup_insert _, hactive⟩
      · exact ⟨k, r, (AList.lookup_insert_ne hk).trans hr, hactive⟩
  | failed =>
    refine Or.inl ⟨rfl, fun k => ?_⟩
    show ((s.records.insert _ _).insert _ _).lookup k = _
    rw [Dict.lookup_insert_eq, Dict.lookup_insert_eq]
    split
    next hk =>
      rw [hk, hrecord]
    next => rfl
  | interrupted => exact absurd rfl hwrite

theorem revoke_cases (h : SoundRecords s.records) {keyId : String}
    (hregular : s.revokesKey lib keyId = true → write ≠ .interrupted ∧
      (write = .done → ∀ r ∈ s.records.lookup (lib.casefold keyId), r.createdAt ≤ now)) :
    Same s (s.revoke lib keyId now write).2 ∨
      write = .done ∧ StoresMore s (s.revoke lib keyId now write).2 := by
  unfold revoke
  dsimp only
  split
  · exact Or.inl (Same.refl s)
  next record hrecord =>
  split
  · exact Or.inl (Same.refl s)
  next hrevoked =>
  split
  · exact Or.inl (Same.refl s)
  next hlast =>
  have hnone : record.revokedAt = none := Option.not_isSome_iff_eq_none.mp hrevoked
  rw [not_le] at hlast
  have hrevokes : s.revokesKey lib keyId = true := by
    unfold revokesKey
    rw [hrecord, Option.any_some, hnone, decide_eq_true hlast]
    rfl
  obtain ⟨hwrite, hclock⟩ := hregular hrevokes
  have hvalid := (h.stored _ record hrecord).2
  cases write with
  | done =>
    refine Or.inr ⟨rfl, _, rfl, h.replace hrecord rfl rfl ?_ (fun _ => rfl) ?_⟩
    · refine ⟨hvalid.id, hvalid.label, hvalid.hash, hvalid.created, fun t ht => ?_⟩
      obtain rfl := Option.some.inj ht
      exact hclock rfl record hrecord
    · -- another key stays active
      obtain ⟨k, r, hk, hr, hactive⟩ := exists_other_active (lib.casefold keyId) hlast
      exact ⟨k, r, (AList.lookup_insert_ne hk).trans hr, hactive⟩
  | failed =>
    refine Or.inl ⟨rfl, fun k => ?_⟩
    show ((s.records.insert _ _).insert _ _).lookup k = _
    rw [Dict.lookup_insert_eq, Dict.lookup_insert_eq]
    split
    next hk =>
      rw [hk, hrecord]
      congr 1
      rw [← hnone]
    next => rfl
  | interrupted => exact absurd rfl hwrite

end ApiKeyStore

/-! ### Runs -/

/-- How the write of an operation ends. -/
def KeyEvent.write? : KeyEvent → Option KeyWriteOutcome
  | .ensureKey _ _ _ _ write => some write
  | .create _ _ _ _ write => some write
  | .updateLabel _ _ write => some write
  | .revoke _ _ write => some write
  | .restart => none

theorem SoundRecords.congr {records records' : KeyRecords} (h : SoundRecords records)
    (hsame : ∀ k, records'.lookup k = records.lookup k) : SoundRecords records' where
  stored k r hr := h.stored k r (by rw [← hsame]; exact hr)
  hashes k r k' r' hr hr' := h.hashes k r k' r' (by rw [← hsame]; exact hr) (by rw [← hsame]; exact hr')
  active k r hr := by
    obtain ⟨k', r', hr', hactive⟩ := h.active k r (by rw [← hsame]; exact hr)
    exact ⟨k', r', by rw [hsame]; exact hr', hactive⟩

/-- The file is accepted and holds the records in memory, which are in order. -/
structure ApiKeyStore.Sound (lib : KeyLibrary) (s : ApiKeyStore) : Prop where
  loaded : ∃ records, load lib s.file = .ok records ∧ ∀ k, records.lookup k = s.records.lookup k
  records : SoundRecords s.records

namespace ApiKeyStore

variable {lib : KeyLibrary} {s s' : ApiKeyStore} {e : KeyEvent}

/-- **One step** of a store: it stays as it was, or stores records that extend those before. -/
theorem Sound.step_cases (h : Sound lib s) (hregular : s.Regular lib e)
    (hnext : (keyMachine lib).next s e = some s') :
    Same s s' ∨ e.write? = some .done ∧ StoresMore s s' := by
  cases e with
  | ensureKey secret label token now write =>
    obtain rfl := Option.some.inj hnext
    exact (ensureKey_cases h.records hregular).imp_right fun ⟨hwrite, hmore⟩ =>
      ⟨congrArg some hwrite, hmore⟩
  | create random label token now write =>
    obtain rfl := Option.some.inj hnext
    exact (ensureKey_cases h.records hregular).imp_right fun ⟨hwrite, hmore⟩ =>
      ⟨congrArg some hwrite, hmore⟩
  | updateLabel keyId label write =>
    obtain rfl := Option.some.inj hnext
    exact (updateLabel_cases h.records hregular).imp_right fun ⟨hwrite, hmore⟩ =>
      ⟨congrArg some hwrite, hmore⟩
  | revoke keyId now write =>
    obtain rfl := Option.some.inj hnext
    exact (revoke_cases h.records hregular).imp_right fun ⟨hwrite, hmore⟩ =>
      ⟨congrArg some hwrite, hmore⟩
  | restart =>
    obtain ⟨records, hloaded, hsame⟩ := h.loaded
    have hrestart : (keyMachine lib).next s .restart = some { s with records := records } := by
      unfold keyMachine
      dsimp only
      rw [hloaded]
    rw [hrestart] at hnext
    obtain rfl := Option.some.inj hnext
    exact Or.inl ⟨rfl, hsame⟩

theorem Sound.step (h : Sound lib s) (hregular : s.Regular lib e)
    (hnext : (keyMachine lib).next s e = some s') : Sound lib s' := by
  obtain ⟨hfile, hsame⟩ | ⟨-, records, rfl, hrecords, -⟩ := h.step_cases hregular hnext
  · obtain ⟨records, hloaded, hlookup⟩ := h.loaded
    refine ⟨⟨records, by rw [hfile]; exact hloaded, fun k => ?_⟩, h.records.congr hsame⟩
    rw [hlookup, hsame]
  · exact ⟨load_keyText lib hrecords.stored, hrecords⟩

theorem Sound.extends (h : Sound lib s) (hregular : s.Regular lib e)
    (hnext : (keyMachine lib).next s e = some s') : Extends s.records s'.records := by
  obtain ⟨-, hsame⟩ | ⟨-, records, rfl, -, hextends⟩ := h.step_cases hregular hnext
  · exact fun k r hr => ⟨r, by rw [hsame]; exact hr, rfl, id⟩
  · exact hextends

theorem sound_initial (lib : KeyLibrary) : Sound lib ⟨∅, none⟩ :=
  ⟨⟨∅, rfl, fun _ => rfl⟩, soundRecords_empty⟩

theorem sound_of_reach (h : Sound lib s) (hreach : (keyMachine lib).Reach (Regular lib) s s') :
    Sound lib s' ∧ Extends s.records s'.records := by
  let Inv : ApiKeyStore → Prop := fun s' => Sound lib s' ∧ Extends s.records s'.records
  have hstart : Inv s := ⟨h, fun k r hr => ⟨r, hr, rfl, id⟩⟩
  show Inv s'
  refine hreach.invariant hstart ?_
  rintro s₁ e s₂ ⟨hsound, hextends⟩ hregular hnext
  refine ⟨hsound.step hregular hnext, fun k r hr => ?_⟩
  obtain ⟨r₁, hr₁, hhash₁, hrevoked₁⟩ := hextends k r hr
  obtain ⟨r₂, hr₂, hhash₂, hrevoked₂⟩ := hsound.extends hregular hnext k r₁ hr₁
  exact ⟨r₂, hr₂, hhash₂.trans hhash₁, fun hrevoked => hrevoked₂ (hrevoked₁ hrevoked)⟩

/-- The secret of a revoked record is not accepted. -/
theorem Sound.verify_revoked (h : Sound lib s) {k : String} {r : ApiKeyRecord}
    (hr : s.records.lookup k = some r) (hrevoked : r.revokedAt.isSome = true) {secret : String}
    (hsecret : lib.keyHash secret = r.secretHash) : s.verify lib secret = false := by
  have hnone : (s.records.items.any fun e =>
      e.2.revokedAt.isNone && e.2.secretHash == lib.keyHash secret) = false := by
    rw [List.any_eq_false]
    rintro ⟨k', r'⟩ hmem hmatch
    have hr' := Dict.mem_items.mp hmem
    rw [Bool.and_eq_true, beq_iff_eq] at hmatch
    obtain rfl : k' = k := h.records.hashes k' r' k r hr' hr (hmatch.2.trans hsecret)
    rw [hr] at hr'
    obtain rfl := Option.some.inj hr'
    rw [Option.isNone_iff_eq_none.mp hmatch.1] at hrevoked
    cases hrevoked
  unfold verify
  rw [hnone, Bool.and_false]

end ApiKeyStore

/-! ### Main result -/

/-- **The key store reloads what it wrote.** After every run whose stored changes are regular, the file is
accepted and yields exactly the records in memory; a write that fails leaves both as they were; a revoked
secret is never accepted again; and where there is a key, there is an active one. -/
theorem key_store_reloads {lib : KeyLibrary} {s : ApiKeyStore}
    (hreach : (keyMachine lib).Reach (ApiKeyStore.Regular lib) ⟨∅, none⟩ s) :
    (∃ records, load lib s.file = .ok records ∧ ∀ k, records.lookup k = s.records.lookup k) ∧
      (∀ e s', s.Regular lib e → e.write? = some .failed → (keyMachine lib).next s e = some s' →
        s.Same s') ∧
      (∀ k r, s.records.lookup k = some r → r.revokedAt.isSome = true →
        ∀ s', (keyMachine lib).Reach (ApiKeyStore.Regular lib) s s' →
          ∀ secret, lib.keyHash secret = r.secretHash → s'.verify lib secret = false) ∧
      ∀ k r, s.records.lookup k = some r →
        ∃ k' r', s.records.lookup k' = some r' ∧ r'.revokedAt = none := by
  obtain ⟨hsound, -⟩ := ApiKeyStore.sound_of_reach (ApiKeyStore.sound_initial lib) hreach
  refine ⟨hsound.loaded, fun e s' hregular hfailed hnext => ?_, fun k r hr hrevoked s' hreach' => ?_,
    hsound.records.active⟩
  · rcases hsound.step_cases hregular hnext with hsame | ⟨hdone, -⟩
    · exact hsame
    · rw [hfailed] at hdone
      cases hdone
  · obtain ⟨hsound', hextends⟩ := ApiKeyStore.sound_of_reach hsound hreach'
    obtain ⟨r', hr', hhash, hrevoked'⟩ := hextends k r hr
    intro secret hsecret
    exact hsound'.verify_revoked hr' (hrevoked' hrevoked) (hsecret.trans hhash.symm)

/-! ### Two keys -/

/-- The digests of two secrets. -/
def twoSecrets : KeyLibrary where
  keyHash secret :=
    if secret = "a" then "2c7e71672d4a623ceb59e5ad552f9d23fc3fa625e0b2e80077b7ea8795299873"
    else if secret = "b" then "d317e513b61f2845d968e6fc354a678717d0888cd96ecc93220e8671c1e90ada"
    else "65e32eca4317451d0b6fcdbd16b01864305562f30e57af51fe8de16175a2ae63"
  casefold s := s
  keyHash_digest secret := by
    split
    · decide +kernel
    · split <;> decide +kernel
  casefold_id _ _ := rfl

/-- A token of one digit, repeated. -/
def tokenOf (digit : Char) (h : isToken (List.replicate 16 digit) = true) : HexToken :=
  ⟨String.ofList (List.replicate 16 digit), by rw [String.toList_ofList]; exact h⟩

/-- Two keys are created, and the first one is revoked at some time. -/
def createTwoAndRevoke (now : Int) : List KeyEvent :=
  [.ensureKey "a" "desktop" (tokenOf '0' (by decide)) 10 .done,
    .ensureKey "b" "phone" (tokenOf '1' (by decide)) 11 .done,
    .revoke "key_0000000000000000" now .done]

/-- The records after the run. -/
def twoRecords (now : Int) : List ApiKeyRecord :=
  [⟨"key_0000000000000000", "desktop", twoSecrets.keyHash "a", 10, some now⟩,
    ⟨"key_1111111111111111", "phone", twoSecrets.keyHash "b", 11, none⟩]

theorem run_createTwoAndRevoke (now : Int) (h : now = 9 ∨ now = 12) :
    ∃ records, (keyMachine twoSecrets).run ⟨∅, none⟩ (createTwoAndRevoke now) =
        some ⟨records, some (keyText records)⟩ ∧ sortedRecords records = twoRecords now := by
  refine ⟨_, rfl, ?_⟩
  rcases h with rfl | rfl <;> decide +kernel

/-- A clock that was set forward in between: the file is read back. -/
theorem key_store_reloads_after_revocation :
    ∃ s, (keyMachine twoSecrets).run ⟨∅, none⟩ (createTwoAndRevoke 12) = some s ∧
      ∃ records, load twoSecrets s.file = .ok records ∧ ∀ k, records.lookup k = s.records.lookup k := by
  obtain ⟨records, hrun, -⟩ := run_createTwoAndRevoke 12 (Or.inr rfl)
  have hregular : (keyMachine twoSecrets).Along (ApiKeyStore.Regular twoSecrets) ⟨∅, none⟩
      (createTwoAndRevoke 12) := by decide +kernel
  exact ⟨_, hrun, (key_store_reloads (Machine.reach_of_run hrun hregular)).1⟩

/-- A clock that was set back before the revocation: the next start refuses the file. -/
theorem revocation_with_an_earlier_clock_locks_out :
    ∃ s, (keyMachine twoSecrets).run ⟨∅, none⟩ (createTwoAndRevoke 9) = some s ∧
      (load twoSecrets s.file).isOk = false ∧
      (keyMachine twoSecrets).next s .restart = none := by
  obtain ⟨records, hrun, hrecords⟩ := run_createTwoAndRevoke 9 (Or.inl rfl)
  have hload : (load twoSecrets (some (keyText records))).isOk = false := by
    rw [load_keyText_eq, hrecords]
    decide +kernel
  refine ⟨_, hrun, hload, ?_⟩
  unfold keyMachine
  dsimp only
  cases hresult : load twoSecrets (some (keyText records)) with
  | ok loaded =>
    rw [hresult] at hload
    cases hload
  | error e => rfl

end Drift.Node
