import Drift.Identity.TrustStore

/-!
# What the store of rotations and revocations accepts

A bundle is accepted or rejected by its records alone, not by their order: `Accepts` says what is asked
of them by membership, and which store comes out. The order shows in one place only, the PeerIDs: a later
rotation overwrites what an earlier one wrote for the same key. What is written is derived from the key,
so it is the same as long as two keys of the bundle do not have one digest.

* `Rotates`, `Accepts` — what the records say, and what is asked of them;
* `accepts_of_fromRecords`, `fromRecords_of_accepts` — that this is what `from_records` does;
* `trust_store_sound` — the result.
-/

namespace Drift.Identity

open Drift.Lib

/-! ### Signatures and keys -/

/-- The bytes of a record are signed by a key with the identifier. -/
def SignedBy (prim : Primitives) (signed : List UInt8 → List UInt8 → Prop) (keyId : String)
    (r : SignedRecord) : Prop :=
  ∃ der, keyId = sha256Prefix ++ prim.sha256Hex der ∧ signed der r.signingBytes

/-- A record that verifies presents the key that its identifier is the digest of, and its signature is
one of that key. -/
theorem verify_ok {prim : Primitives} {r : SignedRecord} {kind : String} {u : Unit}
    (h : r.verify prim kind = .ok u) :
    r.kind = kind ∧ ∃ der signature, r.publicKeyDer prim = .ok der ∧
      r.keyId = sha256Prefix ++ prim.sha256Hex der ∧
      prim.rsaVerify der signature r.signingBytes = true := by
  refine ⟨kind_of_verify h, ?_⟩
  unfold SignedRecord.verify at h
  obtain ⟨_, -, h⟩ := bind_eq_ok.mp h
  obtain ⟨der, hder, h⟩ := bind_eq_ok.mp h
  obtain ⟨_, hkey, h⟩ := bind_eq_ok.mp h
  obtain ⟨_, -, h⟩ := bind_eq_ok.mp h
  obtain ⟨signature, -, h⟩ := bind_eq_ok.mp h
  rw [refuseIf_eq_ok] at hkey h
  exact ⟨der, signature, hder, by simpa using hkey, by simpa using h⟩

theorem lookup_of_fieldEquals {payload : List (String × Json)} {name s : String}
    (h : fieldEquals payload name (.str s) = true) : payload.lookup name = some (.str s) := by
  unfold fieldEquals at h
  split at h
  · next v hv =>
    rw [hv]
    cases v with
    | str t => rw [show t = s by simpa [Json.pyEq] using h]
    | null | bool b | int n | float l q | arr xs | obj fs | foreign n =>
      simp [Json.pyEq, Json.number?] at h
  · cases h

/-- What a verified rotation is made of: two proofs over its payload, each of the key that the payload
names. -/
structure RotationProofs (prim : Primitives) (rotation : List (String × Json))
    (oldKeyId newKeyId : String) where
  payload : List (String × Json)
  oldProof : SignedRecord
  newProof : SignedRecord
  oldDer : List UInt8
  newDer : List UInt8
  payload_eq : field rotation "payload" = .obj payload
  oldProof_eq : SignedRecord.fromDict prim (field rotation "old_proof") = .ok oldProof
  newProof_eq : SignedRecord.fromDict prim (field rotation "new_proof") = .ok newProof
  oldVerified : oldProof.verify prim "identity_rotation_old" = .ok ()
  newVerified : newProof.verify prim "identity_rotation_new" = .ok ()
  covered : (Json.obj oldProof.payload).pyEq (.obj payload) = true ∧
    (Json.obj newProof.payload).pyEq (.obj payload) = true
  oldKey : oldProof.publicKeyDer prim = .ok oldDer ∧ oldKeyId = oldProof.keyId
  newKey : newProof.publicKeyDer prim = .ok newDer ∧ newKeyId = newProof.keyId
  oldNamed : payload.lookup "old_key_id" = some (.str oldKeyId)
  newNamed : payload.lookup "new_key_id" = some (.str newKeyId)
  oldPeer : payload.lookup "old_peer_id" = some (.str (prim.peerIdOfKey oldDer))
  newPeer : payload.lookup "new_peer_id" = some (.str (prim.peerIdOfKey newDer))
  changed : oldKeyId ≠ newKeyId

/-- A rotation that is verified. -/
def Rotates (prim : Primitives) (rotation : List (String × Json)) (oldKeyId newKeyId : String) :
    Prop :=
  verifyRotationRecord prim rotation = .ok (oldKeyId, newKeyId)

/-- **Rotations.** What passes has its two proofs. -/
theorem Rotates.proofs {prim : Primitives} {rotation : List (String × Json)}
    {oldKeyId newKeyId : String} (h : Rotates prim rotation oldKeyId newKeyId) :
    Nonempty (RotationProofs prim rotation oldKeyId newKeyId) := by
  unfold Rotates verifyRotationRecord at h
  obtain ⟨_, -, h⟩ := bind_eq_ok.mp h
  obtain ⟨_, -, h⟩ := bind_eq_ok.mp h
  split at h
  case h_2 => cases h
  next payload hpayload =>
  obtain ⟨_, -, h⟩ := bind_eq_ok.mp h
  obtain ⟨_, -, h⟩ := bind_eq_ok.mp h
  obtain ⟨oldProof, hold, h⟩ := bind_eq_ok.mp h
  obtain ⟨newProof, hnew, h⟩ := bind_eq_ok.mp h
  obtain ⟨_, hverifyOld, h⟩ := bind_eq_ok.mp h
  obtain ⟨_, hverifyNew, h⟩ := bind_eq_ok.mp h
  obtain ⟨_, hcovered, h⟩ := bind_eq_ok.mp h
  obtain ⟨_, -, h⟩ := bind_eq_ok.mp h
  obtain ⟨_, -, h⟩ := bind_eq_ok.mp h
  obtain ⟨oldPeerId, holdPeer, h⟩ := bind_eq_ok.mp h
  obtain ⟨_, holdNamed, h⟩ := bind_eq_ok.mp h
  obtain ⟨newPeerId, hnewPeer, h⟩ := bind_eq_ok.mp h
  obtain ⟨_, hnewNamed, h⟩ := bind_eq_ok.mp h
  obtain ⟨_, hchanged, h⟩ := bind_eq_ok.mp h
  obtain ⟨_, -, h⟩ := bind_eq_ok.mp h
  obtain ⟨_, -, h⟩ := bind_eq_ok.mp h
  obtain ⟨rfl, rfl⟩ := Prod.mk.inj (Except.ok.inj h)
  obtain ⟨oldDer, holdDer, hold'⟩ := bind_eq_ok.mp holdPeer
  obtain ⟨newDer, hnewDer, hnew'⟩ := bind_eq_ok.mp hnewPeer
  obtain rfl := Except.ok.inj hold'
  obtain rfl := Except.ok.inj hnew'
  simp only [refuseIf_eq_ok, Bool.or_eq_false_iff, Bool.not_eq_false'] at hcovered holdNamed hnewNamed
  rw [refuseIf_eq_ok] at hchanged
  exact ⟨{
    payload := payload, oldProof := oldProof, newProof := newProof, oldDer := oldDer, newDer := newDer
    payload_eq := hpayload, oldProof_eq := hold, newProof_eq := hnew
    oldVerified := hverifyOld, newVerified := hverifyNew, covered := hcovered
    oldKey := ⟨holdDer, rfl⟩, newKey := ⟨hnewDer, rfl⟩
    oldNamed := lookup_of_fieldEquals holdNamed.1, newNamed := lookup_of_fieldEquals hnewNamed.1
    oldPeer := lookup_of_fieldEquals holdNamed.2, newPeer := lookup_of_fieldEquals hnewNamed.2
    changed := by simpa using hchanged }⟩

/-- The PeerID that a verified rotation gives a key. -/
def Names (prim : Primitives) (rotation : List (String × Json)) (keyId peerId : String) : Prop :=
  ∃ oldKeyId newKeyId, Rotates prim rotation oldKeyId newKeyId ∧
    (keyId = oldKeyId ∧ peerId = payloadText rotation "old_peer_id" ∨
      keyId = newKeyId ∧ peerId = payloadText rotation "new_peer_id")

/-- A key that a rotation of the bundle presents in one of its proofs. -/
def PresentsKey (prim : Primitives) (records : List Json) (der : List UInt8) : Prop :=
  ∃ fields, .obj fields ∈ records ∧ ∃ name, (name = "old_proof" ∨ name = "new_proof") ∧
    ∃ proof, SignedRecord.fromDict prim (field fields name) = .ok proof ∧
      proof.publicKeyDer prim = .ok der

/-- Two keys that rotations of the bundle present do not have one digest. -/
def CollisionFree (prim : Primitives) (records : List Json) : Prop :=
  ∀ der der', PresentsKey prim records der → PresentsKey prim records der' →
    prim.sha256Hex der = prim.sha256Hex der' → der = der'

theorem payloadText_eq {rotation payload : List (String × Json)} {name s : String}
    (hpayload : field rotation "payload" = .obj payload)
    (hname : payload.lookup name = some (.str s)) : payloadText rotation name = s := by
  unfold payloadText
  rw [hpayload]
  simp only [field, hname, Option.getD_some]

/-- What a rotation of the bundle gives a key is the PeerID derived from it. -/
theorem Names.derived {prim : Primitives} {records : List Json} {rotation : List (String × Json)}
    {keyId peerId : String} (hmem : .obj rotation ∈ records) (h : Names prim rotation keyId peerId) :
    ∃ der, PresentsKey prim records der ∧ keyId = sha256Prefix ++ prim.sha256Hex der ∧
      peerId = prim.peerIdOfKey der := by
  obtain ⟨oldKeyId, newKeyId, hrotates, hnames⟩ := h
  obtain ⟨P⟩ := hrotates.proofs
  rcases hnames with ⟨rfl, rfl⟩ | ⟨rfl, rfl⟩
  · obtain ⟨-, der, -, hder, hkey, -⟩ := verify_ok P.oldVerified
    obtain rfl : der = P.oldDer := Except.ok.inj (hder.symm.trans P.oldKey.1)
    refine ⟨P.oldDer, ⟨rotation, hmem, "old_proof", Or.inl rfl, P.oldProof, P.oldProof_eq, hder⟩,
      P.oldKey.2.trans hkey, ?_⟩
    exact payloadText_eq P.payload_eq P.oldPeer
  · obtain ⟨-, der, -, hder, hkey, -⟩ := verify_ok P.newVerified
    obtain rfl : der = P.newDer := Except.ok.inj (hder.symm.trans P.newKey.1)
    refine ⟨P.newDer, ⟨rotation, hmem, "new_proof", Or.inr rfl, P.newProof, P.newProof_eq, hder⟩,
      P.newKey.2.trans hkey, ?_⟩
    exact payloadText_eq P.payload_eq P.newPeer

/-- Rotations of one bundle do not disagree about a key's PeerID. -/
theorem Names.eq {prim : Primitives} {records : List Json} (hfree : CollisionFree prim records)
    {x y : List (String × Json)} {keyId p q : String} (hx : .obj x ∈ records) (hy : .obj y ∈ records)
    (hp : Names prim x keyId p) (hq : Names prim y keyId q) : p = q := by
  obtain ⟨der, hpresents, hkey, rfl⟩ := hp.derived hx
  obtain ⟨der', hpresents', hkey', rfl⟩ := hq.derived hy
  have hdigest : prim.sha256Hex der = prim.sha256Hex der' := by
    have := hkey.symm.trans hkey'
    exact (String.append_right_inj _).mp this
  rw [hfree der der' hpresents hpresents' hdigest]

/-! ### The loop over the rotations -/

namespace TrustStore

variable {prim : Primitives}

/-- What the store holds once some rotations have been taken in. -/
structure Taken (prim : Primitives) (rotations : List (List (String × Json))) (store : TrustStore) :
    Prop where
  verified : ∀ x ∈ rotations, ∃ oldKeyId newKeyId, Rotates prim x oldKeyId newKeyId
  successors : ∀ oldKeyId newKeyId, store.successors.Leads oldKeyId newKeyId ↔
    ∃ x ∈ rotations, Rotates prim x oldKeyId newKeyId
  named : ∀ keyId peerId, store.peerIds.lookup keyId = some peerId →
    ∃ x ∈ rotations, Names prim x keyId peerId
  covers : ∀ x ∈ rotations, ∀ keyId peerId, Names prim x keyId peerId →
    (store.peerIds.lookup keyId).isSome = true

theorem taken_empty : Taken prim [] empty where
  verified _ hx := absurd hx List.not_mem_nil
  successors _ _ := ⟨fun h => (by cases h), fun ⟨_, hx, _⟩ => absurd hx List.not_mem_nil⟩
  named _ _ h := by cases h
  covers _ hx := absurd hx List.not_mem_nil

/-- A rotation that does not fork from those taken in is taken in. -/
theorem Taken.rotate {rotations : List (List (String × Json))} {store : TrustStore}
    (h : Taken prim rotations store) {x : List (String × Json)} {oldKeyId newKeyId : String}
    (hx : Rotates prim x oldKeyId newKeyId)
    (hfork : ∀ other, store.successors.lookup oldKeyId = some other → other = newKeyId) :
    Taken prim (rotations ++ [x]) (store.rotate oldKeyId newKeyId (payloadText x "old_peer_id")
      (payloadText x "new_peer_id")) where
  verified y hy := by
    rcases List.mem_append.mp hy with hy | hy
    · exact h.verified y hy
    · rw [List.mem_singleton.mp hy]
      exact ⟨_, _, hx⟩
  successors o n := by
    show (store.successors.insert oldKeyId newKeyId).lookup o = some n ↔ _
    rw [Dict.lookup_insert_eq]
    constructor
    · intro hlookup
      split at hlookup
      · next ho =>
        rw [ho, ← Option.some.inj hlookup]
        exact ⟨x, List.mem_append_right _ (List.mem_singleton_self x), hx⟩
      · obtain ⟨y, hy, hrotates⟩ := (h.successors o n).mp hlookup
        exact ⟨y, List.mem_append_left _ hy, hrotates⟩
    · rintro ⟨y, hy, hrotates⟩
      rcases List.mem_append.mp hy with hy | hy
      · have hbefore : store.successors.lookup o = some n := (h.successors o n).mpr ⟨y, hy, hrotates⟩
        split
        · next ho =>
          rw [ho] at hbefore
          rw [hfork n hbefore]
        · exact hbefore
      · rw [List.mem_singleton.mp hy] at hrotates
        obtain ⟨rfl, rfl⟩ := Prod.mk.inj (Except.ok.inj (hx.symm.trans hrotates))
        rw [if_pos rfl]
  named k p hlookup := by
    have hlookup : ((store.peerIds.insert oldKeyId (payloadText x "old_peer_id")).insert newKeyId
        (payloadText x "new_peer_id")).lookup k = some p := hlookup
    have hlast : x ∈ rotations ++ [x] := List.mem_append_right _ (List.mem_singleton_self x)
    rw [Dict.lookup_insert_eq] at hlookup
    split at hlookup
    · next hk => exact ⟨x, hlast, oldKeyId, newKeyId, hx, Or.inr ⟨hk, (Option.some.inj hlookup).symm⟩⟩
    rw [Dict.lookup_insert_eq] at hlookup
    split at hlookup
    · next hk => exact ⟨x, hlast, oldKeyId, newKeyId, hx, Or.inl ⟨hk, (Option.some.inj hlookup).symm⟩⟩
    · obtain ⟨y, hy, hnames⟩ := h.named k p hlookup
      exact ⟨y, List.mem_append_left _ hy, hnames⟩
  covers y hy k p hnames := by
    show (((store.peerIds.insert oldKeyId (payloadText x "old_peer_id")).insert newKeyId
      (payloadText x "new_peer_id")).lookup k).isSome = true
    rw [Dict.lookup_insert_eq, Dict.lookup_insert_eq]
    split
    · rfl
    next hnew =>
    split
    · rfl
    next hold =>
    rcases List.mem_append.mp hy with hy | hy
    · exact h.covers y hy k p hnames
    · obtain ⟨o, n, hrotates, hk⟩ := hnames
      rw [List.mem_singleton.mp hy] at hrotates
      obtain ⟨rfl, rfl⟩ := Prod.mk.inj (Except.ok.inj (hx.symm.trans hrotates))
      rcases hk with ⟨hk, -⟩ | ⟨hk, -⟩
      · exact absurd hk hold
      · exact absurd hk hnew

theorem addRotation_ok {store store' : TrustStore} {x : List (String × Json)} :
    addRotation prim store x = .ok store' ↔ ∃ oldKeyId newKeyId, Rotates prim x oldKeyId newKeyId ∧
      (∀ other, store.successors.lookup oldKeyId = some other → other = newKeyId) ∧
      store' = store.rotate oldKeyId newKeyId (payloadText x "old_peer_id")
        (payloadText x "new_peer_id") := by
  unfold addRotation
  rw [bind_eq_ok]
  constructor
  · rintro ⟨⟨o, n⟩, hx, h⟩
    obtain ⟨_, hfork, h⟩ := bind_eq_ok.mp h
    refine ⟨o, n, hx, fun other hother => ?_, (Except.ok.inj h).symm⟩
    rw [refuseIf_eq_ok] at hfork
    simpa [hother] using hfork
  · rintro ⟨o, n, hx, hfork, rfl⟩
    refine ⟨(o, n), hx, bind_eq_ok.mpr ⟨(), ?_, rfl⟩⟩
    rw [refuseIf_eq_ok]
    cases hother : store.successors.lookup o with
    | none => rfl
    | some other => simp [hfork other hother]

/-- What the loop over the rotations takes in. -/
theorem taken_of_foldlM :
    ∀ {rest done : List (List (String × Json))} {store store' : TrustStore}, Taken prim done store →
      rest.foldlM (addRotation prim) store = .ok store' →
        Taken prim (done ++ rest) store' ∧ store'.revokedKeyIds = store.revokedKeyIds
  | [], done, store, store', h, hloop => by
    obtain rfl : store = store' := Except.ok.inj hloop
    rw [List.append_nil]
    exact ⟨h, rfl⟩
  | x :: rest, done, store, store', h, hloop => by
    rw [List.foldlM_cons] at hloop
    obtain ⟨store₁, hx, hloop⟩ := bind_eq_ok.mp hloop
    obtain ⟨o, n, hrotates, hfork, rfl⟩ := addRotation_ok.mp hx
    obtain ⟨htaken, hrevoked⟩ := taken_of_foldlM (h.rotate hrotates hfork) hloop
    rw [List.append_assoc, List.singleton_append] at htaken
    exact ⟨htaken, hrevoked⟩

/-- The loop over the rotations ends, if all are verified and none forks from another. -/
theorem foldlM_addRotation :
    ∀ {rest done : List (List (String × Json))} {store : TrustStore}, Taken prim done store →
      (∀ x ∈ rest, ∃ oldKeyId newKeyId, Rotates prim x oldKeyId newKeyId) →
      (∀ x ∈ done ++ rest, ∀ y ∈ done ++ rest, ∀ o n n', Rotates prim x o n → Rotates prim y o n' →
        n = n') →
      ∃ store', rest.foldlM (addRotation prim) store = .ok store'
  | [], _, store, _, _, _ => ⟨store, rfl⟩
  | x :: rest, done, store, h, hverified, hfork => by
    obtain ⟨o, n, hrotates⟩ := hverified x List.mem_cons_self
    have hnofork : ∀ other, store.successors.lookup o = some other → other = n := by
      intro other hother
      obtain ⟨y, hy, hrotates'⟩ := (h.successors o other).mp hother
      exact hfork y (List.mem_append_left _ hy) x (List.mem_append_right _ List.mem_cons_self) o other n
        hrotates' hrotates
    obtain ⟨store', hloop⟩ := foldlM_addRotation (h.rotate hrotates hnofork)
      (fun y hy => hverified y (List.mem_cons_of_mem x hy))
      (by rw [List.append_assoc, List.singleton_append]; exact hfork)
    refine ⟨store', ?_⟩
    rw [List.foldlM_cons, addRotation_ok.mpr ⟨o, n, hrotates, hnofork, rfl⟩]
    exact hloop

theorem checkCycles_ok {store : TrustStore} :
    store.checkCycles = .ok () ↔ store.successors.Acyclic := by
  rw [← Dict.comesBack_iff]
  unfold checkCycles
  generalize store.successors.keys = keys
  induction keys with
  | nil => exact iff_of_true rfl fun _ hx => absurd hx List.not_mem_nil
  | cons x keys ih =>
    rw [List.forall_mem_cons, ← ih]
    refine Iff.trans bind_eq_ok ?_
    constructor
    · rintro ⟨_, hx, h⟩
      exact ⟨refuseIf_eq_ok.mp hx, h⟩
    · rintro ⟨hx, h⟩
      exact ⟨(), refuseIf_eq_ok.mpr hx, h⟩

/-! ### The loop over the revocations -/

/-- Whether a revocation passes does not depend on the keys that are revoked already. -/
theorem addRevocation_ok {store store' : TrustStore} {x : List (String × Json)} :
    addRevocation prim store x = .ok store' ↔ ∃ keyId, store.checkRevocation prim x = .ok keyId ∧
      store' = { store with revokedKeyIds := store.revokedKeyIds.insert keyId } := by
  unfold addRevocation
  rw [bind_eq_ok]
  exact exists_congr fun keyId => and_congr_right fun _ =>
    ⟨fun h => (Except.ok.inj h).symm, fun h => congrArg Except.ok h.symm⟩

/-- What the loop over the revocations does to the store. -/
structure Revoked (prim : Primitives) (revocations : List (List (String × Json)))
    (store store' : TrustStore) : Prop where
  checked : ∀ x ∈ revocations, ∃ keyId, store.checkRevocation prim x = .ok keyId
  successors : store'.successors = store.successors
  peerIds : store'.peerIds = store.peerIds
  revoked : ∀ keyId, keyId ∈ store'.revokedKeyIds ↔ keyId ∈ store.revokedKeyIds ∨
    ∃ x ∈ revocations, store.checkRevocation prim x = .ok keyId

theorem revoked_of_foldlM :
    ∀ {rest : List (List (String × Json))} {store store' : TrustStore},
      rest.foldlM (addRevocation prim) store = .ok store' → Revoked prim rest store store'
  | [], store, store', hloop => by
    obtain rfl : store = store' := Except.ok.inj hloop
    exact ⟨fun _ hx => absurd hx List.not_mem_nil, rfl, rfl,
      fun _ => ⟨Or.inl, fun h => h.elim id fun ⟨_, hx, _⟩ => absurd hx List.not_mem_nil⟩⟩
  | x :: rest, store, store', hloop => by
    rw [List.foldlM_cons] at hloop
    obtain ⟨store₁, hx, hloop⟩ := bind_eq_ok.mp hloop
    obtain ⟨keyId, hcheck, rfl⟩ := addRevocation_ok.mp hx
    obtain ⟨hchecked, hsuccessors, hpeerIds, hrevoked⟩ := revoked_of_foldlM hloop
    refine ⟨List.forall_mem_cons.mpr ⟨⟨keyId, hcheck⟩, hchecked⟩, hsuccessors, hpeerIds, fun k => ?_⟩
    have hinsert : k ∈ store.revokedKeyIds.insert keyId ↔ k = keyId ∨ k ∈ store.revokedKeyIds :=
      List.mem_insert_iff
    have hfirst : store.checkRevocation prim x = .ok k ↔ k = keyId := by
      rw [hcheck]
      exact ⟨fun h => (Except.ok.inj h).symm, fun h => congrArg Except.ok h.symm⟩
    rw [hrevoked k, List.exists_mem_cons_iff, hfirst]
    show k ∈ store.revokedKeyIds.insert keyId ∨ _ ↔ _
    rw [hinsert]
    tauto

/-- The loop over the revocations ends, if all pass. -/
theorem foldlM_addRevocation :
    ∀ (rest : List (List (String × Json))) (store : TrustStore),
      (∀ x ∈ rest, ∃ keyId, store.checkRevocation prim x = .ok keyId) →
      ∃ store', rest.foldlM (addRevocation prim) store = .ok store'
  | [], store, _ => ⟨store, rfl⟩
  | x :: rest, store, h => by
    obtain ⟨keyId, hx⟩ := h x List.mem_cons_self
    obtain ⟨store', hloop⟩ := foldlM_addRevocation rest
      { store with revokedKeyIds := store.revokedKeyIds.insert keyId }
      fun y hy => h y (List.mem_cons_of_mem x hy)
    refine ⟨store', ?_⟩
    rw [List.foldlM_cons, addRevocation_ok.mpr ⟨keyId, hx, rfl⟩]
    exact hloop

/-! ### Bundles -/

/-- The two stores are the same set and the same dictionaries. -/
structure Same (s t : TrustStore) : Prop where
  revoked : ∀ keyId, keyId ∈ s.revokedKeyIds ↔ keyId ∈ t.revokedKeyIds
  successors : ∀ keyId, s.successors.lookup keyId = t.successors.lookup keyId
  peerIds : ∀ keyId, s.peerIds.lookup keyId = t.peerIds.lookup keyId

/-- **What `from_records` asks of a bundle**, by membership, and the store it makes of it. -/
structure Accepts (prim : Primitives) (records : List Json) (store : TrustStore) : Prop where
  known : ∀ item ∈ records, known item = true
  taken : Taken prim (ofKind "identity_rotation" records) store
  acyclic : store.successors.Acyclic
  checked : ∀ x ∈ ofKind "identity_revocation" records,
    ∃ keyId, store.checkRevocation prim x = .ok keyId
  revoked : ∀ keyId, keyId ∈ store.revokedKeyIds ↔
    ∃ x ∈ ofKind "identity_revocation" records, store.checkRevocation prim x = .ok keyId

theorem leads_congr {d e : Dict String String} (h : ∀ keyId, d.lookup keyId = e.lookup keyId) :
    d.Leads = e.Leads := by
  funext x y
  rw [Dict.Leads, Dict.Leads, h x]

/-- The checks of a revocation read the dictionaries of the store by key. -/
theorem checkRevocation_congr {s t : TrustStore} (hs : s.successors.Acyclic)
    (hsuccessors : ∀ keyId, s.successors.lookup keyId = t.successors.lookup keyId)
    (hpeerIds : ∀ keyId, s.peerIds.lookup keyId = t.peerIds.lookup keyId) :
    s.checkRevocation prim = t.checkRevocation prim := by
  have hleads := leads_congr hsuccessors
  have ht : t.successors.Acyclic := by
    rw [Dict.Acyclic, ← hleads]
    exact hs
  have hsuccessor : s.isSuccessor = t.isSuccessor := by
    funext candidate predecessor
    rw [Bool.eq_iff_iff, isSuccessor, isSuccessor, s.successors.passes_iff hs,
      t.successors.passes_iff ht, hleads]
  funext x
  simp only [checkRevocation, expectedPeerId, hsuccessor, hpeerIds]

theorem accepts_of_fromRecords {records : List Json} {store : TrustStore}
    (h : fromRecords prim records = .ok store) : Accepts prim records store := by
  unfold fromRecords at h
  obtain ⟨_, hknown, h⟩ := bind_eq_ok.mp h
  obtain ⟨rotated, hrotations, h⟩ := bind_eq_ok.mp h
  obtain ⟨_, hcycles, h⟩ := bind_eq_ok.mp h
  obtain ⟨htaken, hnone⟩ := taken_of_foldlM taken_empty hrotations
  obtain ⟨hchecked, hsuccessors, hpeerIds, hrevoked⟩ := revoked_of_foldlM h
  rw [List.nil_append] at htaken
  have hacyclic := checkCycles_ok.mp hcycles
  -- the revocations leave the dictionaries as the rotations have made them
  have hcheck : store.checkRevocation prim = rotated.checkRevocation prim :=
    (checkRevocation_congr hacyclic (fun _ => by rw [hsuccessors]) (fun _ => by rw [hpeerIds])).symm
  exact
    { known := by simpa [refuseIf_eq_ok] using hknown
      taken :=
        { verified := htaken.verified
          successors := by rw [hsuccessors]; exact htaken.successors
          named := by rw [hpeerIds]; exact htaken.named
          covers := by rw [hpeerIds]; exact htaken.covers }
      acyclic := by rw [hsuccessors]; exact hacyclic
      checked := by rw [hcheck]; exact hchecked
      revoked := fun keyId => by
        rw [hrevoked keyId, hnone, hcheck]
        exact or_iff_right List.not_mem_nil }

/-- The PeerIDs of two stores agree, where the rotations they come from do not disagree. -/
theorem Taken.same {rotations : List (List (String × Json))} {s t : TrustStore}
    (hs : Taken prim rotations s) (ht : Taken prim rotations t)
    (heq : ∀ x ∈ rotations, ∀ y ∈ rotations, ∀ keyId p q, Names prim x keyId p →
      Names prim y keyId q → p = q) :
    (∀ keyId, s.successors.lookup keyId = t.successors.lookup keyId) ∧
      ∀ keyId, s.peerIds.lookup keyId = t.peerIds.lookup keyId := by
  constructor
  · intro keyId
    apply Option.ext
    intro n
    exact (hs.successors keyId n).trans (ht.successors keyId n).symm
  · intro keyId
    cases hp : s.peerIds.lookup keyId with
    | some p =>
      obtain ⟨x, hx, hnames⟩ := hs.named keyId p hp
      obtain ⟨q, hq⟩ := Option.isSome_iff_exists.mp (ht.covers x hx keyId p hnames)
      obtain ⟨y, hy, hnames'⟩ := ht.named keyId q hq
      rw [hq, heq x hx y hy keyId p q hnames hnames']
    | none =>
      cases hq : t.peerIds.lookup keyId with
      | none => rfl
      | some q =>
        obtain ⟨y, hy, hnames⟩ := ht.named keyId q hq
        have := hs.covers y hy keyId q hnames
        rw [hp] at this
        cases this

theorem obj_of_mem_ofKind {kind : String} {records : List Json} {x : List (String × Json)}
    (hx : x ∈ ofKind kind records) : .obj x ∈ records := by
  unfold ofKind at hx
  obtain ⟨item, hitem, hsome⟩ := List.mem_filterMap.mp hx
  split at hsome
  · split at hsome
    · obtain rfl := Option.some.inj hsome
      exact hitem
    · cases hsome
  · cases hsome

/-- **A bundle that is accepted is accepted by `from_records`**, with the same store. -/
theorem fromRecords_of_accepts {records : List Json} {store : TrustStore}
    (hfree : CollisionFree prim records) (h : Accepts prim records store) :
    ∃ store', fromRecords prim records = .ok store' ∧ Same store' store := by
  obtain ⟨rotated, hrotations⟩ := foldlM_addRotation taken_empty h.taken.verified
    (fun x hx y hy o n n' hn hn' => by
      rw [List.nil_append] at hx hy
      exact ((h.taken.successors o n).mpr ⟨x, hx, hn⟩).eq ((h.taken.successors o n').mpr ⟨y, hy, hn'⟩))
  obtain ⟨htaken, hnone⟩ := taken_of_foldlM taken_empty hrotations
  rw [List.nil_append] at htaken
  obtain ⟨hsuccessors, hpeerIds⟩ := htaken.same h.taken fun x hx y hy _ _ _ hp hq =>
    hp.eq hfree (obj_of_mem_ofKind hx) (obj_of_mem_ofKind hy) hq
  have hacyclic : rotated.successors.Acyclic := by
    rw [Dict.Acyclic, leads_congr hsuccessors]
    exact h.acyclic
  have hcheck : rotated.checkRevocation prim = store.checkRevocation prim :=
    checkRevocation_congr hacyclic hsuccessors hpeerIds
  obtain ⟨store', hrevocations⟩ := foldlM_addRevocation (ofKind "identity_revocation" records)
    rotated (by rw [hcheck]; exact h.checked)
  obtain ⟨-, hsuccessors', hpeerIds', hrevoked⟩ := revoked_of_foldlM hrevocations
  refine ⟨store', ?_, fun keyId => ?_, fun keyId => ?_, fun keyId => ?_⟩
  · unfold fromRecords
    refine bind_eq_ok.mpr ⟨(), ?_, bind_eq_ok.mpr ⟨rotated, hrotations,
      bind_eq_ok.mpr ⟨(), checkCycles_ok.mpr hacyclic, hrevocations⟩⟩⟩
    rw [refuseIf_eq_ok]
    simpa using h.known
  · rw [hrevoked keyId, hnone, hcheck, h.revoked keyId]
    exact or_iff_right List.not_mem_nil
  · rw [hsuccessors', hsuccessors]
  · rw [hpeerIds', hpeerIds]

/-- What is asked of a bundle does not depend on its order. -/
theorem Accepts.perm {records records' : List Json} {store : TrustStore}
    (hperm : records.Perm records') (h : Accepts prim records store) :
    Accepts prim records' store := by
  have hkind : ∀ kind x, x ∈ ofKind kind records' ↔ x ∈ ofKind kind records := fun kind x =>
    (hperm.filterMap _).mem_iff.symm
  exact
    { known := fun item hitem => h.known item (hperm.mem_iff.mpr hitem)
      taken :=
        { verified := fun x hx => h.taken.verified x ((hkind _ x).mp hx)
          successors := fun o n => by
            rw [h.taken.successors o n]
            exact exists_congr fun x => and_congr_left fun _ => (hkind _ x).symm
          named := fun keyId p hp => by
            obtain ⟨x, hx, hnames⟩ := h.taken.named keyId p hp
            exact ⟨x, (hkind _ x).mpr hx, hnames⟩
          covers := fun x hx => h.taken.covers x ((hkind _ x).mp hx) }
      acyclic := h.acyclic
      checked := fun x hx => h.checked x ((hkind _ x).mp hx)
      revoked := fun keyId => by
        rw [h.revoked keyId]
        exact exists_congr fun x => and_congr_left fun _ => (hkind _ x).symm }

end TrustStore

open TrustStore

variable {prim : Primitives}

theorem CollisionFree.perm {records records' : List Json} (hperm : records.Perm records')
    (h : CollisionFree prim records) : CollisionFree prim records' := by
  have hpresents : ∀ der, PresentsKey prim records' der → PresentsKey prim records der := by
    rintro der ⟨fields, hmem, hrest⟩
    exact ⟨fields, hperm.mem_iff.mpr hmem, hrest⟩
  exact fun der der' hder hder' => h der der' (hpresents der hder) (hpresents der' hder')

/-- A rotation of the bundle that is verified. -/
def RotatesIn (prim : Primitives) (records : List Json) (oldKeyId newKeyId : String) : Prop :=
  ∃ rotation ∈ ofKind "identity_rotation" records, Rotates prim rotation oldKeyId newKeyId

/-- **Who may revoke a key.** A revocation of it that verifies is signed by a key, which is the key
itself or one that it leads to by rotations of the bundle that are verified. -/
def RevokedBy (prim : Primitives) (signed : List UInt8 → List UInt8 → Prop) (records : List Json)
    (keyId : String) : Prop :=
  ∃ revocation ∈ ofKind "identity_revocation" records, ∃ record,
    SignedRecord.fromDict prim (.obj revocation) = .ok record ∧
    record.kind = "identity_revocation" ∧
    record.payload.lookup "revoked_key_id" = some (.str keyId) ∧
    SignedBy prim signed record.keyId record ∧
    (record.keyId = keyId ∨ Relation.TransGen (RotatesIn prim records) keyId record.keyId)

/-- A rotation is attested by both keys: each has signed a proof over the payload, which names them. -/
def Attested (prim : Primitives) (signed : List UInt8 → List UInt8 → Prop)
    (oldKeyId newKeyId : String) : Prop :=
  ∃ (payload : List (String × Json)) (oldProof newProof : SignedRecord),
    oldProof.kind = "identity_rotation_old" ∧ newProof.kind = "identity_rotation_new" ∧
    (Json.obj oldProof.payload).pyEq (.obj payload) = true ∧
    (Json.obj newProof.payload).pyEq (.obj payload) = true ∧
    payload.lookup "old_key_id" = some (.str oldKeyId) ∧
    payload.lookup "new_key_id" = some (.str newKeyId) ∧
    SignedBy prim signed oldKeyId oldProof ∧ SignedBy prim signed newKeyId newProof

section Unforgeable

variable {signed : List UInt8 → List UInt8 → Prop}

theorem signedBy_of_verify
    (hunforgeable : ∀ der signature bytes, prim.rsaVerify der signature bytes = true → signed der bytes)
    {r : SignedRecord} {kind : String} {u : Unit} (h : r.verify prim kind = .ok u) :
    SignedBy prim signed r.keyId r := by
  obtain ⟨-, der, signature, -, hkey, hverify⟩ := verify_ok h
  exact ⟨der, hkey, hunforgeable der signature _ hverify⟩

theorem Rotates.attested
    (hunforgeable : ∀ der signature bytes, prim.rsaVerify der signature bytes = true → signed der bytes)
    {rotation : List (String × Json)} {oldKeyId newKeyId : String}
    (h : Rotates prim rotation oldKeyId newKeyId) : Attested prim signed oldKeyId newKeyId := by
  obtain ⟨P⟩ := h.proofs
  obtain ⟨oldDer, hold, holdSigned⟩ := signedBy_of_verify hunforgeable P.oldVerified
  obtain ⟨newDer, hnew, hnewSigned⟩ := signedBy_of_verify hunforgeable P.newVerified
  exact ⟨P.payload, P.oldProof, P.newProof, kind_of_verify P.oldVerified,
    kind_of_verify P.newVerified, P.covered.1, P.covered.2, P.oldNamed, P.newNamed,
    ⟨oldDer, P.oldKey.2.trans hold, holdSigned⟩, newDer, P.newKey.2.trans hnew, hnewSigned⟩

theorem lookup_of_requireText {v : Option Json} {name s : String}
    (h : requireText prim v name = .ok s) : v = some (.str s) := by
  unfold requireText at h
  split at h
  · split at h
    · cases h
    split at h
    · cases h
    · rw [Except.ok.inj h]
  · cases h

theorem lookup_of_requireKeyId {v : Option Json} {name s : String}
    (h : requireKeyId prim v name = .ok s) : v = some (.str s) := by
  unfold requireKeyId at h
  obtain ⟨t, ht, h⟩ := bind_eq_ok.mp h
  split at h
  · cases h
  · obtain ⟨_, -, h⟩ := bind_eq_ok.mp h
    rw [lookup_of_requireText ht, Except.ok.inj h]

/-- **Revocations.** What passes was signed by the key that is revoked, or by a successor. -/
theorem checkRevocation_ok
    (hunforgeable : ∀ der signature bytes, prim.rsaVerify der signature bytes = true → signed der bytes)
    {store : TrustStore} {revocation : List (String × Json)} {keyId : String}
    (h : store.checkRevocation prim revocation = .ok keyId) :
    ∃ record, SignedRecord.fromDict prim (.obj revocation) = .ok record ∧
      record.kind = "identity_revocation" ∧
      record.payload.lookup "revoked_key_id" = some (.str keyId) ∧
      SignedBy prim signed record.keyId record ∧
      (record.keyId = keyId ∨ store.isSuccessor record.keyId keyId = true) := by
  unfold checkRevocation at h
  obtain ⟨record, hrecord, h⟩ := bind_eq_ok.mp h
  obtain ⟨_, hverify, h⟩ := bind_eq_ok.mp h
  obtain ⟨_, -, h⟩ := bind_eq_ok.mp h
  obtain ⟨authority, -, h⟩ := bind_eq_ok.mp h
  obtain ⟨revoked, hrevoked, h⟩ := bind_eq_ok.mp h
  obtain ⟨_, -, h⟩ := bind_eq_ok.mp h
  obtain ⟨_, hauthority, h⟩ := bind_eq_ok.mp h
  iterate 3 obtain ⟨_, -, h⟩ := bind_eq_ok.mp h
  obtain ⟨_, hproven, h⟩ := bind_eq_ok.mp h
  obtain ⟨_, -, h⟩ := bind_eq_ok.mp h
  obtain ⟨_, -, h⟩ := bind_eq_ok.mp h
  obtain rfl := Except.ok.inj h
  obtain rfl : authority = record.keyId := by
    rw [refuseIf_eq_ok] at hauthority
    simpa using hauthority
  refine ⟨record, hrecord, kind_of_verify hverify, lookup_of_requireKeyId hrevoked,
    signedBy_of_verify hunforgeable hverify, ?_⟩
  rw [refuseIf_eq_ok] at hproven
  rcases eq_or_ne record.keyId revoked with heq | hne
  · exact Or.inl heq
  · right
    simpa [hne] using hproven

end Unforgeable

/-! ### The result -/

/-- **The store of rotations and revocations.** With signatures that cannot be forged and keys told apart
by their digests, a bundle gives the same store in every order, or is rejected in every order. A store
that is accepted has successors that are functional and without a cycle; a key is revoked only by itself
or by a successor; `_is_successor` is the transitive closure of the rotations that were verified, which
both keys have signed. -/
theorem trust_store_sound (prim : Primitives) (signed : List UInt8 → List UInt8 → Prop)
    (hunforgeable : ∀ der signature bytes, prim.rsaVerify der signature bytes = true → signed der bytes)
    (records : List Json) (hfree : CollisionFree prim records) :
    (∀ records', records.Perm records' →
      Agree Same (fromRecords prim records) (fromRecords prim records')) ∧
    (∀ oldKeyId newKeyId, RotatesIn prim records oldKeyId newKeyId →
      Attested prim signed oldKeyId newKeyId) ∧
    ∀ store, fromRecords prim records = .ok store →
      (∀ x y z, store.successors.Leads x y → store.successors.Leads x z → y = z) ∧
      store.successors.Acyclic ∧
      (∀ keyId ∈ store.revokedKeyIds, RevokedBy prim signed records keyId) ∧
      ∀ candidate predecessor, store.isSuccessor candidate predecessor = true ↔
        Relation.TransGen (RotatesIn prim records) predecessor candidate := by
  refine ⟨fun records' hperm => ?_, ?_, fun store hstore => ?_⟩
  · cases hs : fromRecords prim records with
    | ok s =>
      obtain ⟨t, ht, hsame⟩ := fromRecords_of_accepts (hfree.perm hperm)
        ((accepts_of_fromRecords hs).perm hperm)
      rw [ht]
      exact Agree.ok ⟨fun k => (hsame.revoked k).symm, fun k => (hsame.successors k).symm,
        fun k => (hsame.peerIds k).symm⟩
    | error e =>
      cases ht : fromRecords prim records' with
      | error e' => exact Agree.error
      | ok t =>
        obtain ⟨s, hs', -⟩ := fromRecords_of_accepts hfree
          ((accepts_of_fromRecords ht).perm hperm.symm)
        rw [hs'] at hs
        cases hs
  · rintro o n ⟨rotation, -, hrotates⟩
    exact hrotates.attested hunforgeable
  · have haccepts := accepts_of_fromRecords hstore
    have hleads : store.successors.Leads = RotatesIn prim records := by
      funext o n
      exact propext (haccepts.taken.successors o n)
    have hsuccessor : ∀ candidate predecessor, store.isSuccessor candidate predecessor = true ↔
        Relation.TransGen (RotatesIn prim records) predecessor candidate := by
      intro candidate predecessor
      rw [← hleads]
      exact store.successors.passes_iff haccepts.acyclic candidate predecessor
    refine ⟨fun _ _ _ => Dict.Leads.eq, haccepts.acyclic, fun keyId hrevoked => ?_, hsuccessor⟩
    obtain ⟨revocation, hmem, hcheck⟩ := (haccepts.revoked keyId).mp hrevoked
    obtain ⟨record, hrecord, hkind, hlookup, hsigned, hproven⟩ :=
      checkRevocation_ok hunforgeable hcheck
    exact ⟨revocation, hmem, record, hrecord, hkind, hlookup, hsigned,
      hproven.imp_right (hsuccessor _ _).mp⟩

/-- Cryptographic functions under which every signature is genuine and the key `"k"` has a digest of its
own. -/
def twoKeys : Primitives :=
  { trustingPrimitives with
    sha256Hex := fun der =>
      String.ofList (List.replicate 64 (if der = "k".toUTF8.toList then 'a' else 'b')) }

/-- The identifier of a key. -/
def keyIdOf (key : String) : String := sha256Prefix ++ twoKeys.sha256Hex key.toUTF8.toList

/-- A record of a key. -/
def recordOf (key kind : String) (payload : List (String × Json)) : SignedRecord where
  schemaVersion := signedRecordSchemaVersion
  kind := kind
  algorithm := signatureAlgorithm
  keyId := keyIdOf key
  publicKey := key
  payload := payload
  signature := "s"

def rotationPayload : List (String × Json) :=
  [("old_key_id", .str (keyIdOf "k")), ("old_peer_id", .str "k"), ("new_key_id", .str (keyIdOf "l")),
   ("new_peer_id", .str "l"), ("issued_at_ms", .int 0), ("sequence", .int 0)]

/-- The rotation from `"k"` to `"l"`. -/
def sampleRotation : List (String × Json) :=
  [("schema_version", .int 1), ("kind", .str "identity_rotation"), ("payload", .obj rotationPayload),
   ("old_proof", .obj (recordOf "k" "identity_rotation_old" rotationPayload).toDict),
   ("new_proof", .obj (recordOf "l" "identity_rotation_new" rotationPayload).toDict)]

/-- The revocation of `"k"` by `"l"`. -/
def sampleRevocation : List (String × Json) :=
  (recordOf "l" "identity_revocation"
    [("authority_key_id", .str (keyIdOf "l")), ("revoked_key_id", .str (keyIdOf "k")),
     ("revoked_peer_id", .str "k"), ("issued_at_ms", .int 0), ("sequence", .int 0),
     ("reason", .str "")]).toDict

def sampleBundle : List Json := [.obj sampleRotation, .obj sampleRevocation]

theorem sampleBundle_collisionFree : CollisionFree twoKeys sampleBundle := by
  have hpresents : ∀ der, PresentsKey twoKeys sampleBundle der →
      der = "k".toUTF8.toList ∨ der = "l".toUTF8.toList := by
    rintro der ⟨fields, hmem, name, hname, proof, hproof, hder⟩
    -- a proof of the rotation, or a field that the revocation does not have
    have hfields : fields = sampleRotation ∨ fields = sampleRevocation := by
      simpa [sampleBundle] using hmem
    rcases hfields with rfl | rfl
    · rcases hname with rfl | rfl
      · have hold : SignedRecord.fromDict twoKeys (field sampleRotation "old_proof") =
            .ok (recordOf "k" "identity_rotation_old" rotationPayload) := rfl
        obtain rfl := Except.ok.inj (hold.symm.trans hproof)
        exact Or.inl (Except.ok.inj hder).symm
      · have hnew : SignedRecord.fromDict twoKeys (field sampleRotation "new_proof") =
            .ok (recordOf "l" "identity_rotation_new" rotationPayload) := rfl
        obtain rfl := Except.ok.inj (hnew.symm.trans hproof)
        exact Or.inr (Except.ok.inj hder).symm
    · rcases hname with rfl | rfl <;> cases hproof
  intro der der' hder hder' hdigest
  rcases hpresents der hder with rfl | rfl <;> rcases hpresents der' hder' with rfl | rfl
  · rfl
  · exact absurd hdigest (by decide +kernel)
  · exact absurd hdigest (by decide +kernel)
  · rfl

/-- A key that its successor revokes. -/
theorem trust_store_sound_succeeded :
    ∃ store, fromRecords twoKeys sampleBundle = .ok store ∧ keyIdOf "k" ∈ store.revokedKeyIds ∧
      RevokedBy twoKeys (fun _ _ => True) sampleBundle (keyIdOf "k") := by
  have hrun : (match fromRecords twoKeys sampleBundle with
      | .ok store => decide (keyIdOf "k" ∈ store.revokedKeyIds)
      | .error _ => false) = true := by
    decide +kernel
  split at hrun
  · next store hstore =>
    have hrevoked := of_decide_eq_true hrun
    obtain ⟨-, -, hsound⟩ := trust_store_sound twoKeys (fun _ _ => True) (fun _ _ _ _ => trivial)
      sampleBundle sampleBundle_collisionFree
    exact ⟨store, hstore, hrevoked, (hsound store hstore).2.2.1 _ hrevoked⟩
  · cases hrun

end Drift.Identity
