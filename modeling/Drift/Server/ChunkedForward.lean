import Drift.Server.InferencePaths
import Drift.Server.PositionBounds

/-!
# Chunks of a block's forward call

`_forward_chunked` splits the hidden states of a step into chunks and hands the keys and values that a
chunk has left to the next one. Whether that gives what one call would give depends on how a block finds
the positions of the tokens it is given: a block with a cache counts on from its past, and a block that
attends to the keys of a donor counts back from their end.

The blocks here are those of `WrappedGemma4Block.forward`. What a decoder layer computes is a parameter
(`AttentionLayer`): the key and the value of a token at a position, and what the layer makes of a token
from the keys and values that the causal mask lets it see. A window is part of the latter.

* `AttentionLayer.module` — the block of each kind;
* `attendFrom_append`, `entriesFrom_append` — a sequence is its parts, one after another;
* `chunking_transparent_iff` — when chunks give what one call gives.
-/

namespace Drift.Server

open Drift.Lib

/-! ### Attention layers -/

/-- The tensors of a model, by position. -/
structure AttentionNumerics where
  Token : Type
  LayerInput : Type
  /-- A key or a value at one position, of all rows and heads. -/
  Row : Type
  HypoIds : Type
  Failure : Type
  add : Token → Token → Except Failure Token
  isDummy : HypoIds → Bool
  permute : HypoIds → Except Failure (Row × Row → Row × Row)

/-- The caches hold the key and the value of each position; the shared dictionary holds the keys and the
values of a donor. -/
abbrev AttentionNumerics.standard (A : AttentionNumerics) : StandardNumerics where
  Token := A.Token
  LayerInput := A.LayerInput
  Entry := A.Row × A.Row
  Tensor := List (Option A.Row)
  HypoIds := A.HypoIds
  Failure := A.Failure
  add := A.add
  isDummy := A.isDummy
  permute := A.permute

/-- A decoder layer. Positions are those of the rotary embedding and of the mask. -/
structure AttentionLayer (A : AttentionNumerics) where
  /-- The per-layer input that stands in where there is none. -/
  noInput : A.LayerInput
  key : A.Token → Int → A.Row
  value : A.Token → Int → A.Row
  /-- The token after the layer, from the entries up to its position. -/
  attend : A.Token → Int → A.LayerInput → List (Option (A.Row × A.Row)) → A.Token

namespace AttentionLayer

variable {A : AttentionNumerics} (L : AttentionLayer A)

/-- The keys and values of a sequence that starts at a position. -/
def entriesFrom : Int → List A.Token → List (Option (A.Row × A.Row))
  | _, [] => []
  | p, x :: xs => some (L.key x p, L.value x p) :: entriesFrom (p + 1) xs

/-- What the layer makes of a sequence that starts at a position, under the causal mask. -/
def attendFrom (entries : List (Option (A.Row × A.Row))) :
    Int → List A.Token → List A.LayerInput → List A.Token
  | _, [], _ => []
  | p, x :: xs, inputs =>
    L.attend x p (inputs.head?.getD L.noInput) (entries.take (p + 1).toNat) ::
      attendFrom entries (p + 1) xs inputs.tail

theorem length_attendFrom (entries : List (Option (A.Row × A.Row))) :
    ∀ (p : Int) (xs : List A.Token) (inputs : List A.LayerInput),
      (L.attendFrom entries p xs inputs).length = xs.length
  | _, [], _ => rfl
  | p, _ :: xs, inputs => congrArg (· + 1) (length_attendFrom entries (p + 1) xs inputs.tail)

/-- `forward` of a block with a cache: the hidden states, and the keys and values of the past and of the
sequence. -/
def cachedForward (xs : List A.Token) (past : List (Option (A.Row × A.Row)))
    (inputs : List A.LayerInput) : List A.Token × List (Option (A.Row × A.Row)) :=
  let entries := past ++ L.entriesFrom past.length xs
  (L.attendFrom entries past.length xs inputs, entries)

/-- The keys and the values of a cache. -/
def separate (entries : List (Option (A.Row × A.Row))) :
    List (Option A.Row) × List (Option A.Row) :=
  (entries.map (Option.map Prod.fst), entries.map (Option.map Prod.snd))

/-- Keys and values side by side. -/
def together (keyValue : List (Option A.Row) × List (Option A.Row)) :
    List (Option (A.Row × A.Row)) :=
  List.zipWith (fun k v => k.bind fun k => v.map fun v => (k, v)) keyValue.1 keyValue.2

/-- `forward` of a block that attends to the keys and values of a donor: its sequence ends where they
do. -/
def sharingForward (xs : List A.Token) (keyValue : List (Option A.Row) × List (Option A.Row))
    (inputs : List A.LayerInput) : List A.Token :=
  L.attendFrom (together keyValue) (keyValue.1.length - xs.length) xs inputs

/-- `WrappedGemma4Block.forward`, for the layers of each kind. -/
def module : BlockKind → Module (Server.standard A.standard)
  | .plain => .plain fun _ xs past inputs =>
    let out := L.cachedForward xs (past.getD []) (inputs.getD [])
    .ok (⟨out.1, L.length_attendFrom _ _ _ _⟩, out.2)
  | .donor layerType => .donor layerType fun _ xs past inputs =>
    let out := L.cachedForward xs (past.getD []) (inputs.getD [])
    .ok (⟨out.1, L.length_attendFrom _ _ _ _⟩, out.2, separate out.2)
  | .consumer layerType => .consumer layerType fun _ xs inputs keyValue =>
    .ok ⟨L.sharingForward xs keyValue (inputs.getD []), L.length_attendFrom _ _ _ _⟩

/-! ### Sequences and their parts -/

theorem length_entriesFrom : ∀ (p : Int) (xs : List A.Token), (L.entriesFrom p xs).length = xs.length
  | _, [] => rfl
  | p, _ :: xs => congrArg (· + 1) (length_entriesFrom (p + 1) xs)

theorem entriesFrom_append :
    ∀ (p : Int) (xs ys : List A.Token),
      L.entriesFrom p (xs ++ ys) = L.entriesFrom p xs ++ L.entriesFrom (p + xs.length) ys
  | p, [], ys => by
    rw [List.nil_append, List.length_nil, Nat.cast_zero, Int.add_zero]
    rfl
  | p, x :: xs, ys => by
    rw [List.cons_append, entriesFrom, entriesFrom_append (p + 1) xs ys, entriesFrom, List.cons_append,
      List.length_cons, Nat.cast_add, Nat.cast_one, Int.add_assoc, Int.add_comm 1]

theorem attendFrom_append (entries : List (Option (A.Row × A.Row))) :
    ∀ (p : Int) (xs ys : List A.Token) (inputs : List A.LayerInput),
      L.attendFrom entries p (xs ++ ys) inputs =
        L.attendFrom entries p xs inputs ++
          L.attendFrom entries (p + xs.length) ys (inputs.drop xs.length)
  | p, [], ys, inputs => by
    rw [List.nil_append, List.length_nil, Nat.cast_zero, Int.add_zero, List.drop_zero]
    rfl
  | p, x :: xs, ys, inputs => by
    rw [List.cons_append, attendFrom, attendFrom_append entries (p + 1) xs ys inputs.tail, attendFrom,
      List.cons_append, List.length_cons, Nat.cast_add, Nat.cast_one, Int.add_assoc, Int.add_comm 1,
      ← List.drop_one, List.drop_drop, Nat.add_comm 1]

/-- A token does not see what comes after it. -/
theorem attendFrom_entries_append (entries later : List (Option (A.Row × A.Row))) :
    ∀ (p : Int) (xs : List A.Token) (inputs : List A.LayerInput), p + xs.length ≤ entries.length →
      L.attendFrom (entries ++ later) p xs inputs = L.attendFrom entries p xs inputs
  | _, [], _, _ => rfl
  | p, x :: xs, inputs, h => by
    rw [List.length_cons, Nat.cast_add, Nat.cast_one] at h
    have hseen : (p + 1).toNat ≤ entries.length := by omega
    rw [attendFrom, attendFrom, List.take_append_of_le_length hseen,
      attendFrom_entries_append entries later (p + 1) xs inputs.tail (by omega)]

/-- A sequence looks at as many inputs as it has tokens. -/
theorem attendFrom_inputs_take (entries : List (Option (A.Row × A.Row))) :
    ∀ (p : Int) (xs : List A.Token) (inputs : List A.LayerInput) (n : Nat), xs.length ≤ n →
      L.attendFrom entries p xs (inputs.take n) = L.attendFrom entries p xs inputs
  | _, [], _, _, _ => rfl
  | p, x :: xs, inputs, n, h => by
    obtain ⟨n, rfl⟩ := Nat.exists_eq_succ_of_ne_zero (Nat.ne_of_gt (Nat.lt_of_lt_of_le
      (Nat.succ_pos xs.length) h))
    cases inputs with
    | nil => rw [List.take_nil]
    | cons input inputs =>
      rw [List.take_succ_cons, attendFrom, attendFrom, List.head?_cons, List.head?_cons,
        List.tail_cons, List.tail_cons,
        attendFrom_inputs_take entries (p + 1) xs inputs n (Nat.le_of_succ_le_succ h)]

/-- **Two parts.** A block with a cache gives for a sequence what it gives for a first part and then,
with what that has left, for the rest. -/
theorem cachedForward_append (xs ys : List A.Token) (past : List (Option (A.Row × A.Row)))
    (inputs : List A.LayerInput) :
    L.cachedForward (xs ++ ys) past inputs =
      let first := L.cachedForward xs past inputs
      let second := L.cachedForward ys first.2 (inputs.drop xs.length)
      (first.1 ++ second.1, second.2) := by
  have hlength : ((past ++ L.entriesFrom past.length xs).length : Int) = past.length + xs.length := by
    rw [List.length_append, L.length_entriesFrom, Nat.cast_add]
  have hentries : past ++ L.entriesFrom past.length (xs ++ ys) =
      past ++ L.entriesFrom past.length xs ++ L.entriesFrom (past.length + xs.length) ys := by
    rw [L.entriesFrom_append, List.append_assoc]
  simp only [cachedForward]
  rw [hlength, ← hentries, L.attendFrom_append]
  refine Prod.ext ?_ rfl
  refine congrArg (· ++ _) ?_
  rw [hentries]
  exact L.attendFrom_entries_append _ _ _ _ _ hlength.ge

theorem cachedForward_inputs_take (xs : List A.Token) (past : List (Option (A.Row × A.Row)))
    (inputs : List A.LayerInput) {n : Nat} (h : xs.length ≤ n) :
    L.cachedForward xs past (inputs.take n) = L.cachedForward xs past inputs := by
  simp only [cachedForward]
  rw [L.attendFrom_inputs_take _ _ _ _ _ h]

/-- Keys and values that were taken apart. -/
theorem together_separate (entries : List (Option (A.Row × A.Row))) :
    together (separate entries) = entries := by
  rw [together, separate, List.zipWith_map, List.zipWith_self]
  refine (List.map_congr_left fun e _ => ?_).trans (List.map_id entries)
  cases e <;> rfl

end AttentionLayer

/-! ### Chunks -/

/-- What a block leaves in the shared dictionary. -/
def BlockKind.store {A : AttentionNumerics} (k : BlockKind)
    (entries : List (Option (A.Row × A.Row))) (shared : SharedKv (List (Option A.Row))) :
    SharedKv (List (Option A.Row)) :=
  match k with
  | .donor layerType => shared.insert layerType (AttentionLayer.separate entries)
  | .plain | .consumer _ => shared

theorem BlockKind.store_store {A : AttentionNumerics} (k : BlockKind)
    (entries entries' : List (Option (A.Row × A.Row))) (shared : SharedKv (List (Option A.Row))) :
    k.store entries' (k.store entries shared) = k.store entries' shared := by
  cases k with
  | plain => rfl
  | donor layerType => exact AList.insert_insert _
  | consumer layerType => rfl

theorem exists_steppedRange {n c : Nat} (hn : 0 < n) (hc : 0 < c) :
    ∃ m, steppedRange n c = (List.range' 0 (m + 1)).map (· * c) ∧ m * c < n ∧ n ≤ (m + 1) * c := by
  have hcount : 0 < (n + c - 1) / c := Nat.div_pos (by omega) hc
  obtain ⟨m, hm⟩ := Nat.exists_eq_succ_of_ne_zero hcount.ne'
  have hdiv := Nat.div_add_mod (n + c - 1) c
  have hmod := Nat.mod_lt (n + c - 1) hc
  rw [hm, Nat.mul_comm, Nat.succ_mul] at hdiv
  refine ⟨m, by rw [steppedRange, hm, List.range_eq_range'], by omega, ?_⟩
  rw [Nat.add_mul, Nat.one_mul]
  omega

theorem isEmpty_of_length_pos {α : Type} {xs : List α} (h : 0 < xs.length) : xs.isEmpty = false := by
  cases xs with
  | nil => cases h
  | cons x xs => rfl

section Chunks

variable {A : AttentionNumerics} (L : AttentionLayer A) {k : BlockKind} (adapter : Option String)

variable {L} in
/-- One call of a block with a cache. -/
theorem forward_module (hk : k.consumes = []) {xs : List A.Token}
    {past : List (Option (A.Row × A.Row))} {inputs : Option (List A.LayerInput)}
    {out : List A.Token × List (Option (A.Row × A.Row))}
    (hout : L.cachedForward xs past (inputs.getD []) = out) (shared : SharedKv (List (Option A.Row))) :
    ∃ hlength : out.1.length = xs.length,
      (L.module k).forward adapter xs (some past) inputs shared =
        .ok ⟨⟨out.1, hlength⟩, some out.2, k.store out.2 shared⟩ := by
  subst hout
  refine ⟨L.length_attendFrom _ _ _ _, ?_⟩
  cases k with
  | plain => rfl
  | donor layerType => rfl
  | consumer layerType => cases hk

theorem getD_map_slice {α : Type} (inputs : Option (List α)) (offset n : Nat) :
    (inputs.map (slice · offset n)).getD [] = ((inputs.getD []).drop offset).take n := by
  cases inputs with
  | none => rw [Option.map_none, Option.getD_none, List.drop_nil, List.take_nil]
  | some inputs => rfl

/-- The first chunk, and the others with what it has left. -/
theorem forwardChunks_cons_module (hk : k.consumes = []) (xs : List A.Token)
    (inputs : Option (List A.LayerInput)) (c offset : Nat) (offsets : List Nat)
    (past : List (Option (A.Row × A.Row))) (shared : Option (SharedKv (List (Option A.Row)))) :
    forwardChunks (L.module k) adapter xs inputs c (offset :: offsets) (some past) shared =
      let out := L.cachedForward (slice xs offset c) past ((inputs.getD []).drop offset)
      forwardChunks (L.module k) adapter xs inputs c offsets (some out.2) (shared.map (k.store out.2))
        >>= fun rest => .ok (out.1 ++ rest.1, rest.2.1, rest.2.2) := by
  have hinputs : L.cachedForward (slice xs offset c) past
      ((inputs.map (slice · offset c)).getD []) =
        L.cachedForward (slice xs offset c) past ((inputs.getD []).drop offset) := by
    rw [getD_map_slice]
    exact L.cachedForward_inputs_take _ _ _ (List.length_take_le _ _)
  obtain ⟨hlength, hforward⟩ := forward_module adapter hk hinputs (shared.getD ∅)
  show (L.module k).forward adapter (slice xs offset c) (some past) _ (shared.getD ∅) >>= _ = _
  rw [hforward, ok_bind]
  cases shared <;> rfl

/-- The chunks from one on: by induction on how many there are, of which only the last may be shorter
than the others. -/
theorem forwardChunks_module (hk : k.consumes = []) (xs : List A.Token)
    (inputs : Option (List A.LayerInput)) (c : Nat) :
    ∀ (m i : Nat) (past : List (Option (A.Row × A.Row)))
      (shared : Option (SharedKv (List (Option A.Row)))),
      (i + m) * c < xs.length → xs.length ≤ (i + m + 1) * c →
        forwardChunks (L.module k) adapter xs inputs c ((List.range' i (m + 1)).map (· * c)) (some past)
            shared =
          .ok ((L.cachedForward (xs.drop (i * c)) past ((inputs.getD []).drop (i * c))).1,
            some (L.cachedForward (xs.drop (i * c)) past ((inputs.getD []).drop (i * c))).2,
            shared.map
              (k.store (L.cachedForward (xs.drop (i * c)) past ((inputs.getD []).drop (i * c))).2))
  | 0, i, past, shared, _, hle => by
    have hshort : (xs.drop (i * c)).length ≤ c := by
      rw [List.length_drop]
      rw [Nat.add_zero, Nat.add_mul, Nat.one_mul] at hle
      omega
    have hslice : slice xs (i * c) c = xs.drop (i * c) := List.take_of_length_le hshort
    rw [List.range'_one, List.map_singleton, forwardChunks_cons_module L adapter hk, hslice]
    show Except.ok (_ ++ [], _, _) = _
    rw [List.append_nil]
  | m + 1, i, past, shared, hlt, hle => by
    have hfull : (slice xs (i * c) c).length = c := by
      rw [slice, List.length_take, List.length_drop]
      have hmul : (i + (m + 1)) * c = i * c + m * c + c := by ring
      omega
    have hparts : xs.drop (i * c) = slice xs (i * c) c ++ xs.drop ((i + 1) * c) := by
      rw [slice, Nat.add_mul, Nat.one_mul, ← List.drop_drop, List.take_append_drop]
    have hinputs : ((inputs.getD []).drop (i * c)).drop c = (inputs.getD []).drop ((i + 1) * c) := by
      rw [List.drop_drop, Nat.add_mul, Nat.one_mul]
    have hrest := forwardChunks_module hk xs inputs c m (i + 1)
      (L.cachedForward (slice xs (i * c) c) past ((inputs.getD []).drop (i * c))).2
      (shared.map (k.store (L.cachedForward (slice xs (i * c) c) past
        ((inputs.getD []).drop (i * c))).2))
      (by rw [Nat.add_right_comm]; exact hlt) (by rw [Nat.add_right_comm i 1 m]; exact hle)
    have hwhole := L.cachedForward_append (slice xs (i * c) c) (xs.drop ((i + 1) * c)) past
      ((inputs.getD []).drop (i * c))
    have hstore : ∀ entries entries' : List (Option (A.Row × A.Row)),
        (shared.map (k.store entries)).map (k.store entries') = shared.map (k.store entries') := by
      intro entries entries'
      cases shared with
      | none => rfl
      | some shared => exact congrArg some (k.store_store entries entries' shared)
    rw [← hparts, hfull, hinputs] at hwhole
    rw [hwhole, List.range'_succ, List.map_cons, forwardChunks_cons_module L adapter hk]
    simp only
    rw [hrest, ok_bind, hstore]

/-- All chunks of a block with a cache. -/
theorem forwardChunked_module (hk : k.consumes = []) {xs : List A.Token} (hxs : 0 < xs.length)
    (inputs : Option (List A.LayerInput)) {c : Nat} (hc : 0 < c) (past : List (Option (A.Row × A.Row)))
    (shared : Option (SharedKv (List (Option A.Row)))) :
    forwardChunked (L.module k) adapter xs (some past) c inputs shared =
      let out := L.cachedForward xs past (inputs.getD [])
      .ok (out.1, some out.2, shared.map (k.store out.2)) := by
  obtain ⟨m, hrange, hlt, hle⟩ := exists_steppedRange hxs hc
  have hchunks := forwardChunks_module L adapter hk xs inputs c m 0 past shared
    (by rw [Nat.zero_add]; exact hlt) (by rw [Nat.zero_add]; exact hle)
  rw [Nat.zero_mul, List.drop_zero, List.drop_zero] at hchunks
  rw [forwardChunked, isEmpty_of_length_pos hxs, hrange]
  exact hchunks

end Chunks

/-! ### When chunks give what one call gives -/

@[simp] theorem kind_module {A : AttentionNumerics} (L : AttentionLayer A) (k : BlockKind) :
    (L.module k).kind = k := by
  cases k <;> rfl

/-- After a past of some length, a sequence of some length gives in chunks the hidden states, the keys
and values and the shared dictionary that it gives in one call. The keys and values that the block reads
of a donor are those of the past and of the sequence. -/
def Transparent {A : AttentionNumerics} (m : Module (standard A.standard)) (past n c : Nat) : Prop :=
  ∀ (adapter : Option String) (xs : List A.Token) (layerPast : List (Option (A.Row × A.Row)))
    (inputs : Option (List A.LayerInput)) (shared : SharedKv (List (Option A.Row))),
    xs.length = n → layerPast.length = past →
      (∀ t ∈ m.kind.consumes, ∃ keyValue, shared.lookup t = some keyValue ∧
        keyValue.1.length = past + n ∧ keyValue.2.length = past + n) →
        forwardChunked m adapter xs (some layerPast) c inputs (some shared) =
          (m.forward adapter xs (some layerPast) inputs shared).map
            fun out => (out.tokens.val, out.newKvs, some out.sharedKv)

/-- Without tokens there is nothing to return. -/
theorem not_transparent_zero (k : BlockKind) (past c : Nat) :
    ¬ ∀ (A : AttentionNumerics) (L : AttentionLayer A), Transparent (L.module k) past 0 c := by
  intro h
  let A : AttentionNumerics := ⟨Unit, Unit, Unit, Unit, Unit, fun _ _ => .ok (), fun _ => true,
    fun _ => .ok id⟩
  let L : AttentionLayer A := ⟨(), fun _ _ => (), fun _ _ => (), fun _ _ _ _ => ()⟩
  let keyValue : List (Option Unit) × List (Option Unit) :=
    (List.replicate past none, List.replicate past none)
  let shared : SharedKv (List (Option Unit)) := (∅ : SharedKv (List (Option Unit))).insert
    (k.consumes.headD "") keyValue
  have hlength : keyValue.1.length = past + 0 ∧ keyValue.2.length = past + 0 :=
    ⟨List.length_replicate, List.length_replicate⟩
  have hsame := h A L none [] (List.replicate past none) none shared rfl List.length_replicate
    fun t ht => by
      rw [kind_module] at ht
      cases k with
      | plain => cases ht
      | donor layerType => cases ht
      | consumer layerType =>
        rw [List.mem_singleton.mp ht]
        exact ⟨keyValue, AList.lookup_insert _, hlength⟩
  have hraises : forwardChunked (L.module k) none [] (some (List.replicate past none)) c none
      (some shared) = .error .unboundLocalError := rfl
  rw [hraises] at hsame
  cases k with
  | plain => cases hsame
  | donor layerType => cases hsame
  | consumer layerType =>
    have hlookup : shared.lookup layerType = some keyValue := AList.lookup_insert _
    simp only [AttentionLayer.module, Module.forward] at hsame
    rw [hlookup] at hsame
    cases hsame

/-- A block with a cache goes on where the chunk before has ended. -/
theorem transparent_of_cached {A : AttentionNumerics} (L : AttentionLayer A) {k : BlockKind}
    (hk : k.consumes = []) {past n c : Nat} (hn : 0 < n) (hc : 0 < c) :
    Transparent (L.module k) past n c := by
  intro adapter xs layerPast inputs shared hxs _ _
  subst hxs
  obtain ⟨hlength, hforward⟩ := forward_module (L := L) adapter hk
    (rfl : L.cachedForward xs layerPast (inputs.getD []) = _) shared
  rw [hforward]
  exact forwardChunked_module L adapter hk hn inputs hc layerPast (some shared)

/-- One call of a block that attends to the keys and values of a donor. -/
theorem forward_module_consumer {A : AttentionNumerics} (L : AttentionLayer A) (adapter : Option String)
    {layerType : String} {xs : List A.Token} {past : Option (List (Option (A.Row × A.Row)))}
    {inputs : Option (List A.LayerInput)} {shared : SharedKv (List (Option A.Row))}
    {keyValue : List (Option A.Row) × List (Option A.Row)}
    (hlookup : shared.lookup layerType = some keyValue) {out : List A.Token}
    (hout : L.sharingForward xs keyValue (inputs.getD []) = out) :
    ∃ hlength : out.length = xs.length,
      (L.module (.consumer layerType)).forward adapter xs past inputs shared =
        .ok ⟨⟨out, hlength⟩, none, shared⟩ := by
  subst hout
  refine ⟨L.length_attendFrom _ _ _ _, ?_⟩
  simp only [AttentionLayer.module, Module.forward]
  rw [hlookup]
  rfl

/-- A single chunk of such a block: one call, with the inputs it looks at. -/
theorem forwardChunked_consumer {A : AttentionNumerics} (L : AttentionLayer A) (adapter : Option String)
    {layerType : String} {xs : List A.Token} (hxs : 0 < xs.length)
    {past : Option (List (Option (A.Row × A.Row)))} {inputs : Option (List A.LayerInput)} {c : Nat}
    (hle : xs.length ≤ c) {shared : SharedKv (List (Option A.Row))}
    {keyValue : List (Option A.Row) × List (Option A.Row)}
    (hlookup : shared.lookup layerType = some keyValue) :
    forwardChunked (L.module (.consumer layerType)) adapter xs past c inputs (some shared) =
      .ok (L.sharingForward xs keyValue (inputs.getD []), none, some shared) := by
  have hrange : steppedRange xs.length c = [0] := by
    obtain ⟨m, hrange, hlt, -⟩ := exists_steppedRange hxs (Nat.lt_of_lt_of_le hxs hle)
    have hm : m = 0 := by
      by_contra hm
      have hmul := Nat.le_mul_of_pos_left c (Nat.pos_of_ne_zero hm)
      omega
    rw [hrange, hm, List.range'_one, List.map_singleton, Nat.zero_mul]
  have hslice : slice xs 0 c = xs := by
    rw [slice, List.drop_zero, List.take_of_length_le hle]
  have hinputs : L.sharingForward xs keyValue ((inputs.map (slice · 0 c)).getD []) =
      L.sharingForward xs keyValue (inputs.getD []) := by
    rw [getD_map_slice, List.drop_zero]
    exact L.attendFrom_inputs_take _ _ _ _ _ hle
  obtain ⟨_, hchunk⟩ := @forward_module_consumer A L adapter _ _ past _ _ _ hlookup _ hinputs
  rw [forwardChunked, isEmpty_of_length_pos hxs, hrange]
  show (L.module (.consumer layerType)).forward adapter (slice xs 0 c) _ _ shared >>= _ = _
  rw [hslice, hchunk, ok_bind]
  show Except.ok (L.sharingForward xs keyValue (inputs.getD []) ++ [], _, _) = _
  rw [List.append_nil]
  rfl

/-- A sequence that fits into a chunk is given to the block as it is. -/
theorem transparent_of_short {A : AttentionNumerics} (L : AttentionLayer A) (layerType : String)
    {past n c : Nat} (hn : 0 < n) (hle : n ≤ c) :
    Transparent (L.module (.consumer layerType)) past n c := by
  intro adapter xs layerPast inputs shared hxs _ hshared
  subst hxs
  have hconsumes : layerType ∈ (L.module (.consumer layerType)).kind.consumes := List.mem_singleton.mpr rfl
  obtain ⟨keyValue, hlookup, -⟩ := hshared layerType hconsumes
  obtain ⟨_, hwhole⟩ := @forward_module_consumer A L adapter _ _ (some layerPast) _ _ _ hlookup _
    (rfl : L.sharingForward xs keyValue (inputs.getD []) = _)
  rw [hwhole, forwardChunked_consumer L adapter hn hle hlookup]
  rfl

/-- A layer that tells the positions of its tokens. -/
def positionNumerics : AttentionNumerics where
  Token := Int
  LayerInput := Unit
  Row := Unit
  HypoIds := Unit
  Failure := Unit
  add := fun x y => .ok (x + y)
  isDummy := fun _ => true
  permute := fun _ => .ok id

def positionLayer : AttentionLayer positionNumerics := ⟨(), fun _ _ => (), fun _ _ => (), fun _ p _ _ => p⟩

/-- The first token of a sequence that ends where the keys do. -/
theorem sharingForward_positionLayer {xs : List Int} (hxs : 0 < xs.length)
    (keyValue : List (Option Unit) × List (Option Unit)) :
    ∃ rest, positionLayer.sharingForward xs keyValue [] =
      ((keyValue.1.length : Int) - xs.length) :: rest := by
  cases xs with
  | nil => cases hxs
  | cons x xs => exact ⟨_, rfl⟩

/-- The first of several chunks counts back from the end of the donor's keys, and gets positions that are
too high. -/
theorem not_transparent_of_long (layerType : String) {past n c : Nat} (hc : 0 < c) (hlt : c < n) :
    ¬ Transparent (positionLayer.module (.consumer layerType)) past n c := by
  intro h
  have hn : 0 < n := Nat.lt_trans hc hlt
  let keyValue : List (Option Unit) × List (Option Unit) :=
    (List.replicate (past + n) none, List.replicate (past + n) none)
  let shared : SharedKv (List (Option Unit)) :=
    (∅ : SharedKv (List (Option Unit))).insert layerType keyValue
  let xs : List (standard positionNumerics.standard).Token := List.replicate n (0 : Int)
  have hxs : xs.length = n := List.length_replicate
  have hlookup : shared.lookup layerType = some keyValue := AList.lookup_insert _
  have hkeys : keyValue.1.length = past + n := List.length_replicate
  have hsame := h none xs (List.replicate past none) none shared hxs List.length_replicate
    fun t ht => by
      rw [List.mem_singleton.mp ht]
      exact ⟨keyValue, hlookup, hkeys, hkeys⟩
  obtain ⟨offsets, hrange⟩ : ∃ offsets, steppedRange xs.length c = 0 :: offsets := by
    obtain ⟨m, hrange, -⟩ := exists_steppedRange (hxs ▸ hn : 0 < xs.length) hc
    rw [List.range'_succ, List.map_cons, Nat.zero_mul] at hrange
    exact ⟨_, hrange⟩
  have hchunk : (slice xs 0 c).length = c := by
    rw [slice, List.drop_zero, List.length_take, hxs, Nat.min_eq_left hlt.le]
  have hchunkPos : 0 < (slice xs 0 c).length := by
    rw [hchunk]
    exact hc
  have hxsPos : 0 < xs.length := hxs ▸ hn
  -- the first token of the first chunk and the first token of the whole call
  obtain ⟨rest, hfirst⟩ := sharingForward_positionLayer hchunkPos keyValue
  obtain ⟨others, hall⟩ := sharingForward_positionLayer hxsPos keyValue
  obtain ⟨_, hforwardChunk⟩ := @forward_module_consumer _ positionLayer none _ _ (some (List.replicate past none)) none
    _ _ hlookup _ hfirst
  obtain ⟨_, hforward⟩ := @forward_module_consumer _ positionLayer none _ _ (some (List.replicate past none)) none
    _ _ hlookup _ hall
  rw [forwardChunked, isEmpty_of_length_pos hxsPos, hrange, hforward] at hsame
  change (positionLayer.module (.consumer layerType)).forward none (slice xs 0 c) _ none shared >>= _ = _
    at hsame
  rw [hforwardChunk, ok_bind] at hsame
  obtain ⟨later, -, heq⟩ := bind_eq_ok.mp hsame
  have htokens := congrArg Prod.fst (Except.ok.inj heq)
  have hheads : ((keyValue.1.length : Int) - (slice xs 0 c).length) = keyValue.1.length - xs.length :=
    (List.cons.inj htokens).1
  rw [hchunk, hxs] at hheads
  omega

/-- **Chunks are transparent where positions are counted from the past.** In chunks of some length, for
every layer, a sequence after a past gives what it gives in one call exactly when there is a token and
the block either has a cache of its own or gets the sequence in one chunk. -/
theorem chunking_transparent_iff (k : BlockKind) (past n : Nat) {c : Nat} (hc : 0 < c) :
    (∀ (A : AttentionNumerics) (L : AttentionLayer A), Transparent (L.module k) past n c) ↔
      0 < n ∧ (k.consumes = [] ∨ n ≤ c) := by
  constructor
  · intro h
    have hn : 0 < n := by
      rcases Nat.eq_zero_or_pos n with rfl | hn
      · exact absurd h (not_transparent_zero k past c)
      · exact hn
    refine ⟨hn, ?_⟩
    cases k with
    | plain => exact .inl rfl
    | donor layerType => exact .inl rfl
    | consumer layerType =>
      refine .inr (Nat.le_of_not_lt fun hlt => ?_)
      exact not_transparent_of_long layerType hc hlt (h positionNumerics positionLayer)
  · rintro ⟨hn, hcached⟩ A L
    rcases hcached with hk | hle
    · exact transparent_of_cached L hk hn hc
    · cases k with
      | plain => exact transparent_of_cached L rfl hn hc
      | donor layerType => exact transparent_of_cached L rfl hn hc
      | consumer layerType => exact transparent_of_short L layerType hn hle

/-- A prompt of five tokens after three, to a donor of keys, in chunks of two. -/
theorem chunking_transparent_iff_donor :
    (0 < 2) ∧ ((∀ (A : AttentionNumerics) (L : AttentionLayer A),
        Transparent (L.module (.donor "full_attention")) 3 5 2) ↔
      0 < 5 ∧ (BlockKind.consumes (.donor "full_attention") = [] ∨ 5 ≤ 2)) :=
  ⟨Nat.two_pos, chunking_transparent_iff (.donor "full_attention") 3 5 Nat.two_pos⟩

/-- Two tokens to a block that attends to the keys of a donor, one by one: both get position 1. -/
theorem chunked_consumer_differs :
    ∃ shared : SharedKv (List (Option Unit)),
      forwardChunked (positionLayer.module (.consumer "full_attention")) none ([7, 7] : List Int)
          (some []) 1 none (some shared) = .ok (([1, 1] : List Int), none, some shared) ∧
        ((positionLayer.module (.consumer "full_attention")).forward none ([7, 7] : List Int) (some [])
          none shared).map (fun out => out.tokens.val) = .ok ([0, 1] : List Int) :=
  ⟨(∅ : SharedKv (List (Option Unit))).insert "full_attention" ([none, none], [none, none]), rfl, rfl⟩

end Drift.Server
