import Mathlib.Algebra.Order.Floor.Semiring
import Mathlib.Data.Rat.Floor
import Mathlib.Order.WithBot
import Drift.Lib.Machine
import Drift.Server.InferenceAgreement

/-!
# Positions of an inference session

`iterate_rpc_inference` takes the position of a step from the metadata of the request. The position is
then the bound of a slice, a factor of a divisor and the offset of a write. Here the cache is the one of
`StandardGQACache`, by position: what a block has cached at a position, for all rows and heads, is one
entry, and where nothing was written there is none.

* `standard` — the numerics of a server with such caches;
* `Appends` — what is documented of a block: it returns the past and one entry for each token;
* `PositionedSession`, `sessionMachine` — a session, for any value under `start_from_position`;
* `HandsOver` — the steps that are handed to the backends;
* `positions_bounded` — where those steps are within bounds.
-/

namespace Drift.Server

open Drift.Lib

/-! ### Caches by position -/

section Rows

variable {E F : Type}

/-- What the cache operations raise. A write that does not fit is where the tensor library clamps the
bounds or refuses the shapes. -/
inductive CacheFailure (F : Type)
  | library (f : F)
  | outOfRange

/-- `xs[:stop]`. -/
def sliceTo (xs : List E) (stop : Int) : List E :=
  if stop < 0 then xs.take (xs.length - stop.natAbs) else xs.take stop.toNat

/-- `update_cache` for one block: the entries from the prefix on are written where they belong. -/
def updateCache (row newKvs : List (Option E)) (prefixLength : Int) :
    Except (CacheFailure F) (List (Option E)) :=
  if 0 ≤ prefixLength ∧ prefixLength ≤ newKvs.length ∧ newKvs.length ≤ row.length then
    .ok (row.take prefixLength.toNat ++ newKvs.drop prefixLength.toNat ++ row.drop newKvs.length)
  else
    .error .outOfRange

/-- The tokens that are present: the entries before the first position where nothing was written. -/
def present (row : List (Option E)) : Nat := (row.takeWhile Option.isSome).length

/-- Something was written at each of the first `n` positions. -/
def Filled (n : Nat) (row : List (Option E)) : Prop := ∀ i < n, ∃ e, row[i]? = some (some e)

theorem Filled.mono {n m : Nat} {row : List (Option E)} (h : Filled n row) (hle : m ≤ n) :
    Filled m row := fun i hi => h i (Nat.lt_of_lt_of_le hi hle)

theorem Filled.le_present {n : Nat} : ∀ {row : List (Option E)}, Filled n row → n ≤ present row := by
  intro row h
  induction n generalizing row with
  | zero => exact Nat.zero_le _
  | succ n ih =>
    obtain ⟨e, he⟩ := h 0 (Nat.succ_pos n)
    cases row with
    | nil => cases he
    | cons x row =>
      cases he
      have hrest : Filled n row := fun i hi => h (i + 1) (Nat.succ_lt_succ hi)
      rw [present, List.takeWhile_cons_of_pos rfl, List.length_cons]
      exact Nat.succ_le_succ (ih hrest)

/-- The row has its length, and where something was written there still is something. -/
structure RowGrows (row row' : List (Option E)) : Prop where
  length : row'.length = row.length
  written : ∀ (i : Nat) (e : E), row[i]? = some (some e) → ∃ e', row'[i]? = some (some e')

theorem RowGrows.refl (row : List (Option E)) : RowGrows row row := ⟨rfl, fun _ e h => ⟨e, h⟩⟩

theorem RowGrows.trans {row row' row'' : List (Option E)} (h : RowGrows row row')
    (h' : RowGrows row' row'') : RowGrows row row'' :=
  ⟨h'.length.trans h.length, fun i e he => by
    obtain ⟨e', he'⟩ := h.written i e he
    exact h'.written i e' he'⟩

theorem RowGrows.filled {row row' : List (Option E)} (h : RowGrows row row') {n : Nat}
    (hn : Filled n row) : Filled n row' := by
  intro i hi
  obtain ⟨e, he⟩ := hn i hi
  exact h.written i e he

/-- Reordering the rows of the batch is a function of each entry. -/
theorem rowGrows_map (f : E → E) (row : List (Option E)) : RowGrows row (row.map (Option.map f)) where
  length := List.length_map _
  written := fun i e he => ⟨f e, by rw [List.getElem?_map, he]; rfl⟩

theorem sliceTo_natCast (xs : List E) (n : Nat) : sliceTo xs n = xs.take n := by
  rw [sliceTo, if_neg (Int.not_lt.mpr (Int.natCast_nonneg n)), Int.toNat_natCast]

/-- **A write within bounds.** -/
theorem updateCache_append (row : List (Option E)) {n : Nat} (entries : List E)
    (hfits : n + entries.length ≤ row.length) :
    ∃ row', (updateCache row (row.take n ++ entries.map some) n :
        Except (CacheFailure F) (List (Option E))) = .ok row' ∧ RowGrows row row' ∧
      (Filled n row → Filled (n + entries.length) row') := by
  have htake : (row.take n).length = n := by
    rw [List.length_take]
    omega
  have hlength : (row.take n ++ entries.map some).length = n + entries.length := by
    rw [List.length_append, htake, List.length_map]
  have hrange : 0 ≤ (n : Int) ∧ (n : Int) ≤ (row.take n ++ entries.map some).length ∧
      (row.take n ++ entries.map some).length ≤ row.length := by
    rw [hlength]
    omega
  rw [updateCache, if_pos hrange, Int.toNat_natCast, List.drop_left' htake, hlength]
  -- before, in and after the part that is written
  have hbefore : ∀ i < n, (row.take n ++ entries.map some ++ row.drop (n + entries.length))[i]? =
      row[i]? := by
    intro i hi
    rw [List.append_assoc, List.getElem?_append_left (by omega), List.getElem?_take_of_lt hi]
  have hin : ∀ i, n ≤ i → i < n + entries.length →
      ∃ e, (row.take n ++ entries.map some ++ row.drop (n + entries.length))[i]? = some (some e) := by
    intro i hn hi
    have hentry : i - n < entries.length := by omega
    refine ⟨entries[i - n], ?_⟩
    rw [List.getElem?_append_left (by rw [hlength]; exact hi), List.getElem?_append_right (by omega),
      htake, List.getElem?_map, List.getElem?_eq_getElem hentry]
    rfl
  have hafter : ∀ i, n + entries.length ≤ i →
      (row.take n ++ entries.map some ++ row.drop (n + entries.length))[i]? = row[i]? := by
    intro i hi
    rw [List.getElem?_append_right (by rw [hlength]; exact hi), hlength, List.getElem?_drop]
    congr 1
    omega
  refine ⟨_, rfl, ⟨?_, fun i e he => ?_⟩, fun hfilled i hi => ?_⟩
  · rw [List.length_append, hlength, List.length_drop]
    omega
  · rcases Nat.lt_or_ge i n with hi | hi
    · exact ⟨e, by rw [hbefore i hi]; exact he⟩
    rcases Nat.lt_or_ge i (n + entries.length) with hi' | hi'
    · exact hin i hi hi'
    · exact ⟨e, by rw [hafter i hi']; exact he⟩
  · rcases Nat.lt_or_ge i n with hi' | hi'
    · rw [hbefore i hi']
      exact hfilled i hi'
    · exact hin i hi' hi

end Rows

/-! ### The numerics -/

/-- The parts of the numerics that are left open. -/
structure StandardNumerics where
  Token : Type
  LayerInput : Type
  /-- The keys and values of a block at one position. -/
  Entry : Type
  Tensor : Type
  HypoIds : Type
  Failure : Type
  add : Token → Token → Except Failure Token
  isDummy : HypoIds → Bool
  permute : HypoIds → Except Failure (Entry → Entry)

/-- The numerics of a server with `StandardGQACache`. The memory has a row of entries for the handles of
each block. -/
abbrev standard (P : StandardNumerics) : Numerics where
  Token := P.Token
  LayerInput := P.LayerInput
  Kv := List (Option P.Entry)
  Tensor := P.Tensor
  Memory := List Nat → List (Option P.Entry)
  Handle := Nat
  HypoIds := P.HypoIds
  Failure := CacheFailure P.Failure
  add := fun x y => (P.add x y).mapError .library
  isDummy := P.isDummy
  reorder := fun memory handles hypoIds => do
    let f ← (P.permute hypoIds).mapError .library
    return Function.update memory handles ((memory handles).map (Option.map f))
  select := fun memory handles prefixLength => .ok (sliceTo (memory handles) prefixLength)
  update := fun memory handles newKvs prefixLength => do
    let row ← updateCache (memory handles) newKvs prefixLength
    return Function.update memory handles row

variable {P : StandardNumerics}

/-- A division by zero, or a write that does not fit. -/
def OutOfBounds (e : InferenceError (standard P)) : Prop :=
  e = .zeroDivisionError ∨ e = .failure .outOfRange

/-- No row is lost. -/
def Grows (memory memory' : List Nat → List (Option P.Entry)) : Prop :=
  ∀ handles, RowGrows (memory handles) (memory' handles)

theorem Grows.refl (memory : List Nat → List (Option P.Entry)) : Grows memory memory :=
  fun _ => RowGrows.refl _

theorem Grows.trans {memory memory' memory'' : List Nat → List (Option P.Entry)}
    (h : Grows memory memory') (h' : Grows memory' memory'') : Grows memory memory'' :=
  fun handles => (h handles).trans (h' handles)

theorem grows_update {memory : List Nat → List (Option P.Entry)} {handles : List Nat}
    {row : List (Option P.Entry)} (h : RowGrows (memory handles) row) :
    Grows memory (Function.update memory handles row) := by
  intro handles'
  by_cases hsame : handles' = handles
  · subst hsame
    rw [Function.update_self]
    exact h
  · rw [Function.update_of_ne hsame]
    exact RowGrows.refl _

/-! ### Blocks -/

namespace Module

/-- The block keeps keys and values of its own. -/
def keepsCache : Module (standard P) → Prop
  | .plain _ | .donor _ _ => True
  | .consumer _ _ => False

/-- What a block returns after the past: one entry for each token. It raises only what the library
does. -/
def Returns (n : Nat) (past : Option (List (Option P.Entry)))
    (newKvs : List (Option P.Entry)) : Prop :=
  ∃ entries : List P.Entry, entries.length = n ∧ newKvs = past.getD [] ++ entries.map some

/-- The block does with its past what the attention modules of the library do. -/
def Appends : Module (standard P) → Prop
  | .plain compute => ∀ adapter xs past inputs,
      Ends (· = CacheFailure.outOfRange) (fun out => Returns xs.length past out.2)
        (compute adapter xs past inputs)
  | .donor _ compute => ∀ adapter xs past inputs,
      Ends (· = CacheFailure.outOfRange) (fun out => Returns xs.length past out.2.1)
        (compute adapter xs past inputs)
  | .consumer _ compute => ∀ adapter xs inputs keyValue,
      Ends (· = CacheFailure.outOfRange) (fun _ => True) (compute adapter xs inputs keyValue)

end Module

theorem lift_ends {α : Type} {P' : α → Prop} {x : Except (standard P).Failure α}
    (h : Ends (· = CacheFailure.outOfRange) P' x) :
    Ends OutOfBounds P' (lift x : Except (InferenceError (standard P)) α) := by
  cases x with
  | ok a => exact h
  | error f =>
    rintro (hzero | hrange)
    · cases hzero
    · cases hrange
      exact h rfl

theorem returns_concat {n m : Nat} {past new newer : List (Option P.Entry)}
    (h : Module.Returns n (some past) new) (h' : Module.Returns m (some new) newer) :
    Module.Returns (n + m) (some past) newer := by
  obtain ⟨entries, rfl, rfl⟩ := h
  obtain ⟨entries', rfl, rfl⟩ := h'
  refine ⟨entries ++ entries', List.length_append, ?_⟩
  rw [List.map_append, ← List.append_assoc]
  rfl

section Chunks

variable {m : Module (standard P)} {adapter : Option String} {xs : List P.Token}
  {perLayerInput : Option (List P.LayerInput)} {n : Nat}

/-- What a block with a cache returns for a chunk. -/
theorem forward_appends (hm : m.Appends) (hkeeps : m.keepsCache) (past : List (Option P.Entry))
    (d : SharedKv P.Tensor) :
    Ends OutOfBounds
      (fun out => ∃ new, out.newKvs = some new ∧ Module.Returns xs.length (some past) new)
      (m.forward adapter xs (some past) perLayerInput d) := by
  cases m with
  | plain compute =>
    refine (lift_ends (hm adapter xs (some past) perLayerInput)).bind fun out _ hout => ?_
    exact Ends.ok ⟨_, rfl, hout⟩
  | donor layerType compute =>
    refine (lift_ends (hm adapter xs (some past) perLayerInput)).bind fun out _ hout => ?_
    exact Ends.ok ⟨_, rfl, hout⟩
  | consumer layerType compute => exact hkeeps.elim

/-- The chunks of a block with a cache: by induction on them, each goes on where the one before it
has ended. -/
theorem forwardChunks_appends (hm : m.Appends) (hkeeps : m.keepsCache) :
    ∀ (offsets : List Nat) (past : List (Option P.Entry)) (shared : Option (SharedKv P.Tensor)),
      Ends OutOfBounds
        (fun out => ∃ new, out.2.1 = some new ∧
          Module.Returns (offsets.map fun o => (slice xs o n).length).sum (some past) new)
        (forwardChunks m adapter xs perLayerInput n offsets (some past) shared)
  | [], past, shared => Ends.ok ⟨past, rfl, [], rfl, (List.append_nil past).symm⟩
  | offset :: offsets, past, shared => by
    refine (forward_appends hm hkeeps past (shared.getD ∅)).bind fun out _ ⟨new, hnew, hreturns⟩ => ?_
    rw [hnew]
    refine (forwardChunks_appends hm hkeeps offsets new _).bind
      fun rest _ ⟨newer, hnewer, hreturns'⟩ => ?_
    exact Ends.ok ⟨newer, hnewer, returns_concat hreturns hreturns'⟩

theorem forward_consumes (hm : m.Appends) (hkeeps : ¬ m.keepsCache)
    (past : Option (List (Option P.Entry))) (d : SharedKv P.Tensor) :
    Ends OutOfBounds (fun out => out.newKvs = none) (m.forward adapter xs past perLayerInput d) := by
  cases m with
  | plain compute => exact absurd trivial hkeeps
  | donor layerType compute => exact absurd trivial hkeeps
  | consumer layerType compute =>
    simp only [Module.forward]
    cases d.lookup layerType with
    | none =>
      refine Ends.error ?_
      rintro (hbad | hbad) <;> cases hbad
    | some keyValue =>
      refine (lift_ends (hm adapter xs _ _)).bind fun _ _ _ => ?_
      exact Ends.ok rfl

/-- A consumer returns no keys and values. -/
theorem forwardChunks_consumer (hm : m.Appends) (hkeeps : ¬ m.keepsCache) :
    ∀ (offsets : List Nat) (past : Option (List (Option P.Entry)))
      (shared : Option (SharedKv P.Tensor)),
      Ends OutOfBounds (fun out => offsets ≠ [] ∨ past = none → out.2.1 = none)
        (forwardChunks m adapter xs perLayerInput n offsets past shared)
  | [], past, shared => Ends.ok fun h => h.resolve_left fun hne => hne rfl
  | offset :: offsets, past, shared => by
    refine (forward_consumes hm hkeeps past (shared.getD ∅)).bind fun out _ hnone => ?_
    rw [hnone]
    refine (forwardChunks_consumer hm hkeeps offsets none _).bind fun rest _ hrest => ?_
    exact Ends.ok fun _ => hrest (Or.inr rfl)

end Chunks

/-- All chunks of a block. -/
theorem forwardChunked_appends {m : Module (standard P)} (hm : m.Appends) {adapter : Option String}
    {xs : List P.Token} (hxs : xs ≠ []) {past : List (Option P.Entry)} {n : Nat} (hn : 0 < n)
    {perLayerInput : Option (List P.LayerInput)} {shared : Option (SharedKv P.Tensor)} :
    Ends OutOfBounds
      (fun out => out.1.length = xs.length ∧ (¬ m.keepsCache → out.2.1 = none) ∧
        (m.keepsCache → ∃ new, out.2.1 = some new ∧ Module.Returns xs.length (some past) new))
      (forwardChunked m adapter xs (some past) n perLayerInput shared) := by
  have hlength : ∀ out, forwardChunked m adapter xs (some past) n perLayerInput shared = .ok out →
      out.1.length = xs.length := fun out hout => forwardChunked_length hn hout
  unfold forwardChunked at hlength ⊢
  have hne : xs.isEmpty = false := by
    cases xs with
    | nil => exact absurd rfl hxs
    | cons x xs => rfl
  simp only [hne, Bool.false_eq_true, if_false] at hlength ⊢
  by_cases hkeeps : m.keepsCache
  · refine (forwardChunks_appends hm hkeeps (steppedRange xs.length n) past shared).mono
      fun out hout hnew => ⟨hlength out hout, fun hnot => absurd hkeeps hnot, fun _ => ?_⟩
    rw [sum_slices xs hn] at hnew
    exact hnew
  · obtain ⟨offset, offsets, hoffsets⟩ := steppedRange_eq_cons (List.length_pos_iff.mpr hxs) hn
    refine (forwardChunks_consumer hm hkeeps (steppedRange xs.length n) (some past) shared).mono
      fun out hout hnone => ⟨hlength out hout, fun _ => hnone (Or.inl ?_), fun h => absurd h hkeeps⟩
    rw [hoffsets]
    exact List.cons_ne_nil _ _

/-! ### A block of a span -/

/-- A backend that has heads, and whose tensors have a size. -/
structure Backend.Sized (b : Backend (standard P)) : Prop where
  heads : 0 < b.shardNumHeads.foldl max 0
  dtypeBytes : 0 < b.dtypeBytes

/-- The divisor of the chunk estimate is not zero. -/
theorem estimateMaxChunkLength_ok {b : Backend (standard P)} (hb : b.Sized) {batchSize seqLength : Nat}
    (hbatch : 0 < batchSize) (hseq : 0 < seqLength) (p : Nat) :
    ∃ n, b.estimateMaxChunkLength batchSize seqLength p = .ok n ∧ 0 < n := by
  have hpos : 0 < b.shardNumHeads.foldl max 0 * batchSize * b.dtypeBytes * (p + seqLength) :=
    Nat.mul_pos (Nat.mul_pos (Nat.mul_pos hb.heads hbatch) hb.dtypeBytes) (Nat.add_pos_right p hseq)
  have hne : (b.shardNumHeads.foldl max 0 * batchSize * b.dtypeBytes * ((p : Int) + seqLength) : Int) ≠
      0 := by
    exact_mod_cast hpos.ne'
  obtain ⟨n, hn⟩ : ∃ n, b.estimateMaxChunkLength batchSize seqLength p = .ok n := by
    unfold Backend.estimateMaxChunkLength
    dsimp only
    rw [if_neg hne]
    exact ⟨_, rfl⟩
  exact ⟨n, hn, Backend.estimateMaxChunkLength_pos hn⟩

theorem writeBack_ok {memory : List Nat → List (Option P.Entry)} {handles : List Nat}
    {newKvs row : List (Option P.Entry)} {prefixLength : Int}
    (h : (updateCache (memory handles) newKvs prefixLength :
      Except (CacheFailure P.Failure) (List (Option P.Entry))) = .ok row) :
    (writeBack memory handles prefixLength (some newKvs) :
      Except (InferenceError (standard P)) (standard P).Memory) =
        .ok (Function.update memory handles row) := by
  show Except.mapError InferenceError.failure (Except.bind _ _) = _
  rw [h]
  rfl

/-- What a step does to the cache of a block. -/
def StepGrows (b : Backend (standard P)) (handles : List Nat) (p n : Nat) (s s' : Stage (standard P)) :
    Prop :=
  s'.tokens.length = s.tokens.length ∧ Grows s.memory s'.memory ∧
    (b.module.keepsCache → Filled p (s.memory handles) → Filled (p + n) (s'.memory handles))

/-- **A block within bounds.** -/
theorem contiguousInferenceStep_bounds {b : Backend (standard P)} (hb : b.Sized)
    (hm : b.module.Appends) {batchSize : Nat} (hbatch : 0 < batchSize) {hypoIds : P.HypoIds}
    {info : InferenceMetadata (standard P)} {s : Stage (standard P)} (htokens : s.tokens ≠ []) {p : Nat}
    (hp : info.prefixLength = p)
    (hfits : b.module.keepsCache → p + s.tokens.length ≤ (s.memory info.cacheHandles).length) :
    Ends OutOfBounds (StepGrows b info.cacheHandles p s.tokens.length s)
      (b.contiguousInferenceStep batchSize hypoIds info s) := by
  unfold Backend.contiguousInferenceStep
  -- the reordered memory
  have hreorder : Ends OutOfBounds (fun memory => Grows s.memory memory)
      (reorderCacheInplace s.memory info.cacheHandles hypoIds :
        Except (InferenceError (standard P)) (standard P).Memory) := by
    unfold reorderCacheInplace
    split
    · exact Ends.ok (Grows.refl _)
    · refine lift_ends ?_
      show Ends _ _ ((P.permute hypoIds).mapError CacheFailure.library >>= _)
      cases P.permute hypoIds with
      | error f => exact fun h => by cases h
      | ok f => exact Ends.ok (grows_update (rowGrows_map f _))
  refine hreorder.bind fun memory _ hgrows => ?_
  obtain ⟨n, hn, hpos⟩ := estimateMaxChunkLength_ok hb hbatch (List.length_pos_iff.mpr htokens) p
  rw [hp, hn, ok_bind]
  show Ends _ _ (forwardChunked b.module info.activeAdapter s.tokens
    (some (sliceTo (memory info.cacheHandles) p)) n info.perLayerInput (some s.shared) >>= _)
  rw [sliceTo_natCast]
  refine (forwardChunked_appends hm htokens hpos).bind
    fun ⟨tokens, newKvs, shared⟩ _ ⟨hlength, hnone, hsome⟩ => ?_
  dsimp only at hlength hnone hsome ⊢
  have hrow := hgrows info.cacheHandles
  by_cases hkeeps : b.module.keepsCache
  · obtain ⟨new, hnew, entries, hentries, rfl⟩ := hsome hkeeps
    have hroom := hfits hkeeps
    rw [← hrow.length, ← hentries] at hroom
    obtain ⟨row', hupdate, hgrows', hfilled⟩ :=
      updateCache_append (F := P.Failure) (memory info.cacheHandles) entries hroom
    rw [hnew, Option.getD_some, writeBack_ok hupdate, ok_bind]
    refine Ends.ok ⟨hlength, hgrows.trans (grows_update hgrows'), fun _ hbefore => ?_⟩
    show Filled _ (Function.update memory info.cacheHandles row' info.cacheHandles)
    rw [Function.update_self, ← hentries]
    exact hfilled (hrow.filled hbefore)
  · rw [hnone hkeeps]
    exact Ends.ok ⟨hlength, hgrows, fun h => absurd h hkeeps⟩

/-! ### A request within bounds -/

/-- A server whose sessions have such caches. -/
structure StandardServer (server : InferenceServer (standard P)) : Prop where
  contiguous : server.paged = false
  sized : ∀ uid, (server.backends uid).Sized
  appends : ∀ uid, (server.backends uid).module.Appends

/-- The block with a uid keeps a cache. -/
def Keeps (server : InferenceServer (standard P)) (uid : String) : Prop :=
  (server.backends uid).module.keepsCache

/-- All work is at the same position, with room for so many tokens. -/
def Fits (server : InferenceServer (standard P)) (p n : Nat) (memory : List Nat → List (Option P.Entry))
    (work : List (InferenceMetadata (standard P) × Option (List P.Token))) : Prop :=
  ∀ w ∈ work, w.1.prefixLength = p ∧
    (Keeps server w.1.uid → p + n ≤ (memory w.1.cacheHandles).length)

theorem Fits.grows {server : InferenceServer (standard P)} {p n : Nat}
    {memory memory' : List Nat → List (Option P.Entry)}
    {work : List (InferenceMetadata (standard P) × Option (List P.Token))}
    (h : Fits server p n memory work) (hgrows : Grows memory memory') : Fits server p n memory' work :=
  fun w hw => ⟨(h w hw).1, fun hkeeps => by
    rw [(hgrows w.1.cacheHandles).length]
    exact (h w hw).2 hkeeps⟩

/-- What the blocks have written. -/
def Advanced (server : InferenceServer (standard P)) (p n : Nat)
    (memory memory' : List Nat → List (Option P.Entry))
    (work : List (InferenceMetadata (standard P) × Option (List P.Token))) : Prop :=
  Grows memory memory' ∧
    ∀ w ∈ work, Keeps server w.1.uid → Filled p (memory w.1.cacheHandles) →
      Filled (p + n) (memory' w.1.cacheHandles)

/-- The blocks one after another: what the later ones write leaves in place what the earlier ones have
written. -/
theorem Advanced.cons {server : InferenceServer (standard P)} {p n : Nat}
    {memory memory' memory'' : List Nat → List (Option P.Entry)}
    {w : InferenceMetadata (standard P) × Option (List P.Token)}
    {work : List (InferenceMetadata (standard P) × Option (List P.Token))}
    (hgrows : Grows memory memory')
    (hw : Keeps server w.1.uid → Filled p (memory w.1.cacheHandles) →
      Filled (p + n) (memory' w.1.cacheHandles))
    (h : Advanced server p n memory' memory'' work) : Advanced server p n memory memory'' (w :: work) := by
  refine ⟨hgrows.trans h.1, fun w' hw' hkeeps hfilled => ?_⟩
  rcases List.mem_cons.mp hw' with rfl | hw'
  · exact (h.1 _).filled (hw hkeeps hfilled)
  · exact h.2 w' hw' hkeeps ((hgrows _).filled hfilled)

section Request

variable {server : InferenceServer (standard P)} (hserver : StandardServer server) {batchSize : Nat}
  (hbatch : 0 < batchSize) {hypoIds : P.HypoIds} {p n : Nat}

theorem addPrompt_ends : ∀ (xs prompt : List P.Token),
    Ends OutOfBounds (fun _ => True)
      (addPrompt xs prompt : Except (InferenceError (standard P)) (List P.Token))
  | xs, [] => by
    cases xs <;> exact Ends.ok trivial
  | [], _ :: _ => by
    rintro (hbad | hbad) <;> cases hbad
  | x :: xs, q :: prompt => by
    have hadd : Ends OutOfBounds (fun _ => True)
        (lift ((standard P).add x q) : Except (InferenceError (standard P)) P.Token) := by
      refine lift_ends ?_
      show Ends _ _ ((P.add x q).mapError CacheFailure.library)
      cases P.add x q with
      | error f => exact fun h => by cases h
      | ok z => exact Ends.ok trivial
    exact hadd.bind fun _ _ _ => (addPrompt_ends xs prompt).bind fun _ _ _ => Ends.ok trivial

include hserver hbatch in
/-- One block of a task. -/
theorem mergedTurn_bounds {info : InferenceMetadata (standard P)} {prompt : Option (List P.Token)}
    {s : Stage (standard P)} (htokens : s.tokens.length = n) (hpos : 0 < n)
    (hp : info.prefixLength = p)
    (hfits : Keeps server info.uid → p + n ≤ (s.memory info.cacheHandles).length) :
    Ends OutOfBounds (fun s' => s'.tokens.length = n ∧ Grows s.memory s'.memory ∧
        (Keeps server info.uid → Filled p (s.memory info.cacheHandles) →
          Filled (p + n) (s'.memory info.cacheHandles)))
      (server.mergedTurn batchSize hypoIds info prompt s) := by
  rw [mergedTurn_eq]
  have hprompt : Ends OutOfBounds (fun xs => xs.length = n)
      (addOptionalPrompt s.tokens prompt : Except (InferenceError (standard P)) (List P.Token)) := by
    have hends : Ends OutOfBounds (fun _ => True)
        (addOptionalPrompt s.tokens prompt : Except (InferenceError (standard P)) (List P.Token)) := by
      cases prompt with
      | none => exact Ends.ok trivial
      | some prompt => exact addPrompt_ends s.tokens prompt
    exact hends.mono fun xs hxs _ => (addOptionalPrompt_length hxs).trans htokens
  refine hprompt.bind fun xs _ hxs => ?_
  rw [hserver.contiguous]
  subst hxs
  exact contiguousInferenceStep_bounds (hserver.sized _) (hserver.appends _) hbatch
    (List.length_pos_iff.mp hpos) hp hfits

include hserver hbatch in
/-- By induction on the blocks. -/
theorem mergedLoop_bounds (hpos : 0 < n) :
    ∀ (work : List (InferenceMetadata (standard P) × Option (List P.Token)))
      (s : Stage (standard P)), s.tokens.length = n → Fits server p n s.memory work →
        Ends OutOfBounds
          (fun s' => s'.tokens.length = n ∧ Advanced server p n s.memory s'.memory work)
          (server.mergedLoop batchSize hypoIds work s)
  | [], s, htokens, _ => Ends.ok ⟨htokens, Grows.refl _, fun w hw => absurd hw List.not_mem_nil⟩
  | (info, prompt) :: work, s, htokens, hfits => by
    obtain ⟨hp, hroom⟩ := hfits (info, prompt) List.mem_cons_self
    refine (mergedTurn_bounds hserver hbatch htokens hpos hp hroom).bind
      fun s' _ ⟨htokens', hgrows, hwritten⟩ => ?_
    have hfits' : Fits server p n s'.memory work :=
      Fits.grows (fun w hw => hfits w (List.mem_cons_of_mem _ hw)) hgrows
    refine (mergedLoop_bounds hpos work s' htokens' hfits').mono fun s'' _ ⟨htokens'', hrest⟩ => ?_
    exact ⟨htokens'', hrest.cons hgrows hwritten⟩

include hserver hbatch in
theorem submitTask_bounds (hpos : 0 < n) {infos : List (InferenceMetadata (standard P))}
    {prompts : List (Option (List P.Token))} {s : Stage (standard P)} (htokens : s.tokens.length = n)
    (hfits : Fits server p n s.memory (infos.zip prompts)) :
    Ends OutOfBounds
      (fun out => out.1.length = n ∧ Advanced server p n s.memory out.2.2 (infos.zip prompts))
      (server.submitTask batchSize hypoIds infos prompts s) := by
  unfold InferenceServer.submitTask InferenceServer.mergedInferenceStep
  split
  · rintro (hbad | hbad) <;> cases hbad
  split
  · refine (mergedLoop_bounds hserver hbatch hpos _ s htokens hfits).bind fun s' _ hs' => ?_
    exact Ends.ok hs'
  · rintro (hbad | hbad) <;> cases hbad

include hserver hbatch in
theorem mergedPath_bounds (hpos : 0 < n) {infos : List (InferenceMetadata (standard P))}
    {prompts : List (Option (List P.Token))} {s : Stage (standard P)} (htokens : s.tokens.length = n)
    (hfits : Fits server p n s.memory (infos.zip prompts)) :
    Ends OutOfBounds (fun out => Advanced server p n s.memory out.memory (infos.zip prompts))
      (server.mergedPath batchSize hypoIds infos prompts s) := by
  refine (submitTask_bounds hserver hbatch hpos htokens hfits).bind
    fun ⟨tokens, produced, memory⟩ _ ⟨_, hadvanced⟩ => ?_
  dsimp only
  split
  · rintro (hbad | hbad) <;> cases hbad
  · exact Ends.ok hadvanced

include hserver hbatch in
/-- By induction on the blocks, each of which is a task of its own. -/
theorem perBlockPath_bounds (hpos : 0 < n) (shared : SharedKv P.Tensor) :
    ∀ (work : List (InferenceMetadata (standard P) × Option (List P.Token)))
      (q : InferenceServer.Produced (standard P)), q.tokens.length = n →
        Fits server p n q.memory work →
          Ends OutOfBounds (fun out => Advanced server p n q.memory out.memory work)
            (server.perBlockPath batchSize hypoIds shared work q)
  | [], q, _, _ => Ends.ok ⟨Grows.refl _, fun w hw => absurd hw List.not_mem_nil⟩
  | (info, prompt) :: work, q, htokens, hfits => by
    have hone : Fits server p n q.memory ([info].zip [prompt]) := fun w hw => by
      rw [List.mem_singleton.mp hw]
      exact hfits (info, prompt) List.mem_cons_self
    refine (submitTask_bounds hserver hbatch hpos (s := ⟨q.tokens, shared, q.memory⟩) htokens hone).bind
      fun ⟨tokens, produced, memory⟩ _ ⟨htokens', hgrows, hwritten⟩ => ?_
    dsimp only at htokens' hgrows hwritten ⊢
    split
    · rintro (hbad | hbad) <;> cases hbad
    · next sharedKv _ =>
      have hfits' : Fits server p n memory work :=
        Fits.grows (fun w hw => hfits w (List.mem_cons_of_mem _ hw)) hgrows
      refine (perBlockPath_bounds hpos shared work _ htokens' hfits').mono fun out _ hrest => ?_
      exact hrest.cons hgrows (hwritten (info, prompt) List.mem_cons_self)

end Request

/-! ### Sessions -/

/-- A number of Python, as a position: what is read from the metadata may be a float, of which `⊥` is
the negative infinity. -/
inductive Position
  | int (i : Int)
  | float (x : WithBot ℚ)
  deriving DecidableEq

/-- The number. -/
def Position.value : Position → WithBot ℚ
  | .int i => ((i : ℚ) : WithBot ℚ)
  | .float x => x

/-- A value under `start_from_position`. That a position is not less than a value is false for the
infinity and for what is not a number in the sense of floats, and raises for all but numbers. -/
inductive StartValue
  | number (p : Position)
  | unordered
  | notANumber
  deriving DecidableEq

/-- A request of a session, and what its metadata has under `start_from_position`. -/
structure PositionedRequest (N : Numerics) where
  start : Option StartValue
  request : InferenceRequest N

/-- The session between two requests. -/
structure PositionedSession (N : Numerics) where
  position : Position
  memory : N.Memory

section Session

variable {N : Numerics} (server : InferenceServer N) (span : InferenceSpan N)

/-- `prefix_length` of a request. -/
def nextPosition (position : Position) :
    Option StartValue → Except (InferenceError N) Position
  | none => .ok position
  | some (.number p) => if p.value ≤ position.value then .ok p else .error .assertionError
  | some .unordered => .error .assertionError
  | some .notANumber => .error .typeError

/-- `inferenceRequest` at a float: no slice takes it as a bound. -/
def floatRequest (x : WithBot ℚ) (memory : N.Memory) (r : InferenceRequest N) :
    Except (InferenceError N) (InferenceReply N × PositionedSession N) := do
  let blocks := span.requestedUids.length
  if blocks = 0 then .error .indexError else
  let _ ← InferenceServer.perBlockInputs (N := N) blocks r.prompts
  let _ ← InferenceServer.perBlockInputs (N := N) blocks (r.perLayerInputs.map (List.map some))
  let shared ← InferenceServer.seedSharedKv r
  if x + (r.tokens.length : ℚ) > ((span.maxLength : ℚ) : WithBot ℚ) then .error .valueError else
  if r.batchSize * r.tokens.length * r.hiddenSize = 0 then
    .ok (InferenceServer.reply r shared { tokens := r.tokens, memory := memory, producedSharedKv := ∅ },
      { position := .float (x + (r.tokens.length : ℚ)), memory := memory })
  else
    .error .typeError

/-- One turn of the loop of `iterate_rpc_inference`. -/
def positionedRequest (s : PositionedSession N) (r : PositionedRequest N) :
    Except (InferenceError N) (InferenceReply N × PositionedSession N) := do
  let position ← nextPosition s.position r.start
  match position with
  | .int p => do
    let (reply, s') ← server.inferenceRequest span (server.choosePath r.request) ⟨p, s.memory⟩
      { r.request with startFromPosition := none }
    return (reply, ⟨.int s'.prefixLength, s'.memory⟩)
  | .float x => floatRequest span x s.memory r.request

/-- The sessions of a span, up to a request that raises. -/
def sessionMachine : Machine (PositionedSession N) (PositionedRequest N) where
  next s r :=
    match positionedRequest server span s r with
    | .ok (_, s') => some s'
    | .error _ => none

/-- The step is handed to the backends, at a position. -/
structure HandsOver (s : PositionedSession N) (r : PositionedRequest N) (p : Position) : Prop where
  start : nextPosition s.position r.start = (.ok p : Except (InferenceError N) Position)
  length : p.value + (r.request.tokens.length : ℚ) ≤ ((span.maxLength : ℚ) : WithBot ℚ)
  elements : r.request.batchSize * r.request.tokens.length * r.request.hiddenSize ≠ 0

/-- What keeps a step within bounds: it does not start before the first position, and where its hidden
states have no elements they have no tokens either. -/
def PositionedRequest.Sound (r : PositionedRequest N) : Prop :=
  (∀ p, r.start = some (.number p) → 0 ≤ p.value) ∧
    (r.request.batchSize * r.request.tokens.length * r.request.hiddenSize = 0 →
      r.request.tokens.length = 0)

/-- For whole positions this is a turn of the session. -/
theorem positionedRequest_int (prefixLength start : Int) (memory : N.Memory) (r : InferenceRequest N) :
    positionedRequest server span ⟨.int prefixLength, memory⟩ ⟨some (.number (.int start)), r⟩ =
      server.inferenceRequest span (server.choosePath r) ⟨prefixLength, memory⟩
          { r with startFromPosition := some start } >>= fun out =>
        .ok (out.1, ⟨.int out.2.prefixLength, out.2.memory⟩) := by
  have hle : (Position.int start).value ≤ (Position.int prefixLength).value ↔ start ≤ prefixLength := by
    simp only [Position.value, WithBot.coe_le_coe, Int.cast_le]
  unfold positionedRequest InferenceServer.inferenceRequest nextPosition InferenceServer.startPosition
  simp only [hle, ge_iff_le]
  split <;> rfl

end Session

/-! ### Sessions within bounds -/

section Bounds

variable {server : InferenceServer (standard P)} {span : InferenceSpan (standard P)}

/-- The caches of the blocks that keep one are allocated for the length of the session. -/
def Allocated (server : InferenceServer (standard P)) (span : InferenceSpan (standard P))
    (memory : List Nat → List (Option P.Entry)) : Prop :=
  ∀ b ∈ span.requestedUids.zip span.cacheHandles, Keeps server b.1 →
    (memory b.2).length = span.maxLength

/-- All caches are written up to a position. -/
def FilledAll (server : InferenceServer (standard P)) (span : InferenceSpan (standard P)) (n : Nat)
    (memory : List Nat → List (Option P.Entry)) : Prop :=
  ∀ b ∈ span.requestedUids.zip span.cacheHandles, Keeps server b.1 → Filled n (memory b.2)

/-- The invariant of a session: its position is not negative, and all before it is written. -/
structure Positioned (server : InferenceServer (standard P)) (span : InferenceSpan (standard P))
    (position : Position) (memory : List Nat → List (Option P.Entry)) : Prop where
  allocated : Allocated server span memory
  position : ∃ q : ℚ, position.value = q ∧ 0 ≤ q ∧ FilledAll server span ⌈q⌉₊ memory

theorem mem_inferenceInfos {p : Int} {perLayerInputs : List (Option (List P.LayerInput))}
    {prompts : List (Option (List P.Token))}
    {w : InferenceMetadata (standard P) × Option (List P.Token)}
    (hw : w ∈ (InferenceServer.inferenceInfos span p perLayerInputs).zip prompts) :
    w.1.prefixLength = p ∧
      (w.1.uid, w.1.cacheHandles) ∈ span.requestedUids.zip span.cacheHandles := by
  obtain ⟨hinfo, -⟩ := List.of_mem_zip hw
  obtain ⟨⟨uid, handles, input⟩, hmem, hinfo⟩ := List.mem_map.mp hinfo
  rw [← hinfo]
  refine ⟨rfl, ?_⟩
  obtain ⟨i, hi⟩ := List.mem_iff_getElem?.mp hmem
  obtain ⟨huid, hrest⟩ := List.getElem?_zip_eq_some.mp hi
  obtain ⟨hhandles, -⟩ := List.getElem?_zip_eq_some.mp hrest
  exact List.mem_iff_getElem?.mpr ⟨i, List.getElem?_zip_eq_some.mpr ⟨huid, hhandles⟩⟩

/-- Each block of the span is part of the work. -/
theorem exists_mem_inferenceInfos {p : Int} {perLayerInputs : List (Option (List P.LayerInput))}
    {prompts : List (Option (List P.Token))}
    (hlayers : perLayerInputs.length = span.requestedUids.length)
    (hprompts : prompts.length = span.requestedUids.length) {b : String × List Nat}
    (hb : b ∈ span.requestedUids.zip span.cacheHandles) :
    ∃ w ∈ (InferenceServer.inferenceInfos span p perLayerInputs).zip prompts,
      w.1.uid = b.1 ∧ w.1.cacheHandles = b.2 := by
  obtain ⟨i, hi⟩ := List.mem_iff_getElem?.mp hb
  obtain ⟨huid, hhandles⟩ := List.getElem?_zip_eq_some.mp hi
  have hlt : i < span.requestedUids.length := (List.getElem?_eq_some_iff.mp huid).1
  obtain ⟨input, hinput⟩ : ∃ input, perLayerInputs[i]? = some input :=
    ⟨_, List.getElem?_eq_getElem (hlayers ▸ hlt)⟩
  obtain ⟨prompt, hprompt⟩ : ∃ prompt, prompts[i]? = some prompt :=
    ⟨_, List.getElem?_eq_getElem (hprompts ▸ hlt)⟩
  have hzip : (span.requestedUids.zip (span.cacheHandles.zip perLayerInputs))[i]? =
      some (b.1, b.2, input) :=
    List.getElem?_zip_eq_some.mpr ⟨huid, List.getElem?_zip_eq_some.mpr ⟨hhandles, hinput⟩⟩
  refine ⟨(⟨b.1, p, b.2, span.activeAdapter, input⟩, prompt), ?_, rfl, rfl⟩
  refine List.mem_iff_getElem?.mpr ⟨i, List.getElem?_zip_eq_some.mpr ⟨?_, hprompt⟩⟩
  rw [InferenceServer.inferenceInfos, List.getElem?_map, hzip]
  rfl

/-- The checks raise only what they are for. -/
theorem perBlockInputs_ends {α : Type} {blocks : Nat} (inputs : Option (List (Option α))) :
    Ends OutOfBounds (fun out => out.length = blocks)
      (InferenceServer.perBlockInputs blocks inputs : Except (InferenceError (standard P)) _) := by
  have hends : Ends OutOfBounds (fun _ => True)
      (InferenceServer.perBlockInputs blocks inputs : Except (InferenceError (standard P)) _) := by
    unfold InferenceServer.perBlockInputs
    split
    · exact Ends.ok trivial
    · split
      · exact Ends.ok trivial
      · rintro (hbad | hbad) <;> cases hbad
  exact hends.mono fun out hout _ => perBlockInputs_length hout

theorem seedSharedKv_ends (r : InferenceRequest (standard P)) :
    Ends OutOfBounds (fun _ => True)
      (InferenceServer.seedSharedKv r : Except (InferenceError (standard P)) _) := by
  unfold InferenceServer.seedSharedKv
  split
  · exact Ends.ok trivial
  · split
    · rintro (hbad | hbad) <;> cases hbad
    · exact Ends.ok trivial

/-- **A request within bounds.** -/
theorem inferenceRequest_bounds (hserver : StandardServer server) {p : Nat}
    {memory : List Nat → List (Option P.Entry)} (hallocated : Allocated server span memory)
    (hfilled : FilledAll server span p memory) {path : InferencePath}
    {r : InferenceRequest (standard P)} (hstart : r.startFromPosition = none)
    (hsound : r.batchSize * r.tokens.length * r.hiddenSize = 0 → r.tokens.length = 0) :
    Ends OutOfBounds
      (fun out => out.2.prefixLength = ((p + r.tokens.length : Nat) : Int) ∧
        Allocated server span out.2.memory ∧
        FilledAll server span (p + r.tokens.length) out.2.memory)
      (server.inferenceRequest span path ⟨p, memory⟩ r) := by
  unfold InferenceServer.inferenceRequest
  rw [hstart]
  show Ends _ _ (Except.ok _ >>= _)
  rw [ok_bind]
  dsimp only
  by_cases hblocks : span.requestedUids.length = 0
  · rw [if_pos hblocks]
    rintro (hbad | hbad) <;> cases hbad
  rw [if_neg hblocks]
  refine (perBlockInputs_ends _).bind fun prompts _ hprompts => ?_
  refine (perBlockInputs_ends _).bind fun perLayerInputs _ hlayers => ?_
  refine (seedSharedKv_ends r).bind fun shared _ _ => ?_
  split
  · rintro (hbad | hbad) <;> cases hbad
  next hlength =>
  set work := (InferenceServer.inferenceInfos span (p : Int) perLayerInputs).zip prompts with hwork
  have hroom : p + r.tokens.length ≤ span.maxLength := by
    rw [not_lt] at hlength
    exact_mod_cast hlength
  have hfits : Fits server p r.tokens.length memory work := by
    intro w hw
    obtain ⟨hp, hblock⟩ := mem_inferenceInfos hw
    refine ⟨hp, fun hkeeps => ?_⟩
    rw [hallocated _ hblock hkeeps]
    exact hroom
  -- from what the blocks have written to the caches of the span
  have hall : ∀ memory', Advanced server p r.tokens.length memory memory' work →
      Allocated server span memory' ∧ FilledAll server span (p + r.tokens.length) memory' := by
    intro memory' ⟨hgrows, hwritten⟩
    refine ⟨fun b hb hkeeps => ?_, fun b hb hkeeps => ?_⟩
    · rw [(hgrows b.2).length]
      exact hallocated b hb hkeeps
    · obtain ⟨w, hw, huid, hhandles⟩ := exists_mem_inferenceInfos hlayers hprompts hb
      have hdone := hwritten w hw
      rw [huid, hhandles] at hdone
      exact hdone hkeeps (hfilled b hb hkeeps)
  have hthrough : Ends OutOfBounds
      (fun q => Allocated server span q.memory ∧ FilledAll server span (p + r.tokens.length) q.memory)
      (server.throughSpan path r (InferenceServer.inferenceInfos span (p : Int) perLayerInputs) prompts
        shared memory) := by
    unfold InferenceServer.throughSpan
    split
    · next hempty =>
      refine Ends.ok ⟨hallocated, ?_⟩
      rw [hsound hempty, Nat.add_zero]
      exact hfilled
    next helements =>
    have hbatch : 0 < r.batchSize := Nat.pos_of_ne_zero fun h => helements (by rw [h, Nat.zero_mul,
      Nat.zero_mul])
    have hpos : 0 < r.tokens.length := Nat.pos_of_ne_zero fun h => helements (by rw [h, Nat.mul_zero,
      Nat.zero_mul])
    split
    · refine (mergedPath_bounds hserver hbatch hpos rfl hfits).mono fun q _ hadvanced => ?_
      exact hall q.memory hadvanced
    · refine (perBlockPath_bounds hserver hbatch hpos shared work _ rfl hfits).mono
        fun q _ hadvanced => ?_
      exact hall q.memory hadvanced
  exact hthrough.bind fun q _ hq => Ends.ok ⟨rfl, hq⟩

theorem FilledAll.mono {n m : Nat} {memory : List Nat → List (Option P.Entry)}
    (h : FilledAll server span n memory) (hle : m ≤ n) : FilledAll server span m memory :=
  fun b hb hkeeps => (h b hb hkeeps).mono hle

/-- The position of a request: a session goes on where it is, or back to a position that is not
negative. -/
theorem nextPosition_positioned {position p : Position} {memory : List Nat → List (Option P.Entry)}
    (h : Positioned server span position memory) {start : Option StartValue}
    (hsound : ∀ p, start = some (.number p) → 0 ≤ p.value)
    (hp : nextPosition position start = (.ok p : Except (InferenceError (standard P)) Position)) :
    Positioned server span p memory := by
  obtain ⟨q, hq, hnonneg, hfilled⟩ := h.position
  unfold nextPosition at hp
  split at hp
  · cases hp
    exact h
  · next value =>
    split at hp
    · next hle =>
      cases hp
      have hzero := hsound p rfl
      cases hvalue : p.value with
      | bot =>
        rw [hvalue] at hzero
        exact absurd hzero (not_le.mpr (WithBot.bot_lt_coe 0))
      | coe x =>
        rw [hvalue, hq, WithBot.coe_le_coe] at hle
        rw [hvalue] at hzero
        exact ⟨h.allocated, x, hvalue, WithBot.coe_le_coe.mp hzero,
          hfilled.mono (Nat.ceil_mono hle)⟩
    · cases hp
  · cases hp
  · cases hp

/-- What a request does to a session within bounds, at its position. -/
theorem positionedRequest_bounds (hserver : StandardServer server) {s : PositionedSession (standard P)}
    (h : Positioned server span s.position s.memory) {r : PositionedRequest (standard P)}
    (hsound : r.Sound) :
    Ends OutOfBounds (fun out => Positioned server span out.2.position out.2.memory)
      (positionedRequest server span s r) := by
  unfold positionedRequest
  cases hnext : (nextPosition s.position r.start : Except (InferenceError (standard P)) Position) with
  | error e =>
    unfold nextPosition at hnext
    split at hnext
    · cases hnext
    · split at hnext <;> cases hnext
      rintro (hbad | hbad) <;> cases hbad
    · cases hnext
      rintro (hbad | hbad) <;> cases hbad
    · cases hnext
      rintro (hbad | hbad) <;> cases hbad
  | ok p =>
    have hpositioned := nextPosition_positioned h hsound.1 hnext
    obtain ⟨q, hq, hnonneg, hfilled⟩ := hpositioned.position
    rw [ok_bind]
    cases p with
    | int i =>
      have hiq : (i : ℚ) = q := WithBot.coe_inj.mp hq
      have hi : 0 ≤ i := by exact_mod_cast hiq ▸ hnonneg
      obtain ⟨n, rfl⟩ := Int.eq_ofNat_of_zero_le hi
      have hceil : ⌈q⌉₊ = n := by
        rw [← hiq]
        exact Nat.ceil_natCast n
      rw [hceil] at hfilled
      refine (inferenceRequest_bounds (r := { r.request with startFromPosition := none }) hserver
        hpositioned.allocated hfilled rfl hsound.2).bind
        fun out _ ⟨hlength, hallocated', hfilled'⟩ => ?_
      refine Ends.ok ⟨hallocated', (n + r.request.tokens.length : Nat), ?_, Nat.cast_nonneg _, ?_⟩
      · show ((out.2.prefixLength : ℚ) : WithBot ℚ) = _
        rw [hlength, Int.cast_natCast]
      · rw [Nat.ceil_natCast]
        exact hfilled'
    | float x =>
      replace hq : x = q := hq
      show Ends _ _ (floatRequest span x s.memory r.request)
      unfold floatRequest
      dsimp only
      split
      · rintro (hbad | hbad) <;> cases hbad
      refine (perBlockInputs_ends _).bind fun prompts _ _ => ?_
      refine (perBlockInputs_ends _).bind fun perLayerInputs _ _ => ?_
      refine (seedSharedKv_ends _).bind fun shared _ _ => ?_
      split
      · rintro (hbad | hbad) <;> cases hbad
      split
      · next hempty =>
        have hnone : r.request.tokens.length = 0 := hsound.2 hempty
        refine Ends.ok ⟨hpositioned.allocated, q, ?_, hnonneg, hfilled⟩
        show x + ((r.request.tokens.length : ℚ) : WithBot ℚ) = q
        rw [hnone, hq, Nat.cast_zero, WithBot.coe_zero, add_zero]
      · rintro (hbad | hbad) <;> cases hbad

/-- The run lemma. -/
theorem positioned_reach (hserver : StandardServer server)
    {memory : List Nat → List (Option P.Entry)} (hallocated : Allocated server span memory)
    {s : PositionedSession (standard P)}
    (h : (sessionMachine server span).Reach (fun _ r => r.Sound) ⟨.int 0, memory⟩ s) :
    Positioned server span s.position s.memory := by
  let Inv : PositionedSession (standard P) → Prop := fun s => Positioned server span s.position s.memory
  have hstart : Inv ⟨.int 0, memory⟩ := by
    refine ⟨hallocated, 0, by rw [Position.value, Int.cast_zero], le_refl 0, fun b _ _ i hi => ?_⟩
    rw [Nat.ceil_zero] at hi
    exact absurd hi (Nat.not_lt_zero i)
  have hinv : Inv s := by
    refine h.invariant hstart fun s r s' hs hsound hnext => ?_
    simp only [sessionMachine] at hnext
    split at hnext
    · next hrequest =>
      cases hnext
      exact (positionedRequest_bounds hserver hs hsound).of_eq_ok hrequest
    · cases hnext
  exact hinv

/-- **Position bounds.** In every session whose requests, whatever value they have under
`start_from_position`, start at no negative position and have elements in their hidden states where they
have tokens, a step that is handed to the backends starts at a position that is not negative, fits into
the length of the session and comes after no more than the tokens that each cache of the span has; the
divisor of the chunk estimate is not zero for any backend; and neither a division by zero nor a write
that does not fit is raised. -/
theorem positions_bounded (hserver : StandardServer server)
    {memory : List Nat → List (Option P.Entry)} (hallocated : Allocated server span memory)
    {s : PositionedSession (standard P)}
    (h : (sessionMachine server span).Reach (fun _ r => r.Sound) ⟨.int 0, memory⟩ s)
    {r : PositionedRequest (standard P)} (hsound : r.Sound) {p : Position}
    (hhands : HandsOver span s r p) :
    ∃ q : ℚ, p.value = q ∧ 0 ≤ q ∧ q + r.request.tokens.length ≤ span.maxLength ∧
      (∀ b ∈ span.requestedUids.zip span.cacheHandles, Keeps server b.1 → q ≤ present (s.memory b.2)) ∧
      (∀ uid, ((((server.backends uid).shardNumHeads.foldl max 0 * r.request.batchSize *
        (server.backends uid).dtypeBytes : Nat) : ℚ) * (q + r.request.tokens.length)) ≠ 0) ∧
      Ends OutOfBounds (fun _ => True) (positionedRequest server span s r) := by
  have hpositioned := positioned_reach hserver hallocated h
  obtain ⟨q, hq, hnonneg, hfilled⟩ :=
    (nextPosition_positioned hpositioned hsound.1 hhands.start).position
  have helements := hhands.elements
  have hbatch : 0 < r.request.batchSize := Nat.pos_of_ne_zero fun h => helements (by
    rw [h, Nat.zero_mul, Nat.zero_mul])
  have hpos : 0 < r.request.tokens.length := Nat.pos_of_ne_zero fun h => helements (by
    rw [h, Nat.mul_zero, Nat.zero_mul])
  refine ⟨q, hq, hnonneg, ?_, fun b hb hkeeps => ?_, fun uid => ?_, ?_⟩
  · have hlength := hhands.length
    rw [hq, ← WithBot.coe_add] at hlength
    exact WithBot.coe_le_coe.mp hlength
  · calc q ≤ ⌈q⌉₊ := Nat.le_ceil q
      _ ≤ present (s.memory b.2) := Nat.cast_le.mpr (hfilled b hb hkeeps).le_present
  · have hfactors := Nat.mul_pos (Nat.mul_pos (hserver.sized uid).heads hbatch)
      (hserver.sized uid).dtypeBytes
    have htokens : (0 : ℚ) < q + r.request.tokens.length :=
      add_pos_of_nonneg_of_pos hnonneg (Nat.cast_pos.mpr hpos)
    exact (mul_pos (Nat.cast_pos.mpr hfactors) htokens).ne'
  · exact (positionedRequest_bounds hserver hpositioned hsound).mono fun _ _ _ => trivial

end Bounds

/-! ### A session -/

/-- Tokens are numbers, and each is its own entry. -/
abbrev natNumerics : StandardNumerics where
  Token := Nat
  LayerInput := Unit
  Entry := Nat
  Tensor := Unit
  HypoIds := Unit
  Failure := Empty
  add := fun x y => .ok (x + y)
  isDummy := fun _ => true
  permute := fun _ => .ok id

/-- A server of blocks that cache the tokens. -/
def cachingServer : InferenceServer (standard natNumerics) where
  backends := fun _ =>
    { module := .plain fun _ (xs : List Nat) (past : Option (List (Option Nat))) _ =>
        .ok (⟨xs, rfl⟩, past.getD [] ++ xs.map some)
      shardNumHeads := [1]
      dtypeBytes := 2
      maxChunkSizeBytes := 16 }
  paged := false
  maxBatchSize := 2048
  quantType := .none

theorem cachingServer_standard : StandardServer cachingServer where
  contiguous := rfl
  sized := fun _ => ⟨Nat.one_pos, Nat.two_pos⟩
  appends := fun _ _ xs _ _ => Ends.ok ⟨xs, rfl, rfl⟩

/-- One block, and room for four tokens. -/
def cachingSpan : InferenceSpan (standard natNumerics) := ⟨["model.0"], [[0, 1]], none, 4⟩

def emptyCaches : List Nat → List (Option Nat) := fun _ => List.replicate 4 none

theorem emptyCaches_allocated : Allocated cachingServer cachingSpan emptyCaches :=
  fun _ _ _ => List.length_replicate

/-- A request with tokens of so many rows. -/
def rowsRequest (start : Option StartValue) (batchSize : Nat) (tokens : List Nat) :
    PositionedRequest (standard natNumerics) :=
  ⟨start, ⟨none, batchSize, 1, tokens, none, (), none, [], []⟩⟩

/-- A session after the given requests. -/
def sessionAfter (requests : List (PositionedRequest (standard natNumerics))) :
    PositionedSession (standard natNumerics) :=
  ((sessionMachine cachingServer cachingSpan).run ⟨.int 0, emptyCaches⟩ requests).getD
    ⟨.int 0, emptyCaches⟩

theorem handsOver_int {N : Numerics} {span : InferenceSpan N} {s : PositionedSession N}
    {r : PositionedRequest N} {i : Int}
    (hstart : nextPosition s.position r.start = (.ok (.int i) : Except (InferenceError N) Position))
    (hlength : i + r.request.tokens.length ≤ span.maxLength)
    (helements : r.request.batchSize * r.request.tokens.length * r.request.hiddenSize ≠ 0) :
    HandsOver span s r (.int i) where
  start := hstart
  length := by
    show (((i : ℚ) : WithBot ℚ)) + _ ≤ _
    rw [← WithBot.coe_add, WithBot.coe_le_coe]
    exact_mod_cast hlength
  elements := helements

/-- Two tokens, of which the second one is to be replaced. -/
theorem positions_bounded_after_rollback :
    ∃ q : ℚ, (Position.int 1).value = q ∧ 0 ≤ q ∧ q + 1 ≤ 4 ∧
      q ≤ present ((sessionAfter [rowsRequest none 1 [7, 8]]).memory [0, 1]) := by
  have hfirst : (rowsRequest none 1 [7, 8]).Sound := ⟨fun _ hp => (by cases hp), by decide⟩
  have hreach : (sessionMachine cachingServer cachingSpan).Reach (fun _ r => r.Sound)
      ⟨.int 0, emptyCaches⟩ (sessionAfter [rowsRequest none 1 [7, 8]]) :=
    Machine.reach_getD (by decide +kernel) ⟨hfirst, fun _ _ => trivial⟩
  have hposition : (sessionAfter [rowsRequest none 1 [7, 8]]).position = .int 2 := by decide +kernel
  have hsecond : (rowsRequest (some (.number (.int 1))) 1 [9]).Sound := by
    refine ⟨fun p hp => ?_, by decide⟩
    cases hp
    exact WithBot.coe_le_coe.mpr (by decide +kernel)
  have hhands : HandsOver cachingSpan (sessionAfter [rowsRequest none 1 [7, 8]])
      (rowsRequest (some (.number (.int 1))) 1 [9]) (.int 1) := by
    refine handsOver_int ?_ (by decide) (by decide)
    rw [hposition]
    rfl
  obtain ⟨q, hq, hnonneg, hmax, hpresent, -⟩ := positions_bounded cachingServer_standard
    emptyCaches_allocated hreach hsecond hhands
  refine ⟨q, hq, hnonneg, ?_, hpresent ("model.0", [0, 1]) (by decide) trivial⟩
  exact_mod_cast hmax

/-- The first request starts at position -1; and after one of two tokens without rows, a token comes
after two although no token is present. -/
theorem positions_out_of_bounds :
    HandsOver cachingSpan ⟨.int 0, emptyCaches⟩ (rowsRequest (some (.number (.int (-1)))) 1 [7])
        (.int (-1)) ∧
      (sessionMachine cachingServer cachingSpan).Reach Machine.always ⟨.int 0, emptyCaches⟩
        (sessionAfter [rowsRequest none 0 [7, 8]]) ∧
      HandsOver cachingSpan (sessionAfter [rowsRequest none 0 [7, 8]]) (rowsRequest none 1 [9])
        (.int 2) ∧
      present ((sessionAfter [rowsRequest none 0 [7, 8]]).memory [0, 1]) = 0 := by
  have hposition : (sessionAfter [rowsRequest none 0 [7, 8]]).position = .int 2 := by decide +kernel
  refine ⟨handsOver_int rfl (by decide) (by decide),
    Machine.reach_getD (by decide +kernel) (Machine.along_always _ _),
    handsOver_int ?_ (by decide) (by decide), by decide +kernel⟩
  rw [hposition]
  rfl

end Drift.Server
