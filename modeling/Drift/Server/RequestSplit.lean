import Drift.Server.ChunkedForward

/-!
# A request and its parts

A request that carries some tokens through a span does what two requests do that carry a first part of
them and then, from where that has ended, the rest: the hidden states are those of the parts, one after
the other, and the caches and the shared keys and values are those that the second part leaves.

That needs blocks that go on from their cache. A consumer goes on as well, where its donor is in the
span: it then counts back from keys that end with the part. It does not where the keys come with the
request, and not where the request is more than one chunk for it. Prompts are added to the first tokens
of every request, so there are none here.

* `mergedTurn_cached`, `mergedTurn_consumer` — what a block does in its turn;
* `SharedSplit`, `turn_split`, `loop_split` — a block, and by induction a span;
* `request_split` — a request.
-/

namespace Drift.Server

open Drift.Lib

variable {A : AttentionNumerics}

/-! ### Rows -/

/-- Entries that are written from a position on. -/
theorem updateCache_iff {E F : Type} {row entries : List (Option E)} (hne : 0 < entries.length) (p : Nat)
    {row' : List (Option E)} :
    (updateCache row (row.take p ++ entries) p : Except (CacheFailure F) (List (Option E))) = .ok row' ↔
      p + entries.length ≤ row.length ∧
        row' = row.take p ++ entries ++ row.drop (p + entries.length) := by
  have hlength : (row.take p ++ entries).length = min p row.length + entries.length := by
    rw [List.length_append, List.length_take]
  rw [updateCache, hlength, Int.toNat_natCast]
  by_cases hfits : p + entries.length ≤ row.length
  · have hp : min p row.length = p := by omega
    have htake : (row.take p).length = p := by rw [List.length_take, hp]
    have hself : (row.take p ++ entries).take p = row.take p := List.take_left' htake
    have hrange : 0 ≤ (p : Int) ∧ (p : Int) ≤ (min p row.length + entries.length : Nat) ∧
        min p row.length + entries.length ≤ row.length := by omega
    rw [if_pos hrange, hp, List.drop_left' htake]
    constructor
    · intro h
      exact ⟨hfits, (Except.ok.inj h).symm⟩
    · rintro ⟨-, rfl⟩
      rfl
  · have hrange : ¬ (0 ≤ (p : Int) ∧ (p : Int) ≤ (min p row.length + entries.length : Nat) ∧
        min p row.length + entries.length ≤ row.length) := by omega
    rw [if_neg hrange]
    constructor
    · intro h
      cases h
    · rintro ⟨h, -⟩
      exact absurd h hfits

/-! ### Turns -/

section Turns

variable (server : InferenceServer (standard A.standard)) (batchSize : Nat)

/-- The blocks of the server are attention layers. -/
def AttentionServer : Prop :=
  ∀ uid, ∃ (L : AttentionLayer A) (k : BlockKind), (server.backends uid).module = L.module k

/-- What else a block needs to run: it has heads, and the batch has rows; in a pool it has one slot. -/
def CanRun (info : InferenceMetadata (standard A.standard)) : Prop :=
  (server.backends info.uid).shardNumHeads.foldl max 0 * batchSize *
      (server.backends info.uid).dtypeBytes ≠ 0 ∧
    (server.paged = true → info.cacheHandles.length = 1)

/-- A turn of a block with a cache. A pool hands neither inputs nor shared keys and values to it. -/
def cachedTurn (L : AttentionLayer A) (k : BlockKind) (paged : Bool) (handles : List Nat) (p : Nat)
    (inputs : Option (List A.LayerInput)) (s : Stage (standard A.standard)) :
    Stage (standard A.standard) :=
  let out := L.cachedForward s.tokens ((s.memory handles).take p) (if paged then [] else inputs.getD [])
  { tokens := out.1
    shared := if paged then s.shared else k.store out.2 s.shared
    memory := Function.update s.memory handles
      (out.2 ++ (s.memory handles).drop (p + s.tokens.length)) }

variable {server batchSize}

/-- The divisor of the estimate is positive where there is a token. -/
theorem estimateMaxChunkLength_iff {b : Backend (standard A.standard)} {l : Nat} (hl : 0 < l) (p : Nat) :
    (∃ c, b.estimateMaxChunkLength batchSize l p = .ok c) ↔
      b.shardNumHeads.foldl max 0 * batchSize * b.dtypeBytes ≠ 0 := by
  unfold Backend.estimateMaxChunkLength
  dsimp only
  have hzero : ((b.shardNumHeads.foldl max 0 * batchSize * b.dtypeBytes * ((p : Int) + l) : Int) = 0) ↔
      b.shardNumHeads.foldl max 0 * batchSize * b.dtypeBytes = 0 := by
    have hlength : ((p : Int) + l) ≠ 0 := by omega
    rw [mul_eq_zero, or_iff_left hlength]
    exact_mod_cast Iff.rfl
  split
  · rename_i h
    refine iff_of_false ?_ (not_not.mpr (hzero.mp h))
    rintro ⟨c, hc⟩
    cases hc
  · rename_i h
    exact iff_of_true ⟨_, rfl⟩ fun hnot => h (hzero.mpr hnot)

theorem lift_eq_ok {α : Type} {x : Except (standard A.standard).Failure α} {a : α} :
    (lift x : Except (InferenceError (standard A.standard)) α) = .ok a ↔ x = .ok a := by
  cases x with
  | ok b => exact ⟨fun h => congrArg _ (Except.ok.inj h), fun h => congrArg _ (Except.ok.inj h)⟩
  | error e => exact ⟨fun h => (by cases h), fun h => (by cases h)⟩

/-- The write of a block that goes on from its cache. -/
theorem lift_update_iff {memory memory' : List Nat → List (Option (A.Row × A.Row))} {handles : List Nat}
    {entries : List (Option (A.Row × A.Row))} (hne : 0 < entries.length) (p : Nat) :
    (lift ((standard A.standard).update memory handles ((memory handles).take p ++ entries) p) :
        Except (InferenceError (standard A.standard)) _) = .ok memory' ↔
      p + entries.length ≤ (memory handles).length ∧ memory' = Function.update memory handles
        ((memory handles).take p ++ entries ++ (memory handles).drop (p + entries.length)) := by
  rw [lift_eq_ok]
  show (updateCache (memory handles) _ _ >>= fun row => .ok (Function.update memory handles row)) = _ ↔ _
  rw [bind_eq_ok]
  constructor
  · rintro ⟨row, hrow, hmemory⟩
    obtain ⟨hfits, rfl⟩ := (updateCache_iff hne p).mp hrow
    exact ⟨hfits, (Except.ok.inj hmemory).symm⟩
  · rintro ⟨hfits, rfl⟩
    exact ⟨_, (updateCache_iff hne p).mpr ⟨hfits, rfl⟩, rfl⟩

variable {hypoIds : A.HypoIds} {info : InferenceMetadata (standard A.standard)} {p : Nat}
  {s s' : Stage (standard A.standard)}

theorem reorderCacheInplace_dummy (hdummy : A.isDummy hypoIds = true)
    (memory : List Nat → List (Option (A.Row × A.Row))) (handles : List Nat) :
    (reorderCacheInplace memory handles hypoIds :
      Except (InferenceError (standard A.standard)) (standard A.standard).Memory) = .ok memory :=
  if_pos hdummy

/-- The step of a block with a cache, once its chunks have a length. -/
theorem contiguousInferenceStep_cached (hdummy : A.isDummy hypoIds = true) {L : AttentionLayer A}
    {k : BlockKind} (hmodule : (server.backends info.uid).module = L.module k) (hk : k.consumes = [])
    (hp : info.prefixLength = p) (hs : 0 < s.tokens.length) {c : Nat}
    (hc : (server.backends info.uid).estimateMaxChunkLength batchSize s.tokens.length p = .ok c) :
    (server.backends info.uid).contiguousInferenceStep batchSize hypoIds info s =
      let out := L.cachedForward s.tokens ((s.memory info.cacheHandles).take p)
        (info.perLayerInput.getD [])
      lift ((standard A.standard).update s.memory info.cacheHandles out.2 p) >>= fun memory =>
        .ok ⟨out.1, k.store out.2 s.shared, memory⟩ := by
  have hpos := Backend.estimateMaxChunkLength_pos hc
  unfold Backend.contiguousInferenceStep
  rw [reorderCacheInplace_dummy hdummy, ok_bind, hp, hc, ok_bind]
  show forwardChunked (server.backends info.uid).module info.activeAdapter s.tokens
    (some (sliceTo (s.memory info.cacheHandles) p)) c info.perLayerInput (some s.shared) >>= _ = _
  rw [sliceTo_natCast, hmodule, forwardChunked_module L _ hk hs _ hpos]
  rfl

theorem pagedInferenceStep_cached (hdummy : A.isDummy hypoIds = true) {L : AttentionLayer A}
    {k : BlockKind} (hmodule : (server.backends info.uid).module = L.module k) (hk : k.consumes = [])
    (hp : info.prefixLength = p) (hs : 0 < s.tokens.length) (hslot : info.cacheHandles.length = 1)
    {c : Nat}
    (hc : (server.backends info.uid).estimateMaxChunkLength batchSize s.tokens.length p = .ok c) :
    (server.backends info.uid).pagedInferenceStep batchSize hypoIds info s =
      let out := L.cachedForward s.tokens ((s.memory info.cacheHandles).take p) []
      lift ((standard A.standard).update s.memory info.cacheHandles out.2 p) >>= fun memory =>
        .ok ⟨out.1, s.shared, memory⟩ := by
  have hpos := Backend.estimateMaxChunkLength_pos hc
  unfold Backend.pagedInferenceStep
  rw [if_pos hslot, reorderCacheInplace_dummy hdummy, ok_bind, hp, hc, ok_bind]
  show forwardChunked (server.backends info.uid).module info.activeAdapter s.tokens
    (some (sliceTo (s.memory info.cacheHandles) p)) c none none >>= _ = _
  rw [sliceTo_natCast, hmodule, forwardChunked_module L _ hk hs _ hpos]
  rfl

/-- What a write makes of a stage. -/
theorem written_iff {L : AttentionLayer A} {inputs : List A.LayerInput} (hs : 0 < s.tokens.length)
    {handles : List Nat} (shared : SharedKv (List (Option A.Row))) :
    (lift ((standard A.standard).update s.memory handles
        (L.cachedForward s.tokens ((s.memory handles).take p) inputs).2 p) >>= fun memory =>
      (.ok ⟨(L.cachedForward s.tokens ((s.memory handles).take p) inputs).1, shared, memory⟩ :
        Except (InferenceError (standard A.standard)) (Stage (standard A.standard)))) = .ok s' ↔
      p + s.tokens.length ≤ (s.memory handles).length ∧
        s' = ⟨(L.cachedForward s.tokens ((s.memory handles).take p) inputs).1, shared,
          Function.update s.memory handles
            ((L.cachedForward s.tokens ((s.memory handles).take p) inputs).2 ++
              (s.memory handles).drop (p + s.tokens.length))⟩ := by
  have hlength := L.length_entriesFrom ((s.memory handles).take p).length s.tokens
  have hupdate := fun memory' => @lift_update_iff A s.memory memory' handles _ (hlength ▸ hs) p
  rw [hlength] at hupdate
  rw [bind_eq_ok]
  constructor
  · rintro ⟨memory, hmemory, h⟩
    obtain ⟨hfits, rfl⟩ := (hupdate memory).mp hmemory
    exact ⟨hfits, (Except.ok.inj h).symm⟩
  · rintro ⟨hfits, rfl⟩
    exact ⟨_, (hupdate _).mpr ⟨hfits, rfl⟩, rfl⟩

/-- **The turn of a block with a cache.** -/
theorem mergedTurn_cached (hdummy : A.isDummy hypoIds = true) {L : AttentionLayer A} {k : BlockKind}
    (hmodule : (server.backends info.uid).module = L.module k) (hk : k.consumes = [])
    (hp : info.prefixLength = p) (hs : 0 < s.tokens.length) :
    server.mergedTurn batchSize hypoIds info none s = .ok s' ↔
      CanRun server batchSize info ∧
        p + s.tokens.length ≤ (s.memory info.cacheHandles).length ∧
          s' = cachedTurn L k server.paged info.cacheHandles p info.perLayerInput s := by
  have hestimate := @estimateMaxChunkLength_iff A batchSize (server.backends info.uid) _ hs p
  rw [mergedTurn_eq]
  show (if server.paged = true then
    (server.backends info.uid).pagedInferenceStep batchSize hypoIds info s else
    (server.backends info.uid).contiguousInferenceStep batchSize hypoIds info s) = _ ↔ _
  unfold CanRun cachedTurn
  rw [← hestimate]
  cases server.paged with
  | true =>
    rw [if_pos rfl]
    constructor
    · intro h
      have hslot : info.cacheHandles.length = 1 := by
        by_contra hslot
        unfold Backend.pagedInferenceStep at h
        rw [if_neg hslot] at h
        cases h
      have hsome := h
      unfold Backend.pagedInferenceStep at hsome
      rw [if_pos hslot, reorderCacheInplace_dummy hdummy, ok_bind, hp] at hsome
      obtain ⟨c, hc, -⟩ := bind_eq_ok.mp hsome
      rw [pagedInferenceStep_cached hdummy hmodule hk hp hs hslot hc] at h
      exact ⟨⟨⟨c, hc⟩, fun _ => hslot⟩, (written_iff hs s.shared).mp h⟩
    · rintro ⟨⟨⟨c, hc⟩, hslot⟩, h⟩
      rw [pagedInferenceStep_cached hdummy hmodule hk hp hs (hslot rfl) hc]
      exact (written_iff hs s.shared).mpr h
  | false =>
    rw [if_neg Bool.false_ne_true]
    constructor
    · intro h
      have hsome := h
      unfold Backend.contiguousInferenceStep at hsome
      rw [reorderCacheInplace_dummy hdummy, ok_bind, hp] at hsome
      obtain ⟨c, hc, -⟩ := bind_eq_ok.mp hsome
      rw [contiguousInferenceStep_cached hdummy hmodule hk hp hs hc] at h
      exact ⟨⟨⟨c, hc⟩, fun hpaged => Bool.noConfusion hpaged⟩, (written_iff hs _).mp h⟩
    · rintro ⟨⟨⟨c, hc⟩, -⟩, h⟩
      rw [contiguousInferenceStep_cached hdummy hmodule hk hp hs hc]
      exact (written_iff hs _).mpr h

/-- The step of a block that attends to the keys and values of a donor, for which the request is one
chunk. -/
theorem contiguousInferenceStep_consumer (hdummy : A.isDummy hypoIds = true) {L : AttentionLayer A}
    {layerType : String} (hmodule : (server.backends info.uid).module = L.module (.consumer layerType))
    (hp : info.prefixLength = p) (hs : 0 < s.tokens.length) {c : Nat}
    (hc : (server.backends info.uid).estimateMaxChunkLength batchSize s.tokens.length p = .ok c)
    (hone : s.tokens.length ≤ c) {keyValue : List (Option A.Row) × List (Option A.Row)}
    (hlookup : s.shared.lookup layerType = some keyValue) :
    (server.backends info.uid).contiguousInferenceStep batchSize hypoIds info s =
      .ok ⟨L.sharingForward s.tokens keyValue (info.perLayerInput.getD []), s.shared, s.memory⟩ := by
  unfold Backend.contiguousInferenceStep
  rw [reorderCacheInplace_dummy hdummy, ok_bind, hp, hc, ok_bind]
  show forwardChunked (server.backends info.uid).module info.activeAdapter s.tokens
    (some (sliceTo (s.memory info.cacheHandles) p)) c info.perLayerInput (some s.shared) >>= _ = _
  rw [hmodule, forwardChunked_consumer L _ hs hone hlookup]
  rfl

/-- Without a dictionary there is nothing to consume. -/
theorem consumes_of_forwardChunked_none {m : Module (standard A.standard)} {adapter : Option String}
    {xs : List A.Token} {past : Option (List (Option (A.Row × A.Row)))} {c : Nat} (hc : 0 < c)
    {inputs : Option (List A.LayerInput)}
    {out : List A.Token × Option (List (Option (A.Row × A.Row))) ×
      Option (SharedKv (List (Option A.Row)))}
    (h : forwardChunked m adapter xs past c inputs none = .ok out) : ∀ t, t ∉ m.kind.consumes := by
  intro t ht
  unfold forwardChunked at h
  split at h
  · cases h
  · rename_i hne
    have hlength : 0 < xs.length := List.length_pos_iff.mpr fun hnil => hne (List.isEmpty_iff.mpr hnil)
    obtain ⟨offset, offsets, hrange⟩ := steppedRange_eq_cons hlength hc
    rw [hrange] at h
    obtain ⟨first, hfirst, -⟩ := bind_eq_ok.mp h
    exact AList.notMem_empty t (forward_reads hfirst t ht)

/-- **The turn of a consumer.** -/
theorem mergedTurn_consumer (hdummy : A.isDummy hypoIds = true) {L : AttentionLayer A}
    {layerType : String} (hmodule : (server.backends info.uid).module = L.module (.consumer layerType))
    (hp : info.prefixLength = p) (hs : 0 < s.tokens.length)
    (hone : ∀ c, (server.backends info.uid).estimateMaxChunkLength batchSize s.tokens.length p = .ok c →
      s.tokens.length ≤ c) :
    server.mergedTurn batchSize hypoIds info none s = .ok s' ↔
      CanRun server batchSize info ∧ server.paged = false ∧
        ∃ keyValue, s.shared.lookup layerType = some keyValue ∧
          s' = ⟨L.sharingForward s.tokens keyValue (info.perLayerInput.getD []), s.shared, s.memory⟩ := by
  have hestimate := @estimateMaxChunkLength_iff A batchSize (server.backends info.uid) _ hs p
  rw [mergedTurn_eq]
  show (if server.paged = true then
    (server.backends info.uid).pagedInferenceStep batchSize hypoIds info s else
    (server.backends info.uid).contiguousInferenceStep batchSize hypoIds info s) = _ ↔ _
  unfold CanRun
  rw [← hestimate]
  have hconsumes : layerType ∈ (server.backends info.uid).module.kind.consumes := by
    rw [hmodule, kind_module]
    exact List.mem_singleton.mpr rfl
  cases server.paged with
  | true =>
    -- a step of the pool has an empty dictionary
    refine iff_of_false ?_ fun h => Bool.noConfusion h.2.1
    rw [if_pos rfl]
    intro h
    unfold Backend.pagedInferenceStep at h
    split at h
    · rw [reorderCacheInplace_dummy hdummy, ok_bind, hp] at h
      obtain ⟨c, hc, h⟩ := bind_eq_ok.mp h
      obtain ⟨past, -, h⟩ := bind_eq_ok.mp h
      obtain ⟨out, hout, -⟩ := bind_eq_ok.mp h
      exact consumes_of_forwardChunked_none (Backend.estimateMaxChunkLength_pos hc) hout _ hconsumes
    · cases h
  | false =>
    rw [if_neg Bool.false_ne_true]
    constructor
    · intro h
      have hsome := h
      unfold Backend.contiguousInferenceStep at hsome
      rw [reorderCacheInplace_dummy hdummy, ok_bind, hp] at hsome
      obtain ⟨c, hc, hsome⟩ := bind_eq_ok.mp hsome
      obtain ⟨past, -, hsome⟩ := bind_eq_ok.mp hsome
      obtain ⟨out, hout, -⟩ := bind_eq_ok.mp hsome
      have hmem := forwardChunked_reads (Backend.estimateMaxChunkLength_pos hc) hout layerType hconsumes
      obtain ⟨keyValue, hlookup⟩ := Option.isSome_iff_exists.mp (AList.lookup_isSome.mpr hmem)
      rw [contiguousInferenceStep_consumer hdummy hmodule hp hs hc (hone c hc) hlookup] at h
      exact ⟨⟨⟨c, hc⟩, fun hpaged => Bool.noConfusion hpaged⟩, rfl, keyValue, hlookup,
        (Except.ok.inj h).symm⟩
    · rintro ⟨⟨⟨c, hc⟩, -⟩, -, keyValue, hlookup, rfl⟩
      exact contiguousInferenceStep_consumer hdummy hmodule hp hs hc (hone c hc) hlookup

/-! ### Parts -/

/-- The first part of the work of a block. -/
def firstPart (n : Nat) (info : InferenceMetadata (standard A.standard)) :
    InferenceMetadata (standard A.standard) :=
  { info with perLayerInput := info.perLayerInput.map (·.take n) }

/-- The rest of it. -/
def restPart (n : Nat) (info : InferenceMetadata (standard A.standard)) :
    InferenceMetadata (standard A.standard) :=
  { info with
    prefixLength := info.prefixLength + n
    perLayerInput := info.perLayerInput.map (·.drop n) }

/-- What the span has donated: all keys and values so far. The first part has those of its tokens. -/
def SharedSplit (seeds : List String) (part total : Nat)
    (whole first rest : SharedKv (List (Option A.Row))) : Prop :=
  ∀ t, t ∉ seeds →
    (whole.lookup t = none ∧ first.lookup t = none ∧ rest.lookup t = none) ∨
      ∃ entries : List (Option (A.Row × A.Row)), entries.length = total ∧
        whole.lookup t = some (AttentionLayer.separate entries) ∧
        first.lookup t = some (AttentionLayer.separate (entries.take part)) ∧
        rest.lookup t = some (AttentionLayer.separate entries)

/-- A block stores what it has cached. -/
theorem SharedSplit.store {seeds : List String} {part total : Nat}
    {whole first rest : SharedKv (List (Option A.Row))} (h : SharedSplit seeds part total whole first rest)
    (k : BlockKind) {entries : List (Option (A.Row × A.Row))} (hlength : entries.length = total) :
    SharedSplit seeds part total (k.store entries whole) (k.store (entries.take part) first)
      (k.store entries rest) := by
  intro t ht
  cases k with
  | plain => exact h t ht
  | consumer layerType => exact h t ht
  | donor layerType =>
    by_cases hsame : t = layerType
    · subst hsame
      exact .inr ⟨entries, hlength, AList.lookup_insert _, AList.lookup_insert _, AList.lookup_insert _⟩
    · have hkeep := h t ht
      simp only [BlockKind.store, AList.lookup_insert_ne hsame]
      exact hkeep

/-- The stages of a whole request, of its first part, and what the rest has but its memory. -/
structure StageSplit (seeds : List String) (p n m : Nat) (whole first : Stage (standard A.standard))
    (tokens : List A.Token) (shared : SharedKv (List (Option A.Row))) : Prop where
  tokensSplit : whole.tokens = first.tokens ++ tokens
  firstLength : first.tokens.length = n
  restLength : tokens.length = m
  sharedSplit : SharedSplit seeds (p + n) (p + n + m) whole.shared first.shared shared

theorem cachedForward_length (L : AttentionLayer A) (xs : List A.Token)
    (past : List (Option (A.Row × A.Row))) (inputs : List A.LayerInput) :
    (L.cachedForward xs past inputs).1.length = xs.length ∧
      (L.cachedForward xs past inputs).2.length = past.length + xs.length := by
  refine ⟨L.length_attendFrom _ _ _ _, ?_⟩
  show (past ++ L.entriesFrom past.length xs).length = _
  rw [List.length_append, L.length_entriesFrom]

/-- A block with a cache, on both parts. -/
theorem turn_split_cached (hdummy : A.isDummy hypoIds = true) {L : AttentionLayer A} {k : BlockKind}
    (hmodule : (server.backends info.uid).module = L.module k) (hk : k.consumes = [])
    (hp : info.prefixLength = p) {seeds : List String} {n m : Nat} (hn : 0 < n) (hm : 0 < m)
    {whole whole' first : Stage (standard A.standard)} {tokens : List A.Token}
    {shared : SharedKv (List (Option A.Row))}
    (hsplit : StageSplit seeds p n m whole first tokens shared)
    (hmemory : whole.memory info.cacheHandles = first.memory info.cacheHandles)
    (h : server.mergedTurn batchSize hypoIds info none whole = .ok whole') :
    ∃ first' tokens' shared',
      server.mergedTurn batchSize hypoIds (firstPart n info) none first = .ok first' ∧
      StageSplit seeds p n m whole' first' tokens' shared' ∧
      ∀ memory, memory info.cacheHandles = first'.memory info.cacheHandles →
        server.mergedTurn batchSize hypoIds (restPart n info) none ⟨tokens, shared, memory⟩ =
          .ok ⟨tokens', shared', Function.update memory info.cacheHandles
            (whole'.memory info.cacheHandles)⟩ := by
  have hlength : whole.tokens.length = n + m := by
    rw [hsplit.tokensSplit, List.length_append, hsplit.firstLength, hsplit.restLength]
  obtain ⟨hrun, hfits, rfl⟩ := (mergedTurn_cached hdummy hmodule hk hp (by omega)).mp h
  obtain ⟨inputs, hinputs⟩ : ∃ inputs, (if server.paged = true then [] else info.perLayerInput.getD []) =
    inputs := ⟨_, rfl⟩
  have hfirstInputs : (if server.paged = true then [] else
      (info.perLayerInput.map (·.take n)).getD []) = inputs.take n := by
    rw [← hinputs]
    cases server.paged <;> cases info.perLayerInput <;> simp
  have hrestInputs : (if server.paged = true then [] else
      (info.perLayerInput.map (·.drop n)).getD []) = inputs.drop n := by
    rw [← hinputs]
    cases server.paged <;> cases info.perLayerInput <;> simp
  obtain ⟨row, hrow⟩ : ∃ row, whole.memory info.cacheHandles = row := ⟨_, rfl⟩
  rw [hrow] at hmemory hfits
  rw [hlength] at hfits
  have hpast : (row.take p).length = p := by
    rw [List.length_take]
    omega
  -- what the first part leaves, and what the rest makes of it
  obtain ⟨f, hf⟩ : ∃ f, L.cachedForward first.tokens (row.take p) inputs = f := ⟨_, rfl⟩
  obtain ⟨g, hg⟩ : ∃ g, L.cachedForward tokens f.2 (inputs.drop n) = g := ⟨_, rfl⟩
  have hwhole : L.cachedForward whole.tokens (row.take p) inputs = (f.1 ++ g.1, g.2) := by
    rw [hsplit.tokensSplit, L.cachedForward_append, hsplit.firstLength, hf]
    simp only
    rw [hg]
  have hfirst : L.cachedForward first.tokens (row.take p) (inputs.take n) = f := by
    rw [L.cachedForward_inputs_take _ _ _ hsplit.firstLength.le, hf]
  have hfLength := cachedForward_length L first.tokens (row.take p) inputs
  have hgLength := cachedForward_length L tokens f.2 (inputs.drop n)
  rw [hf, hpast, hsplit.firstLength] at hfLength
  rw [hg, hfLength.2, hsplit.restLength] at hgLength
  have hgTake : g.2.take (p + n) = f.2 := by
    rw [← hg]
    exact List.take_left' hfLength.2
  have hrowTake : (f.2 ++ row.drop (p + n)).take (p + n) = f.2 := List.take_left' hfLength.2
  have hrowDrop : (f.2 ++ row.drop (p + n)).drop (p + n + m) = row.drop (p + (n + m)) := by
    rw [← List.drop_drop, List.drop_left' hfLength.2, List.drop_drop, Nat.add_assoc]
  have hwholeTurn : cachedTurn L k server.paged info.cacheHandles p info.perLayerInput whole =
      ⟨f.1 ++ g.1, if server.paged = true then whole.shared else k.store g.2 whole.shared,
        Function.update whole.memory info.cacheHandles (g.2 ++ row.drop (p + (n + m)))⟩ := by
    rw [cachedTurn, hrow, hinputs, hwhole, hlength]
  have hfirstTurn : cachedTurn L k server.paged info.cacheHandles p (firstPart n info).perLayerInput first =
      ⟨f.1, if server.paged = true then first.shared else k.store f.2 first.shared,
        Function.update first.memory info.cacheHandles (f.2 ++ row.drop (p + n))⟩ := by
    show cachedTurn L k server.paged info.cacheHandles p (info.perLayerInput.map (·.take n)) first = _
    rw [cachedTurn, ← hmemory, hfirstInputs, hfirst, hsplit.firstLength]
  refine ⟨_, g.1, if server.paged = true then shared else k.store g.2 shared,
    (@mergedTurn_cached A _ _ _ (firstPart n info) _ _ _ hdummy _ _ hmodule hk hp
      (by rw [hsplit.firstLength]; exact hn)).mpr ⟨hrun, ?_, rfl⟩, ?_, ?_⟩
  · show p + first.tokens.length ≤ (first.memory info.cacheHandles).length
    rw [← hmemory, hsplit.firstLength]
    omega
  · show StageSplit seeds p n m _ (cachedTurn L k server.paged info.cacheHandles p
      (firstPart n info).perLayerInput first) _ _
    rw [hwholeTurn, hfirstTurn]
    refine ⟨rfl, hfLength.1, hgLength.1, ?_⟩
    cases server.paged with
    | true => exact hsplit.sharedSplit
    | false =>
      have hstore := hsplit.sharedSplit.store k hgLength.2
      rw [hgTake] at hstore
      exact hstore
  · intro memory hmem
    rw [hwholeTurn]
    change memory info.cacheHandles = (cachedTurn L k server.paged info.cacheHandles p
      (firstPart n info).perLayerInput first).memory info.cacheHandles at hmem
    rw [hfirstTurn] at hmem
    dsimp only at hmem ⊢
    rw [Function.update_self] at hmem ⊢
    have hleading : (restPart n info).prefixLength = ((p + n : Nat) : Int) := by
      show info.prefixLength + n = _
      rw [hp, Nat.cast_add]
    refine (@mergedTurn_cached A _ _ _ (restPart n info) _ _ _ hdummy _ _ hmodule hk hleading
      (by rw [hsplit.restLength]; exact hm)).mpr ⟨hrun, ?_, ?_⟩
    · show p + n + tokens.length ≤ (memory info.cacheHandles).length
      rw [hmem, hsplit.restLength, List.length_append, hfLength.2, List.length_drop]
      omega
    · show _ = cachedTurn L k server.paged info.cacheHandles (p + n) (info.perLayerInput.map (·.drop n))
        ⟨tokens, shared, memory⟩
      unfold cachedTurn
      dsimp only
      rw [hmem, hrowTake, hrestInputs, hg, hsplit.restLength, hrowDrop]

/-- A consumer whose donor is in the span, on both parts. -/
theorem turn_split_consumer (hdummy : A.isDummy hypoIds = true) {L : AttentionLayer A}
    {layerType : String} (hmodule : (server.backends info.uid).module = L.module (.consumer layerType))
    (hp : info.prefixLength = p) {seeds : List String} (hseeds : layerType ∉ seeds) {n m : Nat}
    (hn : 0 < n) (hm : 0 < m)
    (hone : ∀ q l, 0 < l → q + l ≤ p + n + m → ∀ c,
      (server.backends info.uid).estimateMaxChunkLength batchSize l (q : Nat) = .ok c → l ≤ c)
    {whole whole' first : Stage (standard A.standard)} {tokens : List A.Token}
    {shared : SharedKv (List (Option A.Row))}
    (hsplit : StageSplit seeds p n m whole first tokens shared)
    (h : server.mergedTurn batchSize hypoIds info none whole = .ok whole') :
    ∃ first' tokens',
      server.mergedTurn batchSize hypoIds (firstPart n info) none first = .ok first' ∧
      first'.memory = first.memory ∧ whole'.memory = whole.memory ∧
      StageSplit seeds p n m whole' first' tokens' shared ∧
      ∀ memory, server.mergedTurn batchSize hypoIds (restPart n info) none ⟨tokens, shared, memory⟩ =
        .ok ⟨tokens', shared, memory⟩ := by
  have hlength : whole.tokens.length = n + m := by
    rw [hsplit.tokensSplit, List.length_append, hsplit.firstLength, hsplit.restLength]
  obtain ⟨hrun, hpaged, keyValue, hlookup, rfl⟩ :=
    (mergedTurn_consumer hdummy hmodule hp (by omega) (hone p _ (by omega) (by omega))).mp h
  obtain ⟨entries, hentries, hwhole, hfirst, hrest⟩ :=
    (hsplit.sharedSplit layerType hseeds).resolve_left fun hnone => by
      rw [hnone.1] at hlookup
      cases hlookup
  obtain rfl := Option.some.inj (hwhole.symm.trans hlookup)
  let inputs := info.perLayerInput.getD []
  have hfirstInputs : (info.perLayerInput.map (·.take n)).getD [] = inputs.take n := by
    cases hi : info.perLayerInput <;> simp [inputs, hi]
  have hrestInputs : (info.perLayerInput.map (·.drop n)).getD [] = inputs.drop n := by
    cases hi : info.perLayerInput <;> simp [inputs, hi]
  -- the positions count back from the end of the keys
  have hpart : ∀ (part : List (Option (A.Row × A.Row))) (xs : List A.Token)
      (layerInputs : List A.LayerInput) (q : Nat), part.length = q + xs.length →
        L.sharingForward xs (AttentionLayer.separate part) layerInputs =
          L.attendFrom part q xs layerInputs := by
    intro part xs layerInputs q hq
    have hstart : ((AttentionLayer.separate part).1.length : Int) - xs.length = q := by
      show (((part.map _).length : Nat) : Int) - xs.length = q
      rw [List.length_map, hq, Nat.cast_add, Int.add_sub_cancel]
    rw [AttentionLayer.sharingForward, AttentionLayer.together_separate, hstart]
  have htake : (entries.take (p + n)).length = p + first.tokens.length := by
    rw [List.length_take, hentries, hsplit.firstLength]
    omega
  have hfirstTokens : L.sharingForward first.tokens (AttentionLayer.separate (entries.take (p + n)))
      (inputs.take n) = L.attendFrom entries p first.tokens inputs := by
    rw [hpart _ _ _ p htake, L.attendFrom_inputs_take _ _ _ _ _ hsplit.firstLength.le,
      ← List.take_append_drop (p + n) entries, List.take_left' (by rw [htake, hsplit.firstLength])]
    refine (L.attendFrom_entries_append _ _ _ _ _ ?_).symm
    rw [htake]
    push_cast
    exact le_rfl
  have hrestTokens : L.sharingForward tokens (AttentionLayer.separate entries) (inputs.drop n) =
      L.attendFrom entries (p + n : Nat) tokens (inputs.drop n) :=
    hpart _ _ _ (p + n) (by rw [hentries, hsplit.restLength])
  have hwholeTokens : L.sharingForward whole.tokens (AttentionLayer.separate entries) inputs =
      L.attendFrom entries p first.tokens inputs ++
        L.attendFrom entries (p + n : Nat) tokens (inputs.drop n) := by
    rw [hpart _ _ _ p (by rw [hentries, hlength, Nat.add_assoc]), hsplit.tokensSplit,
      L.attendFrom_append, hsplit.firstLength, Nat.cast_add]
  have hleading : (restPart n info).prefixLength = ((p + n : Nat) : Int) := by
    show info.prefixLength + n = _
    rw [hp, Nat.cast_add]
  refine ⟨⟨L.attendFrom entries p first.tokens inputs, first.shared, first.memory⟩,
    L.attendFrom entries (p + n : Nat) tokens (inputs.drop n), ?_, rfl, rfl, ?_, ?_⟩
  · refine (@mergedTurn_consumer A _ _ _ (firstPart n info) _ _ _ hdummy _ _ hmodule hp
      (by rw [hsplit.firstLength]; exact hn) ?_).mpr ⟨hrun, hpaged, _, hfirst, ?_⟩
    · rw [hsplit.firstLength]
      exact hone p n hn (by omega)
    · exact congrArg (fun xs => (⟨xs, first.shared, first.memory⟩ : Stage (standard A.standard)))
        ((congrArg _ hfirstInputs).trans hfirstTokens).symm
  · refine ⟨hwholeTokens, ?_, ?_, hsplit.sharedSplit⟩
    · rw [L.length_attendFrom, hsplit.firstLength]
    · rw [L.length_attendFrom, hsplit.restLength]
  · intro memory
    refine (@mergedTurn_consumer A _ _ _ (restPart n info) _ _ _ hdummy _ _ hmodule hleading
      (by rw [hsplit.restLength]; exact hm) ?_).mpr ⟨hrun, hpaged, _, hrest, ?_⟩
    · rw [hsplit.restLength]
      exact hone (p + n) m hm (by omega)
    · exact congrArg (fun xs => (⟨xs, shared, memory⟩ : Stage (standard A.standard)))
        ((congrArg _ hrestInputs).trans hrestTokens).symm

/-- A consumer is never served keys and values that came with the request, and every request up to this
length is one chunk for it. -/
def GoesOn (server : InferenceServer (standard A.standard)) (batchSize : Nat) (seeds : List String)
    (total : Nat) (uid : String) : Prop :=
  ∀ t ∈ (kindOf server uid).consumes, t ∉ seeds ∧
    ∀ q l, 0 < l → q + l ≤ total → ∀ c,
      (server.backends uid).estimateMaxChunkLength batchSize l (q : Nat) = .ok c → l ≤ c

/-- **A block, on both parts.** The whole request, the first part, and the rest on what the first part has
cached. -/
theorem turn_split (hserver : AttentionServer server) (hdummy : A.isDummy hypoIds = true)
    (hp : info.prefixLength = p) {seeds : List String} {n m : Nat} (hn : 0 < n) (hm : 0 < m)
    (hgoes : GoesOn server batchSize seeds (p + n + m) info.uid)
    {whole whole' first : Stage (standard A.standard)} {tokens : List A.Token}
    {shared : SharedKv (List (Option A.Row))}
    (hsplit : StageSplit seeds p n m whole first tokens shared)
    (hmemory : whole.memory info.cacheHandles = first.memory info.cacheHandles)
    (h : server.mergedTurn batchSize hypoIds info none whole = .ok whole') :
    ∃ first' tokens' shared',
      server.mergedTurn batchSize hypoIds (firstPart n info) none first = .ok first' ∧
      StageSplit seeds p n m whole' first' tokens' shared' ∧
      (∀ handles ≠ info.cacheHandles, whole'.memory handles = whole.memory handles ∧
        first'.memory handles = first.memory handles) ∧
      ∀ memory, memory info.cacheHandles = first'.memory info.cacheHandles →
        server.mergedTurn batchSize hypoIds (restPart n info) none ⟨tokens, shared, memory⟩ =
          .ok ⟨tokens', shared', Function.update memory info.cacheHandles
            (whole'.memory info.cacheHandles)⟩ := by
  obtain ⟨L, k, hmodule⟩ := hserver info.uid
  have hkind : kindOf server info.uid = k := by
    rw [kindOf, hmodule, kind_module]
  by_cases hk : k.consumes = []
  · obtain ⟨first', tokens', shared', hfirst, hsplit', hrest⟩ :=
      turn_split_cached hdummy hmodule hk hp hn hm hsplit hmemory h
    refine ⟨first', tokens', shared', hfirst, hsplit', fun handles hne => ?_, hrest⟩
    have hlength : whole.tokens.length = n + m := by
      rw [hsplit.tokensSplit, List.length_append, hsplit.firstLength, hsplit.restLength]
    obtain ⟨-, -, rfl⟩ := (mergedTurn_cached hdummy hmodule hk hp (by omega)).mp h
    obtain ⟨-, -, rfl⟩ := (@mergedTurn_cached A _ _ _ (firstPart n info) _ _ _ hdummy _ _ hmodule hk hp
      (by rw [hsplit.firstLength]; exact hn)).mp hfirst
    exact ⟨Function.update_of_ne hne _ _, Function.update_of_ne hne _ _⟩
  · obtain ⟨layerType, rfl⟩ : ∃ layerType, k = .consumer layerType := by
      cases k with
      | plain => exact absurd rfl hk
      | donor layerType => exact absurd rfl hk
      | consumer layerType => exact ⟨layerType, rfl⟩
    obtain ⟨hseeds, hone⟩ := hgoes layerType (by rw [hkind]; exact List.mem_singleton.mpr rfl)
    obtain ⟨first', tokens', hfirst, hmem, hmem', hsplit', hrest⟩ :=
      turn_split_consumer hdummy hmodule hp hseeds hn hm hone hsplit h
    refine ⟨first', tokens', shared, hfirst, hsplit', fun handles _ => by rw [hmem, hmem']; exact ⟨rfl, rfl⟩,
      fun memory hsame => ?_⟩
    rw [hrest memory, hmem', hmemory, ← hmem, ← hsame, Function.update_eq_self]

/-- The handles of the work. -/
abbrev handlesOf (work : List (InferenceMetadata (standard A.standard) × Option (List A.Token))) :
    List (List Nat) :=
  work.map fun w => w.1.cacheHandles

/-- **A span, on both parts.** By induction on its blocks. The rest is given any memory that has, for the
blocks of the span, what the first part has cached. -/
theorem loop_split (hserver : AttentionServer server) (hdummy : A.isDummy hypoIds = true)
    {seeds : List String} {n m : Nat} (hn : 0 < n) (hm : 0 < m) :
    ∀ (work : List (InferenceMetadata (standard A.standard) × Option (List A.Token)))
      {whole whole' first : Stage (standard A.standard)} {tokens : List A.Token}
      {shared : SharedKv (List (Option A.Row))},
      (∀ w ∈ work, w.1.prefixLength = p ∧ w.2 = none ∧
        GoesOn server batchSize seeds (p + n + m) w.1.uid) →
      (handlesOf work).Nodup → StageSplit seeds p n m whole first tokens shared →
      (∀ handles ∈ handlesOf work, whole.memory handles = first.memory handles) →
      server.mergedLoop batchSize hypoIds work whole = .ok whole' →
        ∃ first' tokens' shared',
          server.mergedLoop batchSize hypoIds (work.map (Prod.map (firstPart n) id)) first = .ok first' ∧
          StageSplit seeds p n m whole' first' tokens' shared' ∧
          (∀ handles ∉ handlesOf work, whole'.memory handles = whole.memory handles ∧
            first'.memory handles = first.memory handles) ∧
          ∀ memory, (∀ handles ∈ handlesOf work, memory handles = first'.memory handles) →
            ∃ memory',
              server.mergedLoop batchSize hypoIds (work.map (Prod.map (restPart n) id))
                ⟨tokens, shared, memory⟩ = .ok ⟨tokens', shared', memory'⟩ ∧
              (∀ handles ∈ handlesOf work, memory' handles = whole'.memory handles) ∧
              ∀ handles ∉ handlesOf work, memory' handles = memory handles
  | [], whole, whole', first, tokens, shared, _, _, hsplit, _, h => by
    cases h
    exact ⟨first, tokens, shared, rfl, hsplit, fun _ _ => ⟨rfl, rfl⟩,
      fun memory _ => ⟨memory, rfl, fun _ hmem => absurd hmem List.not_mem_nil, fun _ _ => rfl⟩⟩
  | (info, prompt) :: work, whole, whole', first, tokens, shared, hwork, hnodup, hsplit, hmemory, h => by
    obtain ⟨⟨hp, hprompt, hgoes⟩, hothers⟩ := List.forall_mem_cons.mp hwork
    obtain ⟨hnot, hapart⟩ := List.nodup_cons.mp hnodup
    dsimp only at hp hprompt hgoes hnot
    subst hprompt
    obtain ⟨whole₁, hturn, hloop⟩ := bind_eq_ok.mp h
    obtain ⟨first₁, tokens₁, shared₁, hfirst, hsplit₁, hframe, hrest⟩ :=
      turn_split hserver hdummy hp hn hm hgoes hsplit (hmemory _ List.mem_cons_self) hturn
    have hne : ∀ handles ∈ handlesOf work, handles ≠ info.cacheHandles := fun handles hmem heq =>
      absurd (heq ▸ hmem) hnot
    have hmemory₁ : ∀ handles ∈ handlesOf work, whole₁.memory handles = first₁.memory handles := by
      intro handles hmem
      obtain ⟨hwhole, hkept⟩ := hframe handles (hne handles hmem)
      rw [hwhole, hkept]
      exact hmemory handles (List.mem_cons_of_mem _ hmem)
    obtain ⟨first', tokens', shared', hfirst', hsplit', hframe', hrest'⟩ :=
      loop_split hserver hdummy hn hm work hothers hapart hsplit₁ hmemory₁ hloop
    refine ⟨first', tokens', shared', ?_, hsplit', ?_, ?_⟩
    · show server.mergedTurn batchSize hypoIds (firstPart n info) none first >>= _ = _
      rw [hfirst, ok_bind]
      exact hfirst'
    · intro handles hmem
      rw [handlesOf, List.map_cons, List.mem_cons, not_or] at hmem
      obtain ⟨hwhole, hkept⟩ := hframe handles hmem.1
      obtain ⟨hwhole', hkept'⟩ := hframe' handles hmem.2
      exact ⟨hwhole'.trans hwhole, hkept'.trans hkept⟩
    · intro memory hsame
      -- the later blocks of the first part have left the row of this block alone
      have hrow : memory info.cacheHandles = first₁.memory info.cacheHandles :=
        (hsame _ List.mem_cons_self).trans (hframe' _ hnot).2
      obtain ⟨memory', hloop', hin, hout⟩ := hrest'
        (Function.update memory info.cacheHandles (whole₁.memory info.cacheHandles)) (by
          intro handles hmem
          rw [Function.update_of_ne (hne handles hmem)]
          exact hsame handles (List.mem_cons_of_mem _ hmem))
      refine ⟨memory', ?_, ?_, ?_⟩
      · show server.mergedTurn batchSize hypoIds (restPart n info) none ⟨tokens, shared, memory⟩ >>= _ = _
        rw [hrest memory hrow, ok_bind]
        exact hloop'
      · intro handles hmem
        rcases List.mem_cons.mp hmem with rfl | hmem
        · rw [hout _ hnot, Function.update_self, (hframe' _ hnot).1]
        · exact hin handles hmem
      · intro handles hmem
        rw [handlesOf, List.map_cons, List.mem_cons, not_or] at hmem
        rw [hout handles hmem.2, Function.update_of_ne hmem.1]

/-! ### Requests -/

/-- What is extracted of a dictionary does not depend on what was seeded. -/
theorem extractProducedSharedKv_congr {τ : Type} {d d' : SharedKv τ} {seeded : List String}
    (h : ∀ t, t ∉ seeded → d.lookup t = d'.lookup t) :
    extractProducedSharedKv d seeded = extractProducedSharedKv d' seeded := by
  have hkeys : Dict.sorted (d.keys.filter (· ∉ seeded)) = Dict.sorted (d'.keys.filter (· ∉ seeded)) := by
    apply Dict.sorted_congr (d.keys_nodup.filter _) (d'.keys_nodup.filter _)
    intro t
    rw [List.mem_filter, List.mem_filter, decide_eq_true_eq]
    refine and_congr_left fun ht => ?_
    rw [← AList.mem_keys, ← AList.mem_keys, ← AList.lookup_isSome, ← AList.lookup_isSome, h t ht]
  rw [extractProducedSharedKv, extractProducedSharedKv, hkeys]
  refine List.flatMap_congr fun t ht => ?_
  have hseeded : t ∉ seeded := of_decide_eq_true (List.mem_filter.mp (Dict.mem_sorted.mp ht)).2
  rw [SharedKv.tensorsOf, SharedKv.tensorsOf, h t hseeded]

/-- As many tensors are extracted of dictionaries with the same types. -/
theorem length_extractProducedSharedKv {τ : Type} (d : SharedKv τ) (seeded : List String) :
    (extractProducedSharedKv d seeded).length =
      2 * (Dict.sorted (d.keys.filter (· ∉ seeded))).length := by
  have hvalue : ∀ t ∈ Dict.sorted (d.keys.filter (· ∉ seeded)), (SharedKv.tensorsOf d t).length = 2 := by
    intro t ht
    have hmem := (List.mem_filter.mp (Dict.mem_sorted.mp ht)).1
    obtain ⟨keyValue, hlookup⟩ := Option.isSome_iff_exists.mp
      (AList.lookup_isSome.mpr (AList.mem_keys.mpr hmem))
    rw [SharedKv.tensorsOf, hlookup]
    rfl
  rw [extractProducedSharedKv, List.length_flatMap, List.map_congr_left hvalue, List.map_const',
    List.sum_replicate, smul_eq_mul, Nat.mul_comm]

/-- When a merged task returns. -/
theorem mergedPath_iff {infos : List (InferenceMetadata (standard A.standard))}
    {prompts : List (Option (List A.Token))} (hlength : infos.length = prompts.length)
    {produced : InferenceServer.Produced (standard A.standard)} :
    server.mergedPath batchSize hypoIds infos prompts s = .ok produced ↔
      batchSize * s.tokens.length ≤ server.maxBatchSize ∧
        ∃ s', server.mergedLoop batchSize hypoIds (infos.zip prompts) s = .ok s' ∧
          unflattenSharedKv (Dict.sorted (server.spanDonorTypes (infos.map (·.uid)) s.shared.keys))
            (extractProducedSharedKv s'.shared s.shared.keys) = some produced.producedSharedKv ∧
          produced.tokens = s'.tokens ∧ produced.memory = s'.memory := by
  by_cases hfits : batchSize * s.tokens.length ≤ server.maxBatchSize
  · rw [InferenceServer.mergedPath, submitTask_eq hlength hfits, bind_assoc, bind_eq_ok]
    constructor
    · rintro ⟨s', hloop, h⟩
      rw [ok_bind] at h
      dsimp only at h
      split at h
      · cases h
      · rename_i sharedKv hnew
        cases h
        exact ⟨hfits, s', hloop, hnew, rfl, rfl⟩
    · rintro ⟨-, s', hloop, hnew, htokens, hmemory⟩
      refine ⟨s', hloop, ?_⟩
      rw [ok_bind]
      dsimp only
      rw [hnew, ← htokens, ← hmemory]
      rfl
  · have htask : server.submitTask batchSize hypoIds infos prompts s = .error .valueError :=
      if_pos (not_le.mp hfits)
    rw [InferenceServer.mergedPath, htask]
    refine iff_of_false (fun h => ?_) fun h => hfits h.1
    cases h

/-- **A task, on both parts.** -/
theorem path_split (hserver : AttentionServer server) (hdummy : A.isDummy hypoIds = true)
    {seeds : SharedKv (List (Option A.Row))} {infos : List (InferenceMetadata (standard A.standard))}
    {prompts : List (Option (List A.Token))} (hlength : infos.length = prompts.length)
    {xs ys : List A.Token} (hxs : 0 < xs.length) (hys : 0 < ys.length)
    (hinfos : ∀ info ∈ infos, info.prefixLength = p ∧
      GoesOn server batchSize seeds.keys (p + xs.length + ys.length) info.uid)
    (hprompts : ∀ prompt ∈ prompts, prompt = none)
    (hnodup : (infos.map (·.cacheHandles)).Nodup) {memory : List Nat → List (Option (A.Row × A.Row))}
    {produced : InferenceServer.Produced (standard A.standard)}
    (h : server.mergedPath batchSize hypoIds infos prompts ⟨xs ++ ys, seeds, memory⟩ = .ok produced) :
    ∃ first rest : InferenceServer.Produced (standard A.standard),
      server.mergedPath batchSize hypoIds (infos.map (firstPart xs.length)) prompts
        ⟨xs, seeds, memory⟩ = .ok first ∧
      server.mergedPath batchSize hypoIds (infos.map (restPart xs.length)) prompts
        ⟨ys, seeds, first.memory⟩ = .ok rest ∧
      produced.tokens = first.tokens ++ rest.tokens ∧ first.tokens.length = xs.length ∧
      rest.tokens.length = ys.length ∧ rest.memory = produced.memory ∧
      rest.producedSharedKv = produced.producedSharedKv ∧
      ∀ t, t ∈ first.producedSharedKv ↔ t ∈ produced.producedSharedKv := by
  obtain ⟨hfits, whole, hloop, hnew, htokens, hmemory⟩ := (mergedPath_iff hlength).mp h
  dsimp only at hfits hloop hnew
  rw [List.length_append] at hfits
  have hhandles : handlesOf (infos.zip prompts) = infos.map (·.cacheHandles) := by
    calc handlesOf (infos.zip prompts)
      _ = ((infos.zip prompts).map Prod.fst).map (·.cacheHandles) := by
          rw [List.map_map]
          rfl
      _ = infos.map (·.cacheHandles) := by rw [List.map_fst_zip hlength.le]
  have hwork : ∀ w ∈ infos.zip prompts, w.1.prefixLength = p ∧ w.2 = none ∧
      GoesOn server batchSize seeds.keys (p + xs.length + ys.length) w.1.uid := by
    intro w hw
    obtain ⟨hinfo, hprompt⟩ := List.of_mem_zip hw
    exact ⟨(hinfos _ hinfo).1, hprompts _ hprompt, (hinfos _ hinfo).2⟩
  have hstart : StageSplit seeds.keys p xs.length ys.length (⟨xs ++ ys, seeds, memory⟩ :
      Stage (standard A.standard)) ⟨xs, seeds, memory⟩ ys seeds := by
    refine ⟨rfl, rfl, rfl, fun t ht => .inl ?_⟩
    have hnone : seeds.lookup t = none := AList.lookup_eq_none.mpr fun hmem => ht (AList.mem_keys.mp hmem)
    exact ⟨hnone, hnone, hnone⟩
  obtain ⟨first, tokens, shared, hfirst, hsplit, hframe, hrest⟩ := loop_split hserver hdummy hxs hys
    (infos.zip prompts) hwork (hhandles ▸ hnodup) hstart (fun _ _ => rfl) hloop
  obtain ⟨memory', hrest, hin, hout⟩ := hrest first.memory fun _ _ => rfl
  have hmemory' : memory' = whole.memory := by
    funext handles
    by_cases hmem : handles ∈ handlesOf (infos.zip prompts)
    · exact hin handles hmem
    · rw [hout handles hmem, (hframe handles hmem).1, (hframe handles hmem).2]
  -- the same types come back from the first part, and the same entries from the rest
  have hsame : ∀ t, t ∉ seeds.keys → shared.lookup t = whole.shared.lookup t := by
    intro t ht
    rcases hsplit.sharedSplit t ht with ⟨hwhole, -, hnone⟩ | ⟨entries, -, hwhole, -, hsome⟩
    · rw [hwhole, hnone]
    · rw [hwhole, hsome]
  have hextract : extractProducedSharedKv shared seeds.keys =
      extractProducedSharedKv whole.shared seeds.keys := extractProducedSharedKv_congr hsame
  have hcount : (extractProducedSharedKv first.shared seeds.keys).length =
      (extractProducedSharedKv whole.shared seeds.keys).length := by
    rw [length_extractProducedSharedKv, length_extractProducedSharedKv]
    refine congrArg (fun keys : List String => 2 * keys.length) ?_
    apply Dict.sorted_congr (first.shared.keys_nodup.filter _) (whole.shared.keys_nodup.filter _)
    intro t
    rw [List.mem_filter, List.mem_filter, decide_eq_true_eq]
    refine and_congr_left fun ht => ?_
    rw [← AList.mem_keys, ← AList.mem_keys, ← AList.lookup_isSome, ← AList.lookup_isSome]
    rcases hsplit.sharedSplit t ht with ⟨hwhole, hnone, -⟩ | ⟨entries, -, hwhole, hsome, -⟩
    · rw [hwhole, hnone]
    · rw [hwhole, hsome]
      exact iff_of_true rfl rfl
  obtain ⟨firstKv, hfirstKv⟩ : ∃ firstKv, unflattenSharedKv
      (Dict.sorted (server.spanDonorTypes (infos.map (·.uid)) seeds.keys))
      (extractProducedSharedKv first.shared seeds.keys) = some firstKv := by
    have hwholeCount := hnew
    unfold unflattenSharedKv at hwholeCount ⊢
    split at hwholeCount
    · rename_i hfull
      rw [hcount, if_pos hfull]
      exact ⟨_, rfl⟩
    · cases hwholeCount
  have huids : ∀ part : InferenceMetadata (standard A.standard) → InferenceMetadata (standard A.standard),
      (∀ info, (part info).uid = info.uid) → (infos.map part).map (·.uid) = infos.map (·.uid) := by
    intro part hpart
    rw [List.map_map]
    exact List.map_congr_left fun info _ => hpart info
  refine ⟨⟨first.tokens, first.memory, firstKv⟩, ⟨tokens, memory', produced.producedSharedKv⟩,
    (mergedPath_iff (by rw [List.length_map, hlength])).mpr ⟨?_, first, ?_, ?_, rfl, rfl⟩,
    (mergedPath_iff (by rw [List.length_map, hlength])).mpr ⟨?_, ⟨tokens, shared, memory'⟩, ?_, ?_, rfl,
      rfl⟩, ?_, hsplit.firstLength, hsplit.restLength, ?_, rfl, ?_⟩
  · exact (Nat.mul_le_mul_left _ (Nat.le_add_right _ _)).trans hfits
  · rw [List.zip_map_left]
    exact hfirst
  · rw [huids (firstPart xs.length) fun _ => rfl]
    exact hfirstKv
  · exact (Nat.mul_le_mul_left _ (Nat.le_add_left _ _)).trans hfits
  · rw [List.zip_map_left]
    exact hrest
  · rw [huids (restPart xs.length) fun _ => rfl, hextract]
    exact hnew
  · rw [htokens, hsplit.tokensSplit]
  · rw [hmemory', hmemory]
  · intro t
    rw [mem_unflattenSharedKv hfirstKv, mem_unflattenSharedKv hnew]

end Turns

/-- The first tokens of a request. -/
def firstRequest (n : Nat) (r : InferenceRequest (standard A.standard)) :
    InferenceRequest (standard A.standard) :=
  { r with
    tokens := r.tokens.take n
    perLayerInputs := r.perLayerInputs.map (List.map (·.take n)) }

/-- The request from there on. -/
def restRequest (n : Nat) (r : InferenceRequest (standard A.standard)) :
    InferenceRequest (standard A.standard) :=
  { r with
    startFromPosition := r.startFromPosition.map (· + (n : Int))
    tokens := r.tokens.drop n
    perLayerInputs := r.perLayerInputs.map (List.map (·.drop n)) }

section Requests

open InferenceServer

variable {server : InferenceServer (standard A.standard)} {span : InferenceSpan (standard A.standard)}

theorem perBlockInputs_map {α β : Type} {f : α → β} {blocks : Nat} {inputs : Option (List α)}
    {out : List (Option α)}
    (h : (perBlockInputs blocks (inputs.map (List.map some)) :
      Except (InferenceError (standard A.standard)) _) = .ok out) :
    (perBlockInputs blocks ((inputs.map (List.map f)).map (List.map some)) :
      Except (InferenceError (standard A.standard)) _) = .ok (out.map (Option.map f)) := by
  cases inputs with
  | none =>
    cases h
    rw [List.map_replicate]
    rfl
  | some inputs =>
    unfold perBlockInputs at h ⊢
    simp only [Option.map_some, List.length_map] at h ⊢
    split at h
    · rename_i hlength
      cases h
      rw [if_pos hlength, List.map_map, List.map_map]
      rfl
    · cases h

theorem inferenceInfos_map {prefixLength prefixLength' : Int} {f : List A.LayerInput → List A.LayerInput}
    (inputs : List (Option (List A.LayerInput))) :
    inferenceInfos span prefixLength' (inputs.map (Option.map f)) =
      (inferenceInfos span prefixLength inputs).map fun info =>
        { info with prefixLength := prefixLength', perLayerInput := info.perLayerInput.map f } := by
  rw [inferenceInfos, inferenceInfos, List.zip_map_right, List.zip_map_right, List.map_map, List.map_map]
  rfl

theorem map_cacheHandles_inferenceInfos
    (hhandles : span.cacheHandles.length = span.requestedUids.length) (prefixLength : Int)
    {perLayerInputs : List (Option (List A.LayerInput))}
    (hlayers : perLayerInputs.length = span.requestedUids.length) :
    (inferenceInfos span prefixLength perLayerInputs).map (·.cacheHandles) = span.cacheHandles := by
  have hsnd : (span.requestedUids.zip (span.cacheHandles.zip perLayerInputs)).map Prod.snd =
      span.cacheHandles.zip perLayerInputs := by
    refine List.map_snd_zip ?_
    rw [List.length_zip, hhandles, hlayers, min_self]
  calc (inferenceInfos span prefixLength perLayerInputs).map (·.cacheHandles)
    _ = ((span.requestedUids.zip (span.cacheHandles.zip perLayerInputs)).map Prod.snd).map Prod.fst := by
        rw [inferenceInfos, List.map_map, List.map_map]
        rfl
    _ = span.cacheHandles := by
        rw [hsnd, List.map_fst_zip (by rw [hhandles, hlayers])]

theorem prefixLength_of_mem_inferenceInfos {prefixLength : Int}
    {perLayerInputs : List (Option (List A.LayerInput))} {info : InferenceMetadata (standard A.standard)}
    (h : info ∈ inferenceInfos span prefixLength perLayerInputs) : info.prefixLength = prefixLength := by
  obtain ⟨e, -, rfl⟩ := List.mem_map.mp h
  rfl

/-- Without elements there is no task. -/
theorem throughSpan_empty {path : InferencePath} {r : InferenceRequest (standard A.standard)}
    (h : r.batchSize * r.tokens.length * r.hiddenSize = 0)
    {infos : List (InferenceMetadata (standard A.standard))} {prompts : List (Option (List A.Token))}
    {shared : SharedKv (List (Option A.Row))} {memory : List Nat → List (Option (A.Row × A.Row))} :
    server.throughSpan path r infos prompts shared memory = .ok ⟨r.tokens, memory, ∅⟩ :=
  if_pos h

theorem throughSpan_merged {r : InferenceRequest (standard A.standard)}
    (h : r.batchSize * r.tokens.length * r.hiddenSize ≠ 0)
    {infos : List (InferenceMetadata (standard A.standard))} {prompts : List (Option (List A.Token))}
    {shared : SharedKv (List (Option A.Row))} {memory : List Nat → List (Option (A.Row × A.Row))} :
    server.throughSpan .merged r infos prompts shared memory =
      server.mergedPath r.batchSize r.hypoIds infos prompts ⟨r.tokens, shared, memory⟩ :=
  if_neg h

theorem GoesOn.congr {batchSize total : Nat} {seeds seeds' : List String} {uid : String}
    (h : GoesOn server batchSize seeds total uid) (hseeds : ∀ t, t ∈ seeds' → t ∈ seeds) :
    GoesOn server batchSize seeds' total uid := fun t ht =>
  ⟨fun hmem => (h t ht).1 (hseeds t hmem), (h t ht).2⟩

/-- When a request is answered. -/
theorem inferenceRequest_iff {path : InferencePath} {state state' : SessionState (standard A.standard)}
    {r : InferenceRequest (standard A.standard)} {out : InferenceReply (standard A.standard)} :
    server.inferenceRequest span path state r = .ok (out, state') ↔
      ∃ prefixLength prompts perLayerInputs shared produced,
        (startPosition state.prefixLength r.startFromPosition :
          Except (InferenceError (standard A.standard)) Int) = .ok prefixLength ∧
        span.requestedUids.length ≠ 0 ∧
        (perBlockInputs span.requestedUids.length r.prompts :
          Except (InferenceError (standard A.standard)) _) = .ok prompts ∧
        (perBlockInputs span.requestedUids.length (r.perLayerInputs.map (List.map some)) :
          Except (InferenceError (standard A.standard)) _) = .ok perLayerInputs ∧
        seedSharedKv r = .ok shared ∧ ¬ prefixLength + r.tokens.length > span.maxLength ∧
        server.throughSpan path r (inferenceInfos span prefixLength perLayerInputs) prompts shared
          state.memory = .ok produced ∧
        out = reply r shared produced ∧
        state' = ⟨prefixLength + r.tokens.length, produced.memory⟩ := by
  unfold inferenceRequest
  constructor
  · intro h
    obtain ⟨prefixLength, hleading, h⟩ := bind_eq_ok.mp h
    dsimp only at h
    split at h
    · cases h
    rename_i hblocks
    obtain ⟨prompts, hprompts, h⟩ := bind_eq_ok.mp h
    obtain ⟨perLayerInputs, hlayers, h⟩ := bind_eq_ok.mp h
    obtain ⟨shared, hshared, h⟩ := bind_eq_ok.mp h
    split at h
    · cases h
    rename_i hfits
    obtain ⟨produced, hproduced, h⟩ := bind_eq_ok.mp h
    cases h
    exact ⟨prefixLength, prompts, perLayerInputs, shared, produced, hleading, hblocks, hprompts, hlayers,
      hshared, hfits, hproduced, rfl, rfl⟩
  · rintro ⟨prefixLength, prompts, perLayerInputs, shared, produced, hleading, hblocks, hprompts, hlayers,
      hshared, hfits, hproduced, rfl, rfl⟩
    rw [hleading, ok_bind]
    dsimp only
    rw [if_neg hblocks, hprompts, ok_bind, hlayers, ok_bind, hshared, ok_bind, if_neg hfits, hproduced]
    rfl

/-- **A request, on both parts.** -/
theorem request_split (hserver : AttentionServer server)
    (hhandles : span.cacheHandles.length = span.requestedUids.length) (hnodup : span.cacheHandles.Nodup)
    {r : InferenceRequest (standard A.standard)} {p n : Nat} (hstart : r.startFromPosition = some (p : Int))
    (hprompts : ∀ prompts, r.prompts = some prompts → ∀ prompt ∈ prompts, prompt = none)
    (hdummy : A.isDummy r.hypoIds = true)
    (hgoes : ∀ uid ∈ span.requestedUids,
      GoesOn server r.batchSize r.sharedKvKeys (p + r.tokens.length) uid)
    (hn : 0 < n) (hlt : n < r.tokens.length)
    {state state' : SessionState (standard A.standard)} {out : InferenceReply (standard A.standard)}
    (h : server.inferenceRequest span .merged state r = .ok (out, state')) :
    ∃ first state₁ rest,
      server.inferenceRequest span .merged state (firstRequest n r) = .ok (first, state₁) ∧
      server.inferenceRequest span .merged state₁ (restRequest n r) = .ok (rest, state') ∧
      out.tokens = first.tokens ++ rest.tokens ∧ first.tokens.length = n ∧
      rest.tokens.length = r.tokens.length - n ∧ rest.sharedKvKeys = out.sharedKvKeys ∧
      rest.sharedKvTensors = out.sharedKvTensors ∧ first.sharedKvKeys = out.sharedKvKeys := by
  obtain ⟨prefixLength, prompts, perLayerInputs, shared, produced, hleading, hblocks, hblockPrompts,
    hlayers, hshared, hfits, hproduced, rfl, rfl⟩ := inferenceRequest_iff.mp h
  have hposition : prefixLength = p ∧ (p : Int) ≤ state.prefixLength := by
    rw [hstart] at hleading
    unfold startPosition at hleading
    dsimp only at hleading
    split at hleading
    · rename_i hle
      exact ⟨(Except.ok.inj hleading).symm, hle⟩
    · cases hleading
  obtain ⟨rfl, hle⟩ := hposition
  have htake : (r.tokens.take n).length = n := by
    rw [List.length_take]
    omega
  have hdrop : (r.tokens.drop n).length = r.tokens.length - n := List.length_drop
  have hnone : ∀ prompt ∈ prompts, prompt = none := by
    cases hr : r.prompts with
    | none =>
      rw [hr] at hblockPrompts
      cases hblockPrompts
      exact fun prompt hmem => (List.mem_replicate.mp hmem).2
    | some given =>
      rw [hr] at hblockPrompts
      unfold perBlockInputs at hblockPrompts
      dsimp only at hblockPrompts
      split at hblockPrompts
      · cases hblockPrompts
        exact hprompts _ hr
      · cases hblockPrompts
  have hrestPrefix : (startPosition ((p : Int) + (firstRequest n r).tokens.length)
      (restRequest n r).startFromPosition :
        Except (InferenceError (standard A.standard)) Int) = .ok ((p : Int) + n) := by
    show startPosition ((p : Int) + (r.tokens.take n).length) (r.startFromPosition.map _) = _
    rw [hstart, htake]
    exact if_pos le_rfl
  have hfirstLayers := perBlockInputs_map (f := List.take n) hlayers
  have hrestLayers := perBlockInputs_map (f := List.drop n) hlayers
  have hfirstInfos := @inferenceInfos_map A span p p (List.take n) perLayerInputs
  have hrestInfos := @inferenceInfos_map A span p (p + n) (List.drop n) perLayerInputs
  have hfirstFits : ¬ (p : Int) + (firstRequest n r).tokens.length > span.maxLength := by
    show ¬ (p : Int) + (r.tokens.take n).length > span.maxLength
    rw [htake]
    omega
  have hrestFits : ¬ (p : Int) + n + (restRequest n r).tokens.length > span.maxLength := by
    show ¬ (p : Int) + n + (r.tokens.drop n).length > span.maxLength
    rw [hdrop]
    omega
  -- through the span: all tokens, those of the first part, and the others
  obtain ⟨first, rest, hfirst, hrest, htokens, hfirstLength, hrestLength, hmemory, hkeys, htypes⟩ :
      ∃ first rest : Produced (standard A.standard),
        server.throughSpan .merged (firstRequest n r)
          (inferenceInfos span p (perLayerInputs.map (Option.map (List.take n)))) prompts shared
          state.memory = .ok first ∧
        server.throughSpan .merged (restRequest n r)
          (inferenceInfos span ((p : Int) + n) (perLayerInputs.map (Option.map (List.drop n)))) prompts
          shared first.memory = .ok rest ∧
        produced.tokens = first.tokens ++ rest.tokens ∧ first.tokens.length = n ∧
        rest.tokens.length = r.tokens.length - n ∧ rest.memory = produced.memory ∧
        rest.producedSharedKv = produced.producedSharedKv ∧
        ∀ t, t ∈ first.producedSharedKv ↔ t ∈ produced.producedSharedKv := by
    have hempty : ∀ l, 0 < l → (r.batchSize * l * r.hiddenSize = 0 ↔ r.batchSize * r.hiddenSize = 0) := by
      intro l hl
      rw [Nat.mul_right_comm, Nat.mul_eq_zero, or_iff_left hl.ne']
    have hfirstEmpty : r.batchSize * (firstRequest n r).tokens.length * r.hiddenSize = 0 ↔ _ :=
      hempty _ (htake.symm ▸ hn)
    have hrestEmpty : r.batchSize * (restRequest n r).tokens.length * r.hiddenSize = 0 ↔ _ :=
      hempty _ (hdrop.symm ▸ Nat.sub_pos_of_lt hlt)
    have hwholeEmpty := hempty _ (Nat.zero_lt_of_lt hlt)
    by_cases hzero : r.batchSize * r.hiddenSize = 0
    · rw [throughSpan_empty (hwholeEmpty.mpr hzero)] at hproduced
      cases hproduced
      exact ⟨_, _, throughSpan_empty (hfirstEmpty.mpr hzero), throughSpan_empty (hrestEmpty.mpr hzero),
        (List.take_append_drop n r.tokens).symm, htake, hdrop, rfl, rfl, fun _ => Iff.rfl⟩
    · rw [throughSpan_merged (mt hwholeEmpty.mp hzero), ← List.take_append_drop n r.tokens] at hproduced
      rw [hfirstInfos, hrestInfos]
      have huids := map_uid_inferenceInfos span hhandles (p : Int) (perBlockInputs_length hlayers)
      have hhandlesOf : (inferenceInfos span p perLayerInputs).map (·.cacheHandles) = span.cacheHandles :=
        map_cacheHandles_inferenceInfos hhandles p (perBlockInputs_length hlayers)
      have hlength : (inferenceInfos span p perLayerInputs).length = prompts.length := by
        rw [perBlockInputs_length hblockPrompts, ← huids, List.length_map]
      have hinfos : ∀ info ∈ inferenceInfos span p perLayerInputs, info.prefixLength = p ∧
          GoesOn server r.batchSize shared.keys
            (p + (r.tokens.take n).length + (r.tokens.drop n).length) info.uid := by
        intro info hinfo
        refine ⟨prefixLength_of_mem_inferenceInfos hinfo, ?_⟩
        have hmem : info.uid ∈ span.requestedUids := huids ▸ List.mem_map_of_mem hinfo
        have htotal : p + (r.tokens.take n).length + (r.tokens.drop n).length = p + r.tokens.length := by
          rw [htake, hdrop]
          omega
        rw [htotal]
        exact (hgoes _ hmem).congr fun t ht => (mem_seedSharedKv hshared t).mp (AList.mem_keys.mpr ht)
      obtain ⟨first, rest, hfirst, hrest, htokens, hfirstLength, hrestLength, hmemory, hkeys, htypes⟩ :=
        path_split hserver hdummy hlength (htake.symm ▸ hn) (hdrop.symm ▸ Nat.sub_pos_of_lt hlt) hinfos
          hnone (hhandlesOf ▸ hnodup) hproduced
      rw [htake] at hfirst hrest hfirstLength
      rw [hdrop] at hrestLength
      refine ⟨first, rest, (throughSpan_merged (mt hfirstEmpty.mp hzero)).trans ?_,
        (throughSpan_merged (mt hrestEmpty.mp hzero)).trans ?_, htokens, hfirstLength, hrestLength, hmemory,
        hkeys, htypes⟩
      · rw [← hfirst]
        refine congrArg (fun infos => server.mergedPath r.batchSize r.hypoIds infos prompts
          ⟨r.tokens.take n, shared, state.memory⟩) (List.map_congr_left fun info hinfo => ?_)
        rw [firstPart, (hinfos info hinfo).1]
      · rw [← hrest]
        refine congrArg (fun infos => server.mergedPath r.batchSize r.hypoIds infos prompts
          ⟨r.tokens.drop n, shared, first.memory⟩) (List.map_congr_left fun info hinfo => ?_)
        rw [restPart, (hinfos info hinfo).1]
  refine ⟨reply (firstRequest n r) shared first, ⟨(p : Int) + (firstRequest n r).tokens.length,
    first.memory⟩, reply (restRequest n r) shared rest,
    inferenceRequest_iff.mpr ⟨p, prompts, _, shared, first, hleading, hblocks, hblockPrompts, hfirstLayers,
      hshared, hfirstFits, hfirst, rfl, rfl⟩,
    inferenceRequest_iff.mpr ⟨(p : Int) + n, prompts, _, shared, rest, hrestPrefix, hblocks, hblockPrompts,
      hrestLayers, hshared, hrestFits, hrest, rfl, ?_⟩, htokens, hfirstLength, hrestLength, ?_, ?_, ?_⟩
  · rw [hmemory]
    refine congrArg (fun l : Int => (⟨l, produced.memory⟩ : SessionState (standard A.standard))) ?_
    show (p : Int) + r.tokens.length = (p : Int) + n + (r.tokens.drop n).length
    rw [hdrop]
    omega
  · show (flattenSharedKv rest.producedSharedKv).1 = (flattenSharedKv produced.producedSharedKv).1
    rw [hkeys]
  · show (flattenSharedKv rest.producedSharedKv).2 = (flattenSharedKv produced.producedSharedKv).2
    rw [hkeys]
  · show Dict.sorted first.producedSharedKv.keys = Dict.sorted produced.producedSharedKv.keys
    apply Dict.sorted_congr first.producedSharedKv.keys_nodup produced.producedSharedKv.keys_nodup
    intro t
    rw [← AList.mem_keys, ← AList.mem_keys]
    exact htypes t

end Requests

end Drift.Server
