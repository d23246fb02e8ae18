import Drift.Server.InferencePaths

/-!
# When the two paths agree

Which path a request takes depends on how many tokens it has, so the server is only sound if both give
the same. They do for every span without shared keys and values. With them, a consumer served by
itself does not find what a donor before it in the span has written: it raises, or attends to the keys
and values the request came with.

* `requests_agree`, `sessions_agree` — a request, and by induction a session;
* `paths_agree_iff` — the spans and requests for which the paths agree whatever the blocks compute;
* `countingServer` — the blocks that tell the paths apart on all other spans.
-/

namespace Drift.Server

open Drift.Lib

variable {N : Numerics}

/-- When the two paths give the same: over a paged cache, where no block gets shared keys and values;
where some consumer gets none at all, and both raise; and where no consumer follows its donor. -/
def PathsMeet (paged : Bool) (seeds : List String) (kinds : List BlockKind) : Prop :=
  paged = true ∨ ¬Fed seeds kinds ∨ NoFeeding [] kinds

instance decidableNoFeeding :
    ∀ (donated : List String) (kinds : List BlockKind), Decidable (NoFeeding donated kinds)
  | _, [] => isTrue trivial
  | donated, k :: kinds =>
    have := decidableNoFeeding (k.donates ++ donated) kinds
    inferInstanceAs (Decidable ((∀ t ∈ k.consumes, t ∉ donated) ∧ _))

instance decidableFed : ∀ (known : List String) (kinds : List BlockKind), Decidable (Fed known kinds)
  | _, [] => isTrue trivial
  | known, k :: kinds =>
    have := decidableFed (k.donates ++ known) kinds
    inferInstanceAs (Decidable ((∀ t ∈ k.consumes, t ∈ known) ∧ _))

instance (paged : Bool) (seeds : List String) (kinds : List BlockKind) :
    Decidable (PathsMeet paged seeds kinds) :=
  inferInstanceAs (Decidable (_ ∨ _ ∨ _))

/-! ### A request -/

section Requests

open InferenceServer

variable {server : InferenceServer N} (span : InferenceSpan N)

/-- What a request seeds is what it has keys for. -/
theorem mem_seedSharedKv {r : InferenceRequest N} {shared : SharedKv N.Tensor}
    (h : seedSharedKv r = .ok shared) (t : String) : t ∈ shared ↔ t ∈ r.sharedKvKeys := by
  unfold seedSharedKv at h
  split at h
  · next hempty =>
    cases h
    rw [List.isEmpty_iff.mp hempty]
    exact iff_of_false (AList.notMem_empty t) List.not_mem_nil
  · split at h
    · cases h
    · next hunflatten =>
      cases h
      exact mem_unflattenSharedKv hunflatten t

theorem perBlockInputs_length {α : Type} {blocks : Nat} {inputs : Option (List (Option α))}
    {out : List (Option α)}
    (h : (perBlockInputs blocks inputs : Except (InferenceError N) _) = .ok out) :
    out.length = blocks := by
  unfold perBlockInputs at h
  split at h
  · cases h
    exact List.length_replicate
  · split at h
    · next hlength =>
      cases h
      exact hlength
    · cases h

/-- There is one `InferenceMetadata` for each block, with its uid. -/
theorem map_uid_inferenceInfos (hhandles : span.cacheHandles.length = span.requestedUids.length)
    (prefixLength : Int) {perLayerInputs : List (Option (List N.LayerInput))}
    (hlayers : perLayerInputs.length = span.requestedUids.length) :
    (inferenceInfos span prefixLength perLayerInputs).map (·.uid) = span.requestedUids := by
  have hzip : span.requestedUids.length ≤ (span.cacheHandles.zip perLayerInputs).length := by
    rw [List.length_zip, hhandles, hlayers, min_self]
  rw [inferenceInfos, List.map_map]
  exact List.map_fst_zip hzip

variable {span}

/-- **One request.** Where the paths meet, they give the same reply and leave the same session. -/
theorem requests_agree (hhandles : span.cacheHandles.length = span.requestedUids.length)
    {r : InferenceRequest N} (s : SessionState N) (path path' : InferencePath)
    (hmeet : PathsMeet server.paged r.sharedKvKeys (span.requestedUids.map (kindOf server))) :
    Agree Eq (server.inferenceRequest span path s r) (server.inferenceRequest span path' s r) := by
  -- agreeing is symmetric, so it is enough to compare the merged path with the other
  have hpaths : Agree Eq (server.inferenceRequest span .merged s r)
      (server.inferenceRequest span .perBlock s r) := by
    unfold inferenceRequest
    apply Agree.bind_same
    intro prefixLength _
    dsimp only
    split
    · exact Agree.error
    next hblocks =>
    apply Agree.bind_same
    intro prompts hprompts
    apply Agree.bind_same
    intro perLayerInputs hlayers
    apply Agree.bind_same
    intro shared hshared
    split
    · exact Agree.error
    have huids := map_uid_inferenceInfos span hhandles prefixLength (perBlockInputs_length hlayers)
    have hlength : (inferenceInfos span prefixLength perLayerInputs).length = prompts.length := by
      rw [perBlockInputs_length hprompts, ← huids, List.length_map]
    have hne : inferenceInfos span prefixLength perLayerInputs ≠ [] := by
      intro hnil
      rw [hnil] at huids
      exact hblocks (by rw [← huids]; rfl)
    have hkinds : kindsOf (inferenceInfos span prefixLength perLayerInputs) server =
        span.requestedUids.map (kindOf server) := by
      rw [← huids, List.map_map]
      rfl
    rw [← hkinds] at hmeet
    have hthrough : Agree SameProduced
        (server.throughSpan .merged r (inferenceInfos span prefixLength perLayerInputs) prompts
          shared s.memory)
        (server.throughSpan .perBlock r (inferenceInfos span prefixLength perLayerInputs) prompts
          shared s.memory) := by
      unfold throughSpan
      split
      · exact Agree.ok ⟨rfl, rfl, fun _ => rfl⟩
      · exact paths_agree_of_meet hlength hne (mem_seedSharedKv hshared) hmeet
    apply Agree.bind hthrough
    rintro a b - - ⟨htokens, hmemory, hproduced⟩
    apply Agree.ok
    unfold reply
    rw [flattenSharedKv_congr hproduced, htokens, hmemory]
  cases path with
  | merged =>
    cases path' with
    | merged => exact Agree.refl fun _ _ => rfl
    | perBlock => exact hpaths
  | perBlock =>
    cases path' with
    | merged => exact hpaths.symm.mono fun _ _ _ _ h => h.symm
    | perBlock => exact Agree.refl fun _ _ => rfl

/-- **A session.** Where the paths meet for each of its requests, every way of choosing between them
yields the same replies and ends the same. -/
theorem sessions_agree (hhandles : span.cacheHandles.length = span.requestedUids.length)
    (path path' : InferenceRequest N → InferencePath) (requests : List (InferenceRequest N))
    (hmeet : ∀ r ∈ requests,
      PathsMeet server.paged r.sharedKvKeys (span.requestedUids.map (kindOf server)))
    (s : SessionState N) :
    (server.iterateOn span path requests s).1 = (server.iterateOn span path' requests s).1 ∧
      Agree Eq (server.iterateOn span path requests s).2
        (server.iterateOn span path' requests s).2 := by
  induction requests generalizing s with
  | nil => exact ⟨rfl, Agree.ok rfl⟩
  | cons r requests ih =>
    have hfirst : Agree Eq (server.inferenceRequest span (path r) s r)
        (server.inferenceRequest span (path' r) s r) :=
      requests_agree hhandles s _ _ (hmeet r List.mem_cons_self)
    unfold iterateOn
    revert hfirst
    cases server.inferenceRequest span (path r) s r with
    | error e =>
      cases server.inferenceRequest span (path' r) s r with
      | error e' => exact fun _ => ⟨rfl, Agree.error⟩
      | ok out' => exact fun h => h.elim
    | ok out =>
      cases server.inferenceRequest span (path' r) s r with
      | error e' => exact fun h => h.elim
      | ok out' =>
        rintro (rfl : out = out')
        obtain ⟨houts, hend⟩ := ih (fun r hr => hmeet r (List.mem_cons_of_mem _ hr)) out.2
        exact ⟨congrArg (out.1 :: ·) houts, hend⟩

end Requests

/-! ### Blocks that tell the paths apart -/

section Counting

open InferenceServer

/-- Hidden states and keys and values are numbers; the cache is of no interest. -/
abbrev counting : Numerics where
  Token := Nat
  LayerInput := Unit
  Kv := Unit
  Tensor := Nat
  Memory := Unit
  Handle := Unit
  HypoIds := Unit
  Failure := Empty
  add x p := .ok (x + p)
  isDummy _ := true
  reorder _ _ _ := .ok ()
  select _ _ _ := .ok ()
  update _ _ _ _ := .ok ()

/-- A donor gives the key 1, and a consumer adds the key it reads to all it is given. -/
def countingModule : BlockKind → Module counting
  | .plain => .plain fun _ xs _ _ => .ok (⟨xs, rfl⟩, ())
  | .donor layerType => .donor layerType fun _ xs _ _ => .ok (⟨xs, rfl⟩, (), (1, 1))
  | .consumer layerType => .consumer layerType fun _ xs _ keyValue =>
      .ok ⟨xs.map (· + keyValue.1), List.length_map _⟩

def countingBackend (k : BlockKind) : Backend counting where
  module := countingModule k
  shardNumHeads := [1]
  dtypeBytes := 1
  maxChunkSizeBytes := 1024

/-- A server of such blocks, over a contiguous cache. -/
def countingServer (kinds : String → BlockKind) (maxBatchSize : Nat) : InferenceServer counting where
  backends uid := countingBackend (kinds uid)
  paged := false
  maxBatchSize := maxBatchSize
  quantType := .none

def countingSpan (uids : List String) (maxLength : Nat) : InferenceSpan counting where
  requestedUids := uids
  cacheHandles := uids.map fun _ => [()]
  activeAdapter := none
  maxLength := maxLength

/-- A request with so many zeros; what it seeds is zero. -/
def countingRequest (tokens : Nat) (seeds : List String) : InferenceRequest counting where
  startFromPosition := none
  batchSize := 1
  hiddenSize := 1
  tokens := List.replicate tokens 0
  prompts := none
  hypoIds := ()
  perLayerInputs := none
  sharedKvKeys := seeds
  sharedKvTensors := List.replicate (2 * seeds.length) 0

@[simp] theorem kind_countingModule (k : BlockKind) : (countingModule k).kind = k := by
  cases k <;> rfl

@[simp] theorem kindOf_countingServer (kinds : String → BlockKind) (maxBatchSize : Nat)
    (uid : String) : kindOf (countingServer kinds maxBatchSize) uid = kinds uid :=
  kind_countingModule (kinds uid)

/-- A single token is one chunk. -/
theorem forwardChunked_counting (k : BlockKind) (adapter : Option String) (x : Nat)
    (d : SharedKv Nat) :
    forwardChunked (countingModule k) adapter [x] (some ()) 1024 none (some d) =
      (countingModule k).forward adapter [x] (some ()) none d >>= fun out =>
        .ok (out.tokens.val, out.newKvs, some out.sharedKv) := by
  have hrange : steppedRange 1 1024 = [0] := by decide
  unfold forwardChunked
  rw [show steppedRange [x].length 1024 = [0] from hrange]
  show (countingModule k).forward adapter [x] (some ()) none d >>= (fun out =>
    .ok (out.tokens.val ++ [], out.newKvs, some out.sharedKv)) = _
  simp only [List.append_nil]

/-- A turn of a counting block on a single token is its `forward`. -/
theorem mergedTurn_counting (kinds : String → BlockKind) (maxBatchSize : Nat) (uid : String)
    (handles : List Unit) (adapter : Option String) (x : Nat) (d : SharedKv Nat) :
    (countingServer kinds maxBatchSize).mergedTurn 1 () ⟨uid, 0, handles, adapter, none⟩ none
        ⟨[x], d, ()⟩ =
      (countingModule (kinds uid)).forward adapter [x] (some ()) none d >>= fun out =>
        .ok ⟨out.tokens.val, out.sharedKv, ()⟩ := by
  have hchunk : (countingBackend (kinds uid)).estimateMaxChunkLength 1 1 0 = .ok 1024 := by
    simp [Backend.estimateMaxChunkLength, countingBackend]
  rw [mergedTurn_eq]
  unfold addOptionalPrompt Backend.contiguousInferenceStep reorderCacheInplace
  dsimp only [countingServer]
  simp only [ok_bind, if_true]
  rw [if_neg (by decide),
    show Backend.estimateMaxChunkLength _ 1 [x].length 0 = .ok 1024 from hchunk, ok_bind]
  show forwardChunked (countingModule (kinds uid)) adapter [x] (some ()) 1024 none (some d) >>= _ =
    _
  rw [forwardChunked_counting, bind_assoc]
  cases kinds uid with
  | plain => rfl
  | donor t => rfl
  | consumer t =>
    show (countingModule (.consumer t)).forward _ _ _ _ _ >>= _ = _
    unfold Module.forward countingModule
    dsimp only
    cases d.lookup t <;> rfl

/-- The work of a counting span: every block with the same metadata and no prompt. -/
def CountingWork (work : List (InferenceMetadata counting × Option (List Nat))) : Prop :=
  ∀ w ∈ work, ∃ uid handles adapter, w = (⟨uid, 0, handles, adapter, none⟩, none)

/-- **The merged path counts.** Fed by the request and by earlier donors it returns, and with a
consumer behind its donor it returns more than it was given. The induction is on the blocks: what was
donated is 1 and everything else is as seeded. -/
theorem mergedLoop_counting (kinds : String → BlockKind) (maxBatchSize : Nat)
    {seeds : SharedKv Nat} :
    ∀ (work : List (InferenceMetadata counting × Option (List Nat))) (donated known : List String)
      (x : Nat) (d : SharedKv Nat), CountingWork work →
        (∀ t ∈ donated, d.lookup t = some (1, 1)) →
        (∀ t, t ∉ donated → d.lookup t = seeds.lookup t) → (∀ t ∈ known, t ∈ d) →
        Fed known (work.map fun w => kinds w.1.uid) →
        ∃ y e, (countingServer kinds maxBatchSize).mergedLoop 1 () work ⟨[x], d, ()⟩ =
            .ok ⟨[y], e, ()⟩ ∧
          x ≤ y ∧ (¬NoFeeding donated (work.map fun w => kinds w.1.uid) → x < y) := by
  intro work
  induction work with
  | nil => exact fun donated known x d _ _ _ _ _ => ⟨x, d, rfl, le_refl x, fun h => absurd trivial h⟩
  | cons w work ih =>
    intro donated known x d hwork hdonated hseeded hknown hfed
    obtain ⟨uid, handles, adapter, rfl⟩ := hwork w List.mem_cons_self
    have hrest : CountingWork work := fun w hw => hwork w (List.mem_cons_of_mem _ hw)
    obtain ⟨hreads, hfed⟩ := hfed
    unfold mergedLoop
    rw [mergedTurn_counting, bind_assoc]
    simp only [ok_bind, List.map_cons, NoFeeding]
    cases hkind : kinds uid with
    | plain =>
      simp only [hkind] at hfed
      obtain ⟨y, e, hrun, hle, hlt⟩ := ih donated known x d hrest hdonated hseeded hknown hfed
      refine ⟨y, e, hrun, hle, fun hfeeds => hlt fun h => hfeeds ?_⟩
      exact ⟨fun t ht => absurd ht List.not_mem_nil, h⟩
    | donor layerType =>
      simp only [hkind] at hfed
      have hdonated' : ∀ t ∈ layerType :: donated,
          (d.insert layerType (1, 1)).lookup t = some (1, 1) := by
        intro t ht
        rw [Dict.lookup_insert_eq]
        split
        · rfl
        · next hne => exact hdonated t (List.mem_of_ne_of_mem hne ht)
      have hseeded' : ∀ t, t ∉ layerType :: donated →
          (d.insert layerType (1, 1)).lookup t = seeds.lookup t := by
        intro t ht
        obtain ⟨hne, ht⟩ := not_or.mp (fun h => ht (List.mem_cons.mpr h))
        rw [AList.lookup_insert_ne hne, hseeded t ht]
      have hknown' : ∀ t ∈ layerType :: known, t ∈ d.insert layerType (1, 1) := by
        intro t ht
        rw [AList.mem_insert]
        exact (List.mem_cons.mp ht).imp_right (hknown t)
      obtain ⟨y, e, hrun, hle, hlt⟩ := ih _ _ x _ hrest hdonated' hseeded' hknown' hfed
      refine ⟨y, e, hrun, hle, fun hfeeds => hlt fun h => hfeeds ?_⟩
      exact ⟨fun t ht => absurd ht List.not_mem_nil, h⟩
    | consumer layerType =>
      simp only [hkind] at hfed hreads
      have hmem : layerType ∈ d := hknown _ (hreads layerType (List.mem_singleton.mpr rfl))
      obtain ⟨keyValue, hlookup⟩ := Option.isSome_iff_exists.mp (AList.lookup_isSome.mpr hmem)
      have hforward : (countingModule (.consumer layerType)).forward adapter [x] (some ()) none d =
          .ok ⟨⟨[x + keyValue.1], rfl⟩, none, d⟩ := by
        unfold Module.forward countingModule
        dsimp only
        rw [hlookup]
        rfl
      rw [hforward, ok_bind]
      obtain ⟨y, e, hrun, hle, hlt⟩ :=
        ih donated known (x + keyValue.1) d hrest hdonated hseeded hknown hfed
      refine ⟨y, e, hrun, by omega, fun hfeeds => ?_⟩
      by_cases hdonor : layerType ∈ donated
      · -- this consumer is behind its donor, and adds the 1 that the donor has written
        have hvalue : keyValue = (1, 1) := Option.some.inj (hlookup.symm.trans (hdonated _ hdonor))
        rw [hvalue] at hle
        exact Nat.lt_of_lt_of_le (Nat.lt_succ_self x) hle
      · -- it is not, so another one further on is
        have hlater : ¬NoFeeding donated (work.map fun w => kinds w.1.uid) := by
          refine fun h => hfeeds ⟨fun t ht => ?_, h⟩
          rw [List.mem_singleton.mp ht]
          exact hdonor
        exact Nat.lt_of_le_of_lt (Nat.le_add_right x _) (hlt hlater)

/-- **The other path does not count.** With zeros for seeds it returns what it was given, if it
returns. -/
theorem perBlockPath_counting (kinds : String → BlockKind) (maxBatchSize : Nat)
    {seeds : SharedKv Nat} (hzero : ∀ t keyValue, seeds.lookup t = some keyValue → keyValue.1 = 0) :
    ∀ (work : List (InferenceMetadata counting × Option (List Nat)))
      (p p' : Produced counting) (x : Nat), CountingWork work → p.tokens = [x] →
        (countingServer kinds maxBatchSize).perBlockPath 1 () seeds work p = .ok p' →
        p'.tokens = [x] := by
  intro work
  induction work with
  | nil =>
    rintro p _ x - hx ⟨⟩
    exact hx
  | cons w work ih =>
    intro p p' x hwork hx h
    obtain ⟨uid, handles, adapter, rfl⟩ := hwork w List.mem_cons_self
    obtain ⟨b, new, hturn, -, h⟩ := perBlockPath_ok h
    refine ih _ p' x (fun w hw => hwork w (List.mem_cons_of_mem _ hw)) ?_ h
    rw [hx, mergedTurn_counting] at hturn
    obtain ⟨out, hout, hb⟩ := bind_eq_ok.mp hturn
    cases hb
    cases hkind : kinds uid with
    | plain =>
      rw [hkind] at hout
      cases hout
      rfl
    | donor layerType =>
      rw [hkind] at hout
      cases hout
      rfl
    | consumer layerType =>
      rw [hkind] at hout
      unfold Module.forward countingModule at hout
      dsimp only at hout
      split at hout
      · cases hout
      · next keyValue hlookup =>
        cases hout
        show [x + keyValue.1] = [x]
        rw [hzero layerType keyValue hlookup, Nat.add_zero]

/-- A request of a single token, up to the span. -/
theorem inferenceRequest_counting (kinds : String → BlockKind) {uids seeds : List String}
    (hne : uids ≠ []) {shared : SharedKv Nat}
    (hshared : seedSharedKv (countingRequest 1 seeds) = .ok shared) (path : InferencePath) :
    (countingServer kinds 1).inferenceRequest (countingSpan uids 1) path ⟨0, ()⟩
        (countingRequest 1 seeds) =
      (countingServer kinds 1).throughSpan path (countingRequest 1 seeds)
        (inferenceInfos (countingSpan uids 1) 0 (List.replicate uids.length none))
        (List.replicate uids.length none) shared () >>= fun produced =>
          .ok (reply (countingRequest 1 seeds) shared produced, ⟨1, ()⟩) := by
  have hblocks : ¬uids.length = 0 := fun h => hne (List.length_eq_zero_iff.mp h)
  unfold inferenceRequest
  rw [hshared]
  simp only [startPosition, perBlockInputs, countingSpan, countingRequest, ok_bind, if_neg hblocks,
    List.length_replicate, Option.map_none]
  rfl

/-- What a counting request seeds is zero. -/
theorem seedSharedKv_counting (tokens : Nat) (seeds : List String) :
    ∃ shared, seedSharedKv (countingRequest tokens seeds) = .ok shared ∧
      ∀ t keyValue, shared.lookup t = some keyValue → keyValue.1 = 0 := by
  unfold seedSharedKv countingRequest
  dsimp only
  split
  · exact ⟨∅, rfl, fun t keyValue h => by cases h⟩
  · obtain ⟨shared, hshared⟩ : ∃ shared,
        unflattenSharedKv seeds (List.replicate (2 * seeds.length) 0) = some shared := by
      unfold unflattenSharedKv
      rw [if_pos List.length_replicate]
      exact ⟨_, rfl⟩
    rw [hshared]
    refine ⟨shared, rfl, fun t keyValue hlookup => ?_⟩
    exact List.eq_of_mem_replicate (mem_of_lookup_unflattenSharedKv hshared hlookup)

/-- **The paths differ** on the counting blocks where all consumers are fed and one of them is behind
its donor. -/
theorem paths_differ (kinds : String → BlockKind) {uids seeds : List String}
    (hfed : Fed seeds (uids.map kinds)) (hfeeds : ¬NoFeeding [] (uids.map kinds)) :
    ¬Agree Eq
      ((countingServer kinds 1).inferenceRequest (countingSpan uids 1) .merged ⟨0, ()⟩
        (countingRequest 1 seeds))
      ((countingServer kinds 1).inferenceRequest (countingSpan uids 1) .perBlock ⟨0, ()⟩
        (countingRequest 1 seeds)) := by
  have hne : uids ≠ [] := by
    rintro rfl
    exact hfeeds trivial
  obtain ⟨shared, hshared, hzero⟩ := seedSharedKv_counting 1 seeds
  rw [inferenceRequest_counting kinds hne hshared, inferenceRequest_counting kinds hne hshared]
  have hlayers : (List.replicate uids.length (none : Option (List Unit))).length = uids.length :=
    List.length_replicate
  have huids : (inferenceInfos (countingSpan uids 1) 0
      (List.replicate uids.length none)).map (·.uid) = uids :=
    map_uid_inferenceInfos (countingSpan uids 1) (List.length_map _) 0 hlayers
  have hwork : ∀ infos, infos = inferenceInfos (countingSpan uids 1) 0
      (List.replicate uids.length none) →
        CountingWork (infos.zip (List.replicate uids.length none)) := by
    rintro infos rfl ⟨info, prompt⟩ hw
    obtain ⟨hinfo, hprompt⟩ := List.of_mem_zip hw
    obtain ⟨⟨uid, handles, layer⟩, hzip, rfl⟩ := List.mem_map.mp hinfo
    have hlayer := (List.of_mem_zip (List.of_mem_zip hzip).2).2
    rw [List.eq_of_mem_replicate hlayer, List.eq_of_mem_replicate hprompt]
    exact ⟨uid, handles, none, rfl⟩
  generalize inferenceInfos (countingSpan uids 1) 0 (List.replicate uids.length none) = infos
    at huids hwork ⊢
  have hlength : infos.length = (List.replicate uids.length (none : Option (List Nat))).length := by
    rw [List.length_replicate, ← huids, List.length_map]
  have hkinds : (infos.zip (List.replicate uids.length (none : Option (List Nat)))).map
      (fun w => kinds w.1.uid) = uids.map kinds := by
    have hfst : (infos.zip (List.replicate uids.length (none : Option (List Nat)))).map Prod.fst =
        infos := List.map_fst_zip hlength.le
    calc (infos.zip (List.replicate uids.length (none : Option (List Nat)))).map
          (fun w => kinds w.1.uid)
      _ = (((infos.zip (List.replicate uids.length (none : Option (List Nat)))).map
            Prod.fst).map (·.uid)).map kinds := by rw [List.map_map, List.map_map]; rfl
      _ = uids.map kinds := by rw [hfst, huids]
  -- the merged path returns more than zero
  obtain ⟨y, e, hloop, -, hlt⟩ := mergedLoop_counting kinds 1
    (infos.zip (List.replicate uids.length none)) [] seeds 0 shared (hwork infos rfl)
    (fun t ht => absurd ht List.not_mem_nil) (fun _ _ => rfl)
    (fun t ht => (mem_seedSharedKv hshared t).mpr ht) (by rw [hkinds]; exact hfed)
  rw [hkinds] at hlt
  have hfits : 1 * [0].length ≤ (countingServer kinds 1).maxBatchSize := le_refl 1
  obtain ⟨d, hmerged, -⟩ :=
    mergedPath_of_loop hlength hfits (fun h => absurd h Bool.false_ne_true) hloop
  have hthrough : (countingServer kinds 1).throughSpan .merged (countingRequest 1 seeds) infos
      (List.replicate uids.length none) shared () = .ok ⟨[y], (), d⟩ := hmerged
  rw [hthrough, ok_bind]
  -- the other path returns zero, if it returns
  cases hperBlock : (countingServer kinds 1).throughSpan .perBlock (countingRequest 1 seeds) infos
      (List.replicate uids.length none) shared () with
  | error e => exact fun h => h
  | ok p =>
    have htokens : p.tokens = [0] :=
      perBlockPath_counting kinds 1 hzero _ _ p 0 (hwork infos rfl) rfl hperBlock
    intro hagree
    have hsame : [y] = p.tokens := congrArg (fun out => out.1.tokens) hagree
    rw [htokens] at hsame
    exact absurd (List.head_eq_of_cons_eq hsame) (hlt hfeeds).ne'

end Counting

/-! ### The exact condition -/

/-- For every numerics and every server, session and request with blocks of these kinds and these
seeds, the two paths give the same. -/
def PathsAgree (kinds : String → BlockKind) (uids seeds : List String) (paged : Bool) : Prop :=
  ∀ (N : Numerics) (server : InferenceServer N) (span : InferenceSpan N) (s : SessionState N)
    (r : InferenceRequest N), server.paged = paged → kindOf server = kinds →
      span.requestedUids = uids → span.cacheHandles.length = uids.length →
      r.sharedKvKeys = seeds →
        Agree Eq (server.inferenceRequest span .merged s r)
          (server.inferenceRequest span .perBlock s r)

/-- **When the merged and the per-block path agree.** Whatever the blocks of a span compute, the two
paths give the same exactly over a paged cache, where some consumer has no keys and values at all, and
where no consumer follows its donor; and then every session of requests ends the same however the
paths are chosen. -/
theorem paths_agree_iff (kinds : String → BlockKind) (uids seeds : List String) (paged : Bool) :
    (PathsAgree kinds uids seeds paged ↔ PathsMeet paged seeds (uids.map kinds)) ∧
    ∀ (N : Numerics) (server : InferenceServer N) (span : InferenceSpan N)
      (requests : List (InferenceRequest N)) (memory : N.Memory)
      (path : InferenceRequest N → InferencePath),
      (∀ r ∈ requests,
        PathsMeet server.paged r.sharedKvKeys (span.requestedUids.map (kindOf server))) →
      span.cacheHandles.length = span.requestedUids.length →
        (server.iterateRpcInference span requests memory).1 =
            (server.iterateOn span path requests ⟨0, memory⟩).1 ∧
          Agree Eq (server.iterateRpcInference span requests memory).2
            (server.iterateOn span path requests ⟨0, memory⟩).2 := by
  constructor
  · constructor
    · intro hagree
      by_contra hnot
      obtain ⟨hpaged, hnot⟩ := not_or.mp hnot
      obtain ⟨hfed, hfeeds⟩ := not_or.mp hnot
      refine paths_differ kinds (not_not.mp hfed) hfeeds (hagree counting _ _ _ _ ?_ ?_ rfl ?_ rfl)
      · exact (eq_false_of_ne_true hpaged).symm
      · exact funext fun uid => kindOf_countingServer kinds 1 uid
      · exact List.length_map _
    · rintro hmeet N server span s r rfl rfl rfl hhandles rfl
      exact requests_agree hhandles s _ _ hmeet
  · intro N server span requests memory path hmeet hhandles
    unfold InferenceServer.iterateRpcInference
    rw [if_pos hhandles]
    exact sessions_agree hhandles _ _ requests hmeet _

/-- Two blocks, of which the second attends to what the first stores. -/
def donorThenConsumer (uid : String) : BlockKind :=
  if uid = "model.0" then .donor "full_attention" else .consumer "full_attention"

/-- A session through a donor alone: its request is too long for the merged path, which would have
yielded the same. -/
theorem paths_agree_iff_at_plain_span :
    (∀ r ∈ [countingRequest 129 []],
      PathsMeet false r.sharedKvKeys (["model.0"].map donorThenConsumer)) ∧
    ((countingServer donorThenConsumer 2048).iterateRpcInference (countingSpan ["model.0"] 200)
        [countingRequest 129 []] ()).1 =
      ((countingServer donorThenConsumer 2048).iterateOn (countingSpan ["model.0"] 200)
        (fun _ => .merged) [countingRequest 129 []] ⟨0, ()⟩).1 := by
  have hkinds : kindOf (countingServer donorThenConsumer 2048) = donorThenConsumer :=
    funext fun uid => kindOf_countingServer _ _ uid
  have hmeet : ∀ r ∈ [countingRequest 129 []],
      PathsMeet false r.sharedKvKeys (["model.0"].map donorThenConsumer) := by
    decide +kernel
  obtain ⟨-, hsessions⟩ := paths_agree_iff donorThenConsumer ["model.0"] [] false
  refine ⟨hmeet, (hsessions counting _ (countingSpan ["model.0"] 200) [countingRequest 129 []] ()
    (fun _ => .merged) ?_ rfl).1⟩
  rw [hkinds]
  exact hmeet

/-- **The claim fails** for a donor and its consumer in one span with nothing seeded: 129 tokens are
one too many for the merged path, which would return, and the path taken raises. -/
theorem consumer_misses_donor :
    (countingServer donorThenConsumer 2048).choosePath (countingRequest 129 []) = .perBlock ∧
    ¬Agree Eq
      ((countingServer donorThenConsumer 2048).inferenceRequest
        (countingSpan ["model.0", "model.1"] 200) .merged ⟨0, ()⟩ (countingRequest 129 []))
      ((countingServer donorThenConsumer 2048).inferenceRequest
        (countingSpan ["model.0", "model.1"] 200) .perBlock ⟨0, ()⟩ (countingRequest 129 [])) := by
  refine ⟨by decide +kernel, mt Agree.isOk_eq ?_⟩
  have hmerged : ((countingServer donorThenConsumer 2048).inferenceRequest
      (countingSpan ["model.0", "model.1"] 200) .merged ⟨0, ()⟩
      (countingRequest 129 [])).isOk = true := by
    decide +kernel
  have hperBlock : ((countingServer donorThenConsumer 2048).inferenceRequest
      (countingSpan ["model.0", "model.1"] 200) .perBlock ⟨0, ()⟩
      (countingRequest 129 [])).isOk = false := by
    decide +kernel
  rw [hmerged, hperBlock]
  exact Bool.noConfusion

end Drift.Server
