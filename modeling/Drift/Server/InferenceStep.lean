import Drift.Lib.Outcome
import Drift.Server.SharedKv

/-!
# Inference steps on a server

`iterate_rpc_inference` answers the requests of one session: each carries the hidden states of some
tokens through the blocks of a span, over the session's cache. A short request goes through the span as
one task of the merged pool, a long one as one task for each block.

The tensor library, the transformer blocks and the cache layout are a parameter (`Numerics` and the
functions in a `Module`); nothing is assumed of them but that a block returns as many tokens as it was
given. A task runs in another process: its arguments are copied, so of what it does to the dictionary
of shared keys and values the handler sees only what it returns.

* `Module.forward` — a block, with what it reads from and writes to the shared dictionary;
* `inferenceStep`, `mergedInferenceStep` — the functions of the task pools;
* `mergedPath`, `perBlockPath` — the two ways through a span;
* `inferenceRequest`, `iterateRpcInference` — one request and a whole session.
-/

namespace Drift.Server

open Drift.Lib

/-- The tensors and caches of a server and what the inference code does with them. The three cache
operations are those of the cache layout: of the cache strategy, or of the paged pool. -/
structure Numerics where
  /-- The hidden states at one position, of all batch rows. -/
  Token : Type
  /-- The per-layer input of one block at one position. -/
  LayerInput : Type
  /-- `layer_past` and `new_kvs`. -/
  Kv : Type
  /-- A key or a value tensor of the shared dictionary. -/
  Tensor : Type
  /-- All that the server has cached. -/
  Memory : Type
  Handle : Type
  HypoIds : Type
  /-- What the library raises. -/
  Failure : Type
  add : Token → Token → Except Failure Token
  isDummy : HypoIds → Bool
  reorder : Memory → List Handle → HypoIds → Except Failure Memory
  select : Memory → List Handle → Int → Except Failure Kv
  update : Memory → List Handle → Kv → Int → Except Failure Memory

/-- What a request can raise. -/
inductive InferenceError (N : Numerics)
  | indexError
  | assertionError
  | valueError
  | zeroDivisionError
  | unboundLocalError
  | typeError
  /-- A prompt is longer than the hidden states it is added to. -/
  | promptShape
  /-- `shared_kv_states[layer_type]` where the type has no entry. -/
  | keyError (layerType : String)
  | failure (f : N.Failure)

variable {N : Numerics}

/-- What the library raises, raised here. -/
def lift {α : Type} : Except N.Failure α → Except (InferenceError N) α :=
  Except.mapError .failure

/-- As many tokens as there are in `xs`. -/
abbrev SameLength (xs : List N.Token) := { ys : List N.Token // ys.length = xs.length }

/-- A transformer block, by what it does with the shared dictionary. All but a consumer turn tokens,
past keys and values and the per-layer input into tokens and new keys and values; a donor also gives
the full-length key and value for the dictionary, and a consumer has those in place of its past. The
first argument is the active adapter. -/
inductive Module (N : Numerics)
  | plain (compute : Option String → (xs : List N.Token) → Option N.Kv →
      Option (List N.LayerInput) → Except N.Failure (SameLength xs × N.Kv))
  | donor (layerType : String) (compute : Option String → (xs : List N.Token) → Option N.Kv →
      Option (List N.LayerInput) → Except N.Failure (SameLength xs × N.Kv × (N.Tensor × N.Tensor)))
  | consumer (layerType : String) (compute : Option String → (xs : List N.Token) →
      Option (List N.LayerInput) → N.Tensor × N.Tensor → Except N.Failure (SameLength xs))

/-- What a block returns, and the dictionary as it leaves it. -/
structure Forwarded (N : Numerics) (xs : List N.Token) where
  tokens : SameLength xs
  newKvs : Option N.Kv
  sharedKv : SharedKv N.Tensor

namespace Module

/-- `donor_layer_types`: the type a block stores keys and values under, if it does. -/
def donorLayerTypes : Module N → List String
  | plain _ => []
  | donor layerType _ => [layerType]
  | consumer _ _ => []

/-- The type whose keys and values a block attends to, if it has none of its own. -/
def consumedLayerTypes : Module N → List String
  | plain _ => []
  | donor _ _ => []
  | consumer layerType _ => [layerType]

/-- `forward`, of the chunk `xs`. -/
def forward (m : Module N) (adapter : Option String) (xs : List N.Token) (layerPast : Option N.Kv)
    (perLayerInput : Option (List N.LayerInput)) (shared : SharedKv N.Tensor) :
    Except (InferenceError N) (Forwarded N xs) :=
  match m with
  | plain compute => do
    let (ys, newKvs) ← lift (compute adapter xs layerPast perLayerInput)
    return ⟨ys, some newKvs, shared⟩
  | donor layerType compute => do
    let (ys, newKvs, keyValue) ← lift (compute adapter xs layerPast perLayerInput)
    return ⟨ys, some newKvs, shared.insert layerType keyValue⟩
  | consumer layerType compute =>
    match shared.lookup layerType with
    | none => .error (.keyError layerType)
    | some keyValue => do
      let ys ← lift (compute adapter xs perLayerInput keyValue)
      return ⟨ys, none, shared⟩

end Module

/-! ### One block -/

/-- `TransformerBackend`. -/
structure Backend (N : Numerics) where
  module : Module N
  shardNumHeads : List Nat
  dtypeBytes : Nat
  maxChunkSizeBytes : Nat

/-- `InferenceMetadata`. The shared dictionary it refers to is part of the state of the task. -/
structure InferenceMetadata (N : Numerics) where
  uid : String
  prefixLength : Int
  cacheHandles : List N.Handle
  activeAdapter : Option String
  perLayerInput : Option (List N.LayerInput)

/-- What a task changes as it goes from block to block. -/
structure Stage (N : Numerics) where
  tokens : List N.Token
  shared : SharedKv N.Tensor
  memory : N.Memory

/-- `xs[offset : offset + length]`. -/
def slice {α : Type} (xs : List α) (offset length : Nat) : List α := (xs.drop offset).take length

/-- `range(0, stop, step)`, for a positive step. -/
def steppedRange (stop step : Nat) : List Nat :=
  (List.range ((stop + step - 1) / step)).map (· * step)

/-- The loop of `_forward_chunked` over the offsets. Without a dictionary of its own (`shared` is
`None`) each call of the block has an empty one. -/
def forwardChunks (m : Module N) (adapter : Option String) (xs : List N.Token)
    (perLayerInput : Option (List N.LayerInput)) (maxChunkLength : Nat) :
    List Nat → Option N.Kv → Option (SharedKv N.Tensor) →
      Except (InferenceError N) (List N.Token × Option N.Kv × Option (SharedKv N.Tensor))
  | [], layerPast, shared => .ok ([], layerPast, shared)
  | offset :: offsets, layerPast, shared => do
    let out ← m.forward adapter (slice xs offset maxChunkLength) layerPast
      (perLayerInput.map (slice · offset maxChunkLength)) (shared.getD ∅)
    let (rest, newKvs, shared) ← forwardChunks m adapter xs perLayerInput maxChunkLength offsets
      out.newKvs (shared.map fun _ => out.sharedKv)
    return (out.tokens.val ++ rest, newKvs, shared)

/-- `_forward_chunked`. Without any tokens the loop never binds `new_kvs`. -/
def forwardChunked (m : Module N) (adapter : Option String) (xs : List N.Token)
    (layerPast : Option N.Kv) (maxChunkLength : Nat) (perLayerInput : Option (List N.LayerInput))
    (shared : Option (SharedKv N.Tensor)) :
    Except (InferenceError N) (List N.Token × Option N.Kv × Option (SharedKv N.Tensor)) :=
  if xs.isEmpty then
    .error .unboundLocalError
  else
    forwardChunks m adapter xs perLayerInput maxChunkLength (steppedRange xs.length maxChunkLength)
      layerPast shared

/-- `_reorder_cache_inplace`; the paged pool is reordered under the same condition. -/
def reorderCacheInplace (memory : N.Memory) (handles : List N.Handle) (hypoIds : N.HypoIds) :
    Except (InferenceError N) N.Memory :=
  if N.isDummy hypoIds then .ok memory else lift (N.reorder memory handles hypoIds)

/-- `update_cache`. A consumer has no keys and values to write back. -/
def writeBack (memory : N.Memory) (handles : List N.Handle) (prefixLength : Int) :
    Option N.Kv → Except (InferenceError N) N.Memory
  | none => .ok memory
  | some newKvs => lift (N.update memory handles newKvs prefixLength)

namespace Backend

/-- `_estimate_max_chunk_length`. The prefix length comes from the client and may be negative. -/
def estimateMaxChunkLength (b : Backend N) (batchSize seqLength : Nat) (prefixLength : Int) :
    Except (InferenceError N) Nat :=
  let attnBytesPerToken : Int :=
    b.shardNumHeads.foldl max 0 * batchSize * b.dtypeBytes * (prefixLength + seqLength)
  if attnBytesPerToken = 0 then
    .error .zeroDivisionError
  else
    .ok (max 1 ((b.maxChunkSizeBytes : Int).fdiv attnBytesPerToken)).toNat

/-- `_paged_inference_step`: a slot is one handle, and the side inputs are not handed on. -/
def pagedInferenceStep (b : Backend N) (batchSize : Nat) (hypoIds : N.HypoIds)
    (info : InferenceMetadata N) (s : Stage N) : Except (InferenceError N) (Stage N) :=
  if info.cacheHandles.length = 1 then do
    let memory ← reorderCacheInplace s.memory info.cacheHandles hypoIds
    let maxChunkLength ← b.estimateMaxChunkLength batchSize s.tokens.length info.prefixLength
    let layerPast ← lift (N.select memory info.cacheHandles info.prefixLength)
    let (tokens, newKvs, _) ←
      forwardChunked b.module info.activeAdapter s.tokens layerPast maxChunkLength none none
    match newKvs with
    | none => .error .typeError
    | some newKvs =>
      let memory ← lift (N.update memory info.cacheHandles newKvs info.prefixLength)
      return { tokens := tokens, shared := s.shared, memory := memory }
  else
    .error .valueError

/-- The part of `inference_step` for a contiguous cache. -/
def contiguousInferenceStep (b : Backend N) (batchSize : Nat) (hypoIds : N.HypoIds)
    (info : InferenceMetadata N) (s : Stage N) : Except (InferenceError N) (Stage N) := do
  let memory ← reorderCacheInplace s.memory info.cacheHandles hypoIds
  let maxChunkLength ← b.estimateMaxChunkLength batchSize s.tokens.length info.prefixLength
  let layerPast ← lift (N.select memory info.cacheHandles info.prefixLength)
  let (tokens, newKvs, shared) ← forwardChunked b.module info.activeAdapter s.tokens layerPast
    maxChunkLength info.perLayerInput (some s.shared)
  let memory ← writeBack memory info.cacheHandles info.prefixLength newKvs
  return { tokens := tokens, shared := shared.getD ∅, memory := memory }

/-- `inference_step`, with the tensors it returns after the hidden states. -/
def inferenceStep (b : Backend N) (paged : Bool) (batchSize : Nat) (hypoIds : N.HypoIds)
    (info : InferenceMetadata N) (s : Stage N) :
    Except (InferenceError N) (Stage N × List N.Tensor) :=
  if paged then do
    let s' ← b.pagedInferenceStep batchSize hypoIds info s
    return (s', [])
  else do
    let s' ← b.contiguousInferenceStep batchSize hypoIds info s
    return (s', extractProducedSharedKv s'.shared s.shared.keys)

end Backend

/-! ### The tasks of the pools -/

/-- `QuantType`. -/
inductive QuantType
  | none
  | int8
  | nf4
  deriving DecidableEq, Repr

/-- What a server is configured with. Its pools are merged, so all blocks share one and its limit. -/
structure InferenceServer (N : Numerics) where
  backends : String → Backend N
  paged : Bool
  maxBatchSize : Nat
  quantType : QuantType

/-- `hidden_states[:, : prompt.shape[1]] += prompt`. -/
def addPrompt : List N.Token → List N.Token → Except (InferenceError N) (List N.Token)
  | xs, [] => .ok xs
  | [], _ :: _ => .error .promptShape
  | x :: xs, p :: prompt => do
    let x' ← lift (N.add x p)
    let xs' ← addPrompt xs prompt
    return x' :: xs'

/-- A block without a prompt leaves the hidden states alone. -/
def addOptionalPrompt (xs : List N.Token) :
    Option (List N.Token) → Except (InferenceError N) (List N.Token)
  | none => .ok xs
  | some prompt => addPrompt xs prompt

namespace InferenceServer

variable (server : InferenceServer N) (batchSize : Nat) (hypoIds : N.HypoIds)

/-- One turn of the loop of `_MergedInferenceStep`. -/
def mergedTurn (info : InferenceMetadata N) (optionalPrompt : Option (List N.Token))
    (s : Stage N) : Except (InferenceError N) (Stage N) := do
  let tokens ← addOptionalPrompt s.tokens optionalPrompt
  let (s', _) ← (server.backends info.uid).inferenceStep server.paged batchSize hypoIds info
    { s with tokens := tokens }
  return s'

/-- The loop of `_MergedInferenceStep`. -/
def mergedLoop : List (InferenceMetadata N × Option (List N.Token)) → Stage N →
    Except (InferenceError N) (Stage N)
  | [], s => .ok s
  | (info, optionalPrompt) :: work, s => do
    let s' ← server.mergedTurn batchSize hypoIds info optionalPrompt s
    mergedLoop work s'

/-- `_MergedInferenceStep.__call__`: the hidden states, the tensors after them, and the cache. -/
def mergedInferenceStep (infos : List (InferenceMetadata N))
    (optionalPrompts : List (Option (List N.Token))) (s : Stage N) :
    Except (InferenceError N) (List N.Token × List N.Tensor × N.Memory) :=
  if infos.length = optionalPrompts.length then do
    let s' ← server.mergedLoop batchSize hypoIds (infos.zip optionalPrompts) s
    return (s'.tokens, extractProducedSharedKv s'.shared s.shared.keys, s'.memory)
  else
    .error .assertionError

/-- `submit_task` and the task it waits for. The dictionary in `s` is the copy that reaches the
runtime. -/
def submitTask (infos : List (InferenceMetadata N))
    (optionalPrompts : List (Option (List N.Token))) (s : Stage N) :
    Except (InferenceError N) (List N.Token × List N.Tensor × N.Memory) :=
  if batchSize * s.tokens.length > server.maxBatchSize then
    .error .valueError
  else
    server.mergedInferenceStep batchSize hypoIds infos optionalPrompts s

/-! ### The two paths -/

/-- `produced_shared_kv` and what else a path through the span gives. -/
structure Produced (N : Numerics) where
  tokens : List N.Token
  memory : N.Memory
  producedSharedKv : SharedKv N.Tensor

/-- The types that the blocks donate and that were not seeded, each of them once. -/
def spanDonorTypes (uids seeded : List String) : List String :=
  ((uids.flatMap fun uid => (server.backends uid).module.donorLayerTypes).dedup).filter (· ∉ seeded)

/-- The span as one task. -/
def mergedPath (infos : List (InferenceMetadata N)) (prompts : List (Option (List N.Token)))
    (s : Stage N) : Except (InferenceError N) (Produced N) := do
  let (tokens, produced, memory) ← server.submitTask batchSize hypoIds infos prompts s
  let donorTypes := Dict.sorted (server.spanDonorTypes (infos.map (·.uid)) s.shared.keys)
  match unflattenSharedKv donorTypes produced with
  | none => .error .assertionError
  | some sharedKv =>
    return { tokens := tokens, memory := memory, producedSharedKv := sharedKv }

/-- The span as a task for each block. Every task is given the dictionary the request came with. -/
def perBlockPath (shared : SharedKv N.Tensor) :
    List (InferenceMetadata N × Option (List N.Token)) → Produced N →
      Except (InferenceError N) (Produced N)
  | [], p => .ok p
  | (info, prompt) :: work, p => do
    let (tokens, produced, memory) ← server.submitTask batchSize hypoIds [info] [prompt]
      { tokens := p.tokens, shared := shared, memory := p.memory }
    let donorTypes := (server.backends info.uid).module.donorLayerTypes.filter (· ∉ shared.keys)
    match unflattenSharedKv donorTypes produced with
    | none => .error .assertionError
    | some sharedKv =>
      perBlockPath shared work
        { tokens := tokens, memory := memory,
          producedSharedKv := p.producedSharedKv.update sharedKv }

end InferenceServer

/-! ### A request and a session -/

/-- Which way a request takes. -/
inductive InferencePath
  | merged
  | perBlock
  deriving DecidableEq, Repr

/-- The session: what its stream was opened for. -/
structure InferenceSpan (N : Numerics) where
  requestedUids : List String
  cacheHandles : List (List N.Handle)
  activeAdapter : Option String
  maxLength : Nat

/-- A request and its step metadata. The prompts and the per-layer inputs are `none` where the tensor
is missing or a dummy, and so is a single prompt. -/
structure InferenceRequest (N : Numerics) where
  startFromPosition : Option Int
  batchSize : Nat
  hiddenSize : Nat
  tokens : List N.Token
  prompts : Option (List (Option (List N.Token)))
  hypoIds : N.HypoIds
  perLayerInputs : Option (List (List N.LayerInput))
  sharedKvKeys : List String
  sharedKvTensors : List N.Tensor

/-- What `iterate_rpc_inference` keeps from one request to the next. -/
structure SessionState (N : Numerics) where
  prefixLength : Int
  memory : N.Memory

/-- What it yields: the hidden states, the produced keys and values with their types, `can_push`. -/
structure InferenceReply (N : Numerics) where
  tokens : List N.Token
  sharedKvKeys : List String
  sharedKvTensors : List N.Tensor
  canPush : Bool

/-- `MAX_SHORT_INFERENCE_TOKENS`, `MAX_NF4_SHORT_INFERENCE_TOKENS`. -/
def mergeMaxTokens : QuantType → Nat
  | .nf4 => 1
  | _ => 128

namespace InferenceServer

variable (server : InferenceServer N) (span : InferenceSpan N)

/-- The way the server takes: `can_merge_pools`. -/
def choosePath (r : InferenceRequest N) : InferencePath :=
  if r.batchSize * r.tokens.length ≤ mergeMaxTokens server.quantType then .merged else .perBlock

/-- The span for one request, by one of the two paths; no task is submitted without any elements. -/
def throughSpan (path : InferencePath) (r : InferenceRequest N)
    (infos : List (InferenceMetadata N)) (prompts : List (Option (List N.Token)))
    (shared : SharedKv N.Tensor) (memory : N.Memory) : Except (InferenceError N) (Produced N) :=
  if r.batchSize * r.tokens.length * r.hiddenSize = 0 then
    .ok { tokens := r.tokens, memory := memory, producedSharedKv := ∅ }
  else
    match path with
    | .merged =>
      server.mergedPath r.batchSize r.hypoIds infos prompts
        { tokens := r.tokens, shared := shared, memory := memory }
    | .perBlock =>
      server.perBlockPath r.batchSize r.hypoIds shared (infos.zip prompts)
        { tokens := r.tokens, memory := memory, producedSharedKv := ∅ }

/-- `start_from_position`: the prefix can only be cut. -/
def startPosition (prefixLength : Int) : Option Int → Except (InferenceError N) Int
  | none => .ok prefixLength
  | some start => if prefixLength ≥ start then .ok start else .error .assertionError

/-- One element for each block; `none` stands for one `None` each. -/
def perBlockInputs {α : Type} (blocks : Nat) :
    Option (List (Option α)) → Except (InferenceError N) (List (Option α))
  | none => .ok (List.replicate blocks none)
  | some inputs => if inputs.length = blocks then .ok inputs else .error .valueError

/-- `shared_kv_states` as the request seeds it. Without keys the tensors are not looked at. -/
def seedSharedKv (r : InferenceRequest N) : Except (InferenceError N) (SharedKv N.Tensor) :=
  if r.sharedKvKeys.isEmpty then
    .ok ∅
  else
    match unflattenSharedKv r.sharedKvKeys r.sharedKvTensors with
    | none => .error .assertionError
    | some shared => .ok shared

/-- `inference_infos`, one for each block. -/
def inferenceInfos (prefixLength : Int) (perLayerInputs : List (Option (List N.LayerInput))) :
    List (InferenceMetadata N) :=
  (span.requestedUids.zip (span.cacheHandles.zip perLayerInputs)).map
    fun (uid, handles, perLayerInput) =>
      { uid := uid, prefixLength := prefixLength, cacheHandles := handles,
        activeAdapter := span.activeAdapter, perLayerInput := perLayerInput }

/-- What is yielded for a request that went through the span. -/
def reply (r : InferenceRequest N) (shared : SharedKv N.Tensor) (p : Produced N) :
    InferenceReply N :=
  let (keys, tensors) := flattenSharedKv p.producedSharedKv
  { tokens := p.tokens
    sharedKvKeys := keys
    sharedKvTensors := tensors
    canPush := r.prompts.isNone && r.perLayerInputs.isNone && shared.keys.isEmpty && keys.isEmpty }

/-- One turn of the loop of `iterate_rpc_inference`, by one of the two paths. -/
def inferenceRequest (path : InferencePath) (s : SessionState N) (r : InferenceRequest N) :
    Except (InferenceError N) (InferenceReply N × SessionState N) := do
  let prefixLength ← startPosition s.prefixLength r.startFromPosition
  let blocks := span.requestedUids.length
  -- `requested_backends[0]`
  if blocks = 0 then .error .indexError else
  let prompts ← perBlockInputs blocks r.prompts
  let perLayerInputs ← perBlockInputs blocks (r.perLayerInputs.map (List.map some))
  let shared ← seedSharedKv r
  if prefixLength + r.tokens.length > span.maxLength then .error .valueError else
  let produced ← server.throughSpan path r (inferenceInfos span prefixLength perLayerInputs) prompts
    shared s.memory
  return (reply r shared produced,
    { prefixLength := prefixLength + r.tokens.length, memory := produced.memory })

/-- The loop of `iterate_rpc_inference` where `path` chooses the way: what it has yielded when it
ends, and the session then, or what it has raised. -/
def iterateOn (path : InferenceRequest N → InferencePath) :
    List (InferenceRequest N) → SessionState N →
      List (InferenceReply N) × Except (InferenceError N) (SessionState N)
  | [], s => ([], .ok s)
  | r :: requests, s =>
    match server.inferenceRequest span (path r) s r with
    | .error e => ([], .error e)
    | .ok (out, s') =>
      let (outs, result) := iterateOn path requests s'
      (out :: outs, result)

/-- `iterate_rpc_inference`. -/
def iterateRpcInference (requests : List (InferenceRequest N)) (memory : N.Memory) :
    List (InferenceReply N) × Except (InferenceError N) (SessionState N) :=
  if span.cacheHandles.length = span.requestedUids.length then
    server.iterateOn span server.choosePath requests { prefixLength := 0, memory := memory }
  else
    ([], .error .assertionError)

end InferenceServer

end Drift.Server
