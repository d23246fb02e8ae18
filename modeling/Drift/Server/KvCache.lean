import Mathlib.Algebra.Ring.Nat
import Mathlib.Algebra.BigOperators.Group.List.Basic
import Mathlib.Data.List.Basic

/-!
# The layout of a block's inference cache

A model family chooses a `KVCacheStrategy`. Before the weights are loaded the server asks the strategy
for an estimate, `estimate_cache_bytes`, which reads the config alone; when a session opens the backend
asks it for descriptors, `get_cache_descriptors`, which read the loaded block first. Both are modelled
for the four strategies of the repository, with the divisions that raise for a divisor of zero.

The modules themselves come from the `transformers` library. What the backend reads off them is a
`Block`; what that library documents about a hybrid block is `Block.BuiltFrom`.
-/

namespace Drift.Server

/-! ### Dtypes and descriptors -/

/-- The dtypes of torch. -/
inductive Dtype
  | bool | uint8 | int8 | int16 | int32 | int64
  | float16 | bfloat16 | float32 | float64 | complex64 | complex128
  deriving DecidableEq, Repr

/-- `get_size_in_bytes`. -/
def getSizeInBytes : Dtype → Nat
  | .bool | .uint8 | .int8 => 1
  | .int16 | .float16 | .bfloat16 => 2
  | .int32 | .float32 => 4
  | .int64 | .float64 | .complex64 => 8
  | .complex128 => 16

theorem getSizeInBytes_pos (dtype : Dtype) : 0 < getSizeInBytes dtype := by
  cases dtype <;> decide

/-- `getattr(torch, name)`, where that is a dtype. -/
def torchDtype (name : String) : Option Dtype :=
  [("bool", Dtype.bool), ("uint8", .uint8), ("int8", .int8), ("int16", .int16), ("short", .int16),
    ("int32", .int32), ("int", .int32), ("int64", .int64), ("long", .int64), ("float16", .float16),
    ("half", .float16), ("bfloat16", .bfloat16), ("float32", .float32), ("float", .float32),
    ("float64", .float64), ("double", .float64), ("complex64", .complex64), ("cfloat", .complex64),
    ("complex128", .complex128), ("cdouble", .complex128)].lookup name

/-- `TensorDescriptor`, with a number for the device. -/
structure TensorDescriptor where
  size : List Nat
  dtype : Dtype
  device : Nat
  deriving DecidableEq, Repr

/-- The bytes of a tensor: `descr.numel() * get_size_in_bytes(descr.dtype)`. -/
def TensorDescriptor.bytes (descr : TensorDescriptor) : Nat :=
  descr.size.prod * getSizeInBytes descr.dtype

/-- What is allocated on one device. -/
def bytesOn (device : Nat) (descriptors : List TensorDescriptor) : Nat :=
  ((descriptors.filter fun descr => descr.device == device).map TensorDescriptor.bytes).sum

/-- `MemoryCache.get_allocation_size`: the largest share of a device. The maximum of nothing raises. -/
def getAllocationSize (descriptors : List TensorDescriptor) : Option Nat :=
  ((descriptors.map TensorDescriptor.device).dedup.map fun device => bytesOn device descriptors).max?

/-- `a // b` on counts. -/
def floorDiv (a b : Nat) : Option Nat := if b = 0 then none else some (a / b)

/-! ### Configs and blocks -/

/-- The families with a distributed config. -/
inductive Family
  | bloom | falcon | mixtral | llama | mistral | qwen2 | qwen3 | gemma2 | gemma3 | gemma4
  | gemma4Unified | deepseekV3 | qwen3_5
  deriving DecidableEq, Repr

inductive LayerType
  | fullAttention
  | slidingAttention
  | linearAttention
  deriving DecidableEq, Repr

/-- `config.mamba_ssm_dtype`, where it is set. -/
inductive DtypeAttribute
  | dtype (dtype : Dtype)
  | text (name : String)
  deriving DecidableEq, Repr

/-- The attributes of a config that cache accounting reads. -/
structure BlockConfig where
  family : Family
  hiddenSize : Nat
  numAttentionHeads : Nat
  numKeyValueHeads : Nat
  headDim : Option Nat
  /-- Falcon. -/
  newDecoderArchitecture : Bool
  multiQuery : Bool
  numKvHeads : Nat
  /-- Gemma 4 and Qwen3.5. -/
  layerTypes : List LayerType
  numGlobalKeyValueHeads : Option Nat
  globalHeadDim : Option Nat
  /-- DeepSeek. -/
  qkNopeHeadDim : Nat
  qkRopeHeadDim : Nat
  vHeadDim : Nat
  /-- Qwen3.5. -/
  linearNumKeyHeads : Nat
  linearKeyHeadDim : Nat
  linearNumValueHeads : Nat
  linearValueHeadDim : Nat
  linearConvKernelDim : Nat
  mambaSsmDtype : Option DtypeAttribute
  deriving DecidableEq, Repr

/-- The property `num_key_value_groups` of each config. -/
def BlockConfig.numKeyValueGroups (config : BlockConfig) : Option Nat :=
  match config.family with
  | .bloom | .mixtral => some 1
  | .falcon =>
    if config.newDecoderArchitecture then floorDiv config.numAttentionHeads config.numKvHeads
    else if config.multiQuery then some config.numAttentionHeads
    else some 1
  | _ => floorDiv config.numAttentionHeads config.numKeyValueHeads

/-- The attributes of Qwen3.5's linear-attention mixer. -/
structure GatedDeltaNet where
  convDim : Nat
  convKernelSize : Nat
  numVHeads : Nat
  headKDim : Nat
  headVDim : Nat
  deriving DecidableEq, Repr

/-- What the backend and the strategies read off a loaded block: `head_dim` and
`num_key_value_groups` of its attention module, or the mixer of a block without one. -/
inductive Block
  | attention (headDim numKeyValueGroups : Option Nat)
  | linearAttention (mixer : GatedDeltaNet)
  deriving DecidableEq, Repr

/-- `TransformerBackend.cache_head_dim`. -/
def Block.cacheHeadDim : Block → Option Nat
  | .attention headDim _ => headDim
  | .linearAttention _ => none

/-- `TransformerBackend.cache_kv_groups`. -/
def Block.cacheKvGroups : Block → Option Nat
  | .attention _ numKeyValueGroups => numKeyValueGroups
  | .linearAttention _ => none

/-- How `transformers` builds the decoder layer at an index of a hybrid config. -/
def Block.BuiltFrom (block : Block) (config : BlockConfig) (blockIndex : Nat) : Prop :=
  match block with
  | .attention _ _ => config.layerTypes[blockIndex]? = some .fullAttention
  | .linearAttention mixer =>
    config.layerTypes[blockIndex]? = some .linearAttention ∧
      mixer = {
        convDim := config.linearNumKeyHeads * config.linearKeyHeadDim * 2 +
          config.linearNumValueHeads * config.linearValueHeadDim
        convKernelSize := config.linearConvKernelDim
        numVHeads := config.linearNumValueHeads
        headKDim := config.linearKeyHeadDim
        headVDim := config.linearValueHeadDim }

/-! ### Estimates -/

/-- `KVCacheStrategy` and its subclasses. -/
inductive KVCacheStrategy
  | standardGQACache
  | mlaCache
  | gemma4Cache
  | qwen3_5HybridCache
  deriving DecidableEq, Repr

/-- `kv_cache_strategy` of each config, or the default. -/
def Family.kvCacheStrategy : Family → KVCacheStrategy
  | .gemma4 | .gemma4Unified => .gemma4Cache
  | .deepseekV3 => .mlaCache
  | .qwen3_5 => .qwen3_5HybridCache
  | _ => .standardGQACache

/-- The historical dense-GQA formula, `KVCacheStrategy.estimate_cache_bytes`. -/
def standardEstimate (config : BlockConfig) (maxLength : Nat) (dtype : Dtype) : Option Nat := do
  let groups ← config.numKeyValueGroups
  let cacheValues ← floorDiv (2 * config.hiddenSize * maxLength) groups
  return cacheValues * getSizeInBytes dtype

/-- `Gemma4Cache._geometry`: the key/value heads of a layer and their dimension. -/
def gemma4Geometry (config : BlockConfig) (layerType : LayerType) : Option (Nat × Nat) :=
  match layerType with
  | .fullAttention => do
    let numKvHeads := (config.numGlobalKeyValueHeads.filter (· ≠ 0)).getD config.numKeyValueHeads
    -- `getattr(config, "global_head_dim", None) or config.head_dim`
    let headDim ← (config.globalHeadDim.filter (· ≠ 0)).or config.headDim
    return (numKvHeads, headDim)
  | _ => config.headDim.map fun headDim => (config.numKeyValueHeads, headDim)

/-- `Gemma4Cache.estimate_cache_bytes`. -/
def gemma4Estimate (config : BlockConfig) (maxLength : Nat) (dtype : Dtype) (blockIndex : Option Nat) :
    Option Nat := do
  let layerTypes ← match blockIndex with
    | none => some config.layerTypes
    | some blockIndex => config.layerTypes[blockIndex]?.map fun layerType => [layerType]
  let geometries ← layerTypes.mapM (gemma4Geometry config)
  let valuesPerToken ← (geometries.map fun (numKvHeads, headDim) => 2 * numKvHeads * headDim).max?
  return valuesPerToken * maxLength * getSizeInBytes dtype

/-- `_resolve_state_dtype`. -/
def resolveStateDtype (config : BlockConfig) : Option Dtype :=
  match config.mambaSsmDtype with
  | none => some .float32
  | some (.dtype dtype) => some dtype
  | some (.text name) => torchDtype name

/-- The bytes of the two states of a linear-attention block of this geometry. -/
def GatedDeltaNet.stateBytes (mixer : GatedDeltaNet) (dtype stateDtype : Dtype) : Nat :=
  mixer.convDim * mixer.convKernelSize * getSizeInBytes dtype +
    mixer.numVHeads * mixer.headKDim * mixer.headVDim * getSizeInBytes stateDtype

/-- `block_index is not None and config.layer_types[block_index] == "full_attention"`. -/
def isFullAttention (config : BlockConfig) (blockIndex : Option Nat) : Option Bool :=
  match blockIndex with
  | none => some false
  | some blockIndex => config.layerTypes[blockIndex]?.map fun layerType => layerType == .fullAttention

/-- `Qwen3_5HybridCache.estimate_cache_bytes`. -/
def qwen3_5Estimate (config : BlockConfig) (maxLength : Nat) (dtype : Dtype) (blockIndex : Option Nat) :
    Option Nat := do
  let standardBytes ← standardEstimate config maxLength dtype
  match ← isFullAttention config blockIndex with
  | true => return standardBytes
  | false =>
    let keyDim := config.linearNumKeyHeads * config.linearKeyHeadDim
    let valueDim := config.linearNumValueHeads * config.linearValueHeadDim
    let convDim := keyDim * 2 + valueDim
    let stateDtype ← resolveStateDtype config
    let stateBytes := convDim * config.linearConvKernelDim * getSizeInBytes dtype +
      config.linearNumValueHeads * config.linearKeyHeadDim * config.linearValueHeadDim *
        getSizeInBytes stateDtype
    return max standardBytes stateBytes

/-- `estimate_cache_bytes` of a strategy. `MLACache` inherits the default. -/
def KVCacheStrategy.estimateCacheBytes (strategy : KVCacheStrategy) (config : BlockConfig)
    (maxLength : Nat) (dtype : Dtype) (blockIndex : Option Nat) : Option Nat :=
  match strategy with
  | .standardGQACache | .mlaCache => standardEstimate config maxLength dtype
  | .gemma4Cache => gemma4Estimate config maxLength dtype blockIndex
  | .qwen3_5HybridCache => qwen3_5Estimate config maxLength dtype blockIndex

/-! ### Descriptors -/

/-- The arguments of `get_cache_descriptors`. -/
structure CacheRequest where
  batchSize : Nat
  maxLength : Nat
  dtype : Dtype
  devices : List Nat
  shardNumHeads : List Nat
  headDim : Option Nat
  numKeyValueGroups : Option Nat

/-- The head dimension of the standard layout: the block's, the config's, or the derived one. -/
def resolveHeadDim (config : BlockConfig) (headDim : Option Nat) : Option Nat :=
  match headDim with
  | some headDim => some headDim
  | none =>
    match config.headDim.filter (· ≠ 0) with
    | some headDim => some headDim
    | none => floorDiv config.hiddenSize config.numAttentionHeads

/-- The grouping of the standard layout: the block's, or the config's. -/
def resolveGroups (config : BlockConfig) (numKeyValueGroups : Option Nat) : Option Nat :=
  match numKeyValueGroups with
  | some groups => some groups
  | none => config.numKeyValueGroups

/-- Keys and values of every shard, whose head dimensions may differ. -/
def keyValueDescriptors (request : CacheRequest) (groups keyHeadDim valueHeadDim : Nat) :
    Option (List TensorDescriptor) := do
  let shards ← (request.devices.zip request.shardNumHeads).mapM fun (device, numHeads) => do
    let numKvHeads ← floorDiv numHeads groups
    let keys : TensorDescriptor :=
      ⟨[request.batchSize, numKvHeads, keyHeadDim, request.maxLength], request.dtype, device⟩
    let values : TensorDescriptor :=
      ⟨[request.batchSize, numKvHeads, request.maxLength, valueHeadDim], request.dtype, device⟩
    return [keys, values]
  return shards.flatten

/-- `StandardGQACache.get_cache_descriptors`. -/
def standardDescriptors (config : BlockConfig) (request : CacheRequest) :
    Option (List TensorDescriptor) := do
  let headDim ← resolveHeadDim config request.headDim
  let groups ← resolveGroups config request.numKeyValueGroups
  keyValueDescriptors request groups headDim headDim

/-- `MLACache.get_cache_descriptors`. -/
def mlaDescriptors (config : BlockConfig) (request : CacheRequest) : Option (List TensorDescriptor) := do
  let groups ← config.numKeyValueGroups
  keyValueDescriptors request groups (config.qkNopeHeadDim + config.qkRopeHeadDim) config.vHeadDim

/-- The linear-attention branch of `Qwen3_5HybridCache.get_cache_descriptors`: the two states, and the
bytes reserved up to what standard attention would take. -/
def linearDescriptors (config : BlockConfig) (mixer : GatedDeltaNet) (request : CacheRequest) :
    Option (List TensorDescriptor) :=
  match request.devices with
  | [device] => do
    let recurrentDtype ← resolveStateDtype config
    let headDim ← config.headDim
    let conv : TensorDescriptor :=
      ⟨[request.batchSize, mixer.convDim, mixer.convKernelSize], request.dtype, device⟩
    let recurrent : TensorDescriptor :=
      ⟨[request.batchSize, mixer.numVHeads, mixer.headKDim, mixer.headVDim], recurrentDtype, device⟩
    let virtualBytesPerBatch :=
      2 * config.numKeyValueHeads * headDim * request.maxLength * getSizeInBytes request.dtype
    let stateBytesPerBatch := mixer.stateBytes request.dtype recurrentDtype
    let reservationBytes := virtualBytesPerBatch - stateBytesPerBatch
    if reservationBytes ≠ 0 then
      return [conv, recurrent, ⟨[request.batchSize, reservationBytes], .uint8, device⟩]
    else return [conv, recurrent]
  | _ => none

/-- `get_cache_descriptors` of a strategy for a loaded block. -/
def KVCacheStrategy.getCacheDescriptors (strategy : KVCacheStrategy) (config : BlockConfig)
    (block : Block) (request : CacheRequest) : Option (List TensorDescriptor) :=
  match strategy, block with
  | .qwen3_5HybridCache, .linearAttention mixer => linearDescriptors config mixer request
  -- without an attention module a block has no place in the other families
  | _, .linearAttention _ => none
  | .mlaCache, .attention _ _ => mlaDescriptors config request
  | _, .attention _ _ => standardDescriptors config request

/-- `TransformerBackend.get_inference_cache_descriptors` of a block on one device. Its one shard holds
all heads of the config. -/
def getInferenceCacheDescriptors (config : BlockConfig) (block : Block) (dtype : Dtype)
    (device batchSize maxLength : Nat) : Option (List TensorDescriptor) :=
  config.family.kvCacheStrategy.getCacheDescriptors config block {
    batchSize, maxLength, dtype
    devices := [device]
    shardNumHeads := [config.numAttentionHeads]
    headDim := block.cacheHeadDim
    numKeyValueGroups := block.cacheKvGroups }

end Drift.Server
