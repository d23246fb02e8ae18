import Mathlib.Algebra.Order.BigOperators.Group.List
import Mathlib.Tactic.Ring
import Drift.Server.KvCache
import Drift.Server.MemoryCache

/-!
# What a server promises and what a session takes

Three formulas speak about the bytes of a cache. The descriptors of a block say what is allocated; the
estimate of its strategy says what the server reserves before the weights are loaded; and the announcer
divides the bytes that are left by its own `bytes_per_token`, which clients compare with the tokens they
need. Only the first one reads the geometry of the block.

* `descriptors_bytes` — what is allocated for a block, from its geometry (`Block.cacheBytes`);
* `estimate_covers_iff` — when the estimate of a block is at least its allocation: `EstimateFits`;
* `advertised_cache_iff` — when a client that finds room in the announced tokens finds room in the
  cache: the first token of all blocks takes at most `2 * bytes_per_token` a block.

Both conditions fail for a config whose heads are wider than `hidden_size // num_attention_heads`.
-/

namespace Drift.Server

open Drift.Lib

/-! ### The announcer and the client -/

/-- `MemoryCache.bytes_left`. -/
def MemoryCache.bytesLeft (cache : MemoryCache) : Int := cache.maxSizeBytes - cache.currentSizeBytes

/-- `ModuleAnnouncerThread.bytes_per_token`. -/
def bytesPerToken (config : BlockConfig) (dtype : Dtype) : Option Nat := do
  floorDiv (config.hiddenSize * getSizeInBytes dtype) (← config.numKeyValueGroups)

/-- `self.memory_cache.bytes_left // self.bytes_per_token`. -/
def cacheTokensLeft (cache : MemoryCache) (bytesPerToken : Nat) : Option Int :=
  if bytesPerToken = 0 then none else some (cache.bytesLeft.fdiv bytesPerToken)

/-- `RemoteSequenceManager._has_cache_for`, for a span of `length` blocks. -/
def hasCacheFor (length : Nat) (cacheTokensLeft : Option Int) (cacheTokensNeeded : Option Nat) : Bool :=
  match cacheTokensNeeded, cacheTokensLeft with
  | some needed, some left => decide ((needed * 2 * length : Nat) ≤ left)
  | _, _ => true

/-- The descriptors of a session over all blocks of a server, one device. -/
def spanDescriptors (config : BlockConfig) (blocks : List Block) (dtype : Dtype)
    (device maxLength : Nat) : Option (List TensorDescriptor) := do
  let descriptors ← blocks.mapM fun block => getInferenceCacheDescriptors config block dtype device 1 maxLength
  return descriptors.flatten

/-! ### Allocations -/

/-- Tensors of one device are allocated together. -/
theorem getAllocationSize_of_device {descriptors : List TensorDescriptor} {device : Nat}
    (hne : descriptors ≠ []) (hdevice : ∀ descr ∈ descriptors, descr.device = device) :
    getAllocationSize descriptors = some (descriptors.map TensorDescriptor.bytes).sum := by
  have hdevices : descriptors.map TensorDescriptor.device =
      List.replicate descriptors.length device :=
    List.eq_replicate_iff.mpr ⟨List.length_map _, fun b hb => by
      obtain ⟨descr, hdescr, rfl⟩ := List.mem_map.mp hb
      exact hdevice descr hdescr⟩
  have hbytes : bytesOn device descriptors = (descriptors.map TensorDescriptor.bytes).sum := by
    unfold bytesOn
    rw [List.filter_eq_self.mpr fun descr hdescr => beq_iff_eq.mpr (hdevice descr hdescr)]
  unfold getAllocationSize
  rw [hdevices, List.replicate_dedup (mt List.length_eq_zero_iff.mp hne), List.map_singleton, hbytes]
  rfl

/-- The grouping of a block's heads. -/
def Block.groups (config : BlockConfig) (block : Block) : Nat :=
  (resolveGroups config block.cacheKvGroups).getD 0

/-- The key/value heads that a block stores. -/
def Block.kvHeads (config : BlockConfig) (block : Block) : Nat :=
  config.numAttentionHeads / block.groups config

/-- The head dimension of a block. -/
def Block.headDim (config : BlockConfig) (block : Block) : Nat :=
  (resolveHeadDim config block.cacheHeadDim).getD 0

/-- The key/value heads that an MLA block stores. -/
def BlockConfig.mlaHeads (config : BlockConfig) : Nat :=
  config.numAttentionHeads / config.numKeyValueGroups.getD 0

/-- The dimension of a key together with a value in an MLA block. -/
def BlockConfig.mlaDim (config : BlockConfig) : Nat :=
  config.qkNopeHeadDim + config.qkRopeHeadDim + config.vHeadDim

/-- What standard attention would take for `maxLength` tokens of a hybrid config. -/
def BlockConfig.virtualBytes (config : BlockConfig) (dtype : Dtype) (maxLength : Nat) : Nat :=
  2 * config.numKeyValueHeads * config.headDim.getD 0 * maxLength * getSizeInBytes dtype

/-- The bytes of a block's cache for a session of `maxLength` tokens, from its geometry. -/
def Block.cacheBytes (config : BlockConfig) (dtype : Dtype) (maxLength : Nat) : Block → Nat
  | .linearAttention mixer =>
    max (mixer.stateBytes dtype ((resolveStateDtype config).getD .float32))
      (config.virtualBytes dtype maxLength)
  | .attention headDim groups =>
    match config.family.kvCacheStrategy with
    | .mlaCache => config.mlaHeads * config.mlaDim * maxLength * getSizeInBytes dtype
    | _ =>
      let block := Block.attention headDim groups
      block.kvHeads config * (2 * block.headDim config) * maxLength * getSizeInBytes dtype

section Descriptors

variable {config : BlockConfig} {block : Block} {dtype : Dtype} {device maxLength : Nat}
  {descriptors : List TensorDescriptor}

theorem floorDiv_eq_some {a b c : Nat} : floorDiv a b = some c ↔ b ≠ 0 ∧ c = a / b := by
  unfold floorDiv
  split
  next h => simp [h]
  next h => simp [h, eq_comm]

/-- The two tensors of a block on one device. -/
theorem keyValueDescriptors_bytes {request : CacheRequest} {numHeads groups keyDim valueDim : Nat}
    (hbatch : request.batchSize = 1) (hdevices : request.devices = [device])
    (hshards : request.shardNumHeads = [numHeads])
    (h : keyValueDescriptors request groups keyDim valueDim = some descriptors) :
    groups ≠ 0 ∧ descriptors ≠ [] ∧ (∀ descr ∈ descriptors, descr.device = device) ∧
      (descriptors.map TensorDescriptor.bytes).sum =
        numHeads / groups * (keyDim + valueDim) * request.maxLength * getSizeInBytes request.dtype := by
  unfold keyValueDescriptors at h
  rw [hdevices, hshards, hbatch] at h
  by_cases hgroups : groups = 0
  · simp [hgroups, floorDiv] at h
  · simp only [List.zip_cons_cons, List.zip_nil_left, floorDiv, hgroups, if_false, List.mapM_cons,
      List.mapM_nil, Option.bind_eq_bind, Option.bind_some, Option.pure_def] at h
    obtain rfl := Option.some.inj h
    refine ⟨hgroups, List.cons_ne_nil _ _, ?_, ?_⟩
    · intro descr hdescr
      simp only [List.flatten_cons, List.flatten_nil, List.append_nil, List.mem_cons,
        List.not_mem_nil, or_false] at hdescr
      rcases hdescr with rfl | rfl <;> rfl
    · simp only [List.flatten_cons, List.flatten_nil, List.append_nil, List.map_cons, List.map_nil,
        TensorDescriptor.bytes, List.prod_cons, List.prod_nil, List.sum_cons, List.sum_nil]
      ring

/-- The states of a linear-attention block and its reservation. -/
theorem linearDescriptors_bytes {request : CacheRequest} {mixer : GatedDeltaNet}
    (hbatch : request.batchSize = 1) (hdevices : request.devices = [device])
    (h : linearDescriptors config mixer request = some descriptors) :
    descriptors ≠ [] ∧ (∀ descr ∈ descriptors, descr.device = device) ∧
      (descriptors.map TensorDescriptor.bytes).sum =
        max (mixer.stateBytes request.dtype ((resolveStateDtype config).getD .float32))
          (config.virtualBytes request.dtype request.maxLength) := by
  unfold linearDescriptors at h
  rw [hdevices, hbatch] at h
  dsimp only at h
  obtain ⟨stateDtype, hstate, h⟩ := Option.bind_eq_some_iff.mp h
  obtain ⟨headDim, hdim, h⟩ := Option.bind_eq_some_iff.mp h
  have hvirtual : config.virtualBytes request.dtype request.maxLength =
      2 * config.numKeyValueHeads * headDim * request.maxLength * getSizeInBytes request.dtype := by
    unfold BlockConfig.virtualBytes
    rw [hdim, Option.getD_some]
  rw [← hvirtual] at h
  rw [hstate, Option.getD_some]
  have hstates : ∀ rest : List TensorDescriptor,
      ((⟨[1, mixer.convDim, mixer.convKernelSize], request.dtype, device⟩ ::
        ⟨[1, mixer.numVHeads, mixer.headKDim, mixer.headVDim], stateDtype, device⟩ :: rest).map
          TensorDescriptor.bytes).sum =
        mixer.stateBytes request.dtype stateDtype + (rest.map TensorDescriptor.bytes).sum := by
    intro rest
    simp only [List.map_cons, List.sum_cons, TensorDescriptor.bytes, List.prod_cons, List.prod_nil,
      GatedDeltaNet.stateBytes]
    ring
  split at h
  next hreserved =>
    obtain rfl := Option.some.inj h
    refine ⟨List.cons_ne_nil _ _, ?_, ?_⟩
    · intro descr hdescr
      simp only [List.mem_cons, List.not_mem_nil, or_false] at hdescr
      rcases hdescr with rfl | rfl | rfl <;> rfl
    · rw [hstates]
      simp only [List.map_cons, List.map_nil, List.sum_cons, List.sum_nil, TensorDescriptor.bytes,
        List.prod_cons, List.prod_nil, getSizeInBytes]
      omega
  next hreserved =>
    obtain rfl := Option.some.inj h
    refine ⟨List.cons_ne_nil _ _, ?_, ?_⟩
    · intro descr hdescr
      simp only [List.mem_cons, List.not_mem_nil, or_false] at hdescr
      rcases hdescr with rfl | rfl <;> rfl
    · rw [hstates]
      simp only [List.map_nil, List.sum_nil]
      omega

/-- The standard layout of an attention block. -/
theorem standardDescriptors_bytes {request : CacheRequest} (hbatch : request.batchSize = 1)
    (hdevices : request.devices = [device]) (hshards : request.shardNumHeads = [config.numAttentionHeads])
    (hdim : request.headDim = block.cacheHeadDim) (hgroups : request.numKeyValueGroups = block.cacheKvGroups)
    (h : standardDescriptors config request = some descriptors) :
    descriptors ≠ [] ∧ (∀ descr ∈ descriptors, descr.device = device) ∧
      (descriptors.map TensorDescriptor.bytes).sum =
        block.kvHeads config * (2 * block.headDim config) * request.maxLength *
          getSizeInBytes request.dtype := by
  unfold standardDescriptors at h
  rw [hdim, hgroups] at h
  obtain ⟨headDim, hresolved, h⟩ := Option.bind_eq_some_iff.mp h
  obtain ⟨groups, hgrouping, h⟩ := Option.bind_eq_some_iff.mp h
  obtain ⟨-, hne, hdevice, hbytes⟩ := keyValueDescriptors_bytes hbatch hdevices hshards h
  refine ⟨hne, hdevice, hbytes.trans ?_⟩
  unfold Block.kvHeads Block.groups Block.headDim
  rw [hresolved, hgrouping, Option.getD_some, Option.getD_some]
  ring

/-- **What a block's cache takes.** -/
theorem descriptors_bytes
    (h : getInferenceCacheDescriptors config block dtype device 1 maxLength = some descriptors) :
    descriptors ≠ [] ∧ (∀ descr ∈ descriptors, descr.device = device) ∧
      (descriptors.map TensorDescriptor.bytes).sum = block.cacheBytes config dtype maxLength := by
  unfold getInferenceCacheDescriptors at h
  unfold Block.cacheBytes
  cases block with
  | linearAttention mixer =>
    cases hstrategy : config.family.kvCacheStrategy with
    | qwen3_5HybridCache =>
      rw [hstrategy, KVCacheStrategy.getCacheDescriptors] at h
      exact linearDescriptors_bytes rfl rfl h
    | standardGQACache | mlaCache | gemma4Cache =>
      rw [hstrategy] at h
      cases h
  | attention headDim groups =>
    cases hstrategy : config.family.kvCacheStrategy with
    | mlaCache =>
      rw [hstrategy] at h
      obtain ⟨groups, hgroups, h⟩ := Option.bind_eq_some_iff.mp h
      obtain ⟨-, hne, hdevice, hbytes⟩ := keyValueDescriptors_bytes rfl rfl rfl h
      refine ⟨hne, hdevice, hbytes.trans ?_⟩
      unfold BlockConfig.mlaHeads BlockConfig.mlaDim
      rw [hgroups, Option.getD_some]
    | standardGQACache | gemma4Cache | qwen3_5HybridCache =>
      rw [hstrategy] at h
      have h : standardDescriptors config _ = some descriptors := h
      exact standardDescriptors_bytes rfl rfl rfl rfl rfl h

end Descriptors

/-! ### Estimates -/

section Estimates

variable {config : BlockConfig} {block : Block} {dtype : Dtype} {device maxLength blockIndex : Nat}
  {estimate : Nat}

/-- The estimate of a block is at least what its cache takes, on one device. -/
def NeverUnderReports (config : BlockConfig) (block : Block) (blockIndex : Nat) (dtype : Dtype)
    (device maxLength : Nat) : Prop :=
  ∀ estimate descriptors allocated,
    config.family.kvCacheStrategy.estimateCacheBytes config maxLength dtype (some blockIndex) =
      some estimate →
    getInferenceCacheDescriptors config block dtype device 1 maxLength = some descriptors →
    getAllocationSize descriptors = some allocated → allocated ≤ estimate

/-- The condition on the geometry, for each strategy. The default estimate counts `hidden_size` values,
divided by the groups of the config, for the keys of a token and as many for its values. -/
def EstimateFits (config : BlockConfig) (block : Block) (blockIndex : Nat) (dtype : Dtype)
    (maxLength : Nat) : Prop :=
  let groups := config.numKeyValueGroups.getD 0
  match config.family.kvCacheStrategy, block with
  | .mlaCache, _ => groups * (config.mlaHeads * config.mlaDim) ≤ 2 * config.hiddenSize
  | .gemma4Cache, _ => ∀ layerType ∈ config.layerTypes[blockIndex]?,
      ∀ geometry ∈ gemma4Geometry config layerType,
        block.kvHeads config * block.headDim config ≤ geometry.1 * geometry.2
  | .qwen3_5HybridCache, .linearAttention mixer =>
    groups * (config.numKeyValueHeads * config.headDim.getD 0) ≤ config.hiddenSize ∨
      config.virtualBytes dtype maxLength ≤
        mixer.stateBytes dtype ((resolveStateDtype config).getD .float32)
  | _, _ => groups * (block.kvHeads config * block.headDim config) ≤ config.hiddenSize

theorem standardEstimate_eq_some (h : standardEstimate config maxLength dtype = some estimate) :
    config.numKeyValueGroups.getD 0 ≠ 0 ∧
      estimate = 2 * config.hiddenSize * maxLength / config.numKeyValueGroups.getD 0 *
        getSizeInBytes dtype := by
  obtain ⟨groups, hgroups, h⟩ := Option.bind_eq_some_iff.mp h
  obtain ⟨values, hvalues, h⟩ := Option.bind_eq_some_iff.mp h
  obtain ⟨hne, rfl⟩ := floorDiv_eq_some.mp hvalues
  obtain rfl := Option.some.inj h
  rw [hgroups, Option.getD_some]
  exact ⟨hne, rfl⟩

/-- Rounding down does not matter here: a product is below a floor exactly when it is below the
quotient. -/
theorem mul_size_le_floor_iff {x total groups : Nat} (hgroups : groups ≠ 0) :
    x * maxLength * getSizeInBytes dtype ≤ total * maxLength / groups * getSizeInBytes dtype ↔
      maxLength = 0 ∨ groups * x ≤ total := by
  rw [Nat.mul_le_mul_right_iff (getSizeInBytes_pos dtype),
    Nat.le_div_iff_mul_le (Nat.pos_of_ne_zero hgroups)]
  rcases Nat.eq_zero_or_pos maxLength with hzero | hpos
  · simp [hzero]
  · rw [show x * maxLength * groups = groups * x * maxLength by ring, Nat.mul_le_mul_right_iff hpos,
      or_iff_right hpos.ne']

/-- The default estimate against `numHeads` key/value heads of dimension `headDim`. -/
theorem standardEstimate_covers_iff {numHeads headDim : Nat}
    (h : standardEstimate config maxLength dtype = some estimate) :
    numHeads * (2 * headDim) * maxLength * getSizeInBytes dtype ≤ estimate ↔
      maxLength = 0 ∨ config.numKeyValueGroups.getD 0 * (numHeads * headDim) ≤ config.hiddenSize := by
  obtain ⟨hgroups, rfl⟩ := standardEstimate_eq_some h
  rw [mul_size_le_floor_iff hgroups]
  generalize config.numKeyValueGroups.getD 0 = groups
  have htwice : groups * (numHeads * (2 * headDim)) = 2 * (groups * (numHeads * headDim)) := by ring
  rw [htwice]
  omega

/-- `Gemma4Cache` estimates one layer from its own geometry. -/
theorem gemma4Estimate_eq_some
    (h : gemma4Estimate config maxLength dtype (some blockIndex) = some estimate) :
    ∃ layerType geometry, config.layerTypes[blockIndex]? = some layerType ∧
      gemma4Geometry config layerType = some geometry ∧
      estimate = 2 * geometry.1 * geometry.2 * maxLength * getSizeInBytes dtype := by
  obtain ⟨layerTypes, hlayers, h⟩ := Option.bind_eq_some_iff.mp h
  obtain ⟨layerType, hlayer, rfl⟩ := Option.map_eq_some_iff.mp hlayers
  obtain ⟨geometries, hgeometries, h⟩ := Option.bind_eq_some_iff.mp h
  rw [List.mapM_cons] at hgeometries
  obtain ⟨geometry, hgeometry, hrest⟩ := Option.bind_eq_some_iff.mp hgeometries
  obtain rfl := Option.some.inj hrest
  obtain rfl := Option.some.inj h
  exact ⟨layerType, geometry, hlayer, hgeometry, rfl⟩

theorem isFullAttention_of_layer {layerType : LayerType}
    (h : config.layerTypes[blockIndex]? = some layerType) :
    isFullAttention config (some blockIndex) = some (layerType == .fullAttention) := by
  unfold isFullAttention
  dsimp only
  rw [h]
  rfl

/-- `Qwen3_5HybridCache` on a full-attention layer. -/
theorem qwen3_5Estimate_of_full (hlayer : config.layerTypes[blockIndex]? = some .fullAttention)
    (h : qwen3_5Estimate config maxLength dtype (some blockIndex) = some estimate) :
    standardEstimate config maxLength dtype = some estimate := by
  obtain ⟨standardBytes, hstandard, h⟩ := Option.bind_eq_some_iff.mp h
  rw [isFullAttention_of_layer hlayer] at h
  rw [hstandard]
  exact h

/-- `Qwen3_5HybridCache` on a linear-attention layer. -/
theorem qwen3_5Estimate_of_linear {mixer : GatedDeltaNet}
    (hbuilt : (Block.linearAttention mixer).BuiltFrom config blockIndex)
    (h : qwen3_5Estimate config maxLength dtype (some blockIndex) = some estimate) :
    ∃ standardBytes, standardEstimate config maxLength dtype = some standardBytes ∧
      estimate = max standardBytes (mixer.stateBytes dtype ((resolveStateDtype config).getD .float32)) := by
  obtain ⟨hlayer, rfl⟩ := hbuilt
  obtain ⟨standardBytes, hstandard, h⟩ := Option.bind_eq_some_iff.mp h
  rw [isFullAttention_of_layer hlayer] at h
  change (resolveStateDtype config).bind _ = some estimate at h
  obtain ⟨stateDtype, hstate, h⟩ := Option.bind_eq_some_iff.mp h
  obtain rfl := Option.some.inj h
  refine ⟨standardBytes, hstandard, ?_⟩
  rw [hstate, Option.getD_some]
  rfl

/-- The estimate against the geometry of the block. -/
theorem cacheBytes_le_estimate_iff
    (hbuilt : config.family.kvCacheStrategy = .qwen3_5HybridCache → block.BuiltFrom config blockIndex)
    (h : config.family.kvCacheStrategy.estimateCacheBytes config maxLength dtype (some blockIndex) =
      some estimate)
    (hlinear : ∀ mixer, block = .linearAttention mixer →
      config.family.kvCacheStrategy = .qwen3_5HybridCache) :
    block.cacheBytes config dtype maxLength ≤ estimate ↔
      maxLength = 0 ∨ EstimateFits config block blockIndex dtype maxLength := by
  unfold EstimateFits Block.cacheBytes
  cases block with
  | linearAttention mixer =>
    have hstrategy := hlinear mixer rfl
    rw [hstrategy] at h hbuilt
    rw [hstrategy]
    obtain ⟨standardBytes, hstandard, rfl⟩ := qwen3_5Estimate_of_linear (hbuilt rfl) h
    have hvirtual : config.virtualBytes dtype maxLength =
        config.numKeyValueHeads * (2 * config.headDim.getD 0) * maxLength * getSizeInBytes dtype := by
      unfold BlockConfig.virtualBytes
      ring
    have hcovers : config.virtualBytes dtype maxLength ≤ standardBytes ↔ maxLength = 0 ∨
        config.numKeyValueGroups.getD 0 * (config.numKeyValueHeads * config.headDim.getD 0) ≤
          config.hiddenSize := by
      rw [hvirtual]
      exact standardEstimate_covers_iff hstandard
    dsimp only
    rw [max_le_iff, le_max_iff, le_max_iff, hcovers]
    constructor
    · rintro ⟨-, (h | h) | h⟩
      · exact Or.inl h
      · exact Or.inr (Or.inl h)
      · exact Or.inr (Or.inr h)
    · intro h
      refine ⟨Or.inr le_rfl, ?_⟩
      rcases h with h | h | h
      · exact Or.inl (Or.inl h)
      · exact Or.inl (Or.inr h)
      · exact Or.inr h
  | attention headDim groups =>
    cases hstrategy : config.family.kvCacheStrategy with
    | mlaCache =>
      rw [hstrategy] at h
      obtain ⟨hgroups, rfl⟩ := standardEstimate_eq_some h
      exact mul_size_le_floor_iff hgroups
    | gemma4Cache =>
      rw [hstrategy] at h
      obtain ⟨layerType, geometry, hlayer, hgeometry, rfl⟩ := gemma4Estimate_eq_some h
      dsimp only
      rw [hlayer, Nat.mul_le_mul_right_iff (getSizeInBytes_pos dtype)]
      rcases Nat.eq_zero_or_pos maxLength with hzero | hpos
      · simp [hzero]
      · rw [Nat.mul_le_mul_right_iff hpos, or_iff_right hpos.ne']
        generalize (Block.attention headDim groups).kvHeads config = numHeads
        generalize (Block.attention headDim groups).headDim config = dim
        rw [show numHeads * (2 * dim) = 2 * (numHeads * dim) by ring,
          show 2 * geometry.1 * geometry.2 = 2 * (geometry.1 * geometry.2) by ring,
          Nat.mul_le_mul_left_iff (by decide)]
        constructor
        · intro h _ hlayer' _ hgeometry'
          obtain rfl := Option.some.inj hlayer'
          obtain rfl := Option.some.inj (hgeometry.symm.trans hgeometry')
          exact h
        · intro h
          exact h layerType rfl geometry hgeometry
    | standardGQACache =>
      rw [hstrategy] at h
      exact standardEstimate_covers_iff h
    | qwen3_5HybridCache =>
      rw [hstrategy] at h hbuilt
      exact standardEstimate_covers_iff (qwen3_5Estimate_of_full (hbuilt rfl) h)

/-- **When the estimate of a block never under-reports**, for every config, block, dtype and length. -/
theorem never_under_reports_iff
    (hbuilt : config.family.kvCacheStrategy = .qwen3_5HybridCache → block.BuiltFrom config blockIndex)
    (hestimate : (config.family.kvCacheStrategy.estimateCacheBytes config maxLength dtype
      (some blockIndex)).isSome = true)
    (hloaded : (getInferenceCacheDescriptors config block dtype device 1 maxLength).isSome = true) :
    NeverUnderReports config block blockIndex dtype device maxLength ↔
      maxLength = 0 ∨ EstimateFits config block blockIndex dtype maxLength := by
  obtain ⟨estimate, hestimate⟩ := Option.isSome_iff_exists.mp hestimate
  obtain ⟨descriptors, hdescriptors⟩ := Option.isSome_iff_exists.mp hloaded
  obtain ⟨hne, hdevice, hbytes⟩ := descriptors_bytes hdescriptors
  have hallocated := getAllocationSize_of_device hne hdevice
  rw [hbytes] at hallocated
  have hlinear : ∀ mixer, block = .linearAttention mixer →
      config.family.kvCacheStrategy = .qwen3_5HybridCache := by
    rintro mixer rfl
    unfold getInferenceCacheDescriptors KVCacheStrategy.getCacheDescriptors at hdescriptors
    cases hstrategy : config.family.kvCacheStrategy with
    | qwen3_5HybridCache => rfl
    | standardGQACache | mlaCache | gemma4Cache =>
      rw [hstrategy] at hdescriptors
      cases hdescriptors
  rw [← cacheBytes_le_estimate_iff hbuilt hestimate hlinear]
  constructor
  · intro h
    exact h estimate descriptors _ hestimate hdescriptors hallocated
  · intro h estimate' descriptors' allocated hestimate' hdescriptors' hallocated'
    obtain rfl := Option.some.inj (hestimate.symm.trans hestimate')
    obtain rfl := Option.some.inj (hdescriptors.symm.trans hdescriptors')
    obtain rfl := Option.some.inj (hallocated.symm.trans hallocated')
    exact h

/-! ### Announced tokens -/

/-- A client that finds room for its tokens in what the announcer computed finds room in the cache, for
a session over all blocks of the server. -/
def AdvertisedCacheIsReal (config : BlockConfig) (blocks : List Block) (dtype : Dtype) (device : Nat) :
    Prop :=
  ∀ (cache : MemoryCache) maxLength perToken tokens descriptors allocated, 1 ≤ maxLength →
    bytesPerToken config dtype = some perToken →
    cacheTokensLeft cache perToken = some tokens →
    hasCacheFor blocks.length (some tokens) (some maxLength) = true →
    spanDescriptors config blocks dtype device maxLength = some descriptors →
    getAllocationSize descriptors = some allocated →
    (allocated : Int) ≤ cache.bytesLeft

/-- A block never takes more than its first token a token: attention takes as much for each, and a
recurrent state does not grow. -/
theorem cacheBytes_le_mul (hpos : 1 ≤ maxLength) :
    block.cacheBytes config dtype maxLength ≤ maxLength * block.cacheBytes config dtype 1 := by
  unfold Block.cacheBytes
  cases block with
  | linearAttention mixer =>
    dsimp only
    have hvirtual : config.virtualBytes dtype maxLength = maxLength * config.virtualBytes dtype 1 := by
      unfold BlockConfig.virtualBytes
      ring
    rw [hvirtual]
    refine max_le ?_ (Nat.mul_le_mul_left _ (le_max_right _ _))
    calc mixer.stateBytes dtype ((resolveStateDtype config).getD .float32)
        ≤ 1 * max (mixer.stateBytes dtype ((resolveStateDtype config).getD .float32))
            (config.virtualBytes dtype 1) := by
          rw [one_mul]
          exact le_max_left _ _
      _ ≤ _ := Nat.mul_le_mul_right _ hpos
  | attention headDim groups =>
    dsimp only
    split
    · exact le_of_eq (by ring)
    · exact le_of_eq (by ring)

theorem spanDescriptors_cons_eq_some {blocks : List Block} {descriptors : List TensorDescriptor}
    (h : spanDescriptors config (block :: blocks) dtype device maxLength = some descriptors) :
    ∃ first rest, getInferenceCacheDescriptors config block dtype device 1 maxLength = some first ∧
      spanDescriptors config blocks dtype device maxLength = some rest ∧ descriptors = first ++ rest := by
  obtain ⟨parts, hparts, hflat⟩ := Option.bind_eq_some_iff.mp h
  obtain rfl := Option.some.inj hflat
  rw [List.mapM_cons] at hparts
  obtain ⟨first, hfirst, hparts⟩ := Option.bind_eq_some_iff.mp hparts
  obtain ⟨rest, hrest, hparts⟩ := Option.bind_eq_some_iff.mp hparts
  obtain rfl := Option.some.inj hparts
  exact ⟨first, rest.flatten, hfirst, Option.bind_eq_some_iff.mpr ⟨rest, hrest, rfl⟩, rfl⟩

/-- What a session over several blocks takes. -/
theorem spanDescriptors_bytes {blocks : List Block} {descriptors : List TensorDescriptor}
    (hblocks : blocks ≠ [])
    (h : spanDescriptors config blocks dtype device maxLength = some descriptors) :
    getAllocationSize descriptors = some (blocks.map (Block.cacheBytes config dtype maxLength)).sum := by
  have hall : ∀ blocks descriptors,
      spanDescriptors config blocks dtype device maxLength = some descriptors →
        (∀ descr ∈ descriptors, descr.device = device) ∧
        (descriptors.map TensorDescriptor.bytes).sum =
          (blocks.map (Block.cacheBytes config dtype maxLength)).sum := by
    intro blocks
    induction blocks with
    | nil =>
      intro descriptors h
      obtain rfl := Option.some.inj h
      exact ⟨fun descr h => (by cases h), rfl⟩
    | cons block blocks ih =>
      intro descriptors h
      obtain ⟨first, rest, hfirst, hrest, rfl⟩ := spanDescriptors_cons_eq_some h
      obtain ⟨-, hdevice, hbytes⟩ := descriptors_bytes hfirst
      obtain ⟨hdevices, hsum⟩ := ih rest hrest
      refine ⟨fun descr hdescr => ?_, ?_⟩
      · rcases List.mem_append.mp hdescr with hdescr | hdescr
        · exact hdevice descr hdescr
        · exact hdevices descr hdescr
      · rw [List.map_append, List.sum_append, hbytes, hsum, List.map_cons, List.sum_cons]
  have hne : descriptors ≠ [] := by
    obtain ⟨block, rest, rfl⟩ := List.exists_cons_of_ne_nil hblocks
    obtain ⟨first, rest, hfirst, -, rfl⟩ := spanDescriptors_cons_eq_some h
    exact List.append_ne_nil_of_left_ne_nil (descriptors_bytes hfirst).1 _
  obtain ⟨hdevices, hsum⟩ := hall blocks descriptors h
  rw [getAllocationSize_of_device hne hdevices, hsum]

/-- **When announced tokens are there**: the first token of all blocks takes at most `bytes_per_token`
for each of the two tensors of each block. -/
theorem advertised_cache_iff {blocks : List Block} {perToken : Nat}
    (hperToken : bytesPerToken config dtype = some perToken) (hblocks : blocks ≠ [])
    (hloaded : (spanDescriptors config blocks dtype device 1).isSome = true) :
    AdvertisedCacheIsReal config blocks dtype device ↔
      perToken = 0 ∨
        (blocks.map (Block.cacheBytes config dtype 1)).sum ≤ 2 * blocks.length * perToken := by
  constructor
  · intro h
    rcases Nat.eq_zero_or_pos perToken with hzero | hpos
    · exact Or.inl hzero
    right
    -- the least cache for which a client that needs one token finds room
    obtain ⟨descriptors, hdescriptors⟩ := Option.isSome_iff_exists.mp hloaded
    let cache := MemoryCache.initial (2 * blocks.length * perToken)
    have hleft : cache.bytesLeft = ((2 * blocks.length * perToken : Nat) : Int) := Int.sub_zero _
    have htokens : cacheTokensLeft cache perToken = some ((2 * blocks.length : Nat) : Int) := by
      unfold cacheTokensLeft
      rw [if_neg hpos.ne', hleft, Int.fdiv_eq_ediv_of_nonneg _ (Int.natCast_nonneg _), ← Int.natCast_ediv,
        Nat.mul_div_cancel _ hpos]
    have hroom : hasCacheFor blocks.length (some ((2 * blocks.length : Nat) : Int)) (some 1) = true :=
      decide_eq_true (by rw [one_mul])
    have hfits := h cache 1 perToken _ descriptors _ le_rfl hperToken htokens hroom hdescriptors
      (spanDescriptors_bytes hblocks hdescriptors)
    rw [hleft] at hfits
    exact Int.ofNat_le.mp hfits
  · rintro (rfl | hsum) cache maxLength perToken' tokens descriptors allocated hpos hperToken' htokens hroom
      hdescriptors hallocated
    · obtain rfl := Option.some.inj (hperToken.symm.trans hperToken')
      cases htokens
    obtain rfl := Option.some.inj (hperToken.symm.trans hperToken')
    unfold cacheTokensLeft at htokens
    split at htokens
    next => cases htokens
    next hne =>
      obtain rfl := Option.some.inj htokens
      have hneeded := of_decide_eq_true hroom
      rw [Int.fdiv_eq_ediv_of_nonneg _ (Int.natCast_nonneg _),
        Int.le_ediv_iff_mul_le (Int.natCast_pos.mpr (Nat.pos_of_ne_zero hne))] at hneeded
      push_cast at hneeded
      refine le_trans (b := ((maxLength * 2 * blocks.length * perToken : Nat) : Int)) ?_ (by exact_mod_cast hneeded)
      refine Int.ofNat_le.mpr ?_
      rw [← Option.some.inj ((spanDescriptors_bytes hblocks hdescriptors).symm.trans hallocated)]
      calc (blocks.map (Block.cacheBytes config dtype maxLength)).sum
          ≤ (blocks.map fun block => maxLength * block.cacheBytes config dtype 1).sum :=
            List.sum_le_sum fun block _ => cacheBytes_le_mul hpos
        _ = maxLength * (blocks.map (Block.cacheBytes config dtype 1)).sum := by
            rw [List.sum_map_mul_left]
        _ ≤ maxLength * (2 * blocks.length * perToken) := Nat.mul_le_mul_left _ hsum
        _ = maxLength * 2 * blocks.length * perToken := by ring

end Estimates

/-! ### Heads wider than the hidden size -/

/-- Qwen3-4B: 32 heads of dimension 128 over a hidden size of 2560. -/
def wideHeads : BlockConfig where
  family := .qwen3
  hiddenSize := 2560
  numAttentionHeads := 32
  numKeyValueHeads := 8
  headDim := some 128
  newDecoderArchitecture := false
  multiQuery := false
  numKvHeads := 0
  layerTypes := []
  numGlobalKeyValueHeads := none
  globalHeadDim := none
  qkNopeHeadDim := 0
  qkRopeHeadDim := 0
  vHeadDim := 0
  linearNumKeyHeads := 0
  linearKeyHeadDim := 0
  linearNumValueHeads := 0
  linearValueHeadDim := 0
  linearConvKernelDim := 0
  mambaSsmDtype := none

/-- The attention of its blocks. -/
def wideBlock : Block := .attention (some 128) (some 4)

/-- The same with heads of dimension 80. -/
def narrowHeads : BlockConfig := { wideHeads with headDim := some 80 }

def narrowBlock : Block := .attention (some 80) (some 4)

theorem never_under_reports_of_narrow_heads :
    NeverUnderReports narrowHeads narrowBlock 0 .bfloat16 0 16384 :=
  (never_under_reports_iff (fun h => (by cases h)) (by decide +kernel) (by decide +kernel)).mpr
    (Or.inr (show 4 * (8 * 80) ≤ 2560 by decide))

/-- A block of `wideHeads` is estimated at 2560 bytes a token and takes 4096. -/
theorem wide_heads_under_reported :
    ¬ ∀ config block blockIndex dtype device maxLength,
      NeverUnderReports config block blockIndex dtype device maxLength := by
  intro h
  have hfits := h wideHeads wideBlock 0 .bfloat16 0 1 2560 [⟨[1, 8, 128, 1], .bfloat16, 0⟩,
    ⟨[1, 8, 1, 128], .bfloat16, 0⟩] 4096 (by decide +kernel) (by decide +kernel) (by decide +kernel)
  exact absurd hfits (by decide)

theorem advertised_cache_of_narrow_heads :
    AdvertisedCacheIsReal narrowHeads [narrowBlock, narrowBlock] .bfloat16 0 :=
  (advertised_cache_iff (show bytesPerToken narrowHeads .bfloat16 = some 1280 by decide +kernel) (List.cons_ne_nil _ _)
    (by decide +kernel)).mpr (Or.inr (by decide +kernel))

/-- With 2560 bytes left two tokens are announced; a client that needs one finds room for it, and its
session takes 4096 bytes. -/
theorem wide_heads_advertised :
    ¬ ∀ config blocks dtype device, AdvertisedCacheIsReal config blocks dtype device := by
  intro h
  have hfits := h wideHeads [wideBlock] .bfloat16 0 (MemoryCache.initial 2560) 1 1280 2
    [⟨[1, 8, 128, 1], .bfloat16, 0⟩, ⟨[1, 8, 1, 128], .bfloat16, 0⟩] 4096 le_rfl (by decide +kernel)
    (by decide +kernel) (by decide +kernel) (by decide +kernel) (by decide +kernel)
  exact absurd hfits (by decide)

end Drift.Server
