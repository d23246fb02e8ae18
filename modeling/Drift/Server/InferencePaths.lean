import Mathlib
import Drift.Server.InferenceStep

/-!
# The two paths through a span

A span served as one task of the merged pool and as a task for each block runs the same blocks on the
same cache. What differs is the dictionary of shared keys and values: a merged task has one for the
whole span, so a consumer finds what a donor before it has written; the tasks of single blocks are each
given the dictionary the request came with.

* `Wrote`, `forward_agree` … `mergedTurn_agree` — a block does the same on two dictionaries that agree
  on what it reads, and writes the same;
* `loops_agree` — the simulation: as long as no block reads what the span has written, the two loops
  go together;
* `raises_of_not_fed` — where a consumer gets its keys and values from nowhere, both paths raise;
* `paths_agree_iff` — the spans for which the two paths agree.
-/

namespace Drift.Server

open Drift.Lib

variable {N : Numerics}

/-! ### What a block reads and writes -/

/-- What a block does with the shared dictionary: nothing, store its keys and values under a type, or
read those of a type. -/
inductive BlockKind
  | plain
  | donor (layerType : String)
  | consumer (layerType : String)
  deriving DecidableEq, Repr

namespace BlockKind

def donates : BlockKind → List String
  | donor layerType => [layerType]
  | _ => []

def consumes : BlockKind → List String
  | consumer layerType => [layerType]
  | _ => []

end BlockKind

/-- The kind of a block. -/
def Module.kind : Module N → BlockKind
  | .plain _ => .plain
  | .donor layerType _ => .donor layerType
  | .consumer layerType _ => .consumer layerType

@[simp] theorem donorLayerTypes_eq (m : Module N) : m.donorLayerTypes = m.kind.donates := by
  cases m <;> rfl

/-- No block reads the type it writes. -/
theorem BlockKind.notMem_donates {k : BlockKind} {t : String} (h : t ∈ k.consumes) :
    t ∉ k.donates := by
  cases k with
  | plain => exact List.not_mem_nil
  | donor _ => cases h
  | consumer _ => exact List.not_mem_nil

/-- A block of kind `k` took the dictionaries `d` and `d'` to `e` and `e'`: it left all types but the
one it donates, and under that one it has written the same. -/
structure Wrote (k : BlockKind) (d d' e e' : SharedKv N.Tensor) : Prop where
  kept : ∀ t, t ∉ k.donates → e.lookup t = d.lookup t ∧ e'.lookup t = d'.lookup t
  wrote : ∀ t ∈ k.donates, e.lookup t = e'.lookup t ∧ t ∈ e

theorem Wrote.trans {k : BlockKind} {d d' e e' f f' : SharedKv N.Tensor} (h₁ : Wrote k d d' e e')
    (h₂ : Wrote k e e' f f') : Wrote k d d' f f' where
  kept t ht :=
    ⟨(h₂.kept t ht).1.trans (h₁.kept t ht).1, (h₂.kept t ht).2.trans (h₁.kept t ht).2⟩
  wrote := h₂.wrote

/-- The dictionaries agree on what a block of kind `k` reads. -/
def ReadsSame (k : BlockKind) (d d' : SharedKv N.Tensor) : Prop :=
  ∀ t ∈ k.consumes, d.lookup t = d'.lookup t

theorem ReadsSame.refl (k : BlockKind) (d : SharedKv N.Tensor) : ReadsSame k d d := fun _ _ => rfl

theorem ReadsSame.after {k : BlockKind} {d d' e e' : SharedKv N.Tensor} (h : ReadsSame k d d')
    (hwrote : Wrote k d d' e e') : ReadsSame k e e' := by
  intro t ht
  obtain ⟨hleft, hright⟩ := hwrote.kept t (BlockKind.notMem_donates ht)
  rw [hleft, hright]
  exact h t ht

/-- **A block.** On dictionaries that agree on what it reads it returns the same. -/
theorem forward_agree (m : Module N) (adapter : Option String) (xs : List N.Token)
    (layerPast : Option N.Kv) (perLayerInput : Option (List N.LayerInput))
    {d d' : SharedKv N.Tensor} (hreads : ReadsSame m.kind d d') :
    Agree (fun a b => a.tokens = b.tokens ∧ a.newKvs = b.newKvs ∧
        Wrote m.kind d d' a.sharedKv b.sharedKv)
      (m.forward adapter xs layerPast perLayerInput d)
      (m.forward adapter xs layerPast perLayerInput d') := by
  cases m with
  | plain compute =>
    apply Agree.bind_same
    intro out hout
    exact Agree.ok ⟨rfl, rfl, ⟨fun t _ => ⟨rfl, rfl⟩, fun t ht => by cases ht⟩⟩
  | donor layerType compute =>
    apply Agree.bind_same
    intro out hout
    refine Agree.ok ⟨rfl, rfl, ⟨fun t ht => ?_, fun t ht => ?_⟩⟩
    · have hne : t ≠ layerType := fun heq => ht (List.mem_singleton.mpr heq)
      exact ⟨AList.lookup_insert_ne hne, AList.lookup_insert_ne hne⟩
    · obtain rfl : t = layerType := List.mem_singleton.mp ht
      exact ⟨by rw [AList.lookup_insert, AList.lookup_insert], AList.mem_insert _ |>.mpr (.inl rfl)⟩
  | consumer layerType compute =>
    have hsame : d.lookup layerType = d'.lookup layerType :=
      hreads layerType (List.mem_singleton.mpr rfl)
    simp only [Module.forward, ← hsame]
    cases d.lookup layerType with
    | none => exact Agree.error
    | some keyValue =>
      apply Agree.bind_same
      intro out hout
      exact Agree.ok ⟨rfl, rfl, ⟨fun t _ => ⟨rfl, rfl⟩, fun t ht => by cases ht⟩⟩

/-- A block that returns has found what it reads. -/
theorem forward_reads {m : Module N} {adapter : Option String} {xs : List N.Token}
    {layerPast : Option N.Kv} {perLayerInput : Option (List N.LayerInput)}
    {d : SharedKv N.Tensor} {out : Forwarded N xs}
    (h : m.forward adapter xs layerPast perLayerInput d = .ok out) :
    ∀ t ∈ m.kind.consumes, t ∈ d := by
  cases m with
  | plain compute => intro t ht; cases ht
  | donor layerType compute => intro t ht; cases ht
  | consumer layerType compute =>
    intro t ht
    obtain rfl : t = layerType := List.mem_singleton.mp ht
    rw [← AList.lookup_isSome]
    simp only [Module.forward] at h
    split at h
    · cases h
    · next hlookup => rw [hlookup]; rfl

/-! ### One block of a task -/

section Chunks

variable (m : Module N) (adapter : Option String) (xs : List N.Token)
  (perLayerInput : Option (List N.LayerInput)) (maxChunkLength : Nat)

/-- The dictionary that goes from chunk to chunk; `none` is that of a paged step. -/
def WroteAll (k : BlockKind) (d d' : SharedKv N.Tensor) (e e' : Option (SharedKv N.Tensor)) : Prop :=
  ∃ f f', e = some f ∧ e' = some f' ∧ Wrote k d d' f f'

/-- At least one chunk of a block: it returns the same, and has written the same. -/
theorem forwardChunks_agree :
    ∀ (offsets : List Nat) (offset : Nat) (layerPast : Option N.Kv) (d d' : SharedKv N.Tensor),
      ReadsSame m.kind d d' →
        Agree (fun a b => a.1 = b.1 ∧ a.2.1 = b.2.1 ∧ WroteAll m.kind d d' a.2.2 b.2.2)
          (forwardChunks m adapter xs perLayerInput maxChunkLength (offset :: offsets) layerPast
            (some d))
          (forwardChunks m adapter xs perLayerInput maxChunkLength (offset :: offsets) layerPast
            (some d')) := by
  intro offsets
  induction offsets with
  | nil =>
    intro offset layerPast d d' hreads
    apply Agree.bind (forward_agree m adapter _ layerPast _ hreads)
    rintro a b - - ⟨htokens, hkvs, hwrote⟩
    refine Agree.ok ⟨?_, hkvs, _, _, rfl, rfl, hwrote⟩
    rw [htokens]
  | cons next offsets ih =>
    intro offset layerPast d d' hreads
    apply Agree.bind (forward_agree m adapter _ layerPast _ hreads)
    rintro a b - - ⟨htokens, hkvs, hwrote⟩
    rw [hkvs]
    apply Agree.bind (ih next b.newKvs a.sharedKv b.sharedKv (hreads.after hwrote))
    rintro ⟨ys, newKvs, e⟩ ⟨zs, newKvs', e'⟩ - - ⟨hys, hnew, f, f', he, he', hrest⟩
    refine Agree.ok ⟨?_, hnew, f, f', he, he', hwrote.trans hrest⟩
    show a.tokens.val ++ ys = b.tokens.val ++ zs
    rw [htokens, show ys = zs from hys]

/-- Chunks that return have found what the block reads. -/
theorem forwardChunks_reads {offset : Nat} {offsets : List Nat} {layerPast : Option N.Kv}
    {d : SharedKv N.Tensor} {out : List N.Token × Option N.Kv × Option (SharedKv N.Tensor)}
    (h : forwardChunks m adapter xs perLayerInput maxChunkLength (offset :: offsets) layerPast
      (some d) = .ok out) : ∀ t ∈ m.kind.consumes, t ∈ d := by
  obtain ⟨first, hfirst, -⟩ := bind_eq_ok.mp h
  exact forward_reads hfirst

/-- The tokens of all chunks are as many as the chunks have. -/
theorem forwardChunks_length :
    ∀ (offsets : List Nat) (layerPast : Option N.Kv) (shared : Option (SharedKv N.Tensor)) out,
      forwardChunks m adapter xs perLayerInput maxChunkLength offsets layerPast shared = .ok out →
        out.1.length = (offsets.map fun o => (slice xs o maxChunkLength).length).sum := by
  intro offsets
  induction offsets with
  | nil =>
    rintro layerPast shared _ ⟨⟩
    rfl
  | cons offset offsets ih =>
    intro layerPast shared out h
    obtain ⟨first, -, h⟩ := bind_eq_ok.mp h
    obtain ⟨rest, hrest, h⟩ := bind_eq_ok.mp h
    cases h
    calc (first.tokens.val ++ rest.1).length
      _ = first.tokens.val.length + rest.1.length := List.length_append
      _ = (slice xs offset maxChunkLength).length + rest.1.length := by rw [first.tokens.property]
      _ = _ := by rw [ih _ _ rest hrest, List.map_cons, List.sum_cons]

end Chunks

/-- The first `n` chunks are the first `n * step` elements. -/
theorem sum_slices_range {α : Type} (xs : List α) (step n : Nat) :
    ((List.range n).map fun i => (slice xs (i * step) step).length).sum =
      min (n * step) xs.length := by
  induction n with
  | zero => simp
  | succ n ih =>
    rw [List.range_succ, List.map_append, List.sum_append, ih]
    simp only [slice, List.map_cons, List.map_nil, List.sum_cons, List.sum_nil, List.length_take,
      List.length_drop, Nat.succ_mul]
    omega

/-- The chunks are all of the input. -/
theorem sum_slices {α : Type} (xs : List α) {step : Nat} (hstep : 0 < step) :
    ((steppedRange xs.length step).map fun o => (slice xs o step).length).sum = xs.length := by
  rw [steppedRange, List.map_map]
  have hcover : xs.length ≤ (xs.length + step - 1) / step * step := by
    have hdiv := Nat.div_add_mod (xs.length + step - 1) step
    have hmod := Nat.mod_lt (xs.length + step - 1) hstep
    rw [Nat.mul_comm] at hdiv
    omega
  exact (sum_slices_range xs step _).trans (min_eq_right hcover)

/-- There is a first chunk where there is a token. -/
theorem steppedRange_eq_cons {stop step : Nat} (hstop : 0 < stop) (hstep : 0 < step) :
    ∃ offset offsets, steppedRange stop step = offset :: offsets := by
  have hcount : 0 < (stop + step - 1) / step := Nat.div_pos (by omega) hstep
  obtain ⟨n, hn⟩ := Nat.exists_eq_succ_of_ne_zero hcount.ne'
  rw [steppedRange, hn, List.range_succ_eq_map, List.map_cons]
  exact ⟨_, _, rfl⟩

namespace Backend

theorem estimateMaxChunkLength_pos {b : Backend N} {batchSize seqLength : Nat}
    {prefixLength : Int} {n : Nat}
    (h : b.estimateMaxChunkLength batchSize seqLength prefixLength = .ok n) : 0 < n := by
  unfold estimateMaxChunkLength at h
  dsimp only at h
  split at h
  · cases h
  · cases h
    omega

end Backend

/-- A chunked pass agrees with itself on dictionaries that hold the same for the block. -/
theorem forwardChunked_agree (m : Module N) (adapter : Option String) (xs : List N.Token)
    (layerPast : Option N.Kv) {maxChunkLength : Nat} (hpos : 0 < maxChunkLength)
    (perLayerInput : Option (List N.LayerInput)) {d d' : SharedKv N.Tensor}
    (hreads : ReadsSame m.kind d d') :
    Agree (fun a b => a.1 = b.1 ∧ a.2.1 = b.2.1 ∧ WroteAll m.kind d d' a.2.2 b.2.2)
      (forwardChunked m adapter xs layerPast maxChunkLength perLayerInput (some d))
      (forwardChunked m adapter xs layerPast maxChunkLength perLayerInput (some d')) := by
  unfold forwardChunked
  split
  · exact Agree.error
  · next hne =>
    have hlength : 0 < xs.length := by
      rw [List.length_pos_iff]
      exact fun h => hne (List.isEmpty_iff.mpr h)
    obtain ⟨offset, offsets, heq⟩ := steppedRange_eq_cons hlength hpos
    rw [heq]
    exact forwardChunks_agree m adapter xs perLayerInput maxChunkLength offsets offset layerPast
      d d' hreads

theorem forwardChunked_reads {m : Module N} {adapter : Option String} {xs : List N.Token}
    {layerPast : Option N.Kv} {maxChunkLength : Nat} (hpos : 0 < maxChunkLength)
    {perLayerInput : Option (List N.LayerInput)} {d : SharedKv N.Tensor}
    {out : List N.Token × Option N.Kv × Option (SharedKv N.Tensor)}
    (h : forwardChunked m adapter xs layerPast maxChunkLength perLayerInput (some d) = .ok out) :
    ∀ t ∈ m.kind.consumes, t ∈ d := by
  unfold forwardChunked at h
  split at h
  · cases h
  · next hne =>
    have hlength : 0 < xs.length := by
      rw [List.length_pos_iff]
      exact fun h => hne (List.isEmpty_iff.mpr h)
    obtain ⟨offset, offsets, heq⟩ := steppedRange_eq_cons hlength hpos
    rw [heq] at h
    exact forwardChunks_reads m adapter xs perLayerInput maxChunkLength h

theorem forwardChunked_length {m : Module N} {adapter : Option String} {xs : List N.Token}
    {layerPast : Option N.Kv} {maxChunkLength : Nat} (hpos : 0 < maxChunkLength)
    {perLayerInput : Option (List N.LayerInput)} {shared : Option (SharedKv N.Tensor)}
    {out : List N.Token × Option N.Kv × Option (SharedKv N.Tensor)}
    (h : forwardChunked m adapter xs layerPast maxChunkLength perLayerInput shared = .ok out) :
    out.1.length = xs.length := by
  unfold forwardChunked at h
  split at h
  · cases h
  · rw [forwardChunks_length m adapter xs perLayerInput maxChunkLength _ _ _ _ h]
    exact sum_slices xs hpos

/-- **A block of a contiguous cache.** On dictionaries that agree on what it reads it gives the same
hidden states and the same cache. -/
theorem contiguousInferenceStep_agree (b : Backend N) (batchSize : Nat) (hypoIds : N.HypoIds)
    (info : InferenceMetadata N) (xs : List N.Token) (memory : N.Memory) {d d' : SharedKv N.Tensor}
    (hreads : ReadsSame b.module.kind d d') :
    Agree (fun a c => a.tokens = c.tokens ∧ a.memory = c.memory ∧
        Wrote b.module.kind d d' a.shared c.shared)
      (b.contiguousInferenceStep batchSize hypoIds info ⟨xs, d, memory⟩)
      (b.contiguousInferenceStep batchSize hypoIds info ⟨xs, d', memory⟩) := by
  unfold Backend.contiguousInferenceStep
  apply Agree.bind_same
  intro reordered _
  apply Agree.bind_same
  intro maxChunkLength hchunk
  apply Agree.bind_same
  intro layerPast _
  apply Agree.bind (forwardChunked_agree b.module _ xs layerPast
    (Backend.estimateMaxChunkLength_pos hchunk) info.perLayerInput hreads)
  rintro ⟨ys, newKvs, e⟩ ⟨zs, newKvs', e'⟩ - - ⟨hys, hnew, f, f', he, he', hwrote⟩
  dsimp only at hys hnew he he' ⊢
  subst hys hnew he he'
  apply Agree.bind_same
  intro updated _
  exact Agree.ok ⟨rfl, rfl, hwrote⟩

theorem contiguousInferenceStep_spec {b : Backend N} {batchSize : Nat} {hypoIds : N.HypoIds}
    {info : InferenceMetadata N} {s s' : Stage N}
    (h : b.contiguousInferenceStep batchSize hypoIds info s = .ok s') :
    s'.tokens.length = s.tokens.length ∧ ∀ t ∈ b.module.kind.consumes, t ∈ s.shared := by
  obtain ⟨reordered, -, h⟩ := bind_eq_ok.mp h
  obtain ⟨maxChunkLength, hchunk, h⟩ := bind_eq_ok.mp h
  obtain ⟨layerPast, -, h⟩ := bind_eq_ok.mp h
  obtain ⟨out, hout, h⟩ := bind_eq_ok.mp h
  obtain ⟨updated, -, h⟩ := bind_eq_ok.mp h
  cases h
  have hpos := Backend.estimateMaxChunkLength_pos hchunk
  exact ⟨forwardChunked_length hpos hout, forwardChunked_reads hpos hout⟩

/-- **A block of a paged cache.** It does not look at the dictionary. -/
theorem pagedInferenceStep_agree (b : Backend N) (batchSize : Nat) (hypoIds : N.HypoIds)
    (info : InferenceMetadata N) (xs : List N.Token) (memory : N.Memory)
    (d d' : SharedKv N.Tensor) :
    Agree (fun a c => a.tokens = c.tokens ∧ a.memory = c.memory ∧ a.shared = d ∧ c.shared = d')
      (b.pagedInferenceStep batchSize hypoIds info ⟨xs, d, memory⟩)
      (b.pagedInferenceStep batchSize hypoIds info ⟨xs, d', memory⟩) := by
  unfold Backend.pagedInferenceStep
  split
  · apply Agree.bind_same
    intro reordered _
    apply Agree.bind_same
    intro maxChunkLength _
    apply Agree.bind_same
    intro layerPast _
    apply Agree.bind_same
    rintro ⟨ys, newKvs, -⟩ _
    cases newKvs with
    | none => exact Agree.error
    | some newKvs =>
      apply Agree.bind_same
      intro updated _
      exact Agree.ok ⟨rfl, rfl, rfl, rfl⟩
  · exact Agree.error

theorem pagedInferenceStep_spec {b : Backend N} {batchSize : Nat} {hypoIds : N.HypoIds}
    {info : InferenceMetadata N} {s s' : Stage N}
    (h : b.pagedInferenceStep batchSize hypoIds info s = .ok s') :
    s'.tokens.length = s.tokens.length ∧ s'.shared = s.shared := by
  unfold Backend.pagedInferenceStep at h
  split at h
  · obtain ⟨reordered, -, h⟩ := bind_eq_ok.mp h
    obtain ⟨maxChunkLength, hchunk, h⟩ := bind_eq_ok.mp h
    obtain ⟨layerPast, -, h⟩ := bind_eq_ok.mp h
    obtain ⟨⟨ys, newKvs, e⟩, hout, h⟩ := bind_eq_ok.mp h
    cases newKvs with
    | none => cases h
    | some newKvs =>
      obtain ⟨updated, -, h⟩ := bind_eq_ok.mp h
      cases h
      exact ⟨forwardChunked_length (Backend.estimateMaxChunkLength_pos hchunk) hout, rfl⟩
  · cases h

theorem addPrompt_length :
    ∀ {xs prompt ys : List N.Token}, addPrompt xs prompt = .ok ys → ys.length = xs.length
  | [], [], _, rfl => rfl
  | _ :: _, [], _, rfl => rfl
  | [], _ :: _, _, h => by cases h
  | x :: xs, p :: prompt, ys, h => by
    obtain ⟨x', -, h⟩ := bind_eq_ok.mp h
    obtain ⟨xs', hxs, h⟩ := bind_eq_ok.mp h
    cases h
    rw [List.length_cons, List.length_cons, addPrompt_length hxs]

theorem addOptionalPrompt_length {xs ys : List N.Token} {prompt : Option (List N.Token)}
    (h : addOptionalPrompt xs prompt = .ok ys) : ys.length = xs.length := by
  cases prompt with
  | none =>
    cases h
    rfl
  | some prompt => exact addPrompt_length h

/-! ### The loops -/

/-- A turn took the dictionaries `d` and `d'` to `e` and `e'`. -/
def TurnWrote (paged : Bool) (k : BlockKind) (d d' e e' : SharedKv N.Tensor) : Prop :=
  if paged then e = d ∧ e' = d' else Wrote k d d' e e'

section Loops

variable (server : InferenceServer N) (batchSize : Nat) (hypoIds : N.HypoIds)

/-- The kind of the block with this uid. -/
def kindOf (uid : String) : BlockKind := (server.backends uid).module.kind

/-- A turn of the merged loop drops the tensors the block returns. -/
theorem mergedTurn_eq (info : InferenceMetadata N) (prompt : Option (List N.Token)) (s : Stage N) :
    server.mergedTurn batchSize hypoIds info prompt s =
      addOptionalPrompt s.tokens prompt >>= fun tokens =>
        if server.paged then
          (server.backends info.uid).pagedInferenceStep batchSize hypoIds info
            { s with tokens := tokens }
        else
          (server.backends info.uid).contiguousInferenceStep batchSize hypoIds info
            { s with tokens := tokens } := by
  unfold InferenceServer.mergedTurn Backend.inferenceStep
  cases server.paged <;> simp

/-- **A turn.** What a block does to the hidden states and to its cache depends on the dictionary only
through what it reads there. -/
theorem mergedTurn_agree (info : InferenceMetadata N) (prompt : Option (List N.Token))
    (xs : List N.Token) (memory : N.Memory) (d d' : SharedKv N.Tensor)
    (hreads : server.paged = false → ReadsSame (kindOf server info.uid) d d') :
    Agree (fun a c => a.tokens = c.tokens ∧ a.memory = c.memory ∧
        TurnWrote server.paged (kindOf server info.uid) d d' a.shared c.shared)
      (server.mergedTurn batchSize hypoIds info prompt ⟨xs, d, memory⟩)
      (server.mergedTurn batchSize hypoIds info prompt ⟨xs, d', memory⟩) := by
  rw [mergedTurn_eq, mergedTurn_eq]
  apply Agree.bind_same
  intro ys _
  unfold TurnWrote
  cases hpaged : server.paged with
  | true => exact pagedInferenceStep_agree _ batchSize hypoIds info ys memory d d'
  | false => exact contiguousInferenceStep_agree _ batchSize hypoIds info ys memory (hreads hpaged)

variable {server batchSize hypoIds}

/-- A turn that returns keeps the number of tokens and has found what its block reads. -/
theorem mergedTurn_spec {info : InferenceMetadata N} {prompt : Option (List N.Token)}
    {s s' : Stage N} (h : server.mergedTurn batchSize hypoIds info prompt s = .ok s') :
    s'.tokens.length = s.tokens.length ∧
      (server.paged = false → ∀ t ∈ (kindOf server info.uid).consumes, t ∈ s.shared) := by
  rw [mergedTurn_eq] at h
  obtain ⟨ys, hprompt, h⟩ := bind_eq_ok.mp h
  have hys := addOptionalPrompt_length hprompt
  split at h
  · next hpaged =>
    obtain ⟨hlength, -⟩ := pagedInferenceStep_spec h
    exact ⟨hlength.trans hys, fun hnot => absurd (hpaged.symm.trans hnot) (by decide)⟩
  · obtain ⟨hlength, hreads⟩ := contiguousInferenceStep_spec h
    exact ⟨hlength.trans hys, fun _ => hreads⟩

/-- What a turn that returns has done to its dictionary. -/
theorem mergedTurn_wrote {info : InferenceMetadata N} {prompt : Option (List N.Token)}
    {s s' : Stage N} (h : server.mergedTurn batchSize hypoIds info prompt s = .ok s') :
    TurnWrote server.paged (kindOf server info.uid) s.shared s.shared s'.shared s'.shared := by
  have hself := mergedTurn_agree server batchSize hypoIds info prompt s.tokens s.memory
    s.shared s.shared fun _ => ReadsSame.refl _ _
  rw [h] at hself
  exact hself.2.2

/-- The task of a single block is a turn, if it fits into the pool. -/
theorem submitTask_single {s : Stage N} (hfits : batchSize * s.tokens.length ≤ server.maxBatchSize)
    (info : InferenceMetadata N) (prompt : Option (List N.Token)) :
    server.submitTask batchSize hypoIds [info] [prompt] s =
      server.mergedTurn batchSize hypoIds info prompt s >>= fun s' =>
        .ok (s'.tokens, extractProducedSharedKv s'.shared s.shared.keys, s'.memory) := by
  unfold InferenceServer.submitTask InferenceServer.mergedInferenceStep
  have hloop : server.mergedLoop batchSize hypoIds [(info, prompt)] s =
      server.mergedTurn batchSize hypoIds info prompt s >>= pure := rfl
  rw [if_neg (not_lt.mpr hfits), if_pos (show [info].length = [prompt].length from rfl)]
  show server.mergedLoop batchSize hypoIds [(info, prompt)] s >>= _ = _
  rw [hloop, bind_pure]
  rfl

/-- The path block by block: a turn on the seeded dictionary, and what it has added to the seeds. -/
theorem perBlockPath_cons {seeds : SharedKv N.Tensor} {p : InferenceServer.Produced N}
    (hfits : batchSize * p.tokens.length ≤ server.maxBatchSize) (info : InferenceMetadata N)
    (prompt : Option (List N.Token)) (work : List (InferenceMetadata N × Option (List N.Token))) :
    server.perBlockPath batchSize hypoIds seeds ((info, prompt) :: work) p =
      server.mergedTurn batchSize hypoIds info prompt ⟨p.tokens, seeds, p.memory⟩ >>= fun b =>
        match unflattenSharedKv ((kindOf server info.uid).donates.filter (· ∉ seeds.keys))
            (extractProducedSharedKv b.shared seeds.keys) with
        | none => .error .assertionError
        | some sharedKv =>
          server.perBlockPath batchSize hypoIds seeds work
            ⟨b.tokens, b.memory, p.producedSharedKv.update sharedKv⟩ := by
  have htask : server.submitTask batchSize hypoIds [info] [prompt] ⟨p.tokens, seeds, p.memory⟩ = _ :=
    submitTask_single hfits info prompt
  rw [InferenceServer.perBlockPath, htask, bind_assoc]
  simp only [donorLayerTypes_eq]
  rfl

/-- A block donates at most one type, which needs no sorting. -/
theorem BlockKind.sorted_donates (k : BlockKind) (seeds : List String) :
    Dict.sorted (k.donates.filter (· ∉ seeds)) = k.donates.filter (· ∉ seeds) := by
  cases k with
  | plain => rfl
  | consumer layerType => rfl
  | donor layerType =>
    by_cases hseeded : layerType ∈ seeds
    · rw [show (donor layerType).donates.filter (· ∉ seeds) = [] by simp [donates, hseeded]]
      rfl
    · rw [show (donor layerType).donates.filter (· ∉ seeds) = [layerType] by
        simp [donates, hseeded]]
      rfl

theorem BlockKind.nodup_donates (k : BlockKind) : k.donates.Nodup := by
  cases k with
  | plain => exact List.nodup_nil
  | consumer layerType => exact List.nodup_nil
  | donor layerType => exact List.nodup_singleton layerType

/-- No block reads a type that an earlier block of the span donates. -/
def NoFeeding : List String → List BlockKind → Prop
  | _, [] => True
  | donated, k :: kinds =>
    (∀ t ∈ k.consumes, t ∉ donated) ∧ NoFeeding (k.donates ++ donated) kinds

/-- Every block that reads keys and values gets them from the request or from an earlier block. -/
def Fed : List String → List BlockKind → Prop
  | _, [] => True
  | known, k :: kinds => (∀ t ∈ k.consumes, t ∈ known) ∧ Fed (k.donates ++ known) kinds

/-- With a paged cache nothing reaches the dictionary, so nothing may be expected from it. -/
def Stored (paged : Bool) (seeds : SharedKv N.Tensor) (kinds : List BlockKind) : Prop :=
  paged = true → ∀ k ∈ kinds, ∀ t ∈ k.donates, t ∈ seeds

/-- What keeps the two dictionaries from mattering: no block reads what the span has written. -/
structure KeepsApart (paged : Bool) (seeds : SharedKv N.Tensor) (donated : List String)
    (kinds : List BlockKind) : Prop where
  stored : Stored paged seeds kinds
  apart : paged = false → NoFeeding donated kinds

theorem Stored.tail {paged : Bool} {seeds : SharedKv N.Tensor} {k : BlockKind}
    {kinds : List BlockKind} (h : Stored paged seeds (k :: kinds)) : Stored paged seeds kinds :=
  fun hpaged k' hk' => h hpaged k' (List.mem_cons_of_mem _ hk')

theorem KeepsApart.reads {paged : Bool} {seeds d : SharedKv N.Tensor} {donated : List String}
    {k : BlockKind} {kinds : List BlockKind} (h : KeepsApart paged seeds donated (k :: kinds))
    (hsame : ∀ t, t ∉ donated → d.lookup t = seeds.lookup t) :
    paged = false → ReadsSame k d seeds := by
  intro hpaged t ht
  exact hsame t ((h.apart hpaged).1 t ht)

theorem KeepsApart.tail {paged : Bool} {seeds : SharedKv N.Tensor} {donated : List String}
    {k : BlockKind} {kinds : List BlockKind} (h : KeepsApart paged seeds donated (k :: kinds)) :
    KeepsApart paged seeds (k.donates ++ donated) kinds :=
  ⟨h.stored.tail, fun hpaged => (h.apart hpaged).2⟩

/-- Off what the span has donated, the dictionary of the span stays the seeded one. -/
theorem TurnWrote.same {paged : Bool} {k : BlockKind} {seeds d e e' : SharedKv N.Tensor}
    {donated : List String} (h : TurnWrote paged k d seeds e e')
    (hsame : ∀ t, t ∉ donated → d.lookup t = seeds.lookup t) :
    ∀ t, t ∉ k.donates ++ donated → e.lookup t = seeds.lookup t := by
  intro t ht
  obtain ⟨hk, hdonated⟩ := not_or.mp (fun h => ht (List.mem_append.mpr h))
  cases paged with
  | true =>
    obtain ⟨rfl, rfl⟩ := h
    exact hsame t hdonated
  | false => exact ((h.kept t hk).1).trans (hsame t hdonated)

/-- What the span has donated beyond the seeds, after a block: what it had donated before, and what
the block by itself has added to the seeds. -/
theorem TurnWrote.produced {paged : Bool} {k : BlockKind} {seeds d e e' : SharedKv N.Tensor}
    (h : TurnWrote paged k d seeds e e') {t : String} (ht : t ∉ seeds) :
    (e'.lookup t).or (d.lookup t) = e.lookup t := by
  have hseeds : seeds.lookup t = none := AList.lookup_eq_none.mpr ht
  cases paged with
  | true =>
    obtain ⟨rfl, rfl⟩ := h
    rw [hseeds, Option.none_or]
  | false =>
    by_cases hk : t ∈ k.donates
    · obtain ⟨hsame, hmem⟩ := h.wrote t hk
      obtain ⟨v, hv⟩ := Option.isSome_iff_exists.mp (AList.lookup_isSome.mpr hmem)
      rw [← hsame, hv, Option.some_or]
    · obtain ⟨hleft, hright⟩ := h.kept t hk
      rw [hright, hseeds, Option.none_or, hleft]

/-- The types that a block by itself adds to the seeds are those it donates, but for the seeded. -/
theorem TurnWrote.types {paged : Bool} {k : BlockKind} {seeds e : SharedKv N.Tensor}
    {kinds : List BlockKind} (h : TurnWrote paged k seeds seeds e e)
    (hstored : Stored paged seeds (k :: kinds)) (t : String) :
    t ∈ k.donates.filter (· ∉ seeds.keys) ↔ t ∈ e ∧ t ∉ seeds.keys := by
  rw [List.mem_filter, decide_eq_true_eq]
  refine and_congr_left fun hseeds => ?_
  cases paged with
  | true =>
    obtain ⟨rfl, -⟩ := h
    have hnot : t ∉ k.donates := fun hk => hseeds (hstored rfl k List.mem_cons_self t hk)
    exact ⟨fun hk => absurd hk hnot, fun he => absurd he hseeds⟩
  | false =>
    constructor
    · exact fun hk => (h.wrote t hk).2
    · intro he
      by_contra hk
      have hlookup := (h.kept t hk).1
      rw [AList.lookup_eq_none.mpr hseeds] at hlookup
      exact (AList.lookup_eq_none.mp hlookup) he

/-- After a block the span has in its dictionary, beyond the seeds, what it had and what the block
donates. -/
theorem TurnWrote.mem {paged : Bool} {k : BlockKind} {seeds d e : SharedKv N.Tensor}
    {kinds : List BlockKind} (h : TurnWrote paged k d d e e)
    (hstored : Stored paged seeds (k :: kinds)) {t : String} (ht : t ∉ seeds) :
    t ∈ e ↔ t ∈ d ∨ t ∈ k.donates := by
  cases paged with
  | true =>
    obtain ⟨rfl, -⟩ := h
    have hnot : t ∉ k.donates := fun hk => ht (hstored rfl k List.mem_cons_self t hk)
    exact (or_iff_left hnot).symm
  | false =>
    by_cases hk : t ∈ k.donates
    · exact iff_of_true (h.wrote t hk).2 (Or.inr hk)
    · rw [or_iff_left hk, ← AList.lookup_isSome, ← AList.lookup_isSome, (h.kept t hk).1]

/-- The types a merged loop adds to the seeds are those its blocks donate. -/
theorem mergedLoop_types {seeds : SharedKv N.Tensor} {t : String} (ht : t ∉ seeds) :
    ∀ (work : List (InferenceMetadata N × Option (List N.Token))) (s s' : Stage N),
      server.mergedLoop batchSize hypoIds work s = .ok s' →
        Stored server.paged seeds (work.map fun w => kindOf server w.1.uid) →
          (t ∈ s'.shared ↔ t ∈ s.shared ∨
            ∃ w ∈ work, t ∈ (kindOf server w.1.uid).donates) := by
  intro work
  induction work with
  | nil =>
    rintro s _ ⟨⟩ -
    simp
  | cons w work ih =>
    intro s s' h hstored
    obtain ⟨next, hturn, h⟩ := bind_eq_ok.mp h
    rw [ih next s' h hstored.tail, (mergedTurn_wrote hturn).mem hstored ht,
      List.exists_mem_cons_iff, or_assoc]

/-- The state of the merged loop beside that of the other path. -/
structure InStep (seeds : SharedKv N.Tensor) (s : Stage N) (p : InferenceServer.Produced N) :
    Prop where
  tokens : s.tokens = p.tokens
  memory : s.memory = p.memory
  produced : ∀ t, p.producedSharedKv.lookup t = if t ∈ seeds then none else s.shared.lookup t

/-- **The simulation.** Where no block reads what the span has written, the loop of the merged task
and the tasks of the single blocks go in step. The induction is on the blocks; what carries it is that
the dictionary of the span is the seeded one up to what the span has donated. -/
theorem loops_agree {seeds : SharedKv N.Tensor} :
    ∀ (work : List (InferenceMetadata N × Option (List N.Token))) (donated : List String)
      (s : Stage N) (p : InferenceServer.Produced N), InStep seeds s p →
        batchSize * s.tokens.length ≤ server.maxBatchSize →
        (∀ t, t ∉ donated → s.shared.lookup t = seeds.lookup t) →
        KeepsApart server.paged seeds donated (work.map fun w => kindOf server w.1.uid) →
          Agree (InStep seeds) (server.mergedLoop batchSize hypoIds work s)
            (server.perBlockPath batchSize hypoIds seeds work p) := by
  intro work
  induction work with
  | nil =>
    intro donated s p hstep _ _ _
    exact Agree.ok hstep
  | cons w work ih =>
    obtain ⟨info, prompt⟩ := w
    rintro donated s ⟨xs, memory, produced⟩ ⟨htokens, hmemory, hproduced⟩ hfits hsame hapart
    dsimp only at htokens hmemory hproduced
    subst htokens hmemory
    unfold InferenceServer.mergedLoop
    rw [perBlockPath_cons hfits]
    -- the turn: the dictionary of the span and the seeded one hold the same for this block
    apply Agree.bind (mergedTurn_agree server batchSize hypoIds info prompt s.tokens s.memory
      s.shared seeds (hapart.reads hsame))
    rintro a b ha hb ⟨hxs, hmem, hwrote⟩
    -- what the task returns is what the block has added to the seeds
    have halone : TurnWrote server.paged (kindOf server info.uid) seeds seeds b.shared b.shared :=
      mergedTurn_wrote hb
    obtain ⟨new, hnew, hlookup⟩ := unflatten_extract
      ((kindOf server info.uid).nodup_donates.filter _) (halone.types hapart.stored)
    rw [BlockKind.sorted_donates] at hnew
    rw [hnew]
    apply ih ((kindOf server info.uid).donates ++ donated)
    · refine ⟨hxs, hmem, fun t => ?_⟩
      rw [Dict.lookup_update, hlookup, hproduced]
      by_cases ht : t ∈ seeds
      · rw [if_pos ht, if_pos ht, if_pos (AList.mem_keys.mp ht), Option.none_or]
      · rw [if_neg ht, if_neg ht, if_neg (fun h => ht (AList.mem_keys.mpr h)),
          hwrote.produced ht]
    · rw [(mergedTurn_spec ha).1]
      exact hfits
    · exact hwrote.same hsame
    · exact hapart.tail

/-- The tokens, the cache and the entries of the produced dictionary are the same. -/
structure SameProduced (p q : InferenceServer.Produced N) : Prop where
  tokens : p.tokens = q.tokens
  memory : p.memory = q.memory
  produced : ∀ t, p.producedSharedKv.lookup t = q.producedSharedKv.lookup t

variable (infos : List (InferenceMetadata N)) (prompts : List (Option (List N.Token)))
  (xs : List N.Token) (memory : N.Memory)

/-- The kinds of the blocks of a span. -/
abbrev kindsOf (server : InferenceServer N) : List BlockKind :=
  infos.map fun info => kindOf server info.uid

variable {infos prompts xs memory}

theorem map_kindOf_zip (hlength : infos.length = prompts.length) :
    (infos.zip prompts).map (fun w => kindOf server w.1.uid) = kindsOf infos server := by
  have hfst : (infos.zip prompts).map Prod.fst = infos := List.map_fst_zip hlength.le
  calc (infos.zip prompts).map (fun w => kindOf server w.1.uid)
    _ = ((infos.zip prompts).map Prod.fst).map fun info => kindOf server info.uid := by
        rw [List.map_map]; rfl
    _ = kindsOf infos server := by rw [hfst]

/-- A task that fits is the loop over its blocks. -/
theorem submitTask_eq {s : Stage N} (hlength : infos.length = prompts.length)
    (hfits : batchSize * s.tokens.length ≤ server.maxBatchSize) :
    server.submitTask batchSize hypoIds infos prompts s =
      server.mergedLoop batchSize hypoIds (infos.zip prompts) s >>= fun s' =>
        .ok (s'.tokens, extractProducedSharedKv s'.shared s.shared.keys, s'.memory) := by
  unfold InferenceServer.submitTask InferenceServer.mergedInferenceStep
  rw [if_neg (not_lt.mpr hfits), if_pos hlength]
  rfl

theorem mem_spanDonorTypes {uids seeded : List String} {t : String} :
    t ∈ server.spanDonorTypes uids seeded ↔
      (∃ uid ∈ uids, t ∈ (kindOf server uid).donates) ∧ t ∉ seeded := by
  unfold InferenceServer.spanDonorTypes
  simp only [List.mem_filter, List.mem_dedup, List.mem_flatMap, donorLayerTypes_eq,
    decide_eq_true_eq]
  rfl

theorem nodup_spanDonorTypes (uids seeded : List String) :
    (server.spanDonorTypes uids seeded).Nodup :=
  (List.nodup_dedup _).filter _

/-- The tasks of a span that is too large for the pool all raise. -/
theorem raises_of_too_large (hfits : ¬batchSize * xs.length ≤ server.maxBatchSize)
    (hlength : infos.length = prompts.length) (hne : infos ≠ []) {seeds : SharedKv N.Tensor} :
    Raises (server.mergedPath batchSize hypoIds infos prompts ⟨xs, seeds, memory⟩) ∧
      Raises (server.perBlockPath batchSize hypoIds seeds (infos.zip prompts) ⟨xs, memory, ∅⟩) := by
  have htask : ∀ infos' prompts', server.submitTask batchSize hypoIds infos' prompts'
      ⟨xs, seeds, memory⟩ = .error .valueError := fun _ _ => if_pos (not_le.mp hfits)
  constructor
  · intro p h
    rw [InferenceServer.mergedPath, htask] at h
    cases h
  · cases infos with
    | nil => exact absurd rfl hne
    | cons info infos =>
      cases prompts with
      | nil => cases hlength
      | cons prompt prompts =>
        intro p h
        rw [List.zip_cons_cons, InferenceServer.perBlockPath, htask] at h
        cases h

/-- What the merged path returns when its loop does: the tensors of the types that the blocks have
added to the seeds. -/
theorem mergedPath_of_loop {seeds : SharedKv N.Tensor} {a : Stage N}
    (hlength : infos.length = prompts.length) (hfits : batchSize * xs.length ≤ server.maxBatchSize)
    (hstored : Stored server.paged seeds (kindsOf infos server))
    (ha : server.mergedLoop batchSize hypoIds (infos.zip prompts) ⟨xs, seeds, memory⟩ = .ok a) :
    ∃ d, server.mergedPath batchSize hypoIds infos prompts ⟨xs, seeds, memory⟩ =
        .ok ⟨a.tokens, a.memory, d⟩ ∧
      ∀ t, d.lookup t = if t ∈ seeds then none else a.shared.lookup t := by
  have htypes : ∀ t, t ∈ server.spanDonorTypes (infos.map (·.uid)) seeds.keys ↔
      t ∈ a.shared ∧ t ∉ seeds.keys := by
    intro t
    rw [mem_spanDonorTypes]
    refine and_congr_left fun hseeds => ?_
    rw [← map_kindOf_zip hlength] at hstored
    rw [mergedLoop_types hseeds _ _ _ ha hstored, or_iff_right (show ¬t ∈ seeds from hseeds)]
    constructor
    · rintro ⟨uid, huid, ht⟩
      obtain ⟨info, hinfo, rfl⟩ := List.mem_map.mp huid
      rw [← List.map_fst_zip hlength.le] at hinfo
      obtain ⟨w, hw, rfl⟩ := List.mem_map.mp hinfo
      exact ⟨w, hw, ht⟩
    · rintro ⟨w, hw, ht⟩
      exact ⟨w.1.uid, List.mem_map.mpr ⟨w.1, (List.of_mem_zip hw).1, rfl⟩, ht⟩
  obtain ⟨d, hd, hlookup⟩ := unflatten_extract (nodup_spanDonorTypes _ _) htypes
  refine ⟨d, ?_, fun t => ?_⟩
  · rw [InferenceServer.mergedPath, submitTask_eq hlength hfits, ha]
    show (match unflattenSharedKv (Dict.sorted (server.spanDonorTypes
        (infos.map (·.uid)) seeds.keys)) (extractProducedSharedKv a.shared seeds.keys) with
      | none => Except.error InferenceError.assertionError
      | some sharedKv => Except.ok (⟨a.tokens, a.memory, sharedKv⟩ : InferenceServer.Produced N)) = _
    rw [hd]
  · rw [hlookup]
    exact if_congr Iff.rfl rfl rfl

/-- A span whose loop raises raises. -/
theorem mergedPath_of_raise {seeds : SharedKv N.Tensor} {e : InferenceError N}
    (hlength : infos.length = prompts.length) (hfits : batchSize * xs.length ≤ server.maxBatchSize)
    (he : server.mergedLoop batchSize hypoIds (infos.zip prompts) ⟨xs, seeds, memory⟩ = .error e) :
    server.mergedPath batchSize hypoIds infos prompts ⟨xs, seeds, memory⟩ = .error e := by
  rw [InferenceServer.mergedPath, submitTask_eq hlength hfits, he]
  rfl

/-- **The paths agree** where the two dictionaries cannot matter. -/
theorem paths_agree {seeds : SharedKv N.Tensor} (hlength : infos.length = prompts.length)
    (hne : infos ≠ []) (hapart : KeepsApart server.paged seeds [] (kindsOf infos server)) :
    Agree SameProduced (server.mergedPath batchSize hypoIds infos prompts ⟨xs, seeds, memory⟩)
      (server.perBlockPath batchSize hypoIds seeds (infos.zip prompts) ⟨xs, memory, ∅⟩) := by
  by_cases hfits : batchSize * xs.length ≤ server.maxBatchSize
  case neg =>
    obtain ⟨hmerged, hperBlock⟩ := raises_of_too_large hfits hlength hne
    exact hmerged.agree hperBlock
  have hstart : InStep seeds (⟨xs, seeds, memory⟩ : Stage N) ⟨xs, memory, ∅⟩ := by
    refine ⟨rfl, rfl, fun t => ?_⟩
    split
    · rfl
    · next ht => exact (AList.lookup_eq_none.mpr ht).symm
  have hloops : Agree (InStep seeds)
      (server.mergedLoop batchSize hypoIds (infos.zip prompts) ⟨xs, seeds, memory⟩)
      (server.perBlockPath batchSize hypoIds seeds (infos.zip prompts) ⟨xs, memory, ∅⟩) := by
    refine loops_agree _ [] _ _ hstart hfits (fun _ _ => rfl) ?_
    rw [map_kindOf_zip hlength]
    exact hapart
  cases hmerged : server.mergedLoop batchSize hypoIds (infos.zip prompts) ⟨xs, seeds, memory⟩ with
  | error e =>
    rw [hmerged] at hloops
    rw [mergedPath_of_raise hlength hfits hmerged]
    cases hperBlock : server.perBlockPath batchSize hypoIds seeds (infos.zip prompts)
        ⟨xs, memory, ∅⟩ with
    | error e' => exact Agree.error
    | ok b =>
      rw [hperBlock] at hloops
      exact hloops.elim
  | ok a =>
    obtain ⟨d, hd, hlookup⟩ := mergedPath_of_loop hlength hfits hapart.stored hmerged
    rw [hmerged] at hloops
    rw [hd]
    cases hperBlock : server.perBlockPath batchSize hypoIds seeds (infos.zip prompts)
        ⟨xs, memory, ∅⟩ with
    | error e' =>
      rw [hperBlock] at hloops
      exact hloops.elim
    | ok b =>
      rw [hperBlock] at hloops
      exact ⟨hloops.tokens, hloops.memory, fun t => (hlookup t).trans (hloops.produced t).symm⟩

/-! ### Where both paths raise -/

/-- The first block of a path that returns: its task, what it has added, and the rest of the path. -/
theorem perBlockPath_ok {seeds : SharedKv N.Tensor} {info : InferenceMetadata N}
    {prompt : Option (List N.Token)} {work : List (InferenceMetadata N × Option (List N.Token))}
    {p p' : InferenceServer.Produced N}
    (h : server.perBlockPath batchSize hypoIds seeds ((info, prompt) :: work) p = .ok p') :
    ∃ b new, server.mergedTurn batchSize hypoIds info prompt ⟨p.tokens, seeds, p.memory⟩ = .ok b ∧
      unflattenSharedKv ((kindOf server info.uid).donates.filter (· ∉ seeds.keys))
        (extractProducedSharedKv b.shared seeds.keys) = some new ∧
      server.perBlockPath batchSize hypoIds seeds work
        ⟨b.tokens, b.memory, p.producedSharedKv.update new⟩ = .ok p' := by
  by_cases hfits : batchSize * p.tokens.length ≤ server.maxBatchSize
  · rw [perBlockPath_cons hfits] at h
    obtain ⟨b, hb, h⟩ := bind_eq_ok.mp h
    split at h
    · cases h
    · next new hnew => exact ⟨b, new, hb, hnew, h⟩
  · have htask : server.submitTask batchSize hypoIds [info] [prompt]
        ⟨p.tokens, seeds, p.memory⟩ = .error .valueError := if_pos (not_le.mp hfits)
    rw [InferenceServer.perBlockPath, htask] at h
    cases h

/-- What more is known feeds no fewer blocks. -/
theorem Fed.mono {known known' : List String} {kinds : List BlockKind}
    (hsub : ∀ t ∈ known, t ∈ known') (h : Fed known kinds) : Fed known' kinds := by
  induction kinds generalizing known known' with
  | nil => trivial
  | cons k kinds ih =>
    refine ⟨fun t ht => hsub t (h.1 t ht), ih (fun t ht => ?_) h.2⟩
    rcases List.mem_append.mp ht with hk | hknown
    · exact List.mem_append_left _ hk
    · exact List.mem_append_right _ (hsub t hknown)

/-- Over a contiguous cache a merged loop that returns has fed all its blocks. -/
theorem fed_of_mergedLoop (hpaged : server.paged = false) :
    ∀ (work : List (InferenceMetadata N × Option (List N.Token))) (known : List String)
      (s s' : Stage N), server.mergedLoop batchSize hypoIds work s = .ok s' →
        (∀ t, t ∈ s.shared → t ∈ known) → Fed known (work.map fun w => kindOf server w.1.uid) := by
  intro work
  induction work with
  | nil => exact fun known s s' _ _ => trivial
  | cons w work ih =>
    intro known s s' h hknown
    obtain ⟨next, hturn, h⟩ := bind_eq_ok.mp h
    have hwrote := mergedTurn_wrote hturn
    rw [hpaged] at hwrote
    refine ⟨fun t ht => hknown t ((mergedTurn_spec hturn).2 hpaged t ht), ih _ next s' h ?_⟩
    intro t ht
    by_cases hk : t ∈ (kindOf server w.1.uid).donates
    · exact List.mem_append_left _ hk
    · rw [← AList.lookup_isSome, (hwrote.kept t hk).1, AList.lookup_isSome] at ht
      exact List.mem_append_right _ (hknown t ht)

/-- Over a contiguous cache the tasks of the single blocks, if they all return, have been fed by the
request alone. -/
theorem fed_of_perBlockPath (hpaged : server.paged = false) {seeds : SharedKv N.Tensor} :
    ∀ (work : List (InferenceMetadata N × Option (List N.Token))) (known : List String)
      (p p' : InferenceServer.Produced N),
      server.perBlockPath batchSize hypoIds seeds work p = .ok p' →
        (∀ t, t ∈ seeds → t ∈ known) → Fed known (work.map fun w => kindOf server w.1.uid) := by
  intro work
  induction work with
  | nil => exact fun known p p' _ _ => trivial
  | cons w work ih =>
    intro known p p' h hknown
    obtain ⟨b, new, hturn, -, h⟩ := perBlockPath_ok h
    refine ⟨fun t ht => hknown t ((mergedTurn_spec hturn).2 hpaged t ht), ih _ _ p' h ?_⟩
    exact fun t ht => List.mem_append_right _ (hknown t ht)

/-- **Both paths raise** where a consumer gets its keys and values from nowhere. -/
theorem raises_of_not_fed (hpaged : server.paged = false) {seeds : SharedKv N.Tensor}
    {known : List String} (hknown : ∀ t, t ∈ seeds → t ∈ known)
    (hlength : infos.length = prompts.length) (hne : infos ≠ [])
    (hfed : ¬Fed known (kindsOf infos server)) :
    Raises (server.mergedPath batchSize hypoIds infos prompts ⟨xs, seeds, memory⟩) ∧
      Raises (server.perBlockPath batchSize hypoIds seeds (infos.zip prompts) ⟨xs, memory, ∅⟩) := by
  by_cases hfits : batchSize * xs.length ≤ server.maxBatchSize
  case neg => exact raises_of_too_large hfits hlength hne
  rw [← map_kindOf_zip hlength] at hfed
  constructor
  · rw [InferenceServer.mergedPath, submitTask_eq hlength hfits, bind_assoc]
    exact raises_bind fun s' h => absurd (fed_of_mergedLoop hpaged _ known _ s' h hknown) hfed
  · intro p h
    exact hfed (fed_of_perBlockPath hpaged _ known _ p h hknown)

/-- A dictionary has nothing beyond its own keys. -/
theorem extractProducedSharedKv_self {τ : Type} (d : SharedKv τ) :
    extractProducedSharedKv d d.keys = [] := by
  have hnone : d.keys.filter (· ∉ d.keys) = [] :=
    List.filter_eq_nil_iff.mpr fun t ht => by simp [ht]
  rw [extractProducedSharedKv, hnone]
  rfl

/-- Without tensors there are no types. -/
theorem unflattenSharedKv_nil {τ : Type} {keys : List String} {d : SharedKv τ}
    (h : unflattenSharedKv keys [] = some d) : keys = [] := by
  unfold unflattenSharedKv at h
  split at h
  · next hlength =>
    rw [List.length_nil] at hlength
    exact List.length_eq_zero_iff.mp (by omega)
  · cases h

/-- Over a paged cache a turn leaves the dictionary alone. -/
theorem mergedTurn_shared (hpaged : server.paged = true) {info : InferenceMetadata N}
    {prompt : Option (List N.Token)} {s s' : Stage N}
    (h : server.mergedTurn batchSize hypoIds info prompt s = .ok s') : s'.shared = s.shared := by
  have hwrote := mergedTurn_wrote h
  rw [hpaged] at hwrote
  exact hwrote.1

theorem mergedLoop_shared (hpaged : server.paged = true) :
    ∀ (work : List (InferenceMetadata N × Option (List N.Token))) (s s' : Stage N),
      server.mergedLoop batchSize hypoIds work s = .ok s' → s'.shared = s.shared
  | [], _, _, rfl => rfl
  | w :: work, s, s', h => by
    obtain ⟨next, hturn, h⟩ := bind_eq_ok.mp h
    rw [mergedLoop_shared hpaged work next s' h, mergedTurn_shared hpaged hturn]

/-- Over a paged cache the tasks of the single blocks, if they all return, have donated nothing that
was not seeded. -/
theorem seeded_of_perBlockPath (hpaged : server.paged = true) {seeds : SharedKv N.Tensor} :
    ∀ (work : List (InferenceMetadata N × Option (List N.Token)))
      (p p' : InferenceServer.Produced N),
      server.perBlockPath batchSize hypoIds seeds work p = .ok p' →
        ∀ w ∈ work, ∀ t ∈ (kindOf server w.1.uid).donates, t ∈ seeds := by
  intro work
  induction work with
  | nil => exact fun p p' _ w hw => absurd hw List.not_mem_nil
  | cons w work ih =>
    intro p p' h w' hw' t ht
    obtain ⟨b, new, hturn, hnew, h⟩ := perBlockPath_ok h
    rcases List.mem_cons.mp hw' with rfl | hw'
    · rw [mergedTurn_shared hpaged hturn, extractProducedSharedKv_self] at hnew
      by_contra hseeds
      have hmem : t ∈ (kindOf server w'.1.uid).donates.filter (· ∉ seeds.keys) :=
        List.mem_filter.mpr ⟨ht, decide_eq_true hseeds⟩
      rw [unflattenSharedKv_nil hnew] at hmem
      cases hmem
    · exact ih _ p' h w' hw' t ht

/-- **Both paths raise** over a paged cache where a block donates what was not seeded: the dictionary
does not reach it, and the handler misses the tensors. -/
theorem raises_of_paged_donor (hpaged : server.paged = true) {seeds : SharedKv N.Tensor}
    (hlength : infos.length = prompts.length) (hne : infos ≠ [])
    (hdonor : ¬∀ k ∈ kindsOf infos server, ∀ t ∈ k.donates, t ∈ seeds) :
    Raises (server.mergedPath batchSize hypoIds infos prompts ⟨xs, seeds, memory⟩) ∧
      Raises (server.perBlockPath batchSize hypoIds seeds (infos.zip prompts) ⟨xs, memory, ∅⟩) := by
  by_cases hfits : batchSize * xs.length ≤ server.maxBatchSize
  case neg => exact raises_of_too_large hfits hlength hne
  constructor
  · rw [InferenceServer.mergedPath, submitTask_eq hlength hfits, bind_assoc]
    refine raises_bind fun s' hloop p h => hdonor fun k hk t ht => ?_
    obtain ⟨info, hinfo, rfl⟩ := List.mem_map.mp hk
    by_contra hseeds
    have hmem : t ∈ server.spanDonorTypes (infos.map (·.uid)) seeds.keys :=
      mem_spanDonorTypes.mpr ⟨⟨_, List.mem_map.mpr ⟨info, hinfo, rfl⟩, ht⟩, hseeds⟩
    change (match unflattenSharedKv (Dict.sorted (server.spanDonorTypes (infos.map (·.uid))
      seeds.keys)) (extractProducedSharedKv s'.shared seeds.keys) with
      | none => _
      | some _ => _) = _ at h
    -- the loop has left the dictionary alone, so no tensors come back for the donated types
    rw [mergedLoop_shared hpaged _ _ s' hloop, extractProducedSharedKv_self] at h
    split at h
    · cases h
    · next hnew =>
      rw [← Dict.mem_sorted, unflattenSharedKv_nil hnew] at hmem
      cases hmem
  · intro p h
    refine hdonor fun k hk t ht => ?_
    rw [← map_kindOf_zip hlength] at hk
    obtain ⟨w, hw, rfl⟩ := List.mem_map.mp hk
    exact seeded_of_perBlockPath hpaged _ _ p h w hw t ht

/-- **The paths agree** over a paged cache, where both raise, and where no consumer follows its
donor. -/
theorem paths_agree_of_meet {seeds : SharedKv N.Tensor} {known : List String}
    (hlength : infos.length = prompts.length) (hne : infos ≠ [])
    (hknown : ∀ t, t ∈ seeds ↔ t ∈ known)
    (hmeet : server.paged = true ∨ ¬Fed known (kindsOf infos server) ∨
      NoFeeding [] (kindsOf infos server)) :
    Agree SameProduced (server.mergedPath batchSize hypoIds infos prompts ⟨xs, seeds, memory⟩)
      (server.perBlockPath batchSize hypoIds seeds (infos.zip prompts) ⟨xs, memory, ∅⟩) := by
  by_cases hpaged : server.paged = true
  · by_cases hdonor : ∀ k ∈ kindsOf infos server, ∀ t ∈ k.donates, t ∈ seeds
    · refine paths_agree hlength hne ⟨fun _ => hdonor, fun hnot => ?_⟩
      exact absurd (hpaged.symm.trans hnot) (by decide)
    · obtain ⟨hmerged, hperBlock⟩ := raises_of_paged_donor hpaged hlength hne hdonor
      exact hmerged.agree hperBlock
  · have hcontiguous : server.paged = false := eq_false_of_ne_true hpaged
    rcases hmeet with h | hfed | hapart
    · exact absurd h hpaged
    · obtain ⟨hmerged, hperBlock⟩ :=
        raises_of_not_fed hcontiguous (fun t => (hknown t).mp) hlength hne hfed
      exact hmerged.agree hperBlock
    · exact paths_agree hlength hne ⟨fun h => absurd h hpaged, fun _ => hapart⟩

end Loops

end Drift.Server
