import Drift.Server.InferenceAgreement
import Drift.Server.PushedSteps

/-!
# Pushed steps and direct steps

A pushed copy carries the outputs and the start position of its step, but prompts, `hypo_ids` and
per-layer inputs are those of the request that opened the stream. So it is the request the client sends
exactly where those of the step are the first ones again.

* `CopyOf` — what a pushed copy consists of;
* `ReadAlike`, `infer_readAlike` — requests that a session cannot tell apart;
* `pushed_as_direct_iff` — when the pushed copies are the direct ones.
-/

namespace Drift.Server

open Drift.Lib InferenceServer

variable {N : Numerics}

/-! ### Taking the first copies -/

theorem iterateInferenceSteps_eq (arrivals : List (StepMessage N)) : ∀ processed : List String,
    iterateInferenceSteps processed (arrivals.map some) =
      keepFirst StepMessage.stepId processed arrivals := by
  induction arrivals with
  | nil => exact fun _ => rfl
  | cons m arrivals ih =>
    intro processed
    rw [List.map_cons, iterateInferenceSteps, keepFirst]
    cases m.stepId with
    | none =>
      simp only
      rw [ih]
    | some stepId =>
      simp only
      rw [ih, ih]

/-! ### What a copy carries -/

/-- The copy of a step that server `j` makes, where `first` is the step its stream began with. -/
structure CopyOf (first step : ChainStep N) (j : Nat) (f : Flight N) (p : StepMessage N) : Prop where
  stepId : p.stepId = some step.stepId
  batchSize : p.request.batchSize = f.batchSize
  hiddenSize : p.request.hiddenSize = f.hiddenSize
  tokens : p.request.tokens = f.tokens
  startFromPosition : p.request.startFromPosition = step.startFromPosition
  sharedKvKeys : p.request.sharedKvKeys = []
  sharedKv : f.sharedKv = ∅
  hypoIds : p.request.hypoIds = first.hypoIds
  prompts : p.request.prompts = first.prompts j
  perLayerInputs : p.request.perLayerInputs = first.perLayerInputs j

/-- All that is pushed to server `i` are copies made by the server before it. -/
def Copies (steps : List (ChainStep N)) (i : Nat) (flights : List (Flight N))
    (pushed : List (Option (StepMessage N))) : Prop :=
  ∀ (k : Nat) (p : StepMessage N), pushed[k]? = some (some p) →
    ∃ j first step f, i = j + 1 ∧ steps.head? = some first ∧ steps[k]? = some step ∧
      flights[k]? = some f ∧ CopyOf first step j f p

/-- Each reply of a session belongs to the request in its place. -/
theorem iterateOn_reply {server : InferenceServer N} {span : InferenceSpan N}
    {path : InferenceRequest N → InferencePath} : ∀ (requests : List (InferenceRequest N))
    (s : SessionState N) (k : Nat) (reply : InferenceReply N),
    (server.iterateOn span path requests s).1[k]? = some reply →
      ∃ r t t', requests[k]? = some r ∧ server.inferenceRequest span (path r) t r = .ok (reply, t') := by
  intro requests
  induction requests with
  | nil =>
    intro s k reply h
    cases h
  | cons r requests ih =>
    intro s k reply h
    rw [iterateOn] at h
    split at h
    · cases h
    next out s' hstep =>
    cases k with
    | zero =>
      cases h
      exact ⟨r, s, s', rfl, hstep⟩
    | succ k => exact ih s' k reply h

theorem infer_reply {c : ChainServer N} {taken : List (StepMessage N)} {k : Nat}
    {reply : InferenceReply N} (h : (c.infer taken).1[k]? = some reply) :
    ∃ m t t', taken[k]? = some m ∧
      c.server.inferenceRequest c.span (c.server.choosePath m.request) t m.request =
        .ok (reply, t') := by
  unfold ChainServer.infer iterateRpcInference at h
  split at h
  · obtain ⟨r, t, t', hr, hstep⟩ := iterateOn_reply _ _ k reply h
    rw [List.getElem?_map] at hr
    obtain ⟨m, hm, rfl⟩ := Option.map_eq_some_iff.mp hr
    exact ⟨m, t, t', hm, hstep⟩
  · cases h

/-- A step is only pushed if it has brought no keys and values, and produced none. -/
theorem keys_of_canPush {server : InferenceServer N} {span : InferenceSpan N} {path : InferencePath}
    {s s' : SessionState N} {r : InferenceRequest N} {reply : InferenceReply N}
    (h : server.inferenceRequest span path s r = .ok (reply, s')) (hpush : reply.canPush = true) :
    r.sharedKvKeys = [] ∧ reply.sharedKvKeys = [] := by
  unfold inferenceRequest at h
  obtain ⟨start, -, h⟩ := bind_eq_ok.mp h
  dsimp only at h
  by_cases hblocks : span.requestedUids.length = 0
  · rw [if_pos hblocks] at h
    cases h
  rw [if_neg hblocks] at h
  obtain ⟨prompts, -, h⟩ := bind_eq_ok.mp h
  obtain ⟨perLayerInputs, -, h⟩ := bind_eq_ok.mp h
  obtain ⟨shared, hshared, h⟩ := bind_eq_ok.mp h
  by_cases hlength : start + (r.tokens.length : Int) > span.maxLength
  · rw [if_pos hlength] at h
    cases h
  rw [if_neg hlength] at h
  obtain ⟨produced, -, h⟩ := bind_eq_ok.mp h
  obtain ⟨rfl, -⟩ := Prod.mk.inj (Except.ok.inj h)
  simp only [reply, Bool.and_eq_true, List.isEmpty_iff] at hpush
  obtain ⟨⟨-, hseeded⟩, hkeys⟩ := hpush
  refine ⟨?_, hkeys⟩
  -- every key of the request is a key of the seeded dictionary
  unfold seedSharedKv at hshared
  split at hshared
  · next hnone => exact List.isEmpty_iff.mp hnone
  split at hshared
  · cases hshared
  next d hd =>
  cases hshared
  rw [List.eq_nil_iff_forall_not_mem]
  intro t ht
  have hmem : t ∈ shared.keys := AList.mem_keys.mp ((mem_unflattenSharedKv hd t).mpr ht)
  rw [hseeded] at hmem
  cases hmem

/-- A dictionary without types on the wire is empty. -/
theorem eq_empty_of_flatten {τ : Type} {d : SharedKv τ} (h : (flattenSharedKv d).1 = []) : d = ∅ := by
  have hkeys : d.keys = [] := by
    rw [List.eq_nil_iff_forall_not_mem]
    intro t ht
    have hmem : t ∈ (flattenSharedKv d).1 := Dict.mem_sorted.mpr ht
    rw [h] at hmem
    cases hmem
  apply AList.ext
  exact List.map_eq_nil_iff.mp hkeys

/-! ### Requests that a session cannot tell apart -/

/-- The requests differ at most in tensors for no keys, which are not looked at. -/
def ReadAlike (r r' : InferenceRequest N) : Prop :=
  r = r' ∨ r.sharedKvKeys = [] ∧ r = { r' with sharedKvTensors := r.sharedKvTensors }

theorem inferenceRequest_readAlike {server : InferenceServer N} {span : InferenceSpan N}
    {s : SessionState N} {r r' : InferenceRequest N} (h : ReadAlike r r') :
    server.inferenceRequest span (server.choosePath r) s r =
      server.inferenceRequest span (server.choosePath r') s r' := by
  rcases h with rfl | ⟨hkeys, hr⟩
  · rfl
  · have hkeys' : r'.sharedKvKeys = [] := by
      rw [hr] at hkeys
      exact hkeys
    have hseed : seedSharedKv r = seedSharedKv r' := by
      unfold seedSharedKv
      rw [hkeys, hkeys']
      rfl
    generalize r.sharedKvTensors = tensors at hr
    subst hr
    unfold inferenceRequest
    rw [hseed]
    rfl

theorem iterateOn_readAlike {server : InferenceServer N} {span : InferenceSpan N}
    {requests requests' : List (InferenceRequest N)} (h : List.Forall₂ ReadAlike requests requests') :
    ∀ s : SessionState N, server.iterateOn span server.choosePath requests s =
      server.iterateOn span server.choosePath requests' s := by
  induction h with
  | nil => exact fun _ => rfl
  | cons hr _ ih =>
    intro s
    rw [iterateOn, iterateOn, inferenceRequest_readAlike hr]
    split
    · rfl
    · rw [ih]

theorem infer_readAlike {c : ChainServer N} {taken taken' : List (StepMessage N)}
    (h : List.Forall₂ (fun m m' => ReadAlike m.request m'.request) taken taken') :
    c.infer taken = c.infer taken' := by
  have hrequests : List.Forall₂ ReadAlike (taken.map StepMessage.request)
      (taken'.map StepMessage.request) :=
    List.forall₂_map_left_iff.mpr (List.forall₂_map_right_iff.mpr h)
  unfold ChainServer.infer iterateRpcInference
  rw [iterateOn_readAlike hrequests]

/-! ### A server of the chain -/

section Served

variable {dhtPrefix : String} {steps : List (ChainStep N)} {i : Nat} {c : ChainServer N}
  {flights : List (Flight N)} {pushed : List (Option (StepMessage N))} {first : StepMessage N}
  {arrivals taken : List (StepMessage N)}

theorem getElem?_directRequests {k : Nat} {d : StepMessage N}
    (h : (directRequests steps i c flights)[k]? = some d) :
    ∃ step f, steps[k]? = some step ∧ flights[k]? = some f ∧ d = step.direct i c f := by
  unfold directRequests at h
  rw [List.getElem?_zipWith_eq_some] at h
  obtain ⟨step, f, hstep, hf, rfl⟩ := h
  exact ⟨step, f, hstep, hf, rfl⟩

/-- A server takes one copy of each step, in order. -/
theorem taken_copies (hids : (steps.map ChainStep.stepId).Nodup)
    (hpushed : Copies steps i flights pushed)
    (harrivals : ArriveInOrder (IsCopy (directRequests steps i c flights) pushed) 0 (first :: arrivals)
      (directRequests steps i c flights).length)
    (htaken : taken = iterateInferenceSteps [] ((first :: arrivals).map some)) :
    taken.length = (directRequests steps i c flights).length ∧
      ∀ k m, taken[k]? = some m → IsCopy (directRequests steps i c flights) pushed k m := by
  have hkey : ∀ k m, IsCopy (directRequests steps i c flights) pushed k m →
      ∃ id, m.stepId = some id ∧ (steps.map ChainStep.stepId)[k]? = some id := by
    intro k m hcopy
    rcases hcopy with hdirect | hpush
    · obtain ⟨step, f, hstep, -, rfl⟩ := getElem?_directRequests hdirect
      exact ⟨step.stepId, rfl, by rw [List.getElem?_map, hstep]; rfl⟩
    · obtain ⟨j, _, step, f, -, -, hstep, -, hcopy⟩ := hpushed k m hpush
      exact ⟨step.stepId, hcopy.stepId, by rw [List.getElem?_map, hstep]; rfl⟩
  have hkept := keepFirst_arriveInOrder hids hkey harrivals [] (fun k id _ => by simp)
  rw [← iterateInferenceSteps_eq, ← htaken] at hkept
  obtain ⟨hlength, hcopies⟩ := hkept
  rw [Nat.zero_add] at hlength
  refine ⟨hlength, fun k m hm => ?_⟩
  have hcopy := hcopies k m hm
  rwa [Nat.zero_add] at hcopy

/-- What a copy of a step brings, whichever it is: identifier, outputs, start position. -/
theorem isCopy_carries (hpushed : Copies steps i flights pushed) {k : Nat} {m : StepMessage N}
    (h : IsCopy (directRequests steps i c flights) pushed k m) :
    ∃ step f, steps[k]? = some step ∧ flights[k]? = some f ∧ m.stepId = some step.stepId ∧
      m.request.batchSize = f.batchSize ∧ m.request.hiddenSize = f.hiddenSize ∧
      m.request.startFromPosition = step.startFromPosition ∧
      (m.request.sharedKvKeys = [] → f.sharedKv = ∅) := by
  rcases h with hdirect | hpush
  · obtain ⟨step, f, hstep, hf, rfl⟩ := getElem?_directRequests hdirect
    exact ⟨step, f, hstep, hf, rfl, rfl, rfl, rfl, eq_empty_of_flatten⟩
  · obtain ⟨j, _, step, f, -, -, hstep, hf, hcopy⟩ := hpushed k m hpush
    exact ⟨step, f, hstep, hf, hcopy.stepId, hcopy.batchSize, hcopy.hiddenSize,
      hcopy.startFromPosition, fun _ => hcopy.sharedKv⟩

/-- **What a server pushes are copies for the next one.** -/
theorem stepPushes_copies (hpushed : Copies steps i flights pushed)
    (hfirst : (directRequests steps i c flights).head? = some first)
    (hcopies : ∀ k m, taken[k]? = some m → IsCopy (directRequests steps i c flights) pushed k m) :
    Copies steps (i + 1) (List.zipWith Flight.next flights (c.infer taken).1)
      (stepPushes dhtPrefix first taken (c.infer taken).1) := by
  intro k p hp
  unfold stepPushes at hp
  rw [List.getElem?_zipWith_eq_some] at hp
  obtain ⟨m, reply, hm, hreply, hpush⟩ := hp
  split at hpush
  case isFalse => cases hpush
  next hcanPush =>
  -- the stream began with the first step
  rw [List.head?_eq_getElem?] at hfirst
  obtain ⟨firstStep, firstFlight, hfirstStep, -, rfl⟩ := getElem?_directRequests hfirst
  obtain ⟨step, f, hstep, hf, hid, hbatch, hhidden, hstart, hshared⟩ :=
    isCopy_carries hpushed (hcopies k m hm)
  obtain ⟨m', t, t', hm', hrequest⟩ := infer_reply hreply
  obtain rfl : m = m' := Option.some.inj (hm.symm.trans hm')
  obtain ⟨hkeys, hproduced⟩ := keys_of_canPush hrequest hcanPush
  refine ⟨i, firstStep, step, f.next reply, rfl, List.head?_eq_getElem? ▸ hfirstStep, hstep, ?_, ?_⟩
  · rw [List.getElem?_zipWith_eq_some]
    exact ⟨f, reply, hf, hreply, rfl⟩
  unfold pushOutputs at hpush
  split at hpush
  · cases hpush
  next next rest hnext =>
  cases hpush
  refine ⟨hid, hbatch, hhidden, rfl, hstart, hkeys, ?_, rfl, rfl, rfl⟩
  -- nothing was brought and nothing produced, so the next server is sent no keys and values
  have hnone : (unflattenSharedKv [] reply.sharedKvTensors).getD ∅ = ∅ := by
    unfold unflattenSharedKv
    split <;> rfl
  show f.sharedKv.update _ = ∅
  rw [hshared hkeys, hproduced, hnone]
  rfl

end Served

/-! ### Runs -/

section Runs

variable {dhtPrefix : String} {steps : List (ChainStep N)} {i : Nat} {servers : List (ChainServer N)}
  {flights : List (Flight N)} {pushed : List (Option (StepMessage N))} {sessions : List (Served N)}

/-- The two requests carry the same hidden states, hypothesis ids and start position. -/
def SameStep (p d : StepMessage N) : Prop :=
  (p.request.tokens = d.request.tokens ∧ p.request.batchSize = d.request.batchSize ∧
    p.request.hiddenSize = d.request.hiddenSize) ∧
  p.request.hypoIds = d.request.hypoIds ∧
  p.request.startFromPosition = d.request.startFromPosition

/-- Whatever is pushed to a server carries the same as the request that the client sends. -/
def Served.CarriesSame (s : Served N) : Prop :=
  ∀ (k : Nat) (p d : StepMessage N), s.pushed[k]? = some (some p) → s.direct[k]? = some d → SameStep p d

/-- The step is pushed to the server with the number. -/
def PushedTo (steps : List (ChainStep N)) (sessions : List (Served N)) (n : Nat) (step : ChainStep N) :
    Prop :=
  ∃ (s : Served N) (k : Nat) (p : StepMessage N), sessions[n]? = some s ∧ s.pushed[k]? = some (some p) ∧
    steps[k]? = some step

/-- What the client sends with a step to the server after `j` is what it sent to `j` first. -/
def ChainStep.Repeats (step first : ChainStep N) (j : Nat) : Prop :=
  step.hypoIds = first.hypoIds ∧ step.prompts (j + 1) = first.prompts j ∧
    step.perLayerInputs (j + 1) = first.perLayerInputs j

/-- What reaches the servers of a run, one by one. -/
theorem sessions_copies (hids : (steps.map ChainStep.stepId).Nodup)
    (h : ChainRun dhtPrefix steps i servers flights pushed sessions) :
    Copies steps i flights pushed → ∀ (n : Nat) (s : Served N), sessions[n]? = some s →
      ∃ c flights', s.direct = directRequests steps (i + n) c flights' ∧
        Copies steps (i + n) flights' s.pushed := by
  induction h with
  | done _ _ _ =>
    intro _ n s hs
    cases hs
  | idle _ _ _ =>
    intro _ n s hs
    cases hs
  | @served i c servers flights pushed first arrivals taken sessions hfirst harrivals htaken _ ih =>
    intro hpushed n s hs
    cases n with
    | zero =>
      cases hs
      exact ⟨c, flights, rfl, hpushed⟩
    | succ n =>
      obtain ⟨-, hcopies⟩ := taken_copies hids hpushed harrivals htaken
      obtain ⟨c', flights', hdirect, hcopied⟩ :=
        ih (stepPushes_copies hpushed hfirst hcopies) n s hs
      rw [Nat.add_assoc, Nat.add_comm 1] at hdirect hcopied
      exact ⟨c', flights', hdirect, hcopied⟩

/-- Copies that repeat what came first are read like the requests of the client. -/
theorem taken_readAlike {c : ChainServer N} {taken : List (StepMessage N)}
    (hpushed : Copies steps i flights pushed)
    (hlength : taken.length = (directRequests steps i c flights).length)
    (hcopies : ∀ k m, taken[k]? = some m → IsCopy (directRequests steps i c flights) pushed k m)
    (hrepeats : ∀ (k : Nat) (p : StepMessage N) (step first : ChainStep N) (j : Nat),
      pushed[k]? = some (some p) → steps[k]? = some step → steps.head? = some first → i = j + 1 →
        step.Repeats first j) :
    List.Forall₂ (fun m m' => ReadAlike m.request m'.request) taken
      (directRequests steps i c flights) := by
  rw [List.forall₂_iff_get]
  refine ⟨hlength, fun k hk hk' => ?_⟩
  have hm : taken[k]? = some (taken.get ⟨k, hk⟩) := List.getElem?_eq_getElem hk
  have hd : (directRequests steps i c flights)[k]? =
      some ((directRequests steps i c flights).get ⟨k, hk'⟩) := List.getElem?_eq_getElem hk'
  generalize taken.get ⟨k, hk⟩ = m at hm ⊢
  generalize (directRequests steps i c flights).get ⟨k, hk'⟩ = d at hd ⊢
  rcases hcopies k m hm with hdirect | hpush
  · exact Or.inl (congrArg StepMessage.request (Option.some.inj (hdirect.symm.trans hd)))
  · obtain ⟨j, first, step, f, hj, hfirst, hstep, hf, hcopy⟩ := hpushed k m hpush
    obtain ⟨hhypoIds, hprompts, hperLayerInputs⟩ := hrepeats k m step first j hpush hstep hfirst hj
    obtain ⟨step', f', hstep', hf', rfl⟩ := getElem?_directRequests hd
    obtain rfl : step = step' := Option.some.inj (hstep.symm.trans hstep')
    obtain rfl : f = f' := Option.some.inj (hf.symm.trans hf')
    refine Or.inr ⟨hcopy.sharedKvKeys, ?_⟩
    subst hj
    have hkeys : (flattenSharedKv f.sharedKv).1 = [] := by
      rw [hcopy.sharedKv]
      rfl
    rw [← hcopy.hypoIds] at hhypoIds
    rw [← hcopy.prompts] at hprompts
    rw [← hcopy.perLayerInputs] at hperLayerInputs
    simp only [ChainStep.direct, hkeys, hhypoIds, hprompts, hperLayerInputs, ← hcopy.tokens,
      ← hcopy.batchSize, ← hcopy.hiddenSize, ← hcopy.startFromPosition, ← hcopy.sharedKvKeys]

/-- **Pushed or not.** Where all pushed steps repeat what came first, every session goes as without any
push, whatever the order in which the copies arrive. -/
theorem outcomes_direct (hids : (steps.map ChainStep.stepId).Nodup)
    (h : ChainRun dhtPrefix steps i servers flights pushed sessions) :
    Copies steps i flights pushed →
      (∀ (n j : Nat) (step first : ChainStep N), PushedTo steps sessions n step →
        steps.head? = some first → i + n = j + 1 → step.Repeats first j) →
      sessions.map Served.outcome = directOutcomes steps i servers flights := by
  induction h with
  | done _ _ _ => exact fun _ _ => rfl
  | idle i servers _ =>
    intro _ _
    cases servers with
    | nil => rfl
    | cons c servers => rfl
  | @served i c servers flights pushed first arrivals taken sessions hfirst harrivals htaken _ ih =>
    intro hpushed hrepeats
    obtain ⟨hlength, hcopies⟩ := taken_copies hids hpushed harrivals htaken
    have houtcome : c.infer taken = c.infer (directRequests steps i c flights) := by
      refine infer_readAlike (taken_readAlike hpushed hlength hcopies ?_)
      intro k p step first j hp hstep hhead hj
      exact hrepeats 0 j step first ⟨_, k, p, rfl, hp, hstep⟩ hhead hj
    have hrest := ih (stepPushes_copies hpushed hfirst hcopies) (by
      intro n j step first hpushedTo hhead hj
      obtain ⟨s, k, p, hs, hp, hstep⟩ := hpushedTo
      exact hrepeats (n + 1) j step first ⟨s, k, p, hs, hp, hstep⟩ hhead (by omega))
    -- a session that has begun has a step on its way
    cases flights with
    | nil =>
      unfold directRequests at hfirst
      rw [List.zipWith_nil_right] at hfirst
      cases hfirst
    | cons f flights =>
      rw [List.map_cons, hrest, directOutcomes, ← houtcome]

theorem copies_nil : Copies steps 0 flights [] := by
  intro k p hp
  cases hp

end Runs

/-- A run in which every pushed copy carries the same as the request that the client sends, and every
session goes as without pushes. -/
def PushedAsDirect (steps : List (ChainStep N)) (servers : List (ChainServer N))
    (flights : List (Flight N)) (sessions : List (Served N)) : Prop :=
  (∀ s ∈ sessions, s.CarriesSame) ∧ sessions.map Served.outcome = directOutcomes steps 0 servers flights

/-- The cache is the order of two hypotheses: as they were, or exchanged. -/
abbrev hypotheses : Numerics where
  Token := Nat
  LayerInput := Unit
  Kv := Unit
  Tensor := Nat
  Memory := Bool
  Handle := Unit
  HypoIds := Bool
  Failure := Empty
  add x p := .ok (x + p)
  isDummy _ := false
  reorder memory _ exchanged := .ok (memory != exchanged)
  select _ _ _ := .ok ()
  update memory _ _ _ := .ok memory

/-- A server with one block. -/
def relay : ChainServer hypotheses where
  server :=
    { backends := fun _ =>
        { module := .plain fun _ xs _ _ => .ok (⟨xs, rfl⟩, ())
          shardNumHeads := [1]
          dtypeBytes := 1
          maxChunkSizeBytes := 1024 }
      paged := false
      maxBatchSize := 2048
      quantType := .none }
  span := ⟨["model.0"], [[()]], none, 16⟩
  memory := false
  uid := "model.0"
  sessionId := "s"

/-- Two steps; the second may exchange the hypotheses. -/
def relaySteps (exchanged : Bool) : List (ChainStep hypotheses) :=
  [⟨"a", some 0, false, fun _ => none, fun _ => none, fun _ => [⟨"peer", "s", 1, 2⟩]⟩,
    ⟨"b", some 1, exchanged, fun _ => none, fun _ => none, fun _ => [⟨"peer", "s", 1, 2⟩]⟩]

def relayFirst : ChainStep hypotheses :=
  ⟨"a", some 0, false, fun _ => none, fun _ => none, fun _ => [⟨"peer", "s", 1, 2⟩]⟩

def relayFlights : List (Flight hypotheses) := [⟨2, 1, [0], ∅⟩, ⟨2, 1, [1], ∅⟩]

/-- The requests of the client to one of two such servers, where each block returns what it is given. -/
def relayDirect (exchanged : Bool) (i : Nat) : List (StepMessage hypotheses) :=
  directRequests (relaySteps exchanged) i relay relayFlights

/-- The copy that the first server makes of the second step. -/
def relayCopy : StepMessage hypotheses where
  uid := "model.1"
  request := ⟨some 1, 2, 1, [1], none, false, none, [], []⟩
  sessionId := some "s"
  stepId := some "b"
  nextServers := []
  pushed := true

/-- At the second server the copy of the second step comes before the request of the client. -/
def relayTaken (exchanged : Bool) : List (StepMessage hypotheses) :=
  iterateInferenceSteps [] (((relayDirect exchanged 1).take 1 ++ [relayCopy] ++
    (relayDirect exchanged 1).drop 1).map some)

def relayPushed (exchanged : Bool) : List (Option (StepMessage hypotheses)) :=
  stepPushes "model" (relayFirst.direct 0 relay ⟨2, 1, [0], ∅⟩)
   (relayDirect exchanged 0) (relay.infer (relayDirect exchanged 0)).1

/-- The run of the two servers. -/
def relayRun (exchanged : Bool) : List (Served hypotheses) :=
  [⟨relayDirect exchanged 0, [], relay.infer (relayDirect exchanged 0)⟩,
    ⟨relayDirect exchanged 1, relayPushed exchanged, relay.infer (relayTaken exchanged)⟩]

theorem relayRun_run (exchanged : Bool) :
    ChainRun "model" (relaySteps exchanged) 0 [relay, relay] relayFlights [] (relayRun exchanged) := by
  have hcopy : (relayPushed exchanged)[1]? = some (some relayCopy) := by cases exchanged <;> rfl
  have hnext : List.zipWith Flight.next relayFlights (relay.infer (relayDirect exchanged 0)).1 =
      relayFlights := by
    cases exchanged <;> rfl
  have hdirect : ArriveInOrder (IsCopy (relayDirect exchanged 0) []) 0
      (relayFirst.direct 0 relay ⟨2, 1, [0], ∅⟩ :: (relayDirect exchanged 0).drop 1) 2 :=
    .next (Or.inl rfl) (.next (Or.inl rfl) (.nil 2))
  -- the request of the client for the second step is the copy that comes late
  have hlate : ArriveInOrder (IsCopy (relayDirect exchanged 1) (relayPushed exchanged)) 0
      (relayFirst.direct 1 relay ⟨2, 1, [0], ∅⟩ :: relayCopy :: (relayDirect exchanged 1).drop 1) 2 :=
    .next (Or.inl rfl) (.next (Or.inr hcopy) (.again Nat.one_lt_two (Or.inl rfl) (.nil 2)))
  refine .served rfl hdirect (rfl : relayDirect exchanged 0 = _) ?_
  rw [hnext]
  exact .served rfl hlate (rfl : relayTaken exchanged = _) (.done _ _ _)

theorem relaySteps_nodup (exchanged : Bool) :
    ((relaySteps exchanged).map ChainStep.stepId).Nodup := by
  cases exchanged <;> decide

/-- The order of the hypotheses that a session leaves behind. -/
def leftBehind (outcome : SessionOutcome hypotheses) : Option Bool :=
  match outcome.2 with
  | .ok s => some s.memory
  | .error _ => none

end Drift.Server
