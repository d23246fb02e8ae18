import Drift.Lib.Copies
import Drift.Server.InferenceStep

/-!
# Pushed steps

In a chain of servers the client sends the outputs of one server to the next. A server that is told the
next ones of the chain also pushes its outputs there itself, so that a step can reach a server twice: as
the request that the client sends, and as a copy made by the server before it. A session takes the first
copy of each step, by its identifier, and drops the others.

* `iterateInferenceSteps`, `pushOutputs` — the steps that a session takes, and the copies it makes;
* `ChainStep`, `Flight` — what the client sends to each server of the chain;
* `ChainRun` — the runs of a chain, for every order in which copies arrive.
-/

namespace Drift.Server

open Drift.Lib

variable {N : Numerics}

/-! ### Messages -/

/-- An entry of `next_servers`. -/
structure NextServer where
  peerId : String
  sessionId : String
  start : Nat
  stop : Nat
  deriving DecidableEq, Repr

/-- A request of an inference stream or of `rpc_push`, with its metadata. What `iterate_rpc_inference`
reads of the two is the `request`: its tensors, `start_from_position` and `shared_kv_keys`. -/
structure StepMessage (N : Numerics) where
  uid : String
  request : InferenceRequest N
  sessionId : Option String
  stepId : Option String
  nextServers : List NextServer
  pushed : Bool

/-- `_iterate_inference_steps` with the identifiers processed so far: what it yields of the requests
that arrive. A request without tensors, here `none`, ends the stream. -/
def iterateInferenceSteps : List String → List (Option (StepMessage N)) → List (StepMessage N)
  | _, [] => []
  | _, none :: _ => []
  | processed, some m :: arrivals =>
    match m.stepId with
    | none => m :: iterateInferenceSteps processed arrivals
    | some stepId =>
      if stepId ∈ processed then iterateInferenceSteps processed arrivals
      else m :: iterateInferenceSteps (stepId :: processed) arrivals

/-- The uids of the blocks of the next server. -/
def NextServer.uid (dhtPrefix : String) (next : NextServer) : String :=
  " ".intercalate ((List.range' next.start (next.stop - next.start)).map fun i =>
    dhtPrefix ++ "." ++ toString i)

/-- `_push_outputs`: to which peer, and what. The request is the one that opened the stream, whose
tensors after the first go along; the metadata is that of the step. -/
def pushOutputs (dhtPrefix : String) (request : StepMessage N) (outputs : InferenceReply N)
    (step : StepMessage N) : Option (String × StepMessage N) :=
  match step.nextServers with
  | [] => none
  | next :: rest =>
    some (next.peerId,
      { uid := next.uid dhtPrefix
        request := { request.request with
          -- the outputs of a span have the shape of its inputs
          batchSize := step.request.batchSize
          hiddenSize := step.request.hiddenSize
          tokens := outputs.tokens
          startFromPosition := step.request.startFromPosition
          sharedKvKeys := step.request.sharedKvKeys }
        sessionId := some next.sessionId
        stepId := step.stepId
        nextServers := rest
        pushed := true })

/-- What the loop of `rpc_inference` pushes for the steps it has answered. -/
def stepPushes (dhtPrefix : String) (request : StepMessage N) (taken : List (StepMessage N))
    (replies : List (InferenceReply N)) : List (Option (StepMessage N)) :=
  List.zipWith (fun step reply =>
    if reply.canPush then (pushOutputs dhtPrefix request reply step).map Prod.snd else none)
    taken replies

/-! ### The client -/

/-- A server of the chain, and the session that the client has there. -/
structure ChainServer (N : Numerics) where
  server : InferenceServer N
  span : InferenceSpan N
  memory : N.Memory
  uid : String
  sessionId : String

/-- What the client sends in one step, to the server with a given number: prompts and per-layer inputs
are sliced for its span, all else is the same for all servers. -/
structure ChainStep (N : Numerics) where
  stepId : String
  startFromPosition : Option Int
  hypoIds : N.HypoIds
  prompts : Nat → Option (List (Option (List N.Token)))
  perLayerInputs : Nat → Option (List (List N.LayerInput))
  nextServers : Nat → List NextServer

/-- A step on its way along the chain: the hidden states, and the keys and values that the servers so
far have produced. -/
structure Flight (N : Numerics) where
  batchSize : Nat
  hiddenSize : Nat
  tokens : List N.Token
  sharedKv : SharedKv N.Tensor

/-- The request that the client sends for a step. -/
def ChainStep.direct (step : ChainStep N) (i : Nat) (c : ChainServer N) (f : Flight N) :
    StepMessage N where
  uid := c.uid
  request :=
    { startFromPosition := step.startFromPosition
      batchSize := f.batchSize
      hiddenSize := f.hiddenSize
      tokens := f.tokens
      prompts := step.prompts i
      hypoIds := step.hypoIds
      perLayerInputs := step.perLayerInputs i
      sharedKvKeys := (flattenSharedKv f.sharedKv).1
      sharedKvTensors := (flattenSharedKv f.sharedKv).2 }
  sessionId := some c.sessionId
  stepId := some step.stepId
  nextServers := step.nextServers i
  pushed := false

/-- The step after the answer of a server, whose keys and values always pair up. -/
def Flight.next (f : Flight N) (reply : InferenceReply N) : Flight N where
  batchSize := f.batchSize
  hiddenSize := f.hiddenSize
  tokens := reply.tokens
  sharedKv := f.sharedKv.update
    ((unflattenSharedKv reply.sharedKvKeys reply.sharedKvTensors).getD ∅)

/-! ### Runs of a chain -/

/-- What a session has answered when it ends, and how it ends. -/
abbrev SessionOutcome (N : Numerics) :=
  List (InferenceReply N) × Except (InferenceError N) (SessionState N)

/-- The session of a server over the steps it takes. -/
def ChainServer.infer (c : ChainServer N) (taken : List (StepMessage N)) : SessionOutcome N :=
  c.server.iterateRpcInference c.span (taken.map StepMessage.request) c.memory

/-- The requests that the client sends to a server. -/
def directRequests (steps : List (ChainStep N)) (i : Nat) (c : ChainServer N)
    (flights : List (Flight N)) : List (StepMessage N) :=
  List.zipWith (fun step f => step.direct i c f) steps flights

/-- What reached a server, by step, and what came of it. -/
structure Served (N : Numerics) where
  direct : List (StepMessage N)
  pushed : List (Option (StepMessage N))
  outcome : SessionOutcome N

/-- The request that the client sends for a step, or the one that is pushed. -/
def IsCopy (direct : List (StepMessage N)) (pushed : List (Option (StepMessage N))) (k : Nat)
    (m : StepMessage N) : Prop :=
  direct[k]? = some m ∨ pushed[k]? = some (some m)

/-- A run of the servers from number `i` on. The first request of a session is the client's; after it
the copies of the steps arrive in any order, but the client only starts a step once there is an answer
to the one before it, and only those that are not lost. -/
inductive ChainRun (dhtPrefix : String) (steps : List (ChainStep N)) :
    Nat → List (ChainServer N) → List (Flight N) → List (Option (StepMessage N)) →
      List (Served N) → Prop
  | done (i : Nat) (flights : List (Flight N)) (pushed : List (Option (StepMessage N))) :
      ChainRun dhtPrefix steps i [] flights pushed []
  | idle (i : Nat) (servers : List (ChainServer N)) (pushed : List (Option (StepMessage N))) :
      ChainRun dhtPrefix steps i servers [] pushed []
  | served {i : Nat} {c : ChainServer N} {servers : List (ChainServer N)}
      {flights : List (Flight N)} {pushed : List (Option (StepMessage N))}
      {first : StepMessage N} {arrivals taken : List (StepMessage N)} {sessions : List (Served N)}
      (hfirst : (directRequests steps i c flights).head? = some first)
      (harrivals : ArriveInOrder (IsCopy (directRequests steps i c flights) pushed) 0 (first :: arrivals)
        (directRequests steps i c flights).length)
      (htaken : taken = iterateInferenceSteps [] ((first :: arrivals).map some))
      (hrest : ChainRun dhtPrefix steps (i + 1) servers
        (List.zipWith Flight.next flights (c.infer taken).1)
        (stepPushes dhtPrefix first taken (c.infer taken).1) sessions) :
      ChainRun dhtPrefix steps i (c :: servers) flights pushed
        (⟨directRequests steps i c flights, pushed, c.infer taken⟩ :: sessions)

/-- How the sessions go without any push. -/
def directOutcomes (steps : List (ChainStep N)) :
    Nat → List (ChainServer N) → List (Flight N) → List (SessionOutcome N)
  | _, [], _ => []
  | _, _ :: _, [] => []
  | i, c :: servers, f :: flights =>
    let outcome := c.infer (directRequests steps i c (f :: flights))
    outcome :: directOutcomes steps (i + 1) servers (List.zipWith Flight.next (f :: flights) outcome.1)

end Drift.Server
