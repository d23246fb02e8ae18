import Drift.Client.RoutingTable
import Drift.Client.SessionRecovery
import Drift.Lib.CostGraph
import Drift.Lib.Outcome
import Drift.Server.CacheAccounting

/-!
# Routes of least latency

`_make_sequence_with_min_latency` builds a graph of what every server does to every block, and of the hops between
them, asks for a cheapest walk, and reads the hops of the route off its nodes. `dijkstar.find_path` is a parameter.
Delays are exact fractions where the source has floats.

* `buildInferenceGraph`, `makeSequenceWithMinLatency` — the source;
* `Chain`, `hops`, `chainDelay` — what the graph stands for: the servers of a route, each of which but the last is
  followed to the end of its span, with the delay that each one adds.
-/

namespace Drift.Client

open Drift.Lib Drift.Dht

/-! ### What a server announces -/

/-- `next_pings`. -/
def nextPings (info : ServerInfo) : Option (List (String × Json)) :=
  match info.otherFields.lookup "next_pings" with
  | some (.obj pings) => some pings
  | _ => none

/-- `inference_rps`. -/
def inferenceRps (info : ServerInfo) : Option ℚ :=
  (info.otherFields.lookup "inference_rps").bind Json.number?

/-- `cache_tokens_left`. -/
def cacheTokensLeft (info : ServerInfo) : Option Int :=
  match info.otherFields.lookup "cache_tokens_left" with
  | some (.int tokens) => some tokens
  | _ => none

/-- A round trip. One that no fraction is equal to is infinite. -/
def rttOf (value : Json) : WithTop ℚ :=
  match value.number? with
  | some rtt => rtt
  | none => ⊤

/-! ### Delays -/

/-- `default_inference_rps`. -/
def defaultInferenceRps : ℚ := 300

/-- `overhead_delay`. -/
def overheadDelay : ℚ := 18 / 1000

/-- `alloc_delay`. -/
def allocDelay : ℚ := 10

/-- `_rtt_to_delay`. -/
def rttToDelay : Option (WithTop ℚ) → ℚ
  | none => 15 / 100
  | some none => 5
  | some (some rtt) => min (rtt / 2) 5

/-- `_has_cache_for`. -/
def hasCacheFor (span : RemoteSpanInfo) (cacheTokensNeeded : Option Nat) : Bool :=
  Drift.Server.hasCacheFor span.length.toNat (cacheTokensLeft span.serverInfo) cacheTokensNeeded

/-- The delay of a hop to a server, after the given round trip. -/
def hopDelay (rtt : Option (WithTop ℚ)) (cacheTokensNeeded : Option Nat) (span : RemoteSpanInfo) : ℚ :=
  rttToDelay rtt + overheadDelay + if hasCacheFor span cacheTokensNeeded then 0 else allocDelay

/-- The round trip between two servers, as the first one announces it. -/
def nextRtt (curSpan nextSpan : RemoteSpanInfo) : Option (WithTop ℚ) :=
  (nextPings curSpan.serverInfo).bind fun pings => (pings.lookup nextSpan.peerId).map rttOf

/-- The requests a second that a server is taken to answer. -/
def spanRps (span : RemoteSpanInfo) : ℚ := (inferenceRps span.serverInfo).getD defaultInferenceRps

/-! ### The graph -/

/-- The nodes: `"start"`, `(peer_id, block_idx)` and `"end"`. -/
inductive RouteNode
  | start
  | server (peerId : String) (block : Nat)
  | stop
  deriving DecidableEq, Repr

/-- The exceptions. -/
inductive RouteError
  /-- `MissingBlocksError`. -/
  | missingBlocks (blocks : List Nat)
  /-- `ZeroDivisionError`. -/
  | zeroDivision
  /-- `dijkstar.NoPathError`. -/
  | noPath
  /-- `"start"` or `"end"` between the ends of the path. -/
  | unpack
  /-- `server_infos[peer_id]`. -/
  | key (peerId : String)
  deriving DecidableEq, Repr

/-- `range(start_index, end_index)`. -/
def blockRange (startIndex endIndex : Nat) : List Nat := List.range' startIndex (endIndex - startIndex)

/-- What a search depends on besides the table: `dijkstar.find_path`, what the ping aggregator returns, and the
arguments of `make_sequence`, for blocks of the table. -/
structure LatencyQuery where
  findPath : CostGraph RouteNode ℚ → RouteNode → RouteNode → Option (CostGraph.PathInfo RouteNode ℚ)
  clientServerRtts : Dict String (WithTop ℚ)
  cacheTokensNeeded : Option Nat
  startIndex : Nat
  endIndex : Nat

namespace RemoteSequenceInfo

/-- `spans_containing_block[block_idx]`. -/
def spansAt (s : RemoteSequenceInfo) (block : Nat) : List RemoteSpanInfo := s.spansContainingBlock[block]?.getD []

/-- `missing_blocks`. -/
def missingBlocks (s : RemoteSequenceInfo) (q : LatencyQuery) : List Nat :=
  (blockRange q.startIndex q.endIndex).filter fun block => (s.spansAt block).isEmpty

/-- `server_infos`. -/
def serverInfos (s : RemoteSequenceInfo) (q : LatencyQuery) : Dict String ServerInfo :=
  Dict.ofPairs ((blockRange q.startIndex q.endIndex).flatMap fun block =>
    (s.spansAt block).map fun span => (span.peerId, span.serverInfo))

/-- "Client -> server network delays". -/
def startEdges (s : RemoteSequenceInfo) (q : LatencyQuery) : List ((RouteNode × RouteNode) × ℚ) :=
  (s.spansAt q.startIndex).map fun span =>
    ((.start, .server span.peerId q.startIndex),
      hopDelay (q.clientServerRtts.lookup span.peerId) q.cacheTokensNeeded span)

/-- "Server -> client network delays". -/
def stopEdges (s : RemoteSequenceInfo) (q : LatencyQuery) : List ((RouteNode × RouteNode) × ℚ) :=
  (s.spansAt (q.endIndex - 1)).map fun span =>
    ((.server span.peerId q.endIndex, .stop), rttToDelay (q.clientServerRtts.lookup span.peerId))

/-- "Server -> server network delays". A server is followed to the end of its span. -/
def handoverEdges (s : RemoteSequenceInfo) (q : LatencyQuery) : List ((RouteNode × RouteNode) × ℚ) :=
  (blockRange (q.startIndex + 1) q.endIndex).flatMap fun block =>
    ((s.spansAt (block - 1)).filter fun curSpan => decide (curSpan.stop = (block : Int))).flatMap fun curSpan =>
      (s.spansAt block).map fun nextSpan =>
        ((.server curSpan.peerId block, .server nextSpan.peerId block),
          hopDelay (nextRtt curSpan nextSpan) q.cacheTokensNeeded nextSpan)

/-- The blocks of the loop of "Compute delays", span by span. -/
def computeSteps (s : RemoteSequenceInfo) (q : LatencyQuery) : List (RemoteSpanInfo × Nat) :=
  s.spansByPriority.flatMap fun span =>
    ((blockRange q.startIndex q.endIndex).filter fun block : Nat =>
      decide (span.start ≤ (block : Int) ∧ (block : Int) < span.stop)).map fun block => (span, block)

/-- One iteration of that loop. -/
def computeEdge (step : RemoteSpanInfo × Nat) : Except RouteError ((RouteNode × RouteNode) × ℚ) :=
  if spanRps step.1 = 0 then .error .zeroDivision
  else .ok ((.server step.1.peerId step.2, .server step.1.peerId (step.2 + 1)), 1 / spanRps step.1)

/-- `_build_inference_graph`. -/
def buildInferenceGraph (s : RemoteSequenceInfo) (q : LatencyQuery) : Except RouteError (CostGraph RouteNode ℚ) :=
  if s.missingBlocks q ≠ [] then .error (.missingBlocks (s.missingBlocks q))
  else do
    let computeEdges ← (s.computeSteps q).mapM computeEdge
    return Dict.ofPairs (s.startEdges q ++ s.stopEdges q ++ s.handoverEdges q ++ computeEdges)

/-- `span_sequence.append(RemoteSpanInfo(peer_id, block_idx, block_idx, server_infos[peer_id]))`. -/
def beginSpan (infos : Dict String ServerInfo) (spanSequence : List RemoteSpanInfo) (peerId : String) (block : Nat) :
    Except RouteError (List RemoteSpanInfo) :=
  match infos.lookup peerId with
  | some info => .ok (spanSequence ++ [⟨peerId, block, block, info⟩])
  | none => .error (.key peerId)

/-- One iteration of the loop that reads the spans off the path. -/
def addNode (infos : Dict String ServerInfo) (spanSequence : List RemoteSpanInfo) :
    RouteNode → Except RouteError (List RemoteSpanInfo)
  | .server peerId block =>
    match spanSequence.getLast? with
    | some last =>
      if last.peerId ≠ peerId then beginSpan infos spanSequence peerId block
      else .ok (spanSequence.dropLast ++ [{ last with stop := block }])
    | none => beginSpan infos spanSequence peerId block
  | _ => .error .unpack

/-- `_make_sequence_with_min_latency`. For a route of all blocks the speed is logged. -/
def makeSequenceWithMinLatency (s : RemoteSequenceInfo) (q : LatencyQuery) : Except RouteError (List RemoteSpanInfo) :=
  if q.startIndex = q.endIndex then .ok []
  else if s.missingBlocks q ≠ [] then .error (.missingBlocks (s.missingBlocks q))
  else do
    let graph ← s.buildInferenceGraph q
    match q.findPath graph .start .stop with
    | none => .error .noPath
    | some path =>
      if q.startIndex = 0 ∧ q.endIndex = s.blockUids.length ∧ path.totalCost = 0 then .error .zeroDivision
      else do
        let spanSequence ← (path.nodes.drop 1).dropLast.foldlM (addNode (s.serverInfos q)) []
        return spanSequence.filter fun span => decide (0 < span.length)

/-! ### Routes, server by server -/

/-- The servers of a route from a block to `endIndex`. Each of them is followed to the end of its span, and the last
one to `endIndex` at most. -/
inductive Chain (s : RemoteSequenceInfo) (endIndex : Nat) : Nat → List RemoteSpanInfo → Prop
  | last {current : Nat} {span : RemoteSpanInfo} (hspan : span ∈ s.spansAt current) (hstop : endIndex ≤ span.stop) :
      Chain s endIndex current [span]
  | hop {current : Nat} {span : RemoteSpanInfo} {rest : List RemoteSpanInfo} (hspan : span ∈ s.spansAt current)
      (hstop : span.stop < endIndex) (hrest : Chain s endIndex span.stop.toNat rest) :
      Chain s endIndex current (span :: rest)

end RemoteSequenceInfo

/-- What each server of a route is asked for. -/
def hops (endIndex : Nat) : Nat → List RemoteSpanInfo → List RemoteSpanInfo
  | _, [] => []
  | current, span :: rest =>
    { span with start := current, stop := min span.stop endIndex } :: hops endIndex span.stop.toNat rest

namespace LatencyQuery

/-- The round trip to a server, from the client or from the server before. -/
def rttFrom (q : LatencyQuery) : Option RemoteSpanInfo → RemoteSpanInfo → Option (WithTop ℚ)
  | none, span => q.clientServerRtts.lookup span.peerId
  | some curSpan, span => nextRtt curSpan span

/-- The delay of the servers of a route after the given one: the hops, the time of each block, and the way back. -/
def chainDelay (q : LatencyQuery) (before : Option RemoteSpanInfo) (current : Nat) : List RemoteSpanInfo → ℚ
  | [] => rttToDelay (before.bind fun span => q.clientServerRtts.lookup span.peerId)
  | span :: rest =>
    hopDelay (q.rttFrom before span) q.cacheTokensNeeded span +
      ((min span.stop q.endIndex - current : Int) / spanRps span + q.chainDelay (some span) span.stop.toNat rest)

end LatencyQuery

end Drift.Client
