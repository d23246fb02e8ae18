import Drift.Lib.Causal

/-!
# Inference sessions of a client

`InferenceSession` carries the hidden states of new tokens through a chain of servers, each of which keeps the
attention caches of its blocks. Where a server fails, the blocks of its span are given to other servers, and what the
client has sent to the failed one is sent to them again.

* `serve` — a server: its blocks over their caches;
* `ServerSession.step` — `_ServerInferenceSession.step`, with the replay of the history in chunks;
* `StepLoop.update` — `_update_sequence`;
* `StepLoop.attempt`, `InferenceSession.step` — the loop over the servers, with its retries;
* `InferenceSession.run` — a whole session.

A batch is the list of its positions: a token holds the hidden states of all rows at one position. Deep prompts,
`hypo_ids`, per-layer inputs and shared keys and values are left out. All that the loop cannot know is in its answers:
what `make_sequence` finds, whether the servers are reached, and which request fails. `next_servers` is never sent by
this client, since a position always is.
-/

namespace Drift.Client

open Drift.Lib

variable {α : Type}

/-- `inputs[:, -n:]`. -/
def lastTokens (n : Nat) (xs : List α) : List α := if n = 0 then xs else xs.drop (xs.length - n)

/-! ### Servers -/

/-- The blocks of a span, each of which computes on its cache: what it was given up to `position`, and the tokens that
are new. The new caches, and what the last block returns for the new tokens. -/
def serve : List (List α → List α) → Nat → List (List α) → List α → List (List α) × List α
  | block :: blocks, position, cache :: caches, xs =>
    let cache' := cache.take position ++ xs
    let (caches', ys) := serve blocks position caches ((block cache').drop position)
    (cache' :: caches', ys)
  | _, _, _, xs => ([], xs)

/-- The part of `RemoteSpanInfo` that a session reads. -/
structure BlockSpan where
  start : Nat
  stop : Nat
  deriving DecidableEq, Repr

/-- The blocks, of which there is at least one, `max_length`, and what of the configuration is read:
`replay_chunk_size`, and `max_retries`, for batches of a size. A block is any causal function. -/
structure SessionSetup (α : Type) where
  blocks : List (List α → List α)
  causal : ∀ block ∈ blocks, Causal block
  nonempty : blocks ≠ []
  maxLength : Nat
  replayChunkSize : Nat
  batchSize : Nat
  maxRetries : Option Nat

/-- `replay_chunk_tokens`. -/
def SessionSetup.replayChunkTokens (setup : SessionSetup α) : Nat := max (setup.replayChunkSize / setup.batchSize) 1

def SessionSetup.spanBlocks (setup : SessionSetup α) (span : BlockSpan) : List (List α → List α) :=
  (setup.blocks.take span.stop).drop span.start

/-- The exceptions of a step. All but the first, which is raised before the loop, are caught by the loop. -/
inductive StepFailure
  /-- "Maximum length exceeded". -/
  | maximumLength
  /-- "Session is closed, cannot perform step". -/
  | closed
  /-- "Cannot restore span". -/
  | restore
  | assertion
  | index
  /-- A request that fails. -/
  | request
  /-- No route is found, or a server of the route is not reached. -/
  | route
  deriving DecidableEq, Repr

/-- `_ServerInferenceSession`, and what its server has: the caches of its blocks and the length of its prefix. -/
structure ServerSession (α : Type) where
  span : BlockSpan
  position : Nat
  history : Option (List α)
  replayTarget : Option Nat
  stepped : Bool
  closed : Bool
  prefixLength : Nat
  caches : List (List α)

namespace ServerSession

variable (setup : SessionSetup α)

/-- `create`. -/
def create (span : BlockSpan) : ServerSession α where
  span := span
  position := 0
  history := none
  replayTarget := none
  stepped := false
  closed := false
  prefixLength := 0
  caches := List.replicate (span.stop - span.start) []

/-- The history that a replay sends, where enough of it is there. -/
def restored (s : ServerSession α) (target : Nat) (inputs : List α) : Option (List α) :=
  match s.history with
  | none => some inputs
  | some history =>
    if history.length < target then
      if target - history.length ≤ inputs.length then
        some (history ++ lastTokens (target - history.length) inputs)
      else none
    else some history

/-- The history with the new tokens. -/
def extended (s : ServerSession α) (inputs : List α) : List α :=
  match s.history with
  | none => inputs
  | some history => if history.length = s.position then history ++ lastTokens inputs.length inputs else history

/-- What a step sends, and the session with its history. -/
def prepare (s : ServerSession α) (inputs : List α) : Except StepFailure (List α) × ServerSession α :=
  match s.replayTarget with
  | some target =>
    if s.position ≠ 0 then (.error .assertion, s)
    else
      match s.restored target inputs with
      | none => (.error .restore, s)
      | some history =>
        if history.length ≠ target then (.error .restore, { s with history := some history })
        else (.ok history, { s with history := some history })
  | none =>
    let history := s.extended inputs
    if history.length ≠ s.position + inputs.length then (.error .assertion, { s with history := some history })
    else
      (.ok (if s.stepped then lastTokens inputs.length inputs else history), { s with history := some history })

/-- A request, for `n` tokens more. A server refuses a position past its prefix, and more than `max_length`. -/
def request (fails : Bool) (n : Nat) (s : ServerSession α) (inputs : List α) :
    Except StepFailure (List α) × ServerSession α :=
  if fails ∨ s.prefixLength < s.position ∨ setup.maxLength < s.position + inputs.length then
    (.error .request, { s with stepped := true })
  else
    let (caches, outputs) := serve (setup.spanBlocks s.span) s.position s.caches inputs
    let s' := { s with stepped := true, prefixLength := s.position + inputs.length, caches := caches }
    if outputs.length ≠ inputs.length then (.error .assertion, s')
    else (.ok outputs, { s' with position := s.position + n, replayTarget := none })

/-- A step of a session that does not replay. -/
def plainStep (fails : Bool) (s : ServerSession α) (inputs : List α) :
    Except StepFailure (List α) × ServerSession α :=
  match s.prepare inputs with
  | (.error e, s') => (.error e, s')
  | (.ok xs, s') => s'.request setup fails inputs.length xs

/-- `full_history[:, chunk_start:chunk_end, :]` for the starts in `range(0, n_input_tokens, replay_chunk_tokens)`. -/
def chunks (k : Nat) (xs : List α) : List (List α) :=
  (List.range ((xs.length + k - 1) / k)).map fun i => (xs.drop (i * k)).take k

/-- The chunks of a replay, one after the other. `served` counts the requests before the one that fails. -/
def replayChunks : List (List α) → Option Nat → ServerSession α → Except StepFailure (List α) × ServerSession α
  | [], _, s => (.ok [], s)
  | chunk :: rest, served, s =>
    match s.plainStep setup (decide (served = some 0)) chunk with
    | (.error e, s') => (.error e, s')
    | (.ok output, s') =>
      match replayChunks rest (served.map (· - 1)) s' with
      | (.error e, s'') => (.error e, s'')
      | (.ok outputs, s'') => (.ok (output ++ outputs), s'')

/-- `_ServerInferenceSession.step`. -/
def step (served : Option Nat) (s : ServerSession α) (inputs : List α) :
    Except StepFailure (List α) × ServerSession α :=
  if s.closed then (.error .closed, s)
  else
    match s.replayTarget with
    | none => s.plainStep setup (decide (served = some 0)) inputs
    | some _ =>
      match s.prepare inputs with
      | (.error e, s') => (.error e, s')
      | (.ok xs, s') =>
        if setup.replayChunkTokens < xs.length then
          -- the history is kept whole, also where a chunk fails
          match replayChunks setup (chunks setup.replayChunkTokens xs) served
              { s' with replayTarget := none, history := none } with
          | (.error e, s'') => (.error e, { s'' with history := some xs })
          | (.ok outputs, s'') =>
            if s''.position ≠ xs.length then (.error .assertion, { s'' with history := some xs })
            else (.ok outputs, { s'' with history := some xs })
        else s'.request setup (decide (served = some 0)) xs.length xs

/-- `prepare_for_replay`. -/
def prepareForReplay (s : ServerSession α) (history : Option (List α)) (target : Nat) : ServerSession α :=
  { s with history := history, replayTarget := some target }

/-- The setter of `position`, for a position that is not past the present one. -/
def setPosition (p : Nat) (s : ServerSession α) : ServerSession α where
  span := s.span
  position := p
  history := s.history.bind fun history =>
    if p ≤ history.length then (if p = 0 then none else some (history.take p)) else some history
  replayTarget := s.replayTarget
  stepped := s.stepped
  closed := s.closed
  prefixLength := s.prefixLength
  caches := s.caches

end ServerSession

/-! ### The loop over the servers -/

/-- `InferenceSession`. -/
structure InferenceSession (α : Type) where
  sessions : List (ServerSession α)
  position : Nat

/-- What the loop cannot know of an attempt: what `make_sequence` finds between two blocks, where a route is found and
its servers are reached, and the number of requests before the one that fails, if one does. -/
structure Answer where
  route : Nat → Nat → Option (List BlockSpan)
  served : Option Nat

/-- The variables of the loop. -/
structure StepLoop (α : Type) where
  sessions : List (ServerSession α)
  serverIdx : Nat
  blockIdx : Nat
  attemptNo : Nat
  recoveryUntil : Option Nat
  inputs : List α

/-- `updated_spans[-1].end = min(updated_spans[-1].end, update_end)`. -/
def clipLast (updateEnd : Nat) : List BlockSpan → List BlockSpan
  | [] => []
  | [span] => [⟨span.start, min span.stop updateEnd⟩]
  | span :: rest => span :: clipLast updateEnd rest

/-- The new sessions of a span whose history is sent again: the first one has the history, the others get theirs from
the one before. -/
def replaySessions (history : List α) (target : Nat) : List BlockSpan → List (ServerSession α)
  | [] => []
  | span :: rest => (ServerSession.create span).prepareForReplay (some history) target ::
      rest.map fun span => (ServerSession.create span).prepareForReplay none target

namespace StepLoop

variable (setup : SessionSetup α) (position n : Nat)

/-- The end of the blocks that a new route is for. -/
def updateEnd (loop : StepLoop α) : Nat :=
  match loop.sessions[loop.serverIdx]? with
  | some previous => previous.span.stop
  | none => setup.blocks.length

/-- The failed session is closed. -/
def exitFailed (loop : StepLoop α) : StepLoop α :=
  { loop with sessions := loop.sessions.modify loop.serverIdx fun s => { s with closed := true } }

/-- The failed session is replaced, or the first ones are added. -/
def splice (loop : StepLoop α) (updated : List (ServerSession α)) : StepLoop α :=
  { loop with sessions := loop.sessions.take loop.serverIdx ++ updated ++ loop.sessions.drop (loop.serverIdx + 1) }

/-- `_update_sequence`, and the end of the replay that it starts. -/
def update (loop : StepLoop α) (route : Nat → Nat → Option (List BlockSpan)) :
    Except StepFailure (Option Nat) × StepLoop α :=
  let target := position + n
  let updateEnd := loop.updateEnd setup
  match (route loop.blockIdx updateEnd).map (clipLast updateEnd) with
  | none => (.error .route, loop.exitFailed)
  | some [] => (.error .index, loop.exitFailed)
  | some spans =>
    match loop.sessions[loop.serverIdx]? with
    | none => (.ok none, loop.splice (spans.map ServerSession.create))
    | some previous =>
      match previous.history with
      | none => (.ok none, loop.splice (spans.map ServerSession.create))
      | some history =>
        if target = 0 then (.ok none, loop.splice (spans.map ServerSession.create))
        else if history.length < position ∨ target < history.length then (.error .restore, loop.exitFailed)
        else if spans.any fun span => decide (span.start < previous.span.start ∨ span.stop ≤ span.start ∨
            previous.span.stop < span.stop) then (.error .assertion, loop.exitFailed)
        else (.ok (some updateEnd), loop.splice (replaySessions history target spans))

/-- `replay_until if recovery_until is None else max(recovery_until, replay_until)`. -/
def recoveryEnd : Option Nat → Nat → Nat
  | none, replayUntil => replayUntil
  | some recoveryUntil, replayUntil => max recoveryUntil replayUntil

/-- The loop with the replay that a new route has started. -/
def recovering (loop : StepLoop α) (replayUntil : Option Nat) : StepLoop α :=
  match replayUntil with
  | none => loop
  | some e => { loop with recoveryUntil := some (recoveryEnd loop.recoveryUntil e) }

/-- A server has answered. Past the blocks that were replayed, only the new tokens go on. -/
def advance (loop : StepLoop α) (stop : Nat) (outputs : List α) : Except StepFailure Unit × StepLoop α :=
  let loop := { loop with serverIdx := loop.serverIdx + 1, blockIdx := stop, inputs := outputs }
  match loop.recoveryUntil with
  | none => (.ok (), loop)
  | some r =>
    if stop < r then (.ok (), loop)
    else if stop ≠ r then (.error .assertion, loop)
    else (.ok (), { loop with inputs := lastTokens n outputs, recoveryUntil := none })

/-- The session of the loop takes its step. -/
def serveNext (loop : StepLoop α) (served : Option Nat) : Except StepFailure Unit × StepLoop α :=
  match loop.sessions[loop.serverIdx]? with
  | none => (.error .index, loop)
  | some s =>
    if s.position ≠ (if s.replayTarget.isSome then 0 else position) then (.error .assertion, loop)
    else
      match s.step setup served loop.inputs with
      | (.error e, s') => (.error e, { loop with sessions := loop.sessions.set loop.serverIdx s' })
      | (.ok outputs, s') =>
        { loop with sessions := loop.sessions.set loop.serverIdx s' }.advance n s'.span.stop outputs

/-- An attempt, up to its `break` or its exception. -/
def attempt (loop : StepLoop α) (a : Answer) : Except StepFailure Unit × StepLoop α :=
  if loop.sessions.isEmpty ∨ 1 ≤ loop.attemptNo then
    match loop.update setup position n a.route with
    | (.error e, loop') => (.error e, loop')
    | (.ok replayUntil, loop') => (loop'.recovering replayUntil).serveNext setup position n a.served
  else loop.serveNext setup position n a.served

/-- The loop, with an answer for each attempt. It gives up with the exception of the last attempt. -/
def go : List Answer → StepLoop α → Option (Except StepFailure (List α) × StepLoop α)
  | [], loop => if setup.blocks.length ≤ loop.blockIdx then some (.ok loop.inputs, loop) else none
  | a :: answers, loop =>
    if setup.blocks.length ≤ loop.blockIdx then none
    else
      match loop.attempt setup position n a with
      | (.ok (), loop') => go answers { loop' with attemptNo := 0 }
      | (.error e, loop') =>
        if setup.maxRetries = some (loop.attemptNo + 1) then (if answers.isEmpty then some (.error e, loop') else none)
        else go answers { loop' with attemptNo := loop.attemptNo + 1 }

end StepLoop

namespace InferenceSession

variable (setup : SessionSetup α)

/-- A session before its first step. -/
def start : InferenceSession α := ⟨[], 0⟩

/-- `InferenceSession.step`, where there are as many answers as the loop asks for. -/
def step (s : InferenceSession α) (inputs : List α) (answers : List Answer) :
    Option (Except StepFailure (List α) × InferenceSession α) :=
  if setup.maxLength < s.position + inputs.length then
    if answers.isEmpty then some (.error .maximumLength, s) else none
  else
    match StepLoop.go setup s.position inputs.length answers ⟨s.sessions, 0, 0, 0, none, inputs⟩ with
    | none => none
    | some (.error e, loop) => some (.error e, { s with sessions := loop.sessions })
    | some (.ok outputs, loop) =>
      some (.ok (lastTokens inputs.length outputs), ⟨loop.sessions, s.position + inputs.length⟩)

/-- The setter of `position`, on the sessions of the servers. -/
def setPositions (p : Nat) : List (ServerSession α) → Except StepFailure Unit × List (ServerSession α)
  | [] => (.ok (), [])
  | s :: rest =>
    if p ≤ s.position then
      let (result, rest') := setPositions p rest
      (result, s.setPosition p :: rest')
    else (.error .assertion, s :: rest)

/-- The setter of `position`. -/
def setPosition (p : Nat) (s : InferenceSession α) : Except StepFailure Unit × InferenceSession α :=
  let (result, sessions) := setPositions p s.sessions
  (result, ⟨sessions, p⟩)

end InferenceSession

/-- What is done with a session: a step, with the answers to its loop, or a new position. -/
inductive SessionOp (α : Type)
  | step (inputs : List α) (answers : List Answer)
  | setPosition (p : Nat)

namespace InferenceSession

variable (setup : SessionSetup α)

/-- A session whose operations all return, and what its steps return. -/
def run : List (SessionOp α) → InferenceSession α → Option (List (List α) × InferenceSession α)
  | [], s => some ([], s)
  | .step inputs answers :: ops, s =>
    match s.step setup inputs answers with
    | some (.ok outputs, s') => (run ops s').map fun r => (outputs :: r.1, r.2)
    | _ => none
  | .setPosition p :: ops, s =>
    match s.setPosition p with
    | (.ok (), s') => run ops s'
    | (.error _, _) => none

end InferenceSession

end Drift.Client
