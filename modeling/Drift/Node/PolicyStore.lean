import Drift.Lib.Json
import Drift.Node.WorkerSupervisor

/-!
# The contribution policy and its file

`ContributionPolicyStore.update` replaces the contribution policy of a node in three places: the
configuration file, the store itself, and the supervisor. It checks everything first, and lets the
supervisor's `reconfigure` call it back once the workers are known to be paused; the callback exchanges
the file for one with the new policy, looks at what it has displaced, and exchanges back if that is not
what it expected. The supervisor and the store follow only if the callback returns.

The call is a sequence of steps, each of which can raise. Other programs that do not know the sidecar lock
may replace the file between any two of them. On Linux the exchange is `renameat2`; on Windows it is
`ReplaceFileW`, which moves the displaced file to a backup, and may fail after it has done only that.

* `PolicyCode` — what the store calls;
* `PolicyState.next` — the steps of `update` and of `_atomic_replace_locked`, and the other programs'.
-/

namespace Drift.Node

open Drift.Lib

/-! ### The state -/

/-- `os.name`, as far as it is supported. -/
inductive Platform
  | posix | nt
  deriving DecidableEq, Repr

/-- The configuration file and those that one update makes next to it. -/
inductive ConfigPath
  | config
  /-- The temporary file with the new document. -/
  | candidate
  /-- On Windows, where the first exchange and the second put what they displace. -/
  | backup
  | secondBackup
  deriving DecidableEq, Repr

/-- `WorkerSupervisorSettings`: the launches by their normalized ids, and the callbacks with the stop
timeout. -/
structure SupervisorSettings (W S : Type) where
  launches : Dict W WorkerLaunch
  callbacks : S

/-- Hashing and JSON, and the reading of configurations and policies. A reading that raises is `none`. -/
structure PolicyCode (Bytes Policy Config W S : Type) where
  sha256Hex : Bytes → String
  size : Bytes → Nat
  /-- `json.loads` of strict UTF-8 JSON. -/
  loads : Bytes → Option Json
  /-- `json.dumps` with the final newline. -/
  dumps : List (String × Json) → Option Bytes
  /-- `ContributionPolicyConfig.from_dict` and `to_dict`. -/
  policyFromDict : Json → Option Policy
  policyToDict : Policy → Json
  /-- `NodeConfig.from_dict`. -/
  nodeConfig : List (String × Json) → Option Config
  contributionPolicy : Config → Policy
  prepare : Config → Option (SupervisorSettings W S)

/-- What `update` raises. -/
inductive PolicyError
  /-- `ContributionPolicyConflictError`. -/
  | conflict
  /-- `ContributionPolicyPersistenceError`. -/
  | persistence
  /-- `NodeConfigError`, or whatever a validation raises. -/
  | config
  | supervisor (e : SupervisorError)
  | os
  deriving DecidableEq, Repr

/-- The document with the new policy, and what was compiled from it. -/
structure PolicyCandidate (Bytes Config W S : Type) where
  payload : Bytes
  config : Config
  settings : SupervisorSettings W S

/-- A call of `update`, and the answers that its `reconfigure` gets from the processes and the clock. -/
structure PolicyCall (W : Type) where
  source : Json
  expectedRevision : String
  exited : W → List Nat
  now : W → Rat

/-- An update whose callback runs. The supervisor's lock is held meanwhile; what `reconfigure` makes of
it is known but for whether the callback returns. -/
structure PolicyUpdate (Bytes Config W S : Type) where
  expected : String
  candidate : PolicyCandidate Bytes Config W S
  persisted : Supervisor W
  unpersisted : Supervisor W

/-- The two exchanges. -/
inductive Exchange
  | commit | restore
  deriving DecidableEq, Repr

/-- The next step of the call. -/
inductive PolicyStage (Bytes Config W S : Type)
  | called (call : PolicyCall W)
  | locking (u : PolicyUpdate Bytes Config W S)
  | checking (u : PolicyUpdate Bytes Config W S)
  | writing (u : PolicyUpdate Bytes Config W S)
  | rechecking (u : PolicyUpdate Bytes Config W S)
  | exchanging (u : PolicyUpdate Bytes Config W S) (x : Exchange)
  /-- `ReplaceFileW` has moved the file to the backup, and failed. -/
  | failed (u : PolicyUpdate Bytes Config W S) (x : Exchange)
  | recovering (u : PolicyUpdate Bytes Config W S) (x : Exchange)
  | verifying (u : PolicyUpdate Bytes Config W S)
  | unlinking (u : PolicyUpdate Bytes Config W S)
  | syncing (u : PolicyUpdate Bytes Config W S)
  /-- The `finally` clause, with the value of `temporary`. -/
  | cleaning (u : PolicyUpdate Bytes Config W S) (temporary : Option ConfigPath)
      (result : Except PolicyError Unit)
  | unlocking (u : PolicyUpdate Bytes Config W S) (result : Except PolicyError Unit)
  | done (result : Except PolicyError Unit)

/-- The files, the store, the supervisor and the call. To speak of the run it also keeps the document
that another program has written last, and the one that the first exchange has displaced. -/
structure PolicyState (Bytes Policy Config W S : Type) where
  files : ConfigPath → Option Bytes
  policy : Policy
  revision : String
  supervisor : Supervisor W
  callbacks : S
  stage : PolicyStage Bytes Config W S
  latest : Option Bytes
  displaced : Option Bytes

/-- How a step goes. -/
inductive StepOutcome
  | succeeds
  | raises
  /-- `_safe_config_path` refuses the path. -/
  | refused
  /-- `ReplaceFileW` fails after it has moved the file to the backup. -/
  | moved
  deriving DecidableEq, Repr

inductive PolicyEvent (Bytes : Type)
  | own (o : StepOutcome)
  /-- Another program replaces the file. -/
  | foreign (document : Bytes)

/-! ### Documents -/

variable {Bytes Policy Config W S : Type} [DecidableEq W]

namespace PolicyCode

variable (code : PolicyCode Bytes Policy Config W S)

def maxNodeConfigBytes : Nat := 4 * 1024 * 1024

/-- `_revision`. -/
def revision (payload : Bytes) : String := "sha256:" ++ code.sha256Hex payload

/-- `_parse_document`. -/
def parseDocument (payload : Bytes) : Option (List (String × Json)) :=
  if maxNodeConfigBytes < code.size payload then none
  else
    match code.loads payload with
    | some (.obj document) => some document
    | _ => none

/-- `document[name] = value`. -/
def setField (name : String) (value : Json) : List (String × Json) → List (String × Json)
  | [] => [(name, value)]
  | (k, v) :: fields =>
    if k = name then (k, value) :: fields else (k, v) :: setField name value fields

/-- The part of `update` between the reading of the file and `reconfigure`. -/
def compile (document : List (String × Json)) (source : Json) :
    Option (PolicyCandidate Bytes Config W S) := do
  let policy ← code.policyFromDict source
  let candidate := setField "contribution_policy" (code.policyToDict policy) document
  let config ← code.nodeConfig candidate
  let settings ← code.prepare config
  let payload ← code.dumps candidate
  pure ⟨payload, config, settings⟩

end PolicyCode

/-! ### Exchanges -/

/-- The file that is moved to the configuration's place. -/
def Exchange.replacement (platform : Platform) : Exchange → ConfigPath
  | .commit => .candidate
  | .restore =>
    match platform with
    | .posix => .candidate
    | .nt => .backup

def Exchange.backup : Exchange → ConfigPath
  | .commit => .backup
  | .restore => .secondBackup

/-- The path that `_exchange_paths` returns. -/
def Exchange.displaced (platform : Platform) (x : Exchange) : ConfigPath :=
  match platform with
  | .posix => x.replacement .posix
  | .nt => x.backup

/-- The files after an exchange, `none` where there is nothing to exchange. -/
def exchangePaths (platform : Platform) (x : Exchange) (files : ConfigPath → Option Bytes) :
    Option (ConfigPath → Option Bytes) :=
  match files .config, files (x.replacement platform) with
  | some old, some new =>
    let files := Function.update files (x.replacement platform) none
    some (Function.update (Function.update files (x.displaced platform) (some old)) .config (some new))
  | _, _ => none

/-! ### Steps -/

namespace PolicyState

/-- A file is removed. -/
def unlink (s : PolicyState Bytes Policy Config W S) (p : ConfigPath) :
    PolicyState Bytes Policy Config W S :=
  { s with files := Function.update s.files p none }

/-- An exchange has raised: what it was to displace or to restore is left where it is. -/
def exchangeFailed (u : PolicyUpdate Bytes Config W S) :
    Exchange → PolicyStage Bytes Config W S
  | .commit => .cleaning u (some .candidate) (.error .persistence)
  | .restore => .cleaning u none (.error .persistence)

/-- An exchange is made. -/
def exchanged (platform : Platform) (s : PolicyState Bytes Policy Config W S)
    (u : PolicyUpdate Bytes Config W S) (x : Exchange) (files : ConfigPath → Option Bytes) :
    PolicyState Bytes Policy Config W S :=
  match x with
  | .commit => { s with files := files, stage := .verifying u, displaced := s.files .config }
  | .restore => { s with
      files := files
      stage := .cleaning u (some (Exchange.restore.displaced platform)) (.error .conflict) }

/-- The end of `reconfigure` and of `update`. -/
def finish (code : PolicyCode Bytes Policy Config W S) (s : PolicyState Bytes Policy Config W S)
    (u : PolicyUpdate Bytes Config W S) (result : Except PolicyError Unit) :
    PolicyState Bytes Policy Config W S :=
  match result with
  | .ok () => { s with
      supervisor := u.persisted
      callbacks := u.candidate.settings.callbacks
      policy := code.contributionPolicy u.candidate.config
      revision := code.revision u.candidate.payload
      stage := .done (.ok ()) }
  | .error e => { s with supervisor := u.unpersisted, stage := .done (.error e) }

/-- `update` up to the callback. -/
def begin (code : PolicyCode Bytes Policy Config W S) (s : PolicyState Bytes Policy Config W S)
    (call : PolicyCall W) : PolicyState Bytes Policy Config W S :=
  let raise (e : PolicyError) : PolicyState Bytes Policy Config W S :=
    { s with stage := .done (.error e) }
  if !"sha256:".toList.isPrefixOf call.expectedRevision.toList then raise .conflict
  else if call.expectedRevision ≠ s.revision then raise .conflict
  else
    match s.files .config with
    | none => raise .config
    | some payload =>
      match code.parseDocument payload with
      | none => raise .config
      | some document =>
        if code.revision payload ≠ s.revision then raise .conflict
        else
          match code.compile document call.source with
          | none => raise .config
          | some candidate =>
            let launches := candidate.settings.launches
            match s.supervisor.reconfigure launches true call.exited call.now with
            | (.error e, t) => { raise (.supervisor e) with supervisor := t }
            | (.ok (), t) => { s with
                stage := .locking ⟨code.revision payload, candidate, t,
                  (s.supervisor.reconfigure launches false call.exited call.now).2⟩ }

/-- The file is read and its revision compared with the expected one. -/
def check (code : PolicyCode Bytes Policy Config W S) (s : PolicyState Bytes Policy Config W S)
    (expected : String) (absent conflict matching : PolicyStage Bytes Config W S) (p : ConfigPath) :
    PolicyState Bytes Policy Config W S :=
  match s.files p with
  | none => { s with stage := absent }
  | some payload =>
    if code.revision payload ≠ expected then { s with stage := conflict }
    else { s with stage := matching }

/-- A step of the call. -/
def own (platform : Platform) (code : PolicyCode Bytes Policy Config W S)
    (s : PolicyState Bytes Policy Config W S) (o : StepOutcome) :
    Option (PolicyState Bytes Policy Config W S) :=
  match s.stage, o with
  | .called call, .succeeds => some (s.begin code call)
  | .called _, .raises => some { s with stage := .done (.error .persistence) }
  | .called _, .refused => some { s with stage := .done (.error .config) }
  -- `node_config_write_lock`
  | .locking u, .succeeds => some { s with stage := .checking u }
  | .locking u, .raises => some (s.finish code u (.error .conflict))
  -- the first reading under the lock, and `stat`
  | .checking u, .succeeds =>
    some (s.check code u.expected (.unlocking u (.error .config)) (.unlocking u (.error .conflict))
      (.writing u) .config)
  | .checking u, .raises => some { s with stage := .unlocking u (.error .persistence) }
  | .checking u, .refused => some { s with stage := .unlocking u (.error .config) }
  -- `mkstemp`, the writing with its `fsync`, and `chmod`
  | .writing u, .succeeds => some { s with
      files := Function.update s.files .candidate (some u.candidate.payload), stage := .rechecking u }
  | .writing u, .raises => some { s with
      stage := .cleaning u (some .candidate) (.error .persistence) }
  | .rechecking u, .succeeds =>
    some (s.check code u.expected (.cleaning u (some .candidate) (.error .config))
      (.cleaning u (some .candidate) (.error .conflict)) (.exchanging u .commit) .config)
  | .rechecking u, .raises => some { s with
      stage := .cleaning u (some .candidate) (.error .persistence) }
  | .rechecking u, .refused => some { s with stage := .cleaning u (some .candidate) (.error .config) }
  | .exchanging u x, .succeeds =>
    match exchangePaths platform x s.files with
    | none => some { s with stage := exchangeFailed u x }
    | some files => some (s.exchanged platform u x files)
  | .exchanging u x, .raises => some { s with stage := exchangeFailed u x }
  | .exchanging u x, .moved =>
    if platform = .nt ∧ (s.files .config).isSome then
      some { s with
        files := Function.update (Function.update s.files x.backup (s.files .config)) .config none
        stage := .failed u x }
    else none
  -- whether the backup is there and the file is not
  | .failed u x, .succeeds =>
    if (s.files x.backup).isSome ∧ s.files .config = none then
      some { s with stage := .recovering u x }
    else some { s with stage := exchangeFailed u x }
  | .recovering u x, .succeeds => some { s with
      files := Function.update (Function.update s.files .config (s.files x.backup)) x.backup none
      stage := exchangeFailed u x }
  | .recovering u x, .raises => some { s with stage := exchangeFailed u x }
  -- the displaced file is read
  | .verifying u, .succeeds =>
    some (s.check code u.expected
      (.cleaning u (some (Exchange.commit.displaced platform)) (.error .persistence))
      (.exchanging u .restore) (.unlinking u) (Exchange.commit.displaced platform))
  | .verifying u, .raises => some { s with
      stage := .cleaning u (some (Exchange.commit.displaced platform)) (.error .persistence) }
  | .unlinking u, .succeeds =>
    some { s.unlink (Exchange.commit.displaced platform) with stage := .syncing u }
  | .unlinking u, .raises => some { s with stage := .syncing u }
  | .syncing u, .succeeds => some { s with stage := .cleaning u none (.ok ()) }
  | .syncing u, .raises => some { s with stage := .cleaning u none (.ok ()) }
  | .cleaning u temporary result, .succeeds =>
    match temporary with
    | none => some { s with stage := .unlocking u result }
    | some p => some { s.unlink p with stage := .unlocking u result }
  | .cleaning u _ result, .raises => some { s with stage := .unlocking u result }
  -- the lock's file is closed, and that may raise in place of what the callback has raised
  | .unlocking u result, .succeeds => some (s.finish code u result)
  | .unlocking u _, .raises => some (s.finish code u (.error .os))
  | _, _ => none

def next (platform : Platform) (code : PolicyCode Bytes Policy Config W S)
    (s : PolicyState Bytes Policy Config W S) :
    PolicyEvent Bytes → Option (PolicyState Bytes Policy Config W S)
  | .own o => s.own platform code o
  | .foreign document => some { s with
      files := Function.update s.files .config (some document), latest := some document }

end PolicyState

/-- One call of `update`, and the other programs. -/
def policyMachine (platform : Platform) (code : PolicyCode Bytes Policy Config W S) :
    Machine (PolicyState Bytes Policy Config W S) (PolicyEvent Bytes) :=
  ⟨PolicyState.next platform code⟩

end Drift.Node
