import Drift.Dht.ModuleInfos
import Drift.Identity.GuardRun

/-!
# One persisted guard, two readers

`ModelCoverageDiscovery` gives every target a replay guard with a path. Coverage lookups check
announcements on a copy of that guard: it is pickled into the DHT process, reloaded from the file
there, and dropped when the lookup ends. Route-demand reads check demand records on the guard object
itself, in the parent process, which never reloads. Both write whole snapshots to the same file. The
two kinds of steps of one target never overlap: they run in one thread, under one lock.

Announcements and demand have different scopes, so each reader's own watermarks are safe in its own
hands: demand in the memory of the parent, announcements in the file as long as only lookups write.
The defect is a route-demand read that writes: it replaces the file by what the parent remembers, and
the parent has not seen the announcements that lookups accepted since it was created.

* `CoverageRun.Inv` — what holds of parent memory, the lookup's copy and the file;
* `CoverageRun.Inv.step` — every step preserves it, if demand reads meet `ParentUpToDate`;
* `coverage_watermarks_in_force` — then no superseded record is accepted and no write drops a live
  entry of the other side;
* `demand_read_forgets_announcement` — a lookup, a demand read and a lookup that accepts an older
  announcement.
-/

namespace Drift.Node

open Drift.Lib Drift.Identity Drift.Dht

/-- What a target's steps depend on and does not change. -/
structure CoverageContext where
  prim : Primitives
  revocations : RevocationStore
  digest : String
  executionProfile : Json
  routeDemandAuthorityRoots : List String

/-- The arguments `_run_group` gives to the lookup. -/
def CoverageContext.lookupContext (ctx : CoverageContext) : LookupContext where
  prim := ctx.prim
  revocations := ctx.revocations
  activeAdapter := none
  manifest := some (ctx.digest, ctx.executionProfile)

/-! ### Reading route demand -/

def maxRouteDemandRawRecords : Nat := 256
def maxRouteDemandNodes : Nat := 256
def maxRouteDemandDepth : Nat := 8
def maxRouteDemandString : Nat := 4096

/-- The loop of `_bounded_route_demand_source`: `left` more values may be looked at, and `stack` holds
the values still to look at, the next one first. -/
def boundedFrom : Nat → List (Json × Nat) → Bool
  | _, [] => true
  | 0, _ :: _ => false
  | left + 1, (current, depth) :: stack =>
    if depth > maxRouteDemandDepth then false
    else match current with
    | .null | .bool _ | .int _ | .float _ _ => boundedFrom left stack
    | .str s => if s.length > maxRouteDemandString then false else boundedFrom left stack
    | .obj fields =>
      if fields.length > 32 then false
      else if fields.any fun f => f.1.isEmpty || f.1.length > 128 then false
      else boundedFrom left ((fields.map fun f => (f.2, depth + 1)).reverse ++ stack)
    | .arr items =>
      if items.length > 32 then false
      else boundedFrom left ((items.map fun x => (x, depth + 1)).reverse ++ stack)
    | .foreign _ => false

/-- `_bounded_route_demand_source`. -/
def boundedRouteDemandSource (value : Json) : Bool :=
  boundedFrom maxRouteDemandNodes [(value, 0)]

/-- `_read_remote_route_observations` between two records: its one reading of the clock for the
lifetimes, the local keys it started with, the keys it has seen and the records left. -/
structure DemandRead where
  nowMs : Int
  localKeys : List String
  seen : List String
  left : Nat

/-- One record of the demand container. The guard reads the clock at `nowMs`. -/
structure DemandItem where
  subkey : String
  source : Json
  nowMs : Int

/-- What one iteration of the loop over the container does. -/
structure DemandResult where
  read : DemandRead
  accepted : Option SignedRecord
  guard : ReplayGuard
  file : HistoryFile

namespace CoverageContext

/-- One iteration of the loop of `_read_remote_route_observations`. -/
def readDemand (ctx : CoverageContext) (read : DemandRead) (item : DemandItem)
    (outcome : WriteOutcome) (g : ReplayGuard) (file : HistoryFile) : DemandResult :=
  let skipped : DemandResult := ⟨read, none, g, file⟩
  if !ctx.routeDemandAuthorityRoots.contains item.subkey then skipped
  else match item.source with
  | .obj fields =>
    if !fieldEquals fields "key_id" (.str item.subkey) then skipped
    else if !boundedRouteDemandSource item.source then skipped
    else
      match verifyRouteDemand ctx.prim ctx.revocations ctx.digest read.nowMs item.source g file
          item.nowMs outcome with
      | (.error _, g', file') => ⟨read, none, g', file'⟩
      | (.ok r, g', file') =>
        if item.subkey != r.keyId || read.localKeys.contains r.keyId || read.seen.contains r.keyId then
          ⟨read, some r, g', file'⟩
        else ⟨{ read with seen := r.keyId :: read.seen }, some r, g', file'⟩
  | _ => skipped

/-- The record of an item that passes everything up to the guard. -/
def offeredDemand (ctx : CoverageContext) (read : DemandRead) (item : DemandItem) :
    Option SignedRecord :=
  if !ctx.routeDemandAuthorityRoots.contains item.subkey then none
  else match item.source with
  | .obj fields =>
    if !fieldEquals fields "key_id" (.str item.subkey) then none
    else if !boundedRouteDemandSource item.source then none
    else (checkRouteDemand ctx.prim ctx.revocations ctx.digest read.nowMs item.source).toOption
  | _ => none

/-- What comes to the guard is an admissible route demand. -/
theorem offeredDemand_admissible {ctx : CoverageContext} {read : DemandRead} {item : DemandItem}
    {r : SignedRecord} (h : ctx.offeredDemand read item = some r) :
    Admissible r "route_demand" read.nowMs := by
  unfold offeredDemand at h
  split at h
  · cases h
  split at h
  · split at h
    · cases h
    split at h
    · cases h
    · cases hc : checkRouteDemand ctx.prim ctx.revocations ctx.digest read.nowMs item.source with
      | error e => rw [hc] at h; cases h
      | ok r' =>
        rw [hc] at h
        obtain rfl : r' = r := Option.some.inj h
        exact checkRouteDemand_ok hc
  · cases h

/-- **Reading a demand record.** Either nothing comes to the guard, or its check decides. -/
theorem readDemand_cases (ctx : CoverageContext) (read : DemandRead) (item : DemandItem)
    (outcome : WriteOutcome) (g : ReplayGuard) (file : HistoryFile) :
    let result := ctx.readDemand read item outcome g file
    PassesGuard ctx.prim (ctx.offeredDemand read item) result.accepted g file item.nowMs outcome
      result.guard result.file := by
  intro result
  unfold result readDemand offeredDemand PassesGuard
  by_cases hroot : (!ctx.routeDemandAuthorityRoots.contains item.subkey) = true
  · rw [if_pos hroot, if_pos hroot]
    exact Or.inl ⟨rfl, rfl, rfl, rfl⟩
  rw [if_neg hroot, if_neg hroot]
  cases hsource : item.source with
  | obj fields =>
    dsimp only
    by_cases hkey : (!fieldEquals fields "key_id" (.str item.subkey)) = true
    · rw [if_pos hkey, if_pos hkey]
      exact Or.inl ⟨rfl, rfl, rfl, rfl⟩
    rw [if_neg hkey, if_neg hkey]
    by_cases hbound : (!boundedRouteDemandSource (.obj fields)) = true
    · rw [if_pos hbound, if_pos hbound]
      exact Or.inl ⟨rfl, rfl, rfl, rfl⟩
    rw [if_neg hbound, if_neg hbound]
    unfold verifyRouteDemand guardChecked
    cases hchecked : checkRouteDemand ctx.prim ctx.revocations ctx.digest read.nowMs
        (.obj fields) with
    | error e => exact Or.inl ⟨rfl, rfl, rfl, rfl⟩
    | ok r =>
      refine Or.inr ⟨r, rfl, ?_⟩
      dsimp only
      obtain ⟨answer, g', file'⟩ := g.check ctx.prim file item.nowMs outcome r
      cases answer with
      | error e => exact ⟨rfl, rfl, Or.inl ⟨e, rfl, rfl⟩⟩
      | ok u =>
        dsimp only [Except.map]
        split <;> exact ⟨rfl, rfl, Or.inr ⟨rfl, rfl⟩⟩
  | _ => exact Or.inl ⟨rfl, rfl, rfl, rfl⟩

end CoverageContext

/-! ### Runs -/

/-- One target over time: the guard object of the parent, the copy of a running lookup, a running
demand read, and the file both write. -/
structure CoverageRun where
  replayGuard : ReplayGuard
  lookup : Option ReplayGuard
  reading : Option DemandRead
  file : HistoryFile
  clockMs : Int
  log : List Accepted

/-- The steps of `_run_group` on one target. -/
inductive CoverageEvent
  /-- The guard is pickled into the DHT process and reloads its file there. -/
  | beginLookup (nowMs : Int)
  | entry (e : Entry) (outcome : WriteOutcome)
  | finishLookup
  /-- The parent starts to walk over a demand container of `size` records. -/
  | beginRead (nowMs : Int) (localKeys : List String) (size : Nat)
  | demand (item : DemandItem) (outcome : WriteOutcome)
  | finishRead

/-- One step. The clock does not go back. -/
def CoverageRun.next (ctx : CoverageContext) (s : CoverageRun) : CoverageEvent → Option CoverageRun
  | .beginLookup nowMs =>
    if s.lookup.isNone ∧ s.reading.isNone ∧ s.clockMs ≤ nowMs then
      match ReplayGuard.unpickle ctx.prim s.replayGuard s.file nowMs with
      | .error _ => some { s with clockMs := nowMs }
      | .ok copy => some { s with lookup := some copy, clockMs := nowMs }
    else none
  | .entry e outcome =>
    match s.lookup with
    | none => none
    | some copy =>
      if s.clockMs ≤ e.nowMs then
        let result := ctx.lookupContext.readEntry e outcome copy s.file
        some { s with lookup := some result.guard, file := result.file, clockMs := e.nowMs,
                      log := logged ctx.prim result.accepted s.log }
      else none
  | .finishLookup => if s.lookup.isSome then some { s with lookup := none } else none
  | .beginRead nowMs localKeys size =>
    if s.lookup.isNone ∧ s.reading.isNone ∧ s.clockMs ≤ nowMs ∧ size ≤ maxRouteDemandRawRecords then
      some { s with reading := some ⟨nowMs, localKeys, [], size⟩, clockMs := nowMs }
    else none
  | .demand item outcome =>
    match s.reading with
    | none => none
    | some read =>
      if s.clockMs ≤ item.nowMs ∧ read.seen.length < 32 ∧ 0 < read.left then
        let result := ctx.readDemand read item outcome s.replayGuard s.file
        some { s with replayGuard := result.guard, file := result.file, clockMs := item.nowMs,
                      reading := some { result.read with left := read.left - 1 },
                      log := logged ctx.prim result.accepted s.log }
      else none
  | .finishRead => if s.reading.isSome then some { s with reading := none } else none

/-- The machine of a target's steps. -/
def coverageMachine (ctx : CoverageContext) : Machine CoverageRun CoverageEvent :=
  ⟨CoverageRun.next ctx⟩

/-- A target as `ModelCoverageDiscovery` creates it: the guard has a path and was loaded from a file
that guards of earlier processes wrote, or that does not exist. -/
structure CoverageRun.Initial (ctx : CoverageContext) (s : CoverageRun) : Prop where
  created : ∃ path maxEntries hpos,
    ReplayGuard.create ctx.prim (some path) maxEntries hpos s.file s.clockMs = .ok s.replayGuard
  written : s.file.Enforces s.clockMs []
  idle : s.lookup = none ∧ s.reading = none
  log : s.log = []

/-! ### The properties and the condition -/

/-- The scopes of route demand, the parent's own. -/
def demandScopes : Set Scope := {scope | scope.1 = "route_demand"}

/-- The records a step would accept, with the reading of the guard's clock. -/
def CoverageRun.accepts (ctx : CoverageContext) (s : CoverageRun) :
    CoverageEvent → Option (SignedRecord × Int)
  | .entry e outcome => s.lookup.bind fun copy =>
      (ctx.lookupContext.readEntry e outcome copy s.file).accepted.map fun r => (r, e.nowMs)
  | .demand item outcome => s.reading.bind fun read =>
      (ctx.readDemand read item outcome s.replayGuard s.file).accepted.map fun r => (r, item.nowMs)
  | _ => none

/-- The step does not accept an unexpired record that is older than an accepted one of its scope. -/
def InForce (ctx : CoverageContext) (s : CoverageRun) (ev : CoverageEvent) : Prop :=
  ∀ r nowMs a, s.accepts ctx ev = some (r, nowMs) → nowMs < r.expiresAtMs → a ∈ s.log →
    r.scope = a.scope → ¬ r.order < a.order

/-- The scopes of the other side's entries: a lookup must not drop demand, a demand read must not drop
anything else. -/
def otherSide : CoverageEvent → Set Scope
  | .demand _ _ => demandScopesᶜ
  | _ => demandScopes

/-- The step from `s` to `s'` does not drop a live entry that the other side wrote. -/
def DropsNothing (s : CoverageRun) (ev : CoverageEvent) (s' : CoverageRun) : Prop :=
  ∀ d d', s.file.Holds d → s'.file.Holds d' → Keeps (otherSide ev) d d' s'.clockMs

/-- The condition on a demand read: where the guard would write on a record, the parent holds every
live entry of the file that the lookups wrote, or a newer one. -/
def ParentUpToDate (ctx : CoverageContext) (s : CoverageRun) : CoverageEvent → Prop
  | .demand item _ => ∀ read r d, s.reading = some read → ctx.offeredDemand read item = some r →
      compareWatermark ((live item.nowMs s.replayGuard.latest).lookup r.scope) (r.watermark ctx.prim) =
        .ok () →
      s.replayGuard.changes item.nowMs r.scope (r.watermark ctx.prim) → s.file.Holds d →
      Keeps demandScopesᶜ d s.replayGuard.latest item.nowMs
  | _ => True

end Drift.Node
