import Drift.Identity.Verification
import Drift.Lib.Dict
import Drift.Lib.Machine
import Drift.Lib.Median

/-!
# Route observations

A node counts the generations of each model in windows of fixed length, and publishes what it has seen
in coarse buckets only. Two validators read an observation: the one of the placement
(`validate_route_observation`), and the one of signed route demand, which lives with the records and
asks for a closed window of at least four attempts. Discovery ages what others have published, and takes
the median of each field by itself.

* `RouteOutcomeTracker` — the windows, and the snapshots taken of them;
* `validateRouteObservation` — the placement's validator;
* `aggregateRouteObservations` — the medians.
-/

namespace Drift.Node

open Drift.Lib Drift.Identity

/-- `ValueError`. -/
structure ValueError where
  message : String
  deriving DecidableEq, Repr

def routeObservationSchemaVersion : Int := 1
def defaultRouteObservationWindowSeconds : Int := 5 * 60
def demandBuckets : List Int := [0, 1, 2, 4, 8, 16, 32, 64]
def throughputMilliTpsBuckets : List Int :=
  [0, 250, 500, 1000, 2000, 4000, 8000, 16000, 32000, 64000]
def observationFields : List String :=
  ["schema_version", "manifest_digest", "window_seconds", "attempts_bucket", "successes_bucket",
   "useful_tokens_per_second_milli", "reliability_milli", "age_seconds_bucket"]

/-- `_DIGEST_PATTERN.fullmatch`. -/
def digestPattern (s : String) : Bool :=
  match stripSha256 s with
  | some digest => isDigest digest
  | none => false

/-- `RouteUtilityObservation`. -/
structure RouteUtilityObservation where
  manifestDigest : String
  windowSeconds : Int
  attemptsBucket : Int
  successesBucket : Int
  usefulTokensPerSecondMilli : Int
  reliabilityMilli : Int
  ageSecondsBucket : Int
  deriving DecidableEq, Repr

/-- `to_dict`. -/
def RouteUtilityObservation.toDict (o : RouteUtilityObservation) : Json :=
  .obj [("schema_version", .int routeObservationSchemaVersion),
    ("manifest_digest", .str o.manifestDigest), ("window_seconds", .int o.windowSeconds),
    ("attempts_bucket", .int o.attemptsBucket), ("successes_bucket", .int o.successesBucket),
    ("useful_tokens_per_second_milli", .int o.usefulTokensPerSecondMilli),
    ("reliability_milli", .int o.reliabilityMilli), ("age_seconds_bucket", .int o.ageSecondsBucket)]

/-- `_floor_bucket`. All bucket lists begin with zero. -/
def floorBucket (value : Int) (buckets : List Int) : Int :=
  (buckets.filter (· ≤ value)).foldl max 0

/-! ### The validator of the placement -/

/-- `_require_int`. -/
def requireIntBetween (value : Option Json) (name : String) (minimum maximum : Int) :
    Except ValueError Int :=
  match value with
  | some (.int n) =>
    if minimum ≤ n ∧ n ≤ maximum then .ok n
    else .error ⟨s!"{name} must be an integer between {minimum} and {maximum}"⟩
  | _ => .error ⟨s!"{name} must be an integer between {minimum} and {maximum}"⟩

/-- `if condition: raise ValueError(message)`. -/
def raiseIf (condition : Bool) (message : String) : Except ValueError Unit :=
  if condition then .error ⟨message⟩ else .ok ()

/-- `validate_route_observation`. -/
def validateRouteObservation (source : Json) (expectedManifestDigest : String)
    (maximumAgeSeconds : Rat) : Except ValueError RouteUtilityObservation := do
  let .obj fields := source | .error ⟨"route observation must be an object"⟩
  raiseIf (!Json.hasExactly fields observationFields)
    "route observation has missing or unknown fields"
  raiseIf (!((fields.lookup "schema_version").getD .null).equalsInt routeObservationSchemaVersion)
    "route observation schema version is unsupported"
  let some (.str manifestDigest) := fields.lookup "manifest_digest"
    | .error ⟨"route observation manifest_digest is invalid"⟩
  raiseIf (!digestPattern manifestDigest) "route observation manifest_digest is invalid"
  raiseIf (manifestDigest != expectedManifestDigest) "route observation belongs to a different manifest"
  raiseIf (decide (maximumAgeSeconds ≤ 0)) "maximum_age_seconds must be finite and positive"
  let windowSeconds ← requireIntBetween (fields.lookup "window_seconds") "window_seconds" 60 3600
  let attempts ← requireIntBetween (fields.lookup "attempts_bucket") "attempts_bucket" 1 64
  let successes ← requireIntBetween (fields.lookup "successes_bucket") "successes_bucket" 0 64
  raiseIf (!demandBuckets.contains attempts || !demandBuckets.contains successes ||
    decide (successes > attempts)) "route observation count buckets are invalid"
  let throughput ← requireIntBetween (fields.lookup "useful_tokens_per_second_milli")
    "useful_tokens_per_second_milli" 0 64000
  raiseIf (!throughputMilliTpsBuckets.contains throughput)
    "route observation throughput bucket is invalid"
  let reliability ← requireIntBetween (fields.lookup "reliability_milli") "reliability_milli" 0 1000
  raiseIf (reliability % 100 != 0) "route observation reliability must use 10-percent buckets"
  let age ← requireIntBetween (fields.lookup "age_seconds_bucket") "age_seconds_bucket" 0 windowSeconds
  raiseIf (decide ((age : Rat) > maximumAgeSeconds)) "route observation is stale"
  pure ⟨manifestDigest, windowSeconds, attempts, successes, throughput, reliability, age⟩

/-! ### The tracker -/

/-- `_RouteWindow`. -/
structure RouteWindow where
  windowNumber : Int
  attempts : Nat
  successes : Nat
  usefulTokens : Nat
  usefulDurationSeconds : Rat
  lastObservedAt : Rat

/-- `RouteOutcomeTracker`, as `__init__` admits it. A deque of windows is the list of its last two. -/
structure RouteOutcomeTracker where
  windowSeconds : Int
  maximumEvents : Nat
  windows : Dict String (List RouteWindow)
  window_bounds : 60 ≤ windowSeconds ∧ windowSeconds ≤ 3600
  events_min : 64 ≤ maximumEvents

/-- The arguments of `record`. -/
structure RouteOutcome where
  manifestDigest : String
  succeeded : Bool
  completionTokens : Int
  durationSeconds : Rat

/-- `deque.append` with a maximum length of two. -/
def pushWindow (windows : List RouteWindow) (w : RouteWindow) : List RouteWindow :=
  (windows ++ [w]).drop ((windows ++ [w]).length - 2)

namespace RouteWindow

/-- A new window. -/
def opened (windowNumber : Int) : RouteWindow := ⟨windowNumber, 0, 0, 0, 0, 0⟩

/-- A generation is counted. -/
def count (w : RouteWindow) (windowSeconds : Int) (maximumEvents : Nat) (e : RouteOutcome) (now : Rat) :
    RouteWindow :=
  let w := { w with lastObservedAt := now }
  if maximumEvents ≤ w.attempts then w
  else
    let w := { w with attempts := w.attempts + 1 }
    if e.succeeded then
      { w with
        successes := w.successes + 1
        usefulTokens := min (2 ^ 63 - 1) (w.usefulTokens + e.completionTokens.toNat)
        usefulDurationSeconds :=
          min (windowSeconds * maximumEvents) (w.usefulDurationSeconds + e.durationSeconds) }
    else w

/-- What both snapshots make of a window. -/
def observe (w : RouteWindow) (manifestDigest : String) (windowSeconds : Int) (now : Rat) :
    RouteUtilityObservation :=
  let throughputMilli : Int :=
    if w.usefulDurationSeconds ≤ 0 then 0
    else min 64000 (1000 * (w.usefulTokens : Rat) / w.usefulDurationSeconds).floor
  let reliabilityMilli : Int := ((1000 * (w.successes : Rat) / w.attempts) / 100).floor * 100
  let ageSeconds : Int := max 0 (now - w.lastObservedAt).floor
  { manifestDigest := manifestDigest
    windowSeconds := windowSeconds
    attemptsBucket := floorBucket w.attempts demandBuckets
    successesBucket := floorBucket w.successes demandBuckets
    usefulTokensPerSecondMilli := floorBucket throughputMilli throughputMilliTpsBuckets
    reliabilityMilli := reliabilityMilli
    -- the age is rounded upward, so that the buckets never extend freshness
    ageSecondsBucket := min windowSeconds ((ageSeconds + 14) / 15 * 15) }

end RouteWindow

namespace RouteOutcomeTracker

/-- `__init__` with the default window. -/
def initial (maximumEvents : Nat) (hmin : 64 ≤ maximumEvents) : RouteOutcomeTracker where
  windowSeconds := defaultRouteObservationWindowSeconds
  maximumEvents := maximumEvents
  windows := ∅
  window_bounds := by decide
  events_min := hmin

/-- `int(now // window_seconds)`. -/
def windowNumber (t : RouteOutcomeTracker) (now : Rat) : Int := (now / t.windowSeconds).floor

/-- The window a generation is counted in, and those before it. -/
def currentWindows (t : RouteOutcomeTracker) (windows : List RouteWindow) (now : Rat) :
    List RouteWindow :=
  match windows.getLast? with
  | some w => if w.windowNumber = t.windowNumber now then windows
    else pushWindow windows (.opened (t.windowNumber now))
  | none => pushWindow windows (.opened (t.windowNumber now))

/-- `record`. -/
def record (t : RouteOutcomeTracker) (e : RouteOutcome) (now : Rat) :
    Except ValueError Unit × RouteOutcomeTracker :=
  if !digestPattern e.manifestDigest then
    (.error ⟨"manifest_digest must be a canonical sha256 digest"⟩, t)
  else if e.completionTokens < 0 then
    (.error ⟨"completion_tokens must be a non-negative integer"⟩, t)
  else if e.durationSeconds ≤ 0 then
    (.error ⟨"duration_seconds must be finite and positive"⟩, t)
  else
    let windows := t.currentWindows ((t.windows.lookup e.manifestDigest).getD []) now
    (.ok (), { t with
      windows := t.windows.insert e.manifestDigest
        (windows.modify (windows.length - 1) fun w =>
          w.count t.windowSeconds t.maximumEvents e now) })

/-- `snapshot`. -/
def snapshot (t : RouteOutcomeTracker) (manifestDigest : String) (now : Rat) :
    Option RouteUtilityObservation × RouteOutcomeTracker :=
  if !digestPattern manifestDigest then (none, t)
  else
    match ((t.windows.lookup manifestDigest).getD []).getLast? with
    | none => (none, t)
    | some w =>
      if t.windowSeconds < now - w.lastObservedAt then
        (none, { t with windows := t.windows.erase manifestDigest })
      else if w.attempts < 1 then (none, t)
      else (some (w.observe manifestDigest t.windowSeconds now), t)

/-- The window `closed_snapshot` takes. -/
def closedWindow (t : RouteOutcomeTracker) (windows : List RouteWindow) (now : Rat) :
    Option RouteWindow :=
  match windows.getLast? with
  | none => none
  | some w =>
    if w.windowNumber < t.windowNumber now then some w
    else if 1 < windows.length then windows[windows.length - 2]?
    else none

/-- `closed_snapshot`. -/
def closedSnapshot (t : RouteOutcomeTracker) (manifestDigest : String) (minimumAttempts : Int)
    (now : Rat) : Except ValueError (Option RouteUtilityObservation) :=
  if !digestPattern manifestDigest then .ok none
  else if minimumAttempts < 4 then
    .error ⟨"minimum_attempts must be an integer of at least four"⟩
  else
    match t.closedWindow ((t.windows.lookup manifestDigest).getD []) now with
    | none => .ok none
    | some w =>
      if t.windowSeconds < now - w.lastObservedAt then .ok none
      else if w.attempts < minimumAttempts then .ok none
      else .ok (some (w.observe manifestDigest t.windowSeconds now))

end RouteOutcomeTracker

/-! ### The aggregate -/

/-- What discovery makes of an observation that was published some time ago. -/
def RouteUtilityObservation.aged (o : RouteUtilityObservation) (elapsed : Rat) :
    RouteUtilityObservation :=
  { o with
    ageSecondsBucket :=
      min o.windowSeconds (o.ageSecondsBucket + (max 0 elapsed.floor + 14) / 15 * 15) }

/-- The observations that `aggregate_route_observations` accepts. -/
def acceptedObservations (sources : List Json) (expectedManifestDigest : String)
    (maximumAgeSeconds : Rat) (maximumSigners : Nat) : List RouteUtilityObservation :=
  (sources.take maximumSigners).filterMap fun source =>
    (validateRouteObservation source expectedManifestDigest maximumAgeSeconds).toOption

/-- The median of a field. -/
def medianOf (field : RouteUtilityObservation → Int) (observations : List RouteUtilityObservation) :
    Int :=
  (medianLow (observations.map field)).getD 0

/-- What is made of the accepted observations. -/
def summarize (observations : List RouteUtilityObservation) (manifestDigest : String) :
    RouteUtilityObservation where
  manifestDigest := manifestDigest
  windowSeconds := defaultRouteObservationWindowSeconds
  attemptsBucket := medianOf RouteUtilityObservation.attemptsBucket observations
  successesBucket := medianOf RouteUtilityObservation.successesBucket observations
  usefulTokensPerSecondMilli :=
    medianOf RouteUtilityObservation.usefulTokensPerSecondMilli observations
  reliabilityMilli := medianOf RouteUtilityObservation.reliabilityMilli observations
  ageSecondsBucket := (observations.map RouteUtilityObservation.ageSecondsBucket).foldl max 0

/-- `aggregate_route_observations`. -/
def aggregateRouteObservations (sources : List Json) (expectedManifestDigest : String)
    (maximumAgeSeconds : Rat) (minimumSigners maximumSigners : Int) :
    Except ValueError (Option RouteUtilityObservation) :=
  if minimumSigners < 2 ∨ maximumSigners < minimumSigners ∨ 32 < maximumSigners then
    .error ⟨"route observation signer bounds are invalid"⟩
  else
    let observations := acceptedObservations sources expectedManifestDigest maximumAgeSeconds
      maximumSigners.toNat
    if observations.length < minimumSigners then .ok none
    else .ok (some (summarize observations expectedManifestDigest))

/-! ### Runs of a tracker -/

/-- A call, at a clock reading. -/
inductive TrackerEvent
  | record (e : RouteOutcome) (now : Rat)
  | snapshot (manifestDigest : String) (now : Rat)

/-- The calls that change a tracker. -/
def trackerMachine : Machine RouteOutcomeTracker TrackerEvent where
  next t
    | .record e now => some (t.record e now).2
    | .snapshot manifestDigest now => some (t.snapshot manifestDigest now).2

end Drift.Node
