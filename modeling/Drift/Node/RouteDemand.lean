import Drift.Node.RouteMetrics

/-!
# Producers and consumers of route demand

What a tracker makes of a window passes the placement's validator, and what it makes of a closed one
passes the validator of signed demand too. Discovery adds to the age of what others have published and
takes the median of every field by itself. The fields are tied to each other: there are no more successes
than attempts, and no more age than a window. The first survives since sorting is monotone, so the median
of the successes is at most that of the attempts; the second since the oldest age is one of the ages.

The validator of signed demand asks for four attempts. An open window may have fewer, and so may the
median of open windows.

* `RouteUtilityObservation.Valid`, `Quantized` — what the validators ask for;
* `validate_toDict`, `validate_ok`, `validateDemand_toDict` — the validators;
* `RouteWindow.observe_quantized` — what a tracker makes;
* `route_demand_agrees` — the result.
-/

namespace Drift.Node

open Drift.Lib Drift.Identity

/-! ### Buckets -/

theorem foldl_max_spec (l : List Int) (a : Int) :
    (l.foldl max a = a ∨ l.foldl max a ∈ l) ∧ a ≤ l.foldl max a ∧ ∀ x ∈ l, x ≤ l.foldl max a := by
  induction l generalizing a with
  | nil => exact ⟨Or.inl rfl, le_refl a, fun x hx => absurd hx List.not_mem_nil⟩
  | cons b l ih =>
    obtain ⟨hmem, hle, hall⟩ := ih (max a b)
    rw [List.foldl_cons]
    refine ⟨?_, (le_max_left a b).trans hle, fun x hx => ?_⟩
    · rcases hmem with hmem | hmem
      · rw [hmem]
        rcases max_choice a b with h | h
        · exact Or.inl h
        · rw [h]
          exact Or.inr List.mem_cons_self
      · exact Or.inr (List.mem_cons_of_mem _ hmem)
    · rcases List.mem_cons.mp hx with rfl | hx
      · exact (le_max_right a x).trans hle
      · exact hall x hx

/-- The bucket of a value is the largest one that is not above it. -/
theorem floorBucket_spec {value : Int} {buckets : List Int} (hzero : 0 ∈ buckets) (hvalue : 0 ≤ value) :
    floorBucket value buckets ∈ buckets ∧ floorBucket value buckets ≤ value ∧
      ∀ b ∈ buckets, b ≤ value → b ≤ floorBucket value buckets := by
  unfold floorBucket
  obtain ⟨hmem, -, hall⟩ := foldl_max_spec (buckets.filter (· ≤ value)) 0
  have hkept : (buckets.filter (· ≤ value)).foldl max 0 ∈ buckets.filter (· ≤ value) := by
    rcases hmem with h | h
    · rw [h]
      exact List.mem_filter.mpr ⟨hzero, decide_eq_true hvalue⟩
    · exact h
  obtain ⟨hbucket, hle⟩ := List.mem_filter.mp hkept
  exact ⟨hbucket, of_decide_eq_true hle,
    fun b hb hbvalue => hall b (List.mem_filter.mpr ⟨hb, decide_eq_true hbvalue⟩)⟩

/-- Buckets are monotone. -/
theorem floorBucket_mono {value value' : Int} {buckets : List Int} (hzero : 0 ∈ buckets)
    (hvalue : 0 ≤ value) (hle : value ≤ value') :
    floorBucket value buckets ≤ floorBucket value' buckets := by
  obtain ⟨hmem, hfloor, -⟩ := floorBucket_spec hzero hvalue
  exact (floorBucket_spec hzero (hvalue.trans hle)).2.2 _ hmem (hfloor.trans hle)

theorem zero_mem_demandBuckets : 0 ∈ demandBuckets := List.mem_cons_self

theorem zero_mem_throughputBuckets : 0 ∈ throughputMilliTpsBuckets := List.mem_cons_self

/-! ### The validators -/

/-- What the placement's validator asks of an observation. -/
structure RouteUtilityObservation.Valid (o : RouteUtilityObservation) : Prop where
  digest : digestPattern o.manifestDigest = true
  window : 60 ≤ o.windowSeconds ∧ o.windowSeconds ≤ 3600
  attempts : o.attemptsBucket ∈ demandBuckets ∧ 1 ≤ o.attemptsBucket
  successes : o.successesBucket ∈ demandBuckets ∧ o.successesBucket ≤ o.attemptsBucket
  throughput : o.usefulTokensPerSecondMilli ∈ throughputMilliTpsBuckets
  reliability : 0 ≤ o.reliabilityMilli ∧ o.reliabilityMilli ≤ 1000 ∧ o.reliabilityMilli % 100 = 0
  age : 0 ≤ o.ageSecondsBucket ∧ o.ageSecondsBucket ≤ o.windowSeconds

/-- What an observation of the default window satisfies besides. -/
structure RouteUtilityObservation.Quantized (o : RouteUtilityObservation) : Prop extends o.Valid where
  default_window : o.windowSeconds = defaultRouteObservationWindowSeconds
  age_bucket : o.ageSecondsBucket % 15 = 0

theorem raiseIf_false {condition : Bool} (h : condition = false) (message : String) :
    raiseIf condition message = .ok () := by
  rw [h]
  rfl

theorem raiseIf_ok {condition : Bool} {message : String} {u : Unit}
    (h : raiseIf condition message = .ok u) : condition = false := by
  cases condition with
  | false => rfl
  | true => cases h

theorem requireIntBetween_int {n minimum maximum : Int} (h : minimum ≤ n ∧ n ≤ maximum) (name : String) :
    requireIntBetween (some (.int n)) name minimum maximum = .ok n :=
  if_pos h

theorem requireIntBetween_ok {value : Option Json} {name : String} {minimum maximum n : Int}
    (h : requireIntBetween value name minimum maximum = .ok n) : minimum ≤ n ∧ n ≤ maximum := by
  unfold requireIntBetween at h
  split at h
  · split at h
    · next hbounds =>
      obtain rfl := Except.ok.inj h
      exact hbounds
    · cases h
  · cases h

theorem demandBuckets_bounds {n : Int} (h : n ∈ demandBuckets) : 0 ≤ n ∧ n ≤ 64 := by
  revert n
  decide

theorem throughputBuckets_bounds {n : Int} (h : n ∈ throughputMilliTpsBuckets) :
    0 ≤ n ∧ n ≤ 64000 := by
  revert n
  decide

/-- The document of an observation, as the validators look it up. -/
structure RouteUtilityObservation.Document (o : RouteUtilityObservation)
    (fields : List (String × Json)) : Prop where
  toDict : o.toDict = .obj fields
  keys : fields.map Prod.fst = observationFields
  schema : fields.lookup "schema_version" = some (.int routeObservationSchemaVersion)
  digest : fields.lookup "manifest_digest" = some (.str o.manifestDigest)
  window : fields.lookup "window_seconds" = some (.int o.windowSeconds)
  attempts : fields.lookup "attempts_bucket" = some (.int o.attemptsBucket)
  successes : fields.lookup "successes_bucket" = some (.int o.successesBucket)
  throughput : fields.lookup "useful_tokens_per_second_milli" =
    some (.int o.usefulTokensPerSecondMilli)
  reliability : fields.lookup "reliability_milli" = some (.int o.reliabilityMilli)
  age : fields.lookup "age_seconds_bucket" = some (.int o.ageSecondsBucket)

theorem RouteUtilityObservation.document (o : RouteUtilityObservation) :
    ∃ fields, o.Document fields := by
  refine ⟨_, rfl, rfl, ?_, ?_, ?_, ?_, ?_, ?_, ?_, ?_⟩ <;> simp [List.lookup]

/-- **The placement's validator accepts what is valid.** -/
theorem validate_toDict {o : RouteUtilityObservation} (h : o.Valid) {maximumAgeSeconds : Rat}
    (hpositive : 0 < maximumAgeSeconds) (hage : (o.ageSecondsBucket : Rat) ≤ maximumAgeSeconds) :
    validateRouteObservation o.toDict o.manifestDigest maximumAgeSeconds = .ok o := by
  obtain ⟨fields, hdoc⟩ := o.document
  have hexact : Json.hasExactly fields observationFields = true := by
    have hobj := hdoc.toDict
    obtain rfl := Json.obj.inj hobj
    simp [Json.hasExactly, observationFields, List.lookup]
  have hattempts := demandBuckets_bounds h.attempts.1
  have hcounts : (!demandBuckets.contains o.attemptsBucket ||
      !demandBuckets.contains o.successesBucket ||
      decide (o.successesBucket > o.attemptsBucket)) = false := by
    rw [List.contains_iff_mem.mpr h.attempts.1, List.contains_iff_mem.mpr h.successes.1,
      decide_eq_false (not_lt.mpr h.successes.2)]
    rfl
  have hthroughput : (!throughputMilliTpsBuckets.contains o.usefulTokensPerSecondMilli) = false := by
    rw [List.contains_iff_mem.mpr h.throughput]
    rfl
  have hreliability : (o.reliabilityMilli % 100 != 0) = false := by
    rw [h.reliability.2.2]
    rfl
  have hfresh : decide ((o.ageSecondsBucket : Rat) > maximumAgeSeconds) = false :=
    decide_eq_false (not_lt.mpr hage)
  unfold validateRouteObservation
  rw [hdoc.toDict]
  dsimp only
  rw [hdoc.schema, hdoc.digest, hdoc.window, hdoc.attempts, hdoc.successes, hdoc.throughput,
    hdoc.reliability, hdoc.age, hexact, raiseIf_false (by rfl), ok_bind]
  rw [raiseIf_false (by rfl), ok_bind]
  dsimp only
  rw [raiseIf_false (by rw [h.digest]; rfl), ok_bind, raiseIf_false (by simp), ok_bind,
    raiseIf_false (decide_eq_false (not_le.mpr hpositive)), ok_bind,
    requireIntBetween_int h.window, ok_bind, requireIntBetween_int ⟨h.attempts.2, hattempts.2⟩, ok_bind,
    requireIntBetween_int (demandBuckets_bounds h.successes.1), ok_bind, raiseIf_false hcounts, ok_bind,
    requireIntBetween_int (throughputBuckets_bounds h.throughput), ok_bind,
    raiseIf_false hthroughput, ok_bind,
    requireIntBetween_int ⟨h.reliability.1, h.reliability.2.1⟩, ok_bind,
    raiseIf_false hreliability, ok_bind, requireIntBetween_int h.age, ok_bind, raiseIf_false hfresh]
  rfl

/-- **What the placement's validator accepts is valid**, belongs to the manifest and is young enough. -/
theorem validate_ok {source : Json} {expectedManifestDigest : String} {maximumAgeSeconds : Rat}
    {o : RouteUtilityObservation}
    (h : validateRouteObservation source expectedManifestDigest maximumAgeSeconds = .ok o) :
    o.Valid ∧ o.manifestDigest = expectedManifestDigest ∧ 0 < maximumAgeSeconds ∧
      (o.ageSecondsBucket : Rat) ≤ maximumAgeSeconds := by
  unfold validateRouteObservation at h
  split at h
  swap
  · cases h
  obtain ⟨_, -, h⟩ := bind_eq_ok.mp h
  obtain ⟨_, -, h⟩ := bind_eq_ok.mp h
  split at h
  swap
  · cases h
  obtain ⟨_, hdigest, h⟩ := bind_eq_ok.mp h
  obtain ⟨_, hexpected, h⟩ := bind_eq_ok.mp h
  obtain ⟨_, hpositive, h⟩ := bind_eq_ok.mp h
  obtain ⟨windowSeconds, hwindow, h⟩ := bind_eq_ok.mp h
  obtain ⟨attempts, hattempts, h⟩ := bind_eq_ok.mp h
  obtain ⟨successes, hsuccesses, h⟩ := bind_eq_ok.mp h
  obtain ⟨_, hcounts, h⟩ := bind_eq_ok.mp h
  obtain ⟨throughput, -, h⟩ := bind_eq_ok.mp h
  obtain ⟨_, hthroughput, h⟩ := bind_eq_ok.mp h
  obtain ⟨reliability, hreliability, h⟩ := bind_eq_ok.mp h
  obtain ⟨_, hmodulus, h⟩ := bind_eq_ok.mp h
  obtain ⟨age, hage, h⟩ := bind_eq_ok.mp h
  obtain ⟨_, hfresh, h⟩ := bind_eq_ok.mp h
  obtain rfl := Except.ok.inj h
  have hdigest := raiseIf_ok hdigest
  have hexpected := raiseIf_ok hexpected
  have hpositive := raiseIf_ok hpositive
  have hcounts := raiseIf_ok hcounts
  have hthroughput := raiseIf_ok hthroughput
  have hmodulus := raiseIf_ok hmodulus
  have hfresh := raiseIf_ok hfresh
  have hreliability := requireIntBetween_ok hreliability
  simp only [Bool.or_eq_false_iff, Bool.not_eq_false', List.contains_iff_mem,
    decide_eq_false_iff_not, not_lt, gt_iff_lt] at hcounts
  refine ⟨⟨by simpa using hdigest, requireIntBetween_ok hwindow,
    ⟨hcounts.1.1, (requireIntBetween_ok hattempts).1⟩, ⟨hcounts.1.2, hcounts.2⟩,
    by simpa using hthroughput, ⟨hreliability.1, hreliability.2, by simpa using hmodulus⟩,
    requireIntBetween_ok hage⟩, by simpa using hexpected, by simpa using hpositive,
    by simpa using hfresh⟩

/-! ### Signed demand -/

theorem refuseIf_of_false {condition : Bool} (h : condition = false) (message : String) :
    refuseIf condition message = .ok () :=
  refuseIf_eq_ok.mpr h

theorem requireInt_int {n m : Int} (h : m ≤ n) (name : String) :
    requireInt (some (.int n)) name (some m) = .ok n :=
  requireInt_eq_ok.mpr ⟨rfl, h⟩

theorem requireText_normal {prim : Primitives} {s : String} (hne : s ≠ "") (hnfc : prim.isNfc s = true)
    (name : String) : requireText prim (some (.str s)) name = .ok s := by
  unfold requireText
  dsimp only
  rw [if_neg (by simpa using hne), hnfc]
  rfl

/-- The library leaves ASCII text alone when it normalizes. -/
def NormalizesAscii (prim : Primitives) : Prop :=
  ∀ s : String, (∀ c ∈ s.toList, c.toNat < 128) → prim.isNfc s = true

theorem requireDigest_normal {prim : Primitives} (hnfc : NormalizesAscii prim) {s : String}
    (h : isDigest s = true) (name : String) : requireDigest prim (some (.str s)) name = .ok s := by
  have hne : s ≠ "" := by
    rintro rfl
    cases h
  unfold requireDigest
  rw [requireText_normal hne (hnfc s (isDigest_ascii h)), ok_bind, refuseIf_of_false (by rw [h]; rfl)]
  rfl

theorem strictFields_document {o : RouteUtilityObservation} {fields : List (String × Json)}
    (h : o.Document fields) (name : String) :
    strictFields fields routeDemandFields name = .ok () := by
  have hmissing : routeDemandFields.filter (fun f => (fields.lookup f).isNone) = [] := by
    have hobj := h.toDict
    obtain rfl := Json.obj.inj hobj
    simp [routeDemandFields, List.lookup]
  have hunknown : (fields.map Prod.fst).filter (fun k => !routeDemandFields.contains k) = [] := by
    rw [h.keys]
    simp [routeDemandFields, observationFields]
  unfold strictFields
  rw [hmissing, hunknown]
  rfl

/-- **The validator of signed demand accepts what is quantized** and counts at least four attempts. -/
theorem validateDemand_toDict {prim : Primitives} (hnfc : NormalizesAscii prim)
    {o : RouteUtilityObservation} (h : o.Quantized) (hfour : 4 ≤ o.attemptsBucket) {digest : String}
    (hstrip : stripSha256 o.manifestDigest = some digest) :
    validateRouteDemandObservation prim (some o.toDict) digest = .ok () := by
  obtain ⟨fields, hdoc⟩ := o.document
  have hdigest : isDigest digest = true := by
    have hpattern := h.digest
    unfold digestPattern at hpattern
    rw [hstrip] at hpattern
    exact hpattern
  have htext := requireText_normal (ne_empty_of_stripSha256 hstrip)
    (hnfc _ (stripSha256_ascii hstrip hdigest)) "route demand manifest_digest"
  have hcounts : (!routeDemandCountBuckets.contains o.attemptsBucket ||
      !routeDemandCountBuckets.contains o.successesBucket ||
      decide (o.successesBucket > o.attemptsBucket)) = false := by
    rw [List.contains_iff_mem.mpr (show o.attemptsBucket ∈ routeDemandCountBuckets from h.attempts.1),
      List.contains_iff_mem.mpr (show o.successesBucket ∈ routeDemandCountBuckets from h.successes.1),
      decide_eq_false (not_lt.mpr h.successes.2)]
    rfl
  have hthroughput : (!routeDemandThroughputBuckets.contains o.usefulTokensPerSecondMilli) = false := by
    rw [List.contains_iff_mem.mpr
      (show o.usefulTokensPerSecondMilli ∈ routeDemandThroughputBuckets from h.throughput)]
    rfl
  have hreliability : (decide (o.reliabilityMilli > 1000) || o.reliabilityMilli % 100 != 0) = false := by
    rw [h.reliability.2.2, decide_eq_false (not_lt.mpr h.reliability.2.1)]
    rfl
  have hage : (decide (o.ageSecondsBucket > o.windowSeconds) || o.ageSecondsBucket % 15 != 0) = false := by
    rw [h.age_bucket, decide_eq_false (not_lt.mpr h.age.2)]
    rfl
  have hwindow : (o.windowSeconds != 5 * 60) = false := by
    rw [h.default_window]
    rfl
  unfold validateRouteDemandObservation
  rw [hdoc.toDict]
  dsimp only
  rw [strictFields_document hdoc, ok_bind, hdoc.schema, hdoc.digest, hdoc.window, hdoc.attempts,
    hdoc.successes, hdoc.throughput, hdoc.reliability, hdoc.age,
    requireInt_int (by decide), ok_bind, refuseIf_of_false (by rfl), ok_bind, htext, ok_bind, hstrip]
  dsimp only
  rw [requireDigest_normal hnfc hdigest, ok_bind, refuseIf_of_false (by simp), ok_bind,
    requireInt_int h.window.1, ok_bind, refuseIf_of_false hwindow, ok_bind, requireInt_int hfour,
    ok_bind, requireInt_int (demandBuckets_bounds h.successes.1).1, ok_bind,
    refuseIf_of_false hcounts, ok_bind, requireInt_int (throughputBuckets_bounds h.throughput).1,
    ok_bind, refuseIf_of_false hthroughput, ok_bind, requireInt_int h.reliability.1, ok_bind,
    refuseIf_of_false hreliability, ok_bind, requireInt_int h.age.1, ok_bind, refuseIf_of_false hage]

/-- What the validator of signed demand accepts counts at least four attempts. -/
theorem validateDemand_attempts {prim : Primitives} {o : RouteUtilityObservation} {digest : String}
    (h : validateRouteDemandObservation prim (some o.toDict) digest = .ok ()) :
    4 ≤ o.attemptsBucket := by
  obtain ⟨fields, hdoc⟩ := o.document
  unfold validateRouteDemandObservation at h
  rw [hdoc.toDict] at h
  dsimp only at h
  rw [hdoc.attempts] at h
  obtain ⟨_, -, h⟩ := bind_eq_ok.mp h
  obtain ⟨_, -, h⟩ := bind_eq_ok.mp h
  obtain ⟨_, -, h⟩ := bind_eq_ok.mp h
  obtain ⟨_, -, h⟩ := bind_eq_ok.mp h
  split at h
  swap
  · cases h
  obtain ⟨_, -, h⟩ := bind_eq_ok.mp h
  obtain ⟨_, -, h⟩ := bind_eq_ok.mp h
  obtain ⟨_, -, h⟩ := bind_eq_ok.mp h
  obtain ⟨_, -, h⟩ := bind_eq_ok.mp h
  obtain ⟨attempts, hattempts, -⟩ := bind_eq_ok.mp h
  unfold requireInt at hattempts
  dsimp only at hattempts
  split at hattempts
  · cases hattempts
  · next hmin => exact not_lt.mp hmin

/-! ### The tracker -/

/-- What a window keeps. -/
structure RouteWindow.Counted (w : RouteWindow) : Prop where
  attempts_pos : 1 ≤ w.attempts
  successes_le : w.successes ≤ w.attempts

/-- The share of the successes in ten steps. -/
theorem reliability_bounds {successes attempts : Nat} (hpos : 1 ≤ attempts)
    (hle : successes ≤ attempts) :
    0 ≤ ((1000 * (successes : Rat) / attempts) / 100).floor ∧
      ((1000 * (successes : Rat) / attempts) / 100).floor ≤ 10 := by
  have hattempts : (0 : Rat) < attempts := by exact_mod_cast hpos
  have hsuccesses : (successes : Rat) ≤ attempts := by exact_mod_cast hle
  have hzero : (0 : Rat) ≤ successes := by exact_mod_cast Nat.zero_le _
  constructor
  · rw [Rat.le_floor_iff]
    have hshare : 0 ≤ (1000 * (successes : Rat) / attempts) / 100 := by positivity
    exact_mod_cast hshare
  · have hshare : (1000 * (successes : Rat) / attempts) / 100 ≤ 10 := by
      rw [div_le_iff₀ (by norm_num), div_le_iff₀ hattempts]
      linarith
    have hfloor := Rat.floor_monotone hshare
    exact hfloor.trans (by decide)

theorem default_window_bounds :
    60 ≤ defaultRouteObservationWindowSeconds ∧ defaultRouteObservationWindowSeconds ≤ 3600 := by
  decide

/-- **What a tracker makes of a window**, under the default length. -/
theorem RouteWindow.observe_quantized {w : RouteWindow} (h : w.Counted) {manifestDigest : String}
    (hdigest : digestPattern manifestDigest = true) (now : Rat) :
    (w.observe manifestDigest defaultRouteObservationWindowSeconds now).Quantized := by
  have hattempts : (0 : Int) ≤ w.attempts := Int.natCast_nonneg _
  have hsuccesses : (0 : Int) ≤ w.successes := Int.natCast_nonneg _
  have hone : (1 : Int) ≤ w.attempts := by exact_mod_cast h.attempts_pos
  have hle : (w.successes : Int) ≤ w.attempts := by exact_mod_cast h.successes_le
  obtain ⟨hmin, hmax⟩ := reliability_bounds h.attempts_pos h.successes_le
  have hthroughput : (0 : Int) ≤ if w.usefulDurationSeconds ≤ 0 then 0
      else min 64000 (1000 * (w.usefulTokens : Rat) / w.usefulDurationSeconds).floor := by
    split
    · exact le_refl 0
    · next hpositive =>
      refine le_min (by decide) ?_
      rw [Rat.le_floor_iff]
      have hpos := not_le.mp hpositive
      have hrate : 0 ≤ 1000 * (w.usefulTokens : Rat) / w.usefulDurationSeconds := by positivity
      exact_mod_cast hrate
  refine ⟨⟨hdigest, default_window_bounds, ⟨(floorBucket_spec zero_mem_demandBuckets hattempts).1, ?_⟩,
    ⟨(floorBucket_spec zero_mem_demandBuckets hsuccesses).1, ?_⟩,
    (floorBucket_spec zero_mem_throughputBuckets hthroughput).1, ⟨?_, ?_, ?_⟩, ?_, ?_⟩, rfl, ?_⟩
  · exact (floorBucket_spec zero_mem_demandBuckets hattempts).2.2 1 (by decide) hone
  · exact floorBucket_mono zero_mem_demandBuckets hsuccesses hle
  · exact mul_nonneg hmin (by decide)
  · show _ * 100 ≤ (1000 : Int)
    omega
  · exact Int.mul_emod_left _ _
  · show 0 ≤ min defaultRouteObservationWindowSeconds _
    have hage := le_max_left (0 : Int) (now - w.lastObservedAt).floor
    exact le_min (by decide) (by omega)
  · exact min_le_left _ _
  · show min defaultRouteObservationWindowSeconds _ % 15 = 0
    rcases min_choice defaultRouteObservationWindowSeconds
        ((max 0 (now - w.lastObservedAt).floor + 14) / 15 * 15) with hmin | hmin
    · rw [hmin]
      rfl
    · rw [hmin]
      exact Int.mul_emod_left _ _

/-- A generation counts as an attempt. -/
theorem RouteWindow.count_counted {w : RouteWindow} (h : w.successes ≤ w.attempts) {maximumEvents : Nat}
    (hmax : 64 ≤ maximumEvents) (windowSeconds : Int) (e : RouteOutcome) (now : Rat) :
    (w.count windowSeconds maximumEvents e now).Counted := by
  unfold RouteWindow.count
  dsimp only
  split
  · next hfull => exact ⟨(by decide : 1 ≤ 64).trans (hmax.trans hfull), h⟩
  · split
    · exact ⟨Nat.succ_pos _, Nat.succ_le_succ h⟩
    · exact ⟨Nat.succ_pos _, h.trans (Nat.le_succ _)⟩

/-- What a tracker keeps. -/
structure RouteOutcomeTracker.Sound (t : RouteOutcomeTracker) : Prop where
  default_window : t.windowSeconds = defaultRouteObservationWindowSeconds
  counted : ∀ digest windows, t.windows.lookup digest = some windows → ∀ w ∈ windows, w.Counted

namespace RouteOutcomeTracker

variable {t : RouteOutcomeTracker}

theorem Sound.windows (h : t.Sound) (digest : String) :
    ∀ w ∈ (t.windows.lookup digest).getD [], w.Counted := by
  intro w hw
  cases hlookup : t.windows.lookup digest with
  | none =>
    rw [hlookup] at hw
    exact absurd hw List.not_mem_nil
  | some windows =>
    rw [hlookup] at hw
    exact h.counted digest windows hlookup w hw

/-- Only the window that is counted in next can be empty. -/
theorem currentWindows_counted {windows : List RouteWindow} (h : ∀ w ∈ windows, w.Counted) (now : Rat)
    {i : Nat} {w : RouteWindow} (hw : (t.currentWindows windows now)[i]? = some w) :
    w.successes ≤ w.attempts ∧ (i + 1 < (t.currentWindows windows now).length → w.Counted) := by
  have hpush : ∀ {number : Int}, (pushWindow windows (.opened number))[i]? = some w →
      w.successes ≤ w.attempts ∧
        (i + 1 < (pushWindow windows (.opened number)).length → w.Counted) := by
    intro number hw
    unfold pushWindow at hw ⊢
    rw [List.getElem?_drop] at hw
    rw [List.length_drop, List.length_append, List.length_singleton]
    generalize hk : windows.length + 1 - 2 = k
    rw [List.length_append, List.length_singleton, hk] at hw
    by_cases hbefore : k + i < windows.length
    · rw [List.getElem?_append_left hbefore] at hw
      have hcounted := h w (List.mem_of_getElem? hw)
      exact ⟨hcounted.successes_le, fun _ => hcounted⟩
    · rw [List.getElem?_append_right (not_lt.mp hbefore)] at hw
      have hopened := List.mem_singleton.mp (List.mem_of_getElem? hw)
      rw [hopened]
      exact ⟨Nat.le_refl 0, fun hlt => by omega⟩
  have hsame : windows[i]? = some w → w.successes ≤ w.attempts ∧ (i + 1 < windows.length → w.Counted) :=
    fun hw => ⟨(h w (List.mem_of_getElem? hw)).successes_le, fun _ => h w (List.mem_of_getElem? hw)⟩
  unfold currentWindows at hw ⊢
  split at hw
  · next last hlast =>
    split at hw
    · next hnumber =>
      rw [if_pos hnumber]
      exact hsame hw
    · next hnumber =>
      rw [if_neg hnumber]
      exact hpush hw
  · exact hpush hw

theorem Sound.record (h : t.Sound) (e : RouteOutcome) (now : Rat) : (t.record e now).2.Sound := by
  unfold RouteOutcomeTracker.record
  split
  · exact h
  split
  · exact h
  split
  · exact h
  dsimp only
  generalize hcurrent : t.currentWindows ((t.windows.lookup e.manifestDigest).getD []) now = windows
  have hcounted : ∀ {i : Nat} {w : RouteWindow}, windows[i]? = some w →
      w.successes ≤ w.attempts ∧ (i + 1 < windows.length → w.Counted) := by
    intro i w hw
    rw [← hcurrent] at hw ⊢
    exact currentWindows_counted (h.windows e.manifestDigest) now hw
  refine ⟨h.default_window, fun digest windows' hlookup => ?_⟩
  dsimp only at hlookup
  by_cases hdigest : digest = e.manifestDigest
  · rw [hdigest, AList.lookup_insert] at hlookup
    obtain rfl := Option.some.inj hlookup
    intro w hw
    obtain ⟨i, hi⟩ := List.mem_iff_getElem?.mp hw
    rw [List.getElem?_modify] at hi
    obtain ⟨w₀, hw₀, hsame⟩ := Option.map_eq_some_iff.mp hi
    by_cases hlast : windows.length - 1 = i
    · rw [if_pos hlast] at hsame
      rw [← hsame]
      exact RouteWindow.count_counted (hcounted hw₀).1 t.events_min _ e now
    · rw [if_neg hlast] at hsame
      obtain rfl : w₀ = w := hsame
      have hlt := (List.getElem?_eq_some_iff.mp hw₀).1
      exact (hcounted hw₀).2 (by omega)
  · rw [AList.lookup_insert_ne hdigest] at hlookup
    exact h.counted digest windows' hlookup

theorem Sound.snapshot (h : t.Sound) (manifestDigest : String) (now : Rat) :
    (t.snapshot manifestDigest now).2.Sound := by
  unfold RouteOutcomeTracker.snapshot
  split
  · exact h
  split
  · exact h
  split
  · refine ⟨h.default_window, fun digest windows hlookup => ?_⟩
    dsimp only at hlookup
    by_cases hdigest : digest = manifestDigest
    · rw [hdigest, AList.lookup_erase] at hlookup
      cases hlookup
    · rw [AList.lookup_erase_ne hdigest] at hlookup
      exact h.counted digest windows hlookup
  · split
    · exact h
    · exact h

/-- **Every tracker with the default window keeps this**, whatever its clock reads. -/
theorem tracker_sound_of_reach {maximumEvents : Nat} {hmin : 64 ≤ maximumEvents}
    (hreach : trackerMachine.Reach Machine.always (initial maximumEvents hmin) t) : t.Sound := by
  refine hreach.invariant ⟨rfl, fun digest windows hlookup => ?_⟩ fun t event t' h _ hnext => ?_
  · exact absurd hlookup (by simp [initial])
  · cases event with
    | record e now =>
      obtain rfl := Option.some.inj hnext
      exact h.record e now
    | snapshot manifestDigest now =>
      obtain rfl := Option.some.inj hnext
      exact h.snapshot manifestDigest now

theorem Sound.snapshot_quantized (h : t.Sound) {manifestDigest : String} {now : Rat}
    {o : RouteUtilityObservation} (ho : (t.snapshot manifestDigest now).1 = some o) :
    o.Quantized ∧ o.manifestDigest = manifestDigest := by
  unfold RouteOutcomeTracker.snapshot at ho
  split at ho
  · cases ho
  next hdigest =>
  split at ho
  · cases ho
  next w hlast =>
  split at ho
  · cases ho
  split at ho
  · cases ho
  · obtain rfl := Option.some.inj ho
    have hcounted := h.windows manifestDigest w (List.mem_of_getLast? hlast)
    rw [h.default_window]
    exact ⟨RouteWindow.observe_quantized hcounted (by simpa using hdigest) now, rfl⟩

theorem Sound.closedSnapshot_quantized (h : t.Sound) {manifestDigest : String} {minimumAttempts : Int}
    {now : Rat} {o : RouteUtilityObservation}
    (ho : t.closedSnapshot manifestDigest minimumAttempts now = .ok (some o)) :
    o.Quantized ∧ o.manifestDigest = manifestDigest ∧ 4 ≤ o.attemptsBucket := by
  unfold RouteOutcomeTracker.closedSnapshot at ho
  split at ho
  · cases ho
  next hdigest =>
  split at ho
  · cases ho
  next hminimum =>
  split at ho
  · cases ho
  next w hclosed =>
  split at ho
  · cases ho
  split at ho
  · cases ho
  next hattempts =>
  obtain rfl := Option.some.inj (Except.ok.inj ho)
  have hmem : w ∈ (t.windows.lookup manifestDigest).getD [] := by
    unfold closedWindow at hclosed
    split at hclosed
    · cases hclosed
    · next last hlast =>
      split at hclosed
      · obtain rfl := Option.some.inj hclosed
        exact List.mem_of_getLast? hlast
      · split at hclosed
        · exact List.mem_of_getElem? hclosed
        · cases hclosed
  have hquantized := RouteWindow.observe_quantized (h.windows manifestDigest w hmem)
    (show digestPattern manifestDigest = true by simpa using hdigest) now
  have hfour : (4 : Int) ≤ w.attempts := (not_lt.mp hminimum).trans (not_lt.mp hattempts)
  rw [h.default_window]
  exact ⟨hquantized, rfl, (floorBucket_spec zero_mem_demandBuckets (by omega)).2.2 4 (by decide) hfour⟩

end RouteOutcomeTracker

/-! ### The aggregate -/

/-- Aging keeps the buckets. -/
theorem RouteUtilityObservation.Quantized.aged {o : RouteUtilityObservation} (h : o.Quantized)
    (elapsed : Rat) : (o.aged elapsed).Quantized := by
  have hwindow : o.windowSeconds = 300 := h.default_window
  have hage := h.age.1
  have hbucket := h.age_bucket
  have helapsed := le_max_left (0 : Int) elapsed.floor
  refine ⟨⟨h.digest, h.window, h.attempts, h.successes, h.throughput, h.reliability, ?_, ?_⟩,
    h.default_window, ?_⟩
  · show 0 ≤ min o.windowSeconds _
    exact le_min (by omega) (by omega)
  · exact min_le_left _ _
  · show min o.windowSeconds _ % 15 = 0
    rcases min_choice o.windowSeconds
        (o.ageSecondsBucket + (max 0 elapsed.floor + 14) / 15 * 15) with hmin | hmin
    · rw [hmin, hwindow]
      rfl
    · rw [hmin]
      omega

/-- Aging makes nothing fresher. -/
theorem RouteUtilityObservation.Valid.age_le_aged {o : RouteUtilityObservation} (h : o.Valid)
    (elapsed : Rat) : o.ageSecondsBucket ≤ (o.aged elapsed).ageSecondsBucket := by
  have helapsed := le_max_left (0 : Int) elapsed.floor
  exact le_min h.age.2 (by omega)

theorem requireIntBetween_int_ok {n m minimum maximum : Int} {name : String}
    (h : requireIntBetween (some (.int n)) name minimum maximum = .ok m) : m = n := by
  unfold requireIntBetween at h
  dsimp only at h
  split at h
  · exact (Except.ok.inj h).symm
  · cases h

/-- The validator returns the observation it reads. -/
theorem validate_toDict_eq {o o' : RouteUtilityObservation} {expectedManifestDigest : String}
    {maximumAgeSeconds : Rat}
    (h : validateRouteObservation o.toDict expectedManifestDigest maximumAgeSeconds = .ok o') :
    o' = o := by
  obtain ⟨fields, hdoc⟩ := o.document
  unfold validateRouteObservation at h
  rw [hdoc.toDict] at h
  dsimp only at h
  rw [hdoc.digest, hdoc.window, hdoc.attempts, hdoc.successes, hdoc.throughput, hdoc.reliability,
    hdoc.age] at h
  obtain ⟨_, -, h⟩ := bind_eq_ok.mp h
  obtain ⟨_, -, h⟩ := bind_eq_ok.mp h
  dsimp only at h
  obtain ⟨_, -, h⟩ := bind_eq_ok.mp h
  obtain ⟨_, -, h⟩ := bind_eq_ok.mp h
  obtain ⟨_, -, h⟩ := bind_eq_ok.mp h
  obtain ⟨windowSeconds, hwindow, h⟩ := bind_eq_ok.mp h
  obtain ⟨attempts, hattempts, h⟩ := bind_eq_ok.mp h
  obtain ⟨successes, hsuccesses, h⟩ := bind_eq_ok.mp h
  obtain ⟨_, -, h⟩ := bind_eq_ok.mp h
  obtain ⟨throughput, hthroughput, h⟩ := bind_eq_ok.mp h
  obtain ⟨_, -, h⟩ := bind_eq_ok.mp h
  obtain ⟨reliability, hreliability, h⟩ := bind_eq_ok.mp h
  obtain ⟨_, -, h⟩ := bind_eq_ok.mp h
  obtain ⟨age, hage, h⟩ := bind_eq_ok.mp h
  obtain ⟨_, -, h⟩ := bind_eq_ok.mp h
  obtain rfl := Except.ok.inj h
  rw [requireIntBetween_int_ok hwindow, requireIntBetween_int_ok hattempts,
    requireIntBetween_int_ok hsuccesses, requireIntBetween_int_ok hthroughput,
    requireIntBetween_int_ok hreliability, requireIntBetween_int_ok hage]

theorem medianOf_mem (field : RouteUtilityObservation → Int) {observations : List RouteUtilityObservation}
    (hne : observations ≠ []) : ∃ o ∈ observations, medianOf field observations = field o := by
  obtain ⟨m, hm⟩ := medianLow_isSome (mt List.map_eq_nil_iff.mp hne : observations.map field ≠ [])
  obtain ⟨o, ho, hfield⟩ := List.mem_map.mp (medianLow_mem hm)
  refine ⟨o, ho, ?_⟩
  unfold medianOf
  rw [hm, Option.getD_some, hfield]

/-- Fields that are in order in every observation have medians in order. -/
theorem medianOf_le {f g : RouteUtilityObservation → Int} {observations : List RouteUtilityObservation}
    (hne : observations ≠ []) (h : ∀ o ∈ observations, f o ≤ g o) :
    medianOf f observations ≤ medianOf g observations := by
  obtain ⟨m, hm⟩ := medianLow_isSome (mt List.map_eq_nil_iff.mp hne : observations.map f ≠ [])
  obtain ⟨n, hn⟩ := medianLow_isSome (mt List.map_eq_nil_iff.mp hne : observations.map g ≠ [])
  have hpairs : List.Forall₂ (· ≤ ·) (observations.map f) (observations.map g) := by
    rw [List.forall₂_map_left_iff, List.forall₂_map_right_iff, List.forall₂_same]
    exact h
  unfold medianOf
  rw [hm, hn, Option.getD_some, Option.getD_some]
  exact medianLow_le hpairs hm hn

/-- **The aggregate of quantized observations is quantized.** -/
theorem summarize_quantized {observations : List RouteUtilityObservation} (hne : observations ≠ [])
    (h : ∀ o ∈ observations, o.Quantized) {manifestDigest : String}
    (hdigest : ∀ o ∈ observations, o.manifestDigest = manifestDigest) :
    (summarize observations manifestDigest).Quantized := by
  obtain ⟨first, hfirst⟩ := List.exists_mem_of_ne_nil _ hne
  obtain ⟨a, ha, hattempts⟩ := medianOf_mem RouteUtilityObservation.attemptsBucket hne
  obtain ⟨b, hb, hsuccesses⟩ := medianOf_mem RouteUtilityObservation.successesBucket hne
  obtain ⟨c, hc, hthroughput⟩ := medianOf_mem RouteUtilityObservation.usefulTokensPerSecondMilli hne
  obtain ⟨d, hd, hreliability⟩ := medianOf_mem RouteUtilityObservation.reliabilityMilli hne
  obtain ⟨hage, hzero, -⟩ :=
    foldl_max_spec (observations.map RouteUtilityObservation.ageSecondsBucket) 0
  refine ⟨⟨?_, default_window_bounds, ⟨?_, ?_⟩, ⟨?_, ?_⟩, ?_, ?_, hzero, ?_⟩, rfl, ?_⟩
  · show digestPattern manifestDigest = true
    rw [← hdigest first hfirst]
    exact (h first hfirst).digest
  · show medianOf RouteUtilityObservation.attemptsBucket observations ∈ demandBuckets
    rw [hattempts]
    exact (h a ha).attempts.1
  · show 1 ≤ medianOf RouteUtilityObservation.attemptsBucket observations
    rw [hattempts]
    exact (h a ha).attempts.2
  · show medianOf RouteUtilityObservation.successesBucket observations ∈ demandBuckets
    rw [hsuccesses]
    exact (h b hb).successes.1
  · exact medianOf_le hne fun o ho => (h o ho).successes.2
  · show medianOf RouteUtilityObservation.usefulTokensPerSecondMilli observations ∈ _
    rw [hthroughput]
    exact (h c hc).throughput
  · have hmedian : (summarize observations manifestDigest).reliabilityMilli = d.reliabilityMilli :=
      hreliability
    rw [hmedian]
    exact (h d hd).reliability
  · show (observations.map RouteUtilityObservation.ageSecondsBucket).foldl max 0 ≤ _
    rcases hage with hage | hage
    · rw [hage]
      exact le_trans (by decide) default_window_bounds.1
    · obtain ⟨o, ho, heq⟩ := List.mem_map.mp hage
      rw [← heq]
      show _ ≤ defaultRouteObservationWindowSeconds
      rw [← (h o ho).default_window]
      exact (h o ho).age.2
  · show (observations.map RouteUtilityObservation.ageSecondsBucket).foldl max 0 % 15 = 0
    rcases hage with hage | hage
    · rw [hage]
      rfl
    · obtain ⟨o, ho, heq⟩ := List.mem_map.mp hage
      rw [← heq]
      exact (h o ho).age_bucket

/-! ### Main results -/

/-- A tracker with the default window publishes the observation, from its open window or a closed one. -/
def Published (o : RouteUtilityObservation) : Prop :=
  ∃ (maximumEvents : Nat) (hmin : 64 ≤ maximumEvents) (t : RouteOutcomeTracker) (now : Rat),
    trackerMachine.Reach Machine.always (.initial maximumEvents hmin) t ∧
      ((t.snapshot o.manifestDigest now).1 = some o ∨
        ∃ minimumAttempts, t.closedSnapshot o.manifestDigest minimumAttempts now = .ok (some o))

theorem Published.quantized {o : RouteUtilityObservation} (h : Published o) : o.Quantized := by
  obtain ⟨_, _, t, now, hreach, hopen | ⟨minimumAttempts, hclosed⟩⟩ := h
  · exact ((RouteOutcomeTracker.tracker_sound_of_reach hreach).snapshot_quantized hopen).1
  · exact ((RouteOutcomeTracker.tracker_sound_of_reach hreach).closedSnapshot_quantized hclosed).1

/-- The documents that discovery aggregates: published observations, aged by delays. -/
def agedSources (contributors : List (RouteUtilityObservation × Rat)) : List Json :=
  contributors.map fun c => (c.1.aged c.2).toDict

/-- An accepted document is that of an aged contributor. -/
theorem mem_accepted {contributors : List (RouteUtilityObservation × Rat)} {manifestDigest : String}
    {maximumAgeSeconds : Rat} {maximumSigners : Nat} {o : RouteUtilityObservation} :
    o ∈ acceptedObservations (agedSources contributors) manifestDigest maximumAgeSeconds
        maximumSigners ↔
      ∃ c ∈ contributors.take maximumSigners, o = c.1.aged c.2 ∧
        validateRouteObservation (c.1.aged c.2).toDict manifestDigest maximumAgeSeconds = .ok o := by
  unfold acceptedObservations agedSources
  rw [← List.map_take, List.mem_filterMap]
  constructor
  · rintro ⟨source, hsource, haccepted⟩
    obtain ⟨c, hc, rfl⟩ := List.mem_map.mp hsource
    cases hresult : validateRouteObservation (c.1.aged c.2).toDict manifestDigest maximumAgeSeconds with
    | error e =>
      rw [hresult] at haccepted
      cases haccepted
    | ok o' =>
      rw [hresult] at haccepted
      obtain rfl := Option.some.inj haccepted
      exact ⟨c, hc, validate_toDict_eq hresult, hresult⟩
  · rintro ⟨c, hc, -, hresult⟩
    refine ⟨_, List.mem_map.mpr ⟨c, hc, rfl⟩, ?_⟩
    rw [hresult]
    rfl

/-- What an aggregate of published observations, aged by any delays, satisfies. -/
theorem aggregate_agrees {prim : Primitives} (hnfc : NormalizesAscii prim)
    {manifestDigest digest : String} (hstrip : stripSha256 manifestDigest = some digest)
    {contributors : List (RouteUtilityObservation × Rat)} (hpublished : ∀ c ∈ contributors, Published c.1)
    {maximumAgeSeconds : Rat} {maximumSigners : Nat} {observations : List RouteUtilityObservation}
    (haccepted : acceptedObservations (agedSources contributors) manifestDigest maximumAgeSeconds
      maximumSigners = observations) (hne : observations ≠ []) :
    validateRouteObservation (summarize observations manifestDigest).toDict manifestDigest
        maximumAgeSeconds = .ok (summarize observations manifestDigest) ∧
      ((∀ c ∈ contributors,
          validateRouteDemandObservation prim (some c.1.toDict) digest = .ok ()) →
        validateRouteDemandObservation prim (some (summarize observations manifestDigest).toDict)
          digest = .ok ()) ∧
      (summarize observations manifestDigest).successesBucket ≤
        (summarize observations manifestDigest).attemptsBucket := by
  have hmem : ∀ {o : RouteUtilityObservation}, o ∈ observations ↔
      ∃ c ∈ contributors.take maximumSigners, o = c.1.aged c.2 ∧
        validateRouteObservation (c.1.aged c.2).toDict manifestDigest maximumAgeSeconds = .ok o := by
    intro o
    rw [← haccepted]
    exact mem_accepted
  have hvalid : ∀ o ∈ observations, o.Quantized ∧ o.manifestDigest = manifestDigest ∧
      0 < maximumAgeSeconds ∧ (o.ageSecondsBucket : Rat) ≤ maximumAgeSeconds := by
    intro o ho
    obtain ⟨c, hc, heq, hok⟩ := hmem.mp ho
    have hquantized := (hpublished c (List.mem_of_mem_take hc)).quantized.aged c.2
    rw [← heq] at hquantized
    exact ⟨hquantized, (validate_ok hok).2⟩
  have hquantized := summarize_quantized hne (fun o ho => (hvalid o ho).1)
    fun o ho => (hvalid o ho).2.1
  obtain ⟨first, hfirst⟩ := List.exists_mem_of_ne_nil _ hne
  refine ⟨validate_toDict hquantized.toValid (hvalid first hfirst).2.2.1 ?_, fun hsigned => ?_,
    hquantized.successes.2⟩
  · obtain ⟨hage, -⟩ := foldl_max_spec (observations.map RouteUtilityObservation.ageSecondsBucket) 0
    show (((observations.map RouteUtilityObservation.ageSecondsBucket).foldl max 0 : Int) : Rat) ≤ _
    rcases hage with hage | hage
    · rw [hage]
      exact_mod_cast le_of_lt (hvalid first hfirst).2.2.1
    · obtain ⟨o, ho, heq⟩ := List.mem_map.mp hage
      rw [← heq]
      exact (hvalid o ho).2.2.2
  · refine validateDemand_toDict hnfc hquantized ?_ hstrip
    -- the median of the attempts is that of a contributor
    obtain ⟨o, ho, hattempts⟩ := medianOf_mem RouteUtilityObservation.attemptsBucket hne
    obtain ⟨c, hc, rfl, -⟩ := hmem.mp ho
    show 4 ≤ medianOf RouteUtilityObservation.attemptsBucket observations
    rw [hattempts]
    show 4 ≤ c.1.attemptsBucket
    exact validateDemand_attempts (hsigned c (List.mem_of_mem_take hc))

/-- An aggregate is no fresher than any observation it accepted. -/
theorem summarize_no_fresher {contributors : List (RouteUtilityObservation × Rat)}
    {manifestDigest : String} {maximumAgeSeconds : Rat} {maximumSigners : Nat}
    {c : RouteUtilityObservation × Rat} (hc : c ∈ contributors.take maximumSigners)
    (haccepted : (validateRouteObservation (c.1.aged c.2).toDict manifestDigest
      maximumAgeSeconds).isOk = true) :
    (c.1.aged c.2).ageSecondsBucket ≤
      (summarize (acceptedObservations (agedSources contributors) manifestDigest maximumAgeSeconds
        maximumSigners) manifestDigest).ageSecondsBucket := by
  obtain ⟨-, -, holdest⟩ := foldl_max_spec ((acceptedObservations (agedSources contributors)
    manifestDigest maximumAgeSeconds maximumSigners).map RouteUtilityObservation.ageSecondsBucket) 0
  cases hresult : validateRouteObservation (c.1.aged c.2).toDict manifestDigest
      maximumAgeSeconds with
  | error e =>
    rw [hresult] at haccepted
    cases haccepted
  | ok o =>
    have heq := validate_toDict_eq hresult
    rw [heq] at hresult
    exact holdest _ (List.mem_map_of_mem (mem_accepted.mpr ⟨c, hc, rfl, hresult⟩))

/-- **Producers and consumers of route demand agree.** A closed snapshot of a tracker with the default
window passes both validators, and an open one that of the placement, as long as they are young enough.
What discovery aggregates of such observations, aged by any delays, passes the validator of the
placement again, and that of signed demand if every contributor does; it has no more successes than
attempts, and is no fresher than any contributor that was accepted. -/
theorem route_demand_agrees {prim : Primitives} (hnfc : NormalizesAscii prim) {maximumEvents : Nat}
    {hmin : 64 ≤ maximumEvents} {t : RouteOutcomeTracker}
    (hreach : trackerMachine.Reach Machine.always (.initial maximumEvents hmin) t)
    {manifestDigest digest : String} (hstrip : stripSha256 manifestDigest = some digest) (now : Rat) :
    (∀ minimumAttempts o, t.closedSnapshot manifestDigest minimumAttempts now = .ok (some o) →
      validateRouteDemandObservation prim (some o.toDict) digest = .ok ()) ∧
    (∀ o, ((t.snapshot manifestDigest now).1 = some o ∨
        ∃ minimumAttempts, t.closedSnapshot manifestDigest minimumAttempts now = .ok (some o)) →
      ∀ maximumAgeSeconds, 0 < maximumAgeSeconds → (o.ageSecondsBucket : Rat) ≤ maximumAgeSeconds →
        validateRouteObservation o.toDict manifestDigest maximumAgeSeconds = .ok o) ∧
    ∀ contributors : List (RouteUtilityObservation × Rat), (∀ c ∈ contributors, Published c.1) →
      ∀ maximumAgeSeconds minimumSigners maximumSigners o,
        aggregateRouteObservations (agedSources contributors) manifestDigest maximumAgeSeconds
            minimumSigners maximumSigners = .ok (some o) →
          validateRouteObservation o.toDict manifestDigest maximumAgeSeconds = .ok o ∧
          ((∀ c ∈ contributors,
              validateRouteDemandObservation prim (some c.1.toDict) digest = .ok ()) →
            validateRouteDemandObservation prim (some o.toDict) digest = .ok ()) ∧
          o.successesBucket ≤ o.attemptsBucket ∧
          ∀ c ∈ contributors.take maximumSigners.toNat,
            (validateRouteObservation (c.1.aged c.2).toDict manifestDigest maximumAgeSeconds).isOk =
              true →
            c.1.ageSecondsBucket ≤ (c.1.aged c.2).ageSecondsBucket ∧
              (c.1.aged c.2).ageSecondsBucket ≤ o.ageSecondsBucket := by
  have hsound := RouteOutcomeTracker.tracker_sound_of_reach hreach
  refine ⟨fun minimumAttempts o ho => ?_, fun o ho maximumAgeSeconds hpositive hage => ?_, ?_⟩
  · obtain ⟨hquantized, hdigest, hfour⟩ := hsound.closedSnapshot_quantized ho
    exact validateDemand_toDict hnfc hquantized hfour (by rw [hdigest]; exact hstrip)
  · rcases ho with hopen | ⟨minimumAttempts, hclosed⟩
    · obtain ⟨hquantized, rfl⟩ := hsound.snapshot_quantized hopen
      exact validate_toDict hquantized.toValid hpositive hage
    · obtain ⟨hquantized, rfl, -⟩ := hsound.closedSnapshot_quantized hclosed
      exact validate_toDict hquantized.toValid hpositive hage
  · intro contributors hpublished maximumAgeSeconds minimumSigners maximumSigners o ho
    unfold aggregateRouteObservations at ho
    split at ho
    · cases ho
    next hbounds =>
    dsimp only at ho
    split at ho
    · cases ho
    next henough =>
    obtain rfl := Option.some.inj (Except.ok.inj ho)
    have hne : acceptedObservations (agedSources contributors) manifestDigest maximumAgeSeconds
        maximumSigners.toNat ≠ [] := by
      intro hempty
      rw [hempty, List.length_nil] at henough
      rw [not_or] at hbounds
      exact henough (lt_of_lt_of_le (by decide) (not_lt.mp hbounds.1))
    obtain ⟨hplaced, hsigned, hsuccesses⟩ := aggregate_agrees hnfc hstrip hpublished rfl hne
    refine ⟨hplaced, hsigned, hsuccesses, fun c hc haccepted => ⟨?_, ?_⟩⟩
    · exact (hpublished c (List.mem_of_mem_take hc)).quantized.toValid.age_le_aged c.2
    · exact summarize_no_fresher hc haccepted

/-! ### Two trackers that have counted few generations -/

/-- The digest of a manifest. -/
def demandDigest : String := String.ofList (List.replicate 64 'a')

/-- A generation that succeeded. -/
def aGeneration : RouteOutcome := ⟨sha256Prefix ++ demandDigest, true, 20, 2⟩

/-- A tracker that has counted some generations at the start of its clock. -/
def counted (generations : Nat) : RouteOutcomeTracker :=
  (List.replicate generations aGeneration).foldl (fun t e => (t.record e 0).2)
    (.initial 64 (by decide))

theorem reach_counted (generations : Nat) :
    trackerMachine.Reach Machine.always (.initial 64 (by decide)) (counted generations) := by
  unfold counted
  generalize RouteOutcomeTracker.initial 64 (by decide) = t
  induction generations generalizing t with
  | zero => exact .refl
  | succ n ih =>
    rw [List.replicate_succ, List.foldl_cons]
    have hstep : trackerMachine.next t (.record aGeneration 0) = some (t.record aGeneration 0).2 := rfl
    exact (Machine.Reach.refl.tail trivial hstep).trans (ih _)

/-- Four generations make a closed snapshot that both validators accept. -/
theorem route_demand_agrees_of_four_generations :
    ∃ o, (counted 4).closedSnapshot aGeneration.manifestDigest 4 300 = .ok (some o) ∧
      validateRouteDemandObservation trustingPrimitives (some o.toDict) demandDigest = .ok () ∧
      validateRouteObservation o.toDict aGeneration.manifestDigest 300 = .ok o := by
  have hnfc : NormalizesAscii trustingPrimitives := fun _ _ => rfl
  obtain ⟨hsigned, hplaced, -⟩ := route_demand_agrees hnfc (reach_counted 4)
    (show stripSha256 aGeneration.manifestDigest = some demandDigest by decide +kernel) 300
  have hclosed : ((counted 4).closedSnapshot aGeneration.manifestDigest 4 300).toOption =
      some (some ⟨aGeneration.manifestDigest, 300, 4, 4, 8000, 1000, 300⟩) := by decide +kernel
  cases hresult : (counted 4).closedSnapshot aGeneration.manifestDigest 4 300 with
  | error e =>
    rw [hresult] at hclosed
    cases hclosed
  | ok o =>
    rw [hresult] at hclosed
    obtain rfl := Option.some.inj hclosed
    exact ⟨_, rfl, hsigned 4 _ hresult, hplaced _ (Or.inr ⟨4, hresult⟩) 300 (by decide +kernel)
      (le_refl _)⟩

/-- What a tracker publishes of one generation, while its window is open. -/
def openSnapshot : RouteUtilityObservation := ⟨aGeneration.manifestDigest, 300, 1, 1, 8000, 1000, 0⟩

theorem published_openSnapshot : Published openSnapshot :=
  ⟨64, by decide, counted 1, 0, reach_counted 1, Or.inl (by decide +kernel)⟩

/-- Open snapshots of a single generation have an aggregate, and signed demand refuses it. -/
theorem aggregate_of_open_snapshots_refused :
    (∀ c ∈ [(openSnapshot, (0 : Rat)), (openSnapshot, 0)], Published c.1 ∧ 0 ≤ c.2) ∧
    ∃ o, aggregateRouteObservations (agedSources [(openSnapshot, 0), (openSnapshot, 0)])
        aGeneration.manifestDigest 300 2 32 = .ok (some o) ∧
      ∀ prim, validateRouteDemandObservation prim (some o.toDict) demandDigest ≠ .ok () := by
  constructor
  · intro c hc
    obtain rfl : c = (openSnapshot, 0) := by simpa using hc
    exact ⟨published_openSnapshot, le_refl _⟩
  · have haggregate : (aggregateRouteObservations
        (agedSources [(openSnapshot, 0), (openSnapshot, 0)]) aGeneration.manifestDigest 300 2
        32).toOption = some (some openSnapshot) := by decide +kernel
    cases hresult : aggregateRouteObservations (agedSources [(openSnapshot, 0), (openSnapshot, 0)])
        aGeneration.manifestDigest 300 2 32 with
    | error e =>
      rw [hresult] at haggregate
      cases haggregate
    | ok o =>
      rw [hresult] at haggregate
      obtain rfl := Option.some.inj haggregate
      refine ⟨openSnapshot, rfl, fun prim haccepted => ?_⟩
      exact absurd (validateDemand_attempts haccepted) (by decide)

end Drift.Node
