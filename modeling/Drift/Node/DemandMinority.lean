import Drift.Node.RouteDemand

/-!
# A minority of signers

Route demand comes from signers that are authorized and not trusted. The aggregate takes the low median
of each field and the largest age, so that a coalition of at most half of the valid observations can
neither raise a field over what an honest signer has reported nor make the aggregate look fresher.

* `validContributions` — the valid observations, each with whether its signer is honest;
* `demand_resists_minorities` — the aggregate does not depend on the order, is bounded by the honest
  signers, and does not exist without two valid observations.
-/

namespace Drift.Node

open Drift.Lib Drift.Identity

variable {manifestDigest : String} {maximumAgeSeconds : Rat} {minimumSigners maximumSigners : Int}

/-- The observations the aggregate is made of, each with whether its signer is honest. A coalition
reports any document. -/
def validContributions (contributions : List (Bool × Json)) (manifestDigest : String)
    (maximumAgeSeconds : Rat) (maximumSigners : Nat) : List (Bool × RouteUtilityObservation) :=
  (contributions.take maximumSigners).filterMap fun c =>
    (validateRouteObservation c.2 manifestDigest maximumAgeSeconds).toOption.map (c.1, ·)

/-- They are the accepted ones. -/
theorem map_validContributions (contributions : List (Bool × Json)) (maximumSigners : Nat) :
    (validContributions contributions manifestDigest maximumAgeSeconds maximumSigners).map Prod.snd =
      acceptedObservations (contributions.map Prod.snd) manifestDigest maximumAgeSeconds
        maximumSigners := by
  unfold validContributions acceptedObservations
  rw [List.map_filterMap, ← List.map_take, List.filterMap_map]
  refine List.filterMap_congr fun c _ => ?_
  rw [Option.map_map, Function.comp_apply]
  cases (validateRouteObservation c.2 manifestDigest maximumAgeSeconds).toOption with
  | none => rfl
  | some o => rfl

/-- What an aggregate is made of. -/
theorem aggregate_some {sources : List Json} {o : RouteUtilityObservation}
    (h : aggregateRouteObservations sources manifestDigest maximumAgeSeconds minimumSigners
      maximumSigners = .ok (some o)) :
    2 ≤ minimumSigners ∧ minimumSigners ≤ (acceptedObservations sources manifestDigest
        maximumAgeSeconds maximumSigners.toNat).length ∧
      o = summarize (acceptedObservations sources manifestDigest maximumAgeSeconds
        maximumSigners.toNat) manifestDigest := by
  unfold aggregateRouteObservations at h
  split at h
  · cases h
  rename_i hbounds
  dsimp only at h
  split at h
  · cases h
  rename_i hcount
  cases h
  rw [not_or] at hbounds
  exact ⟨not_lt.mp hbounds.1, not_lt.mp hcount, rfl⟩

/-! ### The order -/

theorem medianOf_perm {field : RouteUtilityObservation → Int} {xs ys : List RouteUtilityObservation}
    (h : xs.Perm ys) : medianOf field xs = medianOf field ys := by
  unfold medianOf
  rw [medianLow_perm (h.map field)]

/-- The summary of observations is one of their multiset. -/
theorem summarize_perm {xs ys : List RouteUtilityObservation} (h : xs.Perm ys) :
    summarize xs manifestDigest = summarize ys manifestDigest := by
  have hage : (xs.map RouteUtilityObservation.ageSecondsBucket).foldl max 0 =
      (ys.map RouteUtilityObservation.ageSecondsBucket).foldl max 0 :=
    (h.map _).foldl_eq 0
  unfold summarize
  rw [medianOf_perm h, medianOf_perm h, medianOf_perm h, medianOf_perm h, hage]

/-- The accepted observations come in the order of the sources. -/
theorem accepted_perm {sources sources' : List Json} (h : sources.Perm sources') {maximumSigners : Nat}
    (hall : sources.length ≤ maximumSigners) :
    (acceptedObservations sources manifestDigest maximumAgeSeconds maximumSigners).Perm
      (acceptedObservations sources' manifestDigest maximumAgeSeconds maximumSigners) := by
  unfold acceptedObservations
  rw [List.take_of_length_le hall, List.take_of_length_le (h.length_eq ▸ hall)]
  exact h.filterMap _

/-! ### The coalition -/

/-- An honest signer reports at least the median. -/
theorem medianOf_le_honest {field : RouteUtilityObservation → Int}
    {valid : List (Bool × RouteUtilityObservation)} (hne : valid ≠ [])
    (hminority : 2 * valid.countP (fun c => !c.1) ≤ valid.length) :
    ∃ c ∈ valid, c.1 = true ∧ medianOf field (valid.map Prod.snd) ≤ field c.2 := by
  obtain ⟨m, hm⟩ := medianLow_isSome
    (mt List.map_eq_nil_iff.mp (mt List.map_eq_nil_iff.mp hne) : (valid.map Prod.snd).map field ≠ [])
  have hpairs : medianLow (valid.map fun c => field c.2) = some m := by
    rw [List.map_map] at hm
    exact hm
  obtain ⟨c, hc, hhonest, hle⟩ := medianLow_le_of_minority hpairs hminority
  refine ⟨c, hc, hhonest, ?_⟩
  unfold medianOf
  rwa [hm, Option.getD_some]

/-- **Demand aggregation resists minorities.** The aggregate does not depend on the order of the
observations it considers; where at most half of the valid ones are a coalition's, no field is above the
largest honest one and the age is at least every honest age, whatever the coalition reports; and with
fewer than two valid observations there is no aggregate. -/
theorem demand_resists_minorities (manifestDigest : String) (maximumAgeSeconds : Rat)
    {minimumSigners maximumSigners : Int} (hmin : 2 ≤ minimumSigners)
    (hle : minimumSigners ≤ maximumSigners) (hmax : maximumSigners ≤ 32) :
    (∀ sources sources' : List Json, sources.length ≤ maximumSigners → sources.Perm sources' →
      aggregateRouteObservations sources manifestDigest maximumAgeSeconds minimumSigners
          maximumSigners =
        aggregateRouteObservations sources' manifestDigest maximumAgeSeconds minimumSigners
          maximumSigners) ∧
    (∀ (contributions : List (Bool × Json)) (o : RouteUtilityObservation),
      let valid := validContributions contributions manifestDigest maximumAgeSeconds
        maximumSigners.toNat
      aggregateRouteObservations (contributions.map Prod.snd) manifestDigest maximumAgeSeconds
          minimumSigners maximumSigners = .ok (some o) →
      2 * valid.countP (fun c => !c.1) ≤ valid.length →
      (∀ field ∈ [RouteUtilityObservation.attemptsBucket, RouteUtilityObservation.successesBucket,
          RouteUtilityObservation.usefulTokensPerSecondMilli, RouteUtilityObservation.reliabilityMilli],
        ∃ c ∈ valid, c.1 = true ∧ field o ≤ field c.2) ∧
      ∀ c ∈ valid, c.1 = true → c.2.ageSecondsBucket ≤ o.ageSecondsBucket) ∧
    ∀ sources : List Json, (acceptedObservations sources manifestDigest maximumAgeSeconds
        maximumSigners.toNat).length < 2 →
      aggregateRouteObservations sources manifestDigest maximumAgeSeconds minimumSigners
        maximumSigners = .ok none := by
  have hbounds : ¬ (minimumSigners < 2 ∨ maximumSigners < minimumSigners ∨ 32 < maximumSigners) := by
    omega
  refine ⟨?_, ?_, ?_⟩
  · intro sources sources' hall hperm
    have haccepted := @accepted_perm manifestDigest maximumAgeSeconds _ _ hperm maximumSigners.toNat (by omega)
    unfold aggregateRouteObservations
    rw [if_neg hbounds, if_neg hbounds]
    dsimp only
    rw [haccepted.length_eq, summarize_perm haccepted]
  · intro contributions o valid haggregate hminority
    obtain ⟨-, hcount, rfl⟩ := aggregate_some haggregate
    rw [← map_validContributions] at hcount ⊢
    have hne : valid ≠ [] := by
      intro hnil
      rw [show validContributions contributions manifestDigest maximumAgeSeconds maximumSigners.toNat =
        [] from hnil] at hcount
      rw [List.map_nil, List.length_nil] at hcount
      omega
    constructor
    · intro field hfield
      obtain ⟨c, hc, hhonest, hmedian⟩ := @medianOf_le_honest field _ hne hminority
      refine ⟨c, hc, hhonest, ?_⟩
      rcases List.mem_cons.mp hfield with rfl | hfield
      · exact hmedian
      rcases List.mem_cons.mp hfield with rfl | hfield
      · exact hmedian
      rcases List.mem_cons.mp hfield with rfl | hfield
      · exact hmedian
      rcases List.mem_cons.mp hfield with rfl | hfield
      · exact hmedian
      · cases hfield
    · intro c hc _
      exact (foldl_max_spec _ 0).2.2 _ (List.mem_map_of_mem (List.mem_map_of_mem hc))
  · intro sources hfew
    unfold aggregateRouteObservations
    rw [if_neg hbounds]
    dsimp only
    rw [if_pos (by omega)]

/-! ### A coalition of one -/

/-- The largest buckets there are. -/
def boastfulObservation : RouteUtilityObservation :=
  ⟨aGeneration.manifestDigest, 300, 64, 64, 64000, 1000, 0⟩

/-- One signer is honest, the other one boasts. -/
def boastfulContributions : List (Bool × Json) :=
  [(false, boastfulObservation.toDict), (true, openSnapshot.toDict)]

theorem demand_resists_minorities_of_boast :
    ∃ o, aggregateRouteObservations (boastfulContributions.map Prod.snd) aGeneration.manifestDigest 300
        2 32 = .ok (some o) ∧
      ∃ c ∈ validContributions boastfulContributions aGeneration.manifestDigest 300 32,
        c.1 = true ∧ o.attemptsBucket ≤ c.2.attemptsBucket := by
  have haggregate : (aggregateRouteObservations (boastfulContributions.map Prod.snd)
      aGeneration.manifestDigest 300 2 32).toOption = some (some openSnapshot) := by decide +kernel
  cases hresult : aggregateRouteObservations (boastfulContributions.map Prod.snd)
      aGeneration.manifestDigest 300 2 32 with
  | error e =>
    rw [hresult] at haggregate
    cases haggregate
  | ok o =>
    rw [hresult] at haggregate
    obtain rfl := Option.some.inj haggregate
    have hbound := (demand_resists_minorities aGeneration.manifestDigest 300 (by decide) (by decide)
      (by decide)).2.1 boastfulContributions openSnapshot hresult (by decide +kernel)
    exact ⟨_, rfl, hbound.1 _ List.mem_cons_self⟩

end Drift.Node
