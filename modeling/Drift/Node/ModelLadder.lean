import Drift.Node.CatalogRollback

/-!
# The model ladder

A catalog orders its models on rungs, each with one primary model and at least one standby. A node measures
what the swarm of a model can carry, and new requests go to the highest rung on which a model meets the
rung's limits.

* `ModelLadder.fromParts` — what `ModelCatalog.from_dict` checks of the rungs and the models together;
* `evaluateModelEligibility`, `selectHighestEligibleModel` — the selection, with its reasons;
* `ModelLadder.Eligible` — what it means for a model, and `evaluate_eligible_iff`;
* `select_highest_eligible_model` — the selection is the best of the eligible models, and better observations
  never lower it.

An observation from the future counts for nothing, so being newer is only better up to the time of the
selection.
-/

namespace Drift.Node

open Drift.Lib

/-- `CatalogRung`. -/
structure CatalogRung where
  rungId : String
  order : Nat
  minimumReplicas : Nat
  minimumIndependentRoutes : Nat
  minimumSurvivingReplicas : Nat
  minimumSoakSeconds : Nat
  maximumObservationAgeSeconds : Nat
  maximumP95FirstTokenMs : Nat
  minimumTokensPerMinute : Nat
  deriving DecidableEq

inductive ModelRole
  | primary
  | standby
  deriving DecidableEq

/-- `CatalogModel`, with its place on the ladder. -/
structure LadderModel extends CatalogModel where
  rungId : String
  role : ModelRole
  deriving DecidableEq

/-- The models of a rung, in the order of the catalog. -/
def rungModels (models : List LadderModel) (rungId : String) : List LadderModel :=
  models.filter (·.rungId = rungId)

/-- The number of them that are primary. -/
def primaryCount (models : List LadderModel) (rungId : String) : Nat :=
  (rungModels models rungId).countP (·.role = .primary)

/-- The rungs and the models of a `ModelCatalog`, with what `from_dict` has checked of them. -/
structure ModelLadder where
  rungs : List CatalogRung
  models : List LadderModel
  rungIds_nodup : (rungs.map CatalogRung.rungId).Nodup
  orders_nodup : (rungs.map CatalogRung.order).Nodup
  digests_nodup : (models.map fun m => m.manifestDigest).Nodup
  rungs_known : ∀ m ∈ models, m.rungId ∈ rungs.map CatalogRung.rungId
  options : ∀ rung ∈ rungs, 2 ≤ (rungModels models rung.rungId).length
  one_primary : ∀ rung ∈ rungs, primaryCount models rung.rungId = 1

/-- What the loop over the rung ids finds wrong with one of them. -/
def rungFault (models : List LadderModel) (rungId : String) : Option String :=
  if (rungModels models rungId).length < 2 then
    some ("catalog rung '" ++ rungId ++ "' must approve at least two model options")
  else if primaryCount models rungId ≠ 1 then
    some ("catalog rung '" ++ rungId ++ "' must declare exactly one primary model")
  else none

theorem rungFault_eq_none {models : List LadderModel} {rungId : String}
    (h : rungFault models rungId = none) :
    2 ≤ (rungModels models rungId).length ∧ primaryCount models rungId = 1 := by
  unfold rungFault at h
  split at h
  · cases h
  · rename_i hoptions
    split at h
    · cases h
    · rename_i hprimary
      exact ⟨not_lt.mp hoptions, not_not.mp hprimary⟩

/-- The checks of `ModelCatalog.from_dict` on the rungs and the models that it has parsed. -/
def ModelLadder.fromParts (rungs : List CatalogRung) (models : List LadderModel) :
    Except ModelCatalogError ModelLadder :=
  if rungs = [] then refuseCatalog "model catalog rungs must be a non-empty array"
  else if models = [] then refuseCatalog "model catalog models must be a non-empty array"
  else if hids : (rungs.map CatalogRung.rungId).Nodup then
    if horders : (rungs.map CatalogRung.order).Nodup then
      if (rungs.map CatalogRung.order).Pairwise (· ≤ ·) then
        if hdigests : (models.map fun m => m.manifestDigest).Nodup then
          if hknown : ∀ m ∈ models, m.rungId ∈ rungs.map CatalogRung.rungId then
            match hfault : rungs.findSome? fun rung => rungFault models rung.rungId with
            | some message => refuseCatalog message
            | none =>
              have hrungs := fun rung hrung =>
                rungFault_eq_none (List.findSome?_eq_none_iff.mp hfault rung hrung)
              .ok ⟨rungs, models, hids, horders, hdigests, hknown, fun rung hrung => (hrungs rung hrung).1,
                fun rung hrung => (hrungs rung hrung).2⟩
          else refuseCatalog "every catalog model must reference a declared rung"
        else refuseCatalog "model catalog manifest digests must be unique"
      else refuseCatalog "model catalog rungs must be sorted by ascending order"
    else refuseCatalog "model catalog rung orders must be unique"
  else refuseCatalog "model catalog rung ids must be unique"

/-- `CapacityObservation`, with what `__post_init__` has checked. -/
structure CapacityObservation where
  manifestDigest : String
  observedAtMs : Nat
  stableSinceMs : Nat
  bottleneckReplicas : Rat
  independentRoutes : Nat
  replicasAfterLargestPeerLoss : Rat
  p95FirstTokenMs : Nat
  tokensPerMinute : Nat
  stable_before : stableSinceMs ≤ observedAtMs
  replicas_nonneg : 0 ≤ bottleneckReplicas
  surviving_nonneg : 0 ≤ replicasAfterLargestPeerLoss

structure ModelEligibility where
  model : LadderModel
  eligible : Bool
  reasons : List String
  deriving DecidableEq

/-- `if found: reasons.append(reason)`. -/
def reasonIf (found : Prop) [Decidable found] (reason : String) : List String :=
  if found then [reason] else []

/-- The reasons that an observation gives against a model. -/
def observationReasons (model : LadderModel) (rung : CatalogRung) (o : CapacityObservation) (nowMs : Int) :
    List String :=
  reasonIf (o.manifestDigest ≠ model.manifestDigest) "observation manifest mismatch" ++
  (if nowMs < o.observedAtMs then ["observation is from the future"]
    else reasonIf (rung.maximumObservationAgeSeconds * 1000 < nowMs - o.observedAtMs)
      "capacity observation is stale") ++
  reasonIf (o.bottleneckReplicas < rung.minimumReplicas) "insufficient bottleneck replica coverage" ++
  reasonIf (o.independentRoutes < rung.minimumIndependentRoutes) "insufficient independent routes" ++
  reasonIf (o.replicasAfterLargestPeerLoss < rung.minimumSurvivingReplicas)
    "insufficient coverage after largest-peer loss" ++
  reasonIf (nowMs - o.stableSinceMs < rung.minimumSoakSeconds * 1000) "stability soak is incomplete" ++
  reasonIf (rung.maximumP95FirstTokenMs < o.p95FirstTokenMs) "first-token latency exceeds the rung limit" ++
  reasonIf (o.tokensPerMinute < rung.minimumTokensPerMinute)
    "generation throughput is below the rung minimum"

/-- `evaluate_model_eligibility`. -/
def evaluateModelEligibility (model : LadderModel) (rung : CatalogRung)
    (observation : Option CapacityObservation) (nowMs : Int) : ModelEligibility :=
  let reasons :=
    match observation with
    | none => ["no capacity observation"]
    | some o => observationReasons model rung o nowMs
  ⟨model, reasons.isEmpty, reasons⟩

/-- What a selection raises: the error of the catalog, or a missing key of a dictionary. -/
inductive SelectionError
  | catalog (error : ModelCatalogError)
  | keyError (key : String)
  deriving DecidableEq

/-- The loop that fills `by_digest`. -/
def indexObservations :
    List CapacityObservation → Dict String CapacityObservation →
      Except SelectionError (Dict String CapacityObservation)
  | [], byDigest => .ok byDigest
  | o :: rest, byDigest =>
    if o.manifestDigest ∈ byDigest then
      .error (.catalog ⟨"capacity observations must contain at most one entry per manifest"⟩)
    else indexObservations rest (byDigest.insert o.manifestDigest o)

/-- `mapping[key]`. -/
def getItem {ν : Type} (mapping : Dict String ν) (key : String) : Except SelectionError ν :=
  match mapping.lookup key with
  | some value => .ok value
  | none => .error (.keyError key)

/-- The loops over the rungs and their candidates, on the candidates of all of them. -/
def firstEligible (eligibility : Dict String Bool) :
    List LadderModel → Except SelectionError (Option LadderModel)
  | [] => .ok none
  | model :: rest => do
    if ← getItem eligibility model.manifestDigest then pure (some model)
    else firstEligible eligibility rest

namespace ModelLadder

variable (ladder : ModelLadder)

/-- `rung_by_id`. -/
def rungById : Dict String CatalogRung := Dict.ofPairs (ladder.rungs.map fun rung => (rung.rungId, rung))

/-- The candidates of a rung, its primary model first. -/
def candidates (rung : CatalogRung) : List LadderModel :=
  (rungModels ladder.models rung.rungId).insertionSort fun a b => a.role = .primary ∨ b.role ≠ .primary

/-- The candidates of all rungs, from the highest. -/
def ranked : List LadderModel :=
  (ladder.rungs.insertionSort fun a b => b.order ≤ a.order).flatMap ladder.candidates

/-- `select_highest_eligible_model`. -/
def selectHighestEligibleModel (observations : List CapacityObservation) (nowMs : Int) :
    Except SelectionError (Option LadderModel × List ModelEligibility) := do
  let byDigest ← indexObservations observations ∅
  let evaluations ← ladder.models.mapM fun model => do
    let rung ← getItem ladder.rungById model.rungId
    pure (evaluateModelEligibility model rung (byDigest.lookup model.manifestDigest) nowMs)
  let eligibility := Dict.ofPairs (evaluations.map fun item => (item.model.manifestDigest, item.eligible))
  let selected ← firstEligible eligibility ladder.ranked
  pure (selected, evaluations)

/-! ### What a model has to meet -/

end ModelLadder

/-- An observation meets the limits of a rung. -/
structure Qualifies (rung : CatalogRung) (o : CapacityObservation) (nowMs : Int) : Prop where
  past : (o.observedAtMs : Int) ≤ nowMs
  fresh : nowMs - o.observedAtMs ≤ rung.maximumObservationAgeSeconds * 1000
  replicas : (rung.minimumReplicas : Rat) ≤ o.bottleneckReplicas
  routes : rung.minimumIndependentRoutes ≤ o.independentRoutes
  surviving : (rung.minimumSurvivingReplicas : Rat) ≤ o.replicasAfterLargestPeerLoss
  soak : (rung.minimumSoakSeconds * 1000 : Int) ≤ nowMs - o.stableSinceMs
  latency : o.p95FirstTokenMs ≤ rung.maximumP95FirstTokenMs
  throughput : rung.minimumTokensPerMinute ≤ o.tokensPerMinute

theorem reasonIf_eq_nil_iff {found : Prop} [Decidable found] {reason : String} :
    reasonIf found reason = [] ↔ ¬found := by
  unfold reasonIf
  split
  · rename_i hfound
    exact iff_of_false (List.cons_ne_nil _ _) (not_not.mpr hfound)
  · rename_i hfound
    exact iff_of_true rfl hfound

variable {model : LadderModel} {rung : CatalogRung} {nowMs : Int}

/-- **The thresholds**: an observation of the model gives no reason against it exactly if it qualifies. -/
theorem observationReasons_eq_nil_iff {o : CapacityObservation} :
    observationReasons model rung o nowMs = [] ↔
      o.manifestDigest = model.manifestDigest ∧ Qualifies rung o nowMs := by
  have htime : (if nowMs < o.observedAtMs then ["observation is from the future"]
      else reasonIf (rung.maximumObservationAgeSeconds * 1000 < nowMs - o.observedAtMs)
        "capacity observation is stale") = [] ↔
      (o.observedAtMs : Int) ≤ nowMs ∧ nowMs - o.observedAtMs ≤ rung.maximumObservationAgeSeconds * 1000 := by
    split
    · rename_i hfuture
      exact iff_of_false (List.cons_ne_nil _ _) fun h => absurd hfuture (not_lt.mpr h.1)
    · rename_i hpast
      rw [reasonIf_eq_nil_iff, not_lt]
      exact ⟨fun h => ⟨not_lt.mp hpast, h⟩, And.right⟩
  unfold observationReasons
  simp only [List.append_eq_nil_iff, htime, reasonIf_eq_nil_iff, not_lt, not_not, ne_eq]
  constructor
  · rintro ⟨⟨⟨⟨⟨⟨⟨hdigest, hpast, hfresh⟩, hreplicas⟩, hroutes⟩, hsurviving⟩, hsoak⟩, hlatency⟩, hthroughput⟩
    exact ⟨hdigest, hpast, hfresh, hreplicas, hroutes, hsurviving, hsoak, hlatency, hthroughput⟩
  · rintro ⟨hdigest, hpast, hfresh, hreplicas, hroutes, hsurviving, hsoak, hlatency, hthroughput⟩
    exact ⟨⟨⟨⟨⟨⟨⟨hdigest, hpast, hfresh⟩, hreplicas⟩, hroutes⟩, hsurviving⟩, hsoak⟩, hlatency⟩, hthroughput⟩

theorem evaluate_eligible_iff {observation : Option CapacityObservation} :
    (evaluateModelEligibility model rung observation nowMs).eligible = true ↔
      ∃ o, observation = some o ∧ o.manifestDigest = model.manifestDigest ∧ Qualifies rung o nowMs := by
  cases observation with
  | none => exact iff_of_false Bool.false_ne_true fun ⟨o, ho, _⟩ => nomatch ho
  | some o =>
    rw [evaluateModelEligibility, List.isEmpty_iff, observationReasons_eq_nil_iff]
    constructor
    · intro h
      exact ⟨o, rfl, h⟩
    · rintro ⟨o', ho', h⟩
      obtain rfl : o = o' := Option.some.inj ho'
      exact h

/-! ### The dictionaries of a selection -/

theorem indexObservations_eq :
    ∀ {observations : List CapacityObservation} {byDigest : Dict String CapacityObservation},
      (observations.map CapacityObservation.manifestDigest).Nodup →
      (∀ o ∈ observations, o.manifestDigest ∉ byDigest) →
      indexObservations observations byDigest =
        .ok ((observations.map fun o => (o.manifestDigest, o)).foldl (fun d e => d.insert e.1 e.2) byDigest)
  | [], _, _, _ => rfl
  | o :: rest, byDigest, hnodup, hnew => by
    obtain ⟨hfirst, hrest⟩ := List.nodup_cons.mp hnodup
    rw [indexObservations, if_neg (hnew o (List.mem_cons_self ..)), indexObservations_eq hrest]
    · rfl
    · intro o' ho' hmem
      rcases (AList.mem_insert _).mp hmem with heq | hold
      · exact hfirst (List.mem_map.mpr ⟨o', ho', heq⟩)
      · exact hnew o' (List.mem_cons_of_mem _ ho') hold

/-- An observation that comes twice is an error. -/
theorem indexObservations_error :
    ∀ {observations : List CapacityObservation} {byDigest : Dict String CapacityObservation},
      ¬((observations.map CapacityObservation.manifestDigest).Nodup ∧
        ∀ o ∈ observations, o.manifestDigest ∉ byDigest) →
      indexObservations observations byDigest =
        .error (.catalog ⟨"capacity observations must contain at most one entry per manifest"⟩)
  | [], _, h => absurd ⟨List.nodup_nil, fun _ ho => nomatch ho⟩ h
  | o :: rest, byDigest, h => by
    unfold indexObservations
    split
    · rfl
    · rename_i hnew
      refine indexObservations_error fun hrest => h ⟨List.nodup_cons.mpr ⟨fun hmem => ?_, hrest.1⟩, ?_⟩
      · obtain ⟨o', ho', heq⟩ := List.mem_map.mp hmem
        exact hrest.2 o' ho' ((AList.mem_insert _).mpr (.inl heq))
      · intro o' ho' hmem
        rcases List.mem_cons.mp ho' with rfl | ho'
        · exact hnew hmem
        · exact hrest.2 o' ho' ((AList.mem_insert _).mpr (.inr hmem))

theorem getItem_ok {ν : Type} {mapping : Dict String ν} {key : String} {value : ν}
    (h : mapping.lookup key = some value) : getItem mapping key = .ok value := by
  rw [getItem, h]

/-- The loop finds the first model that the dictionary has as eligible. -/
theorem firstEligible_eq {eligibility : Dict String Bool} {eligible : LadderModel → Bool} :
    ∀ {models : List LadderModel},
      (∀ m ∈ models, eligibility.lookup m.manifestDigest = some (eligible m)) →
      firstEligible eligibility models = .ok (models.find? eligible)
  | [], _ => rfl
  | m :: rest, h => by
    have hrest : firstEligible eligibility rest = .ok (rest.find? eligible) :=
      firstEligible_eq fun m' hm' => h m' (List.mem_cons_of_mem _ hm')
    rw [firstEligible, getItem_ok (h m (List.mem_cons_self ..)), List.find?_cons]
    cases eligible m with
    | true => rfl
    | false => exact hrest

/-- The first of a list in order that meets a test comes before all others that do. -/
theorem find?_before {α : Type} {before : α → α → Prop} {p : α → Bool} {x : α} :
    ∀ {l : List α}, l.Pairwise before → l.find? p = some x → ∀ y ∈ l, p y = true → y = x ∨ before x y
  | [], _, hfind, _, _, _ => nomatch hfind
  | a :: l, hordered, hfind, y, hy, hp => by
    obtain ⟨hfirst, hrest⟩ := List.pairwise_cons.mp hordered
    rw [List.find?_cons] at hfind
    split at hfind
    · obtain rfl : a = x := Option.some.inj hfind
      rcases List.mem_cons.mp hy with rfl | hy
      · exact .inl rfl
      · exact .inr (hfirst y hy)
    · rename_i hnot
      rcases List.mem_cons.mp hy with rfl | hy
      · exact absurd hp (by rw [hnot]; exact Bool.false_ne_true)
      · exact find?_before hrest hfind y hy hp

/-! ### The order of the candidates -/

namespace ModelLadder

variable {ladder : ModelLadder} {m m' : LadderModel}

theorem rungById_lookup (hrung : rung ∈ ladder.rungs) : ladder.rungById.lookup rung.rungId = some rung := by
  apply Dict.lookup_ofPairs_of_mem
  · rw [List.map_map]
    exact ladder.rungIds_nodup
  · exact List.mem_map.mpr ⟨rung, hrung, rfl⟩

theorem exists_rung (hm : m ∈ ladder.models) : ∃ rung ∈ ladder.rungs, rung.rungId = m.rungId :=
  List.mem_map.mp (ladder.rungs_known m hm)

variable (ladder) in
/-- The order of a model's rung. -/
def rank (m : LadderModel) : Nat := (ladder.rungById.lookup m.rungId).elim 0 CatalogRung.order

theorem rank_eq (hrung : rung ∈ ladder.rungs) (hid : rung.rungId = m.rungId) : ladder.rank m = rung.order := by
  rw [rank, ← hid, rungById_lookup hrung]
  rfl

theorem mem_candidates : m ∈ ladder.candidates rung ↔ m ∈ ladder.models ∧ m.rungId = rung.rungId := by
  rw [candidates, List.mem_insertionSort, rungModels, List.mem_filter, decide_eq_true_iff]

theorem mem_ranked : m ∈ ladder.ranked ↔ m ∈ ladder.models := by
  rw [ranked, List.mem_flatMap]
  constructor
  · rintro ⟨rung, -, hm⟩
    exact (mem_candidates.mp hm).1
  · intro hm
    obtain ⟨rung, hrung, hid⟩ := exists_rung hm
    exact ⟨rung, (List.mem_insertionSort _).mpr hrung, mem_candidates.mpr ⟨hm, hid.symm⟩⟩

variable (ladder) in
/-- A model comes before another one: on a higher rung, or on the same and not as a standby of the other. -/
def Before (m m' : LadderModel) : Prop :=
  ladder.rank m' < ladder.rank m ∨ m.rungId = m'.rungId ∧ (m'.role = .primary → m.role = .primary)

theorem candidates_pairwise : (ladder.candidates rung).Pairwise ladder.Before := by
  have htotal : Std.Total fun a b : LadderModel => a.role = .primary ∨ b.role ≠ .primary := by
    refine ⟨fun a b => ?_⟩
    by_cases ha : a.role = .primary
    · exact .inl (.inl ha)
    · exact .inr (.inr ha)
  have htrans : IsTrans LadderModel fun a b => a.role = .primary ∨ b.role ≠ .primary := by
    refine ⟨fun a b c hab hbc => ?_⟩
    rcases hbc with hb | hc
    · exact .inl (hab.resolve_right (not_not.mpr hb))
    · exact .inr hc
  have hsorted : (ladder.candidates rung).Pairwise fun a b => a.role = .primary ∨ b.role ≠ .primary :=
    List.pairwise_insertionSort _ _
  refine hsorted.imp_of_mem fun ha hb hab => .inr ⟨?_, fun hprimary => ?_⟩
  · exact (mem_candidates.mp ha).2.trans (mem_candidates.mp hb).2.symm
  · exact hab.resolve_right (not_not.mpr hprimary)

theorem ranked_pairwise : ladder.ranked.Pairwise ladder.Before := by
  have htotal : Std.Total fun a b : CatalogRung => b.order ≤ a.order := ⟨fun a b => le_total b.order a.order⟩
  have htrans : IsTrans CatalogRung fun a b => b.order ≤ a.order := ⟨fun _ _ _ hab hbc => hbc.trans hab⟩
  have hsorted : (ladder.rungs.insertionSort fun a b => b.order ≤ a.order).Pairwise fun a b => b.order ≤ a.order :=
    List.pairwise_insertionSort _ _
  have hdistinct : (ladder.rungs.insertionSort fun a b => b.order ≤ a.order).Pairwise
      fun a b => a.order ≠ b.order := by
    have hperm := (List.perm_insertionSort (fun a b : CatalogRung => b.order ≤ a.order) ladder.rungs).map
      CatalogRung.order
    exact List.pairwise_map.mp (hperm.nodup_iff.mpr ladder.orders_nodup)
  refine List.pairwise_flatMap.mpr ⟨fun _ _ => candidates_pairwise, ?_⟩
  refine (hsorted.and hdistinct).imp_of_mem fun {a b} ha hb hab x hx y hy => .inl ?_
  rw [rank_eq ((List.mem_insertionSort _).mp ha) (mem_candidates.mp hx).2.symm,
    rank_eq ((List.mem_insertionSort _).mp hb) (mem_candidates.mp hy).2.symm]
  exact lt_of_le_of_ne hab.1 (Ne.symm hab.2)

/-- A rung has only one primary model. -/
theorem primary_unique (hm : m ∈ ladder.models) (hm' : m' ∈ ladder.models) (hrung : m.rungId = m'.rungId)
    (hprimary : m.role = .primary) (hprimary' : m'.role = .primary) : m = m' := by
  obtain ⟨rung, hmem, hid⟩ := exists_rung hm
  have hone : ((rungModels ladder.models rung.rungId).filter (·.role = .primary)).length = 1 := by
    rw [← List.countP_eq_length_filter]
    exact ladder.one_primary rung hmem
  obtain ⟨only, honly⟩ := List.length_eq_one_iff.mp hone
  have hin : ∀ x ∈ ladder.models, x.rungId = m.rungId → x.role = .primary → x = only := by
    intro x hx hxrung hxprimary
    have hx : x ∈ (rungModels ladder.models rung.rungId).filter (·.role = .primary) := by
      refine List.mem_filter.mpr ⟨List.mem_filter.mpr ⟨hx, ?_⟩, ?_⟩
      · exact decide_eq_true (hxrung.trans hid.symm)
      · exact decide_eq_true hxprimary
    rw [honly] at hx
    exact List.mem_singleton.mp hx
  rw [hin m hm rfl hprimary, hin m' hm' hrung.symm hprimary']

/-! ### What is selected -/

variable {observations better : List CapacityObservation}

variable (ladder) in
/-- A model is eligible: the observation of it meets the limits of its rung. -/
def Eligible (observations : List CapacityObservation) (nowMs : Int) (m : LadderModel) : Prop :=
  ∃ o ∈ observations, o.manifestDigest = m.manifestDigest ∧
    ∃ rung ∈ ladder.rungs, rung.rungId = m.rungId ∧ Qualifies rung o nowMs

/-- The observations by their digests, as the loop leaves them. -/
def byDigest (observations : List CapacityObservation) : Dict String CapacityObservation :=
  Dict.ofPairs (observations.map fun o => (o.manifestDigest, o))

theorem byDigest_lookup_iff (hdistinct : (observations.map CapacityObservation.manifestDigest).Nodup)
    {digest : String} {o : CapacityObservation} :
    (byDigest observations).lookup digest = some o ↔ o ∈ observations ∧ o.manifestDigest = digest := by
  constructor
  · intro hlookup
    obtain ⟨o', ho', heq⟩ := List.mem_map.mp (Dict.mem_of_lookup_ofPairs hlookup)
    obtain ⟨hdigest, rfl⟩ := Prod.mk.inj heq
    exact ⟨ho', hdigest⟩
  · rintro ⟨ho, rfl⟩
    apply Dict.lookup_ofPairs_of_mem
    · rw [List.map_map]
      exact hdistinct
    · exact List.mem_map.mpr ⟨o, ho, rfl⟩

variable (ladder) in
/-- The evaluation of a model of the ladder. -/
def evaluation (observations : List CapacityObservation) (nowMs : Int) (m : LadderModel) : ModelEligibility :=
  match ladder.rungById.lookup m.rungId with
  | some rung => evaluateModelEligibility m rung ((byDigest observations).lookup m.manifestDigest) nowMs
  | none => ⟨m, false, []⟩

theorem evaluation_eq (hrung : rung ∈ ladder.rungs) (hid : rung.rungId = m.rungId) :
    ladder.evaluation observations nowMs m =
      evaluateModelEligibility m rung ((byDigest observations).lookup m.manifestDigest) nowMs := by
  rw [evaluation, ← hid, rungById_lookup hrung]

theorem evaluation_model (m : LadderModel) : (ladder.evaluation observations nowMs m).model = m := by
  unfold evaluation
  split
  · rfl
  · rfl

theorem evaluation_eligible_iff (hdistinct : (observations.map CapacityObservation.manifestDigest).Nodup)
    (hm : m ∈ ladder.models) :
    (ladder.evaluation observations nowMs m).eligible = true ↔ ladder.Eligible observations nowMs m := by
  obtain ⟨rung, hrung, hid⟩ := exists_rung hm
  rw [evaluation_eq hrung hid, evaluate_eligible_iff]
  constructor
  · rintro ⟨o, hlookup, hdigest, hqualifies⟩
    exact ⟨o, ((byDigest_lookup_iff hdistinct).mp hlookup).1, hdigest, rung, hrung, hid, hqualifies⟩
  · rintro ⟨o, ho, hdigest, rung', hrung', hid', hqualifies⟩
    obtain rfl : rung' = rung := List.inj_on_of_nodup_map ladder.rungIds_nodup hrung' hrung (hid'.trans hid.symm)
    exact ⟨o, (byDigest_lookup_iff hdistinct).mpr ⟨ho, hdigest⟩, hdigest, hqualifies⟩

/-- **The selection**: the first eligible model of the ranked ones, and the evaluations of all. -/
theorem select_eq (hdistinct : (observations.map CapacityObservation.manifestDigest).Nodup) :
    ladder.selectHighestEligibleModel observations nowMs =
      .ok (ladder.ranked.find? fun m => (ladder.evaluation observations nowMs m).eligible,
        ladder.models.map (ladder.evaluation observations nowMs)) := by
  have hindex : indexObservations observations ∅ = .ok (byDigest observations) :=
    indexObservations_eq hdistinct fun _ _ hmem => AList.notMem_empty _ hmem
  have hevaluations : (ladder.models.mapM fun model => do
      let rung ← getItem ladder.rungById model.rungId
      pure (evaluateModelEligibility model rung ((byDigest observations).lookup model.manifestDigest) nowMs)) =
      .ok (ladder.models.map (ladder.evaluation observations nowMs)) := by
    refine mapM_eq_map fun m hm => ?_
    obtain ⟨rung, hrung, hid⟩ := exists_rung hm
    rw [evaluation_eq hrung hid, ← hid, getItem_ok (rungById_lookup hrung)]
    rfl
  have hfirst : firstEligible (Dict.ofPairs ((ladder.models.map (ladder.evaluation observations nowMs)).map
      fun item => (item.model.manifestDigest, item.eligible))) ladder.ranked =
      .ok (ladder.ranked.find? fun m => (ladder.evaluation observations nowMs m).eligible) := by
    refine firstEligible_eq fun m hm => Dict.lookup_ofPairs_of_mem ?_ ?_
    · have hkeys : ladder.models.map ((fun item : ModelEligibility => item.model.manifestDigest) ∘
          ladder.evaluation observations nowMs) = ladder.models.map fun m => m.manifestDigest :=
        List.map_congr_left fun m _ => congrArg (fun m : LadderModel => m.manifestDigest) (evaluation_model m)
      rw [List.map_map, List.map_map]
      exact hkeys.symm ▸ ladder.digests_nodup
    · refine List.mem_map.mpr ⟨_, List.mem_map_of_mem (mem_ranked.mp hm), ?_⟩
      rw [evaluation_model]
  unfold selectHighestEligibleModel
  rw [hindex]
  dsimp only [bind, Except.bind] at hevaluations ⊢
  rw [hevaluations]
  dsimp only
  rw [hfirst]
  rfl

/-- A selection from observations that name a model twice is refused. -/
theorem select_error (h : ¬(observations.map CapacityObservation.manifestDigest).Nodup) :
    ladder.selectHighestEligibleModel observations nowMs =
      .error (.catalog ⟨"capacity observations must contain at most one entry per manifest"⟩) := by
  rw [selectHighestEligibleModel, indexObservations_error fun hnodup => h hnodup.1]
  rfl

variable (ladder) in
/-- A model is the best of the eligible ones: no other is on a higher rung, and the primary model of its own
rung is not passed over. -/
structure Best (observations : List CapacityObservation) (nowMs : Int) (best : LadderModel) : Prop where
  mem : best ∈ ladder.models
  eligible : ladder.Eligible observations nowMs best
  highest : ∀ m ∈ ladder.models, ladder.Eligible observations nowMs m → ladder.rank m ≤ ladder.rank best
  primary : ∀ m ∈ ladder.models, ladder.Eligible observations nowMs m → m.rungId = best.rungId →
    m.role = .primary → best = m

/-- The first eligible model of the ranked ones is the best. -/
theorem best_of_find (hdistinct : (observations.map CapacityObservation.manifestDigest).Nodup)
    (hfind : ladder.ranked.find? (fun m => (ladder.evaluation observations nowMs m).eligible) = some m) :
    ladder.Best observations nowMs m := by
  have hm : m ∈ ladder.models := mem_ranked.mp (List.mem_of_find?_eq_some hfind)
  have hbefore : ∀ other ∈ ladder.models, ladder.Eligible observations nowMs other →
      other = m ∨ ladder.Before m other := fun other hother heligible =>
    find?_before ranked_pairwise hfind other (mem_ranked.mpr hother)
      ((evaluation_eligible_iff hdistinct hother).mpr heligible)
  have hsame : ∀ other : LadderModel, other.rungId = m.rungId → ladder.rank other = ladder.rank m := by
    intro other hid
    rw [rank, rank, hid]
  have heligible : (ladder.evaluation observations nowMs m).eligible = true :=
    List.find?_some (p := fun m => (ladder.evaluation observations nowMs m).eligible) hfind
  refine ⟨hm, (evaluation_eligible_iff hdistinct hm).mp heligible, ?_, ?_⟩
  · intro other hother heligible
    rcases hbefore other hother heligible with rfl | hlower | ⟨hid, -⟩
    · exact le_refl _
    · exact hlower.le
    · exact (hsame other hid.symm).le
  · intro other hother heligible hid hprimary
    rcases hbefore other hother heligible with rfl | hlower | ⟨-, hfirst⟩
    · rfl
    · exact absurd (hsame other hid) hlower.ne
    · exact primary_unique hm hother hid.symm (hfirst hprimary) hprimary

theorem find?_eq_none_iff (hdistinct : (observations.map CapacityObservation.manifestDigest).Nodup) :
    ladder.ranked.find? (fun m => (ladder.evaluation observations nowMs m).eligible) = none ↔
      ∀ m ∈ ladder.models, ¬ladder.Eligible observations nowMs m := by
  rw [List.find?_eq_none]
  constructor
  · intro h m hm heligible
    exact h m (mem_ranked.mpr hm) ((evaluation_eligible_iff hdistinct hm).mpr heligible)
  · intro h m hm heligible
    have hm : m ∈ ladder.models := mem_ranked.mp hm
    exact h m hm ((evaluation_eligible_iff hdistinct hm).mp heligible)

end ModelLadder

/-! ### Better observations -/

/-- An observation of the same model that is at least as good in every measured field, no older, and has the
model stable since no later time. -/
structure AtLeastAsGood (o o' : CapacityObservation) : Prop where
  digest : o'.manifestDigest = o.manifestDigest
  newer : o.observedAtMs ≤ o'.observedAtMs
  stable : o'.stableSinceMs ≤ o.stableSinceMs
  replicas : o.bottleneckReplicas ≤ o'.bottleneckReplicas
  routes : o.independentRoutes ≤ o'.independentRoutes
  surviving : o.replicasAfterLargestPeerLoss ≤ o'.replicasAfterLargestPeerLoss
  latency : o'.p95FirstTokenMs ≤ o.p95FirstTokenMs
  throughput : o.tokensPerMinute ≤ o'.tokensPerMinute

/-- A better observation that is not from the future meets the limits that the other one meets. -/
theorem Qualifies.of_atLeastAsGood {o o' : CapacityObservation} (h : Qualifies rung o nowMs)
    (hgood : AtLeastAsGood o o') (hpast : (o'.observedAtMs : Int) ≤ nowMs) : Qualifies rung o' nowMs where
  past := hpast
  fresh := by
    have hfresh := h.fresh
    have hnewer := hgood.newer
    omega
  replicas := h.replicas.trans hgood.replicas
  routes := h.routes.trans hgood.routes
  surviving := h.surviving.trans hgood.surviving
  soak := by
    have hsoak := h.soak
    have hstable := hgood.stable
    omega
  latency := hgood.latency.trans h.latency
  throughput := h.throughput.trans hgood.throughput

/-- The observations are replaced by ones that are at least as good, none of which moves into the future. -/
def Improves (nowMs : Int) : List CapacityObservation → List CapacityObservation → Prop :=
  List.Forall₂ fun o o' => AtLeastAsGood o o' ∧ ((o.observedAtMs : Int) ≤ nowMs → (o'.observedAtMs : Int) ≤ nowMs)

section Improves

variable {observations better : List CapacityObservation}

theorem Improves.digests (h : Improves nowMs observations better) :
    better.map CapacityObservation.manifestDigest = observations.map CapacityObservation.manifestDigest := by
  induction h with
  | nil => rfl
  | cons hgood _ ih => rw [List.map_cons, List.map_cons, hgood.1.digest, ih]

theorem Improves.exists_mem (h : Improves nowMs observations better) {o : CapacityObservation}
    (ho : o ∈ observations) : ∃ o' ∈ better, AtLeastAsGood o o' ∧
      ((o.observedAtMs : Int) ≤ nowMs → (o'.observedAtMs : Int) ≤ nowMs) := by
  induction h with
  | nil => cases ho
  | @cons a b _ _ hgood _ ih =>
    rcases List.mem_cons.mp ho with rfl | ho
    · exact ⟨b, List.mem_cons_self .., hgood⟩
    · obtain ⟨o', ho', h⟩ := ih ho
      exact ⟨o', List.mem_cons_of_mem _ ho', h⟩

/-- Better observations keep a model eligible. -/
theorem Improves.eligible {ladder : ModelLadder} (h : Improves nowMs observations better) {m : LadderModel}
    (heligible : ladder.Eligible observations nowMs m) : ladder.Eligible better nowMs m := by
  obtain ⟨o, ho, hdigest, rung, hrung, hid, hqualifies⟩ := heligible
  obtain ⟨o', ho', hgood, hpast⟩ := h.exists_mem ho
  exact ⟨o', ho', hgood.digest.trans hdigest, rung, hrung, hid,
    hqualifies.of_atLeastAsGood hgood (hpast hqualifies.past)⟩

end Improves

/-- **Model ladder selection.** From observations of different models, the selection is none exactly when no
model is eligible and else the best of the eligible ones, with an evaluation of each model that says whether
it is one; and from observations that are at least as good, and not from the future, it is on no lower
rung. -/
theorem select_highest_eligible_model (ladder : ModelLadder) (observations : List CapacityObservation)
    (nowMs : Int) (hdistinct : (observations.map CapacityObservation.manifestDigest).Nodup) :
    ∃ selected evaluations,
      ladder.selectHighestEligibleModel observations nowMs = .ok (selected, evaluations) ∧
      (evaluations.map ModelEligibility.model = ladder.models ∧
        ∀ item ∈ evaluations, item.eligible = true ↔ ladder.Eligible observations nowMs item.model) ∧
      (selected = none ↔ ∀ m ∈ ladder.models, ¬ladder.Eligible observations nowMs m) ∧
      (∀ best, selected = some best → ladder.Best observations nowMs best) ∧
      ∀ better, Improves nowMs observations better → ∀ best, selected = some best →
        ∃ best' evaluations', ladder.selectHighestEligibleModel better nowMs = .ok (some best', evaluations') ∧
          ladder.rank best ≤ ladder.rank best' := by
  refine ⟨_, _, ladder.select_eq hdistinct, ⟨?_, ?_⟩, ModelLadder.find?_eq_none_iff hdistinct,
    fun best hbest => ModelLadder.best_of_find hdistinct hbest, ?_⟩
  · have hmodels : ModelEligibility.model ∘ ladder.evaluation observations nowMs = id :=
      funext ModelLadder.evaluation_model
    rw [List.map_map, hmodels, List.map_id]
  · intro item hitem
    obtain ⟨m, hm, rfl⟩ := List.mem_map.mp hitem
    rw [ModelLadder.evaluation_model]
    exact ModelLadder.evaluation_eligible_iff hdistinct hm
  · intro better himproves best hbest
    have hdistinct' : (better.map CapacityObservation.manifestDigest).Nodup := himproves.digests ▸ hdistinct
    have hbest : ladder.Best observations nowMs best := ModelLadder.best_of_find hdistinct hbest
    have heligible : ladder.Eligible better nowMs best := himproves.eligible hbest.eligible
    cases hfind : ladder.ranked.find? fun m => (ladder.evaluation better nowMs m).eligible with
    | none => exact absurd heligible ((ModelLadder.find?_eq_none_iff hdistinct').mp hfind best hbest.mem)
    | some best' =>
      have hselect : ladder.selectHighestEligibleModel better nowMs = _ := ladder.select_eq hdistinct'
      rw [hfind] at hselect
      have hbest' : ladder.Best better nowMs best' := ModelLadder.best_of_find hdistinct' hfind
      exact ⟨best', _, hselect, hbest'.highest best hbest.mem heligible⟩

/-- A rung that asks for one of everything. -/
def lowestRung : CatalogRung := ⟨"small", 1, 1, 1, 1, 0, 60, 1000, 1⟩

/-- The digest of its primary model. -/
def primaryDigest : String := "sha256:aaaaaaaaaaaaaaaaaaaaaaaaaaaaaaaaaaaaaaaaaaaaaaaaaaaaaaaaaaaaaaaa"

/-- Its models. -/
def primaryModel : LadderModel := ⟨⟨primaryDigest, ["https://models/a"]⟩, "small", .primary⟩
def standbyModel : LadderModel :=
  ⟨⟨"sha256:bbbbbbbbbbbbbbbbbbbbbbbbbbbbbbbbbbbbbbbbbbbbbbbbbbbbbbbbbbbbbbbb", ["https://models/b"]⟩, "small", .standby⟩

/-- An observation of the primary model that meets the rung. -/
def observationAt (observedAtMs : Nat) : CapacityObservation :=
  ⟨primaryDigest, observedAtMs, 0, 1, 1, 1, 100, 60, Nat.zero_le _, zero_le_one, zero_le_one⟩

theorem observationAt_good {first second : Nat} (h : first ≤ second) :
    AtLeastAsGood (observationAt first) (observationAt second) :=
  ⟨rfl, h, le_refl _, le_refl _, le_refl _, le_refl _, le_refl _, le_refl _⟩

/-- The primary model is selected, and a renewed observation keeps its rung. -/
theorem select_highest_eligible_model_of_primary :
    ∃ ladder, ModelLadder.fromParts [lowestRung] [standbyModel, primaryModel] = .ok ladder ∧
      ladder.Best [observationAt 10] 50 primaryModel ∧
      ∃ best' evaluations', ladder.selectHighestEligibleModel [observationAt 20] 50 =
        .ok (some best', evaluations') ∧ ladder.rank primaryModel ≤ ladder.rank best' := by
  obtain ⟨ladder, hladder, evaluations, hrun⟩ :
      ∃ ladder, ModelLadder.fromParts [lowestRung] [standbyModel, primaryModel] = .ok ladder ∧
        ∃ evaluations, ladder.selectHighestEligibleModel [observationAt 10] 50 =
          .ok (some primaryModel, evaluations) := ⟨_, rfl, _, rfl⟩
  obtain ⟨selected, evaluations', hselect, -, -, hbest, hbetter⟩ :=
    select_highest_eligible_model ladder [observationAt 10] 50 (List.nodup_singleton _)
  obtain rfl : selected = some primaryModel := (Prod.mk.inj (Except.ok.inj (hselect.symm.trans hrun))).1
  have himproves : Improves 50 [observationAt 10] [observationAt 20] :=
    .cons ⟨observationAt_good (by decide), fun _ => by decide⟩ .nil
  exact ⟨ladder, hladder, hbest primaryModel rfl, hbetter _ himproves primaryModel rfl⟩

/-- An observation that is at least as good, but from the future, costs the model its selection. -/
theorem future_observation_lowers_selection :
    ∃ ladder, ModelLadder.fromParts [lowestRung] [standbyModel, primaryModel] = .ok ladder ∧
      AtLeastAsGood (observationAt 10) (observationAt 60) ∧
      (∃ evaluations, ladder.selectHighestEligibleModel [observationAt 10] 50 =
        .ok (some primaryModel, evaluations)) ∧
      ∃ evaluations, ladder.selectHighestEligibleModel [observationAt 60] 50 = .ok (none, evaluations) :=
  ⟨_, rfl, observationAt_good (by decide), ⟨_, rfl⟩, ⟨_, rfl⟩⟩

end Drift.Node
