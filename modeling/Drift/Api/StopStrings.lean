import Drift.Lib.Occurrences
import Mathlib.Data.List.Perm.Basic

/-!
# Stop strings

A completion is cut at the stop strings of its request. They are searched for one after the other, each in the
text that the ones before it have left.

* `trimStopStrings` — the cut;
* `not_occurs_trimLoop`, `trimLoop_again` — for every list of stop strings the result contains none of them, and
  trimming it again changes nothing;
* `cuts_at_first_stop_iff` — the cut is at the earliest position of any stop string, whatever their order, if and
  only if a stop string that stands there is not cut into by another one.
-/

namespace Drift.Api

open Drift.Lib

/-- The `stop` field of a request: one string, or a list of them. -/
inductive Stop
  | one (stopString : String)
  | many (stopStrings : List String)
  deriving DecidableEq, Repr

/-- `text.find(stop_string)`, with `none` for -1. -/
def findIndex (text stopString : String) : Option Nat :=
  Lib.find text.toList stopString.toList

/-- The loop of `trim_stop_strings`. -/
def trimLoop : String → List String → String
  | text, [] => text
  | text, stopString :: rest =>
    match findIndex text stopString with
    | none => trimLoop text rest
    | some index => trimLoop (String.ofList (text.toList.take index)) rest

/-- The text up to its stop strings. -/
def trimStopStrings (text : String) : Option Stop → String
  | none => text
  | some (.one stopString) => if stopString.isEmpty then text else trimLoop text [stopString]
  | some (.many stopStrings) => if stopStrings.isEmpty then text else trimLoop text stopStrings

/-! ### The loop, as cuts of a list of characters -/

/-- A stop string stands in the text at position `i`. -/
def StopAt (stopString text : String) (i : Nat) : Prop :=
  OccursAt stopString.toList text.toList i

instance (stopString text : String) (i : Nat) : Decidable (StopAt stopString text i) :=
  inferInstanceAs (Decidable (OccursAt stopString.toList text.toList i))

variable {text : String} {stops : List String}

theorem trimStopStrings_many (text : String) (stops : List String) :
    trimStopStrings text (some (.many stops)) = trimLoop text stops := by
  cases stops with
  | nil => rfl
  | cons s rest => rfl

theorem toList_trimLoop (text : String) (stops : List String) :
    (trimLoop text stops).toList = cutAll text.toList (stops.map String.toList) := by
  induction stops generalizing text with
  | nil => rfl
  | cons s rest ih =>
    rw [trimLoop, List.map_cons, cutAll, List.foldl_cons]
    cases hfind : findIndex text s with
    | none =>
      rw [cut_of_not_find hfind]
      exact ih text
    | some index =>
      rw [cut_of_find hfind]
      have := ih (String.ofList (text.toList.take index))
      rwa [String.toList_ofList] at this

theorem toList_ne_nil (h : ∀ s ∈ stops, s ≠ "") : ∀ s ∈ stops.map String.toList, s ≠ [] := by
  intro s hs
  obtain ⟨t, ht, rfl⟩ := List.mem_map.mp hs
  rw [ne_eq, String.toList_eq_nil_iff]
  exact h t ht

/-- **No stop string is left.** -/
theorem not_stopAt_trimLoop (h : ∀ s ∈ stops, s ≠ "") {s : String} (hs : s ∈ stops) (i : Nat) :
    ¬StopAt s (trimLoop text stops) i := by
  unfold StopAt
  rw [toList_trimLoop]
  exact not_occursAt_cutAll (toList_ne_nil h) (List.mem_map_of_mem hs)

/-- Without a stop string in it a text is not cut. -/
theorem trimLoop_eq_self (h : ∀ s ∈ stops, ∀ i, ¬StopAt s text i) : trimLoop text stops = text := by
  rw [← String.toList_inj, toList_trimLoop]
  refine cutAll_eq_self fun s hs i hocc => ?_
  obtain ⟨t, ht, rfl⟩ := List.mem_map.mp hs
  exact h t ht i hocc

/-- **Trimming again changes nothing.** -/
theorem trimLoop_again (h : ∀ s ∈ stops, s ≠ "") :
    trimLoop (trimLoop text stops) stops = trimLoop text stops :=
  trimLoop_eq_self fun _ hs i => not_stopAt_trimLoop h hs i

/-! ### The earliest stop -/

/-- The earliest position at which any of the stop strings stands. -/
structure EarliestStop (text : String) (stops : List String) (p : Nat) : Prop where
  stop : ∃ s ∈ stops, StopAt s text p
  earliest : ∀ s ∈ stops, ∀ i, StopAt s text i → p ≤ i

/-- What a request expects of its stop strings. -/
structure CutsAtFirstStop (text : String) (stops : List String) : Prop where
  /-- The text before the earliest stop, -/
  before : ∀ p, EarliestStop text stops p →
    trimStopStrings text (some (.many stops)) = String.ofList (text.toList.take p)
  /-- or all of it. -/
  whole : (∀ p, ¬EarliestStop text stops p) → trimStopStrings text (some (.many stops)) = text
  order : ∀ stops', stops'.Perm stops →
    trimStopStrings text (some (.many stops')) = trimStopStrings text (some (.many stops))
  clean : ∀ s ∈ stops, ∀ i, ¬StopAt s (trimStopStrings text (some (.many stops))) i
  again : trimStopStrings (trimStopStrings text (some (.many stops))) (some (.many stops)) =
    trimStopStrings text (some (.many stops))

/-- Some stop string at the earliest position is not cut into: no stop string is first found strictly inside it. -/
def FirstStopIntact (text : String) (stops : List String) : Prop :=
  ∀ p, EarliestStop text stops p → ∃ s ∈ stops, StopAt s text p ∧
    ∀ t ∈ stops, ∀ q ∈ findIndex text t, q ≤ p ∨ p + s.toList.length ≤ q

theorem EarliestStop.perm {stops' : List String} {p : Nat} (h : EarliestStop text stops p)
    (hperm : stops'.Perm stops) : EarliestStop text stops' p := by
  obtain ⟨s, hs, hstop⟩ := h.stop
  exact ⟨⟨s, hperm.mem_iff.mpr hs, hstop⟩, fun t ht => h.earliest t (hperm.mem_iff.mp ht)⟩

theorem EarliestStop.lists {p : Nat} (h : EarliestStop text stops p) :
    ∀ s ∈ stops.map String.toList, ∀ i, OccursAt s text.toList i → p ≤ i := by
  intro s hs i hocc
  obtain ⟨t, ht, rfl⟩ := List.mem_map.mp hs
  exact h.earliest t ht i hocc

/-- A text with a stop string in it has an earliest one. -/
theorem exists_earliestStop {s : String} (hs : s ∈ stops) {i : Nat} (h : StopAt s text i) :
    ∃ p, EarliestStop text stops p := by
  have hex : ∃ p, ∃ s ∈ stops, StopAt s text p := ⟨i, s, hs, h⟩
  exact ⟨Nat.find hex, Nat.find_spec hex, fun t ht j hj => Nat.find_min' hex ⟨t, ht, hj⟩⟩

/-- Where the first stop is intact, the cut is there. -/
theorem trimLoop_eq_take (h : ∀ s ∈ stops, s ≠ "") (hintact : FirstStopIntact text stops) {p : Nat}
    (hp : EarliestStop text stops p) : trimLoop text stops = String.ofList (text.toList.take p) := by
  obtain ⟨s, hs, hstop, hothers⟩ := hintact p hp
  rw [← String.toList_inj, toList_trimLoop, String.toList_ofList]
  refine cutAll_eq_take (toList_ne_nil h) hp.lists (List.mem_map_of_mem hs) hstop fun t ht q hq => ?_
  obtain ⟨u, hu, rfl⟩ := List.mem_map.mp ht
  exact hothers u hu q hq

theorem FirstStopIntact.perm {stops' : List String} (h : FirstStopIntact text stops)
    (hperm : stops'.Perm stops) : FirstStopIntact text stops' := by
  intro p hp
  obtain ⟨s, hs, hstop, hothers⟩ := h p (hp.perm hperm.symm)
  exact ⟨s, hperm.mem_iff.mpr hs, hstop, fun t ht => hothers t (hperm.mem_iff.mp ht)⟩

/-- The shortest of the stop strings at a position. -/
theorem exists_shortest {p : Nat} (h : ∃ s ∈ stops, StopAt s text p) :
    ∃ s ∈ stops, StopAt s text p ∧ ∀ t ∈ stops, StopAt t text p → s.toList.length ≤ t.toList.length := by
  obtain ⟨s, hs, hstop⟩ := h
  have hmem : s ∈ stops.filter (fun t => decide (StopAt t text p)) :=
    List.mem_filter.mpr ⟨hs, decide_eq_true hstop⟩
  obtain ⟨m, hm, hmin⟩ := Finset.exists_min_image (stops.filter (fun t => decide (StopAt t text p))).toFinset
    (fun t => t.toList.length) ⟨s, List.mem_toFinset.mpr hmem⟩
  obtain ⟨hm, hmstop⟩ := List.mem_filter.mp (List.mem_toFinset.mp hm)
  refine ⟨m, hm, of_decide_eq_true hmstop, fun t ht htstop => hmin t ?_⟩
  exact List.mem_toFinset.mpr (List.mem_filter.mpr ⟨ht, decide_eq_true htstop⟩)

/-- Where the first stop is not intact, some order of the stop strings cuts elsewhere. -/
theorem exists_perm_ne_take (h : ∀ s ∈ stops, s ≠ "") {p : Nat} (hp : EarliestStop text stops p)
    (hcut : ∀ s ∈ stops, StopAt s text p →
      ∃ t ∈ stops, ∃ q ∈ findIndex text t, p < q ∧ q < p + s.toList.length) :
    ∃ stops', stops'.Perm stops ∧ trimLoop text stops' ≠ String.ofList (text.toList.take p) := by
  obtain ⟨s, hs, hstop, hshortest⟩ := exists_shortest hp.stop
  obtain ⟨t, ht, q, hq, hpq, hqs⟩ := hcut s hs hstop
  -- the one that cuts into the shortest stop comes first
  obtain ⟨before, after, rfl⟩ := List.append_of_mem ht
  refine ⟨t :: (before ++ after), List.perm_middle.symm, fun heq => ?_⟩
  have hsub : ∀ u ∈ before ++ after, u ∈ before ++ t :: after := fun u hu =>
    List.perm_middle.symm.mem_iff.mp (List.mem_cons_of_mem t hu)
  have hlists : ∀ u ∈ (before ++ after).map String.toList,
      u ∈ (before ++ t :: after).map String.toList := fun u hu => List.map_subset _ hsub hu
  rw [← String.toList_inj, toList_trimLoop, String.toList_ofList, List.map_cons] at heq
  refine cutAll_cons_ne_take (fun u hu => toList_ne_nil h u (hlists u hu))
    (toList_ne_nil h _ (List.mem_map_of_mem ht)) (fun u hu => hp.lists u (hlists u hu)) hq hpq ?_ heq
  intro u hu hocc
  obtain ⟨v, hv, rfl⟩ := List.mem_map.mp hu
  have := hshortest v (hsub v hv) hocc
  omega

/-- **The cut is at the first stop if and only if that stop is intact.** -/
theorem cuts_at_first_stop_iff (text : String) (stops : List String) (h : ∀ s ∈ stops, s ≠ "") :
    CutsAtFirstStop text stops ↔ FirstStopIntact text stops := by
  constructor
  · intro hcuts
    by_contra hnot
    unfold FirstStopIntact at hnot
    push Not at hnot
    obtain ⟨p, hp, hcut⟩ := hnot
    obtain ⟨stops', hperm, hne⟩ := exists_perm_ne_take h hp hcut
    have horder := hcuts.order stops' hperm
    rw [hcuts.before p hp, trimStopStrings_many] at horder
    exact hne horder
  · intro hintact
    refine ⟨fun p hp => ?_, fun hnone => ?_, fun stops' hperm => ?_, fun s hs i => ?_, ?_⟩
    · rw [trimStopStrings_many]
      exact trimLoop_eq_take h hintact hp
    · rw [trimStopStrings_many]
      refine trimLoop_eq_self fun s hs i hstop => ?_
      obtain ⟨p, hp⟩ := exists_earliestStop hs hstop
      exact hnone p hp
    · rw [trimStopStrings_many, trimStopStrings_many]
      by_cases hex : ∃ p, EarliestStop text stops p
      · obtain ⟨p, hp⟩ := hex
        have h' : ∀ s ∈ stops', s ≠ "" := fun s hs => h s (hperm.mem_iff.mp hs)
        rw [trimLoop_eq_take h hintact hp, trimLoop_eq_take h' (hintact.perm hperm) (hp.perm hperm)]
      · have hnone : ∀ s ∈ stops, ∀ i, ¬StopAt s text i := fun s hs i hstop =>
          hex (exists_earliestStop hs hstop)
        rw [trimLoop_eq_self hnone, trimLoop_eq_self fun s hs => hnone s (hperm.mem_iff.mp hs)]
    · rw [trimStopStrings_many]
      exact not_stopAt_trimLoop h hs i
    · rw [trimStopStrings_many, trimStopStrings_many]
      exact trimLoop_again h

/-- The earliest stop, from the first occurrence of each stop string. -/
theorem earliestStop_of_findIndex {p : Nat} (hstop : ∃ s ∈ stops, StopAt s text p)
    (hfirst : ∀ s ∈ stops, ∀ q ∈ findIndex text s, p ≤ q) : EarliestStop text stops p := by
  refine ⟨hstop, fun s hs i hi => ?_⟩
  cases hfind : findIndex text s with
  | none => exact absurd hi (find_eq_none_iff.mp hfind i)
  | some q =>
    have hqi : ¬i < q := fun hlt => (find_eq_some_iff.mp hfind).2 i hlt hi
    have := hfirst s hs q hfind
    omega

theorem EarliestStop.unique {p p' : Nat} (h : EarliestStop text stops p) (h' : EarliestStop text stops p') :
    p = p' := by
  obtain ⟨s, hs, hstop⟩ := h.stop
  obtain ⟨s', hs', hstop'⟩ := h'.stop
  have hle := h.earliest s' hs' p' hstop'
  have hge := h'.earliest s hs p hstop
  omega

/-- The full stop stands before the name, and is not cut into. -/
theorem cuts_at_first_stop_of_apart : CutsAtFirstStop "Bye.\nUser:" ["User:", "."] := by
  refine (cuts_at_first_stop_iff _ _ (by decide)).mpr fun p hp => ?_
  have hfirst : EarliestStop "Bye.\nUser:" ["User:", "."] 3 :=
    earliestStop_of_findIndex (by decide +kernel) (by decide +kernel)
  obtain rfl := hp.unique hfirst
  exact ⟨".", by decide, by decide +kernel, by decide +kernel⟩

/-- The stop string that starts first is searched for when the other one has cut into it. -/
theorem first_stop_cut_into : ¬CutsAtFirstStop "Bye.\nUser:" ["User:", "\nUser:"] := by
  intro hcuts
  have hfirst : EarliestStop "Bye.\nUser:" ["User:", "\nUser:"] 4 :=
    earliestStop_of_findIndex (by decide +kernel) (by decide +kernel)
  have hbefore := hcuts.before 4 hfirst
  exact absurd hbefore (by decide +kernel)

end Drift.Api
