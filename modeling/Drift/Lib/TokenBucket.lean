import Mathlib.Algebra.Order.Field.Basic
import Mathlib.Tactic.Linarith
import Mathlib.Tactic.Ring

/-!
# Token buckets

A bucket holds at most `burst` tokens and is refilled at a constant rate; what is let through takes a
token. In every window of time what is let through is then at most the burst and what is refilled in the
window.

The bucket may be forgotten and made anew, full, as soon as it would be full anyway. The invariant
`Admits` covers that: it says what the bucket at some moment allows in view of what it has let through,
and a full bucket at a moment to which the history leaves enough time is such a bucket.

* `refill` — the refill, up to the burst;
* `Rate.Admits` — the invariant, with `refill`, `take` and `full` as its rules;
* `Rate.Conforms` — the law: every window has at most `burst + rate * length`.
-/

namespace Drift.Lib

/-- A rate and a burst. -/
structure Rate (α : Type*) where
  rate : α
  burst : α

namespace Rate

variable {α : Type*} [Field α] [LinearOrder α] [IsStrictOrderedRing α]

/-- The tokens after a refill. -/
def refill (R : Rate α) (tokens updated now : α) : α := min R.burst (tokens + (now - updated) * R.rate)

/-- What was let through at a moment or later. -/
def since (history : List α) (t : α) : Nat := history.countP fun a => t ≤ a

/-- What was let through in a window. -/
def within (history : List α) (t length : α) : Nat := history.countP fun a => t ≤ a ∧ a ≤ t + length

/-- The law: a window lets through no more than the burst and what is refilled meanwhile. -/
def Conforms (R : Rate α) (history : List α) : Prop :=
  ∀ t length, 0 ≤ length → (within history t length : α) ≤ R.burst + R.rate * length

/-- With so many tokens at the moment `now` the history leaves room for what they let through. -/
structure Admits (R : Rate α) (history : List α) (now tokens : α) : Prop where
  past : ∀ a ∈ history, a ≤ now
  conforms : R.Conforms history
  room : ∀ t ≤ now, (since history t : α) + tokens ≤ R.burst + R.rate * (now - t)

variable {R : Rate α} {history : List α} {now now' tokens : α}

omit [Field α] [IsStrictOrderedRing α] in
theorem since_eq_zero (hpast : ∀ a ∈ history, a ≤ now) {t : α} (ht : now < t) : since history t = 0 := by
  rw [since, List.countP_eq_zero]
  intro a ha hat
  exact absurd (lt_of_le_of_lt (hpast a ha) ht) (not_lt.mpr (of_decide_eq_true hat))

omit [IsStrictOrderedRing α] in
/-- A refilled bucket has at most the burst. -/
theorem refill_le_burst (R : Rate α) (tokens updated now : α) : R.refill tokens updated now ≤ R.burst :=
  min_le_left _ _

theorem refill_nonneg (hrate : 0 ≤ R.rate) (hburst : 0 ≤ R.burst) (htokens : 0 ≤ tokens)
    (hnow : now ≤ now') : 0 ≤ R.refill tokens now now' := by
  refine le_min hburst ?_
  have hgain : 0 ≤ (now' - now) * R.rate := mul_nonneg (sub_nonneg.mpr hnow) hrate
  linarith

/-- A bucket that has had the time to fill up is full. -/
theorem refill_eq_burst (htokens : 0 ≤ tokens) (hfull : R.burst ≤ (now' - now) * R.rate) :
    R.refill tokens now now' = R.burst :=
  min_eq_left (by linarith)

/-- **The rule of a refill.** -/
theorem Admits.refill (h : R.Admits history now tokens) (hrate : 0 ≤ R.rate) (hnow : now ≤ now') :
    R.Admits history now' (R.refill tokens now now') where
  past := fun a ha => le_trans (h.past a ha) hnow
  conforms := h.conforms
  room := fun t ht => by
    rcases le_or_gt t now with htn | htn
    · -- the window starts before the last update, and the refill adds what the window grows by
      have hroom := h.room t htn
      have hmin : R.refill tokens now now' ≤ tokens + (now' - now) * R.rate := min_le_right _ _
      have hsplit : R.rate * (now' - t) = R.rate * (now - t) + (now' - now) * R.rate := by ring
      linarith
    · -- nothing was let through since then
      rw [since_eq_zero h.past htn]
      have hmin := R.refill_le_burst tokens now now'
      have hgain : 0 ≤ R.rate * (now' - t) := mul_nonneg hrate (sub_nonneg.mpr ht)
      simp only [Nat.cast_zero]
      linarith

/-- **The rule of a full bucket**: it may be made at a moment by which the old one would be full. -/
theorem Admits.full (h : R.Admits history now tokens) (hrate : 0 ≤ R.rate) (htokens : 0 ≤ tokens)
    (hnow : now ≤ now') (hfull : R.burst ≤ (now' - now) * R.rate) :
    R.Admits history now' R.burst := by
  have hrefill := h.refill hrate hnow
  rwa [refill_eq_burst htokens hfull] at hrefill

/-- A full bucket may be made later as well. -/
theorem Admits.later (h : R.Admits history now R.burst) (hrate : 0 ≤ R.rate) (hnow : now ≤ now') :
    R.Admits history now' R.burst := by
  have hrefill := h.refill hrate hnow
  have hgain : 0 ≤ (now' - now) * R.rate := mul_nonneg (sub_nonneg.mpr hnow) hrate
  have hfull : R.refill R.burst now now' = R.burst := min_eq_left (by linarith)
  rwa [hfull] at hrefill

/-- Before anything was let through a bucket may be full at any moment. -/
theorem Admits.empty (hrate : 0 ≤ R.rate) (hburst : 0 ≤ R.burst) (now : α) :
    R.Admits [] now R.burst where
  past := fun _ ha => absurd ha List.not_mem_nil
  conforms := fun t length hlength => by
    have hgain : 0 ≤ R.rate * length := mul_nonneg hrate hlength
    simp only [within, List.countP_nil, Nat.cast_zero]
    linarith
  room := fun t ht => by
    have hgain : 0 ≤ R.rate * (now - t) := mul_nonneg hrate (sub_nonneg.mpr ht)
    simp only [since, List.countP_nil, Nat.cast_zero]
    linarith

/-- **The rule of a token.** What a bucket lets through at the moment takes one token of it. -/
theorem Admits.take (h : R.Admits history now tokens) (hrate : 0 ≤ R.rate) (htokens : 1 ≤ tokens) :
    R.Admits (now :: history) now (tokens - 1) where
  past := fun a ha => by
    rcases List.mem_cons.mp ha with rfl | ha
    · exact le_refl _
    · exact h.past a ha
  conforms := fun t length hlength => by
    rw [within, List.countP_cons]
    by_cases hin : t ≤ now ∧ now ≤ t + length
    · -- the window ends now at the earliest, so all of it since `t` counts
      have hroom := h.room t hin.1
      have hle : (within history t length : α) ≤ (since history t : α) := by
        refine Nat.cast_le.mpr (List.countP_mono_left fun a _ ha => ?_)
        exact decide_eq_true (of_decide_eq_true ha).1
      have hgrow : R.rate * (now - t) ≤ R.rate * length :=
        mul_le_mul_of_nonneg_left (by linarith [hin.2]) hrate
      rw [if_pos (decide_eq_true hin), Nat.cast_add, Nat.cast_one]
      have hw : (within history t length : α) =
        (List.countP (fun a => decide (t ≤ a ∧ a ≤ t + length)) history : Nat) := rfl
      linarith
    · have hconforms := h.conforms t length hlength
      rw [if_neg (mt of_decide_eq_true hin), Nat.add_zero]
      exact hconforms
  room := fun t ht => by
    have hroom := h.room t ht
    rw [since, List.countP_cons, if_pos (decide_eq_true ht), Nat.cast_add, Nat.cast_one]
    have hs : (since history t : α) = (List.countP (fun a => decide (t ≤ a)) history : Nat) := rfl
    linarith

end Rate

end Drift.Lib
