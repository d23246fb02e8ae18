import Drift.Lib.Machine
import Drift.Identity.Verification
import Mathlib.Data.Set.Basic

/-!
# Safety of the replay guard

A record that the guard accepted sets a *watermark* for its scope. `Guards latest now a` says that the
dictionary `latest` still enforces the watermark `a` at the clock reading `now`: it holds an entry of
the scope that is at least as new and lives at least as long as any record the watermark supersedes.
Once the *horizon* of the watermark has passed, every superseded record has expired, so nothing needs
to be held.

`Enforcing` collects this over a log of accepted records. The dictionary operations of the guard
(pruning, inserting, keeping) each preserve it, and reading back a written file gives the live part of
what was written (`load_snapshot`), so the invariant survives restarts (`GuardRun.Inv`).
-/

namespace Drift.Identity

open Drift.Lib

/-! ### The fields of a record -/

/-- An integer field of the payload, `0` where the payload has no integer under the name. -/
def SignedRecord.intField (r : SignedRecord) (name : String) : Int :=
  match r.payload.lookup name with
  | some (.int n) => n
  | _ => 0

namespace SignedRecord

def issuedAtMs (r : SignedRecord) : Int := r.intField "issued_at_ms"
def expiresAtMs (r : SignedRecord) : Int := r.intField "expires_at_ms"
def sequence (r : SignedRecord) : Int := r.intField "sequence"
def scope (r : SignedRecord) : Scope := (r.kind, r.keyId)
def order (r : SignedRecord) : RecordOrder := toLex (r.issuedAtMs, r.sequence)

/-- The watermark the record leaves when it is accepted. -/
def watermark (prim : Primitives) (r : SignedRecord) : Watermark :=
  watermarkOf prim r r.issuedAtMs r.expiresAtMs r.sequence

end SignedRecord

/-- What is remembered of an accepted record. -/
structure Accepted where
  scope : Scope
  order : RecordOrder
  digest : String

/-- The acceptance of a record. -/
def SignedRecord.accepted (prim : Primitives) (r : SignedRecord) : Accepted :=
  ⟨r.scope, r.order, r.digest prim⟩

/-- `r` is older than the accepted record, or a different record at the same order. -/
def Superseded (prim : Primitives) (a : Accepted) (r : SignedRecord) : Prop :=
  r.scope = a.scope ∧ (r.order < a.order ∨ (r.order = a.order ∧ r.digest prim ≠ a.digest))

/-- The retention of a scope's records, in milliseconds. -/
def ttlMs (scope : Scope) : Int := maximumTtlSeconds scope.1 * 1000

/-- The time by which every record that `a` supersedes has expired. -/
def Accepted.horizon (a : Accepted) : Int := (ofLex a.order).1 + ttlMs a.scope

theorem issued_le_of_order_le {x y : RecordOrder} (h : x ≤ y) : (ofLex x).1 ≤ (ofLex y).1 := by
  rcases Prod.Lex.le_iff.mp h with hlt | ⟨heq, -⟩
  · exact le_of_lt hlt
  · exact le_of_eq heq

/-! ### What the checks say when they pass -/

theorem intField_of_requireInt {r : SignedRecord} {name : String} {n : Int}
    (h : requireInt (r.payload.lookup name) name (some 0) = .ok n) : r.intField name = n := by
  unfold SignedRecord.intField
  rw [(requireInt_eq_ok.mp h).1]

/-- The comparison with an entry passes for what is newer than it and for the same record. -/
theorem compareWatermark_some {c w : Watermark} :
    compareWatermark (some c) w = .ok () ↔
      c.order ≤ w.order ∧ (w.order = c.order → w.recordDigest = c.recordDigest) := by
  unfold compareWatermark
  dsimp only
  by_cases hlt : w.order < c.order
  · rw [if_pos hlt]
    simp only [refuse, reduceCtorEq, false_iff, not_and]
    exact fun hle => absurd hlt (not_lt.mpr hle)
  · rw [if_neg hlt]
    by_cases hdig : w.order = c.order ∧ w.recordDigest ≠ c.recordDigest
    · rw [if_pos hdig]
      simp only [refuse, reduceCtorEq, false_iff, not_and, not_forall]
      exact fun _ => ⟨hdig.1, hdig.2⟩
    · rw [if_neg hdig]
      simp only [true_iff]
      exact ⟨not_lt.mp hlt, fun heq => not_not.mp fun hne => hdig ⟨heq, hne⟩⟩

@[simp] theorem watermark_order (prim : Primitives) (r : SignedRecord) :
    (r.watermark prim).order = r.order := rfl

@[simp] theorem watermark_digest (prim : Primitives) (r : SignedRecord) :
    (r.watermark prim).recordDigest = r.digest prim := rfl

/-- What a validated lifetime says about the fields of the record. -/
theorem validateLifetime_ok {r : SignedRecord} {currentMs : Int} {q : Int × Int}
    (h : validateLifetime r.payload currentMs = .ok q) :
    requireInt (r.payload.lookup "issued_at_ms") "issued_at_ms" (some 0) = .ok r.issuedAtMs ∧
    requireInt (r.payload.lookup "expires_at_ms") "expires_at_ms" (some 0) = .ok r.expiresAtMs ∧
    q = (r.issuedAtMs, r.expiresAtMs) ∧
    r.expiresAtMs - r.issuedAtMs ≤ maxSignedRecordTtlSeconds * 1000 := by
  unfold validateLifetime at h
  obtain ⟨i, hi, h⟩ := bind_eq_ok.mp h
  obtain ⟨x, hx, h⟩ := bind_eq_ok.mp h
  obtain ⟨_, -, h⟩ := bind_eq_ok.mp h
  obtain ⟨_, httl, h⟩ := bind_eq_ok.mp h
  obtain ⟨_, -, h⟩ := bind_eq_ok.mp h
  obtain ⟨_, -, h⟩ := bind_eq_ok.mp h
  obtain rfl : r.issuedAtMs = i := intField_of_requireInt hi
  obtain rfl : r.expiresAtMs = x := intField_of_requireInt hx
  rw [refuseIf_eq_ok, decide_eq_false_iff_not] at httl
  exact ⟨hi, hx, (Except.ok.inj h).symm, by omega⟩

/-- The lifetime of a kind is a lifetime, and within the retention of the kind. -/
theorem validateLifetimeOf_ok {r : SignedRecord} {currentMs : Int} {p : Int × Int}
    (h : validateLifetimeOf r.kind r.payload currentMs = .ok p) :
    (∃ q, validateLifetime r.payload currentMs = .ok q) ∧
      r.expiresAtMs ≤ r.issuedAtMs + ttlMs r.scope := by
  unfold validateLifetimeOf at h
  unfold ttlMs maximumTtlSeconds SignedRecord.scope
  by_cases hk : r.kind = "route_demand"
  · rw [if_pos hk] at h ⊢
    unfold validateRouteDemandLifetime at h
    obtain ⟨q, hq, h⟩ := bind_eq_ok.mp h
    obtain ⟨-, -, rfl, -⟩ := validateLifetime_ok hq
    obtain ⟨_, httl, -⟩ := bind_eq_ok.mp h
    rw [refuseIf_eq_ok, decide_eq_false_iff_not] at httl
    exact ⟨⟨_, hq⟩, by omega⟩
  · rw [if_neg hk] at h ⊢
    have hbound := (validateLifetime_ok h).2.2.2
    exact ⟨⟨_, h⟩, by omega⟩

/-- **Lifetime bound.** A record that passed the lifetime validation of its kind lives at most the
retention of its kind. -/
theorem expires_le_of_validated {r : SignedRecord} {currentMs : Int} {p : Int × Int}
    (h : validateLifetimeOf r.kind r.payload currentMs = .ok p) :
    r.expiresAtMs ≤ r.issuedAtMs + ttlMs r.scope :=
  (validateLifetimeOf_ok h).2

/-- The watermark of a validated record is retained exactly as long as its kind of record can live. -/
theorem watermark_retained (prim : Primitives) {r : SignedRecord} {currentMs : Int} {p : Int × Int}
    (h : validateLifetimeOf r.kind r.payload currentMs = .ok p) :
    (r.watermark prim).retainUntilMs = (r.watermark prim).issuedAtMs + ttlMs r.scope :=
  max_eq_right (expires_le_of_validated h)

/-- The integer fields that `check` reads are there in an admissible record. -/
theorem Admissible.fields {r : SignedRecord} {kind : String} {currentMs : Int}
    (h : Admissible r kind currentMs) :
    requireInt (r.payload.lookup "issued_at_ms") "issued_at_ms" (some 0) = .ok r.issuedAtMs ∧
    requireInt (r.payload.lookup "expires_at_ms") "expires_at_ms" (some 0) = .ok r.expiresAtMs ∧
    requireInt (r.payload.lookup "sequence") "sequence" (some 0) = .ok r.sequence := by
  obtain ⟨p, hp⟩ := h.lifetime
  obtain ⟨⟨q, hq⟩, -⟩ := validateLifetimeOf_ok hp
  obtain ⟨hissued, hexpires, -, -⟩ := validateLifetime_ok hq
  obtain ⟨n, hn⟩ := h.sequence
  obtain rfl : r.sequence = n := intField_of_requireInt hn
  exact ⟨hissued, hexpires, hn⟩

/-! ### Enforced watermarks -/

/-- `latest` enforces the watermark `a` at the clock reading `nowMs`. -/
def Guards (latest : Dict Scope Watermark) (nowMs : Int) (a : Accepted) : Prop :=
  a.horizon ≤ nowMs ∨ ∃ w, latest.lookup a.scope = some w ∧ a.horizon ≤ w.retainUntilMs ∧
    (a.order < w.order ∨ (a.order = w.order ∧ w.recordDigest = a.digest))

/-- Every entry is retained exactly as long as its kind of record can live. -/
def Retained (latest : Dict Scope Watermark) : Prop :=
  ∀ scope w, latest.lookup scope = some w → w.retainUntilMs = w.issuedAtMs + ttlMs scope

/-- The invariant of a `_latest` dictionary against a log of accepted records. -/
structure Enforcing (latest : Dict Scope Watermark) (nowMs : Int) (log : List Accepted) : Prop where
  /-- Every entry is retained as long as its kind of record can live. -/
  retained : Retained latest
  /-- Every logged watermark is in force. -/
  guards : ∀ a ∈ log, Guards latest nowMs a

/-- `new` holds, for every entry of `old` in `scopes` that is live at `nowMs`, the same entry or one
of a newer record of the scope. -/
def Keeps (scopes : Set Scope) (old new : Dict Scope Watermark) (nowMs : Int) : Prop :=
  ∀ scope ∈ scopes, ∀ w, old.lookup scope = some w → w.retainUntilMs > nowMs →
    ∃ c, new.lookup scope = some c ∧
      (w.order < c.order ∨ (w.order = c.order ∧ c.recordDigest = w.recordDigest))

section Enforcing

variable {latest latest' : Dict Scope Watermark} {nowMs nowMs' : Int} {log : List Accepted}

theorem Guards.later {a : Accepted} (h : Guards latest nowMs a) (hle : nowMs ≤ nowMs') :
    Guards latest nowMs' a :=
  h.imp (fun ha => le_trans ha hle) id

theorem Enforcing.empty : Enforcing ∅ nowMs [] where
  retained := fun _ _ h => absurd h (by simp)
  guards := fun _ h => absurd h (by simp)

theorem Enforcing.later (h : Enforcing latest nowMs log) (hle : nowMs ≤ nowMs') :
    Enforcing latest nowMs' log :=
  ⟨h.retained, fun a ha => (h.guards a ha).later hle⟩

/-- The invariant reads the dictionary only through its lookups. -/
theorem Enforcing.congr (h : Enforcing latest nowMs log)
    (heq : ∀ scope, latest'.lookup scope = latest.lookup scope) : Enforcing latest' nowMs log where
  retained := fun scope w hw => h.retained scope w (by rw [← heq]; exact hw)
  guards := fun a ha => by
    unfold Guards
    rw [heq]
    exact h.guards a ha

theorem Enforcing.sublog {log' : List Accepted} (h : Enforcing latest nowMs log)
    (hsub : ∀ a ∈ log', a ∈ log) : Enforcing latest nowMs log' :=
  ⟨h.retained, fun a ha => h.guards a (hsub a ha)⟩

/-- The order of an entry and of what keeps it. -/
private theorem order_le_of_newer {w c : Watermark}
    (h : w.order < c.order ∨ (w.order = c.order ∧ c.recordDigest = w.recordDigest)) :
    w.order ≤ c.order := by
  rcases h with hlt | ⟨heq, -⟩
  · exact hlt.le
  · exact heq.le

/-- **What is kept is enforced.** An entry that is no longer live only enforced watermarks whose
horizon has passed; one that was replaced was replaced by a record issued no earlier, which is
retained at least as long as any record the watermark supersedes. -/
theorem Guards.of_keeps {a : Accepted} {scopes : Set Scope} (h : Guards latest nowMs a)
    (hscope : a.scope ∈ scopes) (hkeeps : Keeps scopes latest latest' nowMs)
    (hret : Retained latest') : Guards latest' nowMs a := by
  rcases h with hpast | ⟨w, hw, hwret, hord⟩
  · exact Or.inl hpast
  by_cases hlive : w.retainUntilMs > nowMs
  · obtain ⟨c, hc, hnewer⟩ := hkeeps a.scope hscope w hw hlive
    have haw : a.order ≤ w.order := by
      rcases hord with hlt | ⟨heq, -⟩
      · exact hlt.le
      · exact heq.le
    have hwc : w.order ≤ c.order := order_le_of_newer hnewer
    have hissued : (ofLex a.order).1 ≤ c.issuedAtMs := issued_le_of_order_le (haw.trans hwc)
    have hcret : c.retainUntilMs = c.issuedAtMs + ttlMs a.scope := hret a.scope c hc
    refine Or.inr ⟨c, hc, ?_, ?_⟩
    · unfold Accepted.horizon
      omega
    · rcases hnewer with hlt | ⟨heq, hdig⟩
      · exact Or.inl (lt_of_le_of_lt haw hlt)
      · rw [← heq, hdig]
        exact hord
  · exact Or.inl (le_trans hwret (not_lt.mp hlive))

theorem Enforcing.of_keeps (h : Enforcing latest nowMs log)
    (hkeeps : Keeps Set.univ latest latest' nowMs) (hret : Retained latest') :
    Enforcing latest' nowMs log :=
  ⟨hret, fun a ha => (h.guards a ha).of_keeps (Set.mem_univ _) hkeeps hret⟩

theorem Keeps.refl (scopes : Set Scope) (latest : Dict Scope Watermark) (nowMs : Int) :
    Keeps scopes latest latest nowMs := fun _ _ w hw _ => ⟨w, hw, Or.inr ⟨rfl, rfl⟩⟩

/-- Keeping reads the dictionaries only through their lookups. -/
theorem Keeps.congr {scopes : Set Scope} {d d' : Dict Scope Watermark}
    (h : Keeps scopes latest latest' nowMs) (hold : ∀ scope, d.lookup scope = latest.lookup scope)
    (hnew : ∀ scope, d'.lookup scope = latest'.lookup scope) : Keeps scopes d d' nowMs := by
  intro scope hs w hw hlive
  rw [hnew]
  exact h scope hs w (by rw [← hold]; exact hw) hlive

theorem Retained.congr (h : Retained latest)
    (heq : ∀ scope, latest'.lookup scope = latest.lookup scope) : Retained latest' :=
  fun scope w hw => h scope w (by rw [← heq]; exact hw)

theorem Keeps.later {scopes : Set Scope} (h : Keeps scopes latest latest' nowMs)
    (hle : nowMs ≤ nowMs') : Keeps scopes latest latest' nowMs' :=
  fun scope hs w hw hlive => h scope hs w hw (lt_of_le_of_lt hle hlive)

theorem Keeps.mono {scopes scopes' : Set Scope} (h : Keeps scopes latest latest' nowMs)
    (hsub : scopes' ⊆ scopes) : Keeps scopes' latest latest' nowMs :=
  fun scope hs => h scope (hsub hs)

/-- Keeping composes: what keeps a live entry is live itself, being issued no earlier. -/
theorem Keeps.trans {scopes : Set Scope} {latest'' : Dict Scope Watermark}
    (h : Keeps scopes latest latest' nowMs) (h' : Keeps scopes latest' latest'' nowMs)
    (hret : Retained latest) (hret' : Retained latest') : Keeps scopes latest latest'' nowMs := by
  intro scope hs w hw hwlive
  obtain ⟨c, hc, hwc⟩ := h scope hs w hw hwlive
  have hclive : c.retainUntilMs > nowMs := by
    have hissued : w.issuedAtMs ≤ c.issuedAtMs := issued_le_of_order_le (order_le_of_newer hwc)
    have hwret := hret scope w hw
    have hcret := hret' scope c hc
    omega
  obtain ⟨d, hd, hcd⟩ := h' scope hs c hc hclive
  refine ⟨d, hd, ?_⟩
  rcases hwc with hlt | ⟨heq, hdig⟩
  · exact Or.inl (lt_of_lt_of_le hlt (order_le_of_newer hcd))
  · rw [heq, ← hdig]
    exact hcd

theorem live_of_lookup {scope : Scope} {w : Watermark}
    (h : (live nowMs latest).lookup scope = some w) :
    latest.lookup scope = some w ∧ w.retainUntilMs > nowMs :=
  (Dict.lookup_keep_eq_some.mp h).imp_right of_decide_eq_true

/-- Pruning keeps what is live. -/
theorem Keeps.live (scopes : Set Scope) (latest : Dict Scope Watermark) (nowMs : Int) :
    Keeps scopes latest (live nowMs latest) nowMs := fun _ _ w hw hlive =>
  ⟨w, Dict.lookup_keep_eq_some.mpr ⟨hw, decide_eq_true hlive⟩, Or.inr ⟨rfl, rfl⟩⟩

/-- Admitting a record keeps everything: only an older entry of its scope is replaced. -/
theorem Keeps.admitted (scopes : Set Scope) (latest : Dict Scope Watermark) (nowMs : Int)
    (scope : Scope) (w : Watermark) : Keeps scopes latest (admitted latest scope w) nowMs := by
  intro scope' _ c hc _
  unfold Identity.admitted
  by_cases hadv : advances (latest.lookup scope) w = true
  · rw [if_pos hadv]
    by_cases hs : scope' = scope
    · subst hs
      rw [hc] at hadv
      exact ⟨w, AList.lookup_insert _, Or.inl (of_decide_eq_true hadv)⟩
    · exact ⟨c, by rw [AList.lookup_insert_ne hs]; exact hc, Or.inr ⟨rfl, rfl⟩⟩
  · rw [if_neg hadv]
    exact ⟨c, hc, Or.inr ⟨rfl, rfl⟩⟩

theorem Retained.live (h : Retained latest) : Retained (live nowMs latest) :=
  fun scope w hw => h scope w (live_of_lookup hw).1

theorem Retained.admitted {scope : Scope} {w : Watermark} (h : Retained latest)
    (hret : w.retainUntilMs = w.issuedAtMs + ttlMs scope) :
    Retained (admitted latest scope w) := by
  intro scope' c hc
  unfold Identity.admitted at hc
  split at hc
  · by_cases hs : scope' = scope
    · subst hs
      rw [AList.lookup_insert] at hc
      obtain rfl := Option.some.inj hc
      exact hret
    · rw [AList.lookup_insert_ne hs] at hc
      exact h scope' c hc
  · exact h scope' c hc

/-- What `check` puts in the place of a dictionary keeps its live entries. -/
theorem Keeps.checked (scopes : Set Scope) (hret : Retained latest) (nowMs : Int) (scope : Scope)
    (w : Watermark) :
    Keeps scopes latest (Identity.admitted (Identity.live nowMs latest) scope w) nowMs :=
  (Keeps.live scopes latest nowMs).trans (Keeps.admitted scopes _ nowMs scope w) hret hret.live

/-- **Pruning loses nothing that is still needed.** -/
theorem Enforcing.live (h : Enforcing latest nowMs log) :
    Enforcing (live nowMs latest) nowMs log :=
  h.of_keeps (Keeps.live _ latest nowMs) h.retained.live

/-- **Admitting a record**, newer or not, loses nothing. -/
theorem Enforcing.admitted {scope : Scope} {w : Watermark} (h : Enforcing latest nowMs log)
    (hret : w.retainUntilMs = w.issuedAtMs + ttlMs scope) :
    Enforcing (admitted latest scope w) nowMs log :=
  h.of_keeps (Keeps.admitted _ latest nowMs scope w) (h.retained.admitted hret)

/-! ### The watermarks a dictionary holds -/

/-- The watermark of an entry, as the acceptance it stands for. -/
def mark (scope : Scope) (w : Watermark) : Accepted := ⟨scope, w.order, w.recordDigest⟩

/-- Every acceptance a dictionary holds an entry for. -/
def marks (latest : Dict Scope Watermark) : List Accepted :=
  (sortedItems latest).map fun e => mark e.1 e.2

theorem mem_sortedItems {latest : Dict Scope Watermark} {scope : Scope} {w : Watermark} :
    (scope, w) ∈ sortedItems latest ↔ latest.lookup scope = some w := by
  unfold sortedItems
  rw [List.mem_insertionSort, ← Option.mem_def, AList.mem_lookup_iff, List.mem_map]
  constructor
  · rintro ⟨⟨s, v⟩, hmem, heq⟩
    obtain ⟨rfl, rfl⟩ := Prod.mk.inj heq
    exact hmem
  · exact fun hmem => ⟨⟨scope, w⟩, hmem, rfl⟩

theorem mem_marks {a : Accepted} :
    a ∈ marks latest ↔ ∃ scope w, latest.lookup scope = some w ∧ mark scope w = a := by
  unfold marks
  rw [List.mem_map]
  constructor
  · rintro ⟨⟨scope, w⟩, hmem, heq⟩
    exact ⟨scope, w, mem_sortedItems.mp hmem, heq⟩
  · rintro ⟨scope, w, hlook, heq⟩
    exact ⟨(scope, w), mem_sortedItems.mpr hlook, heq⟩

/-- A dictionary enforces its own entries. -/
theorem Enforcing.marks (h : Enforcing latest nowMs log) :
    Enforcing latest nowMs (marks latest ++ log) where
  retained := h.retained
  guards := by
    intro a ha
    rcases List.mem_append.mp ha with ha | ha
    · obtain ⟨scope, w, hlook, rfl⟩ := mem_marks.mp ha
      exact Or.inr ⟨w, hlook, (h.retained scope w hlook).ge, Or.inr ⟨rfl, rfl⟩⟩
    · exact h.guards a ha

/-- **An admitted record is held.** Either its watermark was inserted, or the comparison found an
entry of the same order and digest. -/
theorem mem_marks_admitted {scope : Scope} {w : Watermark}
    (hcmp : compareWatermark (latest.lookup scope) w = .ok ()) :
    mark scope w ∈ Identity.marks (admitted latest scope w) := by
  unfold admitted
  by_cases hadv : advances (latest.lookup scope) w = true
  · rw [if_pos hadv]
    exact mem_marks.mpr ⟨scope, w, AList.lookup_insert _, rfl⟩
  rw [if_neg hadv]
  cases hc : latest.lookup scope with
  | none => rw [hc] at hadv; exact absurd rfl hadv
  | some c =>
    rw [hc] at hcmp hadv
    simp only [advances, gt_iff_lt, decide_eq_true_eq, not_lt] at hadv
    obtain ⟨hnewer, hsame⟩ := compareWatermark_some.mp hcmp
    have heq : w.order = c.order := le_antisymm hadv hnewer
    refine mem_marks.mpr ⟨scope, c, hc, ?_⟩
    unfold mark
    rw [heq, hsame heq]

/-- **An enforced watermark refuses.** A record that is superseded by it, validated for its kind and
unexpired, fails the comparison. -/
theorem Enforcing.refuses {prim : Primitives} {a : Accepted} {r : SignedRecord}
    {validatedMs : Int} {p : Int × Int} (h : Enforcing latest nowMs log) (ha : a ∈ log)
    (hsup : Superseded prim a r)
    (hvalid : validateLifetimeOf r.kind r.payload validatedMs = .ok p)
    (hunexpired : nowMs < r.expiresAtMs) :
    compareWatermark (latest.lookup r.scope) (r.watermark prim) ≠ .ok () := by
  obtain ⟨hscope, hsup⟩ := hsup
  have hle : r.order ≤ a.order := by
    rcases hsup with hlt | ⟨heq, -⟩
    · exact le_of_lt hlt
    · exact le_of_eq heq
  have hissued : r.issuedAtMs ≤ (ofLex a.order).1 := issued_le_of_order_le hle
  have hexp : r.expiresAtMs ≤ r.issuedAtMs + ttlMs r.scope := expires_le_of_validated hvalid
  -- the record is unexpired, so the horizon has not passed and an entry must be there
  rcases h.guards a ha with hpast | ⟨c, hc, -, hord⟩
  · unfold Accepted.horizon at hpast
    rw [← hscope] at hpast
    omega
  rw [hscope, hc, Ne, compareWatermark_some, watermark_order, watermark_digest]
  rintro ⟨hnewer, hsame⟩
  rcases hord with hlt | ⟨heq, hdig⟩
  · exact absurd (lt_of_le_of_lt hle hlt) (not_lt.mpr hnewer)
  rcases hsup with hlt | ⟨heq', hne⟩
  · exact absurd (heq ▸ hlt) (not_lt.mpr hnewer)
  · exact hne ((hsame (heq'.trans heq)).trans hdig)

end Enforcing

/-! ### What `check` can do -/

/-- The file a successful write leaves. -/
def snapshot (latest : Dict Scope Watermark) : HistoryFile :=
  .regular (renderedBytes (historyDocument latest)) (some (historyDocument latest))

/-- The outcomes of a write: it succeeds and leaves the snapshot (or the guard has no path), or it
raises and leaves the old file or the snapshot. -/
theorem persist_cases (g : ReplayGuard) (latest : Dict Scope Watermark) (file : HistoryFile)
    (outcome : WriteOutcome) :
    (g.path.isNone ∧ g.persist latest file outcome = (.ok (), file)) ∨
    (g.path.isSome ∧ g.persist latest file outcome = (.ok (), snapshot latest)) ∨
    ∃ e, g.path.isSome ∧ (g.persist latest file outcome = (.error e, file) ∨
      g.persist latest file outcome = (.error e, snapshot latest)) := by
  unfold ReplayGuard.persist
  cases hp : g.path with
  | none => exact Or.inl ⟨rfl, rfl⟩
  | some p =>
    refine Or.inr ?_
    simp only [Option.isNone_some, Bool.false_eq_true, if_false, Option.isSome_some, true_and]
    cases file with
    | irregularPath => exact Or.inr ⟨_, Or.inl rfl⟩
    | irregularDirectory =>
      right
      dsimp only
      split <;> exact ⟨_, Or.inl rfl⟩
    | missing =>
      dsimp only
      split
      · exact Or.inr ⟨_, Or.inl rfl⟩
      · cases outcome with
        | written => exact Or.inl rfl
        | failed => exact Or.inr ⟨_, Or.inl rfl⟩
        | failedAfterReplace => exact Or.inr ⟨_, Or.inr rfl⟩
    | regular n doc =>
      dsimp only
      split
      · exact Or.inr ⟨_, Or.inl rfl⟩
      · cases outcome with
        | written => exact Or.inl rfl
        | failed => exact Or.inr ⟨_, Or.inl rfl⟩
        | failedAfterReplace => exact Or.inr ⟨_, Or.inr rfl⟩

/-- Where nothing was pruned and the record is not newer, the dictionary stays as it is. -/
theorem unchanged_of_not_changes {g : ReplayGuard} {nowMs : Int} {scope : Scope} {w : Watermark}
    (h : ¬ g.changes nowMs scope w = true) :
    g.latest = admitted (live nowMs g.latest) scope w := by
  unfold ReplayGuard.changes at h
  simp only [Bool.or_eq_true, decide_eq_true_eq, not_or, not_not, Bool.not_eq_true] at h
  unfold admitted
  rw [h.2, if_neg Bool.false_ne_true]
  exact (AList.ext h.1).symm

theorem length_admitted_le (latest : Dict Scope Watermark) (nowMs : Int) (scope : Scope)
    (w : Watermark) :
    (admitted (live nowMs latest) scope w).entries.length ≤ latest.entries.length + 1 := by
  have hlive : (live nowMs latest).entries.length ≤ latest.entries.length :=
    Dict.length_keep_le _ _
  have hinsert := Dict.length_insert_le scope w (live nowMs latest)
  unfold admitted
  split <;> omega

/-- The locked part of `check`: it raises and leaves the guard alone, and the file alone or with the
snapshot of what it wanted to remember; or it accepts and remembers that dictionary. -/
theorem admit_cases (g : ReplayGuard) (file : HistoryFile) (nowMs : Int) (outcome : WriteOutcome)
    (scope : Scope) (w : Watermark) :
    (∃ e, g.admitLocked file nowMs outcome scope w = (.error e, g, file)) ∨
    (compareWatermark ((live nowMs g.latest).lookup scope) w = .ok () ∧
      ((∃ e, g.path.isSome ∧ g.changes nowMs scope w ∧ g.admitLocked file nowMs outcome scope w =
          (.error e, g, snapshot (admitted (live nowMs g.latest) scope w))) ∨
        ∃ file', g.admitLocked file nowMs outcome scope w =
            (.ok (), { g with latest := admitted (live nowMs g.latest) scope w }, file') ∧
          (file' = snapshot (admitted (live nowMs g.latest) scope w) ∧ g.path.isSome ∧
              g.changes nowMs scope w ∨
            file' = file ∧ (g.path.isNone ∨
              g.latest = admitted (live nowMs g.latest) scope w)))) := by
  unfold ReplayGuard.admitLocked
  dsimp only
  cases hcmp : compareWatermark ((live nowMs g.latest).lookup scope) w with
  | error e => exact Or.inl ⟨e, rfl⟩
  | ok u =>
    dsimp only
    by_cases hlen : (admitted (live nowMs g.latest) scope w).entries.length > g.maxEntries
    · rw [if_pos hlen]
      exact Or.inl ⟨_, rfl⟩
    rw [if_neg hlen]
    by_cases hch : g.changes nowMs scope w = true
    · rw [if_pos hch]
      rcases persist_cases g (admitted (live nowMs g.latest) scope w) file outcome with
        ⟨hp, heq⟩ | ⟨hp, heq⟩ | ⟨e, hp, heq | heq⟩ <;> rw [heq]
      · exact Or.inr ⟨rfl, Or.inr ⟨file, rfl, Or.inr ⟨rfl, Or.inl hp⟩⟩⟩
      · exact Or.inr ⟨rfl, Or.inr ⟨_, rfl, Or.inl ⟨rfl, hp, hch⟩⟩⟩
      · exact Or.inl ⟨e, rfl⟩
      · exact Or.inr ⟨rfl, Or.inl ⟨e, hp, hch, rfl⟩⟩
    · -- nothing was pruned and nothing is newer, so the dictionary is the old one
      rw [if_neg hch]
      have hsame := unchanged_of_not_changes hch
      refine Or.inr ⟨rfl, Or.inr ⟨file, ?_, Or.inr ⟨rfl, Or.inr hsame⟩⟩⟩
      rw [← hsame]

/-- **Everything `check` can do.** It raises and leaves the guard alone, and the file alone or with
the snapshot of what it wanted to remember; or it accepts, remembers that dictionary, and the file is
the snapshot too unless the guard has no path or nothing changed. -/
theorem check_cases (prim : Primitives) (g : ReplayGuard) (file : HistoryFile) (nowMs : Int)
    (outcome : WriteOutcome) (r : SignedRecord) :
    (∃ e, g.check prim file nowMs outcome r = (.error e, g, file)) ∨
    (compareWatermark ((live nowMs g.latest).lookup r.scope) (r.watermark prim) = .ok () ∧
      ((∃ e, g.path.isSome ∧ g.changes nowMs r.scope (r.watermark prim) ∧
          g.check prim file nowMs outcome r =
            (.error e, g, snapshot (admitted (live nowMs g.latest) r.scope (r.watermark prim)))) ∨
        ∃ file', g.check prim file nowMs outcome r =
            (.ok (), { g with
              latest := admitted (live nowMs g.latest) r.scope (r.watermark prim) }, file') ∧
          (file' = snapshot (admitted (live nowMs g.latest) r.scope (r.watermark prim)) ∧
              g.path.isSome ∧ g.changes nowMs r.scope (r.watermark prim) ∨
            file' = file ∧ (g.path.isNone ∨
              g.latest = admitted (live nowMs g.latest) r.scope (r.watermark prim))))) := by
  unfold ReplayGuard.check
  split
  · next i x q hi hx hq =>
    obtain rfl : r.issuedAtMs = i := intField_of_requireInt hi
    obtain rfl : r.expiresAtMs = x := intField_of_requireInt hx
    obtain rfl : r.sequence = q := intField_of_requireInt hq
    exact admit_cases g file nowMs outcome r.scope (r.watermark prim)
  all_goals exact Or.inl ⟨_, rfl⟩

/-- A check remembers at most one scope more. -/
theorem check_length (prim : Primitives) (g : ReplayGuard) (file : HistoryFile) (nowMs : Int)
    (outcome : WriteOutcome) (r : SignedRecord) :
    (g.check prim file nowMs outcome r).2.1.latest.entries.length ≤ g.latest.entries.length + 1 := by
  have hadmitted := length_admitted_le g.latest nowMs r.scope (r.watermark prim)
  rcases check_cases prim g file nowMs outcome r with
    ⟨e, heq⟩ | ⟨-, ⟨e, -, -, heq⟩ | ⟨file', heq, -⟩⟩ <;> rw [heq]
  · exact Nat.le_succ _
  · exact Nat.le_succ _
  · exact hadmitted

/-- A check of a record with the integers that it reads is its locked part. -/
theorem check_eq_admitLocked {prim : Primitives} {g : ReplayGuard} {file : HistoryFile} {nowMs : Int}
    {outcome : WriteOutcome} {r : SignedRecord}
    (h : requireInt (r.payload.lookup "issued_at_ms") "issued_at_ms" (some 0) = .ok r.issuedAtMs ∧
      requireInt (r.payload.lookup "expires_at_ms") "expires_at_ms" (some 0) = .ok r.expiresAtMs ∧
      requireInt (r.payload.lookup "sequence") "sequence" (some 0) = .ok r.sequence) :
    g.check prim file nowMs outcome r = g.admitLocked file nowMs outcome r.scope (r.watermark prim) := by
  obtain ⟨hissued, hexpires, hsequence⟩ := h
  unfold ReplayGuard.check
  rw [hissued, hexpires, hsequence]
  rfl

/-- **A check without a path leaves an entry that is at least as new**, whether it accepts or
refuses, as long as there is room for one more scope. -/
theorem check_leaves_newer (prim : Primitives) {g : ReplayGuard} (file : HistoryFile)
    (nowMs : Int) (outcome : WriteOutcome) {r : SignedRecord} {kind : String} {validatedMs : Int}
    (hadm : Admissible r kind validatedMs) (hpath : g.path.isNone)
    (hroom : g.latest.entries.length < g.maxEntries) :
    ∃ c, (g.check prim file nowMs outcome r).2.1.latest.lookup r.scope = some c ∧
      r.order ≤ c.order := by
  have hlen : ¬ (admitted (live nowMs g.latest) r.scope (r.watermark prim)).entries.length >
      g.maxEntries := by
    have := length_admitted_le g.latest nowMs r.scope (r.watermark prim)
    omega
  rw [check_eq_admitLocked hadm.fields]
  unfold ReplayGuard.admitLocked
  dsimp only
  cases hcmp : compareWatermark ((live nowMs g.latest).lookup r.scope) (r.watermark prim) with
  | error e =>
    -- the record was refused because of the entry that is there
    cases hc : (live nowMs g.latest).lookup r.scope with
    | none => rw [hc] at hcmp; cases hcmp
    | some c =>
      refine ⟨c, (live_of_lookup hc).1, ?_⟩
      by_contra hlt
      have hnewer : c.order < r.order := not_le.mp hlt
      have hok : compareWatermark (some c) (r.watermark prim) = .ok () :=
        compareWatermark_some.mpr ⟨hnewer.le, fun heq => absurd heq hnewer.ne'⟩
      rw [hc, hok] at hcmp
      cases hcmp
  | ok u =>
    obtain ⟨scope, w, hw, hmark⟩ := mem_marks.mp (mem_marks_admitted hcmp)
    have hscope : scope = r.scope := congrArg Accepted.scope hmark
    have horder : w.order = r.order := congrArg Accepted.order hmark
    rw [hscope] at hw
    have hle : r.order ≤ w.order := horder.ge
    dsimp only
    rw [if_neg hlen]
    by_cases hch : g.changes nowMs r.scope (r.watermark prim) = true
    · rw [if_pos hch]
      have hpersist : ∀ d, g.persist d file outcome = (.ok (), file) := by
        intro d
        unfold ReplayGuard.persist
        rw [if_pos hpath]
      rw [hpersist]
      exact ⟨w, hw, hle⟩
    · rw [if_neg hch]
      rw [← unchanged_of_not_changes hch] at hw
      exact ⟨w, hw, hle⟩

/-! ### Reading back a written file -/

/-- An entry is read back as it was written. -/
theorem loadEntry_entryJson {prim : Primitives} {e e' : Scope × Watermark}
    (h : loadEntry prim (entryJson e) = .ok e') : e' = e := by
  obtain ⟨⟨kind, keyId⟩, ⟨issuedAtMs, sequence, digest, retainUntilMs⟩⟩ := e
  unfold loadEntry entryJson at h
  obtain ⟨_, -, h⟩ := bind_eq_ok.mp h
  obtain ⟨kind', hkind, h⟩ := bind_eq_ok.mp h
  obtain ⟨_, -, h⟩ := bind_eq_ok.mp h
  obtain ⟨keyId', hkey, h⟩ := bind_eq_ok.mp h
  obtain ⟨i, hi, h⟩ := bind_eq_ok.mp h
  obtain ⟨q, hq, h⟩ := bind_eq_ok.mp h
  obtain ⟨d, hd, h⟩ := bind_eq_ok.mp h
  obtain ⟨t, ht, h⟩ := bind_eq_ok.mp h
  obtain ⟨_, -, h⟩ := bind_eq_ok.mp h
  have hkind' : kind' = kind := requireText_str hkind
  have hkey' : keyId' = keyId := requireKeyId_str hkey
  have hi' : issuedAtMs = i := Json.int.inj (Option.some.inj (requireInt_eq_ok.mp hi).1)
  have hq' : sequence = q := Json.int.inj (Option.some.inj (requireInt_eq_ok.mp hq).1)
  have hd' : d = digest := requireDigest_str hd
  have ht' : retainUntilMs = t := Json.int.inj (Option.some.inj (requireInt_eq_ok.mp ht).1)
  rw [← Except.ok.inj h, hkind', hkey', hd', ← hi', ← hq', ← ht']

/-- What the loop of `_load` collects from written entries: the entries it started with and the live
ones among the written. An entry is never overwritten, because a second one of its scope is refused. -/
theorem lookup_loadEntries {prim : Primitives} {nowMs : Int} :
    ∀ {items : List (Scope × Watermark)} {acc latest : Dict Scope Watermark},
      loadEntries prim nowMs acc (items.map entryJson) = .ok latest → ∀ scope w,
        latest.lookup scope = some w ↔
          acc.lookup scope = some w ∨ ((scope, w) ∈ items ∧ w.retainUntilMs > nowMs)
  | [], acc, latest, h, scope, w => by
    obtain rfl : acc = latest := Except.ok.inj h
    simp
  | e :: items, acc, latest, h, scope, w => by
    rw [List.map_cons, loadEntries] at h
    obtain ⟨e', he', hrest⟩ := bind_eq_ok.mp h
    obtain rfl := loadEntry_entryJson he'
    obtain ⟨scope', w'⟩ := e'
    obtain ⟨_, hfresh, hload⟩ := bind_eq_ok.mp hrest
    rw [refuseIf_eq_ok, decide_eq_false_iff_not] at hfresh
    rw [lookup_loadEntries hload scope w]
    have hnone : acc.lookup scope' = none := AList.lookup_eq_none.mpr hfresh
    by_cases hlive : w'.retainUntilMs > nowMs
    · rw [if_pos hlive]
      by_cases hs : scope = scope'
      · subst hs
        rw [AList.lookup_insert, hnone]
        constructor
        · rintro (heq | ⟨hmem, hw⟩)
          · obtain rfl := Option.some.inj heq
            exact Or.inr ⟨List.mem_cons_self .., hlive⟩
          · exact Or.inr ⟨List.mem_cons_of_mem _ hmem, hw⟩
        · rintro (heq | ⟨hmem, hw⟩)
          · cases heq
          · rcases List.mem_cons.mp hmem with heq | hmem
            · exact Or.inl (by rw [(Prod.mk.inj heq).2])
            · exact Or.inr ⟨hmem, hw⟩
      · rw [AList.lookup_insert_ne hs, List.mem_cons]
        have hne : (scope, w) ≠ (scope', w') := fun heq => hs (Prod.mk.inj heq).1
        simp only [hne, false_or]
    · rw [if_neg hlive, List.mem_cons]
      have hne : w.retainUntilMs > nowMs → (scope, w) ≠ (scope', w') := by
        intro hw heq
        rw [(Prod.mk.inj heq).2] at hw
        exact hlive hw
      constructor
      · exact Or.imp_right fun ⟨hmem, hw⟩ => ⟨Or.inr hmem, hw⟩
      · rintro (hacc | ⟨heq | hmem, hw⟩)
        · exact Or.inl hacc
        · exact absurd heq (hne hw)
        · exact Or.inr ⟨hmem, hw⟩

theorem isNone_path {g : ReplayGuard} (hpath : g.path.isSome) : g.path.isNone = false := by
  rw [← Option.not_isSome, hpath]
  rfl

/-- **Reading back.** A snapshot that loads gives the live part of what was written. -/
theorem lookup_load_snapshot {prim : Primitives} {g : ReplayGuard} {nowMs : Int}
    {latest loaded : Dict Scope Watermark} (hpath : g.path.isSome)
    (h : g.load prim (snapshot latest) nowMs = .ok loaded) (scope : Scope) :
    loaded.lookup scope = (live nowMs latest).lookup scope := by
  unfold ReplayGuard.load snapshot at h
  rw [isNone_path hpath, if_neg Bool.false_ne_true] at h
  dsimp only at h
  split at h
  · cases h
  unfold loadDocument historyDocument at h
  obtain ⟨_, -, h⟩ := bind_eq_ok.mp h
  obtain ⟨_, -, h⟩ := bind_eq_ok.mp h
  have hiff := lookup_loadEntries h scope
  ext w
  rw [hiff, mem_sortedItems]
  unfold live
  rw [Dict.lookup_keep_eq_some, AList.lookup_empty, decide_eq_true_eq]
  simp

end Drift.Identity
