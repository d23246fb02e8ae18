import Drift.Dht.ModuleInfos
import Drift.Identity.GuardRun

/-!
# The announcements a routing manager accepts

`RemoteSequenceManager` holds one replay guard, `ReplayGuard()`, and passes it to every lookup. The
lookup runs in the DHT process on a pickled copy; the copy is dropped when the coroutine ends, and a
guard without a path has no file through which it could come back. So every update starts from the
guard the manager was created with, which is empty (`RoutingRun.Inv.guard_fresh`).

Within one update the copy does its work. `ForgetsNothing` is the condition under which this is
enough: whatever is older than an announcement of an earlier update comes, in the update, after a
newer announcement of its identity. `updates_never_go_back` proves that along runs whose entries meet
it, nothing older is accepted, and `update_goes_back` runs the two updates that break it.
-/

namespace Drift.Client

open Drift.Lib Drift.Identity Drift.Dht

/-- `_get_remote_module_infos` in the DHT process, between two entries. `guard` is the coroutine's
copy; `checked` are the announcements that came to it so far, oldest first. -/
structure Lookup where
  guard : ReplayGuard
  checked : List SignedRecord
  accepted : List Accepted
  servers : List (ModuleUid × String × ServerInfo)

/-- A routing manager and the lookup it waits for, if any. `log` holds the announcements that the
finished updates accepted. -/
structure RoutingRun where
  announcementReplayGuard : ReplayGuard
  lookup : Option Lookup
  moduleInfos : List (ModuleUid × String × ServerInfo)
  clockMs : Int
  log : List Accepted

/-- The steps of `RemoteSequenceManager._update`: the lookup is sent to the DHT process, walks over
its entries and returns. -/
inductive RoutingEvent
  | begin
  | entry (e : Entry)
  | finish

/-- A new manager: `ReplayGuard()` has no path and the default entry limit. -/
def RoutingRun.initial (startMs : Int) : RoutingRun where
  announcementReplayGuard := ⟨none, maxReplayHistoryEntries, maxReplayHistoryEntries_pos, ∅⟩
  lookup := none
  moduleInfos := []
  clockMs := startMs
  log := []

/-- Reading an entry with the lookup's copy of the guard. There is no file. -/
def Lookup.read (ctx : LookupContext) (l : Lookup) (e : Entry) : EntryResult :=
  ctx.readEntry e .written l.guard .missing

/-- The lookup after an entry. -/
def Lookup.after (ctx : LookupContext) (l : Lookup) (e : Entry) : Lookup where
  guard := (l.read ctx e).guard
  checked := l.checked ++ (ctx.offered e).toList
  accepted := ((l.read ctx e).accepted.map (SignedRecord.accepted ctx.prim)).toList ++ l.accepted
  servers := l.servers ++ ((l.read ctx e).listed.map fun info => (e.uid, e.peerId, info)).toList

/-- One step of a manager's updates. The clock does not go back. -/
def RoutingRun.next (ctx : LookupContext) (s : RoutingRun) : RoutingEvent → Option RoutingRun
  | .begin =>
    match s.lookup with
    | some _ => none
    | none =>
      match ReplayGuard.unpickle ctx.prim s.announcementReplayGuard .missing s.clockMs with
      | .error _ => none
      | .ok copy => some { s with lookup := some ⟨copy, [], [], []⟩ }
  | .entry e =>
    match s.lookup with
    | none => none
    | some l =>
      if s.clockMs ≤ e.nowMs then
        some { s with lookup := some (l.after ctx e), clockMs := e.nowMs }
      else none
  | .finish =>
    match s.lookup with
    | none => none
    | some l => some { s with lookup := none, moduleInfos := l.servers, log := l.accepted ++ s.log }

/-- The machine of a manager's updates. -/
def routingMachine (ctx : LookupContext) : Machine RoutingRun RoutingEvent := ⟨RoutingRun.next ctx⟩

/-! ### The property and its condition -/

/-- The entry `e`, read in the state `s`, does not make the manager accept an unexpired announcement
that is older than one of the same identity from an earlier update. -/
def NeverBack (ctx : LookupContext) (s : RoutingRun) (e : Entry) : Prop :=
  ∀ l r a, s.lookup = some l → (l.read ctx e).accepted = some r → e.nowMs < r.expiresAtMs →
    a ∈ s.log → r.scope = a.scope → ¬ r.order < a.order

/-- The condition on an entry: an announcement that passes everything but the guard, and is older than
one an earlier update accepted, comes after a newer one of its identity among the first announcements
of this update, as many as the guard has room for. -/
def ForgetsNothing (ctx : LookupContext) (s : RoutingRun) : RoutingEvent → Prop
  | .entry e => ∀ l r a, s.lookup = some l →
      ctx.offered e = some r → a ∈ s.log → r.scope = a.scope →
      r.order < a.order →
      ∃ v ∈ l.checked.take l.guard.maxEntries, v.scope = r.scope ∧ r.order < v.order
  | _ => True

/-! ### The invariant -/

/-- What the copy of a lookup guarantees: for every announcement that came to it while it had room, it
enforces an acceptance at least as new. -/
structure Lookup.Inv (l : Lookup) (clockMs : Int) : Prop where
  no_path : l.guard.path.isNone
  room : l.guard.latest.entries.length ≤ l.checked.length
  enforced : ∃ held, Enforcing l.guard.latest clockMs held ∧
    ∀ v ∈ l.checked.take l.guard.maxEntries, ∃ a ∈ held, a.scope = v.scope ∧ v.order ≤ a.order

/-- The invariant of a manager: its own guard is still the empty one it was created with. -/
structure RoutingRun.Inv (s : RoutingRun) : Prop where
  guard_fresh : s.announcementReplayGuard.path.isNone ∧ s.announcementReplayGuard.latest = ∅
  lookup : ∀ l, s.lookup = some l → l.Inv s.clockMs

theorem RoutingRun.Inv.initial (startMs : Int) : (RoutingRun.initial startMs).Inv where
  guard_fresh := ⟨rfl, rfl⟩
  lookup := fun l hl => by cases hl

/-- The copy keeps its limit over an entry. -/
theorem Lookup.after_guard (ctx : LookupContext) (l : Lookup) (e : Entry) :
    (l.after ctx e).guard.path = l.guard.path ∧
      (l.after ctx e).guard.maxEntries = l.guard.maxEntries := by
  unfold Lookup.after Lookup.read
  dsimp only
  rcases ctx.readEntry_cases e .written l.guard .missing with ⟨-, -, hguard, -⟩ | ⟨r, -, hguard, -, -⟩
  · rw [hguard]
    exact ⟨rfl, rfl⟩
  · rw [hguard]
    rcases check_cases ctx.prim l.guard .missing e.nowMs .written r with
      ⟨e, heq⟩ | ⟨-, ⟨e, -, -, heq⟩ | ⟨file', heq, -⟩⟩ <;> rw [heq] <;> exact ⟨rfl, rfl⟩

/-- **One entry preserves the copy's invariant.** -/
theorem Lookup.Inv.after {ctx : LookupContext} {l : Lookup} {clockMs : Int} (h : l.Inv clockMs)
    (e : Entry) (hclock : clockMs ≤ e.nowMs) : (l.after ctx e).Inv e.nowMs := by
  obtain ⟨hpath, hmax⟩ := l.after_guard ctx e
  obtain ⟨held, henf, hheld⟩ := h.enforced
  have henf' := henf.later hclock
  rcases ctx.readEntry_cases e .written l.guard .missing with ⟨hoffered, -, hguard, -⟩ | ⟨r, hoffered, hguard, -, -⟩
  · -- nothing came to the guard
    have hg : (l.after ctx e).guard = l.guard := hguard
    have hch : (l.after ctx e).checked = l.checked := by
      unfold Lookup.after
      rw [hoffered]
      exact List.append_nil _
    refine ⟨by rw [hpath]; exact h.no_path, by rw [hg, hch]; exact h.room, held, ?_, ?_⟩
    · rw [hg]
      exact henf'
    · rw [hg, hch]
      exact hheld
  · have hg : (l.after ctx e).guard =
        (l.guard.check ctx.prim .missing e.nowMs .written r).2.1 := hguard
    have hch : (l.after ctx e).checked = l.checked ++ [r] := by
      unfold Lookup.after
      rw [hoffered]
      rfl
    have hlen := check_length ctx.prim l.guard .missing e.nowMs .written r
    have henf'' : Enforcing (l.after ctx e).guard.latest e.nowMs held := by
      have hnopath : ¬ l.guard.path.isSome := by
        rw [← Option.not_isNone, h.no_path]
        decide
      have hguarded : Guarded l.guard .missing e.nowMs held :=
        ⟨henf', fun hp => absurd hp hnopath⟩
      obtain ⟨p, hp⟩ := (LookupContext.offered_admissible hoffered).lifetime
      have hafter := (hguarded.check ctx.prim .written hp).memory
      rw [hg]
      refine hafter.sublog fun a ha => ?_
      unfold logAfter
      split
      · exact List.mem_cons_of_mem _ ha
      · exact ha
    refine ⟨by rw [hpath]; exact h.no_path, ?_, _, henf''.marks, ?_⟩
    · have hroom := h.room
      rw [hg, hch, List.length_append, List.length_singleton]
      omega
    rw [hmax, hch]
    intro v hv
    by_cases hfull : l.checked.length < l.guard.maxEntries
    · -- there was room, so the guard now holds an entry at least as new as this record
      rw [List.take_of_length_le (by simp; omega)] at hv
      rcases List.mem_append.mp hv with hv | hv
      · obtain ⟨a, ha, hav⟩ := hheld v (by rw [List.take_of_length_le hfull.le]; exact hv)
        exact ⟨a, List.mem_append_right _ ha, hav⟩
      · obtain rfl : v = r := List.mem_singleton.mp hv
        have hadm := LookupContext.offered_admissible hoffered
        have hroom : l.guard.latest.entries.length < l.guard.maxEntries :=
          lt_of_le_of_lt h.room hfull
        obtain ⟨c, hc, hle⟩ :=
          check_leaves_newer ctx.prim .missing e.nowMs .written hadm h.no_path hroom
        rw [← hg] at hc
        exact ⟨mark v.scope c, List.mem_append_left _ (mem_marks.mpr ⟨v.scope, c, hc, rfl⟩), rfl,
          hle⟩
    · rw [List.take_append_of_le_length (not_lt.mp hfull)] at hv
      obtain ⟨a, ha, hav⟩ := hheld v hv
      exact ⟨a, List.mem_append_right _ ha, hav⟩

/-- **Every step preserves the invariant.** -/
theorem RoutingRun.Inv.step {ctx : LookupContext} {s s' : RoutingRun} {ev : RoutingEvent}
    (h : s.Inv) (hstep : s.next ctx ev = some s') : s'.Inv := by
  cases ev with
  | begin =>
    unfold RoutingRun.next at hstep
    cases hl : s.lookup with
    | some l => simp [hl] at hstep
    | none =>
      have hcopy : ReplayGuard.unpickle ctx.prim s.announcementReplayGuard .missing s.clockMs =
          .ok s.announcementReplayGuard := by
        unfold ReplayGuard.unpickle
        rw [if_pos h.guard_fresh.1]
      simp only [hl, hcopy] at hstep
      obtain rfl := Option.some.inj hstep
      refine ⟨h.guard_fresh, fun l hl => ?_⟩
      obtain rfl := Option.some.inj hl
      refine ⟨h.guard_fresh.1, ?_, [], ?_, fun v hv => ?_⟩
      · rw [h.guard_fresh.2]
        exact le_rfl
      · rw [h.guard_fresh.2]
        exact Enforcing.empty
      · rw [List.take_nil] at hv
        cases hv
  | entry e =>
    unfold RoutingRun.next at hstep
    cases hl : s.lookup with
    | none => simp [hl] at hstep
    | some l =>
      simp only [hl] at hstep
      by_cases hclock : s.clockMs ≤ e.nowMs
      · rw [if_pos hclock] at hstep
        obtain rfl := Option.some.inj hstep
        refine ⟨h.guard_fresh, fun l' hl' => ?_⟩
        obtain rfl := Option.some.inj hl'
        exact (h.lookup l hl).after e hclock
      · rw [if_neg hclock] at hstep
        cases hstep
  | finish =>
    unfold RoutingRun.next at hstep
    cases hl : s.lookup with
    | none => simp [hl] at hstep
    | some l =>
      simp only [hl] at hstep
      obtain rfl := Option.some.inj hstep
      exact ⟨h.guard_fresh, fun l' hl' => by cases hl'⟩

/-- **Routing does not go back while no entry meets a forgotten watermark.** Along a run whose entries
meet `ForgetsNothing`, an entry that meets it too is never accepted when it is older than an
announcement of an earlier update. -/
theorem updates_never_go_back (ctx : LookupContext) (startMs : Int) {s : RoutingRun}
    (hreach : (routingMachine ctx).Reach (ForgetsNothing ctx) (RoutingRun.initial startMs) s)
    (e : Entry) (hclock : s.clockMs ≤ e.nowMs) (hok : ForgetsNothing ctx s (.entry e)) :
    NeverBack ctx s e := by
  have hinv : s.Inv := hreach.invariant (RoutingRun.Inv.initial startMs)
    fun _ _ _ hi _ hstep => hi.step hstep
  intro l r a hl hacc hunexpired ha hscope hlt
  -- an accepted announcement came to the guard and passed its check
  rcases ctx.readEntry_cases e .written l.guard .missing with ⟨-, hnone, -⟩ | ⟨r', hoffered, -, -, ⟨_, -, hnone⟩ | ⟨hres, hsome⟩⟩
  · exact absurd (hacc.symm.trans hnone) (by simp)
  · exact absurd (hacc.symm.trans hnone) (by simp)
  obtain rfl : r = r' := Option.some.inj (hacc.symm.trans hsome)
  -- so a newer one of this update is enforced, and the check could not have passed
  obtain ⟨v, hv, hvscope, hvorder⟩ := hok l r a hl hoffered ha hscope hlt
  have hlinv := hinv.lookup l hl
  obtain ⟨held, henf, hheld⟩ := hlinv.enforced
  obtain ⟨b, hb, hbscope, hborder⟩ := hheld v hv
  have hsup : Superseded ctx.prim b r :=
    ⟨(hbscope.trans hvscope).symm, Or.inl (lt_of_lt_of_le hvorder hborder)⟩
  obtain ⟨p, hp⟩ := (LookupContext.offered_admissible hoffered).lifetime
  have hnopath : ¬ l.guard.path.isSome := by
    rw [← Option.not_isNone, hlinv.no_path]
    decide
  have hguarded : Guarded l.guard .missing e.nowMs held :=
    ⟨henf.later hclock, fun hp => absurd hp hnopath⟩
  exact hguarded.refuses hb hsup hp hunexpired .written hres

/-! ### Two updates -/

/-- A public-swarm lookup for one manifest. -/
def sampleContext : LookupContext where
  prim := trustingPrimitives
  revocations := ⟨[]⟩
  activeAdapter := none
  manifest := some (sampleDigest, .obj [])

/-- A finished update that accepted the announcement issued at 1000, and the start of another. -/
def secondUpdate : List RoutingEvent :=
  [.begin, .entry (sampleEntry 1000 1500), .finish, .begin]

theorem updates_never_go_back_at_newer_announcement :
    ∃ s, (routingMachine sampleContext).Reach (ForgetsNothing sampleContext)
        (RoutingRun.initial 0) s ∧ s.log ≠ [] ∧ NeverBack sampleContext s (sampleEntry 1100 1600) := by
  have hview : ((routingMachine sampleContext).run (RoutingRun.initial 0) secondUpdate).map
      (fun s => (s.clockMs, s.log.map fun a => ofLex a.order)) = some (1500, [(1000, 0)]) := by
    decide +kernel
  have hoffered : (sampleContext.offered (sampleEntry 1100 1600)).map (fun r => ofLex r.order) =
      some (1100, 0) := by
    decide +kernel
  obtain ⟨s, hrun, hs⟩ := Option.map_eq_some_iff.mp hview
  obtain ⟨hclock, hlog⟩ := Prod.mk.inj hs
  -- the log is empty until the first update finishes
  have halong : (routingMachine sampleContext).Along (ForgetsNothing sampleContext)
      (RoutingRun.initial 0) secondUpdate := by
    refine ⟨trivial, fun s₁ h₁ => ⟨?_, fun s₂ _ => ⟨trivial, fun s₃ _ => ⟨trivial, fun s₄ _ =>
      trivial⟩⟩⟩⟩
    obtain rfl := Option.some.inj h₁
    exact fun l r a _ _ ha => absurd ha (List.not_mem_nil)
  have hreach := Machine.reach_of_run hrun halong
  refine ⟨s, hreach, fun hnil => ?_, updates_never_go_back sampleContext 0 hreach _
    (by rw [hclock]; decide) fun l r a _ hr ha _ hlt => ?_⟩
  · rw [hnil] at hlog
    cases hlog
  · have hr' : ofLex r.order = (1100, 0) := by
      rw [hr] at hoffered
      exact Option.some.inj hoffered
    have ha' : ofLex a.order ∈ s.log.map fun a => ofLex a.order := List.mem_map_of_mem ha
    rw [hlog, List.mem_singleton] at ha'
    have hle : (ofLex r.order).1 ≤ (ofLex a.order).1 := issued_le_of_order_le hlt.le
    rw [hr', ha'] at hle
    exact absurd hle (by decide)

/-- The state in which the second update starts. -/
def secondUpdateState : Option RoutingRun :=
  (routingMachine sampleContext).run (RoutingRun.initial 0) secondUpdate

/-- **An update goes back.** The second update accepts, and lists, an announcement that is older than
the one the first update accepted from the same identity, and still valid. -/
theorem update_goes_back :
    ∃ s e, (routingMachine sampleContext).Reach Machine.always (RoutingRun.initial 0) s ∧
      s.clockMs ≤ e.nowMs ∧ (s.lookup.bind fun l => (l.read sampleContext e).listed).isSome ∧
      ¬ NeverBack sampleContext s e := by
  have hpast : secondUpdateState.map
      (fun s => (s.clockMs, s.log.map fun a => (a.scope, ofLex a.order))) =
      some (1500, [(("worker_announcement", sampleKeyId), (1000, 0))]) := by
    decide +kernel
  obtain ⟨s, hrun, hs⟩ := Option.map_eq_some_iff.mp hpast
  obtain ⟨hclock, hlog⟩ := Prod.mk.inj hs
  have hlisted : (secondUpdateState.bind RoutingRun.lookup).map
      (fun l => (l.read sampleContext (sampleEntry 900 1600)).listed.isSome) = some true := by
    decide +kernel
  have haccepted : (secondUpdateState.bind RoutingRun.lookup).bind
      (fun l => (l.read sampleContext (sampleEntry 900 1600)).accepted.map fun r =>
        (r.scope, ofLex r.order, r.expiresAtMs)) =
      some (("worker_announcement", sampleKeyId), (900, 0), 2900) := by
    decide +kernel
  rw [hrun, Option.bind_some] at hlisted haccepted
  obtain ⟨l, hl, hlisted⟩ := Option.map_eq_some_iff.mp hlisted
  rw [hl, Option.bind_some] at haccepted
  obtain ⟨r, hr, hfields⟩ := Option.map_eq_some_iff.mp haccepted
  obtain ⟨hscope, hfields⟩ := Prod.mk.inj hfields
  obtain ⟨horder, hexpires⟩ := Prod.mk.inj hfields
  obtain ⟨a, ha, hview⟩ : ∃ a ∈ s.log, (a.scope, ofLex a.order) =
      (("worker_announcement", sampleKeyId), (1000, 0)) := by
    rw [← List.mem_map, hlog]
    exact List.mem_singleton_self _
  obtain ⟨hascope, haorder⟩ := Prod.mk.inj hview
  refine ⟨s, sampleEntry 900 1600, Machine.reach_always_of_run hrun, by rw [hclock]; decide, ?_,
    fun hnever => ?_⟩
  · rw [hl]
    exact hlisted
  · refine hnever l r a hl hr (by rw [hexpires]; decide) ha (hscope.trans hascope.symm) ?_
    rw [Prod.Lex.lt_iff]
    rw [horder, haorder]
    exact Or.inl (by decide)

end Drift.Client
