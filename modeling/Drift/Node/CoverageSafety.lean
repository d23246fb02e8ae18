import Drift.Node.CoverageDiscovery

/-!
# Safety of the shared guard

The invariant of a target's run and what it gives. The log is read twice: the parent's memory enforces
the demand records of the log, because only the parent accepts demand, and the file enforces the whole
log together with everything the parent holds. The second part is what a demand read can destroy, and
`ParentUpToDate` is what it needs (`enforcing_of_upToDate`).
-/

namespace Drift.Node

open Drift.Lib Drift.Identity Drift.Dht

/-- The demand records of a log. -/
def demandLog (log : List Accepted) : List Accepted :=
  log.filter fun a => a.scope.1 = "route_demand"

theorem mem_demandLog {log : List Accepted} {a : Accepted} :
    a ∈ demandLog log ↔ a ∈ log ∧ a.scope ∈ demandScopes := by
  unfold demandLog demandScopes
  rw [List.mem_filter, decide_eq_true_eq]
  exact Iff.rfl

/-- The invariant of a target's run. -/
structure CoverageRun.Inv (s : CoverageRun) : Prop where
  path : s.replayGuard.path.isSome
  /-- A lookup and a demand read never overlap. -/
  exclusive : s.lookup.isSome → s.reading = none
  /-- The parent's memory enforces the demand records. -/
  memory : Enforcing s.replayGuard.latest s.clockMs (demandLog s.log)
  /-- The file enforces the log and what the parent holds. -/
  disk : s.file.Enforces s.clockMs (marks s.replayGuard.latest ++ s.log)
  /-- So does the copy of a running lookup. -/
  copy : ∀ c, s.lookup = some c →
    c.path.isSome ∧ Guarded c s.file s.clockMs (marks s.replayGuard.latest ++ s.log)
  /-- The copy keeps the parent's entries of the file. -/
  copy_keeps : ∀ c d, s.lookup = some c → s.file.Holds d → Keeps demandScopes d c.latest s.clockMs

theorem CoverageRun.Inv.initial {ctx : CoverageContext} {s : CoverageRun} (h : s.Initial ctx) :
    s.Inv := by
  obtain ⟨path, maxEntries, hpos, hcreate⟩ := h.created
  unfold ReplayGuard.create at hcreate
  obtain ⟨latest, hload, heq⟩ := bind_eq_ok.mp hcreate
  have hguard : s.replayGuard = ⟨some path, maxEntries, hpos, latest⟩ := (Except.ok.inj heq).symm
  have hguarded := Guarded.load h.written rfl hload
  refine ⟨by rw [hguard]; rfl, fun _ => h.idle.2, ?_, ?_, ?_, ?_⟩
  · rw [hguard, h.log]
    exact hguarded.memory
  · rw [hguard, h.log]
    exact hguarded.disk rfl
  · intro c hc
    rw [h.idle.1] at hc
    cases hc
  · intro c d hc
    rw [h.idle.1] at hc
    cases hc

/-- The clock alone changes nothing. -/
theorem CoverageRun.Inv.later {s : CoverageRun} (h : s.Inv) {nowMs : Int} (hle : s.clockMs ≤ nowMs) :
    { s with clockMs := nowMs }.Inv where
  path := h.path
  exclusive := h.exclusive
  memory := h.memory.later hle
  disk := h.disk.later hle
  copy := fun c hc => ⟨(h.copy c hc).1, (h.copy c hc).2.later hle⟩
  copy_keeps := fun c d hc hd => (h.copy_keeps c d hc hd).later hle

/-! ### The steps of a lookup -/

/-- A copy that was pickled and reloaded. -/
theorem unpickle_ok {prim : Primitives} {g c : ReplayGuard} {file : HistoryFile} {nowMs : Int}
    (hpath : g.path.isSome) (h : ReplayGuard.unpickle prim g file nowMs = .ok c) :
    ∃ latest, g.load prim file nowMs = .ok latest ∧ c = { g with latest } := by
  unfold ReplayGuard.unpickle at h
  rw [if_neg (by rw [Option.isNone_iff_eq_none]; rintro hnone; simp [hnone] at hpath)] at h
  obtain ⟨latest, hload, heq⟩ := bind_eq_ok.mp h
  exact ⟨latest, hload, (Except.ok.inj heq).symm⟩

/-- A lookup starts from what the file holds. -/
theorem CoverageRun.Inv.beginLookup {prim : Primitives} {s : CoverageRun} (h : s.Inv)
    (hidle : s.reading.isNone) {nowMs : Int} (hle : s.clockMs ≤ nowMs) {c : ReplayGuard}
    (hcopy : ReplayGuard.unpickle prim s.replayGuard s.file nowMs = .ok c) :
    { s with lookup := some c, clockMs := nowMs }.Inv := by
  obtain ⟨latest, hload, rfl⟩ := unpickle_ok h.path hcopy
  have hlater := h.later hle
  refine ⟨h.path, fun _ => Option.isNone_iff_eq_none.mp hidle, hlater.memory, hlater.disk, ?_, ?_⟩
  · intro c hc
    obtain rfl := Option.some.inj hc
    exact ⟨h.path, Guarded.load hlater.disk h.path hload⟩
  · intro c d hc hd
    obtain rfl := Option.some.inj hc
    have hlive := Keeps.live demandScopes d nowMs
    exact hlive.congr (fun _ => rfl) (lookup_load hd h.path hload)

/-- What the check of an announcement does to the parent's entries of the file: the copy still keeps
them. -/
theorem keeps_after_announcement {prim : Primitives} {c : ReplayGuard} {file : HistoryFile}
    {nowMs : Int} (outcome : WriteOutcome) {r : SignedRecord} (hpath : c.path.isSome)
    (hkind : r.scope ∉ demandScopes)
    (hkeeps : ∀ d, file.Holds d → Keeps demandScopes d c.latest nowMs) :
    ∀ d, (c.check prim file nowMs outcome r).2.2.Holds d →
      Keeps demandScopes d (c.check prim file nowMs outcome r).2.1.latest nowMs := by
  have hwritten : ∀ d, (snapshot (admitted (live nowMs c.latest) r.scope (r.watermark prim))).Holds d →
      ∀ scope, d.lookup scope =
        (admitted (live nowMs c.latest) r.scope (r.watermark prim)).lookup scope :=
    fun d hd => hd.lookup_eq (Or.inr rfl)
  rcases check_cases prim c file nowMs outcome r with
    ⟨e, heq⟩ | ⟨-, ⟨e, -, -, heq⟩ | ⟨file', heq, hfile⟩⟩ <;> rw [heq] <;> intro d hd
  · exact hkeeps d hd
  · -- the file has the refused announcement, which is not one of the parent's entries
    intro scope hs w hw _
    have hne : scope ≠ r.scope := fun heq => hkind (heq ▸ hs)
    have hlive : (live nowMs c.latest).lookup scope = some w := by
      rw [hwritten d hd] at hw
      unfold admitted at hw
      split at hw
      · rwa [AList.lookup_insert_ne hne] at hw
      · exact hw
    exact ⟨w, (live_of_lookup hlive).1, Or.inr ⟨rfl, rfl⟩⟩
  · rcases hfile with ⟨rfl, -, -⟩ | ⟨rfl, hnone | hsame⟩
    · exact (Keeps.refl demandScopes _ nowMs).congr (hwritten d hd) fun _ => rfl
    · rw [Option.isNone_iff_eq_none] at hnone
      exact absurd hpath (by simp [hnone])
    · have hkeep := hkeeps d hd
      rw [hsame] at hkeep
      exact hkeep

/-- An announcement is not one of the parent's records. -/
theorem announcement_scope {r : SignedRecord} {currentMs : Int}
    (h : Admissible r "worker_announcement" currentMs) : r.scope ∉ demandScopes := by
  intro hmem
  exact absurd (h.kind.symm.trans hmem) (by decide)

/-- **One entry of a lookup preserves the invariant.** -/
theorem CoverageRun.Inv.entry {ctx : CoverageContext} {s : CoverageRun} (h : s.Inv) {c : ReplayGuard}
    (hc : s.lookup = some c) (e : Entry) (outcome : WriteOutcome) (hle : s.clockMs ≤ e.nowMs)
    {result : EntryResult} (hresult : ctx.lookupContext.readEntry e outcome c s.file = result) :
    { s with lookup := some result.guard, file := result.file, clockMs := e.nowMs,
             log := logged ctx.prim result.accepted s.log }.Inv := by
  have hlater := h.later hle
  obtain ⟨hcpath, hguarded⟩ := hlater.copy c hc
  have hpass : PassesGuard ctx.prim (ctx.lookupContext.offered e) result.accepted c s.file e.nowMs
      outcome result.guard result.file := hresult ▸ ctx.lookupContext.readEntry_cases e outcome c s.file
  have hadm : ∀ r, ctx.lookupContext.offered e = some r →
      Admissible r "worker_announcement" e.validateMs :=
    fun r hr => LookupContext.offered_admissible hr
  obtain ⟨hpath, hguarded'⟩ := hguarded.passes hpass hadm
  have hpath' : result.guard.path.isSome := hpath ▸ hcpath
  have hlog : Guarded result.guard result.file e.nowMs
      (marks s.replayGuard.latest ++ logged ctx.prim result.accepted s.log) := by
    refine hguarded'.sublog fun a ha => mem_logged.mpr ?_
    rcases List.mem_append.mp ha with ha | ha
    · exact Or.inr (List.mem_append_left _ ha)
    · exact (mem_logged.mp ha).imp_right (List.mem_append_right _)
  refine ⟨h.path, fun _ => h.exclusive (by rw [hc]; rfl), ?_, ?_, ?_, ?_⟩
  · -- what the lookup accepted is not demand
    refine hlater.memory.sublog fun a ha => ?_
    obtain ⟨hmem, hscope⟩ := mem_demandLog.mp ha
    rcases mem_logged.mp hmem with ⟨r, hr, rfl⟩ | hmem
    · rcases hpass with ⟨-, hnone, -⟩ | ⟨r', hoffered, -, -, ⟨_, -, hnone⟩ | ⟨-, hsome⟩⟩
      · exact absurd (hr.symm.trans hnone) (by simp)
      · exact absurd (hr.symm.trans hnone) (by simp)
      · obtain rfl : r = r' := Option.some.inj (hr.symm.trans hsome)
        exact absurd hscope (announcement_scope (hadm r hoffered))
    · exact mem_demandLog.mpr ⟨hmem, hscope⟩
  · exact (hlog.disk hpath').sublog fun a ha => List.mem_append_right _ ha
  · intro c' hc'
    obtain rfl := Option.some.inj hc'
    exact ⟨hpath', hlog⟩
  · intro c' d hc' hd
    obtain rfl := Option.some.inj hc'
    have hold := fun d hd => hlater.copy_keeps c d hc hd
    rcases hpass with ⟨-, -, hg, hf⟩ | ⟨r, hoffered, hg, hf, -⟩
    · rw [hg]
      exact hold d (hf ▸ hd)
    · rw [hg]
      exact keeps_after_announcement outcome hcpath (announcement_scope (hadm r hoffered)) hold d
        (hf ▸ hd)

/-! ### The steps of a demand read -/

/-- **What the condition gives.** A parent that is up to date enforces the whole log. -/
theorem enforcing_of_upToDate {latest d : Dict Scope Watermark} {nowMs : Int} {log : List Accepted}
    (hmemory : Enforcing latest nowMs (demandLog log))
    (hfile : Enforcing d nowMs (marks latest ++ log)) (hkeeps : Keeps demandScopesᶜ d latest nowMs) :
    Enforcing latest nowMs (marks latest ++ log) where
  retained := hmemory.retained
  guards := by
    intro a ha
    rcases List.mem_append.mp ha with hmark | hlog
    · exact hmemory.marks.guards a (List.mem_append_left _ hmark)
    by_cases hscope : a.scope ∈ demandScopes
    · exact hmemory.guards a (mem_demandLog.mpr ⟨hlog, hscope⟩)
    · exact (hfile.guards a ha).of_keeps hscope hkeeps hmemory.retained

/-- What a check of the parent leaves on disk, if the parent is up to date whenever it writes. -/
theorem disk_after_demand {prim : Primitives} {g : ReplayGuard} {file : HistoryFile} {nowMs : Int}
    (outcome : WriteOutcome) {r : SignedRecord} {log : List Accepted} (hpath : g.path.isSome)
    (hret : (r.watermark prim).retainUntilMs = (r.watermark prim).issuedAtMs + ttlMs r.scope)
    (hmemory : Enforcing g.latest nowMs (demandLog log))
    (hdisk : file.Enforces nowMs (marks g.latest ++ log))
    (hok : ∀ d, compareWatermark ((live nowMs g.latest).lookup r.scope) (r.watermark prim) = .ok () →
      g.changes nowMs r.scope (r.watermark prim) → file.Holds d →
      Keeps demandScopesᶜ d g.latest nowMs) :
    (g.check prim file nowMs outcome r).2.2.Enforces nowMs
      (marks (g.check prim file nowMs outcome r).2.1.latest ++
        logAfter prim (g.check prim file nowMs outcome r).1 r log) := by
  obtain ⟨d, hholds, hfile⟩ := hdisk
  -- a check that writes is one of a parent that is up to date
  have hfull : compareWatermark ((live nowMs g.latest).lookup r.scope) (r.watermark prim) = .ok () →
      g.changes nowMs r.scope (r.watermark prim) →
      Enforcing (admitted (live nowMs g.latest) r.scope (r.watermark prim)) nowMs
        (marks g.latest ++ log) := fun hcmp hch =>
    ((enforcing_of_upToDate hmemory hfile (hok d hcmp hch hholds)).live).admitted hret
  rcases check_cases prim g file nowMs outcome r with
    ⟨e, heq⟩ | ⟨hcmp, ⟨e, -, hch, heq⟩ | ⟨file', heq, hafter⟩⟩ <;> rw [heq]
  · exact ⟨d, hholds, hfile⟩
  · exact (hfull hcmp hch).written
  have hmark := mem_marks_admitted hcmp
  rcases hafter with ⟨rfl, -, hch⟩ | ⟨rfl, hnone | hsame⟩
  · refine ((hfull hcmp hch).marks.sublog fun a ha => ?_).written
    rcases List.mem_append.mp ha with ha | ha
    · exact List.mem_append_left _ ha
    rcases List.mem_cons.mp ha with rfl | ha
    · exact List.mem_append_left _ hmark
    · exact List.mem_append_right _ (List.mem_append_right _ ha)
  · rw [Option.isNone_iff_eq_none] at hnone
    exact absurd hpath (by simp [hnone])
  · refine ⟨d, hholds, hfile.sublog fun a ha => ?_⟩
    rw [← hsame] at hmark ha
    rcases List.mem_append.mp ha with ha | ha
    · exact List.mem_append_left _ ha
    rcases List.mem_cons.mp ha with rfl | ha
    · exact List.mem_append_left _ hmark
    · exact List.mem_append_right _ ha

/-- **One record of a demand read preserves the invariant**, if the parent is up to date whenever it
writes. -/
theorem CoverageRun.Inv.demand {ctx : CoverageContext} {s : CoverageRun} (h : s.Inv)
    {read read' : DemandRead} (hread : s.reading = some read) (item : DemandItem)
    (outcome : WriteOutcome) (hle : s.clockMs ≤ item.nowMs)
    (hok : ParentUpToDate ctx s (.demand item outcome)) {result : DemandResult}
    (hresult : ctx.readDemand read item outcome s.replayGuard s.file = result) :
    { s with replayGuard := result.guard, file := result.file, clockMs := item.nowMs,
             reading := some read', log := logged ctx.prim result.accepted s.log }.Inv := by
  have hlater := h.later hle
  have hpass : PassesGuard ctx.prim (ctx.offeredDemand read item) result.accepted s.replayGuard s.file
      item.nowMs outcome result.guard result.file :=
    hresult ▸ ctx.readDemand_cases read item outcome s.replayGuard s.file
  have hadm : ∀ r, ctx.offeredDemand read item = some r → Admissible r "route_demand" read.nowMs :=
    fun r hr => CoverageContext.offeredDemand_admissible hr
  have hnolookup : s.lookup = none := by
    by_contra hne
    have := h.exclusive (Option.isSome_iff_ne_none.mpr hne)
    rw [hread] at this
    cases this
  have hguarded : Guarded s.replayGuard s.file item.nowMs (demandLog s.log) := by
    refine ⟨hlater.memory, fun _ => hlater.disk.sublog fun a ha => ?_⟩
    rcases List.mem_append.mp ha with ha | ha
    · exact List.mem_append_left _ ha
    · exact List.mem_append_right _ (mem_demandLog.mp ha).1
  obtain ⟨hpath, hguarded'⟩ := hguarded.passes hpass hadm
  refine ⟨by rw [hpath]; exact h.path, fun hsome => ?_, ?_, ?_, ?_, ?_⟩
  · rw [hnolookup] at hsome
    cases hsome
  · refine hguarded'.memory.sublog fun a ha => ?_
    obtain ⟨hmem, hscope⟩ := mem_demandLog.mp ha
    exact mem_logged.mpr ((mem_logged.mp hmem).imp_right fun hm => mem_demandLog.mpr ⟨hm, hscope⟩)
  · rcases hpass with ⟨-, hnone, hg, hf⟩ | ⟨r, hoffered, hg, hf, hres⟩
    · rw [hnone, hg, hf]
      exact hlater.disk
    · obtain ⟨p, hp⟩ := (hadm r hoffered).lifetime
      have hafter := disk_after_demand outcome h.path (watermark_retained ctx.prim hp) hlater.memory
        hlater.disk fun d hcmp hch hd => hok read r d hread hoffered hcmp hch hd
      rw [hg, hf]
      rcases hres with ⟨e, hanswer, hacc⟩ | ⟨hanswer, hacc⟩ <;>
        · rw [hanswer] at hafter
          rw [hacc]
          exact hafter
  · intro c hc
    rw [hnolookup] at hc
    cases hc
  · intro c d hc
    rw [hnolookup] at hc
    cases hc

/-! ### Runs -/

/-- **Every step preserves the invariant**, if demand reads meet the condition. -/
theorem CoverageRun.Inv.step {ctx : CoverageContext} {s s' : CoverageRun} {ev : CoverageEvent}
    (h : s.Inv) (hok : ParentUpToDate ctx s ev) (hstep : s.next ctx ev = some s') : s'.Inv := by
  cases ev with
  | beginLookup nowMs =>
    unfold CoverageRun.next at hstep
    dsimp only at hstep
    split at hstep
    · next hen =>
      cases hcopy : ReplayGuard.unpickle ctx.prim s.replayGuard s.file nowMs with
      | error e =>
        rw [hcopy] at hstep
        obtain rfl := Option.some.inj hstep
        exact h.later hen.2.2
      | ok c =>
        rw [hcopy] at hstep
        obtain rfl := Option.some.inj hstep
        exact h.beginLookup hen.2.1 hen.2.2 hcopy
    · cases hstep
  | entry e outcome =>
    unfold CoverageRun.next at hstep
    cases hc : s.lookup with
    | none => simp [hc] at hstep
    | some c =>
      simp only [hc] at hstep
      split at hstep
      · next hle =>
        obtain rfl := Option.some.inj hstep
        exact h.entry hc e outcome hle rfl
      · cases hstep
  | finishLookup =>
    unfold CoverageRun.next at hstep
    dsimp only at hstep
    split at hstep
    · obtain rfl := Option.some.inj hstep
      exact ⟨h.path, fun hsome => absurd hsome (by simp), h.memory, h.disk,
        fun c hc => absurd hc (by simp), fun c d hc => absurd hc (by simp)⟩
    · cases hstep
  | beginRead nowMs localKeys size =>
    unfold CoverageRun.next at hstep
    dsimp only at hstep
    split at hstep
    · next hen =>
      obtain rfl := Option.some.inj hstep
      have hlater := h.later hen.2.2.1
      have hnone : s.lookup = none := Option.isNone_iff_eq_none.mp hen.1
      exact ⟨hlater.path, fun hsome => absurd hsome (by simp [hnone]), hlater.memory, hlater.disk,
        hlater.copy, hlater.copy_keeps⟩
    · cases hstep
  | demand item outcome =>
    unfold CoverageRun.next at hstep
    cases hread : s.reading with
    | none => simp [hread] at hstep
    | some read =>
      simp only [hread] at hstep
      split at hstep
      · next hen =>
        obtain rfl := Option.some.inj hstep
        exact h.demand hread item outcome hen.1 hok rfl
      · cases hstep
  | finishRead =>
    unfold CoverageRun.next at hstep
    dsimp only at hstep
    split at hstep
    · obtain rfl := Option.some.inj hstep
      exact ⟨h.path, fun _ => rfl, h.memory, h.disk, h.copy, h.copy_keeps⟩
    · cases hstep

/-- The invariant refuses what is superseded, on both sides. -/
theorem CoverageRun.Inv.inForce {ctx : CoverageContext} {s : CoverageRun} (h : s.Inv)
    {ev : CoverageEvent} {s' : CoverageRun} (hstep : s.next ctx ev = some s') : InForce ctx s ev := by
  intro r nowMs a hacc hunexpired ha hscope hlt
  have hsup : Superseded ctx.prim a r := ⟨hscope, Or.inl hlt⟩
  cases ev with
  | entry e outcome =>
    obtain ⟨c, hc, hacc⟩ := Option.bind_eq_some_iff.mp hacc
    obtain ⟨r', hr', heq⟩ := Option.map_eq_some_iff.mp hacc
    obtain ⟨rfl, rfl⟩ := Prod.mk.inj heq
    have hle : s.clockMs ≤ e.nowMs := by
      unfold CoverageRun.next at hstep
      simp only [hc] at hstep
      by_contra hnot
      rw [if_neg hnot] at hstep
      cases hstep
    have hpass : PassesGuard ctx.prim (ctx.lookupContext.offered e) _ c s.file e.nowMs
      outcome _ _ := ctx.lookupContext.readEntry_cases e outcome c s.file
    rcases hpass with ⟨-, hnone, -⟩ | ⟨r'', hoffered, -, -, ⟨_, -, hnone⟩ | ⟨hanswer, hsome⟩⟩
    · exact absurd (hr'.symm.trans hnone) (by simp)
    · exact absurd (hr'.symm.trans hnone) (by simp)
    · obtain rfl : r' = r'' := Option.some.inj (hr'.symm.trans hsome)
      obtain ⟨p, hp⟩ := (LookupContext.offered_admissible hoffered).lifetime
      exact ((h.copy c hc).2.later hle).refuses (List.mem_append_right _ ha) hsup hp hunexpired
        outcome hanswer
  | demand item outcome =>
    obtain ⟨read, hread, hacc⟩ := Option.bind_eq_some_iff.mp hacc
    obtain ⟨r', hr', heq⟩ := Option.map_eq_some_iff.mp hacc
    obtain ⟨rfl, rfl⟩ := Prod.mk.inj heq
    have hle : s.clockMs ≤ item.nowMs := by
      unfold CoverageRun.next at hstep
      simp only [hread] at hstep
      by_contra hnot
      rw [if_neg fun hen => hnot hen.1] at hstep
      cases hstep
    rcases ctx.readDemand_cases read item outcome s.replayGuard s.file with
      ⟨-, hnone, -⟩ | ⟨r'', hoffered, -, -, ⟨_, -, hnone⟩ | ⟨hanswer, hsome⟩⟩
    · exact absurd (hr'.symm.trans hnone) (by simp)
    · exact absurd (hr'.symm.trans hnone) (by simp)
    · obtain rfl : r' = r'' := Option.some.inj (hr'.symm.trans hsome)
      have hadm := CoverageContext.offeredDemand_admissible hoffered
      obtain ⟨p, hp⟩ := hadm.lifetime
      have hmem : a ∈ demandLog s.log := by
        refine mem_demandLog.mpr ⟨ha, ?_⟩
        rw [← hscope]
        exact hadm.kind
      have hdisk : s.replayGuard.path.isSome →
          s.file.Enforces s.clockMs (marks s.replayGuard.latest ++ demandLog s.log) :=
        fun _ => h.disk.sublog fun b hb => by
          rcases List.mem_append.mp hb with hb | hb
          · exact List.mem_append_left _ hb
          · exact List.mem_append_right _ (mem_demandLog.mp hb).1
      have hguarded : Guarded s.replayGuard s.file s.clockMs (demandLog s.log) := ⟨h.memory, hdisk⟩
      exact (hguarded.later hle).refuses hmem hsup hp hunexpired outcome hanswer
  | _ => cases hacc

/-- A check leaves the file, or writes what keeps the entries of a guard that keeps the file's. -/
theorem dropsNothing_of_check {prim : Primitives} {g : ReplayGuard} {file : HistoryFile}
    {nowMs : Int} (outcome : WriteOutcome) {r : SignedRecord} {scopes : Set Scope}
    (hret : Retained g.latest) (hfile : ∀ d, file.Holds d → Retained d)
    (hkeeps : ∀ d, compareWatermark ((live nowMs g.latest).lookup r.scope) (r.watermark prim) = .ok () →
      g.changes nowMs r.scope (r.watermark prim) → file.Holds d → Keeps scopes d g.latest nowMs)
    {d d' : Dict Scope Watermark} (hd : file.Holds d)
    (hd' : (g.check prim file nowMs outcome r).2.2.Holds d') : Keeps scopes d d' nowMs := by
  have hsame : ∀ {d'}, file.Holds d' → Keeps scopes d d' nowMs := fun hd' =>
    (Keeps.refl scopes d nowMs).congr (fun _ => rfl) fun scope => hd'.lookup_eq hd scope
  have hnew : compareWatermark ((live nowMs g.latest).lookup r.scope) (r.watermark prim) = .ok () →
      g.changes nowMs r.scope (r.watermark prim) → ∀ {d'},
      (snapshot (admitted (live nowMs g.latest) r.scope (r.watermark prim))).Holds d' →
      Keeps scopes d d' nowMs := by
    intro hcmp hch d' hd'
    have hkept := (hkeeps d hcmp hch hd).trans
      (Keeps.checked scopes hret nowMs r.scope (r.watermark prim)) (hfile d hd) hret
    exact hkept.congr (fun _ => rfl) fun scope => hd'.lookup_eq (Or.inr rfl) scope
  rcases check_cases prim g file nowMs outcome r with
    ⟨e, heq⟩ | ⟨hcmp, ⟨e, -, hch, heq⟩ | ⟨file', heq, hafter⟩⟩ <;> rw [heq] at hd'
  · exact hsame hd'
  · exact hnew hcmp hch hd'
  · rcases hafter with ⟨rfl, -, hch⟩ | ⟨rfl, -⟩
    · exact hnew hcmp hch hd'
    · exact hsame hd'

/-- **No write drops an entry of the other side**, if demand reads meet the condition. -/
theorem CoverageRun.Inv.dropsNothing {ctx : CoverageContext} {s s' : CoverageRun}
    {ev : CoverageEvent} (h : s.Inv) (hok : ParentUpToDate ctx s ev)
    (hstep : s.next ctx ev = some s') : DropsNothing s ev s' := by
  intro d d' hd hd'
  have hfile : ∀ d, s.file.Holds d → Retained d := by
    intro d hd
    obtain ⟨d₀, hd₀, henf⟩ := h.disk
    exact henf.retained.congr fun scope => hd.lookup_eq hd₀ scope
  have hsame : ∀ {d'} {nowMs : Int}, s.file.Holds d' → Keeps (otherSide ev) d d' nowMs :=
    fun {d'} {nowMs} hd' => (Keeps.refl (otherSide ev) d nowMs).congr (fun _ => rfl)
      fun scope => hd'.lookup_eq hd scope
  cases ev with
  | entry e outcome =>
    unfold CoverageRun.next at hstep
    cases hc : s.lookup with
    | none => simp [hc] at hstep
    | some c =>
      simp only [hc] at hstep
      split at hstep
      · next hle =>
        obtain rfl := Option.some.inj hstep
        have hpass : PassesGuard ctx.prim (ctx.lookupContext.offered e) _ c s.file e.nowMs
          outcome _ _ := ctx.lookupContext.readEntry_cases e outcome c s.file
        rcases hpass with ⟨-, -, -, hf⟩ | ⟨r, -, -, hf, -⟩
        · exact hsame (hf ▸ hd')
        · exact dropsNothing_of_check outcome (h.copy c hc).2.memory.retained hfile
            (fun d _ _ hd => (h.copy_keeps c d hc hd).later hle) hd (hf ▸ hd')
      · cases hstep
  | demand item outcome =>
    unfold CoverageRun.next at hstep
    cases hread : s.reading with
    | none => simp [hread] at hstep
    | some read =>
      simp only [hread] at hstep
      split at hstep
      · obtain rfl := Option.some.inj hstep
        rcases ctx.readDemand_cases read item outcome s.replayGuard s.file with
          ⟨-, -, -, hf⟩ | ⟨r, hoffered, -, hf, -⟩
        · exact hsame (hf ▸ hd')
        · exact dropsNothing_of_check outcome h.memory.retained hfile
            (fun d hcmp hch hd => hok read r d hread hoffered hcmp hch hd) hd (hf ▸ hd')
      · cases hstep
  | beginLookup nowMs =>
    unfold CoverageRun.next at hstep
    dsimp only at hstep
    split at hstep
    · split at hstep <;> obtain rfl := Option.some.inj hstep <;> exact hsame hd'
    · cases hstep
  | finishLookup =>
    unfold CoverageRun.next at hstep
    dsimp only at hstep
    split at hstep
    · obtain rfl := Option.some.inj hstep
      exact hsame hd'
    · cases hstep
  | beginRead nowMs localKeys size =>
    unfold CoverageRun.next at hstep
    dsimp only at hstep
    split at hstep
    · obtain rfl := Option.some.inj hstep
      exact hsame hd'
    · cases hstep
  | finishRead =>
    unfold CoverageRun.next at hstep
    dsimp only at hstep
    split at hstep
    · obtain rfl := Option.some.inj hstep
      exact hsame hd'
    · cases hstep

/-- **Watermarks stay in force while the parent is up to date.** In a run in which every demand read
that writes meets `ParentUpToDate`, no step accepts an unexpired record that is older than an accepted
one of its scope, and no write drops a live entry of the other side. -/
theorem coverage_watermarks_in_force (ctx : CoverageContext) {s₀ s : CoverageRun}
    (hinitial : s₀.Initial ctx) (hreach : (coverageMachine ctx).Reach (ParentUpToDate ctx) s₀ s)
    (ev : CoverageEvent) (hok : ParentUpToDate ctx s ev) {s' : CoverageRun}
    (hstep : s.next ctx ev = some s') : InForce ctx s ev ∧ DropsNothing s ev s' := by
  have hinv : s.Inv := hreach.invariant (CoverageRun.Inv.initial hinitial)
    fun _ _ _ hi hok hstep => hi.step hok hstep
  exact ⟨hinv.inForce hstep, hinv.dropsNothing hok hstep⟩

/-! ### A lookup, a demand read and a lookup -/

/-- A target whose route demand is signed by the key `"k"`. -/
def sampleCoverage : CoverageContext where
  prim := trustingPrimitives
  revocations := ⟨[]⟩
  digest := sampleDigest
  executionProfile := .obj []
  routeDemandAuthorityRoots := [sampleKeyId]

/-- The target when no process wrote its file yet. -/
def freshCoverage : CoverageRun where
  replayGuard := ⟨some "history.json", maxReplayHistoryEntries, maxReplayHistoryEntries_pos, ∅⟩
  lookup := none
  reading := none
  file := .missing
  clockMs := 0
  log := []

theorem freshCoverage_initial : freshCoverage.Initial sampleCoverage where
  created := ⟨"history.json", maxReplayHistoryEntries, maxReplayHistoryEntries_pos, rfl⟩
  written := .missing 0
  idle := ⟨rfl, rfl⟩
  log := rfl

theorem coverage_watermarks_in_force_at_older_entry :
    ∃ s ev s', (coverageMachine sampleCoverage).Reach (ParentUpToDate sampleCoverage) freshCoverage s ∧
      s.next sampleCoverage ev = some s' ∧ InForce sampleCoverage s ev ∧ DropsNothing s ev s' := by
  have hrun : ((coverageMachine sampleCoverage).run freshCoverage
      [.beginLookup 1500, .entry (sampleEntry 1000 1500) .written]).isSome := by
    decide +kernel
  have hnext : (((coverageMachine sampleCoverage).run freshCoverage
      [.beginLookup 1500, .entry (sampleEntry 1000 1500) .written]).bind fun s =>
        s.next sampleCoverage (.entry (sampleEntry 900 1600) .written)).isSome := by
    decide +kernel
  obtain ⟨s, hrun⟩ := Option.isSome_iff_exists.mp hrun
  rw [hrun, Option.bind_some] at hnext
  obtain ⟨s', hstep⟩ := Option.isSome_iff_exists.mp hnext
  have hreach := Machine.reach_of_run hrun (show (coverageMachine sampleCoverage).Along
    (ParentUpToDate sampleCoverage) _ _ from ⟨trivial, fun _ _ => ⟨trivial, fun _ _ => trivial⟩⟩)
  exact ⟨s, _, s', hreach, hstep, coverage_watermarks_in_force sampleCoverage freshCoverage_initial
    hreach (.entry (sampleEntry 900 1600) .written) trivial hstep⟩

/-- A lookup that accepts the announcement issued at 1000, a demand read that accepts a demand, and
the start of another lookup. -/
def lookupReadLookup : List CoverageEvent :=
  [.beginLookup 1500, .entry (sampleEntry 1000 1500) .written, .finishLookup,
   .beginRead 1500 [] 1,
   .demand ⟨sampleKeyId, .obj (routeDemandAt 1400 2400 0).toDict, 1500⟩ .written, .finishRead,
   .beginLookup 1600]

/-- The state in which the second lookup starts. -/
def secondLookupState : Option CoverageRun :=
  (coverageMachine sampleCoverage).run freshCoverage lookupReadLookup

set_option synthInstance.maxSize 400 in
/-- **A demand read forgets an announcement.** The demand read wrote the parent's snapshot, without
the announcement the first lookup accepted, so the second lookup accepts an older one. -/
theorem demand_read_forgets_announcement :
    ∃ s ev, (coverageMachine sampleCoverage).Reach Machine.always freshCoverage s ∧
      (s.next sampleCoverage ev).isSome ∧ ¬ InForce sampleCoverage s ev := by
  have hview : (secondLookupState.bind fun s =>
        (s.accepts sampleCoverage (.entry (sampleEntry 900 1600) .written)).map fun p =>
          ((s.clockMs, s.log.map fun a => (a.scope, ofLex a.order)),
            (p.1.scope, ofLex p.1.order), (p.1.expiresAtMs, p.2))) =
      some ((1600, [(("route_demand", sampleKeyId), (1400, 0)),
          (("worker_announcement", sampleKeyId), (1000, 0))]),
        (("worker_announcement", sampleKeyId), (900, 0)), (2900, 1600)) := by
    decide +kernel
  obtain ⟨s, hrun, haccepts⟩ := Option.bind_eq_some_iff.mp hview
  obtain ⟨⟨r, nowMs⟩, hr, hfields⟩ := Option.map_eq_some_iff.mp haccepts
  simp only [Prod.mk.injEq] at hfields
  obtain ⟨⟨hclock, hlog⟩, ⟨hscope, horder⟩, hexpires, hnow⟩ := hfields
  obtain ⟨a, ha, hview⟩ : ∃ a ∈ s.log, (a.scope, ofLex a.order) =
      (("worker_announcement", sampleKeyId), (1000, 0)) := by
    rw [← List.mem_map, hlog]
    exact List.mem_cons_of_mem _ (List.mem_singleton_self _)
  obtain ⟨hascope, haorder⟩ := Prod.mk.inj hview
  obtain ⟨c, hc, -⟩ := Option.bind_eq_some_iff.mp hr
  have hnext : (s.next sampleCoverage (.entry (sampleEntry 900 1600) .written)).isSome := by
    unfold CoverageRun.next
    simp only [hc]
    rw [if_pos (by rw [hclock]; exact le_rfl)]
    rfl
  refine ⟨s, _, Machine.reach_always_of_run hrun, hnext, fun hforce => ?_⟩
  refine hforce r nowMs a hr ?_ ha (hscope.trans hascope.symm) ?_
  · rw [hexpires, hnow]
    decide
  · rw [Prod.Lex.lt_iff, horder, haorder]
    exact Or.inl (by decide)

end Drift.Node
