import Drift.Identity.GuardRun

/-!
# The history file of a replay guard

The reader of the history file is strict: an entry that fails one of its checks refuses the whole file, and
with it the guard that was to be created. So whatever the guard writes has to pass.

* `Readable`, `loadEntry_of_readable`, `readable_of_loadEntry` — the entries that the reader accepts;
* `load_snapshot` — a written file loads, with its live entries;
* `check_outcomes` — what a check of a guard with a path leaves, with the limits that a written file meets;
* `replay_history_readable` — over all runs of checks, the file can be read back, and a check that raises
  leaves the entries and the file.

The file is exchanged before its temporary name is removed. Where the removal fails the check raises with the
new file in place: it can be read back like any other, but it is not the file from before the check.
-/

namespace Drift.Identity

open Drift.Lib

/-! ### The entries that the reader accepts -/

/-- Text that the field checks accept. -/
structure IsText (prim : Primitives) (s : String) : Prop where
  nonempty : s.isEmpty = false
  nfc : prim.isNfc s = true

theorem requireText_eq_ok {prim : Primitives} {s name : String} :
    requireText prim (some (.str s)) name = .ok s ↔ IsText prim s := by
  unfold requireText
  dsimp only
  constructor
  · intro h
    split at h
    · cases h
    · rename_i hnonempty
      split at h
      · cases h
      · rename_i hnfc
        exact ⟨Bool.eq_false_iff.mpr hnonempty, by simpa using hnfc⟩
  · rintro ⟨hnonempty, hnfc⟩
    rw [hnonempty, hnfc]
    rfl

theorem isEmpty_of_isDigest {s : String} (h : isDigest s = true) : s.isEmpty = false := by
  unfold isDigest at h
  rw [Bool.and_eq_true, beq_iff_eq] at h
  rw [Bool.eq_false_iff, ne_eq, String.isEmpty_iff]
  rintro rfl
  exact absurd h.1 (by decide)

theorem requireDigest_eq_ok {prim : Primitives} {s name : String} :
    requireDigest prim (some (.str s)) name = .ok s ↔ isDigest s = true ∧ IsText prim s := by
  unfold requireDigest
  rw [bind_eq_ok]
  constructor
  · rintro ⟨t, ht, h⟩
    obtain rfl := requireText_str ht
    obtain ⟨_, hdigest, -⟩ := bind_eq_ok.mp h
    rw [refuseIf_eq_ok, Bool.not_eq_false'] at hdigest
    exact ⟨hdigest, requireText_eq_ok.mp ht⟩
  · rintro ⟨hdigest, htext⟩
    exact ⟨s, requireText_eq_ok.mpr htext, by rw [hdigest]; rfl⟩

/-- A key identifier that the field check accepts. -/
def IsKeyId (prim : Primitives) (s : String) : Prop :=
  IsText prim s ∧ ∃ digest, stripSha256 s = some digest ∧ isDigest digest = true ∧ IsText prim digest

theorem requireKeyId_eq_ok {prim : Primitives} {s name : String} :
    requireKeyId prim (some (.str s)) name = .ok s ↔ IsKeyId prim s := by
  unfold requireKeyId
  rw [bind_eq_ok]
  constructor
  · rintro ⟨t, ht, h⟩
    obtain rfl := requireText_str ht
    refine ⟨requireText_eq_ok.mp ht, ?_⟩
    split at h
    · cases h
    · rename_i digest hstrip
      obtain ⟨t', ht', -⟩ := bind_eq_ok.mp h
      obtain rfl := requireDigest_str ht'
      exact ⟨_, hstrip, requireDigest_eq_ok.mp ht'⟩
  · rintro ⟨htext, digest, hstrip, hdigest⟩
    refine ⟨s, requireText_eq_ok.mpr htext, ?_⟩
    rw [hstrip]
    dsimp only
    rw [requireDigest_eq_ok.mpr hdigest]
    rfl

/-- An entry that the reader accepts. -/
structure Readable (prim : Primitives) (e : Scope × Watermark) : Prop where
  kind : IsText prim e.1.1
  kind_length : e.1.1.length ≤ 64
  keyId : IsKeyId prim e.1.2
  issued : 0 ≤ e.2.issuedAtMs
  sequence : 0 ≤ e.2.sequence
  digest : isDigest e.2.recordDigest = true ∧ IsText prim e.2.recordDigest
  retained : e.2.issuedAtMs < e.2.retainUntilMs

/-- **A readable entry is read.** -/
theorem loadEntry_of_readable {prim : Primitives} {e : Scope × Watermark} (h : Readable prim e) :
    loadEntry prim (entryJson e) = .ok e := by
  obtain ⟨⟨kind, keyId⟩, issuedAtMs, sequence, recordDigest, retainUntilMs⟩ := e
  have hissued : requireInt (some (.int issuedAtMs)) "issued_at_ms" (some 0) = .ok issuedAtMs :=
    requireInt_eq_ok.mpr ⟨rfl, h.issued⟩
  have hsequence : requireInt (some (.int sequence)) "sequence" (some 0) = .ok sequence :=
    requireInt_eq_ok.mpr ⟨rfl, h.sequence⟩
  have hretain : requireInt (some (.int retainUntilMs)) "retain_until_ms" (some 0) = .ok retainUntilMs :=
    requireInt_eq_ok.mpr ⟨rfl, h.issued.trans h.retained.le⟩
  have hlength : refuseIf (decide (kind.length > 64)) "replay history kind is too long" = .ok () :=
    refuseIf_eq_ok.mpr (decide_eq_false (not_lt.mpr h.kind_length))
  have hlate : refuseIf (decide (retainUntilMs ≤ issuedAtMs))
      "replay history entry retention ends before it was issued" = .ok () :=
    refuseIf_eq_ok.mpr (decide_eq_false (not_le.mpr h.retained))
  unfold loadEntry entryJson
  refine bind_eq_ok.mpr ⟨(), rfl, bind_eq_ok.mpr ⟨kind, requireText_eq_ok.mpr h.kind, ?_⟩⟩
  refine bind_eq_ok.mpr ⟨(), hlength, bind_eq_ok.mpr ⟨keyId, requireKeyId_eq_ok.mpr h.keyId, ?_⟩⟩
  refine bind_eq_ok.mpr ⟨issuedAtMs, hissued, bind_eq_ok.mpr ⟨sequence, hsequence, ?_⟩⟩
  refine bind_eq_ok.mpr ⟨recordDigest, requireDigest_eq_ok.mpr h.digest, ?_⟩
  exact bind_eq_ok.mpr ⟨retainUntilMs, hretain, bind_eq_ok.mpr ⟨(), hlate, rfl⟩⟩

/-- What a field check returns for a value that it accepts. -/
theorem requireText_some {prim : Primitives} {value : Option Json} {name t : String}
    (h : requireText prim value name = .ok t) : value = some (.str t) := by
  unfold requireText at h
  split at h
  · split at h
    · cases h
    · split at h
      · cases h
      · rw [Except.ok.inj h]
  · cases h

theorem requireDigest_some {prim : Primitives} {value : Option Json} {name t : String}
    (h : requireDigest prim value name = .ok t) : value = some (.str t) := by
  unfold requireDigest at h
  obtain ⟨u, hu, h⟩ := bind_eq_ok.mp h
  obtain ⟨_, -, h⟩ := bind_eq_ok.mp h
  rw [← Except.ok.inj h]
  exact requireText_some hu

theorem requireKeyId_some {prim : Primitives} {value : Option Json} {name t : String}
    (h : requireKeyId prim value name = .ok t) : value = some (.str t) := by
  unfold requireKeyId at h
  obtain ⟨u, hu, h⟩ := bind_eq_ok.mp h
  split at h
  · cases h
  · obtain ⟨_, -, h⟩ := bind_eq_ok.mp h
    rw [← Except.ok.inj h]
    exact requireText_some hu

/-- **What is read is readable.** -/
theorem readable_of_loadEntry {prim : Primitives} {entry : Json} {e : Scope × Watermark}
    (h : loadEntry prim entry = .ok e) : Readable prim e := by
  unfold loadEntry at h
  split at h
  case h_2 => cases h
  obtain ⟨_, -, h⟩ := bind_eq_ok.mp h
  obtain ⟨kind, hkind, h⟩ := bind_eq_ok.mp h
  obtain ⟨_, hlength, h⟩ := bind_eq_ok.mp h
  obtain ⟨keyId, hkeyId, h⟩ := bind_eq_ok.mp h
  obtain ⟨issuedAtMs, hissued, h⟩ := bind_eq_ok.mp h
  obtain ⟨sequence, hsequence, h⟩ := bind_eq_ok.mp h
  obtain ⟨recordDigest, hdigest, h⟩ := bind_eq_ok.mp h
  obtain ⟨retainUntilMs, -, h⟩ := bind_eq_ok.mp h
  obtain ⟨_, hlate, h⟩ := bind_eq_ok.mp h
  obtain rfl := Except.ok.inj h
  rw [requireText_some hkind] at hkind
  rw [requireKeyId_some hkeyId] at hkeyId
  rw [requireDigest_some hdigest] at hdigest
  rw [refuseIf_eq_ok, decide_eq_false_iff_not] at hlength hlate
  exact
    { kind := requireText_eq_ok.mp hkind
      kind_length := not_lt.mp hlength
      keyId := requireKeyId_eq_ok.mp hkeyId
      issued := (requireInt_eq_ok.mp hissued).2
      sequence := (requireInt_eq_ok.mp hsequence).2
      digest := requireDigest_eq_ok.mp hdigest
      retained := not_le.mp hlate }

/-! ### Dictionaries that the reader accepts -/

/-- Every entry of a dictionary is readable. -/
def AllReadable (prim : Primitives) (latest : Dict Scope Watermark) : Prop :=
  ∀ scope w, latest.lookup scope = some w → Readable prim (scope, w)

theorem AllReadable.live {prim : Primitives} {latest : Dict Scope Watermark} (h : AllReadable prim latest)
    (nowMs : Int) : AllReadable prim (live nowMs latest) :=
  fun scope w hw => h scope w (live_of_lookup hw).1

theorem AllReadable.insert {prim : Primitives} {latest : Dict Scope Watermark} (h : AllReadable prim latest)
    {scope : Scope} {w : Watermark} (hnew : Readable prim (scope, w)) :
    AllReadable prim (latest.insert scope w) := by
  intro scope' w' hw'
  rw [Dict.lookup_insert_eq] at hw'
  split at hw'
  · rename_i hscope
    obtain rfl := Option.some.inj hw'
    rw [hscope]
    exact hnew
  · exact h scope' w' hw'

theorem AllReadable.admitted {prim : Primitives} {latest : Dict Scope Watermark} (h : AllReadable prim latest)
    {scope : Scope} {w : Watermark} (hnew : Readable prim (scope, w)) :
    AllReadable prim (admitted latest scope w) := by
  unfold Identity.admitted
  split
  · exact h.insert hnew
  · exact h

/-- The loop over the entries of a file keeps what is readable. -/
theorem AllReadable.loadEntries {prim : Primitives} {nowMs : Int} :
    ∀ {entries : List Json} {acc latest : Dict Scope Watermark}, AllReadable prim acc →
      loadEntries prim nowMs acc entries = .ok latest →
      AllReadable prim latest ∧ latest.entries.length ≤ acc.entries.length + entries.length
  | [], acc, latest, hacc, h => by
    obtain rfl : acc = latest := Except.ok.inj h
    exact ⟨hacc, le_refl _⟩
  | entry :: rest, acc, latest, hacc, h => by
    unfold Identity.loadEntries at h
    obtain ⟨⟨scope, w⟩, hentry, h⟩ := bind_eq_ok.mp h
    obtain ⟨_, -, h⟩ := bind_eq_ok.mp h
    have hread : Readable prim (scope, w) := readable_of_loadEntry hentry
    have hgrown := Dict.length_insert_le scope w acc
    split at h
    · obtain ⟨hlatest, hlength⟩ := AllReadable.loadEntries (hacc.insert hread) h
      refine ⟨hlatest, ?_⟩
      rw [List.length_cons]
      omega
    · obtain ⟨hlatest, hlength⟩ := AllReadable.loadEntries hacc h
      refine ⟨hlatest, ?_⟩
      rw [List.length_cons]
      omega

/-- Readable entries of different scopes are all read. -/
theorem loadEntries_ok {prim : Primitives} {nowMs : Int} :
    ∀ {items : List (Scope × Watermark)} {acc : Dict Scope Watermark}, (∀ e ∈ items, Readable prim e) →
      (items.map Prod.fst).Nodup → (∀ e ∈ items, e.1 ∉ acc) →
      ∃ latest, loadEntries prim nowMs acc (items.map entryJson) = .ok latest
  | [], acc, _, _, _ => ⟨acc, rfl⟩
  | e :: rest, acc, hread, hscopes, hnew => by
    obtain ⟨hfirst, hrest⟩ := List.nodup_cons.mp hscopes
    have hfresh : refuseIf (decide (e.1 ∈ acc)) "replay history contains a duplicate identity scope" = .ok () :=
      refuseIf_eq_ok.mpr (decide_eq_false (hnew e (List.mem_cons_self ..)))
    have hstill : ∀ e' ∈ rest, e'.1 ∉ if e.2.retainUntilMs > nowMs then acc.insert e.1 e.2 else acc := by
      intro e' he' hmem
      split at hmem
      · rcases (AList.mem_insert _).mp hmem with heq | hold
        · exact hfirst (heq ▸ List.mem_map_of_mem he')
        · exact hnew e' (List.mem_cons_of_mem _ he') hold
      · exact hnew e' (List.mem_cons_of_mem _ he') hmem
    obtain ⟨latest, hlatest⟩ : ∃ latest, loadEntries prim nowMs
        (if e.2.retainUntilMs > nowMs then acc.insert e.1 e.2 else acc) (rest.map entryJson) = .ok latest :=
      loadEntries_ok (fun e' he' => hread e' (List.mem_cons_of_mem _ he')) hrest hstill
    refine ⟨latest, ?_⟩
    rw [List.map_cons, loadEntries]
    exact bind_eq_ok.mpr ⟨e, loadEntry_of_readable (hread e (List.mem_cons_self ..)),
      bind_eq_ok.mpr ⟨(), hfresh, hlatest⟩⟩

theorem sortedItems_perm (latest : Dict Scope Watermark) :
    (sortedItems latest).Perm (latest.entries.map fun e => (e.1, e.2)) :=
  List.perm_insertionSort _ _

theorem length_sortedItems (latest : Dict Scope Watermark) :
    (sortedItems latest).length = latest.entries.length := by
  rw [(sortedItems_perm latest).length_eq, List.length_map]

theorem sortedItems_scopes_nodup (latest : Dict Scope Watermark) :
    ((sortedItems latest).map Prod.fst).Nodup := by
  have hkeys : ((latest.entries.map fun e => (e.1, e.2)).map Prod.fst) = latest.keys := by
    rw [List.map_map]
    rfl
  rw [((sortedItems_perm latest).map Prod.fst).nodup_iff, hkeys]
  exact latest.keys_nodup

/-- A dictionary that the guard may write: its entries are readable, and it is within both limits. -/
structure Writable (prim : Primitives) (maxEntries : Nat) (latest : Dict Scope Watermark) : Prop where
  readable : AllReadable prim latest
  length : latest.entries.length ≤ maxEntries
  bytes : renderedBytes (historyDocument latest) ≤ maxReplayHistoryBytes

/-- **Reading back.** What the guard may write is loaded at any time, as its live entries. -/
theorem load_snapshot {prim : Primitives} {g : ReplayGuard} {latest : Dict Scope Watermark}
    (hpath : g.path.isSome) (h : Writable prim g.maxEntries latest) (nowMs : Int) :
    ∃ loaded, g.load prim (snapshot latest) nowMs = .ok loaded ∧
      ∀ scope, loaded.lookup scope = (live nowMs latest).lookup scope := by
  have hlength : refuseIf (decide (((sortedItems latest).map entryJson).length > g.maxEntries))
      "replay history entry list is invalid" = .ok () := by
    rw [List.length_map, length_sortedItems]
    exact refuseIf_eq_ok.mpr (decide_eq_false (not_lt.mpr h.length))
  obtain ⟨loaded, hloaded⟩ : ∃ loaded, loadEntries prim nowMs ∅ ((sortedItems latest).map entryJson) = .ok loaded :=
    loadEntries_ok (fun e he => h.readable e.1 e.2 (mem_sortedItems.mp he)) (sortedItems_scopes_nodup latest)
      fun _ _ => AList.notMem_empty _
  have hload : g.load prim (snapshot latest) nowMs = .ok loaded := by
    unfold ReplayGuard.load snapshot
    rw [isNone_path hpath, if_neg Bool.false_ne_true]
    dsimp only
    rw [if_neg (not_lt.mpr h.bytes)]
    unfold loadDocument historyDocument
    exact bind_eq_ok.mpr ⟨(), rfl, bind_eq_ok.mpr ⟨(), hlength, hloaded⟩⟩
  exact ⟨loaded, hload, lookup_load_snapshot hpath hload⟩

/-! ### What a check leaves -/

/-- A file that a write exchanges. -/
def HistoryFile.Replaceable (file : HistoryFile) : Prop :=
  file = .missing ∨ ∃ sizeBytes document, file = .regular sizeBytes document

/-- A write that comes to the exchange of the file ends as its outcome says. -/
theorem persist_replaceable {g : ReplayGuard} (hpath : g.path.isSome) {latest : Dict Scope Watermark}
    {file : HistoryFile} (hfile : file.Replaceable)
    (hbytes : renderedBytes (historyDocument latest) ≤ maxReplayHistoryBytes) :
    g.persist latest file .written = (.ok (), snapshot latest) ∧
      g.persist latest file .failed = (refuse "replay history could not be persisted safely", file) ∧
      g.persist latest file .failedAfterReplace =
        (refuse "replay history could not be persisted safely", snapshot latest) := by
  unfold ReplayGuard.persist
  rcases hfile with rfl | ⟨sizeBytes, document, rfl⟩
  · simp only [isNone_path hpath, Bool.false_eq_true, if_false, if_neg (not_lt.mpr hbytes), true_and]
    exact ⟨rfl, rfl⟩
  · simp only [isNone_path hpath, Bool.false_eq_true, if_false, if_neg (not_lt.mpr hbytes), true_and]
    exact ⟨rfl, rfl⟩

/-- Every other write raises before the exchange. -/
theorem persist_refused {g : ReplayGuard} (hpath : g.path.isSome) {latest : Dict Scope Watermark}
    {file : HistoryFile} (outcome : WriteOutcome)
    (h : ¬(file.Replaceable ∧ renderedBytes (historyDocument latest) ≤ maxReplayHistoryBytes)) :
    ∃ e, g.persist latest file outcome = (.error e, file) := by
  unfold ReplayGuard.persist
  rw [isNone_path hpath, if_neg Bool.false_ne_true]
  cases file with
  | irregularPath => exact ⟨_, rfl⟩
  | irregularDirectory =>
    dsimp only
    split
    · exact ⟨_, rfl⟩
    · exact ⟨_, rfl⟩
  | missing =>
    dsimp only
    rw [if_pos (not_le.mp fun hbytes => h ⟨.inl rfl, hbytes⟩)]
    exact ⟨_, rfl⟩
  | regular sizeBytes document =>
    dsimp only
    rw [if_pos (not_le.mp fun hbytes => h ⟨.inr ⟨_, _, rfl⟩, hbytes⟩)]
    exact ⟨_, rfl⟩

/-- The ways in which a write ends: with an error and the file as it was, with the new file, or with the new
file and an error. The last two are within the limit of the size. -/
theorem persist_outcomes {g : ReplayGuard} (hpath : g.path.isSome) (latest : Dict Scope Watermark)
    (file : HistoryFile) (outcome : WriteOutcome) :
    (∃ e, g.persist latest file outcome = (.error e, file)) ∨
      renderedBytes (historyDocument latest) ≤ maxReplayHistoryBytes ∧
        (outcome = .written ∧ g.persist latest file outcome = (.ok (), snapshot latest) ∨
          outcome = .failedAfterReplace ∧ ∃ e, g.persist latest file outcome = (.error e, snapshot latest)) := by
  by_cases h : file.Replaceable ∧ renderedBytes (historyDocument latest) ≤ maxReplayHistoryBytes
  · obtain ⟨hwritten, hfailed, hreplaced⟩ := persist_replaceable hpath h.1 h.2
    cases outcome with
    | written => exact .inr ⟨h.2, .inl ⟨rfl, hwritten⟩⟩
    | failed => exact .inl ⟨_, hfailed⟩
    | failedAfterReplace => exact .inr ⟨h.2, .inr ⟨rfl, _, hreplaced⟩⟩
  · exact .inl (persist_refused hpath outcome h)

/-- What a guard comes to remember of a watermark. -/
def ReplayGuard.remembered (g : ReplayGuard) (nowMs : Int) (scope : Scope) (w : Watermark) :
    Dict Scope Watermark :=
  admitted (live nowMs g.latest) scope w

/-- The ways in which the locked part of a check ends, for a guard with a path. It raises and leaves everything;
it accepts and there is nothing to change; or it writes what the guard is to remember, within the limits of a
file, and the write either succeeds or fails with the file in place. -/
theorem admit_outcomes {g : ReplayGuard} (hpath : g.path.isSome) (file : HistoryFile) (nowMs : Int)
    (outcome : WriteOutcome) (scope : Scope) (w : Watermark) :
    (∃ e, g.admitLocked file nowMs outcome scope w = (.error e, g, file)) ∨
      g.admitLocked file nowMs outcome scope w = (.ok (), g, file) ∨
      ((g.remembered nowMs scope w).entries.length ≤ g.maxEntries ∧
        renderedBytes (historyDocument (g.remembered nowMs scope w)) ≤ maxReplayHistoryBytes) ∧
        (outcome = .written ∧ g.admitLocked file nowMs outcome scope w =
            (.ok (), { g with latest := g.remembered nowMs scope w }, snapshot (g.remembered nowMs scope w)) ∨
          outcome = .failedAfterReplace ∧ ∃ e, g.admitLocked file nowMs outcome scope w =
            (.error e, g, snapshot (g.remembered nowMs scope w))) := by
  unfold ReplayGuard.admitLocked ReplayGuard.remembered
  dsimp only
  split
  · exact .inl ⟨_, rfl⟩
  · by_cases hlength : (admitted (live nowMs g.latest) scope w).entries.length > g.maxEntries
    · rw [if_pos hlength]
      exact .inl ⟨_, rfl⟩
    · rw [if_neg hlength]
      by_cases hchanges : g.changes nowMs scope w = true
      · rw [if_pos hchanges]
        rcases persist_outcomes hpath (admitted (live nowMs g.latest) scope w) file outcome with
          ⟨e, heq⟩ | ⟨hbytes, ⟨houtcome, heq⟩ | ⟨houtcome, e, heq⟩⟩
        · rw [heq]
          exact .inl ⟨e, rfl⟩
        · rw [heq]
          exact .inr (.inr ⟨⟨not_lt.mp hlength, hbytes⟩, .inl ⟨houtcome, rfl⟩⟩)
        · rw [heq]
          exact .inr (.inr ⟨⟨not_lt.mp hlength, hbytes⟩, .inr ⟨houtcome, e, rfl⟩⟩)
      · rw [if_neg hchanges]
        exact .inr (.inl rfl)

/-- A record has the integers that a check reads. -/
structure SignedRecord.HasOrder (r : SignedRecord) : Prop where
  issued : 0 ≤ r.issuedAtMs
  sequence : 0 ≤ r.sequence

section Write

variable {g : ReplayGuard} {file file' : HistoryFile} {nowMs : Int} {outcome : WriteOutcome} {scope : Scope}
  {w : Watermark}

/-- A check that comes to its write ends as the write does. -/
theorem admit_of_persist_ok (hcompare : compareWatermark ((live nowMs g.latest).lookup scope) w = .ok ())
    (hlength : ¬(g.remembered nowMs scope w).entries.length > g.maxEntries) (hchanges : g.changes nowMs scope w = true)
    (hpersist : g.persist (g.remembered nowMs scope w) file outcome = (.ok (), file')) :
    g.admitLocked file nowMs outcome scope w = (.ok (), { g with latest := g.remembered nowMs scope w }, file') := by
  unfold ReplayGuard.remembered at hlength hpersist ⊢
  unfold ReplayGuard.admitLocked
  dsimp only
  rw [hcompare]
  dsimp only
  rw [if_neg hlength, if_pos hchanges, hpersist]

theorem admit_of_persist_error {e : ProtocolSecurityError}
    (hcompare : compareWatermark ((live nowMs g.latest).lookup scope) w = .ok ())
    (hlength : ¬(g.remembered nowMs scope w).entries.length > g.maxEntries) (hchanges : g.changes nowMs scope w = true)
    (hpersist : g.persist (g.remembered nowMs scope w) file outcome = (.error e, file')) :
    g.admitLocked file nowMs outcome scope w = (.error e, g, file') := by
  unfold ReplayGuard.remembered at hlength hpersist
  unfold ReplayGuard.admitLocked
  dsimp only
  rw [hcompare]
  dsimp only
  rw [if_neg hlength, if_pos hchanges, hpersist]

end Write

/-- **What a check leaves**: what its locked part does, where the record has the integers that it reads. -/
theorem check_outcomes (prim : Primitives) (g : ReplayGuard) (file : HistoryFile) (nowMs : Int)
    (outcome : WriteOutcome) (r : SignedRecord) :
    (∃ e, g.check prim file nowMs outcome r = (.error e, g, file)) ∨
      r.HasOrder ∧ g.check prim file nowMs outcome r =
        g.admitLocked file nowMs outcome r.scope (r.watermark prim) := by
  unfold ReplayGuard.check
  split
  · rename_i i x q hi hx hq
    obtain rfl : r.issuedAtMs = i := intField_of_requireInt hi
    obtain rfl : r.expiresAtMs = x := intField_of_requireInt hx
    obtain rfl : r.sequence = q := intField_of_requireInt hq
    exact .inr ⟨⟨(requireInt_eq_ok.mp hi).2, (requireInt_eq_ok.mp hq).2⟩, rfl⟩
  · exact .inl ⟨_, rfl⟩
  · exact .inl ⟨_, rfl⟩
  · exact .inl ⟨_, rfl⟩

/-! ### The records that come to a guard -/

/-- What the field checks rely on of the libraries: ASCII text is in normal form, and a digest has 64 lowercase
hexadecimal digits. -/
structure Primitives.Documented (prim : Primitives) : Prop where
  isNfc_ascii : ∀ s : String, (∀ c ∈ s.toList, c.toNat < 128) → prim.isNfc s = true
  sha256Hex_digest : ∀ bytes, isDigest (prim.sha256Hex bytes) = true

/-- A record that comes to the guard. Its kind is text, since it was parsed or created; its key identifier is
the one of its key, since it was verified; and its kind is not too long for the file. -/
structure Presented (prim : Primitives) (r : SignedRecord) : Prop where
  kind : IsText prim r.kind
  keyId : ∃ der, r.keyId = sha256Prefix ++ prim.sha256Hex der
  kind_length : r.kind.length ≤ 64

/-- Parsing and verification establish what the guard needs, the length of the kind apart. -/
theorem presented_of_verify {prim : Primitives} {source : Json} {r : SignedRecord} {expectedKind : String}
    (hparsed : SignedRecord.fromDict prim source = .ok r) (hverified : r.verify prim expectedKind = .ok ())
    (hlength : r.kind.length ≤ 64) : Presented prim r where
  kind := by
    unfold SignedRecord.fromDict at hparsed
    split at hparsed
    case h_2 => cases hparsed
    obtain ⟨_, -, hparsed⟩ := bind_eq_ok.mp hparsed
    obtain ⟨_, -, hparsed⟩ := bind_eq_ok.mp hparsed
    obtain ⟨_, -, hparsed⟩ := bind_eq_ok.mp hparsed
    obtain ⟨kind, hkind, hparsed⟩ := bind_eq_ok.mp hparsed
    split at hparsed
    case h_2 => cases hparsed
    iterate 3 obtain ⟨_, -, hparsed⟩ := bind_eq_ok.mp hparsed
    split at hparsed
    case h_2 => cases hparsed
    iterate 4 obtain ⟨_, -, hparsed⟩ := bind_eq_ok.mp hparsed
    obtain rfl := Except.ok.inj hparsed
    rw [requireText_some hkind] at hkind
    exact requireText_eq_ok.mp hkind
  keyId := by
    unfold SignedRecord.verify at hverified
    obtain ⟨_, -, hverified⟩ := bind_eq_ok.mp hverified
    obtain ⟨der, -, hverified⟩ := bind_eq_ok.mp hverified
    obtain ⟨_, hkey, -⟩ := bind_eq_ok.mp hverified
    rw [refuseIf_eq_ok, bne_eq_false_iff_eq] at hkey
    exact ⟨der, hkey⟩
  kind_length := hlength

theorem Primitives.Documented.isText {prim : Primitives} (h : prim.Documented) {s : String}
    (hdigest : isDigest s = true) : IsText prim s :=
  ⟨isEmpty_of_isDigest hdigest, h.isNfc_ascii s (isDigest_ascii hdigest)⟩

theorem Primitives.Documented.isKeyId {prim : Primitives} (h : prim.Documented) (der : List UInt8) :
    IsKeyId prim (sha256Prefix ++ prim.sha256Hex der) := by
  have hdigest : isDigest (prim.sha256Hex der) = true := h.sha256Hex_digest der
  have hstrip : stripSha256 (sha256Prefix ++ prim.sha256Hex der) = some (prim.sha256Hex der) :=
    stripSha256_append (prim.sha256Hex der)
  refine ⟨⟨?_, h.isNfc_ascii _ (stripSha256_ascii hstrip hdigest)⟩, _, hstrip, hdigest, h.isText hdigest⟩
  rw [Bool.eq_false_iff, ne_eq, String.isEmpty_iff]
  exact ne_empty_of_stripSha256 hstrip

theorem maximumTtlSeconds_pos (kind : String) : 0 < maximumTtlSeconds kind := by
  unfold maximumTtlSeconds
  split
  · decide
  · decide

/-- **What a record leaves can be read back.** -/
theorem readable_watermark {prim : Primitives} (hdoc : prim.Documented) {r : SignedRecord}
    (hpresented : Presented prim r) (horder : r.HasOrder) : Readable prim (r.scope, r.watermark prim) where
  kind := hpresented.kind
  kind_length := hpresented.kind_length
  keyId := by
    obtain ⟨der, hkey⟩ := hpresented.keyId
    have hid := hdoc.isKeyId der
    rw [← hkey] at hid
    exact hid
  issued := horder.issued
  sequence := horder.sequence
  digest := ⟨hdoc.sha256Hex_digest _, hdoc.isText (hdoc.sha256Hex_digest _)⟩
  retained := by
    have hpos := maximumTtlSeconds_pos r.kind
    have hretain : r.issuedAtMs + maximumTtlSeconds r.kind * 1000 ≤ (r.watermark prim).retainUntilMs :=
      le_max_right _ _
    change r.issuedAtMs < (r.watermark prim).retainUntilMs
    omega

/-! ### Runs of checks -/

/-- A guard and the file at its path. -/
structure GuardedFile where
  guard : ReplayGuard
  file : HistoryFile

/-- A check, with its reading of the clock and the outcome of its write. -/
structure HistoryCheck where
  record : SignedRecord
  nowMs : Int
  outcome : WriteOutcome

/-- Checks as a machine. -/
def historyMachine (prim : Primitives) : Machine GuardedFile HistoryCheck where
  next s e :=
    let after := s.guard.check prim s.file e.nowMs e.outcome e.record
    some ⟨after.2.1, after.2.2⟩

/-- **The invariant**: the entries of the guard are readable, and the file is the one the run has started with
or one that the guard may write. -/
structure History (prim : Primitives) (path : String) (maxEntries : Nat) (file₀ : HistoryFile)
    (s : GuardedFile) : Prop where
  guardPath : s.guard.path = some path
  limit : s.guard.maxEntries = maxEntries
  readable : AllReadable prim s.guard.latest
  file : s.file = file₀ ∨ ∃ written, s.file = snapshot written ∧ Writable prim maxEntries written

section Runs

variable {prim : Primitives} {path : String} {maxEntries : Nat} {file₀ : HistoryFile} {s s' : GuardedFile}
  {e : HistoryCheck}

/-- What a record makes a readable guard remember is readable. -/
theorem History.remembered (h : History prim path maxEntries file₀ s) (hdoc : prim.Documented)
    (hpresented : Presented prim e.record) (horder : e.record.HasOrder) :
    AllReadable prim (s.guard.remembered e.nowMs e.record.scope (e.record.watermark prim)) :=
  (h.readable.live e.nowMs).admitted (readable_watermark hdoc hpresented horder)

/-- **A check preserves the invariant**, whatever it answers and however its write ends. -/
theorem History.next (h : History prim path maxEntries file₀ s) (hdoc : prim.Documented)
    (hpresented : Presented prim e.record) (hnext : (historyMachine prim).next s e = some s') :
    History prim path maxEntries file₀ s' := by
  obtain rfl := Option.some.inj hnext
  have hpath : s.guard.path.isSome := by
    rw [h.guardPath]
    rfl
  rcases check_outcomes prim s.guard s.file e.nowMs e.outcome e.record with ⟨error, heq⟩ | ⟨horder, heq⟩
  · rw [heq]
    exact h
  · rw [heq]
    have hread := h.remembered hdoc hpresented horder
    rcases admit_outcomes hpath s.file e.nowMs e.outcome e.record.scope (e.record.watermark prim) with
      ⟨error, heq⟩ | heq | ⟨⟨hlength, hbytes⟩, ⟨-, heq⟩ | ⟨-, error, heq⟩⟩
    · rw [heq]
      exact h
    · rw [heq]
      exact h
    · rw [heq]
      exact ⟨h.guardPath, h.limit, hread, .inr ⟨_, rfl, hread, h.limit ▸ hlength, hbytes⟩⟩
    · rw [heq]
      exact ⟨h.guardPath, h.limit, h.readable, .inr ⟨_, rfl, hread, h.limit ▸ hlength, hbytes⟩⟩

/-- What a load returns is readable. -/
theorem readable_of_load {g : ReplayGuard} {file : HistoryFile} {nowMs : Int} {latest : Dict Scope Watermark}
    (h : g.load prim file nowMs = .ok latest) : AllReadable prim latest := by
  have hempty : AllReadable prim ∅ := by
    intro scope w hw
    cases hw
  unfold ReplayGuard.load at h
  split at h
  · obtain rfl := Except.ok.inj h
    exact hempty
  · split at h
    · obtain rfl := Except.ok.inj h
      exact hempty
    · cases h
    · cases h
    · split at h
      · cases h
      · split at h
        · cases h
        · unfold loadDocument at h
          split at h
          case h_2 => cases h
          obtain ⟨_, -, h⟩ := bind_eq_ok.mp h
          split at h
          case h_2 => cases h
          obtain ⟨_, -, h⟩ := bind_eq_ok.mp h
          exact (hempty.loadEntries h).1

variable {hpos : 0 < maxEntries} {startMs : Int} {g₀ : ReplayGuard}

/-- A guard that was created starts a run, whatever the file it was created from. -/
theorem History.created (h : ReplayGuard.create prim (some path) maxEntries hpos file₀ startMs = .ok g₀) :
    History prim path maxEntries file₀ ⟨g₀, file₀⟩ := by
  unfold ReplayGuard.create at h
  obtain ⟨latest, hload, h⟩ := bind_eq_ok.mp h
  obtain rfl := Except.ok.inj h
  exact ⟨rfl, rfl, readable_of_load hload, .inl rfl⟩

/-- The run lemma. -/
theorem History.reach (hdoc : prim.Documented)
    (hcreate : ReplayGuard.create prim (some path) maxEntries hpos file₀ startMs = .ok g₀)
    (hreach : (historyMachine prim).Reach (fun _ e => Presented prim e.record) ⟨g₀, file₀⟩ s) :
    History prim path maxEntries file₀ s :=
  hreach.invariant (History.created hcreate) fun _ _ _ hinv hpresented hnext => hinv.next hdoc hpresented hnext

/-- The file is the one the run has started with, as is the guard, or it is that of the guard's entries. -/
def Tracked (prim : Primitives) (maxEntries : Nat) (g₀ : ReplayGuard) (file₀ : HistoryFile) (s : GuardedFile) :
    Prop :=
  (s.file = file₀ ∧ s.guard = g₀) ∨ s.file = snapshot s.guard.latest ∧ Writable prim maxEntries s.guard.latest

/-- A check whose write does not fail with the file in place keeps the file that of the entries. -/
theorem Tracked.next (h : Tracked prim maxEntries g₀ file₀ s) (hhistory : History prim path maxEntries file₀ s)
    (hdoc : prim.Documented) (hpresented : Presented prim e.record) (houtcome : e.outcome ≠ .failedAfterReplace)
    (hnext : (historyMachine prim).next s e = some s') : Tracked prim maxEntries g₀ file₀ s' := by
  obtain rfl := Option.some.inj hnext
  have hpath : s.guard.path.isSome := by
    rw [hhistory.guardPath]
    rfl
  rcases check_outcomes prim s.guard s.file e.nowMs e.outcome e.record with ⟨error, heq⟩ | ⟨horder, heq⟩
  · rw [heq]
    exact h
  · rw [heq]
    have hread := hhistory.remembered hdoc hpresented horder
    rcases admit_outcomes hpath s.file e.nowMs e.outcome e.record.scope (e.record.watermark prim) with
      ⟨error, heq⟩ | heq | ⟨⟨hlength, hbytes⟩, ⟨-, heq⟩ | ⟨hfailed, -⟩⟩
    · rw [heq]
      exact h
    · rw [heq]
      exact h
    · rw [heq]
      exact .inr ⟨rfl, hread, hhistory.limit ▸ hlength, hbytes⟩
    · exact absurd hfailed houtcome

theorem Tracked.reach (hdoc : prim.Documented)
    (hcreate : ReplayGuard.create prim (some path) maxEntries hpos file₀ startMs = .ok g₀)
    (hreach : (historyMachine prim).Reach
      (fun _ e => Presented prim e.record ∧ e.outcome ≠ .failedAfterReplace) ⟨g₀, file₀⟩ s) :
    Tracked prim maxEntries g₀ file₀ s := by
  have hboth : History prim path maxEntries file₀ s ∧ Tracked prim maxEntries g₀ file₀ s := by
    induction hreach with
    | refl => exact ⟨History.created hcreate, .inl ⟨rfl, rfl⟩⟩
    | tail _ hok hnext ih =>
      exact ⟨ih.1.next hdoc hok.1 hnext, ih.2.next ih.1 hdoc hok.1 hok.2 hnext⟩
  exact hboth.2

/-- **A restart.** A guard is created from a written file, with the entries that are live. -/
theorem create_of_written (path : String) (hpos : 0 < maxEntries) {written : Dict Scope Watermark}
    (h : Writable prim maxEntries written) (nowMs : Int) :
    ∃ g, ReplayGuard.create prim (some path) maxEntries hpos (snapshot written) nowMs = .ok g ∧
      ∀ scope, g.latest.lookup scope = (live nowMs written).lookup scope := by
  obtain ⟨loaded, hload, hlookup⟩ :=
    load_snapshot (g := ⟨some path, maxEntries, hpos, ∅⟩) rfl h nowMs
  exact ⟨_, bind_eq_ok.mpr ⟨loaded, hload, rfl⟩, hlookup⟩

end Runs

/-- **Replay history.** Take any guard that was created from a file, and any run of checks of it. The file that
was written last creates a guard with the same limit at any time, with its live entries; they are those of the
guard, as long as no write failed with the file in place. A check that raises leaves the entries, and the file
unless its write failed with the file in place; a check that passes has had nothing to write, or has written
the entries it leaves. -/
theorem replay_history_readable (prim : Primitives) (hdoc : prim.Documented) (path : String) (maxEntries : Nat)
    (hpos : 0 < maxEntries) (file₀ : HistoryFile) (startMs : Int) (g₀ : ReplayGuard)
    (hcreate : ReplayGuard.create prim (some path) maxEntries hpos file₀ startMs = .ok g₀) :
    (∀ s, (historyMachine prim).Reach (fun _ e => Presented prim e.record) ⟨g₀, file₀⟩ s →
      (s.file = file₀ ∨ ∃ written, s.file = snapshot written ∧
        ∀ nowMs, ∃ g, ReplayGuard.create prim (some path) maxEntries hpos s.file nowMs = .ok g ∧
          ∀ scope, g.latest.lookup scope = (live nowMs written).lookup scope) ∧
      ∀ e : HistoryCheck, Presented prim e.record →
        let after := s.guard.check prim s.file e.nowMs e.outcome e.record
        (∀ error, after.1 = .error error →
          after.2.1 = s.guard ∧ (e.outcome ≠ .failedAfterReplace → after.2.2 = s.file)) ∧
        (after.1 = .ok () → after.2 = (s.guard, s.file) ∨
          e.outcome = .written ∧ after.2.2 = snapshot after.2.1.latest)) ∧
    ∀ s, (historyMachine prim).Reach
        (fun _ e => Presented prim e.record ∧ e.outcome ≠ .failedAfterReplace) ⟨g₀, file₀⟩ s →
      s.file = file₀ ∧ s.guard = g₀ ∨ s.file = snapshot s.guard.latest ∧
        ∀ nowMs, ∃ g, ReplayGuard.create prim (some path) maxEntries hpos s.file nowMs = .ok g ∧
          ∀ scope, g.latest.lookup scope = (live nowMs s.guard.latest).lookup scope := by
  refine ⟨fun s hreach => ⟨?_, fun e _ => ?_⟩, fun s hreach => ?_⟩
  · rcases (History.reach hdoc hcreate hreach).file with hfile | ⟨written, hfile, hwritable⟩
    · exact .inl hfile
    · refine .inr ⟨written, hfile, ?_⟩
      rw [hfile]
      exact create_of_written path hpos hwritable
  · have hpath : s.guard.path.isSome := by
      rw [(History.reach hdoc hcreate hreach).guardPath]
      rfl
    dsimp only
    rcases check_outcomes prim s.guard s.file e.nowMs e.outcome e.record with ⟨error, heq⟩ | ⟨-, heq⟩
    · rw [heq]
      exact ⟨fun _ _ => ⟨rfl, fun _ => rfl⟩, fun hok => nomatch hok⟩
    · rw [heq]
      rcases admit_outcomes hpath s.file e.nowMs e.outcome e.record.scope (e.record.watermark prim) with
        ⟨error, heq⟩ | heq | ⟨-, ⟨hwritten, heq⟩ | ⟨hfailed, error, heq⟩⟩
      · rw [heq]
        exact ⟨fun _ _ => ⟨rfl, fun _ => rfl⟩, fun hok => nomatch hok⟩
      · rw [heq]
        exact ⟨fun _ herror => (nomatch herror), fun _ => .inl rfl⟩
      · rw [heq]
        exact ⟨fun _ herror => (nomatch herror), fun _ => .inr ⟨hwritten, rfl⟩⟩
      · rw [heq]
        exact ⟨fun _ _ => ⟨rfl, fun hother => absurd hfailed hother⟩, fun hok => nomatch hok⟩
  · rcases Tracked.reach hdoc hcreate hreach with hstart | ⟨hfile, hwritable⟩
    · exact .inl hstart
    · refine .inr ⟨hfile, ?_⟩
      rw [hfile]
      exact create_of_written path hpos hwritable

theorem trustingPrimitives_documented : trustingPrimitives.Documented where
  isNfc_ascii _ _ := rfl
  sha256Hex_digest _ := (by decide : isDigest sampleDigest = true)

theorem presented_routeDemandAt (issuedAtMs expiresAtMs sequence : Int) :
    Presented trustingPrimitives (routeDemandAt issuedAtMs expiresAtMs sequence) where
  kind := ⟨(by decide : "route_demand".isEmpty = false), rfl⟩
  keyId := ⟨"k".toUTF8.toList, rfl⟩
  kind_length := (by decide : "route_demand".length ≤ 64)

/-- A guard that finds no file. -/
def newGuard : ReplayGuard := ⟨some "replay.json", 8, Nat.succ_pos 7, ∅⟩

/-- What it comes to remember of a route demand. -/
def demandEntries : Dict Scope Watermark :=
  newGuard.remembered 1500 (routeDemandAt 1000 2000 0).scope
    ((routeDemandAt 1000 2000 0).watermark trustingPrimitives)

theorem demandEntries_fits : renderedBytes (historyDocument demandEntries) ≤ maxReplayHistoryBytes := by
  decide +kernel

/-- The check of the route demand comes to its write: a write that succeeds, and one that raises. -/
theorem check_demand_ok {outcome : WriteOutcome} {file : HistoryFile}
    (hpersist : newGuard.persist demandEntries .missing outcome = (.ok (), file)) :
    newGuard.check trustingPrimitives .missing 1500 outcome (routeDemandAt 1000 2000 0) =
      (.ok (), { newGuard with latest := demandEntries }, file) :=
  (check_eq_admitLocked ⟨rfl, rfl, rfl⟩).trans (admit_of_persist_ok rfl (by decide) rfl hpersist)

theorem check_demand_error {outcome : WriteOutcome} {e : ProtocolSecurityError} {file : HistoryFile}
    (hpersist : newGuard.persist demandEntries .missing outcome = (.error e, file)) :
    newGuard.check trustingPrimitives .missing 1500 outcome (routeDemandAt 1000 2000 0) =
      (.error e, newGuard, file) :=
  (check_eq_admitLocked ⟨rfl, rfl, rfl⟩).trans (admit_of_persist_error rfl (by decide) rfl hpersist)

/-- A route demand is written, and read back while it lives. -/
theorem replay_history_readable_of_demand :
    ∃ s, (historyMachine trustingPrimitives).run ⟨newGuard, .missing⟩
        [⟨routeDemandAt 1000 2000 0, 1500, .written⟩] = some s ∧
      s.file = snapshot demandEntries ∧ ∃ g, ReplayGuard.create trustingPrimitives (some "replay.json") 8
          (Nat.succ_pos 7) s.file 1600 = .ok g ∧
        ∀ scope, g.latest.lookup scope = (live 1600 demandEntries).lookup scope := by
  have hpersist : newGuard.persist demandEntries .missing .written = (.ok (), snapshot demandEntries) :=
    (persist_replaceable rfl (.inl rfl) demandEntries_fits).1
  have hcheck := check_demand_ok hpersist
  have hrun : (historyMachine trustingPrimitives).run ⟨newGuard, .missing⟩
      [⟨routeDemandAt 1000 2000 0, 1500, .written⟩] =
      some ⟨{ newGuard with latest := demandEntries }, snapshot demandEntries⟩ := by
    change some _ = _
    rw [hcheck]
  have hpresented : (historyMachine trustingPrimitives).Along
      (fun _ e => Presented trustingPrimitives e.record ∧ e.outcome ≠ .failedAfterReplace) ⟨newGuard, .missing⟩
      [⟨routeDemandAt 1000 2000 0, 1500, .written⟩] :=
    ⟨⟨presented_routeDemandAt 1000 2000 0, by decide⟩, fun _ _ => trivial⟩
  have hreach := Machine.reach_of_run hrun hpresented
  have hreads := (replay_history_readable trustingPrimitives trustingPrimitives_documented "replay.json" 8
    (Nat.succ_pos 7) .missing 1500 newGuard rfl).2 _ hreach
  rcases hreads with ⟨hmissing, -⟩ | ⟨-, hcreate⟩
  · cases hmissing
  · exact ⟨_, hrun, rfl, hcreate 1600⟩

/-- A write that fails with the file in place: the check raises, and the file is not as it was. -/
theorem failed_cleanup_replaces_file :
    ∃ e, Presented trustingPrimitives (routeDemandAt 1000 2000 0) ∧
      newGuard.check trustingPrimitives .missing 1500 .failedAfterReplace (routeDemandAt 1000 2000 0) =
        (.error e, newGuard, snapshot demandEntries) ∧ snapshot demandEntries ≠ .missing := by
  have hpersist : newGuard.persist demandEntries .missing .failedAfterReplace =
      (refuse "replay history could not be persisted safely", snapshot demandEntries) :=
    (persist_replaceable rfl (.inl rfl) demandEntries_fits).2.2
  exact ⟨_, presented_routeDemandAt 1000 2000 0, check_demand_error hpersist, fun h => nomatch h⟩

end Drift.Identity
