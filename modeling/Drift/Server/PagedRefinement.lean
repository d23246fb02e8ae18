import Drift.Lib.Outcome
import Drift.Server.PagedContents

/-!
# The paged cache refines the contiguous one

A block that is served from the paged pool and one that has its own key and value tensors take the same
inference steps: reorder the rows, read the past up to the prefix, compute, and write what is new. A
`Twin` takes each step in both caches, while other sessions do anything to the same pool. What the
two caches hold agrees below an *extent*, the furthest position that was ever written: the pages beyond
the prefix are stale after a rollback, and so are the entries of the tensors.

The other sessions can break this, because `reorder` frees a row that it hands on under a negative index:
the page is then given to two sessions.

* `ContiguousCache` — the tensors of `StandardGQACache`;
* `pagedStep`, `contiguousStep` — one inference step in either cache;
* `Twin.Agrees` — the invariant;
* `gather_refines_contiguous` — the result for runs.
-/

namespace Drift.Server

open Drift.Lib
open scoped List

variable {K V : Type}

/-! ### The contiguous cache -/

/-- The key and value tensors of one session, by batch row and position. -/
structure ContiguousCache (K V : Type) where
  batchSize : Nat
  maxLength : Nat
  entry : Nat → Nat → K × V

namespace ContiguousCache

/-- `reorder_cache_inplace`. -/
def reorder (c : ContiguousCache K V) (hypoIds : List Nat) :
    Except PoolError (ContiguousCache K V) :=
  if hypoIds.length ≠ c.batchSize then .error .shapeError
  else if hypoIds.any fun i => c.batchSize ≤ i then .error .indexError
  else .ok { c with entry := fun b => c.entry (hypoIds.getD b 0) }

/-- `select_layer_past`. -/
def selectLayerPast (c : ContiguousCache K V) (prefixLength : Nat) : List (List (K × V)) :=
  (List.range c.batchSize).map fun b => (List.range (min prefixLength c.maxLength)).map (c.entry b)

/-- `update_cache`. -/
def updateCache (c : ContiguousCache K V) (newKvs : NewKvs K V) (prefixLength : Nat) :
    Except PoolError (ContiguousCache K V) :=
  if newKvs.rows.length ≠ c.batchSize ∨ c.maxLength < newKvs.length then .error .shapeError
  else .ok { c with
    entry := fun b position =>
      match newKvs.rows[b]? with
      | some new =>
        if prefixLength ≤ position ∧ position < newKvs.length then new position
        else c.entry b position
      | none => c.entry b position }

end ContiguousCache

/-! ### Steps -/

/-- An inference step of the session: `start_from_position`, the index vector unless it is a dummy, the
number of tokens, and the block: from the past keys and values of all rows to those of the past and the
new tokens. -/
structure CacheStep (K V : Type) where
  startFromPosition : Option Nat
  hypoIds : Option (List Nat)
  newTokens : Nat
  forward : List (List (K × V)) → List (Nat → K × V)
  forward_length : ∀ past, (forward past).length = past.length

/-- The prefix that a step starts from. -/
def CacheStep.prefixLength (e : CacheStep K V) (prefixLength : Nat) : Nat :=
  e.startFromPosition.getD prefixLength

/-- The server accepts the step: it starts within the prefix and ends within the maximum length. Its
index vector names the rows of the batch. -/
def CacheStep.Accepted (e : CacheStep K V) (batchSize maxLength prefixLength : Nat) : Prop :=
  e.prefixLength prefixLength ≤ prefixLength ∧
    e.prefixLength prefixLength + e.newTokens ≤ maxLength ∧
    ∀ ids ∈ e.hypoIds, ids.length = batchSize ∧ ∀ i ∈ ids, i < batchSize

instance (e : CacheStep K V) (batchSize maxLength prefixLength : Nat) :
    Decidable (e.Accepted batchSize maxLength prefixLength) :=
  inferInstanceAs (Decidable (_ ∧ _ ∧ _))

/-- The pool after an operation that did not raise. -/
def raising (r : Except PoolError Unit × PagedKVPool K V) : Except PoolError (PagedKVPool K V) :=
  r.1.map fun _ => r.2

/-- The gathered entries. A position without a page would be an index that is out of range. -/
def gathered (rows : List (List (Option (K × V)))) : Except PoolError (List (List (K × V))) :=
  match rows.mapM fun row => row.mapM id with
  | some past => .ok past
  | none => .error .indexError

/-- The pool is reordered unless the index vector is a dummy. -/
def CacheStep.reorderPool (e : CacheStep K V) (pool : PagedKVPool K V) (slot : Nat) :
    Except PoolError (PagedKVPool K V) :=
  match e.hypoIds with
  | none => .ok pool
  | some ids => raising (pool.reorder slot (ids.map Int.ofNat))

/-- `_reorder_cache_inplace`. -/
def CacheStep.reorderCache (e : CacheStep K V) (cache : ContiguousCache K V) :
    Except PoolError (ContiguousCache K V) :=
  match e.hypoIds with
  | none => .ok cache
  | some ids => cache.reorder ids

/-- `_paged_inference_step`: the past and the pool after the step. -/
def pagedStep (pool : PagedKVPool K V) (slot prefixLength : Nat) (e : CacheStep K V) :
    Except PoolError (List (List (K × V)) × PagedKVPool K V) := do
  let pool ← e.reorderPool pool slot
  let rows ← pool.gather slot prefixLength
  let past ← gathered rows
  let pool ← raising (pool.scatter slot ⟨prefixLength + e.newTokens, e.forward past⟩ prefixLength)
  pure (past, pool)

/-- The contiguous part of `inference_step`: the past and the tensors after the step. -/
def contiguousStep (cache : ContiguousCache K V) (prefixLength : Nat) (e : CacheStep K V) :
    Except PoolError (List (List (K × V)) × ContiguousCache K V) := do
  let cache ← e.reorderCache cache
  let past := cache.selectLayerPast prefixLength
  let cache ← cache.updateCache ⟨prefixLength + e.newTokens, e.forward past⟩ prefixLength
  pure (past, cache)

/-! ### Runs -/

/-- One session in both caches. -/
structure Twin (K V : Type) where
  pool : PagedKVPool K V
  cache : ContiguousCache K V
  prefixLength : Nat

inductive TwinEvent (K V : Type)
  /-- Another session uses the pool. -/
  | other (op : PoolOp K V)
  | step (e : CacheStep K V)

namespace Twin

/-- The step is accepted, and there is something to compute. -/
def Steps (s : Twin K V) (e : CacheStep K V) : Prop :=
  e.Accepted s.cache.batchSize s.cache.maxLength s.prefixLength ∧ 0 < e.newTokens ∧
    0 < s.cache.batchSize

instance (s : Twin K V) (e : CacheStep K V) : Decidable (s.Steps e) :=
  inferInstanceAs (Decidable (_ ∧ _ ∧ _))

/-- An event of the run. A step that raises in either cache ends it; a request without elements only
moves the prefix. -/
def next (slot : Nat) (s : Twin K V) : TwinEvent K V → Option (Twin K V)
  | .other op => if op.slot = slot then none else some { s with pool := (s.pool.perform op).2 }
  | .step e =>
    if e.Accepted s.cache.batchSize s.cache.maxLength s.prefixLength then
      let start := e.prefixLength s.prefixLength
      if e.newTokens = 0 ∨ s.cache.batchSize = 0 then
        some { s with prefixLength := start + e.newTokens }
      else
        match pagedStep s.pool slot start e, contiguousStep s.cache start e with
        | .ok (_, pool), .ok (_, cache) => some ⟨pool, cache, start + e.newTokens⟩
        | _, _ => none
    else none

end Twin

/-- The runs of a session in the slot. -/
def twinMachine (K V : Type) (slot : Nat) : Machine (Twin K V) (TwinEvent K V) :=
  ⟨Twin.next slot⟩

/-! ### Pages in two places -/

theorem copyRow_free {st : PageStore K V} {row : List Nat} :
    (copyRow st row).1.freePages <+ st.freePages := by
  induction row generalizing st with
  | nil => exact List.Sublist.refl _
  | cons page row ih =>
    unfold copyRow
    split
    · exact List.Sublist.refl _
    · next new rest hacquire =>
      obtain ⟨hfree, -, -⟩ := acquirePage_spec hacquire
      have hrest : (copyRow (rest.copyPage page new) row).1.freePages <+ rest.freePages := ih
      rw [hfree]
      exact hrest.trans (List.sublist_append_left _ _)

/-- The loop of `reorder` takes pages from the free list, and puts none back. -/
theorem reorderRows_free {blockTable : List (List Nat)} {claimed hypoIds : List Int}
    {st : PageStore K V} : (reorderRows blockTable claimed st hypoIds).1.freePages <+ st.freePages := by
  induction hypoIds generalizing st claimed with
  | nil => exact List.Sublist.refl _
  | cons src rest ih =>
    unfold reorderRows
    split
    · exact List.Sublist.refl _
    next row hrow =>
    split
    · have hcopy : (copyRow st row).1.freePages <+ st.freePages := copyRow_free
      split
      · next heq =>
        rw [heq] at hcopy
        exact hcopy
      · next heq =>
        rw [heq] at hcopy
        exact ih.trans hcopy
    · exact ih

namespace PagedKVPool

/-- No page is in two places. Pages may be lost, as by a `reorder` that raises after it has copied. -/
def Apart (s : PagedKVPool K V) : Prop := s.allPages.Nodup

/-- A `reorder` whose loop runs to its end frees no row that it hands on, and hands on none twice. -/
def KeepsApart (s : PagedKVPool K V) : PoolOp K V → Prop
  | .reorder slot hypoIds => ∀ blockTable ∈ s.blockTables.lookup slot,
      Completes blockTable [] s.freePages.length hypoIds → NamesOnce blockTable hypoIds
  | _ => True

instance (s : PagedKVPool K V) : ∀ op, Decidable (s.KeepsApart op)
  | .reorder slot hypoIds => inferInstanceAs (Decidable (∀ blockTable ∈ s.blockTables.lookup slot,
      Completes blockTable [] s.freePages.length hypoIds → NamesOnce blockTable hypoIds))
  | .registerSlot _ _ | .freeSlot _ | .gather _ _ | .scatter _ _ _ => isTrue trivial

theorem Apart.of_keepsPages {slot : Nat} {s s' : PagedKVPool K V} (h : s.Apart)
    (hon : OnSlot slot s s') (hkeeps : KeepsPages slot s s') : s'.Apart := by
  have hothers : s'.otherPages slot = s.otherPages slot := by
    rw [otherPages, hon.others, otherPages]
  have hperm : s'.allPages ~ s.allPages := by
    calc s'.allPages
        _ ~ s'.freePages ++ s'.slotPages slot ++ s'.otherPages slot := s'.allPages_perm slot
        _ ~ s.freePages ++ s.slotPages slot ++ s.otherPages slot := by
          rw [hothers]
          exact List.Perm.append_right _ hkeeps
        _ ~ s.allPages := (s.allPages_perm slot).symm
  exact hperm.nodup_iff.mpr h

/-- An operation keeps the pages apart, whether it raises or not. -/
theorem Apart.perform {s : PagedKVPool K V} (h : s.Apart) {op : PoolOp K V}
    (hkeeps : s.KeepsApart op) : (s.perform op).2.Apart := by
  cases op with
  | registerSlot slot batchSize =>
    exact h.of_keepsPages (s.registerSlot_onSlot slot batchSize).1 (s.registerSlot_onSlot slot batchSize).2
  | freeSlot slot => exact h.of_keepsPages (s.freeSlot_onSlot slot).1 (s.freeSlot_onSlot slot).2
  | gather slot prefixLength => exact h
  | scatter slot newKvs prefixLength =>
    exact h.of_keepsPages (s.scatter_onSlot slot newKvs prefixLength).1
      (s.scatter_onSlot slot newKvs prefixLength).2
  | reorder slot hypoIds =>
    obtain ⟨hon, hpages⟩ := s.reorder_onSlot slot hypoIds
    by_cases hends : ∀ blockTable ∈ s.blockTables.lookup slot,
        Completes blockTable [] s.freePages.length hypoIds
    · refine h.of_keepsPages hon (hpages fun blockTable hlookup => ⟨hkeeps blockTable hlookup, ?_⟩)
      exact fun hnot => absurd (hends blockTable hlookup) hnot
    · -- the loop raises: the tables are as before, and the free list is no longer than it was
      push Not at hends
      obtain ⟨blockTable, hlookup, hnot⟩ := hends
      have hsub : (reorderRows blockTable [] s.toPageStore hypoIds).1.freePages <+ s.freePages :=
        reorderRows_free
      show (s.reorder slot hypoIds).2.Apart
      unfold reorder
      rw [Option.mem_def.mp hlookup]
      dsimp only
      rcases hloop : reorderRows blockTable [] s.toPageStore hypoIds with ⟨st, result⟩
      rw [hloop] at hsub
      cases result with
      | error e => exact h.sublist (hsub.append_right _)
      | ok p => exact absurd (reorderRows_ok hloop).1 hnot

/-- What another slot's rows hold is not touched. -/
theorem Apart.frame {s : PagedKVPool K V} (h : s.Apart) {op : PoolOp K V} {slot : Nat}
    (hslot : op.slot ≠ slot) :
    (s.perform op).2.blockTables.lookup slot = s.blockTables.lookup slot ∧
      (s.perform op).2.pageSize = s.pageSize ∧
      ∀ blockTable ∈ s.blockTables.lookup slot, ∀ row ∈ blockTable,
        (s.perform op).2.token row = s.token row := by
  obtain ⟨hon, -⟩ := s.perform_onSlot op
  have hnodup : (s.freePages ++ s.slotPages op.slot ++ s.otherPages op.slot).Nodup :=
    (s.allPages_perm op.slot).nodup_iff.mp h
  refine ⟨?_, hon.pageSize, ?_⟩
  · rw [← AList.lookup_erase_ne hslot.symm, hon.others, AList.lookup_erase_ne hslot.symm]
  · intro blockTable hlookup row hrow
    have hread : (s.perform op).2.read row = s.read row := by
      refine hon.pools.read fun p hp hmem => ?_
      have hpage : p ∈ s.slotPages slot := by
        rw [slotPages_of_lookup hlookup]
        exact List.mem_flatten_of_mem hrow hp
      exact (List.disjoint_of_nodup_append hnodup) hmem
        (s.slotPages_subset_otherPages hslot.symm hpage)
    funext position
    rw [token_eq, token_eq, hread, hon.pageSize]

/-! ### The session's own operations -/

theorem pyGet_natCast {α : Type} {xs : List α} {i : Nat} (h : i < xs.length) :
    pyGet xs (Int.ofNat i) = xs[i]? := by
  have hindex : pyIndex xs.length (Int.ofNat i) = some i := by
    unfold pyIndex
    rw [if_pos ⟨Int.natCast_nonneg i, Int.ofNat_lt.mpr h⟩]
    rfl
  rw [pyGet, hindex, Option.bind_some]

/-- Plain row numbers name each row once. -/
theorem namesOnce_of_rows {blockTable : List (List Nat)} {ids : List Nat}
    (hids : ∀ i ∈ ids, i < blockTable.length) : NamesOnce blockTable (ids.map Int.ofNat) := by
  have hindex : ∀ i ∈ ids, pyIndex blockTable.length (Int.ofNat i) = some i := by
    intro i hi
    unfold pyIndex
    rw [if_pos ⟨Int.natCast_nonneg i, Int.ofNat_lt.mpr (hids i hi)⟩]
    rfl
  constructor
  · intro src hsrc hneg
    obtain ⟨i, -, rfl⟩ := List.mem_map.mp hsrc
    exact absurd hneg (Int.not_lt.mpr (Int.natCast_nonneg i))
  · intro src hsrc src' hsrc' heq
    obtain ⟨i, hi, rfl⟩ := List.mem_map.mp hsrc
    obtain ⟨i', hi', rfl⟩ := List.mem_map.mp hsrc'
    rw [hindex i hi, hindex i' hi'] at heq
    exact congrArg Int.ofNat (Option.some.inj heq)

/-- The loop of `reorder` raises for want of pages, or at an index that names no row. -/
theorem reorderRows_raises {blockTable : List (List Nat)} {claimed hypoIds : List Int}
    {st st' : PageStore K V} {e : PoolError}
    (h : reorderRows blockTable claimed st hypoIds = (st', .error e))
    (hnamed : ∀ src ∈ hypoIds, pyGet blockTable src ≠ none) : e = .allocationFailed := by
  induction hypoIds generalizing st claimed e with
  | nil => simp [reorderRows] at h
  | cons src rest ih =>
    have hrest : ∀ src ∈ rest, pyGet blockTable src ≠ none := fun i hi =>
      hnamed i (List.mem_cons_of_mem _ hi)
    unfold reorderRows at h
    split at h
    · next hnone => exact absurd hnone (hnamed src List.mem_cons_self)
    · next row hrow =>
      split at h
      · split at h
        · obtain ⟨-, herror⟩ := Prod.mk.inj h
          exact (Except.error.inj herror).symm
        · next st₁ copied hcopy =>
          rcases hloop : reorderRows blockTable claimed st₁ rest with ⟨st₂, res⟩
          rw [hloop] at h
          cases res with
          | ok p => simp [Except.map] at h
          | error e' =>
            obtain ⟨rfl, herror⟩ := Prod.mk.inj h
            obtain rfl : e' = e := Except.error.inj herror
            exact ih hloop hrest
      · rcases hloop : reorderRows blockTable (src :: claimed) st rest with ⟨st₂, res⟩
        rw [hloop] at h
        cases res with
        | ok p => simp [Except.map] at h
        | error e' =>
          obtain ⟨rfl, herror⟩ := Prod.mk.inj h
          obtain rfl : e' = e := Except.error.inj herror
          exact ih hloop hrest

/-- What `reorder` does to the rows of its slot: row `b` reads as row `ids[b]` did. -/
structure Reordered (ids : List Nat) (blockTable blockTable' : List (List Nat))
    (s s' : PagedKVPool K V) : Prop where
  length_eq : blockTable'.length = ids.length
  reads : ∀ (b i : Nat) (row row' : List Nat), ids[b]? = some i → blockTable[i]? = some row → blockTable'[b]? = some row' →
    s'.token row' = s.token row

theorem reorder_ok {s : PagedKVPool K V} {slot : Nat} {ids : List Nat} {blockTable : List (List Nat)}
    (hapart : s.Apart) (hlookup : s.blockTables.lookup slot = some blockTable)
    (hids : ∀ i ∈ ids, i < blockTable.length) :
    raising (s.reorder slot (ids.map Int.ofNat)) = .error .allocationFailed ∨
      ∃ s' blockTable', raising (s.reorder slot (ids.map Int.ofNat)) = .ok s' ∧ s'.Apart ∧
        s'.blockTables.lookup slot = some blockTable' ∧ Reordered ids blockTable blockTable' s s' := by
  have hkeeps : s.KeepsApart (.reorder slot (ids.map Int.ofNat)) := by
    intro blockTable' hlookup' _
    obtain rfl : blockTable = blockTable' := Option.some.inj (hlookup.symm.trans hlookup')
    exact namesOnce_of_rows hids
  have hperform : (s.reorder slot (ids.map Int.ofNat)).2.Apart := hapart.perform hkeeps
  have hnodup : (s.freePages ++ s.slotPages slot).Nodup :=
    ((s.allPages_perm slot).nodup_iff.mp hapart).of_append_left
  rw [slotPages_of_lookup hlookup] at hnodup
  unfold reorder at hperform ⊢
  rw [hlookup] at hperform ⊢
  dsimp only at hperform ⊢
  rcases hloop : reorderRows blockTable [] s.toPageStore (ids.map Int.ofNat) with ⟨st, result⟩
  rw [hloop] at hperform
  cases result with
  | error e =>
    left
    have hnamed : ∀ src ∈ ids.map Int.ofNat, pyGet blockTable src ≠ none := by
      intro src hsrc
      obtain ⟨i, hi, rfl⟩ := List.mem_map.mp hsrc
      rw [pyGet_natCast (hids i hi), List.getElem?_eq_getElem (hids i hi)]
      exact Option.some_ne_none _
    rw [reorderRows_raises hloop hnamed]
    rfl
  | ok p =>
    right
    obtain ⟨rows, claimed⟩ := p
    have hread := reorderRows_read hloop hnodup.of_append_left fun p hp hmem =>
      (List.disjoint_of_nodup_append hnodup) hmem hp
    refine ⟨_, rows, rfl, hperform, AList.lookup_insert _, ?_, ?_⟩
    · have hlength := congrArg List.length hread
      rw [List.length_map, List.length_map, List.length_map] at hlength
      exact hlength
    · intro b i row row' hi hrow hrow'
      have hlt : i < blockTable.length := hids i (List.mem_of_getElem? hi)
      have hentry := congrArg (·[b]?) hread
      have hrowAt : rowAt blockTable (Int.ofNat i) = row := by
        rw [rowAt, pyGet_natCast hlt, hrow, Option.getD_some]
      simp only [List.getElem?_map, hrow', hi, Option.map_some, hrowAt] at hentry
      have hsame : st.read row' = s.read row := Option.some.inj hentry
      funext position
      rw [token_eq, token_eq]
      show (st.read row')[position / s.pageSize]?.map _ = _
      rw [hsame]
      rfl

/-- The offsets that `scatter` writes in the pages it comes to are those of the new positions. -/
theorem scattered_iff {prefixLength length position pageSize : Nat} (hpos : 0 < pageSize) :
    (position / pageSize ∈
          pyRange (prefixLength / pageSize) ((length + pageSize - 1) / pageSize) ∧
        max prefixLength (position / pageSize * pageSize) - position / pageSize * pageSize ≤
          position % pageSize ∧
        position % pageSize <
          min length ((position / pageSize + 1) * pageSize) - position / pageSize * pageSize) ↔
      prefixLength ≤ position ∧ position < length := by
  have hsplit : position / pageSize * pageSize + position % pageSize = position :=
    Nat.div_add_mod' position pageSize
  have hoff : position % pageSize < pageSize := Nat.mod_lt _ hpos
  have hnext : (position / pageSize + 1) * pageSize = position / pageSize * pageSize + pageSize :=
    Nat.succ_mul _ _
  unfold pyRange
  rw [List.mem_range'_1, hnext]
  constructor
  · rintro ⟨-, hstart, hend⟩
    omega
  · rintro ⟨hstart, hend⟩
    have hfirst : prefixLength / pageSize ≤ position / pageSize := Nat.div_le_div_right hstart
    have hlast : position / pageSize + 1 ≤ (length + pageSize - 1) / pageSize := by
      rw [Nat.le_div_iff_mul_le hpos, hnext]
      omega
    omega

/-- What `scatter` does to the rows of its slot: the new positions have the new tokens, and what could
be read elsewhere reads as before. -/
structure Scattered (newKvs : NewKvs K V) (prefixLength : Nat) (blockTable blockTable' : List (List Nat))
    (s s' : PagedKVPool K V) : Prop where
  length_eq : blockTable'.length = blockTable.length
  written : ∀ (b : Nat) (row' : List Nat) (new : Nat → K × V), blockTable'[b]? = some row' →
    newKvs.rows[b]? = some new → ∀ position, prefixLength ≤ position → position < newKvs.length →
      s'.token row' position = some (new position)
  kept : ∀ (b : Nat) (row row' : List Nat), blockTable[b]? = some row → blockTable'[b]? = some row' →
    ∀ position x, ¬(prefixLength ≤ position ∧ position < newKvs.length) →
      s.token row position = some x → s'.token row' position = some x

theorem scatter_ok {s : PagedKVPool K V} {slot prefixLength : Nat} {newKvs : NewKvs K V}
    {blockTable : List (List Nat)} (hapart : s.Apart)
    (hlookup : s.blockTables.lookup slot = some blockTable) (hlonger : prefixLength < newKvs.length)
    (hrows : newKvs.rows.length = blockTable.length) (hne : blockTable ≠ []) :
    raising (s.scatter slot newKvs prefixLength) = .error .allocationFailed ∨
      ∃ s' blockTable', raising (s.scatter slot newKvs prefixLength) = .ok s' ∧ s'.Apart ∧
        s'.blockTables.lookup slot = some blockTable' ∧
          Scattered newKvs prefixLength blockTable blockTable' s s' := by
  have hafter : (s.scatter slot newKvs prefixLength).2.Apart :=
    hapart.perform (show s.KeepsApart (.scatter slot newKvs prefixLength) from trivial)
  have hnodup : (s.freePages ++ s.slotPages slot).Nodup :=
    ((s.allPages_perm slot).nodup_iff.mp hapart).of_append_left
  rw [slotPages_of_lookup hlookup] at hnodup
  unfold scatter at hafter ⊢
  rw [hlookup] at hafter ⊢
  dsimp only at hafter ⊢
  rw [if_neg (Nat.not_le.mpr hlonger), if_neg (not_not.mpr hrows)] at hafter ⊢
  rcases hgrow : growRows (s.logicalPages newKvs.length) s.toPageStore blockTable with
    ⟨st, grown, enough⟩
  rw [hgrow] at hafter
  cases enough with
  | false => exact Or.inl rfl
  | true =>
    right
    obtain ⟨hperm, hkeys, hvalues⟩ := growRows_spec hgrow
    have hgrown := growRows_grown hgrow
    have hlength : grown.length = blockTable.length := hgrown.length_eq.symm
    have hgrownNodup : grown.flatten.Nodup := (hperm.nodup_iff.mpr hnodup).of_append_right
    have hnotEmpty : grown.isEmpty = false := by
      rw [List.isEmpty_eq_false_iff]
      rintro rfl
      exact hne (List.length_eq_zero_iff.mp hlength.symm)
    dsimp only at hafter ⊢
    rw [hnotEmpty, if_neg Bool.false_ne_true] at hafter ⊢
    have hpair : ∀ (b : Nat) (row row' : List Nat), blockTable[b]? = some row → grown[b]? = some row' →
        row <+: row' ∧ s.logicalPages newKvs.length ≤ row'.length := fun b row row' hrow hrow' =>
      List.forall₂_zip hgrown (List.mem_of_getElem? (List.getElem?_zip_eq_some.mpr ⟨hrow, hrow'⟩))
    -- the entry at a position after the writes, read through a row of the grown table
    have hentry : ∀ (b : Nat) (row' : List Nat) (new : Nat → K × V) (position p : Nat),
        grown[b]? = some row' → newKvs.rows[b]? = some new → row'[position / s.pageSize]? = some p →
          ((pyRange (prefixLength / s.pageSize) (s.logicalPages newKvs.length)).foldl
            (s.scatterPage grown newKvs prefixLength) st).entry p (position % s.pageSize) =
          if prefixLength ≤ position ∧ position < newKvs.length then new position
          else s.entry p (position % s.pageSize) := by
      intro b row' new position p hrow' hnew hp
      have hpages : (pyRange (prefixLength / s.pageSize) (s.logicalPages newKvs.length)).Nodup :=
        List.nodup_range' 1
      rw [s.scatterPages_entry hgrownNodup (hrows.trans hlength.symm) hrow' hnew hp hpages,
        Nat.div_add_mod', PageStore.entry_of_pools hkeys hvalues]
      exact if_congr (scattered_iff s.pageSize_pos) rfl rfl
    refine ⟨_, grown, rfl, hafter, AList.lookup_insert _, hlength, ?_, ?_⟩
    · intro b row' new hrow' hnew position hstart hend
      obtain ⟨row, hrow⟩ : ∃ row, blockTable[b]? = some row := by
        have hlt := (List.getElem?_eq_some_iff.mp hrow').1
        exact ⟨_, List.getElem?_eq_getElem (hlength ▸ hlt)⟩
      -- the row has been grown to reach the position
      have hreach : position / s.pageSize < row'.length := by
        have hpages := (hpair b row row' hrow hrow').2
        have hin := ((scattered_iff s.pageSize_pos).mpr ⟨hstart, hend⟩).1
        unfold pyRange at hin
        rw [List.mem_range'_1] at hin
        unfold logicalPages at hpages
        omega
      have hp := List.getElem?_eq_getElem hreach
      have hnewEntry := hentry b row' new position _ hrow' hnew hp
      rw [if_pos ⟨hstart, hend⟩] at hnewEntry
      unfold token
      show row'[position / s.pageSize]?.map _ = _
      rw [hp]
      exact congrArg some hnewEntry
    · intro b row row' hrow hrow' position x hnot hx
      obtain ⟨new, hnew⟩ : ∃ new, newKvs.rows[b]? = some new := by
        have hlt := (List.getElem?_eq_some_iff.mp hrow).1
        exact ⟨_, List.getElem?_eq_getElem (hrows ▸ hlt)⟩
      unfold token at hx
      obtain ⟨p, hp, rfl⟩ := Option.map_eq_some_iff.mp hx
      have hp' : row'[position / s.pageSize]? = some p := by
        obtain ⟨rest, rfl⟩ := (hpair b row row' hrow hrow').1
        have hlt := (List.getElem?_eq_some_iff.mp hp).1
        rw [List.getElem?_append_left hlt]
        exact hp
      have hold := hentry b row' new position p hrow' hnew hp'
      rw [if_neg hnot] at hold
      unfold token
      show row'[position / s.pageSize]?.map _ = _
      rw [hp']
      exact congrArg some hold

end PagedKVPool

/-! ### What the two caches hold -/

/-- Below the extent, the rows of the table read as the rows of the tensors. -/
structure Holds (pool : PagedKVPool K V) (cache : ContiguousCache K V) (blockTable : List (List Nat))
    (extent : Nat) : Prop where
  length_eq : blockTable.length = cache.batchSize
  reads : ∀ (b : Nat) (row : List Nat), blockTable[b]? = some row → ∀ position < extent,
    pool.token row position = some (cache.entry b position)

/-- Two caches of one session, in a slot of the pool. -/
structure SameContents (slot extent : Nat) (pool : PagedKVPool K V) (cache : ContiguousCache K V) :
    Prop where
  apart : pool.Apart
  holds : ∃ blockTable, pool.blockTables.lookup slot = some blockTable ∧
    Holds pool cache blockTable extent

/-- A step of the pool that fails for want of pages, or one that both caches take. -/
def BothOrFull {α β : Type} (R : α → β → Prop) (x : Except PoolError α) (y : Except PoolError β) : Prop :=
  x = .error .allocationFailed ∨ ∃ a b, x = .ok a ∧ y = .ok b ∧ R a b

theorem BothOrFull.bind {α β γ δ : Type} {R : α → β → Prop} {S : γ → δ → Prop} {x : Except PoolError α}
    {y : Except PoolError β} {f : α → Except PoolError γ} {g : β → Except PoolError δ}
    (h : BothOrFull R x y) (hcont : ∀ a b, R a b → BothOrFull S (f a) (g b)) :
    BothOrFull S (x >>= f) (y >>= g) := by
  rcases h with rfl | ⟨a, b, rfl, rfl, hR⟩
  · exact Or.inl rfl
  · exact hcont a b hR

/-- The caches after an operation, over tensors of the same size. -/
def Follows (slot extent : Nat) (cache : ContiguousCache K V) (pool' : PagedKVPool K V)
    (cache' : ContiguousCache K V) : Prop :=
  SameContents slot extent pool' cache' ∧ cache'.batchSize = cache.batchSize ∧
    cache'.maxLength = cache.maxLength

variable {slot extent : Nat} {pool : PagedKVPool K V} {cache : ContiguousCache K V}

/-- Reordering reads the same rows in both caches. -/
theorem SameContents.reorder (h : SameContents slot extent pool cache) {ids : List Nat}
    (hlength : ids.length = cache.batchSize) (hids : ∀ i ∈ ids, i < cache.batchSize) :
    BothOrFull (Follows slot extent cache) (raising (pool.reorder slot (ids.map Int.ofNat)))
      (cache.reorder ids) := by
  obtain ⟨blockTable, hlookup, hholds⟩ := h.holds
  rcases PagedKVPool.reorder_ok h.apart hlookup
    (fun i hi => by rw [hholds.length_eq]; exact hids i hi) with hfull | hreordered
  · exact Or.inl hfull
  · obtain ⟨pool', blockTable', hok, hapart, hlookup', hreordered⟩ := hreordered
    have hcache : cache.reorder ids =
        .ok { cache with entry := fun b => cache.entry (ids.getD b 0) } := by
      unfold ContiguousCache.reorder
      have hany : (ids.any fun i => cache.batchSize ≤ i) = false := by
        rw [List.any_eq_false]
        intro i hi
        rw [decide_eq_true_iff]
        exact Nat.not_le.mpr (hids i hi)
      rw [if_neg (not_not.mpr hlength), hany, if_neg Bool.false_ne_true]
    refine Or.inr ⟨pool', _, hok, hcache, ⟨hapart, blockTable', hlookup', ?_, ?_⟩, rfl, rfl⟩
    · rw [hreordered.length_eq]
      exact hlength
    · intro b row' hrow' position hposition
      have hb : b < ids.length := by
        rw [← hreordered.length_eq]
        exact (List.getElem?_eq_some_iff.mp hrow').1
      have hi : ids[b]? = some ids[b] := List.getElem?_eq_getElem hb
      have hlt : ids[b] < blockTable.length := by
        rw [hholds.length_eq]
        exact hids _ (List.getElem_mem hb)
      have hrow : blockTable[ids[b]]? = some blockTable[ids[b]] := List.getElem?_eq_getElem hlt
      rw [hreordered.reads b _ _ row' hi hrow hrow', hholds.reads _ _ hrow position hposition]
      show some (cache.entry ids[b] position) = some (cache.entry (ids.getD b 0) position)
      rw [List.getD_eq_getElem?_getD, hi, Option.getD_some]

theorem mapM_id_some {α : Type} (xs : List α) : (xs.map some).mapM id = some xs := by
  induction xs with
  | nil => rfl
  | cons x xs ih =>
    rw [List.map_cons, List.mapM_cons, ih]
    rfl

theorem gathered_some (rows : List (List (K × V))) :
    gathered (rows.map (List.map some)) = .ok rows := by
  have hrows : (rows.map (List.map some)).mapM (fun row => row.mapM id) = some rows := by
    induction rows with
    | nil => rfl
    | cons row rows ih =>
      rw [List.map_cons, List.mapM_cons, mapM_id_some, ih]
      rfl
  unfold gathered
  rw [hrows]

/-- **Gathering** returns what the tensors hold below the prefix. -/
theorem SameContents.gather (h : SameContents slot extent pool cache) {prefixLength : Nat}
    (hpre : prefixLength ≤ extent) (hextent : extent ≤ cache.maxLength)
    (hbatch : 0 < cache.batchSize) :
    (pool.gather slot prefixLength >>= gathered) = .ok (cache.selectLayerPast prefixLength) := by
  obtain ⟨blockTable, hlookup, hholds⟩ := h.holds
  have hne : blockTable ≠ [] := by
    rintro rfl
    rw [← hholds.length_eq] at hbatch
    exact absurd hbatch (Nat.lt_irrefl 0)
  -- the last position of the prefix has a page in every row
  have hreach : ∀ row ∈ blockTable, pool.logicalPages prefixLength ≤ row.length := by
    intro row hrow
    obtain ⟨b, hb⟩ := List.mem_iff_getElem?.mp hrow
    unfold PagedKVPool.logicalPages
    rcases Nat.eq_zero_or_pos prefixLength with hzero | hpos
    · rw [hzero, Nat.zero_add, Nat.div_eq_of_lt (Nat.sub_lt pool.pageSize_pos Nat.one_pos)]
      exact Nat.zero_le _
    · have hlast := hholds.reads b row hb (prefixLength - 1) (by omega)
      unfold PagedKVPool.token at hlast
      obtain ⟨page, hpage, -⟩ := Option.map_eq_some_iff.mp hlast
      have hlt := (List.getElem?_eq_some_iff.mp hpage).1
      have hsum : prefixLength + pool.pageSize - 1 = prefixLength - 1 + pool.pageSize := by omega
      rw [hsum, Nat.add_div_right _ pool.pageSize_pos]
      exact hlt
  have hfits : (blockTable.any fun row => row.length < pool.logicalPages prefixLength) = false := by
    rw [List.any_eq_false]
    intro row hrow
    rw [decide_eq_true_iff]
    exact Nat.not_lt.mpr (hreach row hrow)
  have hrows : (blockTable.map fun row => (List.range prefixLength).map (pool.token row)) =
      (cache.selectLayerPast prefixLength).map (List.map some) := by
    unfold ContiguousCache.selectLayerPast
    rw [Nat.min_eq_left (hpre.trans hextent), List.map_map]
    apply List.ext_getElem?
    intro b
    rw [List.getElem?_map, List.getElem?_map, ← hholds.length_eq]
    by_cases hb : b < blockTable.length
    · rw [List.getElem?_eq_getElem hb, List.getElem?_range hb, Option.map_some, Option.map_some]
      refine congrArg some ?_
      rw [Function.comp_apply, List.map_map]
      refine List.map_congr_left fun position hposition => ?_
      have hlt : position < extent := (List.mem_range.mp hposition).trans_le hpre
      exact hholds.reads b _ (List.getElem?_eq_getElem hb) position hlt
    · have hnone : blockTable[b]? = none := List.getElem?_eq_none (Nat.not_lt.mp hb)
      have hrange : (List.range blockTable.length)[b]? = none :=
        List.getElem?_eq_none (by rw [List.length_range]; exact Nat.not_lt.mp hb)
      rw [hnone, hrange, Option.map_none, Option.map_none]
  have hgather : pool.gather slot prefixLength =
      .ok ((cache.selectLayerPast prefixLength).map (List.map some)) := by
    unfold PagedKVPool.gather
    rw [hlookup]
    dsimp only
    rw [if_neg, hrows]
    rintro ⟨-, hempty | hshort⟩
    · exact hne (List.isEmpty_iff.mp hempty)
    · rw [hfits] at hshort
      exact Bool.false_ne_true hshort
  rw [hgather, ok_bind, gathered_some]

/-- Writing the new tokens extends what both caches hold. -/
theorem SameContents.scatter (h : SameContents slot extent pool cache) {prefixLength : Nat}
    {newKvs : NewKvs K V} (hpre : prefixLength ≤ extent) (hlonger : prefixLength < newKvs.length)
    (hmax : newKvs.length ≤ cache.maxLength) (hrows : newKvs.rows.length = cache.batchSize)
    (hbatch : 0 < cache.batchSize) :
    BothOrFull (Follows slot (max extent newKvs.length) cache)
      (raising (pool.scatter slot newKvs prefixLength)) (cache.updateCache newKvs prefixLength) := by
  obtain ⟨blockTable, hlookup, hholds⟩ := h.holds
  have hne : blockTable ≠ [] := by
    rintro rfl
    rw [← hholds.length_eq] at hbatch
    exact absurd hbatch (Nat.lt_irrefl 0)
  rcases PagedKVPool.scatter_ok h.apart hlookup hlonger (hrows.trans hholds.length_eq.symm) hne with
    hfull | ⟨pool', blockTable', hok, hapart, hlookup', hscattered⟩
  · exact Or.inl hfull
  · have hfits : ¬(newKvs.rows.length ≠ cache.batchSize ∨ cache.maxLength < newKvs.length) := by
      rintro (hne | hlt)
      · exact hne hrows
      · exact Nat.not_lt.mpr hmax hlt
    have hcache : ∃ cache', cache.updateCache newKvs prefixLength = .ok cache' ∧
        cache' = { cache with
          entry := fun b position =>
            match newKvs.rows[b]? with
            | some new =>
              if prefixLength ≤ position ∧ position < newKvs.length then new position
              else cache.entry b position
            | none => cache.entry b position } := by
      unfold ContiguousCache.updateCache
      rw [if_neg hfits]
      exact ⟨_, rfl, rfl⟩
    obtain ⟨cache', hcache, rfl⟩ := hcache
    refine Or.inr ⟨pool', _, hok, hcache, ⟨hapart, blockTable', hlookup', ?_, ?_⟩, rfl, rfl⟩
    · rw [hscattered.length_eq]
      exact hholds.length_eq
    · intro b row' hrow' position hposition
      have hb : b < newKvs.rows.length := by
        rw [hrows, ← hholds.length_eq, ← hscattered.length_eq]
        exact (List.getElem?_eq_some_iff.mp hrow').1
      have hnew : newKvs.rows[b]? = some newKvs.rows[b] := List.getElem?_eq_getElem hb
      dsimp only
      rw [hnew]
      dsimp only
      by_cases hwritten : prefixLength ≤ position ∧ position < newKvs.length
      · rw [if_pos hwritten]
        exact hscattered.written b row' _ hrow' hnew position hwritten.1 hwritten.2
      · rw [if_neg hwritten]
        -- what is not written now was below the old extent
        have hold : position < extent := by
          rcases lt_max_iff.mp hposition with hlt | hlt
          · exact hlt
          · by_contra hge
            exact hwritten ⟨hpre.trans (Nat.not_lt.mp hge), hlt⟩
        have hb' : b < blockTable.length := by
          rw [← hscattered.length_eq]
          exact (List.getElem?_eq_some_iff.mp hrow').1
        have hrow : blockTable[b]? = some blockTable[b] := List.getElem?_eq_getElem hb'
        exact hscattered.kept b _ row' hrow hrow' position _ hwritten
          (hholds.reads b _ hrow position hold)

/-! ### A step in both caches -/

/-- The outcomes of a step: the past that the block was given, and the caches. -/
def SameReads (slot extent : Nat) (cache : ContiguousCache K V)
    (paged : List (List (K × V)) × PagedKVPool K V)
    (contiguous : List (List (K × V)) × ContiguousCache K V) : Prop :=
  paged.1 = contiguous.1 ∧ Follows slot extent cache paged.2 contiguous.2

theorem selectLayerPast_length (cache : ContiguousCache K V) (prefixLength : Nat) :
    (cache.selectLayerPast prefixLength).length = cache.batchSize := by
  rw [ContiguousCache.selectLayerPast, List.length_map, List.length_range]

/-- **A step** reads the same past in both caches, unless the pool has no page for it. -/
theorem SameContents.step (h : SameContents slot extent pool cache) {prefixLength : Nat}
    {e : CacheStep K V} (hpre : prefixLength ≤ extent) (hextent : extent ≤ cache.maxLength)
    (hfits : prefixLength + e.newTokens ≤ cache.maxLength)
    (hids : ∀ ids ∈ e.hypoIds, ids.length = cache.batchSize ∧ ∀ i ∈ ids, i < cache.batchSize)
    (htokens : 0 < e.newTokens) (hbatch : 0 < cache.batchSize) :
    BothOrFull (SameReads slot (max extent (prefixLength + e.newTokens)) cache)
      (pagedStep pool slot prefixLength e) (contiguousStep cache prefixLength e) := by
  unfold pagedStep contiguousStep
  refine BothOrFull.bind (R := Follows slot extent cache) ?_ fun pool₁ cache₁ hreordered => ?_
  · -- the rows are reordered
    unfold CacheStep.reorderPool CacheStep.reorderCache
    cases hhypo : e.hypoIds with
    | none => exact Or.inr ⟨pool, cache, rfl, rfl, h, rfl, rfl⟩
    | some ids => exact h.reorder (hids ids hhypo).1 (hids ids hhypo).2
  · obtain ⟨hsame, hsize, hmax⟩ := hreordered
    rw [← hsize] at hbatch
    rw [← hmax] at hextent hfits
    rw [← bind_assoc, hsame.gather hpre hextent hbatch, ok_bind]
    have hrows : (e.forward (cache₁.selectLayerPast prefixLength)).length = cache₁.batchSize := by
      rw [e.forward_length, selectLayerPast_length]
    have hlonger : prefixLength < prefixLength + e.newTokens := Nat.lt_add_of_pos_right htokens
    have hscatter : BothOrFull (Follows slot (max extent (prefixLength + e.newTokens)) cache₁)
        (raising (pool₁.scatter slot
          ⟨prefixLength + e.newTokens, e.forward (cache₁.selectLayerPast prefixLength)⟩ prefixLength))
        (cache₁.updateCache
          ⟨prefixLength + e.newTokens, e.forward (cache₁.selectLayerPast prefixLength)⟩
          prefixLength) :=
      hsame.scatter hpre hlonger hfits hrows hbatch
    refine hscatter.bind fun pool₂ cache₂ hwritten => ?_
    obtain ⟨hsame', hsize', hmax'⟩ := hwritten
    exact Or.inr ⟨_, _, rfl, rfl, rfl, hsame', hsize'.trans hsize, hmax'.trans hmax⟩

/-- Operations of other sessions do not change what the slot holds. -/
theorem SameContents.frame (h : SameContents slot extent pool cache) {op : PoolOp K V}
    (hslot : op.slot ≠ slot) (hkeeps : pool.KeepsApart op) :
    SameContents slot extent (pool.perform op).2 cache := by
  obtain ⟨blockTable, hlookup, hholds⟩ := h.holds
  obtain ⟨htable, -, htoken⟩ := h.apart.frame hslot
  refine ⟨h.apart.perform hkeeps, blockTable, htable.trans hlookup, hholds.length_eq, ?_⟩
  intro b row hrow position hposition
  rw [htoken blockTable hlookup row (List.mem_of_getElem? hrow)]
  exact hholds.reads b row hrow position hposition

/-! ### Runs of the twin -/

namespace Twin

/-- The two caches hold the same up to some extent, which the prefix has not passed. -/
def Agrees (slot : Nat) (s : Twin K V) : Prop :=
  ∃ extent, SameContents slot extent s.pool s.cache ∧ s.prefixLength ≤ extent ∧
    extent ≤ s.cache.maxLength

/-- The other sessions keep the pages apart. -/
def OthersKeepApart (s : Twin K V) : TwinEvent K V → Prop
  | .other op => s.pool.KeepsApart op
  | .step _ => True

instance (s : Twin K V) : ∀ event, Decidable (s.OthersKeepApart event)
  | .other op => inferInstanceAs (Decidable (s.pool.KeepsApart op))
  | .step _ => isTrue trivial

/-- The twin of a session that enters its slot. -/
def enter (pool : PagedKVPool K V) (slot : Nat) (cache : ContiguousCache K V) : Twin K V :=
  ⟨pool.registerSlot slot cache.batchSize, cache, 0⟩

theorem agrees_enter {pool : PagedKVPool K V} (hapart : pool.Apart) {slot : Nat}
    (hslot : slot ∉ pool.blockTables) (cache : ContiguousCache K V) :
    (enter pool slot cache).Agrees slot := by
  have hentered : (pool.registerSlot slot cache.batchSize).Apart :=
    hapart.perform (show pool.KeepsApart (.registerSlot slot cache.batchSize) from trivial)
  have hlookup : (pool.registerSlot slot cache.batchSize).blockTables.lookup slot =
      some (List.replicate cache.batchSize []) := by
    unfold PagedKVPool.registerSlot
    rw [if_neg hslot]
    exact AList.lookup_insert _
  refine ⟨0, ⟨hentered, List.replicate cache.batchSize [], hlookup, ?_, ?_⟩, Nat.le_refl 0,
    Nat.zero_le _⟩
  · exact List.length_replicate
  · intro b row _ position hposition
    exact absurd hposition (Nat.not_lt_zero _)

variable {s s' : Twin K V}

/-- A batch without rows holds anything up to any extent. -/
theorem SameContents.widen (h : SameContents slot extent pool cache) (hbatch : cache.batchSize = 0)
    (extent' : Nat) : SameContents slot extent' pool cache := by
  obtain ⟨blockTable, hlookup, hholds⟩ := h.holds
  refine ⟨h.apart, blockTable, hlookup, hholds.length_eq, fun b row hrow => ?_⟩
  have hlt := (List.getElem?_eq_some_iff.mp hrow).1
  rw [hholds.length_eq, hbatch] at hlt
  exact absurd hlt (Nat.not_lt_zero _)

/-- **An event keeps the two caches in agreement.** -/
theorem Agrees.next {event : TwinEvent K V} (h : s.Agrees slot) (hkeeps : s.OthersKeepApart event)
    (hnext : s.next slot event = some s') : s'.Agrees slot := by
  obtain ⟨extent, hsame, hpre, hextent⟩ := h
  cases event with
  | other op =>
    unfold Twin.next at hnext
    dsimp only at hnext
    split at hnext
    · exact absurd hnext (by simp)
    · next hslot =>
      obtain rfl := Option.some.inj hnext
      exact ⟨extent, hsame.frame hslot hkeeps, hpre, hextent⟩
  | step e =>
    unfold Twin.next at hnext
    dsimp only at hnext
    split at hnext
    · next haccepted =>
      obtain ⟨hstart, hfits, hids⟩ := haccepted
      split at hnext
      · next hnothing =>
        -- no element is computed, and the prefix moves
        obtain rfl := Option.some.inj hnext
        rcases hnothing with htokens | hbatch
        · refine ⟨extent, hsame, ?_, hextent⟩
          rw [htokens, Nat.add_zero]
          exact hstart.trans hpre
        · exact ⟨max extent (e.prefixLength s.prefixLength + e.newTokens),
            SameContents.widen hsame hbatch _, le_max_right _ _, max_le hextent hfits⟩
      · next hsomething =>
        rw [not_or] at hsomething
        obtain ⟨htokens, hbatch⟩ := hsomething
        have hstep := hsame.step (hstart.trans hpre) hextent hfits hids
          (Nat.pos_of_ne_zero htokens) (Nat.pos_of_ne_zero hbatch)
        rcases hstep with hfull | ⟨⟨past, pool⟩, ⟨past', cache⟩, hpaged, hcontiguous, -, hfollows⟩
        · rw [hfull] at hnext
          exact absurd hnext (by simp)
        · rw [hpaged, hcontiguous] at hnext
          obtain rfl := Option.some.inj hnext
          obtain ⟨hsame', -, hmax⟩ := hfollows
          refine ⟨_, hsame', le_max_right _ _, ?_⟩
          show max extent (e.prefixLength s.prefixLength + e.newTokens) ≤ cache.maxLength
          rw [show cache.maxLength = s.cache.maxLength from hmax]
          exact max_le hextent hfits
    · exact absurd hnext (by simp)

end Twin

/-- The pages of every reachable pool are apart, while no `reorder` frees what it hands on. -/
theorem PagedKVPool.apart_of_reach {numPages pageSize : Nat} {hpos : 0 < pageSize} {zeroKey : K}
    {zeroValue : V} {pool : PagedKVPool K V} (hreach : (poolMachine K V).Reach PagedKVPool.KeepsApart
      (PagedKVPool.initial numPages pageSize hpos zeroKey zeroValue) pool) : pool.Apart := by
  refine hreach.invariant ?_ fun s op s' h hkeeps hstep => ?_
  · show (List.range numPages ++ []).Nodup
    rw [List.append_nil]
    exact List.nodup_range
  · obtain rfl : (s.perform op).2 = s' := Option.some.inj hstep
    exact h.perform hkeeps

/-- **The paged cache refines the contiguous one**, while no `reorder` of another session frees a row
that it hands on or hands one on under two names. In every state of a session that enters a pool, an
accepted step either finds no page in the pool, or reads the same past in both caches and writes both. -/
theorem gather_refines_contiguous {numPages pageSize : Nat} (hpos : 0 < pageSize) (zeroKey : K)
    (zeroValue : V) {pool : PagedKVPool K V} (hpool : (poolMachine K V).Reach PagedKVPool.KeepsApart
      (PagedKVPool.initial numPages pageSize hpos zeroKey zeroValue) pool)
    {slot : Nat} (hslot : slot ∉ pool.blockTables) (cache : ContiguousCache K V) {s : Twin K V}
    (hreach : (twinMachine K V slot).Reach Twin.OthersKeepApart (Twin.enter pool slot cache) s)
    {e : CacheStep K V} (hsteps : s.Steps e) :
    BothOrFull (fun paged contiguous => paged.1 = contiguous.1)
      (pagedStep s.pool slot (e.prefixLength s.prefixLength) e)
      (contiguousStep s.cache (e.prefixLength s.prefixLength) e) := by
  have hagrees : s.Agrees slot :=
    hreach.invariant (Twin.agrees_enter (PagedKVPool.apart_of_reach hpool) hslot cache)
      fun s event s' h hkeeps hnext => h.next hkeeps hnext
  obtain ⟨extent, hsame, hpre, hextent⟩ := hagrees
  obtain ⟨⟨hstart, hfits, hids⟩, htokens, hbatch⟩ := hsteps
  rcases hsame.step (hstart.trans hpre) hextent hfits hids htokens hbatch with
    hfull | ⟨paged, contiguous, hpaged, hcontiguous, hpast, -⟩
  · exact Or.inl hfull
  · exact Or.inr ⟨paged, contiguous, hpaged, hcontiguous, hpast⟩

/-- A block whose new entries tell the row, the position and the length of the past. -/
def tellingStep (startFromPosition : Option Nat) (hypoIds : Option (List Nat)) (newTokens : Nat) :
    CacheStep Nat Nat where
  startFromPosition := startFromPosition
  hypoIds := hypoIds
  newTokens := newTokens
  forward := fun past => past.zipIdx.map fun p position => (10 * p.2 + position, p.1.length)
  forward_length := fun past => by rw [List.length_map, List.length_zipIdx]

/-- A pool of eight pages for two tokens each, with another session in it. -/
def sharedPool : PagedKVPool Nat Nat := .initial 8 2 (by decide) 0 0

/-- Two rows for up to four tokens. -/
def emptyCache : ContiguousCache Nat Nat := ⟨2, 4, fun _ _ => (0, 0)⟩

/-- The session writes three tokens, goes back to the first one and keeps the second row twice, while
another session writes to the pool. -/
def rollbackRun : List (TwinEvent Nat Nat) :=
  [.step (tellingStep none none 3), .other (.registerSlot 1 1),
    .other (.scatter 1 ⟨1, [fun _ => (7, 7)]⟩ 0), .step (tellingStep (some 1) (some [1, 1]) 2)]

theorem gather_refines_contiguous_after_rollback :
    ∃ s : Twin Nat Nat, s.prefixLength = 3 ∧
      BothOrFull (fun paged contiguous => paged.1 = contiguous.1)
        (pagedStep s.pool 0 3 (tellingStep none none 1))
        (contiguousStep s.cache 3 (tellingStep none none 1)) := by
  have hrun : (((twinMachine Nat Nat 0).run (Twin.enter sharedPool 0 emptyCache) rollbackRun).map
      fun s => (s.prefixLength, decide (s.Steps (tellingStep none none 1)))) = some (3, true) := by
    decide +kernel
  have halong : (twinMachine Nat Nat 0).Along Twin.OthersKeepApart (Twin.enter sharedPool 0 emptyCache)
      rollbackRun := by
    decide +kernel
  obtain ⟨s, hrun, hview⟩ := Option.map_eq_some_iff.mp hrun
  obtain ⟨hpre, hsteps⟩ := Prod.mk.inj hview
  have hreach := Machine.reach_of_run hrun halong
  have hrefines := gather_refines_contiguous (by decide) 0 0 Machine.Reach.refl
    (AList.notMem_empty 0) emptyCache hreach
    (of_decide_eq_true hsteps)
  rw [hpre] at hrefines
  exact ⟨s, hpre, hrefines⟩

/-- Another session hands its row on under a negative index, the session takes the page that this frees,
and the other session writes to it. -/
def takenPageRun : List (TwinEvent Nat Nat) :=
  [.other (.reorder 1 [-1]), .step (tellingStep none none 1),
    .other (.scatter 1 ⟨1, [fun _ => (9, 9)]⟩ 0)]

/-- **A session reads what another one wrote**, after the vector `[-1]` of the other one. -/
theorem negative_index_of_another_session_changes_the_past :
    ∃ (pool : PagedKVPool Nat Nat) (s : Twin Nat Nat) (e : CacheStep Nat Nat),
      (poolMachine Nat Nat).Reach PagedKVPool.KeepsApart threePages pool ∧ 0 ∉ pool.blockTables ∧
      (twinMachine Nat Nat 0).Reach Machine.always (Twin.enter pool 0 ⟨1, 2, fun _ _ => (0, 0)⟩) s ∧
      s.Steps e ∧
      ((pagedStep s.pool 0 (e.prefixLength s.prefixLength) e).map Prod.fst).toOption =
        some [[(9, 9)]] ∧
      ((contiguousStep s.cache (e.prefixLength s.prefixLength) e).map Prod.fst).toOption =
        some [[(0, 0)]] := by
  have hview : (((poolMachine Nat Nat).run threePages
      [.registerSlot 1 1, .scatter 1 ⟨1, [fun _ => (7, 7)]⟩ 0]).bind fun pool =>
        ((twinMachine Nat Nat 0).run (Twin.enter pool 0 ⟨1, 2, fun _ _ => (0, 0)⟩) takenPageRun).map
          fun s => (pool.blockTables.keys, decide (s.Steps (tellingStep none none 1)),
            [((pagedStep s.pool 0 s.prefixLength (tellingStep none none 1)).map Prod.fst).toOption,
              ((contiguousStep s.cache s.prefixLength (tellingStep none none 1)).map
                Prod.fst).toOption])) =
        some ([1], true, [some [[(9, 9)]], some [[(0, 0)]]]) := by
    rfl
  have halong : (poolMachine Nat Nat).Along PagedKVPool.KeepsApart threePages
      [.registerSlot 1 1, .scatter 1 ⟨1, [fun _ => (7, 7)]⟩ 0] := by
    decide
  obtain ⟨pool, hpool, hview⟩ := Option.bind_eq_some_iff.mp hview
  obtain ⟨s, hrun, hview⟩ := Option.map_eq_some_iff.mp hview
  simp only [Prod.mk.injEq, List.cons.injEq, and_true] at hview
  obtain ⟨hkeys, hsteps, hpaged, hcontiguous⟩ := hview
  have hslot : 0 ∉ pool.blockTables := by
    intro hmem
    have hkey : 0 ∈ pool.blockTables.keys := AList.mem_keys.mpr hmem
    rw [hkeys] at hkey
    exact absurd hkey (by decide)
  exact ⟨pool, s, tellingStep none none 1, Machine.reach_of_run hpool halong, hslot,
    Machine.reach_always_of_run hrun, of_decide_eq_true hsteps, hpaged, hcontiguous⟩

end Drift.Server
