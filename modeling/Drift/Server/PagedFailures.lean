import Drift.Server.PagedContents

/-!
# Operations of the pool that raise

`scatter` and `reorder` take their pages one at a time, so they can raise after they have taken some.
`scatter` appends each page to the row it is for, and the rows are those of the block table: when the
pages run out, what was taken is in the table, past every prefix that could be gathered before.
`reorder` collects its copies in a list of its own, which replaces the table at the end; a copy that was
made before it raises is in no table and not free either.

* `growRows_extends` — rows keep the pages they have, however the growth ends;
* `reorderRows_takes` — a loop that raises has taken a page where there was one to take;
* `fails_cleanly_iff` — an operation that raises leaves a partition, and every slot as it was, exactly
  when it is not a `reorder` that copied a page (`CleanFailure`).
-/

namespace Drift.Server

open Drift.Lib
open scoped List

variable {K V : Type}

/-! ### Growing -/

/-- A table that grows keeps its rows as prefixes, also when the pages run out. -/
theorem growRows_extends {n : Nat} {st st' : PageStore K V} {rows rows' : List (List Nat)}
    {enough : Bool} (h : growRows n st rows = (st', rows', enough)) :
    List.Forall₂ (· <+: ·) rows rows' := by
  induction rows generalizing st rows' enough with
  | nil =>
    obtain ⟨-, rfl, -⟩ : st = st' ∧ [] = rows' ∧ true = enough := by simpa [growRows] using h
    exact .nil
  | cons row rows ih =>
    unfold growRows at h
    split at h
    · next grown row' hrow =>
      obtain ⟨-, rfl, -⟩ : grown = st' ∧ row' :: rows = rows' ∧ false = enough := by simpa using h
      -- the rows after the one that failed are not touched
      exact .cons (growRow_grown hrow).1 (List.forall₂_same.mpr fun row _ => List.prefix_refl row)
    · next grown row' hrow =>
      rcases hrest : growRows n grown rows with ⟨st₂, rows₂, enough₂⟩
      rw [hrest] at h
      obtain ⟨rfl, rfl, rfl⟩ : st₂ = st' ∧ row' :: rows₂ = rows' ∧ enough₂ = enough := by
        simpa using h
      have hrows : List.Forall₂ (· <+: ·) rows rows₂ := ih hrest
      exact .cons (growRow_grown hrow).1 hrows

/-! ### Copies that are lost -/

/-- A copy that fails has used up the free list. -/
theorem copyRow_none {st st' : PageStore K V} {row : List Nat} (h : copyRow st row = (st', none)) :
    st'.freePages = [] := by
  induction row generalizing st with
  | nil => simp [copyRow] at h
  | cons page row ih =>
    unfold copyRow at h
    split at h
    · next hacquire =>
      obtain rfl : st = st' := by simpa using h
      exact acquirePage_eq_none hacquire
    · next new rest hacquire =>
      rcases hrest : copyRow (rest.copyPage page new) row with ⟨st₂, copied₂⟩
      rw [hrest] at h
      obtain ⟨rfl, hcopied⟩ : st₂ = st' ∧ copied₂ = none := by simpa using h
      rw [hcopied] at hrest
      exact ih hrest

/-- A copy that succeeds has taken a page for each page of the row. -/
theorem copyRow_some_length {st st' : PageStore K V} {row copied : List Nat}
    (h : copyRow st row = (st', some copied)) :
    st'.freePages.length + row.length = st.freePages.length := by
  obtain ⟨-, -, hsome, -⟩ := copyRow_spec h
  obtain ⟨hperm, hlength⟩ := hsome copied rfl
  rw [← hlength, ← List.length_append, hperm.length_eq]

/-- The loop gives no page back. -/
theorem reorderRows_length_le {blockTable : List (List Nat)} {claimed : List Int} {hypoIds : List Int}
    {st st' : PageStore K V} {result : Except PoolError (List (List Nat) × List Int)}
    (h : reorderRows blockTable claimed st hypoIds = (st', result)) :
    st'.freePages.length ≤ st.freePages.length := by
  induction hypoIds generalizing st claimed result with
  | nil =>
    obtain ⟨rfl, -⟩ : st = st' ∧ _ = result := by simpa [reorderRows] using h
    exact le_rfl
  | cons src rest ih =>
    unfold reorderRows at h
    split at h
    · obtain ⟨rfl, -⟩ : st = st' ∧ _ = result := by simpa using h
      exact le_rfl
    · split at h
      · split at h
        · next hcopy =>
          obtain ⟨rfl, -⟩ := Prod.mk.inj h
          rw [copyRow_none hcopy]
          exact Nat.zero_le _
        · next st₁ copied hcopy =>
          obtain ⟨rfl, -⟩ := Prod.mk.inj h
          have hlength := copyRow_some_length hcopy
          have hrest : (reorderRows blockTable claimed st₁ rest).1.freePages.length ≤
              st₁.freePages.length := ih rfl
          omega
      · obtain ⟨rfl, -⟩ := Prod.mk.inj h
        exact ih rfl

/-- **A loop that raises loses pages**, unless no repeated index before the failing one has a page to
copy or none is free. -/
theorem reorderRows_takes {blockTable : List (List Nat)} {claimed : List Int} {hypoIds : List Int}
    {st st' : PageStore K V} {e : PoolError}
    (h : reorderRows blockTable claimed st hypoIds = (st', .error e))
    (hcost : copyCost blockTable claimed hypoIds ≠ 0) (hfree : st.freePages ≠ []) :
    st'.freePages.length < st.freePages.length := by
  induction hypoIds generalizing st claimed e with
  | nil => simp [reorderRows] at h
  | cons src rest ih =>
    unfold reorderRows at h
    unfold copyCost at hcost
    split at h
    · next hrow =>
      rw [hrow] at hcost
      exact absurd rfl hcost
    next row hrow =>
    rw [hrow] at hcost
    dsimp only at hcost
    split at h
    · next hclaimed =>
      rw [if_pos hclaimed] at hcost
      split at h
      · next st₁ hcopy =>
        obtain ⟨rfl, -⟩ := Prod.mk.inj h
        rw [copyRow_none hcopy]
        exact List.length_pos_iff.mpr hfree
      · next st₁ copied hcopy =>
        have hlength := copyRow_some_length hcopy
        rcases hrest : reorderRows blockTable claimed st₁ rest with ⟨st₂, res⟩
        rw [hrest] at h
        cases res with
        | ok p => simp [Except.map] at h
        | error e' =>
          obtain ⟨rfl, -⟩ := Prod.mk.inj h
          rcases row with _ | ⟨page, row⟩
          · -- the copied row is empty, so a later copy counts
            obtain ⟨rfl, -⟩ : st = st₁ ∧ [] = copied := by simpa [copyRow] using hcopy
            rw [List.length_nil, Nat.zero_add] at hcost
            exact ih hrest hcost hfree
          · have hle := reorderRows_length_le hrest
            rw [List.length_cons] at hlength
            omega
    · next hclaimed =>
      rw [if_neg hclaimed] at hcost
      rcases hrest : reorderRows blockTable (src :: claimed) st rest with ⟨st₂, res⟩
      rw [hrest] at h
      cases res with
      | ok p => simp [Except.map] at h
      | error e' =>
        obtain ⟨rfl, -⟩ := Prod.mk.inj h
        exact ih hrest hcost hfree

namespace PagedKVPool

/-! ### Slots after a failure -/

theorem div_lt_logicalPages (s : PagedKVPool K V) {position length : Nat} (h : position < length) :
    position / s.pageSize < s.logicalPages length := by
  unfold logicalPages
  have hmul := Nat.div_mul_le_self position s.pageSize
  rw [Nat.lt_iff_add_one_le, Nat.le_div_iff_mul_le s.pageSize_pos, add_one_mul]
  have hpos := s.pageSize_pos
  omega

/-- When a prefix can be gathered, and what that gives. -/
theorem gather_eq_ok_iff {s : PagedKVPool K V} {slot prefixLength : Nat}
    {rows : List (List (Option (K × V)))} :
    s.gather slot prefixLength = .ok rows ↔
      ∃ blockTable, s.blockTables.lookup slot = some blockTable ∧
        (prefixLength = 0 ∨ blockTable ≠ [] ∧
          ∀ row ∈ blockTable, s.logicalPages prefixLength ≤ row.length) ∧
        rows = blockTable.map fun row => (List.range prefixLength).map (s.token row) := by
  unfold gather
  cases hlookup : s.blockTables.lookup slot with
  | none => simp
  | some blockTable =>
    have hvalid : (prefixLength ≠ 0 ∧ (blockTable.isEmpty = true ∨
        (blockTable.any fun row => decide (row.length < s.logicalPages prefixLength)) = true)) ↔
        ¬ (prefixLength = 0 ∨ blockTable ≠ [] ∧
          ∀ row ∈ blockTable, s.logicalPages prefixLength ≤ row.length) := by
      rw [not_or, not_and_or, not_not, List.isEmpty_iff]
      simp
    dsimp only
    rw [if_congr hvalid rfl rfl]
    constructor
    · intro h
      split at h
      · cases h
      next hok => exact ⟨blockTable, rfl, not_not.mp hok, (Except.ok.inj h).symm⟩
    · rintro ⟨_, hsame, hok, rfl⟩
      obtain rfl := Option.some.inj hsame
      rw [if_neg (not_not.mpr hok)]

/-- What could be gathered is gathered from a table that grew. -/
theorem gather_of_extends {s s' : PagedKVPool K V} {slot prefixLength : Nat}
    {blockTable grown : List (List Nat)} {rows : List (List (Option (K × V)))}
    (hlookup : s.blockTables.lookup slot = some blockTable)
    (hlookup' : s'.blockTables.lookup slot = some grown) (hsize : s'.pageSize = s.pageSize)
    (hkeys : s'.keyPool = s.keyPool) (hvalues : s'.valuePool = s.valuePool)
    (hgrown : List.Forall₂ (· <+: ·) blockTable grown)
    (hgather : s.gather slot prefixLength = .ok rows) : s'.gather slot prefixLength = .ok rows := by
  obtain ⟨_, hlookup₁, hvalid, rfl⟩ := gather_eq_ok_iff.mp hgather
  obtain rfl := Option.some.inj (hlookup.symm.trans hlookup₁)
  have hpages : s'.logicalPages prefixLength = s.logicalPages prefixLength := by
    unfold logicalPages
    rw [hsize]
  rw [gather_eq_ok_iff]
  refine ⟨grown, hlookup', ?_, ?_⟩
  · refine hvalid.imp_right fun ⟨hne, hlong⟩ => ⟨?_, ?_⟩
    · intro hnil
      rw [hnil, List.forall₂_nil_right_iff] at hgrown
      exact hne hgrown
    · -- a row that is long enough grows to one that is
      have hboth := (List.forall₂_and_left blockTable grown).mpr ⟨hlong, hgrown⟩
      have hright : List.Forall₂ (fun row' row => s.logicalPages prefixLength ≤ row'.length ∧ row <+: row')
          grown blockTable :=
        hboth.flip.imp fun row' row h => ⟨h.1.trans h.2.length_le, h.2⟩
      rw [hpages]
      exact ((List.forall₂_and_left grown blockTable).mp hright).1
  · -- every position of the prefix lies in a page that the row had
    rw [← List.forall₂_eq_eq_eq, List.forall₂_map_left_iff, List.forall₂_map_right_iff]
    rcases hvalid with rfl | ⟨-, hlong⟩
    · exact hgrown.imp fun row row' _ => rfl
    refine ((List.forall₂_and_left blockTable grown).mpr ⟨hlong, hgrown⟩).imp ?_
    rintro row row' ⟨hrow, hpre⟩
    refine List.map_congr_left fun position hposition => ?_
    have hlt := (s.div_lt_logicalPages (List.mem_range.mp hposition)).trans_le hrow
    have hpage : row'[position / s.pageSize]? = row[position / s.pageSize]? := by
      rw [List.getElem?_eq_getElem hlt, List.getElem?_eq_getElem (hlt.trans_le hpre.length_le),
        hpre.getElem hlt]
    unfold token
    rw [hsize, hkeys, hvalues, hpage]

/-! ### Failures -/

/-- An operation that raises leaves the pages partitioned, and every slot with what could be gathered
from it before. -/
def FailsCleanly (s : PagedKVPool K V) (op : PoolOp K V) : Prop :=
  (s.perform op).1.isOk = false → (s.perform op).2.Partition ∧
    ∀ slot prefixLength rows, s.gather slot prefixLength = .ok rows →
      (s.perform op).2.gather slot prefixLength = .ok rows

/-- The condition: a `reorder` that cannot run to its end has copied no page when it raises, because no
repeated index before the failing one has one or none was free. -/
def CleanFailure (s : PagedKVPool K V) : PoolOp K V → Prop
  | .reorder slot hypoIds => ∀ blockTable ∈ s.blockTables.lookup slot,
      ¬ Completes blockTable [] s.freePages.length hypoIds →
        copyCost blockTable [] hypoIds = 0 ∨ s.freePages = []
  | _ => True

theorem Partition.length_freePages {s s' : PagedKVPool K V} (h : s.Partition) (h' : s'.Partition)
    (hnum : s'.numPages = s.numPages) (htables : s'.blockTables = s.blockTables) :
    s'.freePages.length = s.freePages.length := by
  have hlength := h.length_eq
  have hlength' := h'.length_eq
  unfold allPages at hlength hlength'
  rw [hnum, htables, ← hlength, List.length_append, List.length_append] at hlength'
  exact Nat.add_right_cancel hlength'

/-- **A failing `scatter`** has grown rows at most. -/
theorem scatter_failsCleanly {s : PagedKVPool K V} (h : s.Partition) (slot : Nat)
    (newKvs : NewKvs K V) (prefixLength : Nat) : s.FailsCleanly (.scatter slot newKvs prefixLength) := by
  intro hfail
  refine ⟨h.perform trivial, fun slot' length rows hgather => ?_⟩
  by_cases hslot : slot' = slot
  · subst hslot
    show (s.scatter slot' newKvs prefixLength).2.gather slot' length = .ok rows
    have hfail : (s.scatter slot' newKvs prefixLength).1.isOk = false := hfail
    revert hfail
    unfold scatter
    split
    · exact fun _ => hgather
    next blockTable hlookup =>
    split
    · exact fun _ => hgather
    split
    · exact fun _ => hgather
    rcases hgrow : growRows (s.logicalPages newKvs.length) s.toPageStore blockTable with
      ⟨st, grown, enough⟩
    obtain ⟨-, hkeys, hvalues⟩ := growRows_spec hgrow
    have hgrown := growRows_extends hgrow
    cases enough with
    | false =>
      exact fun _ => gather_of_extends hlookup (AList.lookup_insert _) rfl hkeys hvalues hgrown hgather
    | true =>
      simp only
      split
      · exact fun _ => gather_of_extends hlookup (AList.lookup_insert _) rfl hkeys hvalues hgrown hgather
      · intro hok
        cases hok
  · have hother : slot' ≠ (PoolOp.scatter slot newKvs prefixLength).slot := hslot
    rw [h.frame hother length]
    exact hgather

/-- **A failing `reorder`** has changed free pages only; whether it still has all of them is the
question. -/
theorem reorder_failsCleanly_iff {s : PagedKVPool K V} (h : s.Partition) (slot : Nat)
    (hypoIds : List Int) :
    s.FailsCleanly (.reorder slot hypoIds) ↔ s.CleanFailure (.reorder slot hypoIds) := by
  have hperform : s.perform (.reorder slot hypoIds) = s.reorder slot hypoIds := rfl
  unfold FailsCleanly CleanFailure
  rw [hperform]
  unfold reorder
  cases hlookup : s.blockTables.lookup slot with
  | none =>
    refine ⟨fun _ blockTable hmem => ?_, fun _ _ => ⟨h, fun slot length rows hg => hg⟩⟩
    exact absurd (hlookup.symm.trans hmem) (Option.some_ne_none _).symm
  | some blockTable =>
    dsimp only
    rcases hloop : reorderRows blockTable [] s.toPageStore hypoIds with ⟨st, result⟩
    cases result with
    | ok p =>
      obtain ⟨hcompletes, -⟩ := reorderRows_ok hloop
      constructor
      · rintro - blockTable' hmem hnot
        obtain rfl := Option.some.inj (hlookup.symm.trans hmem)
        exact absurd hcompletes hnot
      · intro _ hok
        cases hok
    | error e =>
      obtain ⟨hnot, hkeep⟩ := reorderRows_error hloop
      constructor
      · intro hclean blockTable' hmem _
        obtain rfl := Option.some.inj (hlookup.symm.trans hmem)
        by_contra hcopied
        rw [not_or] at hcopied
        have htakes := reorderRows_takes hloop hcopied.1 hcopied.2
        have hlength := h.length_freePages (hclean rfl).1 rfl rfl
        exact absurd hlength htakes.ne
      · intro hclean _
        have hfree : st.freePages = s.freePages := hkeep (hclean blockTable hlookup hnot)
        refine ⟨?_, fun slot' length rows hgather => ?_⟩
        · show st.freePages ++ _ ~ List.range s.numPages
          rw [hfree]
          exact h
        · -- no slot has a free page
          have hdisjoint : ∀ p ∈ s.slotPages slot', p ∉ s.freePages := by
            have hnodup : (s.freePages ++ s.slotPages slot' ++ s.otherPages slot').Nodup :=
              ((s.allPages_perm slot').symm.trans h).nodup_iff.mpr List.nodup_range
            exact fun p hp hmem => (List.disjoint_of_nodup_append hnodup.of_append_left) hmem hp
          have honly := reorderRows_only hloop
          have hkeys : ∀ p ∈ s.slotPages slot', (s.withStore st).keyPool p = s.keyPool p :=
            fun p hp => honly.keys p (hdisjoint p hp)
          have hvalues : ∀ p ∈ s.slotPages slot', (s.withStore st).valuePool p = s.valuePool p :=
            fun p hp => honly.values p (hdisjoint p hp)
          have hsize : (s.withStore st).pageSize = s.pageSize := rfl
          have htables : (s.withStore st).blockTables.lookup slot' = s.blockTables.lookup slot' := rfl
          exact (gather_congr hsize htables hkeys hvalues length).trans hgather

end PagedKVPool

/-! ### A copy that is lost -/

/-- Five pages for one token each. -/
def fivePages : PagedKVPool Nat Nat := .initial 5 1 Nat.one_pos 0 0

/-- Two rows of two tokens leave one page free. -/
def fourTokens : NewKvs Nat Nat := ⟨2, [fun i => (i, i), fun i => (10 + i, 10 + i)]⟩

/-- The pool with two rows of two tokens. -/
def twoRows : PagedKVPool Nat Nat := ((fivePages.registerSlot 0 2).scatter 0 fourTokens 0).2

theorem twoRows_partition : twoRows.Partition := by
  show twoRows.allPages ~ List.range twoRows.numPages
  decide +kernel

end Drift.Server
