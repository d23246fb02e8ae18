import Drift.Server.PagedPool
import Mathlib.Data.List.Perm.Basic
import Mathlib.Data.List.Nodup

/-!
# Page ownership in the paged pool

The pages of a pool are either free or in a row of a slot. `Partition` says that each page is in
exactly one such place. All operations keep it except `reorder`, which puts raw index values from the
network in a set and then looks the plain row numbers up in that set: a row that is claimed under a
negative index is handed on and freed, and pages that are copied before an error are lost. `CleanReorder`
says when neither happens.

* `growRows_spec`, `reorderRows_ok`, `reorderRows_error` — where the pages of a store go;
* `OnlyPages` — the pages whose contents an operation may change;
* `Partition.perform`, `Partition.frame` — one operation;
* `pages_partitioned` — runs;
* `negative_index_frees_an_owned_page` — a run that breaks the partition without raising.
-/

namespace Drift.Server

open Drift.Lib
open scoped List

variable {K V : Type}

/-! ### What an operation may change -/

/-- The contents of `st'` differ from those of `st` on the listed pages only. -/
structure OnlyPages (pages : List Nat) (st st' : PageStore K V) : Prop where
  keys : ∀ p ∉ pages, st'.keyPool p = st.keyPool p
  values : ∀ p ∉ pages, st'.valuePool p = st.valuePool p

namespace OnlyPages

variable {pages pages' : List Nat} {st st' st'' : PageStore K V}

theorem refl (pages : List Nat) (st : PageStore K V) : OnlyPages pages st st where
  keys _ _ := rfl
  values _ _ := rfl

theorem trans (h : OnlyPages pages st st') (h' : OnlyPages pages st' st'') :
    OnlyPages pages st st'' where
  keys p hp := (h'.keys p hp).trans (h.keys p hp)
  values p hp := (h'.values p hp).trans (h.values p hp)

theorem mono (h : OnlyPages pages st st') (hsub : pages ⊆ pages') : OnlyPages pages' st st' where
  keys p hp := h.keys p fun hmem => hp (hsub hmem)
  values p hp := h.values p fun hmem => hp (hsub hmem)

theorem of_pools (hkeys : st'.keyPool = st.keyPool) (hvalues : st'.valuePool = st.valuePool) :
    OnlyPages pages st st' where
  keys _ _ := by rw [hkeys]
  values _ _ := by rw [hvalues]

theorem copyPage {page new : Nat} (hnew : new ∈ pages) :
    OnlyPages pages st (st.copyPage page new) where
  keys _ hp := if_neg (ne_of_mem_of_not_mem hnew hp).symm
  values _ hp := if_neg (ne_of_mem_of_not_mem hnew hp).symm

theorem writePage {page base offStart offEnd : Nat} {row : Nat → K × V} (hpage : page ∈ pages) :
    OnlyPages pages st (st.writePage page base offStart offEnd row) where
  keys p hp := by
    have hne : p ≠ page := (ne_of_mem_of_not_mem hpage hp).symm
    funext off
    simp [PageStore.writePage, hne]
  values p hp := by
    have hne : p ≠ page := (ne_of_mem_of_not_mem hpage hp).symm
    funext off
    simp [PageStore.writePage, hne]

end OnlyPages

/-- The contents of the listed pages may change, and the free list may not. -/
structure WritesTo (pages : List Nat) (st st' : PageStore K V) : Prop
    extends OnlyPages pages st st' where
  free : st'.freePages = st.freePages

theorem WritesTo.refl (pages : List Nat) (st : PageStore K V) : WritesTo pages st st :=
  ⟨.refl _ _, rfl⟩

theorem WritesTo.foldl {β : Type} {pages : List Nat} {f : PageStore K V → β → PageStore K V}
    {l : List β} (h : ∀ st, ∀ b ∈ l, WritesTo pages st (f st b)) (st : PageStore K V) :
    WritesTo pages st (l.foldl f st) := by
  induction l generalizing st with
  | nil => exact .refl _ _
  | cons b l ih =>
    have hfirst := h st b List.mem_cons_self
    have hrest := ih (fun st b hb => h st b (List.mem_cons_of_mem _ hb)) (f st b)
    exact ⟨hfirst.toOnlyPages.trans hrest.toOnlyPages, hrest.free.trans hfirst.free⟩

/-- Taking a page moves it out of the free list and nothing else. -/
theorem acquirePage_spec {st st' : PageStore K V} {page : Nat}
    (h : st.acquirePage = some (page, st')) :
    st.freePages = st'.freePages ++ [page] ∧ st'.keyPool = st.keyPool ∧
      st'.valuePool = st.valuePool := by
  obtain ⟨last, hlast, heq⟩ := Option.map_eq_some_iff.mp h
  obtain ⟨rfl, rfl⟩ := Prod.mk.inj heq
  have hsplit := List.dropLast_append_getLast? last hlast
  exact ⟨hsplit.symm, rfl, rfl⟩

theorem acquirePage_eq_none {st : PageStore K V} (h : st.acquirePage = none) :
    st.freePages = [] := by
  rw [PageStore.acquirePage, Option.map_eq_none_iff] at h
  exact List.getLast?_eq_none_iff.mp h

/-! ### Growing -/

/-- A row grows by pages from the free list, in whatever number there are. -/
theorem growRow_spec {st st' : PageStore K V} {row row' : List Nat} {enough : Bool} {count : Nat}
    (h : growRow st row count = (st', row', enough)) :
    st'.freePages ++ row' ~ st.freePages ++ row ∧ st'.keyPool = st.keyPool ∧
      st'.valuePool = st.valuePool := by
  induction count generalizing st row with
  | zero =>
    obtain ⟨rfl, rfl, -⟩ : st = st' ∧ row = row' ∧ true = enough := by simpa [growRow] using h
    exact ⟨List.Perm.refl _, rfl, rfl⟩
  | succ count ih =>
    unfold growRow at h
    split at h
    · obtain ⟨rfl, rfl, -⟩ : st = st' ∧ row = row' ∧ false = enough := by simpa using h
      exact ⟨List.Perm.refl _, rfl, rfl⟩
    · next page rest hacquire =>
      obtain ⟨hfree, hkeys, hvalues⟩ := acquirePage_spec hacquire
      obtain ⟨hperm, hkeys', hvalues'⟩ := ih h
      refine ⟨?_, hkeys'.trans hkeys, hvalues'.trans hvalues⟩
      -- the page goes from the end of the free list to the end of the row
      calc st'.freePages ++ row'
          _ ~ rest.freePages ++ (row ++ [page]) := hperm
          _ ~ rest.freePages ++ ([page] ++ row) := List.perm_append_comm.append_left _
          _ = st.freePages ++ row := by rw [hfree, List.append_assoc]

/-- A table grows by pages from the free list. -/
theorem growRows_spec {n : Nat} {st st' : PageStore K V} {rows rows' : List (List Nat)}
    {enough : Bool} (h : growRows n st rows = (st', rows', enough)) :
    st'.freePages ++ rows'.flatten ~ st.freePages ++ rows.flatten ∧
      st'.keyPool = st.keyPool ∧ st'.valuePool = st.valuePool := by
  induction rows generalizing st rows' enough with
  | nil =>
    obtain ⟨rfl, rfl, -⟩ : st = st' ∧ [] = rows' ∧ true = enough := by simpa [growRows] using h
    exact ⟨List.Perm.refl _, rfl, rfl⟩
  | cons row rows ih =>
    unfold growRows at h
    split at h
    · next grown row' hrow =>
      obtain ⟨rfl, rfl, -⟩ : grown = st' ∧ row' :: rows = rows' ∧ false = enough := by
        simpa using h
      obtain ⟨hperm, hkeys, hvalues⟩ := growRow_spec hrow
      refine ⟨?_, hkeys, hvalues⟩
      simpa only [List.flatten_cons, List.append_assoc] using hperm.append_right rows.flatten
    · next grown row' hrow =>
      obtain ⟨hperm, hkeys, hvalues⟩ := growRow_spec hrow
      rcases hrest : growRows n grown rows with ⟨st₂, rows₂, enough₂⟩
      rw [hrest] at h
      obtain ⟨rfl, rfl, -⟩ : st₂ = st' ∧ row' :: rows₂ = rows' ∧ enough₂ = enough := by
        simpa using h
      obtain ⟨hperm', hkeys', hvalues'⟩ := ih hrest
      refine ⟨?_, hkeys'.trans hkeys, hvalues'.trans hvalues⟩
      rw [List.flatten_cons, List.flatten_cons]
      calc st₂.freePages ++ (row' ++ rows₂.flatten)
          _ ~ row' ++ (st₂.freePages ++ rows₂.flatten) := List.perm_append_comm_assoc _ _ _
          _ ~ row' ++ (grown.freePages ++ rows.flatten) := hperm'.append_left _
          _ ~ grown.freePages ++ row' ++ rows.flatten := by
            rw [List.append_assoc]
            exact List.perm_append_comm_assoc _ _ _
          _ ~ st.freePages ++ row ++ rows.flatten := hperm.append_right _
          _ = st.freePages ++ (row ++ rows.flatten) := List.append_assoc _ _ _

/-! ### Reordering -/

/-- Copying takes as many pages as the row has, or fails for want of them. -/
theorem copyRow_spec {st st' : PageStore K V} {row : List Nat} {copied : Option (List Nat)}
    (h : copyRow st row = (st', copied)) :
    OnlyPages st.freePages st st' ∧ st'.freePages ⊆ st.freePages ∧
      (∀ new ∈ copied, st'.freePages ++ new ~ st.freePages ∧ new.length = row.length) ∧
      (copied = none → st.freePages.length < row.length) := by
  induction row generalizing st copied with
  | nil =>
    obtain ⟨rfl, rfl⟩ : st = st' ∧ some [] = copied := by simpa [copyRow] using h
    refine ⟨.refl _ _, List.Subset.refl _, ?_, by simp⟩
    rintro new ⟨⟩
    exact ⟨by rw [List.append_nil], rfl⟩
  | cons page row ih =>
    unfold copyRow at h
    split at h
    · next hacquire =>
      obtain ⟨rfl, rfl⟩ : st = st' ∧ none = copied := by simpa using h
      refine ⟨.refl _ _, List.Subset.refl _, by simp, fun _ => ?_⟩
      rw [acquirePage_eq_none hacquire]
      exact Nat.succ_pos _
    · next new rest hacquire =>
      obtain ⟨hfree, hkeys, hvalues⟩ := acquirePage_spec hacquire
      rcases hrest : copyRow (rest.copyPage page new) row with ⟨st₂, copied₂⟩
      rw [hrest] at h
      obtain ⟨rfl, rfl⟩ : st₂ = st' ∧ copied₂.map (new :: ·) = copied := by simpa using h
      obtain ⟨honly, hsub, hsome, hnone⟩ := ih hrest
      -- the copy is made in a page of the free list, and so is the rest of the row
      have hrestsub : rest.freePages ⊆ st.freePages := by
        rw [hfree]
        exact List.subset_append_left _ _
      have hnew : new ∈ st.freePages := by
        rw [hfree]
        exact List.mem_append_right _ (List.mem_singleton_self _)
      refine ⟨?_, fun p hp => hrestsub (hsub hp), ?_, ?_⟩
      · exact ((OnlyPages.of_pools hkeys hvalues).trans (.copyPage hnew)).trans
          (honly.mono hrestsub)
      · intro row' hrow'
        obtain ⟨row₂, hrow₂, rfl⟩ := Option.map_eq_some_iff.mp hrow'
        obtain ⟨hperm, hlength⟩ := hsome row₂ hrow₂
        refine ⟨?_, by rw [List.length_cons, List.length_cons, hlength]⟩
        calc st₂.freePages ++ new :: row₂
            _ ~ new :: (st₂.freePages ++ row₂) := List.perm_middle
            _ ~ new :: rest.freePages := hperm.cons _
            _ ~ rest.freePages ++ [new] := (List.perm_append_singleton _ _).symm
            _ = st.freePages := hfree.symm
      · intro hcopied
        have hlt := hnone (Option.map_eq_none_iff.mp hcopied)
        rw [hfree, List.length_append, List.length_singleton, List.length_cons]
        exact Nat.succ_lt_succ hlt

/-- The pages the loop of `reorder` takes from the free list for repeated indices, up to the first
index that is out of range. -/
def copyCost (blockTable : List (List Nat)) (claimed : List Int) : List Int → Nat
  | [] => 0
  | src :: rest =>
    match pyGet blockTable src with
    | none => 0
    | some row =>
      if src ∈ claimed then row.length + copyCost blockTable claimed rest
      else copyCost blockTable (src :: claimed) rest

/-- The loop runs to its end: every index names a row, and there are pages for all copies. -/
def Completes (blockTable : List (List Nat)) (claimed : List Int) (free : Nat)
    (hypoIds : List Int) : Prop :=
  (∀ src ∈ hypoIds, (pyGet blockTable src).isSome) ∧ copyCost blockTable claimed hypoIds ≤ free

instance (blockTable : List (List Nat)) (claimed : List Int) (free : Nat) (hypoIds : List Int) :
    Decidable (Completes blockTable claimed free hypoIds) :=
  inferInstanceAs (Decidable (_ ∧ _))

/-- The row an index names; none where it is out of range. -/
def rowAt (blockTable : List (List Nat)) (src : Int) : List Nat :=
  (pyGet blockTable src).getD []

/-- Whatever the loop does, it changes free pages only. -/
theorem reorderRows_only {blockTable : List (List Nat)} {claimed : List Int} {hypoIds : List Int}
    {st st' : PageStore K V} {result : Except PoolError (List (List Nat) × List Int)}
    (h : reorderRows blockTable claimed st hypoIds = (st', result)) :
    OnlyPages st.freePages st st' := by
  induction hypoIds generalizing st claimed result with
  | nil =>
    obtain ⟨rfl, -⟩ : st = st' ∧ _ = result := by simpa [reorderRows] using h
    exact .refl _ _
  | cons src rest ih =>
    unfold reorderRows at h
    split at h
    · obtain ⟨rfl, -⟩ : st = st' ∧ _ = result := by simpa using h
      exact .refl _ _
    · next row hrow =>
      split at h
      · split at h
        · next hcopy =>
          obtain ⟨rfl, -⟩ := Prod.mk.inj h
          exact (copyRow_spec hcopy).1
        · next st₁ copied hcopy =>
          obtain ⟨honly, hsub, -, -⟩ := copyRow_spec hcopy
          obtain ⟨rfl, -⟩ := Prod.mk.inj h
          exact honly.trans ((ih rfl).mono hsub)
      · obtain ⟨rfl, -⟩ := Prod.mk.inj h
        exact ih rfl

/-- **The loop that runs to its end.** The new rows are made of the rows of the indices that were
claimed on the way and of pages from the free list. -/
theorem reorderRows_ok {blockTable : List (List Nat)} {claimed claimed' : List Int}
    {hypoIds : List Int} {st st' : PageStore K V} {result : List (List Nat)}
    (h : reorderRows blockTable claimed st hypoIds = (st', .ok (result, claimed'))) :
    Completes blockTable claimed st.freePages.length hypoIds ∧
      ∃ fresh : List Int, claimed' = fresh ++ claimed ∧ fresh.Nodup ∧
        (∀ src ∈ fresh, src ∈ hypoIds ∧ src ∉ claimed) ∧
        st'.freePages ++ result.flatten ~ st.freePages ++ fresh.flatMap (rowAt blockTable) := by
  induction hypoIds generalizing st claimed result with
  | nil =>
    obtain ⟨rfl, rfl, rfl⟩ : st = st' ∧ [] = result ∧ claimed = claimed' := by
      simpa [reorderRows] using h
    exact ⟨⟨by simp, Nat.zero_le _⟩, [], rfl, List.nodup_nil, by simp, List.Perm.refl _⟩
  | cons src rest ih =>
    unfold reorderRows at h
    split at h
    · cases h
    next row hrow =>
    split at h
    · next hclaimed =>
      -- a repeated index: its row is copied
      split at h
      · cases h
      next st₁ copied hcopy =>
      obtain ⟨-, -, hsome, -⟩ := copyRow_spec hcopy
      obtain ⟨hperm, hlength⟩ := hsome copied rfl
      rcases hrest : reorderRows blockTable claimed st₁ rest with ⟨st₂, res⟩
      rw [hrest] at h
      cases res with
      | error e => simp [Except.map] at h
      | ok p =>
        obtain ⟨rfl, rfl, rfl⟩ : st₂ = st' ∧ copied :: p.1 = result ∧ p.2 = claimed' := by
          simpa [Except.map] using h
        obtain ⟨⟨hnamed, hcost⟩, fresh, hclaimed', hnodup, hfresh, hpages⟩ := ih hrest
        refine ⟨⟨?_, ?_⟩, fresh, hclaimed', hnodup, ?_, ?_⟩
        · exact List.forall_mem_cons.mpr ⟨by rw [hrow]; rfl, hnamed⟩
        · have hcount : st₁.freePages.length + row.length = st.freePages.length := by
            rw [← hlength, ← List.length_append, hperm.length_eq]
          simp only [copyCost, hrow, if_pos hclaimed]
          omega
        · exact fun i hi => ⟨List.mem_cons_of_mem _ (hfresh i hi).1, (hfresh i hi).2⟩
        · rw [List.flatten_cons]
          calc st₂.freePages ++ (copied ++ p.1.flatten)
              _ ~ copied ++ (st₂.freePages ++ p.1.flatten) := List.perm_append_comm_assoc _ _ _
              _ ~ copied ++ (st₁.freePages ++ fresh.flatMap (rowAt blockTable)) :=
                hpages.append_left _
              _ ~ st₁.freePages ++ copied ++ fresh.flatMap (rowAt blockTable) := by
                rw [List.append_assoc]
                exact List.perm_append_comm_assoc _ _ _
              _ ~ st.freePages ++ fresh.flatMap (rowAt blockTable) := hperm.append_right _
    · next hclaimed =>
      -- the first use of an index: its row is handed on
      rcases hrest : reorderRows blockTable (src :: claimed) st rest with ⟨st₂, res⟩
      rw [hrest] at h
      cases res with
      | error e => simp [Except.map] at h
      | ok p =>
        obtain ⟨rfl, rfl, rfl⟩ : st₂ = st' ∧ row :: p.1 = result ∧ p.2 = claimed' := by
          simpa [Except.map] using h
        obtain ⟨⟨hnamed, hcost⟩, fresh, hclaimed', hnodup, hfresh, hpages⟩ := ih hrest
        have hsrc : src ∉ fresh := fun hmem => (hfresh src hmem).2 List.mem_cons_self
        refine ⟨⟨?_, ?_⟩, fresh ++ [src], ?_, ?_, ?_, ?_⟩
        · exact List.forall_mem_cons.mpr ⟨by rw [hrow]; rfl, hnamed⟩
        · simpa only [copyCost, hrow, if_neg hclaimed] using hcost
        · rw [hclaimed', List.append_assoc, List.singleton_append]
        · exact hnodup.append (List.nodup_singleton _)
            (List.disjoint_singleton.mpr hsrc)
        · intro i hi
          rcases List.mem_append.mp hi with hi | hi
          · exact ⟨List.mem_cons_of_mem _ (hfresh i hi).1,
              fun hmem => (hfresh i hi).2 (List.mem_cons_of_mem _ hmem)⟩
          · obtain rfl := List.mem_singleton.mp hi
            exact ⟨List.mem_cons_self, hclaimed⟩
        · have hrowAt : rowAt blockTable src = row := by rw [rowAt, hrow, Option.getD_some]
          rw [List.flatten_cons, List.flatMap_append, List.flatMap_singleton, hrowAt]
          calc st₂.freePages ++ (row ++ p.1.flatten)
              _ ~ row ++ (st₂.freePages ++ p.1.flatten) := List.perm_append_comm_assoc _ _ _
              _ ~ row ++ (st.freePages ++ fresh.flatMap (rowAt blockTable)) :=
                hpages.append_left _
              _ ~ st.freePages ++ fresh.flatMap (rowAt blockTable) ++ row :=
                List.perm_append_comm
              _ = st.freePages ++ (fresh.flatMap (rowAt blockTable) ++ row) :=
                List.append_assoc _ _ _

/-- **The loop that raises.** It does not run to its end, and keeps the free list if no repeated
index before the failing one has pages to copy, or none are free. -/
theorem reorderRows_error {blockTable : List (List Nat)} {claimed : List Int} {hypoIds : List Int}
    {st st' : PageStore K V} {e : PoolError}
    (h : reorderRows blockTable claimed st hypoIds = (st', .error e)) :
    ¬ Completes blockTable claimed st.freePages.length hypoIds ∧
      (copyCost blockTable claimed hypoIds = 0 ∨ st.freePages = [] →
        st'.freePages = st.freePages) := by
  induction hypoIds generalizing st claimed e with
  | nil => simp [reorderRows] at h
  | cons src rest ih =>
    unfold reorderRows at h
    split at h
    · next hrow =>
      obtain ⟨rfl, -⟩ := Prod.mk.inj h
      refine ⟨fun hcompletes => ?_, fun _ => rfl⟩
      have hnamed := hcompletes.1 src List.mem_cons_self
      rw [hrow] at hnamed
      cases hnamed
    next row hrow =>
    split at h
    · next hclaimed =>
      have hcost : copyCost blockTable claimed (src :: rest) =
          row.length + copyCost blockTable claimed rest := by
        simp only [copyCost, hrow, if_pos hclaimed]
      split at h
      · next st₁ hcopy =>
        obtain ⟨rfl, -⟩ := Prod.mk.inj h
        obtain ⟨-, hsub, -, hnone⟩ := copyRow_spec hcopy
        have hlt := hnone rfl
        refine ⟨fun hcompletes => ?_, ?_⟩
        · have hle := hcompletes.2
          omega
        · rintro (hzero | hempty)
          · omega
          · rw [hempty] at hsub ⊢
            exact List.eq_nil_of_subset_nil hsub
      · next st₁ copied hcopy =>
        obtain ⟨-, hsub, hsome, -⟩ := copyRow_spec hcopy
        obtain ⟨hperm, hlength⟩ := hsome copied rfl
        have hcount : st₁.freePages.length + row.length = st.freePages.length := by
          rw [← hlength, ← List.length_append, hperm.length_eq]
        rcases hrest : reorderRows blockTable claimed st₁ rest with ⟨st₂, res⟩
        rw [hrest] at h
        cases res with
        | ok p => simp [Except.map] at h
        | error e' =>
          obtain ⟨rfl, -⟩ := Prod.mk.inj h
          obtain ⟨hnot, hkeep⟩ := ih hrest
          refine ⟨fun hcompletes => hnot ⟨fun i hi => hcompletes.1 i (List.mem_cons_of_mem _ hi), ?_⟩,
            ?_⟩
          · have hle := hcompletes.2
            omega
          · rintro (hzero | hempty)
            · -- the row that was copied is empty
              obtain rfl : row = [] := List.length_eq_zero_iff.mp (by omega)
              obtain ⟨rfl, -⟩ : st = st₁ ∧ [] = copied := by simpa [copyRow] using hcopy
              exact hkeep (Or.inl (by omega))
            · rw [hempty] at hsub
              have hnil := List.eq_nil_of_subset_nil hsub
              rw [hkeep (Or.inr hnil), hnil, hempty]
    · next hclaimed =>
      have hcost : copyCost blockTable claimed (src :: rest) =
          copyCost blockTable (src :: claimed) rest := by
        simp only [copyCost, hrow, if_neg hclaimed]
      rcases hrest : reorderRows blockTable (src :: claimed) st rest with ⟨st₂, res⟩
      rw [hrest] at h
      cases res with
      | ok p => simp [Except.map] at h
      | error e' =>
        obtain ⟨rfl, -⟩ := Prod.mk.inj h
        obtain ⟨hnot, hkeep⟩ := ih hrest
        rw [hcost]
        exact ⟨fun hcompletes => hnot ⟨fun i hi => hcompletes.1 i (List.mem_cons_of_mem _ hi),
          hcost ▸ hcompletes.2⟩, hkeep⟩

/-! ### The rows an index vector takes and leaves -/

/-- Every negative index names an empty row, and no row is named by two indices. -/
structure NamesOnce (blockTable : List (List Nat)) (hypoIds : List Int) : Prop where
  negative : ∀ src ∈ hypoIds, src < 0 → rowAt blockTable src = []
  once : ∀ src ∈ hypoIds, ∀ src' ∈ hypoIds,
    pyIndex blockTable.length src = pyIndex blockTable.length src' → src = src'

instance (blockTable : List (List Nat)) (hypoIds : List Int) :
    Decidable (NamesOnce blockTable hypoIds) :=
  decidable_of_iff ((∀ src ∈ hypoIds, src < 0 → rowAt blockTable src = []) ∧
      ∀ src ∈ hypoIds, ∀ src' ∈ hypoIds,
        pyIndex blockTable.length src = pyIndex blockTable.length src' → src = src')
    ⟨fun h => ⟨h.1, h.2⟩, fun h => ⟨h.negative, h.once⟩⟩

/-- The pages of the rows whose numbers were claimed, next to those of the rows that are freed, are
the pages of the table. -/
theorem unclaimedPages_append (claimed : List Int) (f : Nat → List Nat) :
    ∀ (first : Nat) (rows : List (List Nat)), (∀ j row, rows[j]? = some row → f (first + j) = row) →
      unclaimedPages claimed first rows ++
        ((List.range' first rows.length).filter fun i : Nat => (i : Int) ∈ claimed).flatMap f ~ rows.flatten
  | _, [], _ => List.Perm.refl _
  | first, row :: rows, h => by
    have hrow : f first = row := h 0 row rfl
    have ih := unclaimedPages_append claimed f (first + 1) rows
      fun j row hj => by rw [Nat.add_assoc, Nat.add_comm 1 j]; exact h (j + 1) row hj
    rw [unclaimedPages, List.length_cons, List.range'_succ, List.filter_cons, List.flatten_cons]
    by_cases hclaimed : (first : Int) ∈ claimed
    · rw [if_pos hclaimed, if_pos (decide_eq_true hclaimed), List.nil_append, List.flatMap_cons, hrow]
      exact (List.perm_append_comm_assoc _ _ _).trans (ih.append_left row)
    · rw [if_neg hclaimed, if_neg (by simpa using hclaimed), List.append_assoc]
      exact ih.append_left row

/-- The rows the claimed indices name are the rows with a claimed number, as negative indices name
empty rows. -/
theorem claimed_rows {blockTable : List (List Nat)} {fresh : List Int} (hnodup : fresh.Nodup)
    (hnamed : ∀ src ∈ fresh, (pyGet blockTable src).isSome)
    (hnegative : ∀ src ∈ fresh, src < 0 → rowAt blockTable src = []) :
    fresh.flatMap (rowAt blockTable) ~
      ((List.range' 0 blockTable.length).filter fun i : Nat => (i : Int) ∈ fresh).flatMap
        fun i : Nat => rowAt blockTable (i : Int) := by
  have hplain : fresh.flatMap (rowAt blockTable) =
      (fresh.filter fun src => 0 ≤ src).flatMap (rowAt blockTable) := by
    clear hnodup hnamed
    induction fresh with
    | nil => rfl
    | cons src rest ih =>
      have hrest := ih fun i hi => hnegative i (List.mem_cons_of_mem _ hi)
      rw [List.filter_cons, List.flatMap_cons, hrest]
      by_cases hsrc : 0 ≤ src
      · rw [if_pos (decide_eq_true hsrc), List.flatMap_cons]
      · rw [if_neg (by simpa using hsrc), hnegative src List.mem_cons_self (by omega),
          List.nil_append]
  have hcast : (fresh.filter fun src => 0 ≤ src) ~
      ((List.range' 0 blockTable.length).filter fun i : Nat => (i : Int) ∈ fresh).map fun i : Nat => (i : Int) := by
    refine (List.perm_ext_iff_of_nodup (hnodup.filter _) ?_).mpr fun src => ?_
    · exact ((List.nodup_range' 1).filter _).map fun _ _ h => Int.ofNat.inj h
    · constructor
      · intro hmem
        obtain ⟨hsrc, hpos⟩ := List.mem_filter.mp hmem
        have hpos : 0 ≤ src := of_decide_eq_true hpos
        have hlt : src.toNat < blockTable.length := by
          have hsome := hnamed src hsrc
          simp only [pyGet, pyIndex] at hsome
          split at hsome
          · omega
          · split at hsome
            · omega
            · cases hsome
        refine List.mem_map.mpr ⟨src.toNat, List.mem_filter.mpr ⟨?_, ?_⟩, Int.toNat_of_nonneg hpos⟩
        · exact List.mem_range'_1.mpr ⟨Nat.zero_le _, by omega⟩
        · rw [Int.toNat_of_nonneg hpos]
          exact decide_eq_true hsrc
      · intro hmem
        obtain ⟨i, hi, rfl⟩ := List.mem_map.mp hmem
        exact List.mem_filter.mpr
          ⟨of_decide_eq_true (List.mem_filter.mp hi).2, decide_eq_true (Int.natCast_nonneg i)⟩
  rw [hplain]
  refine (hcast.flatMap_right _).trans ?_
  rw [List.flatMap_map]

/-- **Nothing is lost or doubled** by a completed loop whose negative indices name empty rows. -/
theorem unclaimedPages_fresh {blockTable : List (List Nat)} {fresh : List Int}
    (hnodup : fresh.Nodup) (hnamed : ∀ src ∈ fresh, (pyGet blockTable src).isSome)
    (hnegative : ∀ src ∈ fresh, src < 0 → rowAt blockTable src = []) :
    unclaimedPages fresh 0 blockTable ++ fresh.flatMap (rowAt blockTable) ~ blockTable.flatten := by
  refine ((claimed_rows hnodup hnamed hnegative).append_left _).trans ?_
  refine unclaimedPages_append _ _ _ _ fun j row hrow => ?_
  have hlt : j < blockTable.length := (List.getElem?_eq_some_iff.mp hrow).1
  have hindex : pyIndex blockTable.length (j : Int) = some j := by
    unfold pyIndex
    rw [if_pos ⟨Int.natCast_nonneg j, by exact_mod_cast hlt⟩, Int.toNat_natCast]
  rw [rowAt, pyGet, Nat.zero_add, hindex, Option.bind_some, hrow, Option.getD_some]

/-! ### One operation -/

namespace PagedKVPool

/-- The pages of all rows of all slots, after the free pages. -/
def allPages (s : PagedKVPool K V) : List Nat :=
  s.freePages ++ s.blockTables.entries.flatMap fun e => e.2.flatten

/-- The pages of a slot. -/
def slotPages (s : PagedKVPool K V) (slot : Nat) : List Nat :=
  ((s.blockTables.lookup slot).getD []).flatten

/-- The pages of the other slots. -/
def otherPages (s : PagedKVPool K V) (slot : Nat) : List Nat :=
  (s.blockTables.erase slot).entries.flatMap fun e => e.2.flatten

theorem allPages_perm (s : PagedKVPool K V) (slot : Nat) :
    s.allPages ~ s.freePages ++ s.slotPages slot ++ s.otherPages slot := by
  unfold allPages slotPages otherPages
  rw [List.append_assoc]
  refine List.Perm.append_left _ ?_
  cases hlookup : s.blockTables.lookup slot with
  | none => rw [Dict.erase_of_lookup_eq_none hlookup, Option.getD_none, List.flatten_nil, List.nil_append]
  | some blockTable =>
    exact (Dict.perm_erase hlookup).flatMap_right _

theorem slotPages_of_lookup {s : PagedKVPool K V} {slot : Nat} {blockTable : List (List Nat)}
    (h : s.blockTables.lookup slot = some blockTable) : s.slotPages slot = blockTable.flatten := by
  rw [slotPages, h, Option.getD_some]

/-- The pages of a slot are among those of the others of another slot. -/
theorem slotPages_subset_otherPages (s : PagedKVPool K V) {slot slot' : Nat} (h : slot' ≠ slot) :
    s.slotPages slot' ⊆ s.otherPages slot := by
  intro p hp
  unfold slotPages at hp
  cases hlookup : s.blockTables.lookup slot' with
  | none => simp [hlookup] at hp
  | some blockTable =>
    rw [hlookup, Option.getD_some] at hp
    have herase : (s.blockTables.erase slot).lookup slot' = some blockTable := by
      rw [AList.lookup_erase_ne h, hlookup]
    exact List.mem_flatMap.mpr ⟨⟨slot', blockTable⟩, AList.mem_lookup_iff.mp herase, hp⟩

/-- **The pages are partitioned**: every page is either free or in one row of one slot, once. -/
def Partition (s : PagedKVPool K V) : Prop :=
  s.allPages ~ List.range s.numPages

/-- What an operation on a slot leaves alone. -/
structure OnSlot (slot : Nat) (s s' : PagedKVPool K V) : Prop where
  numPages : s'.numPages = s.numPages
  pageSize : s'.pageSize = s.pageSize
  others : s'.blockTables.erase slot = s.blockTables.erase slot
  pools : OnlyPages (s.freePages ++ s.slotPages slot) s.toPageStore s'.toPageStore

/-- The free pages and those of the slot are the same pages after the operation. -/
def KeepsPages (slot : Nat) (s s' : PagedKVPool K V) : Prop :=
  s'.freePages ++ s'.slotPages slot ~ s.freePages ++ s.slotPages slot

theorem OnSlot.refl (slot : Nat) (s : PagedKVPool K V) : OnSlot slot s s where
  numPages := rfl
  pageSize := rfl
  others := rfl
  pools := .refl _ _

theorem Partition.of_keepsPages {slot : Nat} {s s' : PagedKVPool K V} (h : s.Partition)
    (hon : OnSlot slot s s') (hkeeps : KeepsPages slot s s') : s'.Partition := by
  unfold Partition
  have hothers : s'.otherPages slot = s.otherPages slot := by
    rw [otherPages, hon.others, otherPages]
  rw [hon.numPages]
  calc s'.allPages
      _ ~ s'.freePages ++ s'.slotPages slot ++ s'.otherPages slot := s'.allPages_perm slot
      _ ~ s.freePages ++ s.slotPages slot ++ s.otherPages slot := by
        rw [hothers]
        exact List.Perm.append_right _ hkeeps
      _ ~ s.allPages := (s.allPages_perm slot).symm
      _ ~ List.range s.numPages := h

theorem registerSlot_onSlot (s : PagedKVPool K V) (slot batchSize : Nat) :
    OnSlot slot s (s.registerSlot slot batchSize) ∧
      KeepsPages slot s (s.registerSlot slot batchSize) := by
  unfold registerSlot
  split
  · exact ⟨.refl _ _, List.Perm.refl _⟩
  · next hnot =>
    refine ⟨⟨rfl, rfl, Dict.erase_insert _ _ _, .of_pools rfl rfl⟩, ?_⟩
    have hempty : (List.replicate batchSize ([] : List Nat)).flatten = [] := by
      simp
    have hbefore : s.slotPages slot = [] := by
      rw [slotPages, AList.lookup_eq_none.mpr hnot, Option.getD_none, List.flatten_nil]
    unfold KeepsPages
    rw [hbefore, slotPages_of_lookup (AList.lookup_insert _), hempty]

theorem freeSlot_onSlot (s : PagedKVPool K V) (slot : Nat) :
    OnSlot slot s (s.freeSlot slot) ∧ KeepsPages slot s (s.freeSlot slot) := by
  unfold freeSlot
  split
  · exact ⟨.refl _ _, List.Perm.refl _⟩
  · next blockTable hlookup =>
    refine ⟨⟨rfl, rfl, Dict.erase_erase _ _, .of_pools rfl rfl⟩, ?_⟩
    unfold KeepsPages
    rw [slotPages_of_lookup hlookup, slotPages, AList.lookup_erase, Option.getD_none,
      List.flatten_nil, List.append_nil]

/-- The writes of `scatter` to a logical page go to pages of the table. -/
theorem scatterPage_writes (s : PagedKVPool K V) (blockTable : List (List Nat))
    (newKvs : NewKvs K V) (prefixLength : Nat) (st : PageStore K V) (logicalPage : Nat) :
    WritesTo blockTable.flatten st
      (s.scatterPage blockTable newKvs prefixLength st logicalPage) := by
  unfold scatterPage
  refine WritesTo.foldl (fun st r hr => ?_) st
  cases hpage : r.1[logicalPage]? with
  | none => exact .refl _ _
  | some page =>
    have hmem : page ∈ blockTable.flatten :=
      List.mem_flatten_of_mem (List.of_mem_zip hr).1 (List.mem_of_getElem? hpage)
    exact ⟨.writePage hmem, rfl⟩

theorem scatter_onSlot (s : PagedKVPool K V) (slot : Nat) (newKvs : NewKvs K V)
    (prefixLength : Nat) :
    OnSlot slot s (s.scatter slot newKvs prefixLength).2 ∧
      KeepsPages slot s (s.scatter slot newKvs prefixLength).2 := by
  unfold scatter
  split
  · exact ⟨.refl _ _, List.Perm.refl _⟩
  next blockTable hlookup =>
  split
  · exact ⟨.refl _ _, List.Perm.refl _⟩
  split
  · exact ⟨.refl _ _, List.Perm.refl _⟩
  have hslot := slotPages_of_lookup hlookup
  -- the grown table holds pages that were free or in the table, in all three ways to go on
  rcases hgrow : growRows (s.logicalPages newKvs.length) s.toPageStore blockTable with
    ⟨st, grown, enough⟩
  obtain ⟨hperm, hkeys, hvalues⟩ := growRows_spec hgrow
  have hkeeps : KeepsPages slot s
      { s.withStore st with blockTables := s.blockTables.insert slot grown } := by
    unfold KeepsPages
    rw [hslot, slotPages_of_lookup (AList.lookup_insert _)]
    exact hperm
  have hon : OnSlot slot s
      { s.withStore st with blockTables := s.blockTables.insert slot grown } :=
    ⟨rfl, rfl, Dict.erase_insert _ _ _, .of_pools hkeys hvalues⟩
  cases enough with
  | false => exact ⟨hon, hkeeps⟩
  | true =>
    simp only
    split
    · exact ⟨hon, hkeeps⟩
    · have hwrites : WritesTo grown.flatten st
          ((pyRange (prefixLength / s.pageSize) (s.logicalPages newKvs.length)).foldl
            (s.scatterPage grown newKvs prefixLength) st) :=
        WritesTo.foldl (fun st page _ => s.scatterPage_writes grown newKvs prefixLength st page) st
      have hsub : grown.flatten ⊆ s.freePages ++ s.slotPages slot := fun p hp => by
        rw [hslot]
        exact hperm.subset (List.mem_append_right _ hp)
      refine ⟨⟨rfl, rfl, hon.others, hon.pools.trans (hwrites.toOnlyPages.mono hsub)⟩, ?_⟩
      have hfree := hwrites.free
      unfold KeepsPages at hkeeps ⊢
      have hsame : (s.withStore st).freePages = st.freePages := rfl
      rw [← hfree] at hsame
      exact hsame ▸ hkeeps

/-- A vector of `reorder` that keeps the partition. If the loop runs to its end, every negative index
has to name an empty row and no row may have two names; if it raises, no page may have been copied. -/
def CleanVector (s : PagedKVPool K V) (blockTable : List (List Nat)) (hypoIds : List Int) : Prop :=
  (Completes blockTable [] s.freePages.length hypoIds → NamesOnce blockTable hypoIds) ∧
  (¬ Completes blockTable [] s.freePages.length hypoIds →
    copyCost blockTable [] hypoIds = 0 ∨ s.freePages = [])

instance (s : PagedKVPool K V) (blockTable : List (List Nat)) (hypoIds : List Int) :
    Decidable (s.CleanVector blockTable hypoIds) :=
  inferInstanceAs (Decidable (_ ∧ _))

theorem reorder_onSlot (s : PagedKVPool K V) (slot : Nat) (hypoIds : List Int) :
    OnSlot slot s (s.reorder slot hypoIds).2 ∧
      ((∀ blockTable ∈ s.blockTables.lookup slot, s.CleanVector blockTable hypoIds) →
        KeepsPages slot s (s.reorder slot hypoIds).2) := by
  unfold reorder
  split
  · exact ⟨.refl _ _, fun _ => List.Perm.refl _⟩
  next blockTable hlookup =>
  have hslot := slotPages_of_lookup hlookup
  rcases hloop : reorderRows blockTable [] s.toPageStore hypoIds with ⟨st, result⟩
  have honly : OnlyPages (s.freePages ++ s.slotPages slot) s.toPageStore st :=
    (reorderRows_only hloop).mono (List.subset_append_left _ _)
  cases result with
  | error e =>
    refine ⟨⟨rfl, rfl, rfl, honly⟩, fun hclean => ?_⟩
    obtain ⟨hnot, hkeep⟩ := reorderRows_error hloop
    have hfree := hkeep ((hclean blockTable hlookup).2 hnot)
    show st.freePages ++ s.slotPages slot ~ s.freePages ++ s.slotPages slot
    rw [hfree]
  | ok p =>
    obtain ⟨rows, claimed⟩ := p
    refine ⟨⟨rfl, rfl, Dict.erase_insert _ _ _, ⟨honly.keys, honly.values⟩⟩, fun hclean => ?_⟩
    obtain ⟨hcompletes, fresh, hclaimed, hnodup, hfresh, hpages⟩ := reorderRows_ok hloop
    have hnames := (hclean blockTable hlookup).1 hcompletes
    rw [List.append_nil] at hclaimed
    subst hclaimed
    unfold KeepsPages
    rw [hslot, slotPages_of_lookup (AList.lookup_insert _)]
    have hrows := unclaimedPages_fresh hnodup (fun src h => hcompletes.1 src (hfresh src h).1)
      fun src h => hnames.negative src (hfresh src h).1
    calc st.freePages ++ unclaimedPages claimed 0 blockTable ++ rows.flatten
        _ ~ unclaimedPages claimed 0 blockTable ++ (st.freePages ++ rows.flatten) := by
          rw [List.append_assoc]
          exact List.perm_append_comm_assoc _ _ _
        _ ~ unclaimedPages claimed 0 blockTable ++
              (s.freePages ++ claimed.flatMap (rowAt blockTable)) := hpages.append_left _
        _ ~ s.freePages ++
              (unclaimedPages claimed 0 blockTable ++ claimed.flatMap (rowAt blockTable)) :=
          List.perm_append_comm_assoc _ _ _
        _ ~ s.freePages ++ blockTable.flatten := hrows.append_left _

/-- A `reorder` has a clean vector; there is no condition on the other operations. -/
def CleanReorder (s : PagedKVPool K V) : PoolOp K V → Prop
  | .reorder slot hypoIds => ∀ blockTable ∈ s.blockTables.lookup slot, s.CleanVector blockTable hypoIds
  | _ => True

instance (s : PagedKVPool K V) : ∀ op, Decidable (s.CleanReorder op)
  | .reorder slot hypoIds => inferInstanceAs (Decidable
      (∀ blockTable ∈ s.blockTables.lookup slot, s.CleanVector blockTable hypoIds))
  | .registerSlot _ _ | .freeSlot _ | .gather _ _ | .scatter _ _ _ => isTrue trivial

/-- **What an operation does outside its slot.** -/
theorem perform_onSlot (s : PagedKVPool K V) (op : PoolOp K V) :
    OnSlot op.slot s (s.perform op).2 ∧
      (s.CleanReorder op → KeepsPages op.slot s (s.perform op).2) := by
  cases op with
  | registerSlot slot batchSize =>
    exact (s.registerSlot_onSlot slot batchSize).imp_right fun h _ => h
  | freeSlot slot => exact (s.freeSlot_onSlot slot).imp_right fun h _ => h
  | gather slot prefixLength => exact ⟨.refl _ _, fun _ => List.Perm.refl _⟩
  | scatter slot newKvs prefixLength =>
    exact (s.scatter_onSlot slot newKvs prefixLength).imp_right fun h _ => h
  | reorder slot hypoIds => exact s.reorder_onSlot slot hypoIds

/-! ### What other slots read -/

/-- What a slot gathers depends on its row, its pages and the page size only. -/
theorem gather_congr {s s' : PagedKVPool K V} {slot : Nat} (hsize : s'.pageSize = s.pageSize)
    (hlookup : s'.blockTables.lookup slot = s.blockTables.lookup slot)
    (hkeys : ∀ p ∈ s.slotPages slot, s'.keyPool p = s.keyPool p)
    (hvalues : ∀ p ∈ s.slotPages slot, s'.valuePool p = s.valuePool p) (prefixLength : Nat) :
    s'.gather slot prefixLength = s.gather slot prefixLength := by
  have hpages : ∀ n, s'.logicalPages n = s.logicalPages n := fun n => by
    rw [logicalPages, logicalPages, hsize]
  unfold gather
  rw [hlookup, hpages]
  cases htable : s.blockTables.lookup slot with
  | none => rfl
  | some blockTable =>
    have htoken : ∀ row ∈ blockTable, s'.token row = s.token row := by
      intro row hrow
      funext position
      unfold token
      rw [hsize]
      refine Option.map_congr fun page hpage => ?_
      have hmem : page ∈ s.slotPages slot := by
        rw [slotPages_of_lookup htable]
        exact List.mem_flatten_of_mem hrow (List.mem_of_getElem? hpage)
      rw [hkeys page hmem, hvalues page hmem]
    have hrows : (blockTable.map fun row => (List.range prefixLength).map (s'.token row)) =
        blockTable.map fun row => (List.range prefixLength).map (s.token row) :=
      List.map_congr_left fun row hrow => by rw [htoken row hrow]
    simp only [hrows]

/-- **No slot sees an operation on another one.** -/
theorem Partition.frame {s : PagedKVPool K V} (h : s.Partition) {op : PoolOp K V} {slot : Nat}
    (hslot : slot ≠ op.slot) (prefixLength : Nat) :
    (s.perform op).2.gather slot prefixLength = s.gather slot prefixLength := by
  obtain ⟨hon, -⟩ := s.perform_onSlot op
  have hnodup : (s.freePages ++ s.slotPages op.slot ++ s.otherPages op.slot).Nodup :=
    ((s.allPages_perm op.slot).symm.trans h).nodup_iff.mpr List.nodup_range
  -- the pages of the slot are neither free nor pages of the operation's slot
  have hother : ∀ p ∈ s.slotPages slot, p ∉ s.freePages ++ s.slotPages op.slot := fun p hp hmem =>
    (List.disjoint_of_nodup_append hnodup) hmem (s.slotPages_subset_otherPages hslot hp)
  have hlookup : (s.perform op).2.blockTables.lookup slot = s.blockTables.lookup slot := by
    rw [← AList.lookup_erase_ne hslot, hon.others, AList.lookup_erase_ne hslot]
  exact gather_congr hon.pageSize hlookup (fun p hp => hon.pools.keys p (hother p hp))
    (fun p hp => hon.pools.values p (hother p hp)) prefixLength

theorem Partition.initial (numPages pageSize : Nat) (hpos : 0 < pageSize) (zeroKey : K)
    (zeroValue : V) : (PagedKVPool.initial numPages pageSize hpos zeroKey zeroValue).Partition := by
  show List.range numPages ++ [] ~ List.range numPages
  rw [List.append_nil]

/-- **A clean operation keeps the partition.** -/
theorem Partition.perform {s : PagedKVPool K V} (h : s.Partition) {op : PoolOp K V}
    (hclean : s.CleanReorder op) : (s.perform op).2.Partition := by
  obtain ⟨hon, hkeeps⟩ := s.perform_onSlot op
  exact h.of_keepsPages hon (hkeeps hclean)

/-- What runs keep. -/
structure Owned (numPages : Nat) (s : PagedKVPool K V) : Prop where
  partition : s.Partition
  numPages : s.numPages = numPages

end PagedKVPool

/-! ### Runs -/

/-- **Every page is in one place while the vectors are clean.** In every state that operations with
clean vectors reach, the free pages and the pages of all rows of all slots are the pages of the pool,
each once; and no operation, clean or not, changes what another slot than its own gathers. -/
theorem pages_partitioned (numPages pageSize : Nat) (hpos : 0 < pageSize) (zeroKey : K)
    (zeroValue : V) {s : PagedKVPool K V}
    (hreach : (poolMachine K V).Reach PagedKVPool.CleanReorder
      (PagedKVPool.initial numPages pageSize hpos zeroKey zeroValue) s) :
    s.allPages ~ List.range s.numPages ∧ s.numPages = numPages ∧
      ∀ (op : PoolOp K V) (slot prefixLength : Nat), slot ≠ op.slot →
        (s.perform op).2.gather slot prefixLength = s.gather slot prefixLength := by
  have hinv : s.Owned numPages := by
    refine hreach.invariant ⟨.initial numPages pageSize hpos zeroKey zeroValue, rfl⟩
      fun s op s' h hclean hstep => ?_
    obtain rfl : (s.perform op).2 = s' := Option.some.inj hstep
    exact ⟨h.partition.perform hclean, (s.perform_onSlot op).1.numPages.trans h.numPages⟩
  exact ⟨hinv.partition, hinv.numPages,
    fun op slot prefixLength hslot => hinv.partition.frame hslot prefixLength⟩

/-- A pool of three pages for one token each. -/
def threePages : PagedKVPool Nat Nat := .initial 3 1 (by decide) 0 0

/-- Two rows of one token, at the positions from zero. -/
def twoTokens : NewKvs Nat Nat := ⟨1, [fun _ => (7, 7), fun _ => (8, 8)]⟩

/-- Beam search keeps the second row twice and drops the first. -/
theorem pages_partitioned_after_duplicate :
    ∃ s : PagedKVPool Nat Nat, (s.gather 0 1).toOption = some [[some (8, 8)], [some (8, 8)]] ∧
      (s.allPages ~ List.range s.numPages ∧ s.numPages = 3 ∧
        ∀ (op : PoolOp Nat Nat) (slot prefixLength : Nat), slot ≠ op.slot →
          (s.perform op).2.gather slot prefixLength = s.gather slot prefixLength) := by
  have hrun : ((poolMachine Nat Nat).run threePages
      [.registerSlot 0 2, .scatter 0 twoTokens 0, .reorder 0 [1, 1]]).map
        (fun s => (s.gather 0 1).toOption) = some (some [[some (8, 8)], [some (8, 8)]]) := by
    decide
  have halong : (poolMachine Nat Nat).Along PagedKVPool.CleanReorder threePages
      [.registerSlot 0 2, .scatter 0 twoTokens 0, .reorder 0 [1, 1]] := by
    decide
  obtain ⟨s, hrun, hgather⟩ := Option.map_eq_some_iff.mp hrun
  exact ⟨s, hgather, pages_partitioned 3 1 (by decide) 0 0 (Machine.reach_of_run hrun halong)⟩

/-- **A negative index frees a page that is owned.** The vector `[-1]` hands the only row on under its
negative index, and frees its pages because row number `0` was not claimed. Nothing is raised. -/
theorem negative_index_frees_an_owned_page :
    ∃ (s : PagedKVPool Nat Nat) (op : PoolOp Nat Nat),
      (poolMachine Nat Nat).Reach Machine.always threePages s ∧
      (s.perform op).1.isOk = true ∧
      ¬ (s.perform op).2.allPages ~ List.range (s.perform op).2.numPages := by
  have hview : ((poolMachine Nat Nat).run threePages
      [.registerSlot 0 1, .scatter 0 ⟨1, [fun _ => (7, 7)]⟩ 0]).map
        (fun s => ((s.perform (.reorder 0 [-1])).1.isOk, (s.perform (.reorder 0 [-1])).2.allPages,
          (s.perform (.reorder 0 [-1])).2.numPages)) = some (true, [0, 1, 2, 2], 3) := by
    decide
  obtain ⟨s, hrun, hview⟩ := Option.map_eq_some_iff.mp hview
  simp only [Prod.mk.injEq] at hview
  obtain ⟨hok, hpages, hnum⟩ := hview
  refine ⟨s, .reorder 0 [-1], Machine.reach_always_of_run hrun, hok, ?_⟩
  rw [hpages, hnum]
  decide

end Drift.Server
