import Drift.Server.PagedPoolSafety

/-!
# What the pages of a pool hold

The safety of the pool says which pages an operation may touch. Here is what it puts there: a copied row
reads as the row it was copied from, a reordered table reads as the rows its vector names, and a scattered
row reads as the new tokens from the prefix on, and as before elsewhere. All of it needs that no page is
in two places; how the free list and the rows share the pages is `PagedPoolSafety`'s.

* `PageStore.read` — a row of pages by its contents;
* `copyRow_read`, `reorderRows_read` — `reorder`;
* `growRows_grown` — the pages a row gets;
* `scatterPages_entry` — the writes of `scatter`.
-/

namespace Drift.Server

open Drift.Lib
open scoped List

variable {K V : Type}

/-! ### Reading rows -/

namespace PageStore

/-- The key and the value at an offset of a page. -/
def entry (st : PageStore K V) (page off : Nat) : K × V := (st.keyPool page off, st.valuePool page off)

/-- The contents of the pages of a row. -/
def read (st : PageStore K V) (row : List Nat) : List (Nat → K × V) := row.map st.entry

theorem read_congr {st st' : PageStore K V} {row : List Nat}
    (h : ∀ p ∈ row, st'.entry p = st.entry p) : st'.read row = st.read row :=
  List.map_congr_left h

theorem entry_of_pools {st st' : PageStore K V} (hkeys : st'.keyPool = st.keyPool)
    (hvalues : st'.valuePool = st.valuePool) : st'.entry = st.entry := by
  funext page off
  unfold entry
  rw [hkeys, hvalues]

theorem entry_copyPage_self (st : PageStore K V) (page new : Nat) :
    (st.copyPage page new).entry new = st.entry page := by
  funext off
  unfold entry copyPage
  simp only [if_true]

theorem entry_writePage_self (st : PageStore K V) (page base offStart offEnd : Nat)
    (row : Nat → K × V) (off : Nat) :
    (st.writePage page base offStart offEnd row).entry page off =
      if offStart ≤ off ∧ off < offEnd then row (base + off) else st.entry page off := by
  unfold entry writePage
  by_cases hoff : offStart ≤ off ∧ off < offEnd
  · simp [hoff]
  · simp [hoff]

end PageStore

theorem OnlyPages.entry {pages : List Nat} {st st' : PageStore K V} (h : OnlyPages pages st st')
    {p : Nat} (hp : p ∉ pages) : st'.entry p = st.entry p := by
  funext off
  unfold PageStore.entry
  rw [h.keys p hp, h.values p hp]

/-- A row that has none of the pages reads as before. -/
theorem OnlyPages.read {pages row : List Nat} {st st' : PageStore K V} (h : OnlyPages pages st st')
    (hrow : ∀ p ∈ row, p ∉ pages) : st'.read row = st.read row :=
  PageStore.read_congr fun p hp => h.entry (hrow p hp)

/-- A token is read from the page that its position lies in. -/
theorem PagedKVPool.token_eq (s : PagedKVPool K V) (row : List Nat) (position : Nat) :
    s.token row position =
      (s.toPageStore.read row)[position / s.pageSize]?.map fun page => page (position % s.pageSize) := by
  unfold PagedKVPool.token PageStore.read
  rw [List.getElem?_map, Option.map_map]
  rfl

/-! ### Reordering -/

/-- **A copied row** reads as the row it was copied from. -/
theorem copyRow_read {st st' : PageStore K V} {row copied : List Nat}
    (h : copyRow st row = (st', some copied)) (hnodup : st.freePages.Nodup)
    (hrow : ∀ p ∈ row, p ∉ st.freePages) : st'.read copied = st.read row := by
  induction row generalizing st copied with
  | nil =>
    obtain ⟨rfl, rfl⟩ : st = st' ∧ [] = copied := by simpa [copyRow] using h
    rfl
  | cons page row ih =>
    unfold copyRow at h
    split at h
    · cases h
    · next new rest hacquire =>
      obtain ⟨hfree, hkeys, hvalues⟩ := acquirePage_spec hacquire
      rcases hrest : copyRow (rest.copyPage page new) row with ⟨st₂, copied₂⟩
      rw [hrest] at h
      obtain ⟨rfl, hcopied⟩ : st₂ = st' ∧ copied₂.map (new :: ·) = some copied := by simpa using h
      obtain ⟨row₂, rfl, rfl⟩ := Option.map_eq_some_iff.mp hcopied
      rw [hfree] at hnodup hrow
      have hnew : new ∉ rest.freePages := fun hmem =>
        (List.disjoint_of_nodup_append hnodup) hmem (List.mem_singleton_self new)
      have hrest' : ∀ p ∈ row, p ∉ rest.freePages := fun p hp hmem =>
        hrow p (List.mem_cons_of_mem _ hp) (List.mem_append_left _ hmem)
      have hcopy : (rest.copyPage page new).entry new = st.entry page := by
        rw [PageStore.entry_copyPage_self, PageStore.entry_of_pools hkeys hvalues]
      -- the pages of the rest are neither the new one nor changed by copying it
      have hsame : (rest.copyPage page new).read row = st.read row := by
        apply PageStore.read_congr
        intro p hp
        have hne : p ∉ [new] := fun hmem =>
          hrow p (List.mem_cons_of_mem _ hp) (List.mem_append_right _ hmem)
        rw [(OnlyPages.copyPage (List.mem_singleton_self new)).entry hne,
          PageStore.entry_of_pools hkeys hvalues]
      have honly : OnlyPages rest.freePages (rest.copyPage page new) st₂ := (copyRow_spec hrest).1
      have htail : st₂.read row₂ = (rest.copyPage page new).read row :=
        ih hrest hnodup.of_append_left hrest'
      show st₂.entry new :: st₂.read row₂ = st.entry page :: st.read row
      rw [honly.entry hnew, hcopy, htail, hsame]

/-- **A reordered table** reads as the rows that its vector names. -/
theorem reorderRows_read {blockTable : List (List Nat)} {claimed claimed' : List Int}
    {hypoIds : List Int} {st st' : PageStore K V} {result : List (List Nat)}
    (h : reorderRows blockTable claimed st hypoIds = (st', .ok (result, claimed')))
    (hnodup : st.freePages.Nodup) (htable : ∀ p ∈ blockTable.flatten, p ∉ st.freePages) :
    result.map st'.read = hypoIds.map fun src => st.read (rowAt blockTable src) := by
  have hnamed : ∀ {src : Int} {row : List Nat}, pyGet blockTable src = some row →
      ∀ p ∈ row, p ∈ blockTable.flatten := by
    intro src row hrow p hp
    obtain ⟨n, -, hn⟩ := Option.bind_eq_some_iff.mp hrow
    exact List.mem_flatten_of_mem (List.mem_of_getElem? hn) hp
  induction hypoIds generalizing st claimed result with
  | nil =>
    obtain ⟨rfl, rfl, -⟩ : st = st' ∧ [] = result ∧ claimed = claimed' := by
      simpa [reorderRows] using h
    rfl
  | cons src rest ih =>
    unfold reorderRows at h
    split at h
    · cases h
    next row hrow =>
    have hrowAt : rowAt blockTable src = row := by rw [rowAt, hrow, Option.getD_some]
    have hdisjoint : ∀ p ∈ row, p ∉ st.freePages := fun p hp => htable p (hnamed hrow p hp)
    split at h
    · -- a repeated index: the copy is made before the rest is looked at
      split at h
      · cases h
      next st₁ copied hcopy =>
      obtain ⟨honly, hsub, hsome, -⟩ := copyRow_spec hcopy
      obtain ⟨hperm, -⟩ := hsome copied rfl
      have hnodup₁ : (st₁.freePages ++ copied).Nodup := hperm.nodup_iff.mpr hnodup
      have htable₁ : ∀ p ∈ blockTable.flatten, p ∉ st₁.freePages := fun p hp hmem =>
        htable p hp (hsub hmem)
      rcases hrest : reorderRows blockTable claimed st₁ rest with ⟨st₂, res⟩
      rw [hrest] at h
      cases res with
      | error e => simp [Except.map] at h
      | ok p =>
        obtain ⟨rfl, rfl, rfl⟩ : st₂ = st' ∧ copied :: p.1 = result ∧ p.2 = claimed' := by
          simpa [Except.map] using h
        have hcopied : st₂.read copied = st₁.read copied :=
          (reorderRows_only hrest).read fun q hq hmem =>
            (List.disjoint_of_nodup_append hnodup₁) hmem hq
        have hothers : ∀ i, st₁.read (rowAt blockTable i) = st.read (rowAt blockTable i) := by
          intro i
          refine honly.read fun q hq => ?_
          unfold rowAt at hq
          cases hi : pyGet blockTable i with
          | none =>
            rw [hi] at hq
            cases hq
          | some row' =>
            rw [hi, Option.getD_some] at hq
            exact htable q (hnamed hi q hq)
        rw [List.map_cons, List.map_cons, ih hrest hnodup₁.of_append_left htable₁, hcopied, hrowAt,
          copyRow_read hcopy hnodup hdisjoint]
        simp only [hothers]
    · -- the first use of an index: its row is handed on, and nothing copied later touches it
      rcases hrest : reorderRows blockTable (src :: claimed) st rest with ⟨st₂, res⟩
      rw [hrest] at h
      cases res with
      | error e => simp [Except.map] at h
      | ok p =>
        obtain ⟨rfl, rfl, rfl⟩ : st₂ = st' ∧ row :: p.1 = result ∧ p.2 = claimed' := by
          simpa [Except.map] using h
        rw [List.map_cons, List.map_cons, ih hrest hnodup htable, hrowAt,
          (reorderRows_only hrest).read hdisjoint]

/-! ### Growing -/

theorem growRow_grown {st st' : PageStore K V} {row row' : List Nat} {enough : Bool} {count : Nat}
    (h : growRow st row count = (st', row', enough)) :
    row <+: row' ∧ (enough = true → row.length + count ≤ row'.length) := by
  induction count generalizing st row with
  | zero =>
    obtain ⟨rfl, rfl, -⟩ : st = st' ∧ row = row' ∧ true = enough := by simpa [growRow] using h
    exact ⟨List.prefix_refl _, fun _ => Nat.le_refl _⟩
  | succ count ih =>
    unfold growRow at h
    split at h
    · obtain ⟨rfl, rfl, rfl⟩ : st = st' ∧ row = row' ∧ false = enough := by simpa using h
      exact ⟨List.prefix_refl _, fun henough => by cases henough⟩
    · next page rest hacquire =>
      obtain ⟨hpre, hlength⟩ := ih h
      refine ⟨(List.prefix_append row [page]).trans hpre, fun henough => ?_⟩
      have hle := hlength henough
      rw [List.length_append, List.length_singleton] at hle
      omega

/-- The rows of a grown table begin with the old ones, and have the pages that were asked for. -/
theorem growRows_grown {n : Nat} {st st' : PageStore K V} {rows rows' : List (List Nat)}
    (h : growRows n st rows = (st', rows', true)) :
    List.Forall₂ (fun row row' => row <+: row' ∧ n ≤ row'.length) rows rows' := by
  induction rows generalizing st rows' with
  | nil =>
    obtain ⟨-, rfl⟩ : st = st' ∧ [] = rows' := by simpa [growRows] using h
    exact List.Forall₂.nil
  | cons row rows ih =>
    unfold growRows at h
    split at h
    · simp at h
    · next grown row' hrow =>
      rcases hrest : growRows n grown rows with ⟨st₂, rows₂, enough₂⟩
      rw [hrest] at h
      obtain ⟨rfl, rfl, rfl⟩ : st₂ = st' ∧ row' :: rows₂ = rows' ∧ enough₂ = true := by
        simpa using h
      obtain ⟨hpre, hlength⟩ := growRow_grown hrow
      have hle := hlength rfl
      exact List.Forall₂.cons ⟨hpre, by omega⟩ (ih hrest)

/-! ### Scattering -/

/-- In a table without repeated pages a page has one place. -/
theorem place_unique {rows : List (List Nat)} (hnodup : rows.flatten.Nodup) {b b' j j' p : Nat}
    {row row' : List Nat} (hb : rows[b]? = some row) (hj : row[j]? = some p)
    (hb' : rows[b']? = some row') (hj' : row'[j']? = some p) : b = b' ∧ j = j' := by
  induction rows generalizing b b' with
  | nil => simp at hb
  | cons first rows ih =>
    rw [List.flatten_cons] at hnodup
    have hdisjoint := List.disjoint_of_nodup_append hnodup
    have hmem : ∀ {n : Nat} {r : List Nat}, rows[n]? = some r → p ∈ r → p ∈ rows.flatten :=
      fun hn hp => List.mem_flatten_of_mem (List.mem_of_getElem? hn) hp
    cases b with
    | zero =>
      obtain rfl : first = row := by simpa using hb
      cases b' with
      | zero =>
        obtain rfl : first = row' := by simpa using hb'
        refine ⟨rfl, ?_⟩
        have hj_lt := (List.getElem?_eq_some_iff.mp hj).1
        exact (List.getElem?_inj hj_lt hnodup.of_append_left).mp (hj.trans hj'.symm)
      | succ b' =>
        exact (hdisjoint (List.mem_of_getElem? hj)
          (hmem (by simpa using hb') (List.mem_of_getElem? hj'))).elim
    | succ b =>
      cases b' with
      | zero =>
        obtain rfl : first = row' := by simpa using hb'
        exact (hdisjoint (List.mem_of_getElem? hj')
          (hmem (by simpa using hb) (List.mem_of_getElem? hj))).elim
      | succ b' =>
        obtain ⟨hrows, hcolumns⟩ := ih hnodup.of_append_right (by simpa using hb) (by simpa using hb')
        exact ⟨congrArg (· + 1) hrows, hcolumns⟩

/-- The writes of `scatterPage`, over the rows of the table with their new tokens. -/
def scatterRows (base offStart offEnd logicalPage : Nat) (rows : List (List Nat × (Nat → K × V)))
    (st : PageStore K V) : PageStore K V :=
  rows.foldl (fun st r =>
    match r.1[logicalPage]? with
    | none => st
    | some page => st.writePage page base offStart offEnd r.2) st

theorem scatterRows_cons (base offStart offEnd logicalPage : Nat) (r : List Nat × (Nat → K × V))
    (rows : List (List Nat × (Nat → K × V))) (st : PageStore K V) :
    scatterRows base offStart offEnd logicalPage (r :: rows) st =
      scatterRows base offStart offEnd logicalPage rows
        (scatterRows base offStart offEnd logicalPage [r] st) := rfl

/-- A page that no row has at the logical page is left alone. -/
theorem scatterRows_entry_of_ne (base offStart offEnd : Nat) {logicalPage p : Nat}
    {rows : List (List Nat × (Nat → K × V))} (h : ∀ r ∈ rows, r.1[logicalPage]? ≠ some p)
    (st : PageStore K V) :
    (scatterRows base offStart offEnd logicalPage rows st).entry p = st.entry p := by
  induction rows generalizing st with
  | nil => rfl
  | cons r rows ih =>
    have hfirst : (scatterRows base offStart offEnd logicalPage [r] st).entry p = st.entry p := by
      unfold scatterRows
      rw [List.foldl_cons, List.foldl_nil]
      cases hpage : r.1[logicalPage]? with
      | none => rfl
      | some page =>
        have hne : p ∉ [page] := fun hmem =>
          h r List.mem_cons_self (by rw [hpage, List.mem_singleton.mp hmem])
        exact (OnlyPages.writePage (List.mem_singleton_self page)).entry hne
    rw [scatterRows_cons, ih fun r hr => h r (List.mem_cons_of_mem _ hr), hfirst]

/-- The page of a row at the logical page gets the row's tokens in the range of offsets. -/
theorem scatterRows_entry (base offStart offEnd : Nat) {logicalPage p b : Nat} {row : List Nat}
    {new : Nat → K × V} {rows : List (List Nat × (Nat → K × V))}
    (hnodup : (rows.map Prod.fst).flatten.Nodup) (hb : rows[b]? = some (row, new))
    (hp : row[logicalPage]? = some p) (st : PageStore K V) (off : Nat) :
    (scatterRows base offStart offEnd logicalPage rows st).entry p off =
      if offStart ≤ off ∧ off < offEnd then new (base + off) else st.entry p off := by
  induction rows generalizing st b with
  | nil => simp at hb
  | cons r rows ih =>
    rw [List.map_cons, List.flatten_cons] at hnodup
    have hdisjoint := List.disjoint_of_nodup_append hnodup
    rw [scatterRows_cons]
    cases b with
    | zero =>
      obtain rfl : r = (row, new) := by simpa using hb
      have hrest : ∀ r ∈ rows, r.1[logicalPage]? ≠ some p := fun r hr hpage =>
        hdisjoint (List.mem_of_getElem? hp)
          (List.mem_flatten_of_mem (List.mem_map_of_mem hr) (List.mem_of_getElem? hpage))
      rw [scatterRows_entry_of_ne _ _ _ hrest]
      unfold scatterRows
      rw [List.foldl_cons, List.foldl_nil, hp]
      exact st.entry_writePage_self p base offStart offEnd new off
    | succ b =>
      have hb : rows[b]? = some (row, new) := by simpa using hb
      have hmem : p ∈ (rows.map Prod.fst).flatten :=
        List.mem_flatten_of_mem (List.mem_map_of_mem (List.mem_of_getElem? hb))
          (List.mem_of_getElem? hp)
      have hfirst : ∀ r' ∈ [r], r'.1[logicalPage]? ≠ some p := by
        intro r' hr' hpage
        obtain rfl := List.mem_singleton.mp hr'
        exact hdisjoint (List.mem_of_getElem? hpage) hmem
      rw [ih hnodup.of_append_right hb, scatterRows_entry_of_ne _ _ _ hfirst]

namespace PagedKVPool

/-- The entry of a page after the writes to some logical pages, each of them once. -/
theorem scatterPages_entry (s : PagedKVPool K V) {blockTable : List (List Nat)}
    {newKvs : NewKvs K V} {prefixLength p b j : Nat} {row : List Nat} {new : Nat → K × V}
    (hnodup : blockTable.flatten.Nodup) (hlength : newKvs.rows.length = blockTable.length)
    (hrow : blockTable[b]? = some row) (hnew : newKvs.rows[b]? = some new)
    (hp : row[j]? = some p) {logicalPages : List Nat} (hpages : logicalPages.Nodup)
    (st : PageStore K V) (off : Nat) :
    (logicalPages.foldl (s.scatterPage blockTable newKvs prefixLength) st).entry p off =
      if j ∈ logicalPages ∧ max prefixLength (j * s.pageSize) - j * s.pageSize ≤ off ∧
          off < min newKvs.length ((j + 1) * s.pageSize) - j * s.pageSize then
        new (j * s.pageSize + off)
      else st.entry p off := by
  have hzip : (blockTable.zip newKvs.rows).map Prod.fst = blockTable :=
    List.map_fst_zip hlength.ge
  have hb : (blockTable.zip newKvs.rows)[b]? = some (row, new) :=
    List.getElem?_zip_eq_some.mpr ⟨hrow, hnew⟩
  have hother : ∀ lp, lp ≠ j → ∀ r ∈ blockTable.zip newKvs.rows, r.1[lp]? ≠ some p := by
    intro lp hne r hr hpage
    obtain ⟨b', hb'⟩ := List.mem_iff_getElem?.mp (List.of_mem_zip hr).1
    exact hne (place_unique hnodup hb' hpage hrow hp).2
  induction logicalPages generalizing st with
  | nil => simp
  | cons lp rest ih =>
    obtain ⟨hlp, hrest⟩ := List.nodup_cons.mp hpages
    rw [List.foldl_cons, ih hrest]
    by_cases hj : lp = j
    · subst hj
      rw [if_neg (fun h => hlp h.1)]
      have hrowsNodup : ((blockTable.zip newKvs.rows).map Prod.fst).flatten.Nodup := by
        rw [hzip]
        exact hnodup
      have hwritten := scatterRows_entry (lp * s.pageSize)
        (max prefixLength (lp * s.pageSize) - lp * s.pageSize)
        (min newKvs.length ((lp + 1) * s.pageSize) - lp * s.pageSize) hrowsNodup hb hp st off
      refine Eq.trans hwritten ?_
      simp only [List.mem_cons_self, true_and]
    · have hleft := scatterRows_entry_of_ne (lp * s.pageSize)
        (max prefixLength (lp * s.pageSize) - lp * s.pageSize)
        (min newKvs.length ((lp + 1) * s.pageSize) - lp * s.pageSize) (hother lp hj) st
      have hentry : (s.scatterPage blockTable newKvs prefixLength st lp).entry p = st.entry p := hleft
      rw [hentry]
      simp only [List.mem_cons, Ne.symm hj, false_or]

end PagedKVPool

end Drift.Server
