import Drift.Lib.Machine
import Drift.Lib.Dict

/-!
# The paged key/value pool

`PagedKVPool` keeps the caches of all paged sessions of a server in fixed-size pages. A *slot*, the
cache of one block for one session, has a row of pages for each row of its batch; pages are taken from
one free list when a row grows, and returned when the slot is released.

Rows are values here. In the source they are lists, and `reorder` hands them on by reference, so an
index vector that names one row by two indices (`i` and `i - batch_size`) makes two rows of the table
one list. What is proved about runs excludes such vectors.

An operation that raises leaves whatever it had changed by then, so every operation gives a result and
a pool. Of the tensors the model keeps what the operations move around: for a token of a page, its key
and its value, over all heads at once. The tensor operations raise where their shapes do not fit, which
the model decides from the lengths of rows and batches.

* `PagedKVPool.registerSlot`, `freeSlot`, `gather`, `scatter`, `reorder` — the operations;
* `PoolOp` and `poolMachine` — runs of them, with arbitrary arguments.
-/

namespace Drift.Server

open Drift.Lib

/-- What the operations can raise. -/
inductive PoolError
  | keyError
  | indexError
  | allocationFailed
  /-- A tensor cannot be built from ragged rows, reshaped, or indexed with an empty index. -/
  | shapeError
  deriving DecidableEq, Repr

/-- The pages: which are free, and what is in each at each offset. -/
structure PageStore (K V : Type) where
  freePages : List Nat
  keyPool : Nat → Nat → K
  valuePool : Nat → Nat → V

/-- `PagedKVPool`. A block table has a list of pages for each row of the slot's batch. -/
structure PagedKVPool (K V : Type) extends PageStore K V where
  numPages : Nat
  pageSize : Nat
  pageSize_pos : 0 < pageSize
  blockTables : Dict Nat (List (List Nat))

/-- `new_kvs`: the key and the value of every token of every batch row. -/
structure NewKvs (K V : Type) where
  length : Nat
  rows : List (Nat → K × V)

/-- `range(first, stop)`. -/
def pyRange (first stop : Nat) : List Nat := List.range' first (stop - first)

/-- The position a Python index names in a list of `n` elements: negative indices count from its
end. -/
def pyIndex (n : Nat) (i : Int) : Option Nat :=
  if 0 ≤ i ∧ i < n then some i.toNat
  else if i < 0 ∧ -i ≤ n then some (n + i).toNat
  else none

/-- Python indexing of a list. -/
def pyGet {α : Type} (xs : List α) (i : Int) : Option α :=
  (pyIndex xs.length i).bind fun n => xs[n]?

variable {K V : Type}

namespace PageStore

/-- `_acquire_page`: the last free page, `none` where the list is empty. -/
def acquirePage (st : PageStore K V) : Option (Nat × PageStore K V) :=
  st.freePages.getLast?.map fun page => (page, { st with freePages := st.freePages.dropLast })

/-- `key_pool[new].copy_(key_pool[page])`, and the same for the values. -/
def copyPage (st : PageStore K V) (page new : Nat) : PageStore K V :=
  { st with
    keyPool := fun p => if p = new then st.keyPool page else st.keyPool p
    valuePool := fun p => if p = new then st.valuePool page else st.valuePool p }

/-- Writes the tokens of one batch row whose offsets in the page are in `[offStart, offEnd)`; `base` is
the position of the page's first token. -/
def writePage (st : PageStore K V) (page base offStart offEnd : Nat) (row : Nat → K × V) :
    PageStore K V :=
  let here (p off : Nat) : Bool := p == page && decide (offStart ≤ off ∧ off < offEnd)
  { st with
    keyPool := fun p off => if here p off then (row (base + off)).1 else st.keyPool p off
    valuePool := fun p off => if here p off then (row (base + off)).2 else st.valuePool p off }

end PageStore

/-! ### Growing rows -/

/-- Appends `count` pages to a row; the flag says whether there were enough. -/
def growRow (st : PageStore K V) (row : List Nat) : Nat → PageStore K V × List Nat × Bool
  | 0 => (st, row, true)
  | count + 1 =>
    match st.acquirePage with
    | none => (st, row, false)
    | some (page, st') => growRow st' (row ++ [page]) count

/-- Grows every row of a block table to `numLogicalPages` pages, until the pages run out. -/
def growRows (numLogicalPages : Nat) (st : PageStore K V) :
    List (List Nat) → PageStore K V × List (List Nat) × Bool
  | [] => (st, [], true)
  | row :: rows =>
    match growRow st row (numLogicalPages - row.length) with
    | (st', row', false) => (st', row' :: rows, false)
    | (st', row', true) =>
      let (st'', rows', enough) := growRows numLogicalPages st' rows
      (st'', row' :: rows', enough)

/-! ### Reordering rows -/

/-- Copies the pages of a row into new pages; `none` where the pages run out. -/
def copyRow (st : PageStore K V) : List Nat → PageStore K V × Option (List Nat)
  | [] => (st, some [])
  | page :: pages =>
    match st.acquirePage with
    | none => (st, none)
    | some (new, st') =>
      let (st'', copied) := copyRow (st'.copyPage page new) pages
      (st'', copied.map (new :: ·))

/-- The loop of `reorder` over the indices: the first use of an index takes the row as it is, a later
one copies it. The result has the new rows and the indices that were claimed. -/
def reorderRows (blockTable : List (List Nat)) (claimed : List Int) (st : PageStore K V) :
    List Int → PageStore K V × Except PoolError (List (List Nat) × List Int)
  | [] => (st, .ok ([], claimed))
  | src :: rest =>
    match pyGet blockTable src with
    | none => (st, .error .indexError)
    | some row =>
      if src ∈ claimed then
        match copyRow st row with
        | (st', none) => (st', .error .allocationFailed)
        | (st', some copied) =>
          let (st'', result) := reorderRows blockTable claimed st' rest
          (st'', result.map fun p => (copied :: p.1, p.2))
      else
        let (st', result) := reorderRows blockTable (src :: claimed) st rest
        (st', result.map fun p => (row :: p.1, p.2))

/-- The pages of the rows no index claimed; `first` is the index of the first row of the list. -/
def unclaimedPages (claimed : List Int) (first : Nat) : List (List Nat) → List Nat
  | [] => []
  | row :: rows =>
    (if (first : Int) ∈ claimed then [] else row) ++ unclaimedPages claimed (first + 1) rows

namespace PagedKVPool

/-- The pool with other pages. -/
def withStore (s : PagedKVPool K V) (st : PageStore K V) : PagedKVPool K V :=
  { s with toPageStore := st }

/-- `PagedKVPool.__init__`: every page is free, and all are zero. -/
def initial (numPages pageSize : Nat) (hpos : 0 < pageSize) (zeroKey : K) (zeroValue : V) :
    PagedKVPool K V where
  freePages := List.range numPages
  keyPool := fun _ _ => zeroKey
  valuePool := fun _ _ => zeroValue
  numPages := numPages
  pageSize := pageSize
  pageSize_pos := hpos
  blockTables := ∅

/-- `math.ceil(length / page_size)`. -/
def logicalPages (s : PagedKVPool K V) (length : Nat) : Nat :=
  (length + s.pageSize - 1) / s.pageSize

/-- `register_slot`. -/
def registerSlot (s : PagedKVPool K V) (slot batchSize : Nat) : PagedKVPool K V :=
  if slot ∈ s.blockTables then s
  else { s with blockTables := s.blockTables.insert slot (List.replicate batchSize []) }

/-- `free_slot`. -/
def freeSlot (s : PagedKVPool K V) (slot : Nat) : PagedKVPool K V :=
  match s.blockTables.lookup slot with
  | none => s
  | some blockTable =>
    { s with freePages := s.freePages ++ blockTable.flatten, blockTables := s.blockTables.erase slot }

/-- The key and the value of the token at a position, read through a row of pages. -/
def token (s : PagedKVPool K V) (row : List Nat) (position : Nat) : Option (K × V) :=
  row[position / s.pageSize]?.map fun page =>
    (s.keyPool page (position % s.pageSize), s.valuePool page (position % s.pageSize))

/-- `gather`: the first `prefixLength` tokens of every row. The index tensor needs rows of one length
and an entry, and the result has to have the size of whole pages. -/
def gather (s : PagedKVPool K V) (slot prefixLength : Nat) :
    Except PoolError (List (List (Option (K × V)))) :=
  match s.blockTables.lookup slot with
  | none => .error .keyError
  | some blockTable =>
    if prefixLength ≠ 0 ∧
        (blockTable.isEmpty ∨ blockTable.any fun row => row.length < s.logicalPages prefixLength) then
      .error .shapeError
    else .ok (blockTable.map fun row => (List.range prefixLength).map (s.token row))

/-- The writes of `scatter` to one logical page, row by row. -/
def scatterPage (s : PagedKVPool K V) (blockTable : List (List Nat)) (newKvs : NewKvs K V)
    (prefixLength : Nat) (st : PageStore K V) (logicalPage : Nat) : PageStore K V :=
  let base := logicalPage * s.pageSize
  let tokStart := max prefixLength base
  let tokEnd := min newKvs.length ((logicalPage + 1) * s.pageSize)
  (blockTable.zip newKvs.rows).foldl (fun st r =>
    match r.1[logicalPage]? with
    | none => st
    | some page => st.writePage page base (tokStart - base) (tokEnd - base) r.2) st

/-- `scatter`. -/
def scatter (s : PagedKVPool K V) (slot : Nat) (newKvs : NewKvs K V) (prefixLength : Nat) :
    Except PoolError Unit × PagedKVPool K V :=
  match s.blockTables.lookup slot with
  | none => (.error .keyError, s)
  | some blockTable =>
    if newKvs.length ≤ prefixLength then (.ok (), s)
    else if newKvs.rows.length ≠ blockTable.length then (.error .shapeError, s)
    else
      match growRows (s.logicalPages newKvs.length) s.toPageStore blockTable with
      | (st, grown, false) =>
        (.error .allocationFailed,
          { s.withStore st with blockTables := s.blockTables.insert slot grown })
      | (st, grown, true) =>
        let s' := { s.withStore st with blockTables := s.blockTables.insert slot grown }
        if grown.isEmpty then (.error .shapeError, s')
        else
          (.ok (), s'.withStore
            ((pyRange (prefixLength / s.pageSize) (s.logicalPages newKvs.length)).foldl
              (s.scatterPage grown newKvs prefixLength) st))

/-- `reorder`. Nothing checks the indices before they are used. -/
def reorder (s : PagedKVPool K V) (slot : Nat) (hypoIds : List Int) :
    Except PoolError Unit × PagedKVPool K V :=
  match s.blockTables.lookup slot with
  | none => (.error .keyError, s)
  | some blockTable =>
    match reorderRows blockTable [] s.toPageStore hypoIds with
    | (st, .error e) => (.error e, s.withStore st)
    | (st, .ok (result, claimed)) =>
      (.ok (), { s.withStore st with
        freePages := st.freePages ++ unclaimedPages claimed 0 blockTable
        blockTables := s.blockTables.insert slot result })

end PagedKVPool

/-! ### Runs -/

/-- An operation with its arguments. -/
inductive PoolOp (K V : Type)
  | registerSlot (slot batchSize : Nat)
  | freeSlot (slot : Nat)
  | gather (slot prefixLength : Nat)
  | scatter (slot : Nat) (newKvs : NewKvs K V) (prefixLength : Nat)
  | reorder (slot : Nat) (hypoIds : List Int)

/-- The slot an operation is about. -/
def PoolOp.slot : PoolOp K V → Nat
  | registerSlot slot _ => slot
  | freeSlot slot => slot
  | gather slot _ => slot
  | scatter slot _ _ => slot
  | reorder slot _ => slot

/-- An operation: whether it raised, and the pool it leaves. -/
def PagedKVPool.perform (s : PagedKVPool K V) : PoolOp K V → Except PoolError Unit × PagedKVPool K V
  | .registerSlot slot batchSize => (.ok (), s.registerSlot slot batchSize)
  | .freeSlot slot => (.ok (), s.freeSlot slot)
  | .gather slot prefixLength => ((s.gather slot prefixLength).map fun _ => (), s)
  | .scatter slot newKvs prefixLength => s.scatter slot newKvs prefixLength
  | .reorder slot hypoIds => s.reorder slot hypoIds

/-- The machine of a pool: any operation at any time. One that raises is a step too. -/
def poolMachine (K V : Type) : Machine (PagedKVPool K V) (PoolOp K V) :=
  ⟨fun s op => some (s.perform op).2⟩

end Drift.Server
