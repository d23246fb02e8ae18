import Drift.Lib.Dict
import Drift.Lib.Outcome
import Drift.Lib.Text

/-!
# Packing arguments

The arguments of a remote call travel as a list of tensors and a structure. Each tensor of the structure is
replaced by a text, `__T` and its index in the list; a tensor that occurs several times is sent once. Plain
values stay in the structure as they are.

* `Nested`, `NestedFunctions` — nested arguments, and the two functions of the library that take them apart and
  put them together; `hivemind`, `hivemind_inverse` — an instance;
* `pack_masks` — what packing leaves at each place;
* `unmask_eq_ok_iff` — what unpacking makes of it;
* `unpack_pack_iff` — the arguments come back if and only if no plain value looks like a mark.
-/

namespace Drift.Utils

open Drift.Lib

/-! ### Nested arguments -/

/-- A value at a leaf: a tensor, a byte string, or any other plain value. -/
inductive Value (T V : Type)
  | tensor (t : T)
  | bytes (item : List UInt8)
  | plain (value : V)
  deriving DecidableEq

/-- Arguments nested in tuples, lists and dictionaries. The items of a dictionary are kept in the order of their
keys, which is the order in which the library visits them. -/
inductive Nested (κ L : Type)
  | leaf (value : L)
  | tuple (items : List (Nested κ L))
  | list (items : List (Nested κ L))
  | dict (items : List (κ × Nested κ L))

variable {κ L T V : Type}

/-- The value stands at some leaf. -/
inductive Nested.HasLeaf (value : L) : Nested κ L → Prop
  | leaf : HasLeaf value (.leaf value)
  | tuple {items : List (Nested κ L)} {item : Nested κ L} :
      item ∈ items → HasLeaf value item → HasLeaf value (.tuple items)
  | list {items : List (Nested κ L)} {item : Nested κ L} :
      item ∈ items → HasLeaf value item → HasLeaf value (.list items)
  | dict {items : List (κ × Nested κ L)} {key : κ} {item : Nested κ L} :
      (key, item) ∈ items → HasLeaf value item → HasLeaf value (.dict items)

/-- `nested_flatten` and `nested_pack` of the library. -/
structure NestedFunctions (κ L : Type) where
  nestedFlatten : Nested κ L → List L
  nestedPack : List L → Nested κ L → Nested κ L

/-- What is documented of them: flattening lists the leaves, and packing puts values in their places. -/
structure NestedFunctions.Inverse (lib : NestedFunctions κ L) : Prop where
  mem_flatten : ∀ s value, value ∈ lib.nestedFlatten s ↔ s.HasLeaf value
  pack_flatten : ∀ s, lib.nestedPack (lib.nestedFlatten s) s = s
  flatten_pack : ∀ values s, values.length = (lib.nestedFlatten s).length →
    lib.nestedFlatten (lib.nestedPack values s) = values
  pack_pack : ∀ values others s, values.length = (lib.nestedFlatten s).length →
    others.length = (lib.nestedFlatten s).length →
    lib.nestedPack values (lib.nestedPack others s) = lib.nestedPack values s

/-! ### The marks -/

/-- `b"__T"`. -/
def maskPrefix : List UInt8 := [95, 95, 84]

/-- `b"__T" + str(index).encode()`. -/
def markMaskedTensor (index : Nat) : List UInt8 :=
  maskPrefix ++ (Nat.toDigits 10 index).map fun c => UInt8.ofNat c.toNat

/-- A byte string that starts as a mark does. -/
def isMaskedTensor : Value T V → Bool
  | .bytes item => maskPrefix.isPrefixOf item
  | _ => false

/-- The white space that `int` drops from both ends of a byte string. -/
def isByteSpace (c : Char) : Bool := decide (c.toNat = 32 ∨ 9 ≤ c.toNat ∧ c.toNat ≤ 13)

/-- Decimal digits, with single underscores between them. -/
def decimal (digits : List Char) : Option Nat :=
  if (digits.splitOn '_').all fun group => !group.isEmpty && group.all Char.isDigit then
    some (Nat.ofDigitChars 10 (digits.filter (· ≠ '_')) 0)
  else none

/-- `int` of a byte string: a decimal numeral with an optional sign, in white space. -/
def intOfBytes (item : List UInt8) : Option Int :=
  let text := strip isByteSpace (item.map fun b => Char.ofNat b.toNat)
  if text.head? = some '-' then (decimal text.tail).map fun n => -(n : Int)
  else if text.head? = some '+' then (decimal text.tail).map Int.ofNat
  else (decimal text).map Int.ofNat

/-- `int(item[3:])`. -/
def getTensorIndex (item : List UInt8) : Option Int := intOfBytes (item.drop 3)

/-! ### Packing -/

/-- The lists that `pack_args_kwargs` builds: the values with the tensors masked, the tensors, and their
indices. -/
structure Packed (T V : Type) where
  maskedFlatValues : List (Value T V)
  flatTensors : List T
  tensorToIndex : Dict T Nat

section Pack

variable [DecidableEq T]

/-- One value: a tensor that is new is appended to the list, and each tensor is replaced by its mark. -/
def Packed.step (s : Packed T V) (value : Value T V) : Packed T V :=
  match value with
  | .tensor t =>
    match s.tensorToIndex.lookup t with
    | some tensorIndex =>
      { s with
        maskedFlatValues := s.maskedFlatValues ++ [.bytes (markMaskedTensor tensorIndex)]
        flatTensors := if tensorIndex = s.flatTensors.length then s.flatTensors ++ [t] else s.flatTensors }
    | none =>
      { maskedFlatValues := s.maskedFlatValues ++ [.bytes (markMaskedTensor s.flatTensors.length)]
        flatTensors := s.flatTensors ++ [t]
        tensorToIndex := s.tensorToIndex.insert t s.flatTensors.length }
  | value => { s with maskedFlatValues := s.maskedFlatValues ++ [value] }

/-- The loop over the flattened arguments. -/
def packValues (values : List (Value T V)) : Packed T V :=
  values.foldl Packed.step ⟨[], [], ∅⟩

/-- `(args, kwargs)`. -/
def structureOf (args : List (Nested κ L)) (kwargs : List (κ × Nested κ L)) : Nested κ L :=
  .tuple [.tuple args, .dict kwargs]

/-- The tensors, and the structure in which they are masked. -/
def packArgsKwargs (lib : NestedFunctions κ (Value T V)) (args : List (Nested κ (Value T V)))
    (kwargs : List (κ × Nested κ (Value T V))) : List T × Nested κ (Value T V) :=
  let packed := packValues (lib.nestedFlatten (structureOf args kwargs))
  (packed.flatTensors, lib.nestedPack packed.maskedFlatValues (structureOf args kwargs))

end Pack

/-! ### Unpacking -/

/-- What unpacking can raise. -/
inductive UnpackError
  | invalidLiteral
  | indexOutOfRange
  deriving DecidableEq, Repr

/-- `flat_tensors[index]`, which counts a negative index from the end. -/
def getTensor (flatTensors : List T) (index : Int) : Except UnpackError T :=
  let position := if index < 0 then index + flatTensors.length else index
  match if position < 0 then none else flatTensors[position.toNat]? with
  | some t => .ok t
  | none => .error .indexOutOfRange

/-- One value of the structure: a mark is replaced by its tensor. -/
def unmask (flatTensors : List T) (value : Value T V) : Except UnpackError (Value T V) :=
  match value with
  | .bytes item =>
    if isMaskedTensor (.bytes item : Value T V) then
      match getTensorIndex item with
      | none => .error .invalidLiteral
      | some index => (getTensor flatTensors index).map .tensor
    else .ok (.bytes item)
  | value => .ok value

/-- The arguments, restored. -/
def unpackArgsKwargs (lib : NestedFunctions κ (Value T V)) (flatTensors : List T)
    (argsStructure : Nested κ (Value T V)) : Except UnpackError (Nested κ (Value T V)) := do
  let values ← (lib.nestedFlatten argsStructure).mapM (unmask flatTensors)
  return lib.nestedPack values argsStructure

/-! ### A mark is read as its index -/

theorem charOfByte_digit {c : Char} (h : c.isDigit = true) : Char.ofNat (UInt8.ofNat c.toNat).toNat = c := by
  have hlt : c.toNat < 256 := by
    simp only [Char.isDigit, Bool.and_eq_true, decide_eq_true_eq] at h
    have hle : c.toNat ≤ 57 := h.2
    omega
  rw [UInt8.toNat_ofNat', Nat.mod_eq_of_lt hlt, Char.ofNat_toNat]

theorem isDigit_toDigits {index : Nat} {c : Char} (h : c ∈ Nat.toDigits 10 index) : c.isDigit = true :=
  Nat.isDigit_of_mem_toDigits (by decide) (le_refl 10) h

theorem chars_toDigits (index : Nat) :
    ((Nat.toDigits 10 index).map fun c => UInt8.ofNat c.toNat).map (fun b => Char.ofNat b.toNat) =
      Nat.toDigits 10 index := by
  rw [List.map_map]
  calc (Nat.toDigits 10 index).map ((fun b : UInt8 => Char.ofNat b.toNat) ∘ fun c => UInt8.ofNat c.toNat)
      = (Nat.toDigits 10 index).map id :=
        List.map_congr_left fun c hc => charOfByte_digit (isDigit_toDigits hc)
    _ = Nat.toDigits 10 index := List.map_id _

/-- A digit is none of the characters that `int` treats apart. -/
theorem digit_plain {c : Char} (h : c.isDigit = true) :
    isByteSpace c = false ∧ c ≠ '-' ∧ c ≠ '+' ∧ c ≠ '_' := by
  have hge : 48 ≤ c.toNat := by
    simp only [Char.isDigit, Bool.and_eq_true, decide_eq_true_eq] at h
    exact h.1
  refine ⟨decide_eq_false (by omega), ?_, ?_, ?_⟩
  all_goals
    rintro rfl
    exact absurd h (by decide)

theorem decimal_toDigits (index : Nat) : decimal (Nat.toDigits 10 index) = some index := by
  have hplain : ∀ c ∈ Nat.toDigits 10 index, c ≠ '_' := fun c hc => (digit_plain (isDigit_toDigits hc)).2.2.2
  have hsplit : (Nat.toDigits 10 index).splitOn '_' = [Nat.toDigits 10 index] :=
    List.splitOn_eq_singleton fun hmem => hplain _ hmem rfl
  have hfilter : (Nat.toDigits 10 index).filter (· ≠ '_') = Nat.toDigits 10 index :=
    List.filter_eq_self.mpr fun c hc => decide_eq_true (hplain c hc)
  have hall : (Nat.toDigits 10 index).all Char.isDigit = true :=
    List.all_eq_true.mpr fun c hc => isDigit_toDigits hc
  have hne : (Nat.toDigits 10 index).isEmpty = false := by
    rw [Bool.eq_false_iff, ne_eq, List.isEmpty_iff]
    exact Nat.toDigits_ne_nil
  unfold decimal
  rw [hsplit, List.all_cons, List.all_nil, hall, hne, hfilter, Nat.ofDigitChars_ten_toDigits]
  rfl

/-- **A mark is read as the index it was made of.** -/
theorem getTensorIndex_mark (index : Nat) : getTensorIndex (markMaskedTensor index) = some (index : Int) := by
  have htrimmed : Trimmed isByteSpace (Nat.toDigits 10 index) :=
    ⟨fun c hc => (digit_plain (isDigit_toDigits (List.mem_of_mem_head? hc))).1,
      fun c hc => (digit_plain (isDigit_toDigits (List.mem_of_getLast? hc))).1⟩
  have hsign : ∀ sign, sign = '-' ∨ sign = '+' → (Nat.toDigits 10 index).head? ≠ some sign := by
    intro sign hsign hhead
    obtain ⟨-, hminus, hplus, -⟩ := digit_plain (isDigit_toDigits (List.mem_of_mem_head? hhead))
    rcases hsign with rfl | rfl
    · exact hminus rfl
    · exact hplus rfl
  unfold getTensorIndex markMaskedTensor
  rw [List.drop_left' (by rfl)]
  unfold intOfBytes
  rw [chars_toDigits]
  dsimp only
  rw [strip_eq_self htrimmed Nat.toDigits_ne_nil, if_neg (hsign _ (.inl rfl)), if_neg (hsign _ (.inr rfl)),
    decimal_toDigits]
  rfl

/-! ### What packing leaves -/

/-- What stands for a value in the masked structure: a tensor is replaced by the mark of its index. -/
def Masks (flatTensors : List T) (value masked : Value T V) : Prop :=
  match value with
  | .tensor t => ∃ index, flatTensors[index]? = some t ∧ masked = .bytes (markMaskedTensor index)
  | value => masked = value

theorem Masks.append {flatTensors : List T} {value masked : Value T V} (h : Masks flatTensors value masked)
    (more : List T) : Masks (flatTensors ++ more) value masked := by
  cases value with
  | tensor t =>
    obtain ⟨index, hindex, rfl⟩ := h
    have hlt : index < flatTensors.length := (List.getElem?_eq_some_iff.mp hindex).1
    exact ⟨index, by rw [List.getElem?_append_left hlt, hindex], rfl⟩
  | bytes item => exact h
  | plain value => exact h

section Loop

variable [DecidableEq T]

/-- The lists while they are built: the values so far are masked, and each index is that of its tensor. -/
structure Packing (s : Packed T V) (values : List (Value T V)) : Prop where
  masked : List.Forall₂ (Masks s.flatTensors) values s.maskedFlatValues
  indices : ∀ t index, s.tensorToIndex.lookup t = some index → s.flatTensors[index]? = some t

theorem Packing.step {s : Packed T V} {values : List (Value T V)} (h : Packing s values)
    (value : Value T V) : Packing (s.step value) (values ++ [value]) := by
  cases value with
  | tensor t =>
    unfold Packed.step
    cases hlookup : s.tensorToIndex.lookup t with
    | some index =>
      -- a tensor that was met before: its index is in range, so nothing is appended
      have hindex := h.indices t index hlookup
      have hne : index ≠ s.flatTensors.length := (List.getElem?_eq_some_iff.mp hindex).1.ne
      simp only [hlookup, if_neg hne]
      exact ⟨List.rel_append h.masked (.cons ⟨index, hindex, rfl⟩ .nil), h.indices⟩
    | none =>
      have hnew : (s.flatTensors ++ [t])[s.flatTensors.length]? = some t := List.getElem?_concat_length
      simp only [hlookup]
      refine ⟨List.rel_append (h.masked.imp fun _ _ hmasks => hmasks.append [t]) (.cons ⟨_, hnew, rfl⟩ .nil), ?_⟩
      intro t' index hindex
      rw [Dict.lookup_insert_eq] at hindex
      split at hindex
      · rename_i heq
        obtain rfl := Option.some.inj hindex
        rw [heq]
        exact hnew
      · have hold := h.indices t' index hindex
        rw [List.getElem?_append_left (List.getElem?_eq_some_iff.mp hold).1, hold]
  | bytes item => exact ⟨List.rel_append h.masked (.cons rfl .nil), h.indices⟩
  | plain value => exact ⟨List.rel_append h.masked (.cons rfl .nil), h.indices⟩

/-- The loop lemma. -/
theorem Packing.foldl {s : Packed T V} {done : List (Value T V)} (h : Packing s done)
    (values : List (Value T V)) : Packing (values.foldl Packed.step s) (done ++ values) := by
  induction values generalizing s done with
  | nil =>
    rw [List.append_nil]
    exact h
  | cons value rest ih =>
    have hrest := ih (h.step value)
    rw [List.append_assoc, List.singleton_append] at hrest
    exact hrest

/-- **What packing leaves at each place.** -/
theorem pack_masks (values : List (Value T V)) :
    List.Forall₂ (Masks (packValues values).flatTensors) values (packValues values).maskedFlatValues := by
  have hstart : Packing (⟨[], [], ∅⟩ : Packed T V) [] := ⟨.nil, fun t index h => nomatch h⟩
  exact (hstart.foldl values).masked

end Loop

/-- **What unpacking makes of it.** The value comes back if and only if it does not look like a mark. -/
theorem unmask_eq_ok_iff {flatTensors : List T} {value masked : Value T V} (h : Masks flatTensors value masked) :
    unmask flatTensors masked = .ok value ↔ isMaskedTensor value = false := by
  cases value with
  | tensor t =>
    obtain ⟨index, hindex, rfl⟩ := h
    have hmask : isMaskedTensor (.bytes (markMaskedTensor index) : Value T V) = true :=
      List.isPrefixOf_iff_prefix.mpr (List.prefix_append _ _)
    have hget : getTensor flatTensors (index : Int) = .ok t := by
      unfold getTensor
      have hnonneg : ¬(index : Int) < 0 := by omega
      simp only [if_neg hnonneg, Int.toNat_natCast, hindex]
    unfold unmask
    simp only [hmask, if_true, getTensorIndex_mark, hget]
    exact iff_of_true rfl rfl
  | bytes item =>
    obtain rfl : masked = .bytes item := h
    unfold unmask
    dsimp only
    cases hmask : isMaskedTensor (.bytes item : Value T V) with
    | false =>
      rw [if_neg Bool.false_ne_true]
      exact iff_of_true rfl rfl
    | true =>
      rw [if_pos rfl]
      refine iff_of_false (fun hok => ?_) Bool.noConfusion
      -- a mark gives a tensor or an error, never the bytes
      cases hindex : getTensorIndex item with
      | none =>
        rw [hindex] at hok
        cases hok
      | some index =>
        rw [hindex] at hok
        dsimp only at hok
        cases hget : getTensor flatTensors index with
        | error e =>
          rw [hget] at hok
          cases hok
        | ok t =>
          rw [hget] at hok
          cases hok
  | plain value =>
    obtain rfl : masked = .plain value := h
    exact iff_of_true rfl rfl

/-- All values come back if and only if none of them looks like a mark. -/
theorem mapM_unmask_eq_ok_iff {flatTensors : List T} {values masked : List (Value T V)}
    (h : List.Forall₂ (Masks flatTensors) values masked) :
    masked.mapM (unmask flatTensors) = .ok values ↔ ∀ value ∈ values, isMaskedTensor value = false := by
  rw [mapM_eq_ok]
  induction h with
  | nil => exact iff_of_true .nil fun value hvalue => nomatch hvalue
  | cons hmasks _ ih => rw [List.forall₂_cons, unmask_eq_ok_iff hmasks, ih, List.forall_mem_cons]

/-! ### The round trip -/

variable [DecidableEq T]

/-- **The arguments come back if and only if no plain value looks like a mark.** -/
theorem unpack_pack_iff (lib : NestedFunctions κ (Value T V)) (hlib : lib.Inverse)
    (args : List (Nested κ (Value T V))) (kwargs : List (κ × Nested κ (Value T V))) :
    unpackArgsKwargs lib (packArgsKwargs lib args kwargs).1 (packArgsKwargs lib args kwargs).2 =
        .ok (structureOf args kwargs) ↔
      ∀ value, (structureOf args kwargs).HasLeaf value → isMaskedTensor value = false := by
  have hmasks := pack_masks (lib.nestedFlatten (structureOf args kwargs))
  have hmap := mapM_unmask_eq_ok_iff hmasks
  have hflatten : lib.nestedFlatten (packArgsKwargs lib args kwargs).2 =
      (packValues (lib.nestedFlatten (structureOf args kwargs))).maskedFlatValues :=
    hlib.flatten_pack _ _ hmasks.length_eq.symm
  have hpacked (values : List (Value T V))
      (hlength : values.length = (lib.nestedFlatten (structureOf args kwargs)).length) :
      lib.nestedPack values (packArgsKwargs lib args kwargs).2 =
        lib.nestedPack values (structureOf args kwargs) :=
    hlib.pack_pack values _ _ hlength hmasks.length_eq.symm
  simp only [← hlib.mem_flatten]
  rw [← hmap]
  unfold unpackArgsKwargs
  rw [hflatten, bind_eq_ok]
  constructor
  · rintro ⟨values, hvalues, hpack⟩
    -- the values fill the structure, which determines them
    have hlength : values.length = (lib.nestedFlatten (structureOf args kwargs)).length := by
      rw [← (mapM_eq_ok.mp hvalues).length_eq, hmasks.length_eq]
    have hvalues' : values = lib.nestedFlatten (structureOf args kwargs) := by
      rw [← hlib.flatten_pack values _ hlength, ← hpacked values hlength, Except.ok.inj hpack]
    rw [hvalues'] at hvalues
    exact hvalues
  · intro hvalues
    refine ⟨_, hvalues, congrArg Except.ok ?_⟩
    rw [hpacked _ rfl, hlib.pack_flatten]

/-! ### The functions of the library -/

mutual

/-- The leaves in order. -/
def nestedFlatten : Nested κ L → List L
  | .leaf value => [value]
  | .tuple items => flattenItems items
  | .list items => flattenItems items
  | .dict items => flattenEntries items

def flattenItems : List (Nested κ L) → List L
  | [] => []
  | item :: rest => nestedFlatten item ++ flattenItems rest

def flattenEntries : List (κ × Nested κ L) → List L
  | [] => []
  | (_, item) :: rest => nestedFlatten item ++ flattenEntries rest

end

mutual

/-- The structure with the next values at its leaves, and the values after them. -/
def packFrom : List L → Nested κ L → Nested κ L × List L
  | values, .leaf value => (.leaf (values.headD value), values.tail)
  | values, .tuple items => (.tuple (packItems values items).1, (packItems values items).2)
  | values, .list items => (.list (packItems values items).1, (packItems values items).2)
  | values, .dict items => (.dict (packEntries values items).1, (packEntries values items).2)

def packItems : List L → List (Nested κ L) → List (Nested κ L) × List L
  | values, [] => ([], values)
  | values, item :: rest =>
    let first := packFrom values item
    let others := packItems first.2 rest
    (first.1 :: others.1, others.2)

def packEntries : List L → List (κ × Nested κ L) → List (κ × Nested κ L) × List L
  | values, [] => ([], values)
  | values, (key, item) :: rest =>
    let first := packFrom values item
    let others := packEntries first.2 rest
    ((key, first.1) :: others.1, others.2)

end

/-- The library, on as many values as there are leaves. -/
def hivemind (κ L : Type) : NestedFunctions κ L where
  nestedFlatten := nestedFlatten
  nestedPack values s := (packFrom values s).1

mutual

theorem mem_nestedFlatten (value : L) :
    ∀ s : Nested κ L, value ∈ nestedFlatten s ↔ s.HasLeaf value
  | .leaf value' => by
    rw [nestedFlatten, List.mem_singleton]
    exact ⟨fun h => h ▸ .leaf, fun h => by cases h; rfl⟩
  | .tuple items => by
    rw [nestedFlatten, mem_flattenItems value items]
    exact ⟨fun ⟨_, hmem, h⟩ => .tuple hmem h, fun h => by cases h with | tuple hmem h => exact ⟨_, hmem, h⟩⟩
  | .list items => by
    rw [nestedFlatten, mem_flattenItems value items]
    exact ⟨fun ⟨_, hmem, h⟩ => .list hmem h, fun h => by cases h with | list hmem h => exact ⟨_, hmem, h⟩⟩
  | .dict items => by
    rw [nestedFlatten, mem_flattenEntries value items]
    exact ⟨fun ⟨_, _, hmem, h⟩ => .dict hmem h, fun h => by cases h with | dict hmem h => exact ⟨_, _, hmem, h⟩⟩

theorem mem_flattenItems (value : L) :
    ∀ items : List (Nested κ L), value ∈ flattenItems items ↔ ∃ item ∈ items, item.HasLeaf value
  | [] => by simp [flattenItems]
  | item :: rest => by
    rw [flattenItems, List.mem_append, mem_nestedFlatten value item, mem_flattenItems value rest]
    simp

theorem mem_flattenEntries (value : L) :
    ∀ items : List (κ × Nested κ L), value ∈ flattenEntries items ↔
      ∃ key item, (key, item) ∈ items ∧ item.HasLeaf value
  | [] => by simp [flattenEntries]
  | (key, item) :: rest => by
    rw [flattenEntries, List.mem_append, mem_nestedFlatten value item, mem_flattenEntries value rest]
    constructor
    · rintro (h | ⟨key', item', hmem, h⟩)
      · exact ⟨key, item, List.mem_cons_self, h⟩
      · exact ⟨key', item', List.mem_cons_of_mem _ hmem, h⟩
    · rintro ⟨key', item', hmem, h⟩
      rcases List.mem_cons.mp hmem with heq | hmem
      · obtain ⟨rfl, rfl⟩ := Prod.mk.inj heq
        exact .inl h
      · exact .inr ⟨key', item', hmem, h⟩

end

mutual

theorem packFrom_flatten : ∀ (s : Nested κ L) (rest : List L), packFrom (nestedFlatten s ++ rest) s = (s, rest)
  | .leaf value, rest => by
    rw [nestedFlatten, List.singleton_append, packFrom]
    rfl
  | .tuple items, rest => by rw [nestedFlatten, packFrom, packItems_flatten items rest]
  | .list items, rest => by rw [nestedFlatten, packFrom, packItems_flatten items rest]
  | .dict items, rest => by rw [nestedFlatten, packFrom, packEntries_flatten items rest]

theorem packItems_flatten :
    ∀ (items : List (Nested κ L)) (rest : List L), packItems (flattenItems items ++ rest) items = (items, rest)
  | [], rest => rfl
  | item :: items, rest => by
    rw [flattenItems, List.append_assoc, packItems, packFrom_flatten item]
    dsimp only
    rw [packItems_flatten items rest]

theorem packEntries_flatten :
    ∀ (items : List (κ × Nested κ L)) (rest : List L),
      packEntries (flattenEntries items ++ rest) items = (items, rest)
  | [], rest => rfl
  | (key, item) :: items, rest => by
    rw [flattenEntries, List.append_assoc, packEntries, packFrom_flatten item]
    dsimp only
    rw [packEntries_flatten items rest]

end

/-- As many values as two parts take, divided between them. -/
theorem exists_append_of_length {values : List L} {m n : Nat} (h : values.length = m + n) :
    ∃ first second, values = first ++ second ∧ first.length = m ∧ second.length = n :=
  ⟨values.take m, values.drop m, (List.take_append_drop m values).symm,
    by rw [List.length_take]; omega, by rw [List.length_drop]; omega⟩

mutual

theorem flatten_packFrom : ∀ (s : Nested κ L) (values rest : List L),
    values.length = (nestedFlatten s).length →
      nestedFlatten (packFrom (values ++ rest) s).1 = values ∧ (packFrom (values ++ rest) s).2 = rest
  | .leaf value, values, rest, h => by
    obtain ⟨next, rfl⟩ := List.length_eq_one_iff.mp h
    exact ⟨rfl, rfl⟩
  | .tuple items, values, rest, h => by
    rw [packFrom, nestedFlatten]
    exact flatten_packItems items values rest h
  | .list items, values, rest, h => by
    rw [packFrom, nestedFlatten]
    exact flatten_packItems items values rest h
  | .dict items, values, rest, h => by
    rw [packFrom, nestedFlatten]
    exact flatten_packEntries items values rest h

theorem flatten_packItems : ∀ (items : List (Nested κ L)) (values rest : List L),
    values.length = (flattenItems items).length →
      flattenItems (packItems (values ++ rest) items).1 = values ∧ (packItems (values ++ rest) items).2 = rest
  | [], values, rest, h => by
    obtain rfl := List.length_eq_zero_iff.mp h
    exact ⟨rfl, rfl⟩
  | item :: items, values, rest, h => by
    rw [flattenItems, List.length_append] at h
    obtain ⟨first, second, rfl, hfirst, hsecond⟩ := exists_append_of_length h
    obtain ⟨hflatten, hrest⟩ := flatten_packFrom item first (second ++ rest) hfirst
    obtain ⟨hflatten', hrest'⟩ := flatten_packItems items second rest hsecond
    rw [packItems, List.append_assoc]
    dsimp only
    rw [hrest, flattenItems, hflatten, hflatten']
    exact ⟨rfl, hrest'⟩

theorem flatten_packEntries : ∀ (items : List (κ × Nested κ L)) (values rest : List L),
    values.length = (flattenEntries items).length →
      flattenEntries (packEntries (values ++ rest) items).1 = values ∧
        (packEntries (values ++ rest) items).2 = rest
  | [], values, rest, h => by
    obtain rfl := List.length_eq_zero_iff.mp h
    exact ⟨rfl, rfl⟩
  | (key, item) :: items, values, rest, h => by
    rw [flattenEntries, List.length_append] at h
    obtain ⟨first, second, rfl, hfirst, hsecond⟩ := exists_append_of_length h
    obtain ⟨hflatten, hrest⟩ := flatten_packFrom item first (second ++ rest) hfirst
    obtain ⟨hflatten', hrest'⟩ := flatten_packEntries items second rest hsecond
    rw [packEntries, List.append_assoc]
    dsimp only
    rw [hrest, flattenEntries, hflatten, hflatten']
    exact ⟨rfl, hrest'⟩

end

mutual

/-- Only the shape of the structure matters. -/
theorem packFrom_packFrom : ∀ (s : Nested κ L) (values others rest rest' : List L),
    values.length = (nestedFlatten s).length → others.length = (nestedFlatten s).length →
      packFrom (values ++ rest) (packFrom (others ++ rest') s).1 = packFrom (values ++ rest) s
  | .leaf value, values, others, rest, rest', h, h' => by
    obtain ⟨next, rfl⟩ := List.length_eq_one_iff.mp h
    obtain ⟨next', rfl⟩ := List.length_eq_one_iff.mp h'
    rfl
  | .tuple items, values, others, rest, rest', h, h' => by
    simp only [packFrom]
    rw [packItems_packItems items values others rest rest' h h']
  | .list items, values, others, rest, rest', h, h' => by
    simp only [packFrom]
    rw [packItems_packItems items values others rest rest' h h']
  | .dict items, values, others, rest, rest', h, h' => by
    simp only [packFrom]
    rw [packEntries_packEntries items values others rest rest' h h']

theorem packItems_packItems : ∀ (items : List (Nested κ L)) (values others rest rest' : List L),
    values.length = (flattenItems items).length → others.length = (flattenItems items).length →
      packItems (values ++ rest) (packItems (others ++ rest') items).1 = packItems (values ++ rest) items
  | [], _, _, _, _, _, _ => rfl
  | item :: items, values, others, rest, rest', h, h' => by
    rw [flattenItems, List.length_append] at h h'
    obtain ⟨first, second, rfl, hfirst, hsecond⟩ := exists_append_of_length h
    obtain ⟨first', second', rfl, hfirst', hsecond'⟩ := exists_append_of_length h'
    have hitem := packFrom_packFrom item first first' (second ++ rest) (second' ++ rest') hfirst hfirst'
    have hitems := packItems_packItems items second second' rest rest' hsecond hsecond'
    simp only [List.append_assoc, packItems]
    rw [hitem, (flatten_packFrom item first (second ++ rest) hfirst).2,
      (flatten_packFrom item first' (second' ++ rest') hfirst').2, hitems]

theorem packEntries_packEntries : ∀ (items : List (κ × Nested κ L)) (values others rest rest' : List L),
    values.length = (flattenEntries items).length → others.length = (flattenEntries items).length →
      packEntries (values ++ rest) (packEntries (others ++ rest') items).1 = packEntries (values ++ rest) items
  | [], _, _, _, _, _, _ => rfl
  | (key, item) :: items, values, others, rest, rest', h, h' => by
    rw [flattenEntries, List.length_append] at h h'
    obtain ⟨first, second, rfl, hfirst, hsecond⟩ := exists_append_of_length h
    obtain ⟨first', second', rfl, hfirst', hsecond'⟩ := exists_append_of_length h'
    have hitem := packFrom_packFrom item first first' (second ++ rest) (second' ++ rest') hfirst hfirst'
    have hitems := packEntries_packEntries items second second' rest rest' hsecond hsecond'
    simp only [List.append_assoc, packEntries]
    rw [hitem, (flatten_packFrom item first (second ++ rest) hfirst).2,
      (flatten_packFrom item first' (second' ++ rest') hfirst').2, hitems]

end

theorem hivemind_inverse (κ L : Type) : (hivemind κ L).Inverse where
  mem_flatten s value := mem_nestedFlatten value s
  pack_flatten s := by
    have h := packFrom_flatten s []
    rw [List.append_nil] at h
    exact congrArg Prod.fst h
  flatten_pack values s hlength := by
    have h := (flatten_packFrom s values [] hlength).1
    rwa [List.append_nil] at h
  pack_pack values others s hvalues hothers := by
    have h := packFrom_packFrom s values others [] [] hvalues hothers
    rw [List.append_nil, List.append_nil] at h
    exact congrArg Prod.fst h

/-- A tensor that occurs twice, beside a byte string. -/
theorem unpack_pack_iff_of_shared_tensor :
    unpackArgsKwargs (hivemind String (Value Nat Nat))
        (packArgsKwargs (hivemind String (Value Nat Nat)) [.leaf (.tensor 7), .leaf (.bytes [95, 84])]
          [("mask", .list [.leaf (.tensor 7)])]).1
        (packArgsKwargs (hivemind String (Value Nat Nat)) [.leaf (.tensor 7), .leaf (.bytes [95, 84])]
          [("mask", .list [.leaf (.tensor 7)])]).2 =
      .ok (structureOf [.leaf (.tensor 7), .leaf (.bytes [95, 84])] [("mask", .list [.leaf (.tensor 7)])]) := by
  refine (unpack_pack_iff _ (hivemind_inverse _ _) _ _).mpr fun value hleaf => ?_
  rw [← mem_nestedFlatten] at hleaf
  have hall : ∀ value ∈ nestedFlatten (structureOf [.leaf (.tensor 7), .leaf (.bytes [95, 84])]
      [("mask", .list [.leaf (.tensor 7)])] : Nested String (Value Nat Nat)), isMaskedTensor value = false := by
    decide
  exact hall value hleaf

/-- The byte string `__T0` comes back as the tensor. -/
theorem plain_mark_becomes_tensor :
    unpackArgsKwargs (hivemind String (Value Nat Nat))
        (packArgsKwargs (hivemind String (Value Nat Nat)) [.leaf (.tensor 7), .leaf (.bytes [95, 95, 84, 48])] []).1
        (packArgsKwargs (hivemind String (Value Nat Nat)) [.leaf (.tensor 7), .leaf (.bytes [95, 95, 84, 48])] []).2 ≠
      .ok (structureOf [.leaf (.tensor 7), .leaf (.bytes [95, 95, 84, 48])] []) := by
  rw [ne_eq, unpack_pack_iff _ (hivemind_inverse _ _)]
  intro hplain
  have hleaf : (structureOf [.leaf (.tensor 7), .leaf (.bytes [95, 95, 84, 48])] [] :
      Nested String (Value Nat Nat)).HasLeaf (.bytes [95, 95, 84, 48]) := by
    rw [← mem_nestedFlatten]
    decide
  exact absurd (hplain _ hleaf) (by decide)

end Drift.Utils
