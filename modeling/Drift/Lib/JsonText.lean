import Drift.Lib.Json
import Mathlib.Data.List.TakeWhile
import Mathlib.Tactic.Common

/-!
# Reading JSON text

`Json.loads` reads a text as `json.loads` does, and gives back what `Json.dumps` has rendered, up to the
order of the fields: `loads_dumps`. The rendering therefore determines the document
(`sortKeys_eq_of_dumps_eq`), which is what a signature over a canonical text relies on.

The reader keeps the fields of an object as they stand in the text, duplicates included, as an
`object_pairs_hook` receives them; `distinctKeys` is what the hooks of the source check. Numbers with a
fraction or an exponent and escaped surrogates are refused: no document that is read back here holds one
(`Plain`).
-/

namespace Drift.Lib

namespace Json

/-! ### Documents -/

/-- **Induction on documents**, with the hypothesis for all that an array or an object holds. -/
@[elab_as_elim]
theorem induct {P : Json → Prop} (null : P .null) (bool : ∀ b, P (.bool b)) (int : ∀ n, P (.int n))
    (float : ∀ literal value, P (.float literal value)) (str : ∀ s, P (.str s))
    (arr : ∀ items, (∀ x ∈ items, P x) → P (.arr items))
    (obj : ∀ fields, (∀ f ∈ fields, P f.2) → P (.obj fields)) (foreign : ∀ name, P (.foreign name)) :
    ∀ j, P j := by
  refine @Json.rec P (fun items => ∀ x ∈ items, P x) (fun fields => ∀ f ∈ fields, P f.2)
    (fun f => P f.2) null bool int float str arr obj foreign ?_ ?_ ?_ ?_ ?_
  · exact fun x hx => absurd hx List.not_mem_nil
  · intro x items hx hitems y hy
    rcases List.mem_cons.mp hy with rfl | hy
    · exact hx
    · exact hitems y hy
  · exact fun f hf => absurd hf List.not_mem_nil
  · intro f fields hf hfields g hg
    rcases List.mem_cons.mp hg with rfl | hg
    · exact hf
    · exact hfields g hg
  · exact fun _ _ hx => hx

/-- The comparison that sorts the fields of an object. -/
def keyLe {α : Type} (a b : String × α) : Prop := a.1 ≤ b.1

instance {α : Type} : DecidableRel (keyLe (α := α)) := fun a b => inferInstanceAs (Decidable (a.1 ≤ b.1))

theorem keyLe_iff {α : Type} {k k' : String} {x x' : α} : keyLe (k, x) (k', x') ↔ k ≤ k' := Iff.rfl

mutual

/-- The document with the fields of each object sorted. -/
def sortKeys : Json → Json
  | .arr items => .arr (sortItems items)
  | .obj fields => .obj ((sortFields fields).insertionSort keyLe)
  | j => j

/-- The elements of an array, sorted inside. -/
def sortItems : List Json → List Json
  | [] => []
  | x :: xs => sortKeys x :: sortItems xs

/-- The fields of an object, sorted inside. -/
def sortFields : List (String × Json) → List (String × Json)
  | [] => []
  | (k, x) :: xs => (k, sortKeys x) :: sortFields xs

end

mutual

/-- A document without fractions and foreign values. -/
def Plain : Json → Prop
  | .float _ _ => False
  | .foreign _ => False
  | .arr items => PlainItems items
  | .obj fields => PlainFields fields
  | _ => True

def PlainItems : List Json → Prop
  | [] => True
  | x :: xs => Plain x ∧ PlainItems xs

def PlainFields : List (String × Json) → Prop
  | [] => True
  | (_, x) :: xs => Plain x ∧ PlainFields xs

end

mutual

/-- No object has a key twice. -/
def distinctKeys : Json → Bool
  | .arr items => distinctItems items
  | .obj fields => decide (fields.map Prod.fst).Nodup && distinctFields fields
  | _ => true

def distinctItems : List Json → Bool
  | [] => true
  | x :: xs => distinctKeys x && distinctItems xs

def distinctFields : List (String × Json) → Bool
  | [] => true
  | (_, x) :: xs => distinctKeys x && distinctFields xs

end

theorem sortItems_eq (items : List Json) : sortItems items = items.map sortKeys := by
  induction items with
  | nil => rfl
  | cons x xs ih =>
    unfold sortItems
    rw [ih, List.map_cons]

theorem sortFields_eq (fields : List (String × Json)) :
    sortFields fields = fields.map fun f => (f.1, sortKeys f.2) := by
  induction fields with
  | nil => rfl
  | cons f xs ih =>
    unfold sortFields
    rw [ih, List.map_cons]

theorem plainItems_iff {items : List Json} : PlainItems items ↔ ∀ x ∈ items, x.Plain := by
  induction items with
  | nil => simp [PlainItems]
  | cons x xs ih => simp [PlainItems, ih]

theorem plainFields_iff {fields : List (String × Json)} :
    PlainFields fields ↔ ∀ f ∈ fields, f.2.Plain := by
  induction fields with
  | nil => simp [PlainFields]
  | cons f xs ih =>
    obtain ⟨k, x⟩ := f
    simp only [PlainFields, ih, List.mem_cons, forall_eq_or_imp]

theorem distinctItems_iff {items : List Json} :
    distinctItems items = true ↔ ∀ x ∈ items, x.distinctKeys = true := by
  induction items with
  | nil => simp [distinctItems]
  | cons x xs ih => simp [distinctItems, ih]

theorem distinctFields_iff {fields : List (String × Json)} :
    distinctFields fields = true ↔ ∀ f ∈ fields, f.2.distinctKeys = true := by
  induction fields with
  | nil => simp [distinctFields]
  | cons f xs ih =>
    obtain ⟨k, x⟩ := f
    simp [distinctFields, ih]

theorem dumpsItems_eq (items : List Json) : dumpsItems items = items.map dumps := by
  induction items with
  | nil => rfl
  | cons x xs ih =>
    unfold dumpsItems
    rw [ih, List.map_cons]

theorem dumpsFields_eq (fields : List (String × Json)) :
    dumpsFields fields = fields.map fun f => (f.1, dumps f.2) := by
  induction fields with
  | nil => rfl
  | cons f xs ih =>
    unfold dumpsFields
    rw [ih, List.map_cons]

/-! ### The reader -/

/-- The white space between two tokens. -/
def isSpace (c : Char) : Bool := c == ' ' || c == '\n' || c == '\r' || c == '\t'

/-- The value of a hexadecimal digit. -/
def hexValue (c : Char) : Option Nat :=
  if c.isDigit then some (c.toNat - 48)
  else if 'a' ≤ c ∧ c ≤ 'f' then some (c.toNat - 87)
  else if 'A' ≤ c ∧ c ≤ 'F' then some (c.toNat - 55)
  else none

/-- What a letter after a backslash stands for. -/
def unescape (c : Char) : Option Char :=
  if c = '"' ∨ c = '\\' ∨ c = '/' then some c
  else if c = 'b' then some (Char.ofNat 8)
  else if c = 'f' then some (Char.ofNat 12)
  else if c = 'n' then some '\n'
  else if c = 'r' then some '\r'
  else if c = 't' then some '\t'
  else none

/-- The character of four hexadecimal digits. -/
def unicodeEscape (a b c d : Char) : Option Char := do
  let n := 16 * (16 * (16 * (← hexValue a) + (← hexValue b)) + (← hexValue c)) + (← hexValue d)
  if 0xd800 ≤ n ∧ n < 0xe000 then none else some (Char.ofNat n)

/-- A string, after its opening quote. -/
def readString : List Char → Option (List Char × List Char)
  | [] => none
  | '"' :: cs => some ([], cs)
  | '\\' :: 'u' :: a :: b :: c :: d :: cs => do
    let x ← unicodeEscape a b c d
    let (s, rest) ← readString cs
    some (x :: s, rest)
  | '\\' :: c :: cs => do
    let x ← unescape c
    let (s, rest) ← readString cs
    some (x :: s, rest)
  | c :: cs => if c = '\\' ∨ c.toNat < 32 then none else do
    let (s, rest) ← readString cs
    some (c :: s, rest)

/-- A number without its sign. -/
def readNat (cs : List Char) : Option (Nat × List Char) :=
  let digits := cs.takeWhile Char.isDigit
  if digits = [] ∨ (digits.head? = some '0' ∧ digits.length ≠ 1) then none
  else
    match cs.dropWhile Char.isDigit with
    | '.' :: _ | 'e' :: _ | 'E' :: _ => none
    | rest => some (Nat.ofDigitChars 10 digits 0, rest)

/-- A keyword. -/
def readKeyword (cs : List Char) : Option (Json × List Char) :=
  if "null".toList <+: cs then some (.null, cs.drop 4)
  else if "true".toList <+: cs then some (.bool true, cs.drop 4)
  else if "false".toList <+: cs then some (.bool false, cs.drop 5)
  else none

mutual

/-- A value, with the white space before it. -/
def readValue : Nat → List Char → Option (Json × List Char)
  | 0, _ => none
  | fuel + 1, cs =>
    match cs.dropWhile isSpace with
    | [] => none
    | c :: cs =>
      if c = '"' then do
        let (s, rest) ← readString cs
        some (.str (String.ofList s), rest)
      else if c = '[' then
        match cs.dropWhile isSpace with
        | ']' :: rest => some (.arr [], rest)
        | cs => do
          let (items, rest) ← readItems fuel cs
          some (.arr items, rest)
      else if c = '\x7b' then
        match cs.dropWhile isSpace with
        | '\x7d' :: rest => some (.obj [], rest)
        | cs => do
          let (fields, rest) ← readFields fuel cs
          some (.obj fields, rest)
      else if c = '-' then do
        let (n, rest) ← readNat cs
        some (.int (-n), rest)
      else if c.isDigit then do
        let (n, rest) ← readNat (c :: cs)
        some (.int n, rest)
      else readKeyword (c :: cs)

/-- The elements of an array that is not empty. -/
def readItems : Nat → List Char → Option (List Json × List Char)
  | 0, _ => none
  | fuel + 1, cs => do
    let (x, cs) ← readValue fuel cs
    match cs.dropWhile isSpace with
    | ',' :: cs => do
      let (xs, rest) ← readItems fuel cs
      some (x :: xs, rest)
    | ']' :: rest => some ([x], rest)
    | _ => none

/-- The fields of an object that is not empty. -/
def readFields : Nat → List Char → Option (List (String × Json) × List Char)
  | 0, _ => none
  | fuel + 1, cs =>
    match cs.dropWhile isSpace with
    | '"' :: cs => do
      let (k, cs) ← readString cs
      match cs.dropWhile isSpace with
      | ':' :: cs => do
        let (x, cs) ← readValue fuel cs
        match cs.dropWhile isSpace with
        | ',' :: cs => do
          let (fields, rest) ← readFields fuel cs
          some ((String.ofList k, x) :: fields, rest)
        | '\x7d' :: rest => some ([(String.ofList k, x)], rest)
        | _ => none
      | _ => none
    | _ => none

end

/-- `json.loads`. -/
def loads (s : String) : Option Json := do
  let (j, rest) ← readValue (s.length + 1) s.toList
  if rest.dropWhile isSpace = [] then some j else none

/-! ### Strings -/

theorem hexValue_digitChar : ∀ d < 16, hexValue (Nat.digitChar d) = some d := by decide

/-- The reader takes an escape of one letter. -/
theorem readString_escape {c d : Char} {cs : List Char} (hd : d ≠ 'u') (h : unescape d = some c) :
    readString ('\\' :: d :: cs) = (readString cs).map fun p => (c :: p.1, p.2) := by
  rw [readString, h]
  · cases readString cs <;> rfl
  · intro _ _ _ _ _ hu _
    exact hd hu

/-- The reader takes a character that stands for itself. -/
theorem readString_char {c : Char} {cs : List Char} (hquote : c ≠ '"') (hbackslash : c ≠ '\\')
    (hcontrol : ¬c.toNat < 32) :
    readString (c :: cs) = (readString cs).map fun p => (c :: p.1, p.2) := by
  rw [readString, if_neg (not_or.mpr ⟨hbackslash, hcontrol⟩)]
  · cases readString cs <;> rfl
  · exact hquote
  · intro _ _ _ _ _ hb _
    exact hbackslash hb
  · intro _ _ hb _
    exact hbackslash hb

/-- The reader takes one rendered character. -/
theorem readString_escapeChar (c : Char) (cs : List Char) :
    readString ((escapeChar c).toList ++ cs) = (readString cs).map fun p => (c :: p.1, p.2) := by
  unfold escapeChar
  split_ifs with hquote hbackslash hnewline hreturn htab hback hfeed hcontrol
  · subst hquote
    exact readString_escape (by decide) (by decide)
  · subst hbackslash
    exact readString_escape (by decide) (by decide)
  · subst hnewline
    exact readString_escape (by decide) (by decide)
  · subst hreturn
    exact readString_escape (by decide) (by decide)
  · subst htab
    exact readString_escape (by decide) (by decide)
  · have hc : c = Char.ofNat 8 := by rw [← hback, Char.ofNat_toNat]
    subst hc
    exact readString_escape (by decide) (by decide)
  · have hc : c = Char.ofNat 12 := by rw [← hfeed, Char.ofNat_toNat]
    subst hc
    exact readString_escape (by decide) (by decide)
  · have hescape : unicodeEscape '0' '0' (Nat.digitChar (c.toNat / 16)) (Nat.digitChar (c.toNat % 16)) =
        some c := by
      unfold unicodeEscape
      rw [hexValue_digitChar _ (by omega), hexValue_digitChar _ (Nat.mod_lt _ (by decide)),
        show hexValue '0' = some 0 by decide]
      show (if _ then none else some (Char.ofNat _)) = _
      rw [if_neg (by omega), show 16 * (16 * (16 * 0 + 0) + c.toNat / 16) + c.toNat % 16 = c.toNat by omega,
        Char.ofNat_toNat]
    rw [String.toList_append, String.toList_ofList, String.toList_ofList, List.append_assoc]
    show readString ('\\' :: 'u' :: '0' :: '0' :: Nat.digitChar (c.toNat / 16) ::
      Nat.digitChar (c.toNat % 16) :: cs) = _
    rw [readString, hescape]
    cases readString cs <;> rfl
  · rw [String.toList_singleton, List.singleton_append]
    exact readString_char hquote hbackslash hcontrol

/-- **A rendered string is read back.** -/
theorem readString_dumps (cs rest : List Char) :
    readString (cs.flatMap (fun c => (escapeChar c).toList) ++ '"' :: rest) = some (cs, rest) := by
  induction cs with
  | nil => rfl
  | cons c cs ih =>
    rw [List.flatMap_cons, List.append_assoc, readString_escapeChar, ih]
    rfl

theorem toList_dumpsStr (s : String) :
    (dumpsStr s).toList = '"' :: (s.toList.flatMap (fun c => (escapeChar c).toList) ++ ['"']) := by
  unfold dumpsStr
  rw [String.toList_append, String.toList_append, String.toList_join, List.flatMap_map]
  rfl

/-! ### Numbers -/

/-- What may follow a value: nothing that goes on with a number. -/
def Ends (rest : List Char) : Prop :=
  ∀ c ∈ rest.head?, c.isDigit = false ∧ c ≠ '.' ∧ c ≠ 'e' ∧ c ≠ 'E'

theorem Ends.nil : Ends [] := by
  intro c hc
  cases hc

theorem Ends.cons {c : Char} {rest : List Char}
    (h : c.isDigit = false ∧ c ≠ '.' ∧ c ≠ 'e' ∧ c ≠ 'E') : Ends (c :: rest) := by
  intro d hd
  obtain rfl := Option.some.inj hd
  exact h

theorem takeWhile_of_ends {rest : List Char} (h : Ends rest) : rest.takeWhile Char.isDigit = [] := by
  cases rest with
  | nil => rfl
  | cons c rest => rw [List.takeWhile_cons_of_neg (by rw [(h c rfl).1]; exact Bool.false_ne_true)]

theorem dropWhile_of_ends {rest : List Char} (h : Ends rest) :
    rest.dropWhile Char.isDigit = rest := by
  cases rest with
  | nil => rfl
  | cons c rest => rw [List.dropWhile_cons_of_neg (by rw [(h c rfl).1]; exact Bool.false_ne_true)]

theorem ne_of_isDigit {c d : Char} (h : c.isDigit = true) (hd : d.isDigit = false) : c ≠ d := by
  rintro rfl
  rw [h] at hd
  cases hd

theorem isSpace_of_isDigit {c : Char} (h : c.isDigit = true) : isSpace c = false := by
  unfold isSpace
  rw [beq_false_of_ne (ne_of_isDigit h (by decide)), beq_false_of_ne (ne_of_isDigit h (by decide)),
    beq_false_of_ne (ne_of_isDigit h (by decide)), beq_false_of_ne (ne_of_isDigit h (by decide))]
  rfl

/-- A number greater than zero has no leading zero. -/
theorem head_toDigits {n : Nat} (h : 0 < n) : (Nat.toDigits 10 n).head? ≠ some '0' := by
  induction n using Nat.strong_induction_on with
  | _ n ih =>
    rcases Nat.lt_or_ge n 10 with hlt | hge
    · rw [Nat.toDigits_of_lt_base hlt]
      have hdigits : ∀ d < 10, 0 < d → [Nat.digitChar d].head? ≠ some '0' := by decide
      exact hdigits n hlt h
    · rw [Nat.toDigits_of_base_le (by decide) hge, List.head?_append_of_ne_nil _ Nat.toDigits_ne_nil]
      exact ih (n / 10) (Nat.div_lt_self h (by decide)) (Nat.div_pos hge (by decide))

theorem readNat_toDigits (n : Nat) {rest : List Char} (h : Ends rest) :
    readNat (Nat.toDigits 10 n ++ rest) = some (n, rest) := by
  have hall : ∀ c ∈ Nat.toDigits 10 n, c.isDigit = true :=
    fun c hc => Nat.isDigit_of_mem_toDigits (by decide) (le_refl 10) hc
  have htake : (Nat.toDigits 10 n ++ rest).takeWhile Char.isDigit = Nat.toDigits 10 n := by
    rw [List.takeWhile_append_of_pos hall, takeWhile_of_ends h, List.append_nil]
  have hdrop : (Nat.toDigits 10 n ++ rest).dropWhile Char.isDigit = rest := by
    rw [List.dropWhile_append_of_pos hall, dropWhile_of_ends h]
  unfold readNat
  dsimp only
  rw [htake, hdrop, if_neg, Nat.ofDigitChars_ten_toDigits]
  · split
    · exact absurd rfl (h '.' rfl).2.1
    · exact absurd rfl (h 'e' rfl).2.2.1
    · exact absurd rfl (h 'E' rfl).2.2.2
    · rfl
  · rintro (hnil | ⟨hzero, hlength⟩)
    · exact Nat.toDigits_ne_nil hnil
    · rcases Nat.eq_zero_or_pos n with rfl | hpos
      · exact hlength rfl
      · exact head_toDigits hpos hzero

/-! ### Values -/

/-- The rendering, as characters. -/
def text (j : Json) : List Char := (dumps j).toList

/-- A rendered string, as characters. -/
def quoted (s : String) : List Char := '"' :: (s.toList.flatMap (fun c => (escapeChar c).toList) ++ ['"'])

/-- A rendered field, as characters. -/
def fieldText (f : String × Json) : List Char := quoted f.1 ++ ':' :: text f.2

theorem text_arr (items : List Json) :
    text (.arr items) = '[' :: ([','].intercalate (items.map text) ++ [']']) := by
  show (dumps (.arr items)).toList = _
  rw [dumps, String.toList_append, String.toList_append, String.toList_intercalate, dumpsItems_eq,
    List.map_map]
  rfl

/-- The fields of an object, in the order of the rendering. -/
def sortedFields (fields : List (String × Json)) : List (String × Json) := fields.insertionSort keyLe

theorem text_obj (fields : List (String × Json)) :
    text (.obj fields) =
      '\x7b' :: ([','].intercalate ((sortedFields fields).map fieldText) ++ ['\x7d']) := by
  have hsort : (dumpsFields fields).insertionSort (fun a b => a.1 ≤ b.1) =
      (sortedFields fields).map fun f => (f.1, dumps f.2) := by
    rw [dumpsFields_eq]
    exact (List.map_insertionSort keyLe (fun a b => a.1 ≤ b.1) (fun f => (f.1, dumps f.2)) fields
      fun _ _ _ _ => Iff.rfl).symm
  show (dumps (.obj fields)).toList = _
  rw [dumps, String.toList_append, String.toList_append, String.toList_intercalate, hsort, List.map_map,
    List.map_map]
  show '\x7b' :: ([','].intercalate _ ++ ['\x7d']) = _
  congr 4
  funext f
  show (dumpsStr f.1 ++ ":" ++ dumps f.2).toList = _
  rw [String.toList_append, String.toList_append, toList_dumpsStr, List.append_assoc]
  rfl

theorem sortKeys_obj (fields : List (String × Json)) :
    sortKeys (.obj fields) = .obj ((sortedFields fields).map fun f => (f.1, sortKeys f.2)) := by
  rw [sortKeys, sortFields_eq]
  congr 1
  exact (List.map_insertionSort keyLe keyLe (fun f => (f.1, sortKeys f.2)) fields
    fun _ _ _ _ => Iff.rfl).symm

theorem mem_sortedFields {fields : List (String × Json)} {f : String × Json} :
    f ∈ sortedFields fields ↔ f ∈ fields :=
  List.mem_insertionSort keyLe

theorem text_int (n : Int) :
    ∃ m : Nat, (n = m ∧ text (.int n) = Nat.toDigits 10 m) ∨
      (n = -m ∧ text (.int n) = '-' :: Nat.toDigits 10 m) := by
  cases n with
  | ofNat m => exact ⟨m, Or.inl ⟨rfl, Nat.toList_repr⟩⟩
  | negSucc m =>
    refine ⟨m + 1, Or.inr ⟨rfl, ?_⟩⟩
    show ("-" ++ (m + 1).repr).toList = _
    rw [String.toList_append, Nat.toList_repr]
    rfl

/-- A rendering begins with a character that is not white space and ends no array. -/
theorem text_head {j : Json} (h : j.Plain) :
    ∃ c cs, text j = c :: cs ∧ isSpace c = false ∧ c ≠ ']' := by
  cases j with
  | null => exact ⟨'n', _, rfl, by decide, by decide⟩
  | bool b => cases b <;> exact ⟨_, _, rfl, by decide, by decide⟩
  | int n =>
    obtain ⟨m, hm | hm⟩ := text_int n
    · obtain ⟨c, cs, hc⟩ := List.exists_cons_of_ne_nil (Nat.toDigits_ne_nil (b := 10) (n := m))
      have hdigit : c.isDigit = true :=
        Nat.isDigit_of_mem_toDigits (by decide) (le_refl 10) (by rw [hc]; exact List.mem_cons_self)
      exact ⟨c, cs, hm.2.trans hc, isSpace_of_isDigit hdigit, ne_of_isDigit hdigit (by decide)⟩
    · exact ⟨'-', _, hm.2, by decide, by decide⟩
  | float => exact h.elim
  | str s =>
    refine ⟨'"', _, toList_dumpsStr s, by decide, by decide⟩
  | arr items => exact ⟨'[', _, text_arr items, by decide, by decide⟩
  | obj fields => exact ⟨'\x7b', _, text_obj fields, by decide, by decide⟩
  | foreign => exact h.elim

/-- The reader takes the rendering of the document. -/
def Reads (j : Json) : Prop :=
  ∀ (fuel : Nat) (rest : List Char), (text j).length < fuel → Ends rest →
    readValue fuel (text j ++ rest) = some (sortKeys j, rest)

theorem dropWhile_isSpace_cons {c : Char} {cs : List Char} (h : isSpace c = false) :
    (c :: cs).dropWhile isSpace = c :: cs :=
  List.dropWhile_cons_of_neg (by rw [h]; exact Bool.false_ne_true)

/-- The reader takes the elements of an array. -/
theorem readItems_text {items : List Json} (h : ∀ x ∈ items, Reads x) (hne : items ≠ []) {fuel : Nat}
    (hfuel : ([','].intercalate (items.map text)).length + 1 < fuel) (rest : List Char) :
    readItems fuel ([','].intercalate (items.map text) ++ ']' :: rest) =
      some (items.map sortKeys, rest) := by
  induction items generalizing fuel with
  | nil => exact absurd rfl hne
  | cons x xs ih =>
    obtain ⟨fuel, rfl⟩ := Nat.exists_eq_add_of_lt (Nat.zero_lt_of_lt hfuel)
    rw [Nat.zero_add] at hfuel ⊢
    have hx := h x List.mem_cons_self
    cases xs with
    | nil =>
      rw [List.map_singleton, List.intercalate_singleton] at hfuel ⊢
      rw [readItems, hx _ _ (by omega) (Ends.cons (by decide))]
      rfl
    | cons y ys =>
      rw [List.map_cons, List.map_cons, List.intercalate_cons_cons] at hfuel ⊢
      rw [List.length_append, List.length_append, List.length_singleton] at hfuel
      rw [List.append_assoc, List.append_assoc, readItems, List.singleton_append,
        hx _ _ (by omega) (Ends.cons (by decide))]
      show ((readItems fuel ([','].intercalate ((y :: ys).map text) ++ ']' :: rest)).bind
        fun p => some (sortKeys x :: p.1, p.2)) = _
      rw [ih (fun z hz => h z (List.mem_cons_of_mem x hz)) (List.cons_ne_nil y ys)
        (by rw [List.map_cons]; omega)]
      rfl

/-- The reader takes the key of a field. -/
theorem readFields_field (f : String × Json) (fuel : Nat) (tail : List Char) :
    readFields (fuel + 1) (fieldText f ++ tail) =
      (readValue fuel (text f.2 ++ tail)).bind fun p =>
        match p.2.dropWhile isSpace with
        | ',' :: cs => do
          let (fields, rest) ← readFields fuel cs
          some ((f.1, p.1) :: fields, rest)
        | '\x7d' :: rest => some ([(f.1, p.1)], rest)
        | _ => none := by
  have htext : fieldText f ++ tail = '"' :: (f.1.toList.flatMap (fun c => (escapeChar c).toList) ++
      '"' :: (':' :: (text f.2 ++ tail))) := by
    unfold fieldText quoted
    simp only [List.cons_append, List.append_assoc, List.nil_append]
  rw [htext, readFields, dropWhile_isSpace_cons (by decide)]
  show (readString (_ ++ '"' :: (':' :: (text f.2 ++ tail)))).bind _ = _
  rw [readString_dumps, Option.bind_some]
  dsimp only
  rw [dropWhile_isSpace_cons (by decide), String.ofList_toList]
  rfl

/-- The reader takes the fields of an object. -/
theorem readFields_text {fields : List (String × Json)} (h : ∀ f ∈ fields, Reads f.2)
    (hne : fields ≠ []) {fuel : Nat}
    (hfuel : ([','].intercalate (fields.map fieldText)).length + 1 < fuel) (rest : List Char) :
    readFields fuel ([','].intercalate (fields.map fieldText) ++ '\x7d' :: rest) =
      some (fields.map fun f => (f.1, sortKeys f.2), rest) := by
  induction fields generalizing fuel with
  | nil => exact absurd rfl hne
  | cons f fs ih =>
    obtain ⟨fuel, rfl⟩ := Nat.exists_eq_add_of_lt (Nat.zero_lt_of_lt hfuel)
    rw [Nat.zero_add] at hfuel ⊢
    have hf := h f List.mem_cons_self
    have hlength : (fieldText f).length = (quoted f.1).length + 1 + (text f.2).length := by
      unfold fieldText
      rw [List.length_append, List.length_cons]
      omega
    cases fs with
    | nil =>
      rw [List.map_singleton, List.intercalate_singleton] at hfuel ⊢
      rw [readFields_field, hf _ _ (by omega) (Ends.cons (by decide))]
      rfl
    | cons g gs =>
      rw [List.map_cons, List.map_cons, List.intercalate_cons_cons] at hfuel ⊢
      rw [List.length_append, List.length_append, List.length_singleton] at hfuel
      rw [List.append_assoc, List.append_assoc, List.singleton_append, readFields_field,
        hf _ _ (by omega) (Ends.cons (by decide))]
      show ((readFields fuel ([','].intercalate ((g :: gs).map fieldText) ++ '\x7d' :: rest)).bind
        fun p => some ((f.1, sortKeys f.2) :: p.1, p.2)) = _
      rw [ih (fun z hz => h z (List.mem_cons_of_mem f hz)) (List.cons_ne_nil g gs)
        (by rw [List.map_cons]; omega)]
      rfl

theorem reads_arr {items : List Json} (hplain : ∀ x ∈ items, x.Plain) (h : ∀ x ∈ items, Reads x) :
    Reads (.arr items) := by
  intro fuel rest hfuel hends
  obtain ⟨fuel, rfl⟩ := Nat.exists_eq_add_of_lt (Nat.zero_lt_of_lt hfuel)
  rw [Nat.zero_add, text_arr, List.cons_append, List.append_assoc, List.singleton_append, readValue,
    dropWhile_isSpace_cons (by decide)]
  rw [text_arr, List.length_cons, List.length_append, List.length_singleton] at hfuel
  show (match List.dropWhile isSpace (_ ++ ']' :: rest) with
    | ']' :: rest => some (Json.arr [], rest)
    | cs => (readItems fuel cs).bind fun p => some (Json.arr p.1, p.2)) = _
  rw [sortKeys, sortItems_eq]
  cases items with
  | nil => rfl
  | cons x xs =>
    -- the first element does not begin with the closing bracket
    obtain ⟨c, cs, hc, hspace, hbracket⟩ := text_head (hplain x List.mem_cons_self)
    have hcons : ∃ cs', [','].intercalate ((x :: xs).map text) ++ ']' :: rest = c :: cs' := by
      cases xs with
      | nil => exact ⟨_, by rw [List.map_singleton, List.intercalate_singleton, hc, List.cons_append]⟩
      | cons y ys =>
        exact ⟨_, by rw [List.map_cons, List.map_cons, List.intercalate_cons_cons, hc, List.cons_append,
          List.cons_append, List.cons_append]⟩
    obtain ⟨cs', hcs'⟩ := hcons
    rw [hcs', dropWhile_isSpace_cons hspace]
    split
    next heq => exact absurd (List.cons.inj heq).1 hbracket
    next =>
      rw [← hcs', readItems_text h (List.cons_ne_nil x xs) (by omega)]
      rfl

theorem reads_obj {fields : List (String × Json)} (h : ∀ f ∈ fields, Reads f.2) :
    Reads (.obj fields) := by
  intro fuel rest hfuel hends
  obtain ⟨fuel, rfl⟩ := Nat.exists_eq_add_of_lt (Nat.zero_lt_of_lt hfuel)
  rw [Nat.zero_add, text_obj, List.cons_append, List.append_assoc, List.singleton_append, readValue,
    dropWhile_isSpace_cons (by decide)]
  rw [text_obj, List.length_cons, List.length_append, List.length_singleton] at hfuel
  show (match List.dropWhile isSpace (_ ++ '\x7d' :: rest) with
    | '\x7d' :: rest => some (Json.obj [], rest)
    | cs => (readFields fuel cs).bind fun p => some (Json.obj p.1, p.2)) = _
  rw [sortKeys_obj]
  have hsorted : ∀ f ∈ sortedFields fields, Reads f.2 := fun f hf => h f (mem_sortedFields.mp hf)
  generalize sortedFields fields = sorted at hfuel hsorted
  cases sorted with
  | nil => rfl
  | cons f fs =>
    have hcons : ∃ cs', [','].intercalate ((f :: fs).map fieldText) ++ '\x7d' :: rest = '"' :: cs' := by
      cases fs with
      | nil => exact ⟨_, by rw [List.map_singleton, List.intercalate_singleton]; rfl⟩
      | cons g gs => exact ⟨_, by rw [List.map_cons, List.map_cons, List.intercalate_cons_cons]; rfl⟩
    obtain ⟨cs', hcs'⟩ := hcons
    rw [hcs', dropWhile_isSpace_cons (by decide)]
    show (readFields fuel ('"' :: cs')).bind _ = _
    rw [← hcs', readFields_text hsorted (List.cons_ne_nil f fs) (by omega)]
    rfl

/-- **A rendered document is read back**, with its fields sorted, whatever comes after it. -/
theorem reads_of_plain (j : Json) : j.Plain → Reads j := by
  induction j using induct with
  | null =>
    intro _ fuel rest hfuel _
    obtain ⟨fuel, rfl⟩ := Nat.exists_eq_add_of_lt (Nat.zero_lt_of_lt hfuel)
    rfl
  | bool b =>
    intro _ fuel rest hfuel _
    obtain ⟨fuel, rfl⟩ := Nat.exists_eq_add_of_lt (Nat.zero_lt_of_lt hfuel)
    cases b <;> rfl
  | int n =>
    intro _ fuel rest hfuel hends
    obtain ⟨fuel, rfl⟩ := Nat.exists_eq_add_of_lt (Nat.zero_lt_of_lt hfuel)
    rw [Nat.zero_add]
    obtain ⟨m, ⟨rfl, htext⟩ | ⟨rfl, htext⟩⟩ := text_int n
    · obtain ⟨c, cs, hc⟩ := List.exists_cons_of_ne_nil (Nat.toDigits_ne_nil (b := 10) (n := m))
      have hdigit : c.isDigit = true :=
        Nat.isDigit_of_mem_toDigits (by decide) (le_refl 10) (by rw [hc]; exact List.mem_cons_self)
      rw [htext, hc, List.cons_append, readValue, dropWhile_isSpace_cons (isSpace_of_isDigit hdigit)]
      dsimp only
      rw [if_neg (ne_of_isDigit hdigit (by decide)), if_neg (ne_of_isDigit hdigit (by decide)),
        if_neg (ne_of_isDigit hdigit (by decide)), if_neg (ne_of_isDigit hdigit (by decide)),
        if_pos hdigit, ← List.cons_append, ← hc, readNat_toDigits m hends]
      rfl
    · rw [htext, List.cons_append, readValue, dropWhile_isSpace_cons (by decide)]
      show (readNat (Nat.toDigits 10 m ++ rest)).bind _ = _
      rw [readNat_toDigits m hends]
      rfl
  | float => exact fun h => h.elim
  | str s =>
    intro _ fuel rest hfuel _
    obtain ⟨fuel, rfl⟩ := Nat.exists_eq_add_of_lt (Nat.zero_lt_of_lt hfuel)
    show readValue _ ((dumpsStr s).toList ++ rest) = _
    rw [Nat.zero_add, toList_dumpsStr, List.cons_append, List.append_assoc, List.singleton_append,
      readValue, dropWhile_isSpace_cons (by decide)]
    show (readString (_ ++ '"' :: rest)).bind _ = _
    rw [readString_dumps, Option.bind_some]
    dsimp only
    rw [String.ofList_toList]
    rfl
  | arr items ih =>
    intro hplain
    have hitems := plainItems_iff.mp hplain
    exact reads_arr hitems fun x hx => ih x hx (hitems x hx)
  | obj fields ih =>
    intro hplain
    have hfields := plainFields_iff.mp hplain
    exact reads_obj fun f hf => ih f hf (hfields f hf)
  | foreign => exact fun h => h.elim

/-- **A rendered document is read back**, also with white space after it. -/
theorem loads_dumps {j : Json} (h : j.Plain) (tail : String) (htail : tail.toList.all isSpace = true) :
    loads (dumps j ++ tail) = some (sortKeys j) := by
  have hends : Ends tail.toList := by
    intro c hc
    have hspace := List.all_eq_true.mp htail c (List.mem_of_mem_head? hc)
    unfold isSpace at hspace
    simp only [Bool.or_eq_true, beq_iff_eq] at hspace
    obtain ((rfl | rfl) | rfl) | rfl := hspace <;> decide
  have hdrop : tail.toList.dropWhile isSpace = [] := by
    rw [List.dropWhile_eq_nil_iff]
    exact List.all_eq_true.mp htail
  have hlength : (text j).length < (dumps j ++ tail).length + 1 := by
    rw [String.length_append]
    show (dumps j).toList.length < _
    rw [String.length_toList]
    omega
  unfold loads
  rw [String.toList_append]
  show (readValue _ (text j ++ tail.toList)).bind _ = _
  rw [reads_of_plain j h _ _ hlength hends]
  exact if_pos hdrop

/-- **The rendering determines the document.** -/
theorem sortKeys_eq_of_dumps_eq {j j' : Json} (h : j.Plain) (h' : j'.Plain) (heq : dumps j = dumps j') :
    sortKeys j = sortKeys j' := by
  have hread := loads_dumps h "" rfl
  rw [heq, loads_dumps h' "" rfl] at hread
  exact (Option.some.inj hread).symm

/-! ### The fields of a sorted document -/

/-- A field of an object with distinct keys is found under its key. -/
theorem lookup_eq_some_iff {α : Type} {fields : List (String × α)} (hnodup : (fields.map Prod.fst).Nodup)
    {key : String} {value : α} : fields.lookup key = some value ↔ (key, value) ∈ fields := by
  induction fields with
  | nil => simp
  | cons f fields ih =>
    obtain ⟨k, x⟩ := f
    rw [List.map_cons, List.nodup_cons] at hnodup
    rw [List.lookup_cons, List.mem_cons, Prod.mk.injEq]
    by_cases hkey : key = k
    · subst hkey
      rw [beq_self_eq_true, Option.some.injEq]
      constructor
      · exact fun h => Or.inl ⟨rfl, h.symm⟩
      · rintro (⟨-, rfl⟩ | hmem)
        · rfl
        · exact absurd (List.mem_map_of_mem hmem) hnodup.1
    · rw [beq_false_of_ne hkey]
      exact (ih hnodup.2).trans ⟨Or.inr, fun h => h.resolve_left fun h => hkey h.1⟩

/-- The order of distinct keys does not matter to a reader. -/
theorem lookup_perm {α : Type} {fields fields' : List (String × α)} (h : fields.Perm fields')
    (hnodup : (fields.map Prod.fst).Nodup) (key : String) : fields.lookup key = fields'.lookup key := by
  have hnodup' : (fields'.map Prod.fst).Nodup := (h.map Prod.fst).nodup_iff.mp hnodup
  ext value
  rw [lookup_eq_some_iff hnodup, lookup_eq_some_iff hnodup', h.mem_iff]

theorem lookup_map_snd {α β : Type} (f : α → β) (fields : List (String × α)) (key : String) :
    (fields.map fun field => (field.1, f field.2)).lookup key = (fields.lookup key).map f := by
  induction fields with
  | nil => rfl
  | cons field fields ih =>
    rw [List.map_cons, List.lookup_cons, List.lookup_cons, ih]
    split <;> rfl

/-- The fields of a sorted object, as a permutation of the sorted fields. -/
theorem sortKeys_obj_perm (fields : List (String × Json)) :
    ∃ fields', sortKeys (.obj fields) = .obj fields' ∧
      fields'.Perm (fields.map fun field => (field.1, sortKeys field.2)) := by
  refine ⟨(sortFields fields).insertionSort keyLe, rfl, ?_⟩
  rw [← sortFields_eq]
  exact List.perm_insertionSort _ _

/-- Sorting keeps keys distinct. -/
theorem distinctKeys_sortKeys (j : Json) : j.distinctKeys = true → j.sortKeys.distinctKeys = true := by
  induction j using Json.induct with
  | arr items ih =>
    intro h
    change distinctItems (sortItems items) = true
    change distinctItems items = true at h
    rw [sortItems_eq, distinctItems_iff]
    rw [distinctItems_iff] at h
    intro x hx
    obtain ⟨y, hy, rfl⟩ := List.mem_map.mp hx
    exact ih y hy (h y hy)
  | obj fields ih =>
    intro h
    obtain ⟨fields', heq, hperm⟩ := sortKeys_obj_perm fields
    rw [heq]
    change (decide (fields'.map Prod.fst).Nodup && distinctFields fields') = true
    change (decide (fields.map Prod.fst).Nodup && distinctFields fields) = true at h
    rw [Bool.and_eq_true, decide_eq_true_eq] at h ⊢
    rw [distinctFields_iff] at h ⊢
    refine ⟨?_, ?_⟩
    · rw [(hperm.map Prod.fst).nodup_iff, List.map_map]
      exact h.1
    · intro f hf
      obtain ⟨g, hg, rfl⟩ := List.mem_map.mp (hperm.mem_iff.mp hf)
      exact ih g hg (h.2 g hg)
  | null => exact id
  | bool b => exact id
  | int n => exact id
  | float literal value => exact id
  | str s => exact id
  | foreign name => exact id

/-- An object whose fields are sorted, inside too. -/
theorem sortKeys_obj_eq_self {fields : List (String × Json)} {keys : List String}
    (hkeys : fields.map Prod.fst = keys) (hsorted : keys.Pairwise (· ≤ ·))
    (hvalues : ∀ f ∈ fields, f.2.sortKeys = f.2) : sortKeys (.obj fields) = .obj fields := by
  have hfields : sortFields fields = fields := by
    rw [sortFields_eq]
    have hid : fields.map (fun f => (f.1, sortKeys f.2)) = fields.map id :=
      List.map_congr_left fun f hf => Prod.ext rfl (hvalues f hf)
    rw [hid, List.map_id]
  have hpairwise : fields.Pairwise keyLe := by
    rw [← hkeys, List.pairwise_map] at hsorted
    exact hsorted
  show obj ((sortFields fields).insertionSort keyLe) = _
  rw [hfields, hpairwise.insertionSort_eq]

theorem itemsEq_refl {items : List Json} (h : ∀ x ∈ items, x.pyEq x = true) : itemsEq items items = true := by
  induction items with
  | nil => rfl
  | cons x xs ih =>
    show (pyEq x x && itemsEq xs xs) = true
    rw [h x List.mem_cons_self, ih fun y hy => h y (List.mem_cons_of_mem _ hy)]
    rfl

theorem fieldsIn_of_subset {fields some : List (String × Json)} (hnodup : (fields.map Prod.fst).Nodup)
    (hsub : some ⊆ fields) (h : ∀ f ∈ fields, f.2.pyEq f.2 = true) : fieldsIn some fields = true := by
  induction some with
  | nil => rfl
  | cons f some ih =>
    have hmem : f ∈ fields := hsub List.mem_cons_self
    have hlookup : fields.lookup f.1 = Option.some f.2 := (lookup_eq_some_iff hnodup).mpr hmem
    have hrest := ih fun g hg => hsub (List.mem_cons_of_mem _ hg)
    unfold fieldsIn
    rw [hlookup]
    show (f.2.pyEq f.2 && fieldsIn some fields) = true
    rw [h f hmem, hrest]
    rfl

/-- A plain document is equal to itself. -/
theorem pyEq_refl (j : Json) : j.Plain → j.distinctKeys = true → j.pyEq j = true := by
  induction j using Json.induct with
  | null => exact fun _ _ => rfl
  | bool b => exact fun _ _ => beq_self_eq_true _
  | int n => exact fun _ _ => beq_self_eq_true _
  | float literal value => exact fun h => h.elim
  | foreign typeName => exact fun h => h.elim
  | str s => exact fun _ _ => beq_self_eq_true s
  | arr items ih =>
    intro hplain hdistinct
    have hplain := plainItems_iff.mp hplain
    have hdistinct := distinctItems_iff.mp hdistinct
    exact itemsEq_refl fun x hx => ih x hx (hplain x hx) (hdistinct x hx)
  | obj fields ih =>
    intro hplain hdistinct
    obtain ⟨hnodup, hdistinct⟩ := (Bool.and_eq_true _ _).mp hdistinct
    have hplain := plainFields_iff.mp hplain
    have hdistinct := distinctFields_iff.mp hdistinct
    show (fields.length == fields.length && fieldsIn fields fields) = true
    rw [beq_self_eq_true, Bool.true_and]
    exact fieldsIn_of_subset (of_decide_eq_true hnodup) (List.Subset.refl _)
      fun f hf => ih f hf (hplain f hf) (hdistinct f hf)

end Json

end Drift.Lib
