import Mathlib.Data.List.Sort
import Mathlib.Data.Rat.Defs

/-!
# JSON values and the compact rendering

The values `json.loads` produces, with the operations of the Python standard library that the records
and stores of this development apply to them: key sets, `dict.get`, equality of decoded values, and
the compact rendering `json.dumps(value, ensure_ascii=False, separators=(",", ":"), sort_keys=True)`.

A decoded object has distinct keys (every reader rejects duplicates while it parses), so it is a list
of fields. `foreign` stands for a decoded value of a type JSON does not have: such values arrive over
the DHT, which uses another encoding.
-/

namespace Drift.Lib

/-- A decoded JSON value. A float keeps the literal it is rendered as next to its value. -/
inductive Json
  | null
  | bool (b : Bool)
  | int (n : Int)
  | float (literal : String) (value : ℚ)
  | str (s : String)
  | arr (items : List Json)
  | obj (fields : List (String × Json))
  | foreign (typeName : String)

namespace Json

/-- `set(fields) == set(names)` for an object with distinct keys. -/
def hasExactly (fields : List (String × Json)) (names : List String) : Bool :=
  fields.all (fun f => names.contains f.1) && names.all (fun n => (fields.lookup n).isSome)

/-- `value == n` for an integer `n`: Python identifies `True`, `1` and `1.0`. -/
def equalsInt (n : Int) : Json → Bool
  | .int m => m == n
  | .float _ q => q == (n : ℚ)
  | .bool b => (if b then 1 else 0) == n
  | _ => false

/-- The number a value is equal to, where it is one. -/
def number? : Json → Option ℚ
  | .int n => some n
  | .float _ q => some q
  | .bool b => some (if b then 1 else 0)
  | _ => none

mutual

/-- Python equality of decoded values. -/
def pyEq : Json → Json → Bool
  | .null, .null => true
  | .str a, .str b => a == b
  | .arr xs, .arr ys => itemsEq xs ys
  | .obj xs, .obj ys => xs.length == ys.length && fieldsIn xs ys
  | .int a, y => y.number? == some (a : ℚ)
  | .float _ a, y => y.number? == some a
  | .bool a, y => y.number? == some (if a then 1 else 0)
  | _, _ => false

/-- Equality of lists, element by element. -/
def itemsEq : List Json → List Json → Bool
  | [], [] => true
  | x :: xs, y :: ys => pyEq x y && itemsEq xs ys
  | _, _ => false

/-- Every field of the first object is an equal field of the second. -/
def fieldsIn : List (String × Json) → List (String × Json) → Bool
  | [], _ => true
  | (k, x) :: xs, ys =>
    (match ys.lookup k with
      | some y => pyEq x y
      | none => false) && fieldsIn xs ys

end

/-! ### Rendering -/

/-- One character inside a rendered string. -/
def escapeChar (c : Char) : String :=
  if c = '"' then "\\\""
  else if c = '\\' then "\\\\"
  else if c = '\n' then "\\n"
  else if c = '\r' then "\\r"
  else if c = '\t' then "\\t"
  else if c.toNat = 8 then "\\b"
  else if c.toNat = 12 then "\\f"
  else if c.toNat < 32 then
    "\\u00" ++ String.ofList [Nat.digitChar (c.toNat / 16), Nat.digitChar (c.toNat % 16)]
  else String.singleton c

/-- A rendered string, quotes included. -/
def dumpsStr (s : String) : String :=
  "\"" ++ String.join (s.toList.map escapeChar) ++ "\""

mutual

/-- The compact rendering with sorted keys. -/
def dumps : Json → String
  | .null => "null"
  | .bool true => "true"
  | .bool false => "false"
  | .int n => toString n
  | .float literal _ => literal
  | .str s => dumpsStr s
  | .arr items => "[" ++ ",".intercalate (dumpsItems items) ++ "]"
  | .obj fields =>
    "\x7b" ++ ",".intercalate
      (((dumpsFields fields).insertionSort fun a b => a.1 ≤ b.1).map
        fun f => dumpsStr f.1 ++ ":" ++ f.2) ++ "\x7d"
  | .foreign typeName => typeName

/-- The rendered elements of a list. -/
def dumpsItems : List Json → List String
  | [] => []
  | x :: xs => dumps x :: dumpsItems xs

/-- The rendered values of an object, each with its key. -/
def dumpsFields : List (String × Json) → List (String × String)
  | [] => []
  | (k, x) :: xs => (k, dumps x) :: dumpsFields xs

end

end Json

end Drift.Lib
