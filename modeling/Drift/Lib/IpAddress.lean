import Drift.Lib.Text

/-!
# IP literals

The texts that `ipaddress.ip_address` of Python's library accepts, and the version it gives them. An IPv4 literal
is four decimal octets. An IPv6 literal is eight groups of hexadecimal digits, of which one run may be left out
and the last two may be an IPv4 literal; a zone may follow.

* `isIpv4Literal`, `isIpv6Literal` — the two forms;
* `ipVersion` — the version of a literal;
* `isIpv4Literal_chars` — the characters of an IPv4 literal.
-/

namespace Drift.Lib

/-- One octet: at most three digits, no leading zero, at most 255. -/
def isOctet (octet : List Char) : Bool :=
  !octet.isEmpty && octet.all Char.isDigit && decide (octet.length ≤ 3) &&
    (octet = ['0'] || octet.head? != some '0') && decide (Nat.ofDigitChars 10 octet 0 ≤ 255)

/-- Four octets, separated by dots. -/
def isIpv4Literal (text : List Char) : Bool :=
  !text.contains '/' && (text.splitOn '.').length == 4 && (text.splitOn '.').all isOctet

def isHexDigit (c : Char) : Bool :=
  c.isDigit || ('a' ≤ c && c ≤ 'f') || ('A' ≤ c && c ≤ 'F')

/-- One group: one to four hexadecimal digits. -/
def isHextet (hextet : List Char) : Bool :=
  !hextet.isEmpty && hextet.all isHexDigit && decide (hextet.length ≤ 4)

/-- An IPv4 literal at the end stands for two groups, whose digits do not matter here. -/
def replaceIpv4Suffix (parts : List (List Char)) : Option (List (List Char)) :=
  match parts.getLast? with
  | none => some parts
  | some last =>
    if last.contains '.' then
      if isIpv4Literal last then some (parts.dropLast ++ [['0'], ['0']]) else none
    else some parts

/-- The positions, both ends apart, at which a part is empty. -/
def innerEmpty (parts : List (List Char)) : List Nat :=
  (List.range (parts.length - 1)).filter fun i => decide (0 < i) && parts[i]? == some []

/-- The groups of an IPv6 literal. Where a part inside is empty, the groups before and after it are at most seven,
and an empty part at an end stands beside it. -/
def areHextets (parts : List (List Char)) : Bool :=
  match innerEmpty parts with
  | [] => parts.length == 8 && parts.all isHextet
  | [skipIndex] =>
    let hi := if parts.head? = some [] then (parts.take skipIndex).tail else parts.take skipIndex
    let rest := parts.drop (skipIndex + 1)
    let lo := if parts.getLast? = some [] then rest.dropLast else rest
    (parts.head? != some [] || hi.isEmpty) && (parts.getLast? != some [] || lo.isEmpty) &&
      decide (hi.length + lo.length < 8) && hi.all isHextet && lo.all isHextet
  | _ => false

/-- The address and the zone after `%`: a zone is not empty and has no `%` in it. -/
def splitScopeId (text : List Char) : Option (List Char) :=
  match partition '%' text with
  | none => some text
  | some (address, scopeId) => if scopeId.isEmpty || scopeId.contains '%' then none else some address

/-- An IPv6 literal: three to nine parts, separated by colons. -/
def isIpv6Literal (text : List Char) : Bool :=
  !text.contains '/' &&
    match splitScopeId text with
    | none => false
    | some address =>
      decide (3 ≤ (address.splitOn ':').length) &&
        match replaceIpv4Suffix (address.splitOn ':') with
        | none => false
        | some parts => decide (parts.length ≤ 9) && areHextets parts

/-- `ipaddress.ip_address(text).version`, and `none` where it raises. -/
def ipVersion (text : List Char) : Option Nat :=
  if isIpv4Literal text then some 4 else if isIpv6Literal text then some 6 else none

theorem isIpv4Literal_chars {text : List Char} (h : isIpv4Literal text = true) {c : Char} (hc : c ∈ text) :
    c = '.' ∨ c.isDigit = true := by
  unfold isIpv4Literal at h
  rw [Bool.and_eq_true] at h
  refine (mem_splitOn hc).imp_right fun ⟨octet, hoctet, hmem⟩ => ?_
  have hall := List.all_eq_true.mp h.2 octet hoctet
  unfold isOctet at hall
  simp only [Bool.and_eq_true] at hall
  exact List.all_eq_true.mp hall.1.1.1.2 c hmem

example : ipVersion "203.0.113.10".toList = some 4 ∧ ipVersion "::ffff:10.0.0.1".toList = some 6 ∧
    ipVersion "1::2::3".toList = none := by
  decide

end Drift.Lib
