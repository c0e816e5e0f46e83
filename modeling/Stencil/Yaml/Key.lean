import Stencil.Yaml.Scalar
import Stencil.Yaml.Spot

namespace Stencil.Yaml

open Stencil

def isBreakOrSpace (c : Char) : Bool :=
  c.toNat == 0 || c == '\r' || isSpaceOrTab c || isBreak c

/-- The characters that only double quotes can hold. -/
def isSpecial (c : Char) : Bool :=
  let n := c.toNat
  !(n == 10 || (32 ≤ n && n ≤ 126) || n == 0x85
    || (0xA0 ≤ n && n ≤ 0xFFFD && n != 0xFEFF) || 0x10000 ≤ n)

/-- Whether a text begins in a way that no plain scalar may. -/
def badStart (cs : List Char) : Bool :=
  "---".toList.isPrefixOf cs || "...".toList.isPrefixOf cs ||
    match cs with
    | [] => true
    | c :: rest =>
      (['#', ',', '[', ']', '\x7b', '\x7d', '&', '*', '!', '|', '>', '\'', '"', '%', '@',
          Char.ofNat 96].contains c)
        || ((c == '?' || c == ':' || c == '-') && (rest.head?.map isBreakOrSpace).getD true)

/-- Whether a colon that ends a key, or a hash that starts a comment, stands behind the first
character; `before` is the character in front. -/
def badInside (before : Char) : List Char → Bool
  | [] => false
  | c :: cs =>
    (c == ':' && (cs.head?.map isBreakOrSpace).getD true) || (c == '#' && isBreakOrSpace before)
      || badInside c cs

/-- Whether a break stands next to a space: behind one, or in front of one. -/
def spaceAtBreak : List Char → Bool
  | c :: d :: cs => (c == ' ' && isBreak d) || (isBreak c && d == ' ') || spaceAtBreak (d :: cs)
  | _ => false

def canBePlain (cs : List Char) : Bool :=
  !badStart cs && !badInside (cs.headD ' ') (cs.drop 1)
    && cs.head? != some ' ' && cs.getLast? != some ' '
    && !cs.any isBreak && !cs.any isSpecial && ScalarForm.of cs == .text

/-- Digits of base sixteen in upper case, filled up to a width. -/
def upperHex (width n : Nat) : List Char :=
  let ds := (Nat.toDigits 16 n).map Char.toUpper
  List.replicate (width - ds.length) '0' ++ ds

def doubleChar (c : Char) : List Char :=
  let n := c.toNat
  let named : Option Char := match n with
    | 0 => some '0'
    | 7 => some 'a'
    | 8 => some 'b'
    | 9 => some 't'
    | 10 => some 'n'
    | 11 => some 'v'
    | 12 => some 'f'
    | 13 => some 'r'
    | 27 => some 'e'
    | 34 => some '"'
    | 92 => some '\\'
    | 0x85 => some 'N'
    | 0x2028 => some 'L'
    | 0x2029 => some 'P'
    | _ => none
  match named with
  | some e => ['\\', e]
  | none =>
    if (32 ≤ n && n ≤ 126) || (0xA0 ≤ n && n ≤ 0xFFFD && n != 0xFEFF) || 0x10000 ≤ n then [c]
    else if n < 0x100 then '\\' :: 'x' :: upperHex 2 n
    else '\\' :: 'u' :: upperHex 4 n

/-- A text between single quotes, where every line but the first is indented. -/
def singleLines : List Char → List Char
  | [] => []
  | c :: cs =>
    if isBreak c && !((cs.head?.map isBreak).getD false) then c :: ' ' :: ' ' :: singleLines cs
    else c :: singleLines cs

def keyText (key : String) : String :=
  let cs := key.toList
  if canBePlain cs then key
  else if cs.contains '\'' || cs.contains '\n' || cs.any isSpecial || spaceAtBreak cs then
    String.ofList ('"' :: cs.flatMap doubleChar ++ ['"'])
  else "'" ++ String.ofList (singleLines cs) ++ "'"

/-- The characters of a key that needs no mark are fewer than these. -/
def simpleKeyLimit : Nat := 123

def isSimpleKey (key : String) : Bool :=
  key.length < simpleKeyLimit && !key.toList.any isBreak

def keyColon (key : String) : String :=
  if isSimpleKey key then keyText key ++ ":" else "? " ++ keyText key ++ "\n:"

/-- One entry as a line; the comment stands further off in the first one. -/
def entryText (gap : String) (e : OpenEntry) : String :=
  keyColon e.key ++ " ''" ++ gap ++ e.comment ++ "\n"

def mappingText : List OpenEntry → String
  | [] => "\x7b\x7d\n"
  | first :: rest => entryText "  " first ++ String.join (rest.map (entryText " "))

end Stencil.Yaml
