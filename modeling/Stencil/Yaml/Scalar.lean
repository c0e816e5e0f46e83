import Stencil.Data.Value
import Stencil.Yaml.Folding
import Stencil.Yaml.Timestamp

namespace Stencil.Yaml

open Stencil

def nullWords : List String := ["", "~", "null", "Null", "NULL"]

def trueWords : List String := ["true", "True", "TRUE"]

def falseWords : List String := ["false", "False", "FALSE"]

/-- A scalar by its form. -/
inductive ScalarForm where
  | null
  | bool (b : Bool)
  | float
  | int
  | timestamp (t : Timestamp)
  /-- As a key it takes over the entries of other mappings; as a value it stands for nothing. -/
  | merge
  /-- As a key it is a text; as a value it stands for nothing. -/
  | default
  | text
deriving DecidableEq, Repr

def isDigitOrLine (c : Char) : Bool := c.isDigit || c == '_'

def withoutLines (cs : List Char) : List Char := cs.filter (· != '_')

/-- Whether a text has the form of a whole number: decimal, or in base two, eight or sixteen after a
letter. The first digit of a decimal number may be an underscore only behind a sign. -/
def hasIntForm (cs : List Char) : Bool :=
  let ofBase (base : Nat) (ds : List Char) : Bool :=
    !ds.isEmpty && ds.all fun c => c == '_' || (digitOf? base c).isSome
  let begins := cs.head?.any fun c => c == '-' || c == '+' || c.isDigit
  begins &&
    match (splitSign cs).2 with
    | '0' :: 'b' :: ds => ofBase 2 ds
    | '0' :: 'o' :: ds => ofBase 8 ds
    | '0' :: 'x' :: ds => ofBase 16 ds
    | ds => ofBase 10 ds

/-- Whether the end of a number is empty or an exponent. -/
def isExponent (signed : Bool) (cs : List Char) : Bool :=
  match cs with
  | [] => true
  | e :: ds =>
    let digits := (splitSign ds).2
    (e == 'e' || e == 'E') && !digits.isEmpty && digits.all Char.isDigit
      && (!signed || digits.length != ds.length)

/-- The words for what is beyond all numbers, and for what is none. -/
def infinityWords : List (List Char) := [".inf".toList, ".Inf".toList, ".INF".toList]

def nanWords : List (List Char) := [".nan".toList, ".NaN".toList, ".NAN".toList]

/-- Whether a text has the form of a number that need not be whole. -/
def hasFloatForm (cs : List Char) : Bool :=
  let body := (splitSign cs).2
  infinityWords.contains body || nanWords.contains cs ||
    match body with
    | '.' :: ds =>
      !(ds.takeWhile isDigitOrLine).isEmpty && isExponent true (ds.dropWhile isDigitOrLine)
    | d :: ds =>
      d.isDigit &&
        match ds.dropWhile isDigitOrLine with
        | [] => false
        | '.' :: more => isExponent false (more.dropWhile isDigitOrLine)
        | more => isExponent false more
    | [] => false

def ScalarForm.of (cs : List Char) : ScalarForm :=
  let text := String.ofList cs
  if text ∈ nullWords then .null
  else if text ∈ trueWords then .bool true
  else if text ∈ falseWords then .bool false
  else if text = "<<" then .merge
  else if text = "=" then .default
  else if hasFloatForm cs then .float
  else if hasIntForm cs then .int
  else
    match Timestamp.read? cs with
    | some t => .timestamp t
    | none => .text

def readDigits (base : Nat) (cs : List Char) : Except Fault Nat :=
  match withoutLines cs with
  | [] => .error (.noDigits base)
  | ds =>
    if base = 10 ∧ maxDigits < ds.length then .error (.tooManyDigits ds.length)
    else .ok ((natOf? base ds).getD 0)

def readInt (cs : List Char) : Except Fault Int := do
  let (negative, body) := splitSign cs
  let size ← match body with
    | '0' :: 'b' :: ds => readDigits 2 ds
    | '0' :: 'o' :: ds => readDigits 8 ds
    | '0' :: 'x' :: ds => readDigits 16 ds
    | ds => readDigits 10 ds
  return if negative then -(size : Int) else size

def readFloat (cs : List Char) : Except Fault Float :=
  let (negative, body) := splitSign cs
  if infinityWords.contains body then .ok (if negative then -1.0 / 0.0 else 1.0 / 0.0)
  else if nanWords.contains cs then .ok (0.0 / 0.0)
  else
    match DecimalText.read? (withoutLines cs) with
    | some d => .ok d.toFloat
    | none => .error (.notNumber (String.ofList ((withoutLines body).map Char.toLower)))

variable {φ : Type}

def plainValue (cs : List Char) : Except Fault (Value φ) :=
  match ScalarForm.of cs with
  | .null => .ok .null
  | .bool b => .ok (.bool b)
  | .float => (readFloat cs).map .float
  | .int => (readInt cs).map .int
  | .timestamp t => (t.moment.mapError .moment).map .moment
  | .merge | .default => .error .malformed
  | .text => .ok (.str (String.ofList cs))

/-- Whether a number is exactly the whole number `n`. -/
def isWhole (x : Float) (n : Int) : Bool :=
  match Binary.ofFloat x with
  | .finite negative mantissa power =>
    let size := mantissa * twoTo power.toNat
    let unit := twoTo (-power).toNat
    size == n.natAbs * unit && (negative == decide (n < 0) || n == 0)
  | _ => false

mutual

/-- Whether two values are the same as keys: truth values and numbers are compared by size, and what
is no number is the same as itself. -/
def sameKey : Value φ → Value φ → Bool
  | .null, .null => true
  | .str s, .str t => s == t
  | .moment m, .moment n => m.agrees n
  | .tuple as, .tuple bs => sameKeys as bs
  | .float x, .float y => x == y || (x.isNaN && y.isNaN)
  | .float x, .int n | .int n, .float x => isWhole x n
  | .float x, .bool b | .bool b, .float x => isWhole x (if b then 1 else 0)
  | .int m, .int n => m == n
  | .int n, .bool b | .bool b, .int n => n == if b then 1 else 0
  | .bool a, .bool b => a == b
  | _, _ => false

def sameKeys : List (Value φ) → List (Value φ) → Bool
  | [], [] => true
  | a :: as, b :: bs => sameKey a b && sameKeys as bs
  | _, _ => false

end

end Stencil.Yaml
