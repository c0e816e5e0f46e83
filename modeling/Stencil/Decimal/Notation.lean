import Stencil.Decimal.Shortest

namespace Stencil

/-- How decimals are written. -/
structure DecimalFormat where
  /-- The least decimal exponent that is written positionally. -/
  leastExponent : Int
  /-- The decimal exponents from here on are not written positionally. -/
  exponentLimit : Int
  /-- The least number of digits of a written exponent. -/
  exponentWidth : Nat

/-- The digits of `n`, filled up with leading zeros to `width`. -/
def paddedDigits (width n : Nat) : List Char :=
  let ds := Nat.toDigits 10 n
  List.replicate (width - ds.length) '0' ++ ds

def DecimalFormat.write (f : DecimalFormat) (d : Digits) : List Char :=
  let ds := Nat.toDigits 10 d.digits
  let exponent := d.point - 1
  if f.leastExponent ≤ exponent ∧ exponent < f.exponentLimit then
    if d.point ≤ 0 then
      "0.".toList ++ List.replicate (-d.point).toNat '0' ++ ds
    else
      let whole := d.point.toNat
      if ds.length ≤ whole then ds ++ List.replicate (whole - ds.length) '0' ++ ".0".toList
      else ds.take whole ++ '.' :: ds.drop whole
  else
    let mantissa := match ds with
      | [] => []
      | [c] => [c]
      | c :: cs => c :: '.' :: cs
    let sign := if exponent < 0 then '-' else '+'
    mantissa ++ 'e' :: sign :: paddedDigits f.exponentWidth exponent.natAbs

/-- Numbers in texts: positional from a ten-thousandth up to sixteen digits before the point, and an
exponent of at least two digits otherwise. -/
def numberFormat : DecimalFormat := ⟨-4, 16, 2⟩

def floatText (x : Float) : String :=
  match Binary.ofFloat x with
  | .nan => "nan"
  | .infinite negative => if negative then "-inf" else "inf"
  | .finite negative mantissa power =>
    let sign := if negative then "-" else ""
    if mantissa = 0 then sign ++ "0.0"
    else sign ++ String.ofList (numberFormat.write (shortest mantissa power))

def digitsValue (cs : List Char) : Nat :=
  cs.foldl (fun n c => 10 * n + (c.toNat - '0'.toNat)) 0

/-- A decimal as it is written: digits around a point, and a power of ten. -/
structure DecimalText where
  negative : Bool
  whole : List Char
  fraction : List Char
  exponent : Int
deriving DecidableEq, Repr

/-- The sign in front of a number, if there is one, and the rest. -/
def splitSign : List Char → Bool × List Char
  | '-' :: cs => (true, cs)
  | '+' :: cs => (false, cs)
  | cs => (false, cs)

/-- Reads a decimal with an optional sign, point and exponent. There must be a digit before the
exponent, and one in the exponent if it is there. -/
def DecimalText.read? (text : List Char) : Option DecimalText :=
  let (negative, cs) := splitSign text
  let whole := cs.takeWhile Char.isDigit
  let rest := cs.dropWhile Char.isDigit
  let (fraction, rest) := match rest with
    | '.' :: ds => (ds.takeWhile Char.isDigit, ds.dropWhile Char.isDigit)
    | _ => ([], rest)
  if whole.isEmpty && fraction.isEmpty then none
  else
    match rest with
    | [] => some ⟨negative, whole, fraction, 0⟩
    | e :: ds =>
      let (down, exponent) := splitSign ds
      if (e == 'e' || e == 'E') && !exponent.isEmpty && exponent.all Char.isDigit then
        let size : Int := digitsValue exponent
        some ⟨negative, whole, fraction, if down then -size else size⟩
      else none

/-- The double nearest to a written decimal. Exponents beyond all doubles are cut, which changes
nothing as long as the digits are fewer than the cut leaves room for. -/
def DecimalText.toFloat (d : DecimalText) : Float :=
  let digits := digitsValue (d.whole ++ d.fraction)
  let exponent := d.exponent - d.fraction.length
  let limit : Int := 400 + (d.whole.length + d.fraction.length : Nat)
  let exponent := min limit (max (-limit) exponent)
  Binary.nearest d.negative (digits * tenTo exponent.toNat) (tenTo (-exponent).toNat)

end Stencil
