import Stencil.Decimal.Binary

namespace Stencil

/-- The decimal `0.d₁d₂… * 10 ^ point` with the digits `d₁d₂…`. -/
structure Digits where
  digits : Nat
  point : Int
deriving DecidableEq, Repr

def digitCount (n : Nat) : Nat := (Nat.toDigits 10 n).length

/-- Where the decimal point of `n / d` stands: the quotient is below `10 ^ point` and not below the
power before it. The search starts from the digit counts, which miss it by at most one. -/
def pointOf (n d : Nat) : Int :=
  let guess : Int := (digitCount n : Int) - digitCount d
  let reached := if guess ≥ 0 then d * tenTo guess.toNat ≤ n else d ≤ n * tenTo (-guess).toNat
  if reached then guess + 1 else guess

/-- The whole numbers that stand for `mantissa * 2 ^ power` on the grid with `count` digits, of
which the first `point` are before the decimal point, if one of its two neighbours there reads back.
The interval of what reads back includes its ends when the mantissa is even. -/
def onGrid (mantissa : Nat) (power : Int) (point : Int) (count : Nat) : Option Nat :=
  let shift := point - count
  -- In units of a quarter of the last binary place, over a common denominator.
  let scale := twoTo power.toNat * tenTo (-shift).toNat
  let unit := 4 * twoTo (-power).toNat * tenTo shift.toNat
  let value := 4 * mantissa * scale
  let narrow := mantissa = twoTo 52 ∧ power > -1074
  let low := value - (if narrow then 1 else 2) * scale
  let high := value + 2 * scale
  let fits (k : Nat) : Bool :=
    if mantissa % 2 = 0 then low ≤ k * unit && k * unit ≤ high
    else low < k * unit && k * unit < high
  let below := value / unit
  let above := below + 1
  let toBelow := value - below * unit
  let toAbove := above * unit - value
  match fits below, fits above with
  | false, false => none
  | true, false => some below
  | false, true => some above
  | true, true =>
    if toBelow < toAbove then some below
    else if toAbove < toBelow then some above
    else some (if below % 2 = 0 then below else above)

/-- The first grid, from the one with `count` digits on, that has a hit. -/
def shortestFrom (mantissa : Nat) (power : Int) (point : Int) (count : Nat) : Nat → Digits
  | 0 => ⟨0, 0⟩
  | more + 1 =>
    match onGrid mantissa power point count with
    | none => shortestFrom mantissa power point (count + 1) more
    | some k =>
      -- A neighbour above may be the next power of ten, which has one digit more.
      if k = tenTo count then ⟨1, point + 1⟩ else ⟨k, point⟩

/-- The shortest decimal for the positive number `mantissa * 2 ^ power`. Seventeen digits are always
enough. -/
def shortest (mantissa : Nat) (power : Int) : Digits :=
  let point := pointOf (mantissa * twoTo power.toNat) (twoTo (-power).toNat)
  shortestFrom mantissa power point 1 17

end Stencil
