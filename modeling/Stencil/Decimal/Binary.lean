namespace Stencil

/-- What a double stands for. -/
inductive Binary where
  | nan
  | infinite (negative : Bool)
  /-- The number `mantissa * 2 ^ power`, with its sign. -/
  | finite (negative : Bool) (mantissa : Nat) (power : Int)
deriving DecidableEq, Repr

def twoTo (n : Nat) : Nat := Nat.pow 2 n

def tenTo (n : Nat) : Nat := Nat.pow 10 n

namespace Binary

/-- The parts of a double. A full exponent field means no number; an empty one means that the
mantissa has no hidden leading bit. -/
def ofFloat (x : Float) : Binary :=
  let bits := x.toBits.toNat
  let negative := bits / twoTo 63 % 2 == 1
  let exponent : Nat := bits / twoTo 52 % twoTo 11
  let fraction := bits % twoTo 52
  if exponent = 2047 then
    if fraction = 0 then infinite negative else nan
  else if exponent = 0 then finite negative fraction (-1074)
  else finite negative (twoTo 52 + fraction) ((exponent : Int) - 1075)

/-- The quotient `n / d` rounded to a whole number, a half going to the even neighbour. -/
def roundHalfEven (n d : Nat) : Nat :=
  let q := n / d
  let r := n % d
  if d < 2 * r ∨ (2 * r = d ∧ q % 2 = 1) then q + 1 else q

/-- The power of two that a double with the value `n / d` counts in: it leaves fifty-three bits to
the mantissa, where the smallest power allows that. -/
def powerFor (n d : Nat) : Int :=
  let guess : Int := (n.log2 : Int) - d.log2
  -- The first bit of the quotient stands at `guess` or one place below.
  let below := if guess ≥ 0 then n < d * twoTo guess.toNat else n * twoTo (-guess).toNat < d
  let lead := if below then guess - 1 else guess
  max (lead - 52) (-1074)

/-- The bits of the double nearest to `n / d`, for a positive denominator. -/
def nearestBits (negative : Bool) (n d : Nat) : Nat :=
  let sign := if negative then twoTo 63 else 0
  if n = 0 then sign
  else
    let power := powerFor n d
    let mantissa :=
      if power ≥ 0 then roundHalfEven n (d * twoTo power.toNat)
      else roundHalfEven (n * twoTo (-power).toNat) d
    -- A mantissa that was rounded up to the next power of two carries into the exponent field.
    let bits :=
      if mantissa < twoTo 52 then mantissa
      else (power + 1075).toNat * twoTo 52 + (mantissa - twoTo 52)
    sign + min bits (2047 * twoTo 52)

/-- The double nearest to `n / d`, for a positive denominator. -/
def nearest (negative : Bool) (n d : Nat) : Float :=
  Float.ofBits (UInt64.ofNat (nearestBits negative n d))

end Binary
end Stencil
