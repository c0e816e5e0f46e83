import Stencil.Yaml.Library

namespace Stencil.Yaml

inductive Fault where
  | malformed
  /-- No character has this code. -/
  | code (n : Nat)
  /-- The code is that of half of a character, and the other half is missing. -/
  | half (n : Nat)
  /-- A whole number in a base has no digits. -/
  | noDigits (base : Nat)
  /-- A whole number has more digits than are read. -/
  | tooManyDigits (count : Nat)
  | notNumber (text : String)
  | moment (f : MomentFault)
deriving DecidableEq, Repr

/-- The codes from here on are too large for the machine. -/
def codeLimit : Nat := 0x80000000

namespace Fault

def message : Fault → String
  | malformed => "the document is not well formed"
  | code n =>
    if n < codeLimit then "chr() arg not in range(0x110000)"
    else "Python int too large to convert to C int"
  | half _ => "half of a character"
  | noDigits base => "invalid literal for int() with base " ++ toString base ++ ": ''"
  | tooManyDigits count =>
    "Exceeds the limit (" ++ toString maxDigits ++ " digits) for integer string conversion: value has "
      ++ toString count ++ " digits; use sys.set_int_max_str_digits() to increase the limit"
  | notNumber text => "could not convert string to float: '" ++ text ++ "'"
  | moment f => f.message

/-- Whether a number went beyond all bounds, which no one who reads a document expects. -/
def isOverflow : Fault → Bool
  | code n => codeLimit ≤ n
  | moment .range => true
  | _ => false

def refusal (fault : Fault) : Refusal :=
  match fault with
  | malformed => .malformed fault.message
  | half _ => .beyond
  | _ => if fault.isOverflow then .halted "OverflowError" fault.message else .noValue fault.message

end Fault
end Stencil.Yaml
