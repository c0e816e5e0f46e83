namespace Stencil

abbrev Bytes := List UInt8

/-- Why bytes are no text. -/
inductive ByteFault where
  | start
  | continuation
  | endOfData
deriving DecidableEq, Repr

/-- The bytes to blame: those from `position` up to `stop`, of which `byte` is the first. -/
structure DecodeError where
  byte : UInt8
  position : Nat
  stop : Nat
  fault : ByteFault
deriving DecidableEq, Repr

def ByteFault.message : ByteFault → String
  | start => "invalid start byte"
  | continuation => "invalid continuation byte"
  | endOfData => "unexpected end of data"

def hexByte (b : UInt8) : String :=
  String.ofList [Nat.digitChar (b.toNat / 16), Nat.digitChar (b.toNat % 16)]

def DecodeError.message (e : DecodeError) : String :=
  let place :=
    if e.stop = e.position + 1 then
      "byte 0x" ++ hexByte e.byte ++ " in position " ++ toString e.position
    else
      "bytes in position " ++ toString e.position ++ "-" ++ toString (e.stop - 1)
  "'utf-8' codec can't decode " ++ place ++ ": " ++ e.fault.message

def isContinuation (b : UInt8) : Bool :=
  128 ≤ b && b < 192

/-- What a first byte asks for: the number of bytes that follow, its own share of the code, and the
range in which the second byte has to be. -/
def leadByte (b : UInt8) : Option (Nat × Nat × UInt8 × UInt8) :=
  if b < 0xC2 then none
  else if b < 0xE0 then some (1, b.toNat - 0xC0, 0x80, 0xBF)
  else if b < 0xF0 then
    some (2, b.toNat - 0xE0, if b = 0xE0 then 0xA0 else 0x80, if b = 0xED then 0x9F else 0xBF)
  else if b < 0xF5 then
    some (3, b.toNat - 0xF0, if b = 0xF0 then 0x90 else 0x80, if b = 0xF4 then 0x8F else 0xBF)
  else none

/-- How many of the bytes continue a character whose second byte has to be between `low` and `high`,
when `wanted` are asked for. -/
def continuing (low high : UInt8) (wanted : Nat) (bs : Bytes) : Nat :=
  match bs.take wanted with
  | [] => 0
  | b :: more => if low ≤ b && b ≤ high then 1 + (more.takeWhile isContinuation).length else 0

def codeOf (lead : Nat) (bs : Bytes) : Nat :=
  bs.foldl (fun n b => 64 * n + (b.toNat - 128)) lead

/-- The next character of `b :: bs` and the number of bytes behind `b` that it takes, or the fault and
the number of bytes to blame. -/
def nextChar (b : UInt8) (bs : Bytes) : Except (ByteFault × Nat) (Char × Nat) :=
  if b < 128 then .ok (Char.ofNat b.toNat, 0)
  else
    match leadByte b with
    | none => .error (.start, 1)
    | some (wanted, lead, low, high) =>
      let n := continuing low high wanted bs
      if n = wanted then .ok (Char.ofNat (codeOf lead (bs.take wanted)), wanted)
      else if n = bs.length then .error (.endOfData, n + 1)
      else .error (.continuation, n + 1)

/-- Reads bytes as text; the first of them stands at `position`. -/
def decodeFrom (position : Nat) : Bytes → Except DecodeError (List Char)
  | [] => .ok []
  | b :: bs =>
    match nextChar b bs with
    | .error (fault, n) => .error ⟨b, position, position + n, fault⟩
    | .ok (c, n) => (decodeFrom (position + 1 + n) (bs.drop n)).map (c :: ·)
termination_by bs => bs.length
decreasing_by simp only [List.length_drop, List.length_cons]; omega

def decodeUtf8 (bs : Bytes) : Except DecodeError (List Char) :=
  decodeFrom 0 bs

def utf8Char (c : Char) : Bytes :=
  let n := c.toNat
  let tail (m : Nat) : UInt8 := .ofNat (128 + m % 64)
  if n < 0x80 then [.ofNat n]
  else if n < 0x800 then [.ofNat (0xC0 + n / 64), tail n]
  else if n < 0x10000 then [.ofNat (0xE0 + n / 4096), tail (n / 64), tail n]
  else [.ofNat (0xF0 + n / 262144), tail (n / 4096), tail (n / 64), tail n]

def encodeUtf8 (cs : List Char) : Bytes :=
  cs.flatMap utf8Char

end Stencil
