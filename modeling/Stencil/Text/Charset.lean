import Stencil.Text.Utf8

namespace Stencil

/-- The encodings on offer. -/
inductive Charset where
  | utf8
  | latin1
  | ascii
  | utf16le
deriving DecidableEq, Repr

namespace Charset

def ofName? : String → Option Charset
  | "utf-8" => some utf8
  | "latin-1" => some latin1
  | "ascii" => some ascii
  | "utf-16-le" => some utf16le
  | _ => none

/-- A number below two to the sixteenth, low byte first. -/
def unit16 (n : Nat) : Bytes := [.ofNat (n % 256), .ofNat (n / 256)]

/-- The bytes of a character, if the encoding has it. Characters beyond the first plane take two
units of sixteen bits. -/
def encodeChar (c : Char) : Charset → Option Bytes
  | utf8 => some (utf8Char c)
  | latin1 => if c.toNat < 256 then some [.ofNat c.toNat] else none
  | ascii => if c.toNat < 128 then some [.ofNat c.toNat] else none
  | utf16le =>
    let n := c.toNat
    if n < 0x10000 then some (unit16 n)
    else
      let m := n - 0x10000
      some (unit16 (0xD800 + m / 1024) ++ unit16 (0xDC00 + m % 1024))

/-- The bytes of a text, if the encoding has all its characters. -/
def encode? (charset : Charset) (text : String) : Option Bytes :=
  (text.toList.mapM (charset.encodeChar ·)).map List.flatten

end Charset

/-- The encodings that files may be kept in. -/
inductive FileCharset where
  | utf8
  | latin1
deriving DecidableEq, Repr

namespace FileCharset

def ofName? : String → Option FileCharset
  | "utf-8" => some utf8
  | "latin-1" => some latin1
  | _ => none

/-- The text of stored bytes. In the encoding with one byte for each character every byte is one. -/
def decode (charset : FileCharset) (bs : Bytes) : Except DecodeError (List Char) :=
  match charset with
  | utf8 => decodeUtf8 bs
  | latin1 => .ok (bs.map fun b => Char.ofNat b.toNat)

end FileCharset
end Stencil
