import Stencil.Yaml.Fault
import Stencil.Yaml.Spot

namespace Stencil.Yaml

/-- The breaks between two lines of a scalar, and the number of characters that they and the blanks
among them take. A mark between documents, at the beginning of a line, stops the reading. -/
structure Breaks where
  breaks : List Char := []
  length : Nat := 0
  atMark : Bool := false

/-- The breaks in front of the next character that is neither a break nor blank. -/
def Breaks.of (isBlank : Char → Bool) : List Char → Breaks
  | [] => {}
  | c :: cs =>
    if isBlank c then
      let further := of isBlank cs
      { further with length := further.length + 1 }
    else if isBreak c then
      if atDocumentMark cs then ⟨[breakValue c], 1, true⟩
      else
        let further := of isBlank cs
        { further with breaks := breakValue c :: further.breaks, length := further.length + 1 }
    else {}

def folded : List Char → List Char
  | ['\n'] => [' ']
  | '\n' :: breaks => breaks
  | breaks => breaks

/-- The characters that end a piece of an unquoted scalar in brackets. -/
def flowEnds : List Char := [',', ':', '?', '[', ']', '\x7b', '\x7d']

/-- The number of characters up to the end of a piece of an unquoted scalar. A colon ends it only in
front of a gap, and a question mark never does. -/
def pieceLength (inBrackets : Bool) : List Char → Nat
  | [] => 0
  | c :: cs =>
    if (c = ':' ∧ !atGap cs) ∨ c = '?' then pieceLength inBrackets cs + 1
    else if isSpaceOrTab c ∨ isBreak c ∨ c = ':' ∨ (inBrackets ∧ flowEnds.contains c) then 0
    else pieceLength inBrackets cs + 1

/-- What was read of an unquoted scalar: its text, and whether a break was passed behind it. -/
structure PlainText where
  text : List Char
  spot : Spot
  brokeLine : Bool

/-- Reads an unquoted scalar. Pieces belong together across spaces and breaks, unless a comment
begins, or a line outside brackets is indented less than `indent`. -/
def PlainText.read (inBrackets : Bool) (indent : Nat) (brokeLine : Bool) (gap : List Char) :
    Nat → Spot → PlainText
  | 0, s => ⟨[], s, brokeLine⟩
  | fuel + 1, s =>
    let length := pieceLength inBrackets s.rest
    if length = 0 ∨ s.rest.head? = some '#' then ⟨[], s, brokeLine⟩
    else
      let text := gap ++ s.rest.take length
      let behind := s.forward length
      let between := Breaks.of (· == ' ') behind.rest
      let next := behind.forward between.length
      let goesOn := inBrackets || indent ≤ next.column
      let broke := between.breaks != []
      if between.length = 0 ∨ between.atMark ∨ !goesOn then ⟨text, next, broke⟩
      else
        let gap :=
          if broke then folded between.breaks else behind.rest.take between.length
        let further := read inBrackets indent broke gap fuel next
        { further with text := text ++ further.text }

/-- The characters that one letter after a backslash stands for. -/
def escapeOf? : Char → Option Char
  | '0' => some '\x00'
  | 'a' => some '\x07'
  | 'b' => some '\x08'
  | 't' => some '\t'
  | '\t' => some '\t'
  | 'n' => some '\n'
  | 'v' => some '\x0b'
  | 'f' => some '\x0c'
  | 'r' => some '\r'
  | 'e' => some '\x1b'
  | ' ' => some ' '
  | '"' => some '"'
  | '/' => some '/'
  | '\\' => some '\\'
  | 'N' => some (Char.ofNat 0x85)
  | '_' => some (Char.ofNat 0xA0)
  | 'L' => some (Char.ofNat 0x2028)
  | 'P' => some (Char.ofNat 0x2029)
  | _ => none

/-- How many digits of base sixteen follow a letter after a backslash. -/
def codeWidth? : Char → Option Nat
  | 'x' => some 2
  | 'u' => some 4
  | 'U' => some 8
  | _ => none

def digitOf? (base : Nat) (c : Char) : Option Nat :=
  let n :=
    if c.isDigit then c.toNat - '0'.toNat
    else if 'a' ≤ c ∧ c ≤ 'f' then c.toNat - 'a'.toNat + 10
    else if 'A' ≤ c ∧ c ≤ 'F' then c.toNat - 'A'.toNat + 10
    else 16
  if n < base then some n else none

/-- The number that digits of a base spell, most significant first. -/
def natOf? (base : Nat) (cs : List Char) : Option Nat :=
  cs.foldlM (fun n c => (digitOf? base c).map (base * n + ·)) 0

/-- The code at the beginning of a text, with that many digits. -/
def codeAt? (width : Nat) (cs : List Char) : Option Nat :=
  if (cs.take width).length = width then natOf? 16 (cs.take width) else none

/-- Whether a code is the first, or the second, of two that together make one character. -/
def isHighHalf (n : Nat) : Bool := 0xD800 ≤ n && n < 0xDC00
def isLowHalf (n : Nat) : Bool := 0xDC00 ≤ n && n < 0xE000

/-- The second half of a character, written as a code of its own. -/
def lowHalfAt? : List Char → Option Nat
  | '\\' :: 'u' :: cs => (codeAt? 4 cs).filter isLowHalf
  | _ => none

/-- The character with a code whose digits have been read, and how many characters behind them belong
to it. Two halves of a character that follow each other are one, and one half alone is none. -/
def codedChar (n : Nat) (rest : List Char) : Except Fault (Char × Nat) :=
  if 0x110000 ≤ n then .error (.code n)
  else if isHighHalf n then
    match lowHalfAt? rest with
    | some low => .ok (Char.ofNat (0x10000 + 1024 * (n - 0xD800) + (low - 0xDC00)), 6)
    | none => .error (.half n)
  else if isLowHalf n then .error (.half n)
  else .ok (Char.ofNat n, 0)

/-- What an escape behind its backslash stands for, and how many characters it takes. An escaped break
stands for nothing, and so do the blanks behind it. -/
def readEscape : List Char → Except Fault (List Char × Nat)
  | [] => .error .malformed
  | e :: cs =>
    match escapeOf? e, codeWidth? e with
    | some c, _ => .ok ([c], 1)
    | none, some width =>
      match codeAt? width cs with
      | none => .error .malformed
      | some n => (codedChar n (cs.drop width)).map fun (c, more) => ([c], 1 + width + more)
    | none, none =>
      let passed := Breaks.of isSpaceOrTab (e :: cs)
      if !isBreak e || passed.atMark then .error .malformed
      else .ok (passed.breaks.drop 1, passed.length)

/-- Reads a quoted scalar from behind its opening quote to behind the closing one. No line in it may
begin with a mark between documents. -/
def readQuoted (double : Bool) : Nat → Spot → Except Fault (List Char × Spot)
  | 0, _ => .error .malformed
  | fuel + 1, s =>
    let onwards (text : List Char) (length : Nat) : Except Fault (List Char × Spot) :=
      (readQuoted double fuel (s.forward length)).map fun (more, last) => (text ++ more, last)
    match s.rest with
    | [] => .error .malformed
    | c :: cs =>
      if isSpaceOrTab c || isBreak c then
        let passed := Breaks.of isSpaceOrTab s.rest
        if passed.atMark then .error .malformed
        else if passed.breaks = [] then onwards (s.rest.take passed.length) passed.length
        else onwards (folded passed.breaks) passed.length
      else if double ∧ c = '\\' then do
        let (text, length) ← readEscape cs
        onwards text (length + 1)
      else if !double ∧ c = '\'' ∧ cs.head? = some '\'' then onwards ['\''] 2
      else if c = (if double then '"' else '\'') then .ok ([], s.step)
      else onwards [c] 1

end Stencil.Yaml
