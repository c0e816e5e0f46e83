import Stencil.Yaml.Folding

namespace Stencil.Yaml

/-- The two kinds of brackets. -/
inductive Bracket where
  | square
  | curly
deriving DecidableEq, Repr

inductive Token where
  | opening (b : Bracket)
  | closing (b : Bracket)
  | comma
  | dash
  | key
  | value
  /-- A sequence begins by its indentation. -/
  | sequence
  /-- A mapping begins by its indentation. -/
  | mapping
  /-- What began by its indentation ends. -/
  | dedent
  | scalar (plain : Bool) (text : List Char)
  | documentStart
  | documentEnd
  /-- Nothing can be read from here on. -/
  | fault (f : Fault)
deriving DecidableEq, Repr

/-- Where a key begins, if a colon follows in time. -/
structure KeyStart where
  /-- The number of open brackets. -/
  level : Nat
  /-- The number of tokens in front of it. -/
  position : Nat
  /-- Nothing but a key may stand there. -/
  required : Bool
  spot : Spot

/-- A colon is too late on a later line, or more than 1024 characters on. -/
def KeyStart.isLate (k : KeyStart) (s : Spot) : Bool :=
  k.spot.line != s.line || k.spot.index + 1024 < s.index

/-- The characters that no unquoted scalar starts with, but for three of them. -/
def indicators : List Char :=
  ['-', '?', ':', ',', '[', ']', '\x7b', '\x7d', '#', '&', '*', '!', '|', '>', '\'', '"', '%', '@',
    Char.ofNat 96]

/-- Whether an unquoted scalar can start here: of the indicators a dash may be followed by anything
but a gap, and outside brackets also a question mark and a colon; within brackets a colon must not be
followed by a blank. -/
def startsPlain (inBrackets : Bool) : List Char → Bool
  | [] => false
  | '-' :: cs => !atGap cs
  | '?' :: cs => !inBrackets && !atGap cs
  | ':' :: cs => if inBrackets then !((cs.head?.map isSpaceOrTab).getD false) else !atGap cs
  | c :: _ => !indicators.contains c && !isSpaceOrTab c && !isBreak c

/-- A document that is being read. -/
structure TokenReader where
  spot : Spot
  /-- The tokens so far, latest first, and their number. -/
  tokens : List Token := []
  count : Nat := 0
  /-- The open brackets, innermost first. -/
  brackets : List Bracket := []
  /-- The columns of the structures that began by their indentation, innermost first. -/
  columns : List Nat := []
  /-- Whether a key may begin here. -/
  keyAllowed : Bool := true
  /-- Where keys may have begun: at most one place for each level. -/
  starts : List KeyStart := []

namespace TokenReader

def level (s : TokenReader) : Nat := s.brackets.length

def inBrackets (s : TokenReader) : Bool := s.level != 0

def emit (s : TokenReader) (t : Token) : TokenReader :=
  { s with tokens := t :: s.tokens, count := s.count + 1 }

/-- Puts tokens, which are given latest first, behind the first `position` ones. -/
def insert (s : TokenReader) (position : Nat) (ts : List Token) : TokenReader :=
  let later := s.count - position
  { s with
    tokens := s.tokens.take later ++ ts ++ s.tokens.drop later
    count := s.count + ts.length }

def pass (s : TokenReader) (t : Token) (length : Nat) : TokenReader :=
  { s.emit t with spot := s.spot.forward length }

/-- Ends the structures that are indented more than `column`, or all of them. Brackets make
indentation meaningless. -/
def endDeeper (s : TokenReader) (column : Option Nat) : TokenReader :=
  if s.inBrackets then s
  else
    let (deeper, others) := s.columns.span fun c => (column.map fun k => decide (k < c)).getD true
    { deeper.foldl (fun s _ => s.emit .dedent) s with columns := others }

/-- Whether a structure in this column is deeper than all that have begun. -/
def isDeeper (s : TokenReader) (column : Nat) : Bool :=
  (s.columns.head?.map fun c => decide (c < column)).getD true

/-- Begins a structure in this column, unless it has begun. -/
def beginAt (s : TokenReader) (column : Nat) (t : Token) : TokenReader :=
  if s.isDeeper column then { s.emit t with columns := column :: s.columns } else s

/-- Gives up the places where it is too late for a colon. -/
def dropLate (s : TokenReader) : Except Fault TokenReader :=
  let (late, others) := s.starts.partition (·.isLate s.spot)
  if late.any (·.required) then .error .malformed else .ok { s with starts := others }

/-- The place on this level where a key may have begun. -/
def start? (s : TokenReader) : Option KeyStart :=
  let level := s.level
  s.starts.find? (·.level = level)

def forget (s : TokenReader) : TokenReader :=
  let level := s.level
  { s with starts := s.starts.filter (·.level ≠ level) }

def dropStart (s : TokenReader) : Except Fault TokenReader :=
  if (s.start?.map (·.required)).getD false then .error .malformed else .ok s.forget

/-- Takes note that a key may begin here. In the column of a structure nothing else may. -/
def noteStart (s : TokenReader) : Except Fault TokenReader :=
  if s.keyAllowed then do
    let required := !s.inBrackets && s.columns.head? == some s.spot.column
    let dropped ← s.dropStart
    return { dropped with starts := ⟨s.level, s.count, required, s.spot⟩ :: dropped.starts }
  else .ok s

def readDash (s : TokenReader) : Except Fault TokenReader := do
  if s.inBrackets || !s.keyAllowed then throw .malformed
  let begun ← (s.beginAt s.spot.column .sequence).dropStart
  return { begun.pass .dash 1 with keyAllowed := true }

/-- Reads the mark in front of a key that need not be a simple one. -/
def readKeyMark (s : TokenReader) : Except Fault TokenReader := do
  if !s.inBrackets && !s.keyAllowed then throw .malformed
  let begun ← (if s.inBrackets then s else s.beginAt s.spot.column .mapping).dropStart
  return { begun.pass .key 1 with keyAllowed := !s.inBrackets }

/-- Reads a colon. If a key may have begun on this level, it did, and a mapping begins with it unless
it has begun. -/
def readColon (s : TokenReader) : Except Fault TokenReader :=
  match s.start? with
  | some k =>
    let column := k.spot.column
    let begins := !s.inBrackets && s.isDeeper column
    let marked := s.forget.insert k.position (if begins then [.key, .mapping] else [.key])
    let columns := if begins then column :: s.columns else s.columns
    .ok { marked.pass .value 1 with columns, keyAllowed := false }
  | none =>
    if s.inBrackets then .ok { s.pass .value 1 with keyAllowed := false }
    else if s.keyAllowed then .ok ((s.beginAt s.spot.column .mapping).pass .value 1)
    else .error .malformed

/-- Reads an opening bracket, with which a key may begin. -/
def readOpening (s : TokenReader) (b : Bracket) : Except Fault TokenReader := do
  let noted ← s.noteStart
  return { noted.pass (.opening b) 1 with brackets := b :: s.brackets, keyAllowed := true }

/-- Reads a closing bracket, which has to match the last one that is open. -/
def readClosing (s : TokenReader) (b : Bracket) : Except Fault TokenReader := do
  let dropped ← s.dropStart
  match s.brackets with
  | [] => throw .malformed
  | last :: outer =>
    if last ≠ b then throw .malformed
    return { dropped.pass (.closing b) 1 with brackets := outer, keyAllowed := false }

def readComma (s : TokenReader) : Except Fault TokenReader := do
  return { (← s.dropStart).pass .comma 1 with keyAllowed := true }

/-- Reads a mark between documents, which ends all structures. -/
def readDocumentMark (s : TokenReader) (t : Token) : Except Fault TokenReader := do
  return { (← (s.endDeeper none).dropStart).pass t 3 with keyAllowed := false }

/-- Reads a quoted scalar, with which a key may begin. -/
def readQuotedScalar (s : TokenReader) (double : Bool) (fuel : Nat) : Except Fault TokenReader := do
  let noted ← s.noteStart
  let (text, behind) ← readQuoted double fuel s.spot.step
  return { noted.emit (.scalar false text) with spot := behind, keyAllowed := false }

/-- Reads an unquoted scalar, with which a key may begin. Behind a break a further one may. -/
def readPlainScalar (s : TokenReader) (fuel : Nat) : Except Fault TokenReader := do
  let noted ← s.noteStart
  let indent := (s.columns.head?.map (· + 1)).getD 0
  let plain := PlainText.read s.inBrackets indent false [] fuel s.spot
  return { noted.emit (.scalar true plain.text) with
    spot := plain.spot, keyAllowed := plain.brokeLine }

/-- Whether a colon here stands between a key and its value. Inside curly brackets it does even
without a gap behind it, unless it follows another one that has not been taken up yet. -/
def atColon (s : TokenReader) (colonWaits : Bool) (behind : List Char) : Bool :=
  atGap behind || (s.brackets.head? == some .curly && !colonWaits)

def readToken (s : TokenReader) (colonWaits : Bool) (fuel : Nat) : Except Fault TokenReader :=
  let atMargin := s.spot.column == 0 && atDocumentMark s.spot.rest
  let plain : Except Fault TokenReader :=
    if startsPlain s.inBrackets s.spot.rest then s.readPlainScalar fuel else .error .malformed
  match s.spot.rest with
  | [] => .ok s
  | '-' :: cs =>
    if atMargin then s.readDocumentMark .documentStart
    else if atGap cs then s.readDash
    else plain
  | '.' :: _ => if atMargin then s.readDocumentMark .documentEnd else plain
  | '[' :: _ => s.readOpening .square
  | '\x7b' :: _ => s.readOpening .curly
  | ']' :: _ => s.readClosing .square
  | '\x7d' :: _ => s.readClosing .curly
  | ',' :: _ => s.readComma
  | '?' :: cs => if s.inBrackets || atGap cs then s.readKeyMark else plain
  | ':' :: cs => if s.atColon colonWaits cs then s.readColon else plain
  | '\'' :: _ => s.readQuotedScalar false fuel
  | '"' :: _ => s.readQuotedScalar true fuel
  | _ => plain

/-- Whether the last token is a colon that waits: as long as a key may still turn out to have begun in
front of it, nothing behind that place is taken up. -/
def colonWaits (s : TokenReader) : Bool :=
  s.tokens.head? == some .value && s.starts.any (!·.isLate s.spot)

/-- Passes the gap in front of the next token. A break in it allows a key to begin. -/
def passGap (s : TokenReader) : TokenReader :=
  let gap := Gap.of s.inBrackets s.spot.rest
  { s with
    spot := s.spot.forward gap.length
    keyAllowed := s.keyAllowed || (gap.broken && !s.inBrackets) }

def finish (s : TokenReader) : Except Fault TokenReader :=
  if s.inBrackets then .error .malformed else (s.endDeeper none).dropStart

/-- Goes on by one token, or to the end of the document if there is none, and says which. -/
def advance (s : TokenReader) (fuel : Nat) : Except Fault (TokenReader × Bool) := do
  let next ← s.passGap.dropLate
  if next.spot.rest.isEmpty then return (← next.finish, true)
  else
    let outer := next.endDeeper (some next.spot.column)
    return (← outer.readToken s.colonWaits fuel, false)

/-- The tokens up to a fault. Those from the first place on where a key may still turn out to have
begun cannot be taken up any more. -/
def stop (s : TokenReader) (f : Fault) : List Token :=
  let waiting := (s.starts.filter (!·.isLate s.spot)).map (·.position)
  let known := waiting.foldl min s.count
  (Token.fault f :: s.tokens.drop (s.count - known)).reverse

/-- Reads all tokens that are left, up to the first fault. -/
def readAll : Nat → TokenReader → List Token
  | 0, s => s.stop .malformed
  | fuel + 1, s =>
    match s.advance fuel with
    | .error f => s.stop f
    | .ok (last, true) => last.tokens.reverse
    | .ok (next, false) => readAll fuel next

end TokenReader

/-- The tokens of a text, which may begin with a byte order mark. -/
def Token.readAll (text : List Char) : List Token :=
  if !text.all isPrintable then [.fault .malformed]
  else
    let start : Spot := ⟨text, 0, 0, 0⟩
    let start := if text.head? = some byteOrderMark then start.step else start
    -- Every token takes a character, but for an empty scalar in front of a colon.
    TokenReader.readAll (2 * text.length + 2) { spot := start }

end Stencil.Yaml
