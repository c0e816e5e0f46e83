import Stencil.Template.Syntax
import Stencil.Template.Token
import Stencil.Text.Blank

namespace Stencil

/-- The words that select a directive. Any other first word is a path. -/
inductive Keyword where
  | include
  | apply
  | cond
  | map
  | join
  | txt
deriving DecidableEq, Repr

namespace Keyword

def word : Keyword → String
  | .include => "include"
  | .apply => "apply"
  | .cond => "if"
  | .map => "map"
  | .join => "join"
  | .txt => "txt"

def ofWord? (letters : List Char) : Option Keyword :=
  [.include, .apply, .cond, .map, .join, .txt].find? fun k => k.word.toList == letters

end Keyword

/-- The words that only mark the parts of a conditional. -/
def isPartWord (letters : List Char) : Bool :=
  letters == "else".toList || letters == "end".toList

def endsWord (c : Char) : Bool :=
  [' ', '\t', '\r', '\n', ':', '\x7b', '\x7d', '$'].contains c

/-- A word of a directive and the place of its first letter. -/
structure Word where
  letters : List Char
  mark : Mark
deriving DecidableEq, Repr

def Word.text (w : Word) : String := String.ofList w.letters

def skipBlanks : Scan Unit :=
  modify fun c => c.advance (c.rest.takeWhile isBlank).length

/-- Reads the next word, which is empty where none stands. -/
def nextWord : Scan Word := do
  skipBlanks
  let c ← get
  let letters := c.rest.takeWhile (!endsWord ·)
  set (c.advance letters.length)
  return ⟨letters, c.mark⟩

/-- Reads the character `expected`, if it is the next one that is not blank. -/
def accept (expected : Char) : Scan Bool := do
  skipBlanks
  let c ← get
  if c.peek 0 = some expected then
    set (c.advance 1)
    return true
  else return false

/-- Reads a block with its leading colon. The answer is a cursor over the content. -/
def readColonBlock (what : String) : Scan Cursor := do
  if ← accept ':' then
    skipBlanks
    let c ← get
    if c.peek 0 = some '\x7b' then readBraced else throw ⟨.braceExpected what, c.mark⟩
  else
    let c ← get
    throw ⟨.blockExpected what, c.mark⟩

/-- Fails unless only blanks are left. -/
def requireEnd (what : String) : Scan Unit := do
  skipBlanks
  let c ← get
  if c.atEnd then return ()
  else throw ⟨.unexpectedRest (String.ofList (trim c.rest)) what, c.mark⟩

def isSegmentChar (c : Char) : Bool :=
  c.isAlphanum || c == '_' || c == '-'

/-- The parts between the dots of a word; there is one more of them than there are dots. -/
def segments : List Char → List (List Char)
  | [] => [[]]
  | c :: cs =>
    if c = '.' then [] :: segments cs
    else match segments cs with
      | s :: ss => (c :: s) :: ss
      | [] => [[c]]

/-- A segment of the path that a word spells. A bad one is reported at the place of the word. -/
def Word.segment (w : Word) (s : List Char) : Except SyntaxError String :=
  if s = [] then .error ⟨.emptySegment w.text, w.mark⟩
  else if s.all isSegmentChar then .ok (String.ofList s)
  else .error ⟨.invalidSegment (String.ofList s) w.text, w.mark⟩

/-- The path that a word spells. The first bad segment is the one reported. -/
def Word.path (w : Word) : Except SyntaxError Path :=
  (segments w.letters).mapM w.segment

/-- Reads a path. A missing one is reported at the place of the directive. -/
def readPath (what : String) (mark : Mark) : Scan Path := do
  let w ← nextWord
  if w.letters = [] then throw ⟨.missingPath what, mark⟩ else liftExcept w.path

/-- Reads the name of a template. A missing one is reported at the place of the directive. -/
def readName (what : String) (mark : Mark) : Scan String := do
  let w ← nextWord
  if w.letters = [] then throw ⟨.missingName what, mark⟩ else return w.text

/-- Reads a block of literal text and takes its escapes away. -/
def readLiteral (what : String) : Scan String := do
  let block ← readColonBlock what
  return String.ofList (Region.block.unescape block.rest)

/-- What one token contributes to a template. -/
inductive Item where
  | node (n : Node)
  | openIf (mark : Mark) (condition : Path)
  | otherwise
  | endIf
deriving Repr

/-- A way to compile the content of a block. -/
abbrev Inline := Cursor → Except SyntaxError (List Node)

/-- Reads the operands of a directive whose keyword has been read. -/
def readOperands (inline : Inline) (mark : Mark) (k : Keyword) : Scan Item :=
  match k with
  | .include => do
    let name ← readName k.word mark
    return .node (.include mark name)
  | .apply => do
    let func ← readPath k.word mark
    let arg ← readPath k.word mark
    return .node (.apply mark func arg)
  | .cond => do
    let condition ← readPath k.word mark
    return .openIf mark condition
  | .map => do
    skipBlanks
    if (← get).peek 0 = some ':' then
      let block ← readColonBlock k.word
      let body ← liftExcept (inline block)
      let items ← readPath k.word mark
      return .node (.mapInline mark body items)
    else
      let name ← readName k.word mark
      let items ← readPath k.word mark
      return .node (.mapNamed mark name items)
  | .join => do
    let separator ← readLiteral k.word
    let items ← readPath k.word mark
    return .node (.join mark separator items)
  | .txt => do
    let key ← readLiteral k.word
    if key = "" then throw ⟨.emptyKey, mark⟩ else return .node (.txt mark key)

/-- Reads a directive that is not a part of a conditional, for the token `t`. -/
def readItem (inline : Inline) (t : Token) : Scan Item := do
  let w ← nextWord
  match Keyword.ofWord? w.letters with
  | some k => do
    let item ← readOperands inline t.mark k
    requireEnd k.word
    return item
  | none => do
    let c ← get
    match w.letters, c.peek 0 with
    | [], none => throw ⟨.emptyDirective, t.mark⟩
    | [], some d => throw ⟨.unexpectedCharacter d, c.mark⟩
    | letters, _ =>
      if isPartWord letters then
        throw ⟨.unknownDirective (String.ofList (trim t.value)), t.mark⟩
      else
        let path ← liftExcept w.path
        skipBlanks
        let rest ← get
        if rest.atEnd then return .node (.attr t.mark path)
        else throw ⟨.unknownDirective w.text, t.mark⟩

def Token.item (inline : Inline) (t : Token) : Except SyntaxError Item :=
  match t.kind with
  | .text => .ok (.node (.text (String.ofList t.value)))
  | .eof => .error ⟨.unexpectedToken "EOF", t.mark⟩
  | .directive =>
    if words t.value = ["else".toList] then .ok .otherwise
    else if words t.value = ["end".toList, "if".toList] then .ok .endIf
    else
      match readItem inline t t.content with
      | .ok item _ => .ok item
      | .error e _ => .error e

end Stencil
