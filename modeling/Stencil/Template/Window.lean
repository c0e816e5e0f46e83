import Stencil.Template.Compile

namespace Stencil

/-- A stretch of a text that is read where it stands: the text is there as a whole, reading goes on at `position` and
ends at `stop`. -/
structure Window where
  text : List Char
  position : Nat
  stop : Nat
  mark : Mark
deriving DecidableEq, Repr

namespace Window

/-- A reading step in a text: it moves a window, and leaves it where it stopped also when it fails. -/
abbrev Scan (α : Type) := EStateM SyntaxError Window α

/-- How many characters are left to read. -/
def left (w : Window) : Nat := w.stop - w.position

def atEnd (w : Window) : Bool := w.stop ≤ w.position

/-- The character `ahead` places further on, if the window reaches that far. -/
def peek (w : Window) (ahead : Nat) : Option Char :=
  if w.stop ≤ w.position + ahead then none else w.text[w.position + ahead]?

/-- The character so many places back in the text. In front of the text it goes on from the end. -/
def peekBack (w : Window) (back : Nat) : Option Char :=
  if back ≤ w.position then w.text[w.position - back]? else w.text[w.text.length + w.position - back]?

/-- The window behind its next character. At the end it stays. -/
def step (w : Window) : Window :=
  match w.peek 0 with
  | some c => { w with position := w.position + 1, mark := w.mark.next c }
  | none => w

def advance (w : Window) : Nat → Window
  | 0 => w
  | n + 1 => w.step.advance n

/-- The characters of the text from an offset up to the window. -/
def since (w : Window) (start : Nat) : List Char := (w.text.take w.position).drop start

theorem left_step_le (w : Window) : w.step.left ≤ w.left := by
  unfold step left
  split
  · exact Nat.sub_le_sub_left (Nat.le_succ _) _
  · exact Nat.le_refl _

theorem left_step {w : Window} {c : Char} (next : w.peek 0 = some c) : w.step.left < w.left := by
  unfold step left
  rw [next]
  unfold peek at next
  split at next
  · cases next
  · dsimp only
    omega

theorem left_advance_le (w : Window) (n : Nat) : (w.advance n).left ≤ w.left := by
  induction n generalizing w with
  | zero => exact Nat.le_refl _
  | succ n ih => exact Nat.le_trans (ih w.step) w.left_step_le

theorem left_advance {w : Window} {c : Char} (next : w.peek 0 = some c) (n : Nat) :
    (w.advance (n + 1)).left < w.left :=
  Nat.lt_of_le_of_lt (left_advance_le w.step n) (left_step next)

/-- Goes on as long as the next character is as asked. -/
def passWhile (asked : Char → Bool) (w : Window) : Window :=
  match _next : w.peek 0 with
  | some c => if asked c then passWhile asked w.step else w
  | none => w
termination_by w.left
decreasing_by exact left_step _next

/-- Goes on to the brace that closes a block in which `depth` further blocks are open. The block began at `opened`. A
backslash hides the character behind it, whatever that is. -/
def toClosing (opened : Mark) (depth : Nat) (w : Window) : EStateM.Result SyntaxError Window Unit :=
  match _next : w.peek 0 with
  | none => .error ⟨.unmatchedOpen, opened⟩ w
  | some c =>
    if c = '\\' ∧ (w.peek 1).isSome then toClosing opened depth (w.advance 2)
    else if c = '\x7b' then toClosing opened (depth + 1) w.step
    else if c = '\x7d' then
      match depth with
      | 0 => .ok () w
      | depth + 1 => toClosing opened depth w.step
    else toClosing opened depth w.step
termination_by w.left
decreasing_by
  · exact left_advance _next 1
  all_goals exact left_step _next

theorem left_toClosing {opened : Mark} {depth : Nat} {w after : Window}
    (found : toClosing opened depth w = .ok () after) : after.left ≤ w.left := by
  fun_induction toClosing opened depth w with
  | case1 => cases found
  | case4 => cases found; exact Nat.le_refl _
  | case2 _ w _ _ _ ih => exact Nat.le_trans (ih found) (left_advance_le w 2)
  | case3 _ w _ _ ih | case5 w _ _ _ _ ih | case6 _ w _ _ _ _ _ ih =>
    exact Nat.le_trans (ih found) w.left_step_le

/-- Reads a block whose opening brace is the next character. The answer is the window of its content. -/
def readBraced : Scan Window := fun w =>
  match toClosing w.mark 0 w.step with
  | .error e stopped => .error e stopped
  | .ok _ closing => .ok { w.step with stop := closing.position } closing.step

theorem left_readBraced {w block after : Window} {c : Char} (next : w.peek 0 = some c)
    (read : readBraced w = .ok block after) : after.left < w.left := by
  unfold readBraced at read
  split at read
  · cases read
  · rename_i closing found
    cases read
    exact Nat.lt_of_le_of_lt (Nat.le_trans closing.left_step_le (left_toClosing found)) (left_step next)

/-- The character that the escape at the front of the window stands for. -/
def escaped? (r : Region) (w : Window) : Option Char :=
  match w.peek 0, w.peek 1 with
  | some c, some d => if c = '\\' ∧ r.escapes d then some d else none
  | _, _ => none

/-- Reads literal text up to the next delimiter, and answers it without its escapes. -/
def literal (r : Region) (w : Window) : List Char × Window :=
  match _next : w.peek 0 with
  | none => ([], w)
  | some c =>
    if c = '$' then ([], w)
    else
      match w.escaped? r with
      | some d => ((literal r (w.advance 2)).map (d :: ·) id)
      | none => ((literal r w.step).map (c :: ·) id)
termination_by w.left
decreasing_by
  · exact left_advance _next 1
  · exact left_step _next

def textToken (r : Region) : Scan Token := fun w =>
  let (value, after) := w.literal r
  .ok ⟨.text, value, w.position, after.position, w.mark⟩ after

/-- Goes on to the delimiter that closes the directive opened at `opened`. -/
def toDelimiter (opened : Mark) (w : Window) : EStateM.Result SyntaxError Window Unit :=
  match _next : w.peek 0 with
  | none => .error ⟨.unterminated, opened⟩ w
  | some c =>
    if c = '$' then .ok () w
    else if c = '\x7b' then
      match _read : readBraced w with
      | .ok _ after => toDelimiter opened after
      | .error e stopped => .error e stopped
    else if c = '\x7d' then .error ⟨.unmatchedClose, w.mark⟩ w
    else toDelimiter opened w.step
termination_by w.left
decreasing_by
  · exact left_readBraced _next _read
  · exact left_step _next

/-- Reads the directive whose opening delimiter is the next character. -/
def directiveToken : Scan Token := fun w =>
  match toDelimiter w.mark w.step with
  | .error e stopped => .error e stopped
  | .ok _ closing =>
    .ok ⟨.directive, closing.since w.step.position, w.step.position, closing.position, w.mark⟩ closing.step

/-- The token that stands at the end. -/
def eof (w : Window) : Token := ⟨.eof, [], w.position, w.position, w.mark⟩

/-- Reads the next token. At the end the same end token is read again and again. -/
def nextToken (r : Region) : Scan Token := fun w =>
  match w.peek 0 with
  | none => .ok w.eof w
  | some c => if c = '$' then directiveToken w else textToken r w

theorem left_literal_le (r : Region) (w : Window) : (w.literal r).2.left ≤ w.left := by
  fun_induction literal r w with
  | case1 | case2 => exact Nat.le_refl _
  | case3 w _ _ _ _ _ ih => exact Nat.le_trans ih (left_advance_le w 2)
  | case4 w _ _ _ _ ih => exact Nat.le_trans ih w.left_step_le

theorem left_literal {r : Region} {w : Window} {c : Char} (next : w.peek 0 = some c) (shown : c ≠ '$') :
    (w.literal r).2.left < w.left := by
  rw [literal]
  split
  · rename_i none
    rw [none] at next
    cases next
  · rename_i d same
    cases same.symm.trans next
    rw [if_neg shown]
    split
    · exact Nat.lt_of_le_of_lt (left_literal_le r _) (left_advance next 1)
    · exact Nat.lt_of_le_of_lt (left_literal_le r _) (left_step next)

theorem left_toDelimiter {opened : Mark} {w after : Window} (found : toDelimiter opened w = .ok () after) :
    after.left ≤ w.left := by
  fun_induction toDelimiter opened w with
  | case1 | case4 | case5 => cases found
  | case2 => cases found; exact Nat.le_refl _
  | case3 w _ after read next _ ih =>
    exact Nat.le_trans (ih found) (Nat.le_of_lt (left_readBraced next read))
  | case6 w _ _ _ _ _ ih => exact Nat.le_trans (ih found) w.left_step_le

/-- Every token but the last takes at least one character. -/
theorem left_nextToken {r : Region} {w after : Window} {c : Char} {t : Token} (next : w.peek 0 = some c)
    (read : nextToken r w = .ok t after) : after.left < w.left := by
  rw [nextToken, next] at read
  dsimp only at read
  split at read
  · unfold directiveToken at read
    split at read
    · cases read
    · rename_i closing found
      cases read
      exact Nat.lt_of_le_of_lt (Nat.le_trans closing.left_step_le (left_toDelimiter found)) (left_step next)
  · rename_i shown
    cases read
    exact left_literal next shown

/-- All tokens of a window, the last of which is the end. -/
def tokenize (r : Region) (w : Window) : Except SyntaxError (List Token) :=
  match _next : w.peek 0 with
  | none => .ok [w.eof]
  | some _ =>
    match _read : nextToken r w with
    | .error e _ => .error e
    | .ok t after => (tokenize r after).map (t :: ·)
termination_by w.left
decreasing_by exact left_nextToken _next _read

/-- The content of a directive among the tokens of the text. It starts one column behind its opening delimiter. -/
def ofDirective (text : List Char) (t : Token) : Window :=
  ⟨text, t.offset, t.stop, ⟨t.mark.line, t.mark.column + 1⟩⟩

def skipBlanks : Scan Unit := modify (·.passWhile isBlank)

/-- Reads the next word, which is empty where none stands. -/
def nextWord : Scan Word := do
  skipBlanks
  let w ← get
  let behind := w.passWhile (!endsWord ·)
  set behind
  return ⟨behind.since w.position, w.mark⟩

/-- Reads the character `expected`, if it is the next one that is not blank. -/
def accept (expected : Char) : Scan Bool := do
  skipBlanks
  let w ← get
  if w.peek 0 = some expected then
    set w.step
    return true
  else return false

/-- Reads a block with its leading colon. The answer is the window of its content. -/
def readColonBlock (what : String) : Scan Window := do
  if ← accept ':' then
    skipBlanks
    let w ← get
    if w.peek 0 = some '\x7b' then readBraced else throw ⟨.braceExpected what, w.mark⟩
  else
    let w ← get
    throw ⟨.blockExpected what, w.mark⟩

/-- Fails unless only blanks are left. -/
def requireEnd (what : String) : Scan Unit := do
  skipBlanks
  let w ← get
  if w.atEnd then return ()
  else
    let rest := (w.text.take w.stop).drop w.position
    throw ⟨.unexpectedRest (String.ofList (trim rest)) what, w.mark⟩

/-- Reads a path. A missing one is reported at the place of the directive. -/
def readPath (what : String) (mark : Mark) : Scan Path := do
  let w ← nextWord
  if w.letters = [] then throw ⟨.missingPath what, mark⟩ else liftExcept w.path

/-- Reads the name of a template. A missing one is reported at the place of the directive. -/
def readName (what : String) (mark : Mark) : Scan String := do
  let w ← nextWord
  if w.letters = [] then throw ⟨.missingName what, mark⟩ else return w.text

/-- Reads a block of literal text and takes its escapes away. -/
def readLiteral (what : String) : Scan String := do
  let block ← readColonBlock what
  return String.ofList (Region.block.unescape ((block.text.take block.stop).drop block.position))

/-- A way to compile the content of a block where it stands. -/
abbrev Inside := Window → Except SyntaxError (List Node)

/-- Reads the operands of a directive whose keyword has been read. -/
def readOperands (inside : Inside) (mark : Mark) (k : Keyword) : Scan Item :=
  match k with
  | .include => do
    let name ← readName k.word mark
    return .node (.include mark name)
  | .apply => do
    let func ← readPath k.word mark
    let arg ← readPath k.word mark
    return .node (.apply mark func arg)
  | .cond => do
    let condition ← readPath k.word mark
    return .openIf mark condition
  | .map => do
    skipBlanks
    if (← get).peek 0 = some ':' then
      let block ← readColonBlock k.word
      let body ← liftExcept (inside block)
      let items ← readPath k.word mark
      return .node (.mapInline mark body items)
    else
      let name ← readName k.word mark
      let items ← readPath k.word mark
      return .node (.mapNamed mark name items)
  | .join => do
    let separator ← readLiteral k.word
    let items ← readPath k.word mark
    return .node (.join mark separator items)
  | .txt => do
    let key ← readLiteral k.word
    if key = "" then throw ⟨.emptyKey, mark⟩ else return .node (.txt mark key)

/-- Reads a directive that is not a part of a conditional, for the token `t`. -/
def readItem (inside : Inside) (t : Token) : Scan Item := do
  let word ← nextWord
  match Keyword.ofWord? word.letters with
  | some k => do
    let item ← readOperands inside t.mark k
    requireEnd k.word
    return item
  | none => do
    let w ← get
    match word.letters, w.peek 0 with
    | [], none => throw ⟨.emptyDirective, t.mark⟩
    | [], some d => throw ⟨.unexpectedCharacter d, w.mark⟩
    | letters, _ =>
      if isPartWord letters then
        throw ⟨.unknownDirective (String.ofList (trim t.value)), t.mark⟩
      else
        let path ← liftExcept word.path
        skipBlanks
        let rest ← get
        if rest.atEnd then return .node (.attr t.mark path)
        else throw ⟨.unknownDirective word.text, t.mark⟩

/-- What a token of the text contributes to a template. -/
def item (text : List Char) (inside : Inside) (t : Token) : Except SyntaxError Item :=
  match t.kind with
  | .text => .ok (.node (.text (String.ofList t.value)))
  | .eof => .error ⟨.unexpectedToken "EOF", t.mark⟩
  | .directive =>
    if words t.value = ["else".toList] then .ok .otherwise
    else if words t.value = ["end".toList, "if".toList] then .ok .endIf
    else
      match readItem inside t (ofDirective text t) with
      | .ok item _ => .ok item
      | .error e _ => .error e

/-- Takes the tokens of the text up to the first end token, or all of them if there is none. -/
def addTokens (text : List Char) (inside : Inside) (d : Draft) : List Token → Except SyntaxError Draft
  | [] => .ok d
  | t :: ts =>
    if t.kind = .eof then .ok d
    else do
      let item ← item text inside t
      let d ← d.add t.mark item
      addTokens text inside d ts

/-- Compiles a range of a text where it stands. A block inside it is a shorter range of the same text, and is compiled
in the same way; one that were not shorter could not be a block and is refused. -/
def compileNodes (r : Region) (w : Window) : Except SyntaxError (List Node) := do
  let tokens ← w.tokenize r
  let d ← addTokens w.text (fun block =>
    if _shorter : block.left < w.left then compileNodes .block block
    else .error ⟨.unmatchedOpen, block.mark⟩) .empty tokens
  d.finish
termination_by w.left

end Window

/-- Compiles a range of a text in place: a template without a name. -/
def compileRange (w : Window) : Except SyntaxError Template := do
  return { nodes := ← w.compileNodes .block }

end Stencil
