namespace Stencil.Yaml

def isPrintable (c : Char) : Bool :=
  let n := c.toNat
  n == 9 || n == 10 || n == 13 || (32 ≤ n && n ≤ 126) || n == 0x85
    || (0xA0 ≤ n && n ≤ 0xFFFD) || 0x10000 ≤ n

/-- The mark that some writers put in front of a text. -/
def byteOrderMark : Char := Char.ofNat 0xFEFF

def isBreak (c : Char) : Bool :=
  c == '\n' || c.toNat == 0x85 || c.toNat == 0x2028 || c.toNat == 0x2029

/-- What a break stands for in a scalar: the separators of Unicode stand for themselves. -/
def breakValue (c : Char) : Char :=
  if c.toNat == 0x85 then '\n' else c

def isSpaceOrTab (c : Char) : Bool := c == ' ' || c == '\t'

/-- Whether a text is at its end or at a break, a space or a tab. This is where an indicator such as a
dash or a colon has to end. -/
def atGap : List Char → Bool
  | [] => true
  | c :: _ => isSpaceOrTab c || isBreak c

/-- Whether one of the marks between documents stands at the beginning of a text. -/
def atDocumentMark : List Char → Bool
  | '-' :: '-' :: '-' :: cs => atGap cs
  | '.' :: '.' :: '.' :: cs => atGap cs
  | _ => false

/-- The unread part of a document. The column is that within the line; only a line feed begins a new
line, and a byte order mark takes no column. -/
structure Spot where
  rest : List Char
  index : Nat := 0
  line : Nat := 0
  column : Nat := 0

namespace Spot

def step (s : Spot) : Spot :=
  match s.rest with
  | [] => s
  | c :: cs =>
    if c = '\n' then ⟨cs, s.index + 1, s.line + 1, 0⟩
    else if c = byteOrderMark then ⟨cs, s.index + 1, s.line, s.column⟩
    else ⟨cs, s.index + 1, s.line, s.column + 1⟩

def forward (s : Spot) : Nat → Spot
  | 0 => s
  | n + 1 => s.step.forward n

end Spot

/-- What stands in front of the next thing of interest: how many characters, and whether there is a
break among them. -/
structure Gap where
  length : Nat
  broken : Bool

def Gap.after (c : Char) (g : Gap) : Gap := ⟨g.length + 1, isBreak c || g.broken⟩

/-- The gap that blanks, breaks and comments make. Tabs are blanks only inside brackets; a comment
goes on to the next break. -/
def Gap.of (inBrackets : Bool) : List Char → Gap
  | [] => ⟨0, false⟩
  | c :: cs =>
    if c = '#' then inComment cs
    else if c = ' ' ∨ isBreak c ∨ (inBrackets ∧ c = '\t') then (of inBrackets cs).after c
    else ⟨0, false⟩
where
  /-- The gap from within a comment, whose first character counts too. -/
  inComment : List Char → Gap
    | [] => ⟨1, false⟩
    | c :: cs => (if isBreak c then (of inBrackets cs).after c else inComment cs).after '#'

end Stencil.Yaml
