import Stencil.Template.Cursor
import Stencil.Template.Escape

namespace Stencil

inductive Token.Kind where
  | text
  | directive
  | eof
deriving DecidableEq, Repr

/-- A piece of a source. For text the value is without escapes, and `offset` and `stop` are the ends
of what was read; for a directive the value is the raw content, `offset` and `stop` are its ends,
and the place is that of the opening delimiter. -/
structure Token where
  kind : Token.Kind
  value : List Char
  offset : Nat
  stop : Nat
  mark : Mark
deriving DecidableEq, Repr

namespace Token

/-- The token that stands at the end of every source. -/
def eof (c : Cursor) : Token := ⟨.eof, [], c.offset, c.offset, c.mark⟩

/-- The content of a directive, which starts one column behind its opening delimiter. -/
def content (t : Token) : Cursor := ⟨t.value, t.offset, ⟨t.mark.line, t.mark.column + 1⟩⟩

end Token

/-- Moves to the delimiter that closes the directive opened at `opened`. -/
def toDelimiter (opened : Mark) (c : Cursor) : EStateM.Result SyntaxError Cursor Unit :=
  match _left : c.rest with
  | [] => .error ⟨.unterminated, opened⟩ c
  | '$' :: _ => .ok () c
  | '\x7d' :: _ => .error ⟨.unmatchedClose, c.mark⟩ c
  | '\x7b' :: _ =>
    match _read : readBraced c with
    | .ok _ after => toDelimiter opened after
    | .error e stopped => .error e stopped
  | _ :: _ => toDelimiter opened (c.advance 1)
termination_by c.rest.length
decreasing_by
  · exact (readBraced_shorter _read).2
  · simp [_left]

theorem toDelimiter_shorter {opened : Mark} {c stopped : Cursor}
    (read : toDelimiter opened c = .ok () stopped) : stopped.rest.length ≤ c.rest.length := by
  fun_induction toDelimiter opened c with
  | case1 => cases read
  | case2 => cases read; exact Nat.le_refl _
  | case3 => cases read
  | case4 c _ _ _ after block ih =>
    exact Nat.le_trans (ih read) (Nat.le_of_lt (readBraced_shorter block).2)
  | case5 => cases read
  | case6 c _ _ _ _ _ _ ih =>
    exact Nat.le_trans (ih read) (by simp)

/-- Reads the directive whose opening delimiter is the next character. -/
def directiveToken : Scan Token := fun c =>
  let content := c.advance 1
  match toDelimiter c.mark content with
  | .error e stopped => .error e stopped
  | .ok _ stopped =>
    .ok ⟨.directive, content.rest.take (stopped.offset - content.offset), content.offset,
      stopped.offset, c.mark⟩ (stopped.advance 1)

def textToken (r : Region) : Scan Token := fun c =>
  let n := r.textLength c.rest
  .ok ⟨.text, r.unescape (c.rest.take n), c.offset, c.offset + n, c.mark⟩ (c.advance n)

/-- Reads the next token. At the end the same end token is read again and again. -/
def Token.next (r : Region) : Scan Token := fun c =>
  match c.rest with
  | [] => .ok (.eof c) c
  | '$' :: _ => directiveToken c
  | _ :: _ => textToken r c

/-- Every token but the last takes at least one character. -/
theorem Token.next_shorter {r : Region} {c after : Cursor} {t : Token} (more : c.rest ≠ [])
    (read : Token.next r c = .ok t after) : after.rest.length < c.rest.length := by
  unfold Token.next at read
  split at read
  · contradiction
  · rename_i cs left
    unfold directiveToken at read
    simp only at read
    split at read
    · cases read
    · rename_i stopped closed
      cases read
      have := toDelimiter_shorter closed
      simp only [Cursor.advance_rest, left, List.length_drop, List.length_cons] at *
      omega
  · rename_i d cs notDelimiter left
    cases read
    have := r.textLength_pos cs (fun same => notDelimiter (same ▸ rfl))
    simp only [Cursor.advance_rest, left, List.length_drop, List.length_cons]
    omega

/-- All tokens of a stretch of source, the last of which is the end. -/
def tokenize (r : Region) (c : Cursor) : Except SyntaxError (List Token) :=
  if _more : c.rest = [] then .ok [.eof c]
  else
    match _read : Token.next r c with
    | .error e _ => .error e
    | .ok t after => (tokenize r after).map (t :: ·)
termination_by c.rest.length
decreasing_by exact Token.next_shorter _more _read

end Stencil
