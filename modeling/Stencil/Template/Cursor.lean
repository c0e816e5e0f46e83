import Stencil.Template.Fault

namespace Stencil

/-- The unread part of a stretch of source text. -/
structure Cursor where
  rest : List Char
  offset : Nat
  mark : Mark
deriving DecidableEq, Repr

/-- A reading step: it moves a cursor, and leaves it where it stopped also when it fails. -/
abbrev Scan (α : Type) := EStateM SyntaxError Cursor α

namespace Scan

variable {α β : Type} {x y : Scan α} {c c' : Cursor}

theorem bind_of_ok {a : α} (read : x c = .ok a c') (f : α → Scan β) : (x >>= f) c = f a c' := by
  change EStateM.bind x f c = f a c'
  unfold EStateM.bind
  rw [read]

theorem bind_of_error {e : SyntaxError} (failed : x c = .error e c') (f : α → Scan β) :
    (x >>= f) c = .error e c' := by
  change EStateM.bind x f c = .error e c'
  unfold EStateM.bind
  rw [failed]

/-- Two steps in a row give an answer only if both of them do. -/
theorem bind_ok {f : α → Scan β} {b : β} (read : (x >>= f) c = .ok b c') :
    ∃ a mid, x c = .ok a mid ∧ f a mid = .ok b c' := by
  cases ran : x c with
  | ok a mid =>
    rw [bind_of_ok ran] at read
    exact ⟨a, mid, rfl, read⟩
  | error e mid =>
    rw [bind_of_error ran] at read
    cases read

/-- What a step does at a cursor is all that the steps behind it learn of it. -/
theorem bind_congr_at (same : x c = y c) (f : α → Scan β) : (x >>= f) c = (y >>= f) c := by
  cases ran : x c with
  | ok a mid => rw [bind_of_ok ran, bind_of_ok (same ▸ ran)]
  | error e mid => rw [bind_of_error ran, bind_of_error (same ▸ ran)]

end Scan

namespace Cursor

def ofText (text : List Char) : Cursor := ⟨text, 0, .origin⟩

/-- The stretch of `text` from `start` up to `stop`, whose first character stands at `mark`. -/
def slice (text : List Char) (start stop : Nat) (mark : Mark) : Cursor :=
  ⟨(text.take stop).drop start, start, mark⟩

def stop (c : Cursor) : Nat := c.offset + c.rest.length

def atEnd (c : Cursor) : Bool := c.rest.isEmpty

/-- The character `ahead` places further on, if the stretch reaches that far. -/
def peek (c : Cursor) (ahead : Nat) : Option Char := c.rest[ahead]?

/-- The cursor `n` characters further on, or at the end of the stretch if there are fewer. -/
def advance (c : Cursor) (n : Nat) : Cursor :=
  let passed := c.rest.take n
  ⟨c.rest.drop n, c.offset + passed.length, c.mark.past passed⟩

/-- The cursor behind all characters of its stretch. -/
def finish (c : Cursor) : Cursor := c.advance c.rest.length

/-- The same place in the stretch that ends after `n` more characters. -/
def upTo (c : Cursor) (n : Nat) : Cursor := { c with rest := c.rest.take n }

@[simp] theorem advance_rest (c : Cursor) (n : Nat) : (c.advance n).rest = c.rest.drop n := rfl

@[simp] theorem finish_rest (c : Cursor) : c.finish.rest = [] := by simp [finish]

@[simp] theorem upTo_rest (c : Cursor) (n : Nat) : (c.upTo n).rest = c.rest.take n := rfl

@[simp] theorem stop_advance (c : Cursor) (n : Nat) : (c.advance n).stop = c.stop := by
  simp only [stop, advance, List.length_drop, List.length_take]; omega

end Cursor

/-- How many characters stand before the brace that closes a block in which `depth` further blocks
are open. A backslash hides the character behind it, whatever that is. -/
def closingBrace (depth : Nat) : List Char → Option Nat
  | [] => none
  | '\\' :: _ :: cs => (closingBrace depth cs).map (· + 2)
  | '\x7b' :: cs => (closingBrace (depth + 1) cs).map (· + 1)
  | '\x7d' :: cs =>
    match depth with
    | 0 => some 0
    | depth + 1 => (closingBrace depth cs).map (· + 1)
  | _ :: cs => (closingBrace depth cs).map (· + 1)

theorem closingBrace_lt {depth : Nat} {cs : List Char} {n : Nat}
    (found : closingBrace depth cs = some n) : n < cs.length := by
  fun_induction closingBrace depth cs generalizing n with
  | case1 => cases found
  | case2 _ _ cs ih =>
    obtain ⟨m, inner, rfl⟩ := Option.map_eq_some_iff.mp found
    have := ih inner
    simp only [List.length_cons]; omega
  | case4 => cases found; simp
  | case3 _ cs ih | case5 cs _ ih | case6 _ _ cs _ _ _ ih =>
    obtain ⟨m, inner, rfl⟩ := Option.map_eq_some_iff.mp found
    have := ih inner
    simp only [List.length_cons]; omega

/-- Reads a block whose opening brace is the next character: the answer is a cursor over the
content, and reading goes on behind the closing brace. -/
def readBraced : Scan Cursor := fun c =>
  let inside := c.advance 1
  match closingBrace 0 inside.rest with
  | none => .error ⟨.unmatchedOpen, c.mark⟩ inside.finish
  | some n => .ok (inside.upTo n) (inside.advance (n + 1))

theorem readBraced_shorter {c content after : Cursor} (read : readBraced c = .ok content after) :
    content.rest.length < c.rest.length ∧ after.rest.length < c.rest.length := by
  unfold readBraced at read
  simp only at read
  split at read
  · cases read
  · rename_i n found
    cases read
    have := closingBrace_lt found
    simp only [Cursor.advance_rest, List.length_drop] at this
    simp only [Cursor.advance_rest, Cursor.upTo_rest, List.length_drop, List.length_take]
    omega

end Stencil
