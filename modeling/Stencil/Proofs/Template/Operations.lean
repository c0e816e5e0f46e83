import Stencil.Proofs.Template.Reading
import Stencil.Proofs.Template.Tiling

namespace Stencil

/-- What a cursor can be asked for. -/
inductive Operation where
  | advance (count : Nat)
  | skipBlock
  | skipBlanks
  | readWord
  | accept (expected : Char)
  | readBlock (what : String)
  | requireEnd (what : String)

/-- What an operation answers, if it does not fail. A block is answered as a cursor over its content. -/
inductive Answer where
  | nothing
  | found (there : Bool)
  | word (w : Word)
  | block (content : Cursor)

def Operation.perform : Operation → Scan Answer
  | .advance count => do
    modify (·.advance count)
    return .nothing
  | .skipBlock => return .block (← readBraced)
  | .skipBlanks => do
    Stencil.skipBlanks
    return .nothing
  | .readWord => return .word (← nextWord)
  | .accept expected => return .found (← Stencil.accept expected)
  | .readBlock what => return .block (← readColonBlock what)
  | .requireEnd what => do
    Stencil.requireEnd what
    return .nothing

/-- The cursor that a step leaves behind, also where it fails. -/
def cursorLeft {α : Type} : EStateM.Result SyntaxError Cursor α → Cursor
  | .ok _ after => after
  | .error _ stopped => stopped

/-- What comes of the operations, each done with the cursor that the one before it left behind. -/
def Cursor.history : Cursor → List Operation → List (EStateM.Result SyntaxError Cursor Answer)
  | _, [] => []
  | c, o :: os => o.perform c :: (cursorLeft (o.perform c)).history os

/-- What was answered by the time the cursor came to `reached` stands in the text at the place that the answer gives: a
word directly in front of the cursor, and the content of a block in front of its closing brace. -/
def Answer.Stands (text : List Char) (reached : Nat) : Answer → Prop
  | .nothing | .found _ => True
  | .word w => ∃ start, start + w.letters.length = reached ∧ w.letters = piece text start reached ∧
      w.mark = placeAt text start
  | .block content => content.stop + 1 = reached ∧ content.rest = piece text content.offset content.stop ∧
      content.mark = placeAt text content.offset

section Steps

variable {α β : Type} {text : List Char} {start stop : Nat} {c : Cursor}

theorem Cursor.Within.rest_eq (at_ : c.Within text) : c.rest = piece text c.offset c.stop := by
  have taken := List.prefix_iff_eq_take.mp at_.rest
  rw [piece, List.drop_take, Cursor.stop, Nat.add_sub_cancel_left]
  exact taken

/-- The cursor in front of the next character that is not blank. -/
def Cursor.pastBlanks (c : Cursor) : Cursor :=
  c.advance (c.rest.takeWhile isBlank).length

theorem accept_eq (expected : Char) (c : Cursor) :
    accept expected c = if c.pastBlanks.peek 0 = some expected then .ok true (c.pastBlanks.advance 1)
      else .ok false c.pastBlanks := by
  change (if c.pastBlanks.peek 0 = some expected then _ else _ : Scan Bool) c.pastBlanks = _
  split <;> rfl

/-- A step that, begun inside the stretch, leaves the cursor there and not in front of `start`, also where it fails;
an answer is as described together with the offset of the cursor behind it. -/
def Stays (text : List Char) (start stop : Nat) (Q : α → Nat → Prop) (x : Scan α) : Prop :=
  ∀ c, c.Between text start stop →
    (cursorLeft (x c)).Between text start stop ∧ ∀ a after, x c = .ok a after → Q a after.offset

namespace Stays

variable {Q : α → Nat → Prop} {R : β → Nat → Prop} {x : Scan α}

theorem of_ok (moves : ∀ c, c.Between text start stop →
      ∃ a after, x c = .ok a after ∧ after.Between text start stop ∧ Q a after.offset) :
    Stays text start stop Q x := by
  intro c at_
  obtain ⟨a, after, ran, inside, answer⟩ := moves c at_
  rw [ran]
  refine ⟨inside, fun a' after' same => ?_⟩
  cases same
  exact answer

theorem pure {a : α} (always : ∀ n, Q a n) : Stays text start stop Q (pure a) :=
  .of_ok fun c at_ => ⟨a, c, rfl, at_, always _⟩

theorem get : Stays text start stop (fun _ _ => True) (get : Scan Cursor) :=
  .of_ok fun c at_ => ⟨c, c, rfl, at_, trivial⟩

theorem throw {e : SyntaxError} : Stays text start stop Q (throw e : Scan α) := by
  intro c at_
  refine ⟨at_, fun a after same => ?_⟩
  cases same

theorem bind {f : α → Scan β} (first : Stays text start stop Q x) (second : ∀ a, Stays text start stop R (f a)) :
    Stays text start stop R (x >>= f) := by
  intro c at_
  obtain ⟨left, -⟩ := first c at_
  cases ran : x c with
  | ok a after =>
    rw [ran] at left
    rw [Scan.bind_of_ok ran]
    exact second a after left
  | error e stopped =>
    rw [ran] at left
    rw [Scan.bind_of_error ran]
    refine ⟨left, fun b after same => ?_⟩
    cases same

/-- Handing an answer on does not move the cursor. -/
theorem answer {f : α → β} (step : Stays text start stop (fun a n => R (f a) n) x) :
    Stays text start stop R (do return f (← x)) := by
  intro c at_
  obtain ⟨left, answered⟩ := step c at_
  cases ran : x c with
  | ok a after =>
    rw [ran] at left
    rw [Scan.bind_of_ok ran]
    refine ⟨left, fun b after' same => ?_⟩
    cases same
    exact answered a after ran
  | error e stopped =>
    rw [ran] at left
    rw [Scan.bind_of_error ran]
    refine ⟨left, fun b after same => ?_⟩
    cases same

theorem advance (n : Nat) : Stays text start stop (fun _ _ => True) (modify (·.advance n) : Scan PUnit) :=
  .of_ok fun c at_ => ⟨⟨⟩, c.advance n, rfl, at_.advance n, trivial⟩

theorem skipBlanks : Stays text start stop (fun _ _ => True) skipBlanks :=
  .of_ok fun c at_ => ⟨(), c.pastBlanks, rfl, at_.advance _, trivial⟩

/-- A word that is read ends where the cursor is left, and it is marked with the place where it begins. -/
theorem nextWord : Stays text start stop (fun w n => (Answer.word w).Stands text n) nextWord := by
  refine .of_ok fun c at_ => ?_
  let letters := c.pastBlanks.rest.takeWhile (!endsWord ·)
  have begins : c.pastBlanks.Between text start stop := at_.advance _
  have taken : c.pastBlanks.rest.take letters.length = letters :=
    (List.prefix_iff_eq_take.mp (List.takeWhile_prefix _)).symm
  have passed : (c.pastBlanks.advance letters.length).offset = c.pastBlanks.offset + letters.length := by
    rw [Cursor.advance, taken]
  have stands : letters = piece text c.pastBlanks.offset (c.pastBlanks.offset + letters.length) := by
    have cut := (begins.within.upTo letters.length).rest_eq
    rw [Cursor.stop, Cursor.upTo_rest, taken] at cut
    exact cut
  refine ⟨⟨letters, c.pastBlanks.mark⟩, c.pastBlanks.advance letters.length, rfl, begins.advance _,
    c.pastBlanks.offset, passed.symm, ?_, begins.within.mark_eq⟩
  rw [passed]
  exact stands

theorem accept (expected : Char) : Stays text start stop (fun _ _ => True) (accept expected) := by
  refine .of_ok fun c at_ => ?_
  have behind : c.pastBlanks.Between text start stop := at_.advance _
  rw [accept_eq]
  split
  · exact ⟨true, _, rfl, behind.advance 1, trivial⟩
  · exact ⟨false, _, rfl, behind, trivial⟩

/-- A block that is read ends in front of its closing brace, and it is marked with the place where its content begins.
Whether the cursor stood at a brace is of no account. -/
theorem readBraced : Stays text start stop (fun b n => (Answer.block b).Stands text n) readBraced := by
  intro c at_
  have inside := at_.advance 1
  cases found : closingBrace 0 (c.advance 1).rest with
  | none =>
    simp only [Stencil.readBraced, found]
    refine ⟨inside.advance _, fun b after same => ?_⟩
    cases same
  | some n =>
    simp only [Stencil.readBraced, found]
    refine ⟨inside.advance (n + 1), fun b after same => ?_⟩
    cases same
    have content := inside.within.upTo n
    have shorter := closingBrace_lt found
    refine ⟨?_, content.rest_eq, content.mark_eq⟩
    simp only [Cursor.stop, Cursor.advance, Cursor.upTo, List.length_take] at shorter ⊢
    omega

theorem readColonBlock (what : String) :
    Stays text start stop (fun b n => (Answer.block b).Stands text n) (readColonBlock what) := by
  refine .bind (.accept ':') fun found => ?_
  split
  · refine .bind .skipBlanks fun _ => .bind .get fun c => ?_
    split
    · exact .readBraced
    · exact .throw
  · exact .bind .get fun _ => .throw

theorem requireEnd (what : String) : Stays text start stop (fun _ _ => True) (requireEnd what) := by
  refine .bind .skipBlanks fun _ => .bind .get fun c => ?_
  split
  · exact .pure fun _ => trivial
  · exact .throw

/-- Whatever is asked of a cursor, it stays in its stretch, and the answer stands at the place given for it. -/
theorem perform (o : Operation) : Stays text start stop (fun a n => a.Stands text n) o.perform := by
  cases o with
  | advance count => exact .bind (.advance count) fun _ => .pure fun _ => trivial
  | skipBlock => exact .answer .readBraced
  | skipBlanks => exact .bind .skipBlanks fun _ => .pure fun _ => trivial
  | readWord => exact .answer .nextWord
  | accept expected => exact .answer (.accept expected)
  | readBlock what => exact .answer (.readColonBlock what)
  | requireEnd what => exact .bind (.requireEnd what) fun _ => .pure fun _ => trivial

end Stays

end Steps

section Runs

variable {text : List Char} {start stop : Nat} {c : Cursor}

theorem Cursor.length_history (c : Cursor) (os : List Operation) : (c.history os).length = os.length := by
  induction os generalizing c with
  | nil => rfl
  | cons o os ih => rw [history, List.length_cons, List.length_cons, ih]

/-- Every operation of a run begins where the one before it left the cursor, which is never further back. -/
theorem Cursor.Between.history (at_ : c.Between text start stop) (os : List Operation) :
    (c.offset :: (c.history os).map (cursorLeft · |>.offset)).Pairwise (· ≤ ·) ∧
      ∀ r ∈ c.history os, (cursorLeft r).Between text start stop ∧
        ∀ a after, r = .ok a after → a.Stands text after.offset := by
  induction os generalizing c with
  | nil => exact ⟨List.pairwise_singleton _ _, nofun⟩
  | cons o os ih =>
    obtain ⟨next, answered⟩ := Stays.perform o c at_
    obtain ⟨ordered, later⟩ := ih next
    -- The same step, begun in the stretch from the cursor on, tells that it does not go back.
    have here : c.Between text c.offset stop := ⟨at_.within, Nat.le_refl _, at_.ends⟩
    have further := (Stays.perform o c here).1.behind
    refine ⟨List.pairwise_cons.mpr ⟨fun n member => ?_, ordered⟩, fun r member => ?_⟩
    · have behind := (List.pairwise_cons.mp ordered).1
      rcases List.mem_cons.mp member with rfl | member
      · exact further
      · exact Nat.le_trans further (behind n member)
    · rcases List.mem_cons.mp member with rfl | member
      · exact ⟨next, answered⟩
      · exact later r member

/-- A cursor that is made over a range of a text, right about the place of its beginning, stays right whatever
operations follow, those that fail among them. It never goes back nor beyond the range, the place it carries is that of
its offset in the text, what is left to read is the text from there to the end of the range, and a word or the content
of a block that is answered stands at the place answered with it. -/
theorem Cursor.history_stands (ordered : start ≤ stop) (within : stop ≤ text.length) (os : List Operation) :
    let runs := (Cursor.slice text start stop (placeAt text start)).history os
    runs.length = os.length ∧ (start :: runs.map (cursorLeft · |>.offset)).Pairwise (· ≤ ·) ∧
      ∀ r ∈ runs, (cursorLeft r).offset ≤ stop ∧ (cursorLeft r).mark = placeAt text (cursorLeft r).offset ∧
        (cursorLeft r).rest = piece text (cursorLeft r).offset stop ∧
        ∀ a after, r = .ok a after → a.Stands text after.offset := by
  intro runs
  have spans := Cursor.Spans.slice ordered within (placeAt text start)
  have bound := Nat.le_trans ordered within
  have at_ : (Cursor.slice text start stop (placeAt text start)).Within text := by
    refine ⟨?_, bound, (past_take bound).symm⟩
    rw [Cursor.slice, List.drop_take]
    exact List.take_prefix _ _
  have here : (Cursor.slice text start stop (placeAt text start)).Between text start stop :=
    ⟨at_, Nat.le_refl _, spans.stop_eq⟩
  obtain ⟨rising, each⟩ := here.history os
  refine ⟨Cursor.length_history _ os, rising, fun r member => ?_⟩
  obtain ⟨left, answered⟩ := each r member
  have ends := left.ends
  have rest := left.within.rest_eq
  rw [ends] at rest
  rw [Cursor.stop] at ends
  exact ⟨by omega, left.within.mark_eq, rest, answered⟩

/-- A range on two lines that ends inside a block, with more of the text behind it. -/
def cutText : List Char :=
  "é\n map:\n\x7ba\\\x7d\x7d x \x7b\x7d".toList

/-- A word, a block that is asked for too late and fails, one that is read, too wide a step, and a block at the end. -/
def mixedOperations : List Operation :=
  [.readWord, .requireEnd "map", .readBlock "map", .readWord, .skipBlock, .advance 9, .readBlock "map"]

theorem Cursor.history_stands_of_cut :
    let runs := (Cursor.slice cutText 2 17 (placeAt cutText 2)).history mixedOperations
    2 ≤ 17 ∧ 17 ≤ cutText.length ∧
      runs.map (fun r => ((cursorLeft r).offset, (cursorLeft r).mark)) =
        [(6, ⟨2, 5⟩), (6, ⟨2, 5⟩), (13, ⟨3, 6⟩), (15, ⟨3, 8⟩), (17, ⟨3, 10⟩), (17, ⟨3, 10⟩), (17, ⟨3, 10⟩)] ∧
      (2 :: runs.map (cursorLeft · |>.offset)).Pairwise (· ≤ ·) ∧
      ∀ r ∈ runs, (cursorLeft r).offset ≤ 17 ∧ (cursorLeft r).mark = placeAt cutText (cursorLeft r).offset ∧
        (cursorLeft r).rest = piece cutText (cursorLeft r).offset 17 ∧
        ∀ a after, r = .ok a after → a.Stands cutText after.offset := by
  intro runs
  have ordered : 2 ≤ 17 := by decide
  have within : 17 ≤ cutText.length := by decide
  have states : runs.map (fun r => ((cursorLeft r).offset, (cursorLeft r).mark)) =
      [(6, ⟨2, 5⟩), (6, ⟨2, 5⟩), (13, ⟨3, 6⟩), (15, ⟨3, 8⟩), (17, ⟨3, 10⟩), (17, ⟨3, 10⟩), (17, ⟨3, 10⟩)] := by
    decide
  obtain ⟨-, rising, each⟩ := Cursor.history_stands ordered within mixedOperations
  exact ⟨ordered, within, states, rising, each⟩

end Runs

end Stencil
