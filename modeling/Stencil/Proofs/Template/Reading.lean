import Stencil.Proofs.Template.Place
import Stencil.Template.Directive

namespace Stencil

variable {α β : Type} {text : List Char} {start stop : Nat}

/-- The cursor stands in the text, at `start` or behind it, and its stretch ends at `stop`. -/
structure Cursor.Between (text : List Char) (start stop : Nat) (c : Cursor) : Prop where
  within : c.Within text
  behind : start ≤ c.offset
  ends : c.stop = stop

theorem Cursor.Between.advance {c : Cursor} (at_ : c.Between text start stop) (n : Nat) :
    (c.advance n).Between text start stop :=
  ⟨at_.within.advance n, Nat.le_trans at_.behind (Nat.le_add_right _ _),
    (c.stop_advance n).trans at_.ends⟩

/-- The answer is as described, or the fault stands at a place of the text. -/
def Settles (text : List Char) (Q : α → Prop) : Except SyntaxError α → Prop
  | .ok a => Q a
  | .error e => IsPlace text e.mark

theorem Settles.bind {Q : α → Prop} {R : β → Prop} {r : Except SyntaxError α}
    {f : α → Except SyntaxError β} (first : Settles text Q r)
    (second : ∀ a, Q a → Settles text R (f a)) : Settles text R (r >>= f) := by
  cases r with
  | error e => exact first
  | ok a => exact second a first

/-- The answer and the cursor behind it are as described, or the fault stands at a place of the
text. -/
def Lands (text : List Char) (Q : α → Cursor → Prop) : EStateM.Result SyntaxError Cursor α → Prop
  | .ok a after => Q a after
  | .error e _ => IsPlace text e.mark

/-- A step that, begun inside the stretch, ends there with an answer as described, or else fails at
a place of the text. -/
def Reads (text : List Char) (start stop : Nat) (Q : α → Prop) (x : Scan α) : Prop :=
  ∀ c, c.Between text start stop → Lands text (fun a after => after.Between text start stop ∧ Q a) (x c)

namespace Reads

theorem pure {Q : α → Prop} {a : α} (as : Q a) : Reads text start stop Q (pure a) :=
  fun _ at_ => ⟨at_, as⟩

theorem bind {Q : α → Prop} {R : β → Prop} {x : Scan α} {f : α → Scan β}
    (first : Reads text start stop Q x) (second : ∀ a, Q a → Reads text start stop R (f a)) :
    Reads text start stop R (x >>= f) := by
  intro c at_
  have step := first c at_
  cases ran : x c with
  | ok a after =>
    rw [ran] at step
    rw [Scan.bind_of_ok ran]
    exact second a step.2 after step.1
  | error e after =>
    rw [ran] at step
    rw [Scan.bind_of_error ran]
    exact step

theorem weaken {Q R : α → Prop} {x : Scan α} (reads : Reads text start stop Q x)
    (weaker : ∀ a, Q a → R a) : Reads text start stop R x := by
  intro c at_
  have step := reads c at_
  cases ran : x c with
  | ok a after =>
    rw [ran] at step
    exact ⟨step.1, weaker a step.2⟩
  | error e after =>
    rw [ran] at step
    exact step

theorem throw {Q : α → Prop} {e : SyntaxError} (known : IsPlace text e.mark) :
    Reads text start stop Q (throw e : Scan α) :=
  fun _ _ => known

theorem get : Reads text start stop (Cursor.Between text start stop) (get : Scan Cursor) :=
  fun _ at_ => ⟨at_, at_⟩

theorem set {c : Cursor} (at_ : c.Between text start stop) :
    Reads text start stop (fun _ => True) (set c : Scan PUnit) :=
  fun _ _ => ⟨at_, trivial⟩

theorem lift {Q : α → Prop} {r : Except SyntaxError α} (settles : Settles text Q r) :
    Reads text start stop Q (liftExcept r : Scan α) := by
  intro c at_
  cases r with
  | error e => exact settles
  | ok a => exact ⟨at_, settles⟩

theorem skipBlanks : Reads text start stop (fun _ => True) skipBlanks :=
  fun _ at_ => ⟨at_.advance _, trivial⟩

theorem nextWord : Reads text start stop (fun w => IsPlace text w.mark) nextWord :=
  .bind .skipBlanks fun _ _ => .bind .get fun _ at_ =>
    .bind (.set (at_.advance _)) fun _ _ => .pure at_.within.isPlace

theorem accept (expected : Char) : Reads text start stop (fun _ => True) (accept expected) := by
  refine .bind .skipBlanks fun _ _ => .bind .get fun c at_ => ?_
  split
  · exact .bind (.set (at_.advance 1)) fun _ _ => .pure trivial
  · exact .pure trivial

/-- The content of a block lies inside the stretch that the block stands in. -/
def Inner (text : List Char) (start stop : Nat) (block : Cursor) : Prop :=
  block.Within text ∧ start ≤ block.offset ∧ block.stop ≤ stop

theorem readBraced : Reads text start stop (Inner text start stop) readBraced := by
  intro c at_
  have inside := at_.advance 1
  cases found : closingBrace 0 (c.advance 1).rest with
  | none =>
    simp only [Stencil.readBraced, found]
    exact at_.within.isPlace
  | some n =>
    simp only [Stencil.readBraced, found]
    refine ⟨inside.advance (n + 1), inside.within.upTo n, inside.behind, ?_⟩
    have ends := inside.ends
    simp only [Cursor.stop, Cursor.upTo, List.length_take] at ends ⊢
    omega

theorem readColonBlock (what : String) :
    Reads text start stop (Inner text start stop) (readColonBlock what) := by
  refine .bind (.accept ':') fun found _ => ?_
  split
  · refine .bind .skipBlanks fun _ _ => .bind .get fun c at_ => ?_
    split
    · exact .readBraced
    · exact .throw at_.within.isPlace
  · exact .bind .get fun c at_ => .throw at_.within.isPlace

theorem requireEnd (what : String) : Reads text start stop (fun _ => True) (requireEnd what) := by
  refine .bind .skipBlanks fun _ _ => .bind .get fun c at_ => ?_
  split
  · exact .pure trivial
  · exact .throw at_.within.isPlace

theorem segment_mark {w : Word} {s : List Char} {e : SyntaxError} (failed : w.segment s = .error e) :
    e.mark = w.mark := by
  unfold Word.segment at failed
  split at failed
  · cases failed
    rfl
  · split at failed
    · cases failed
    · cases failed
      rfl

/-- A word that spells no path is reported where the word begins. -/
theorem path_settles {w : Word} (known : IsPlace text w.mark) :
    Settles text (fun _ => True) w.path := by
  unfold Word.path
  generalize segments w.letters = parts
  induction parts with
  | nil => trivial
  | cons s ss ih =>
    rw [List.mapM_cons]
    have first : Settles text (fun _ => True) (w.segment s) := by
      cases read : w.segment s with
      | ok name => trivial
      | error e =>
        change IsPlace text e.mark
        rw [segment_mark read]
        exact known
    exact first.bind fun _ _ => ih.bind fun _ _ => trivial

theorem readPath (what : String) {mark : Mark} (known : IsPlace text mark) :
    Reads text start stop (fun _ => True) (readPath what mark) := by
  refine .bind .nextWord fun w here => ?_
  split
  · exact .throw known
  · exact .lift (path_settles here)

theorem readName (what : String) {mark : Mark} (known : IsPlace text mark) :
    Reads text start stop (fun _ => True) (readName what mark) := by
  refine .bind .nextWord fun w here => ?_
  split
  · exact .throw known
  · exact .pure trivial

theorem readLiteral (what : String) : Reads text start stop (fun _ => True) (readLiteral what) :=
  .bind (.readColonBlock what) fun _ _ => .pure trivial

end Reads

end Stencil
