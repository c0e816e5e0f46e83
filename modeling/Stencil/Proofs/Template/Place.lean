import Stencil.Template.Cursor
import Mathlib.Data.List.Induction

namespace Stencil

/-- The offset behind the last line feed in front of an offset; without one, that of the first
character. -/
def lineStart (text : List Char) (p : Nat) : Nat :=
  ((text.take p).reverse.dropWhile (· != '\n')).length

/-- The line and the column of an offset, counted from the beginning of the text. -/
def placeAt (text : List Char) (p : Nat) : Mark :=
  ⟨1 + (text.take p).count '\n', p - lineStart text p + 1⟩

/-- A place in the text, that behind its last character included. -/
def IsPlace (text : List Char) (m : Mark) : Prop :=
  ∃ p, p ≤ text.length ∧ m = placeAt text p

theorem past_origin (cs : List Char) :
    Mark.origin.past cs =
      ⟨1 + cs.count '\n', cs.length - (cs.reverse.dropWhile (· != '\n')).length + 1⟩ := by
  induction cs using List.reverseRecOn with
  | nil => rfl
  | append_singleton cs c ih =>
    rw [Mark.past_append, ih, Mark.past_cons, Mark.past_nil, List.reverse_concat]
    have shorter := (List.dropWhile_suffix (l := cs.reverse) (· != '\n')).length_le
    rw [List.length_reverse] at shorter
    by_cases feed : c = '\n'
    · simp [Mark.next, feed, Nat.add_assoc]
    · simp only [Mark.next, feed, if_false, List.count_append, List.count_singleton,
        List.dropWhile_cons, bne_iff_ne, ne_eq, not_false_eq_true, if_true, List.length_append,
        List.length_singleton, beq_iff_eq, Nat.add_zero, Mark.mk.injEq, true_and]
      omega

theorem past_take {text : List Char} {p : Nat} (within : p ≤ text.length) :
    Mark.origin.past (text.take p) = placeAt text p := by
  rw [past_origin, placeAt, lineStart, List.length_take, Nat.min_eq_left within]

/-- The cursor stands in the text: what is left of its stretch is found there at its offset, and its
place is the one that the text in front of the offset leads to. -/
structure Cursor.Within (c : Cursor) (text : List Char) : Prop where
  rest : c.rest <+: text.drop c.offset
  bound : c.offset ≤ text.length
  mark : c.mark = Mark.origin.past (text.take c.offset)

namespace Cursor.Within

variable {c : Cursor} {text : List Char}

theorem ofText (text : List Char) : (Cursor.ofText text).Within text :=
  ⟨List.prefix_rfl, Nat.zero_le _, rfl⟩

theorem stop_le (at_ : c.Within text) : c.stop ≤ text.length := by
  have short := at_.rest.length_le
  have bound := at_.bound
  rw [List.length_drop] at short
  rw [Cursor.stop]
  omega

theorem mark_eq (at_ : c.Within text) : c.mark = placeAt text c.offset :=
  at_.mark.trans (past_take at_.bound)

theorem isPlace (at_ : c.Within text) : IsPlace text c.mark :=
  ⟨c.offset, at_.bound, at_.mark_eq⟩

theorem advance (at_ : c.Within text) (n : Nat) : (c.advance n).Within text := by
  obtain ⟨later, split⟩ := at_.rest
  have bound := at_.stop_le
  rw [Cursor.stop] at bound
  have passed : (c.rest.take n).length ≤ c.rest.length := List.length_take_le' _ _
  have behind : text.drop (c.offset + (c.rest.take n).length) = c.rest.drop n ++ later := by
    rw [← List.drop_drop, ← split]
    by_cases inside : n ≤ c.rest.length
    · rw [List.length_take_of_le inside, List.drop_append_of_le_length inside]
    · rw [List.take_of_length_le (by omega), List.drop_left, List.drop_of_length_le (by omega),
        List.nil_append]
  have front : text.take (c.offset + (c.rest.take n).length) =
      text.take c.offset ++ c.rest.take n := by
    rw [List.take_add, ← split, List.take_append_of_le_length passed, List.length_take,
      ← List.take_eq_take_min]
  refine ⟨⟨later, behind.symm⟩, ?_, ?_⟩
  · simp only [Cursor.advance]
    omega
  · simp only [Cursor.advance]
    rw [front, Mark.past_append, at_.mark]

theorem upTo (at_ : c.Within text) (n : Nat) : (c.upTo n).Within text :=
  ⟨(List.take_prefix n _).trans at_.rest, at_.bound, at_.mark⟩

theorem getElem? (at_ : c.Within text) {d : Char} {ds : List Char} (next : c.rest = d :: ds) :
    text[c.offset]? = some d := by
  obtain ⟨later, split⟩ := at_.rest
  rw [next] at split
  rw [← List.head?_drop, ← split]
  rfl

end Cursor.Within

end Stencil
