import Stencil.Proofs.Template.Respacing
import Mathlib.Data.List.TakeWhile

namespace Stencil

variable {α β γ δ : Type}

section Blocks

variable {front inner : List Char} {n k : Nat}

/-- Inside a block no closing brace is found any more. -/
theorem closingBrace_take {depth : Nat} {cs : List Char} (found : closingBrace depth cs = some n) (within : k ≤ n) :
    closingBrace depth (cs.take k ++ ['$']) = none := by
  have short := closingBrace_lt found
  have length : (cs.take k).length = k := List.length_take_of_le (by omega)
  by_contra closed
  obtain ⟨m, early⟩ := Option.ne_none_iff_exists'.mp closed
  obtain ⟨passes, rest, stops⟩ := Transparent.of_closingBrace early
  have before : m < k := by
    have ends := closingBrace_lt early
    rw [List.length_append, length, List.length_singleton] at ends
    refine Nat.lt_of_le_of_ne (Nat.le_of_lt_succ ends) ?_
    rintro rfl
    rw [List.drop_left' length] at stops
    cases stops
  -- What closes the block there would close it in the whole text.
  have brace : cs[m]? = some '\x7d' := by
    have first := congrArg List.head? stops
    rwa [List.head?_drop, List.getElem?_append_left (by omega), List.getElem?_take_of_lt before] at first
  obtain ⟨inside, brace⟩ := List.getElem?_eq_some_iff.mp brace
  have front : (cs.take k ++ ['$']).take m = cs.take m := by
    rw [List.take_append_of_le_length (by omega), List.take_take, Nat.min_eq_left (Nat.le_of_lt before)]
  have earlier := passes 0 (cs.drop m)
  rw [front, List.take_append_drop, Nat.add_zero, found, List.drop_eq_getElem_cons inside, brace, closingBrace,
    Option.map_some, Option.some.injEq] at earlier
  omega

/-- The search for a closing delimiter does not end inside a block. -/
theorem not_crossable (passed : Crossable front) (found : closingBrace 0 inner = some n) (within : k ≤ n) :
    ¬Crossable (front ++ '\x7b' :: inner.take k) := by
  intro crossed
  let c : Cursor := .ofText (front ++ '\x7b' :: (inner.take k ++ ['$']))
  have whole : c.rest = (front ++ '\x7b' :: inner.take k) ++ ['$'] := by simp [c, Cursor.ofText]
  have opens : (c.advance front.length).rest = '\x7b' :: (inner.take k ++ ['$']) := by simp [c, Cursor.ofText]
  have ends : (c.advance (front ++ '\x7b' :: inner.take k).length).rest = ['$'] := by
    rw [Cursor.advance_rest, whole, List.drop_left]
  have unread : readBraced (c.advance front.length) =
      .error ⟨.unmatchedOpen, (c.advance front.length).mark⟩ ((c.advance front.length).advance 1).finish := by
    have content : ((c.advance front.length).advance 1).rest = inner.take k ++ ['$'] := by
      rw [Cursor.advance_rest, opens]
      rfl
    simp only [readBraced, content, closingBrace_take found within]
  have failed := passed .origin c _ rfl
  rw [toDelimiter_unmatched opens unread, crossed .origin c _ whole, toDelimiter_stop ends] at failed
  cases failed

end Blocks

section Steps

/-- Begun at related cursors, the second step gives an answer if the first one does, with answers and cursors behind
them as described. -/
def Follows (K : Cursor → Cursor → Prop) (Q : α → Cursor → β → Cursor → Prop) (x : Scan α) (y : Scan β) : Prop :=
  ∀ c d a after, K c d → x c = .ok a after → ∃ b after', y d = .ok b after' ∧ Q a after b after'

namespace Follows

variable {K K' : Cursor → Cursor → Prop} {Q : α → Cursor → β → Cursor → Prop} {x : Scan α} {y : Scan β}

theorem pure {a : α} {b : β} (as : ∀ c d, K c d → Q a c b d) : Follows K Q (Pure.pure a) (Pure.pure b) := by
  rintro c d _ _ related ⟨⟩
  exact ⟨b, d, rfl, as c d related⟩

theorem throw {e : SyntaxError} : Follows K Q (MonadExcept.throw e : Scan α) y :=
  nofun

/-- The rest of a reading may rely on what the first step answered. -/
theorem bind {R : γ → Cursor → δ → Cursor → Prop} {f : α → Scan γ} {g : β → Scan δ} (first : Follows K Q x y)
    (second : ∀ a b, (∃ c d, Q a c b d) → Follows (fun c d => Q a c b d) R (f a) (g b)) :
    Follows K R (x >>= f) (y >>= g) := by
  intro c d e last related read
  obtain ⟨a, mid, ran, rest⟩ := Scan.bind_ok read
  obtain ⟨b, mid', ranToo, as⟩ := first c d a mid related ran
  obtain ⟨e', last', restToo, es⟩ := second a b ⟨mid, mid', as⟩ mid mid' e last as rest
  refine ⟨e', last', ?_, es⟩
  rw [Scan.bind_of_ok ranToo, restToo]

theorem get : Follows K (fun a c b d => a = c ∧ b = d ∧ K c d) MonadState.get MonadState.get := by
  rintro c d _ _ related ⟨⟩
  exact ⟨d, d, rfl, rfl, rfl, related⟩

theorem lift {r : Except SyntaxError α} {s : Except SyntaxError β} {R : α → β → Prop}
    (follows : ∀ a, r = .ok a → ∃ b, s = .ok b ∧ R a b) :
    Follows K (fun a c b d => R a b ∧ K c d) (liftExcept r) (liftExcept s) := by
  intro c d a after related read
  obtain ⟨answer, rfl⟩ := Scan.lift_ok read
  obtain ⟨b, rfl, as⟩ := follows a answer
  exact ⟨b, d, rfl, as, related⟩

theorem pre (follows : Follows K Q x y) (stronger : ∀ c d, K' c d → K c d) : Follows K' Q x y :=
  fun c d a after related => follows c d a after (stronger c d related)

/-- What is known of the cursor in front of a step says what the step did. -/
theorem knowing {G : Cursor → Prop} (follows : Follows K Q x y) :
    Follows (fun c d => G c ∧ K c d) (fun a c' b d' => (∃ c, G c ∧ x c = .ok a c') ∧ Q a c' b d') x y := by
  rintro c d a after ⟨known, related⟩ read
  obtain ⟨b, after', readToo, as⟩ := follows c d a after related read
  exact ⟨b, after', readToo, ⟨c, known, read⟩, as⟩

theorem set {a b : Cursor} (as : ∀ c d, K c d → K' a b) :
    Follows K (fun _ c _ d => K' c d) (MonadStateOf.set a : Scan PUnit) (MonadStateOf.set b : Scan PUnit) := by
  rintro c d _ _ related ⟨⟩
  exact ⟨⟨⟩, b, rfl, as c d related⟩

end Follows

end Steps

section Reading

/-- The first cursor has got as far as this in a directive, outside its blocks and not directly behind a word, and the
second one is over the same text up to other blanks. Outside the blocks `P` never allows any blanks behind a word. -/
structure Cursor.Along (t : Token) (P : Nat → Bool → Prop) (c d : Cursor) : Prop where
  passed : ∃ front, t.value = front ++ c.rest ∧ c.offset = t.offset + front.length ∧ Crossable front
  respaced : Stencil.Respaced P false c.offset c.rest d.rest
  strict : ∀ i, t.offset ≤ i → i < t.offset + t.value.length → Crossable (t.value.take (i - t.offset)) → ¬P i true

/-- The first cursor is over a block of the directive, and the second one over the same text up to other blanks. -/
structure Cursor.Blocks (t : Token) (P : Nat → Bool → Prop) (b b' : Cursor) : Prop where
  respaced : Stencil.Respaced P false b.offset b.rest b'.rest
  shorter : b.rest.length < t.value.length
  inside : ∀ i, b.offset ≤ i → i < b.offset + b.rest.length →
    t.offset ≤ i ∧ i < t.offset + t.value.length ∧ ¬Crossable (t.value.take (i - t.offset))

variable {t : Token} {P : Nat → Bool → Prop} {c d : Cursor}

theorem Cursor.Along.begin {u : Token} (respaced : Stencil.Respaced P false t.offset t.value u.value)
    (strict : ∀ i, t.offset ≤ i → i < t.offset + t.value.length → Crossable (t.value.take (i - t.offset)) →
      ¬P i true) : t.content.Along t P u.content :=
  ⟨⟨[], rfl, rfl, .of_chars [] (List.forall_mem_nil _)⟩, respaced, strict⟩

theorem Cursor.Along.advance {k : Nat} (along : c.Along t P d) (within : k ≤ c.rest.length)
    (crossed : Crossable (c.rest.take k))
    (rest : Stencil.Respaced P false (c.offset + k) (c.rest.drop k) (d.rest.drop k)) :
    (c.advance k).Along t P (d.advance k) := by
  obtain ⟨⟨front, value, offset, passed⟩, -, strict⟩ := along
  have length : (c.rest.take k).length = k := List.length_take_of_le within
  refine ⟨⟨front ++ c.rest.take k, ?_, ?_, passed.append crossed⟩, ?_, strict⟩
  · rw [List.append_assoc, Cursor.advance_rest, List.take_append_drop, value]
  · rw [List.length_append, Cursor.advance, length, offset, Nat.add_assoc]
  · rw [Cursor.advance, length]
    exact rest

theorem take_length_takeWhile (p : Char → Bool) (cs : List Char) :
    cs.take (cs.takeWhile p).length = cs.takeWhile p :=
  (List.prefix_iff_eq_take.mp (List.takeWhile_prefix p)).symm

theorem peek_eq_head? (c : Cursor) : c.peek 0 = c.rest.head? := by
  rw [Cursor.peek, List.head?_eq_getElem?]

/-- A character that is no blank is the next one for both cursors or for none. -/
theorem Cursor.Along.peek {b : Char} (along : c.Along t P d) (bright : isBlank b = false) :
    d.peek 0 = some b ↔ c.peek 0 = some b := by
  have alike := along.respaced.alike
  rw [peek_eq_head?, peek_eq_head?]
  generalize c.rest = cs at alike ⊢
  generalize d.rest = ds at alike ⊢
  cases alike with
  | nil => rfl
  | cons like => simp [like.eq_iff bright]

theorem Cursor.Along.atEnd (along : c.Along t P d) : d.atEnd = c.atEnd := by
  have length := along.respaced.length_eq
  rw [Bool.eq_iff_iff, Cursor.atEnd, Cursor.atEnd, List.isEmpty_iff_length_eq_zero, List.isEmpty_iff_length_eq_zero,
    length]

theorem crossable_of_letters {cs : List Char} (letters : ∀ b ∈ cs, (!endsWord b) = true) : Crossable cs := by
  refine .of_chars cs fun b member => ?_
  have inWord := letters b member
  refine ⟨?_, ?_, ?_⟩ <;> rintro rfl <;> cases inWord

/-- Up to the end of the next word none but blanks that end it are allowed behind it. -/
theorem Cursor.Along.strict_word {k : Nat} (along : c.Along t P d)
    (within : k ≤ (c.rest.takeWhile (!endsWord ·)).length) (inside : k < c.rest.length) : ¬P (c.offset + k) true := by
  obtain ⟨⟨front, value, offset, passed⟩, -, strict⟩ := along
  have cut : t.value.take (t.offset + (front.length + k) - t.offset) = front ++ c.rest.take k := by
    rw [Nat.add_sub_cancel_left, value, List.take_length_add_append]
  rw [offset, Nat.add_assoc]
  refine strict _ (by omega) ?_ (cut ▸ passed.append (crossable_of_letters fun b member => ?_))
  · rw [value, List.length_append]
    omega
  · have early := (List.take_prefix_take_left within).subset member
    rw [take_length_takeWhile] at early
    exact List.mem_takeWhile_imp (p := (!endsWord ·)) early

/-- A path does not depend on the place of the word that spells it. -/
theorem Word.path_respelled (w : Word) {w' : Word} (letters : w.letters = w'.letters) (p : Path)
    (spelled : w.path = .ok p) : ∃ q, w'.path = .ok q ∧ p = q := by
  have alike := Abreast.path (M := fun _ _ => True) letters trivial
  rw [spelled] at alike
  exact alike.of_ok

/-- A character that ends a word and is no blank is passed by both cursors. -/
theorem Cursor.Along.head {b : Char} (along : c.Along t P d) (next : c.peek 0 = some b) (ends : endsWord b)
    (bright : isBlank b = false) :
    ∃ cs ds, c.rest = b :: cs ∧ d.rest = b :: ds ∧ Stencil.Respaced P false (c.offset + 1) cs ds := by
  rw [peek_eq_head?] at next
  obtain ⟨cs, left⟩ := List.head?_eq_some_iff.mp next
  have texts := along.respaced
  rw [left] at texts
  obtain ⟨ds, leftToo, rest⟩ := texts.of_cons bright
  rw [goesOn_eq_false ends] at rest
  exact ⟨cs, ds, left, leftToo, rest⟩

section Braces

variable {n : Nat} (along : c.Along t P d) (opens : c.peek 0 = some '\x7b')
  (found : closingBrace 0 (c.advance 1).rest = some n)

include along opens found

theorem Cursor.Along.block : ((c.advance 1).upTo n).Blocks t P ((d.advance 1).upTo n) := by
  obtain ⟨inner, inner', left, leftToo, rest⟩ := along.head opens (by decide) (by decide)
  obtain ⟨⟨front, value, offset, passed⟩, -⟩ := along
  have begins : (c.advance 1).offset = c.offset + 1 := by simp [Cursor.advance, left]
  have content : (c.advance 1).rest = inner := by simp [left]
  rw [content] at found
  rw [left] at value
  have within := closingBrace_lt found
  have length : (inner.take n).length = n := List.length_take_of_le (Nat.le_of_lt within)
  have whole : t.value.length = front.length + (inner.length + 1) := by
    rw [value, List.length_append, List.length_cons]
  refine ⟨?_, ?_, fun i low high => ?_⟩
  · simpa [Cursor.upTo, Cursor.advance, left, leftToo] using rest.take n
  · rw [Cursor.upTo_rest, content, length, whole]
    omega
  · change (c.advance 1).offset ≤ i at low
    change i < (c.advance 1).offset + ((c.advance 1).rest.take n).length at high
    rw [content, length] at high
    obtain ⟨k, rfl⟩ : ∃ k, i = t.offset + (front.length + 1 + k) := ⟨i - c.offset - 1, by omega⟩
    have cut : t.value.take (t.offset + (front.length + 1 + k) - t.offset) = front ++ '\x7b' :: inner.take k := by
      rw [Nat.add_sub_cancel_left, value, Nat.add_assoc, List.take_length_add_append, Nat.add_comm 1 k,
        List.take_succ_cons]
    refine ⟨by omega, by omega, ?_⟩
    rw [cut]
    exact not_crossable passed found (by omega)

theorem Cursor.Along.behindBlock : ((c.advance 1).advance (n + 1)).Along t P ((d.advance 1).advance (n + 1)) := by
  obtain ⟨inner, inner', left, leftToo, rest⟩ := along.head opens (by decide) (by decide)
  obtain ⟨cs, ends⟩ := (Transparent.of_closingBrace found).2
  have content : (c.advance 1).rest = inner := by simp [left]
  rw [content] at found ends
  have within := closingBrace_lt found
  have block : c.rest.take (n + 1 + 1) = braced (inner.take n) := by
    rw [left, List.take_succ_cons, List.take_add, ends]
    rfl
  obtain ⟨word, behind⟩ := rest.drop n
  rw [ends] at behind
  obtain ⟨ds, endsToo, last⟩ := behind.of_cons (by decide)
  rw [goesOn_eq_false (by decide)] at last
  have first : c.rest.drop (n + 1 + 1) = cs := by
    rw [left, List.drop_succ_cons, ← List.drop_drop, ends]
    rfl
  have second : d.rest.drop (n + 1 + 1) = ds := by
    rw [leftToo, List.drop_succ_cons, ← List.drop_drop, endsToo]
    rfl
  have place : c.offset + (n + 1 + 1) = c.offset + 1 + n + 1 := by omega
  rw [Cursor.advance_advance, Cursor.advance_advance, Nat.add_comm 1]
  refine along.advance ?_ ?_ ?_
  · rw [left, List.length_cons]
    omega
  · rw [block]
    exact .inBraces (.take_closingBrace found)
  · rwa [first, second, place]

end Braces

namespace Follows

theorem skipBlanks :
    Follows (Cursor.Along t P) (fun _ c _ d => c.Along t P d ∧ ∀ b ∈ c.rest.head?, isBlank b = false) skipBlanks
      skipBlanks := by
  rintro c d _ _ along ⟨⟩
  obtain ⟨length, rest⟩ := along.respaced.blanks rfl
  refine ⟨⟨⟩, d.advance (d.rest.takeWhile isBlank).length, rfl, ?_, ?_⟩
  · rw [length]
    refine along.advance (List.takeWhile_prefix _).length_le ?_ rest
    rw [take_length_takeWhile]
    refine .of_chars _ fun b member => ?_
    have blank : isBlank b = true := List.mem_takeWhile_imp member
    refine ⟨?_, ?_, ?_⟩ <;> rintro rfl <;> cases blank
  · intro b first
    rw [Cursor.advance_rest, drop_takeWhile] at first
    have stops := List.head?_dropWhile_not isBlank c.rest
    rw [first] at stops
    simpa using stops

theorem nextWord :
    Follows (Cursor.Along t P) (fun w c w' d => w.letters = w'.letters ∧ c.Along t P d) nextWord nextWord := by
  refine .bind .skipBlanks fun _ _ _ => .bind .get fun c d => ?_
  rintro ⟨_, _, rfl, rfl, along, bright⟩
  obtain ⟨letters, rest⟩ := along.respaced.letters (.inr bright) fun _ => along.strict_word
  have behind : (c.advance (c.rest.takeWhile (!endsWord ·)).length).Along t P
      (d.advance (d.rest.takeWhile (!endsWord ·)).length) := by
    rw [letters]
    refine along.advance (List.takeWhile_prefix _).length_le ?_ rest
    rw [take_length_takeWhile]
    exact crossable_of_letters fun b => List.mem_takeWhile_imp (p := (!endsWord ·))
  exact .bind (.set fun _ _ _ => behind) fun _ _ _ => .pure fun _ _ reached => ⟨letters.symm, reached⟩

theorem acceptColon :
    Follows (Cursor.Along t P) (fun b c b' d => b = b' ∧ c.Along t P d) (accept ':') (accept ':') := by
  refine .bind .skipBlanks fun _ _ _ => .bind .get fun c d => ?_
  rintro ⟨_, _, rfl, rfl, along, -⟩
  have same := along.peek (b := ':') (by decide)
  by_cases colon : c.peek 0 = some ':'
  · rw [if_pos colon, if_pos (same.mpr colon)]
    have behind : (c.advance 1).Along t P (d.advance 1) := by
      obtain ⟨cs, ds, left, leftToo, rest⟩ := along.head colon (by decide) (by decide)
      refine along.advance (by simp [left]) (.of_chars _ (by simp [left])) ?_
      simpa [left, leftToo] using rest
    exact .bind (.set fun _ _ _ => behind) fun _ _ _ => .pure fun _ _ reached => ⟨rfl, reached⟩
  · rw [if_neg colon, if_neg (mt same.mp colon)]
    exact .pure fun _ _ reached => ⟨rfl, reached.2.2.1⟩

theorem readBraced :
    Follows (fun c d => c.Along t P d ∧ c.peek 0 = some '\x7b') (fun b c b' d => b.Blocks t P b' ∧ c.Along t P d)
      readBraced readBraced := by
  rintro c d block after ⟨along, opens⟩ read
  obtain ⟨n, found, rfl, rfl, readToo⟩ := readBraced_respaced along.respaced.alike read
  exact ⟨_, _, readToo, along.block opens found, along.behindBlock opens found⟩

theorem readColonBlock (what : String) :
    Follows (Cursor.Along t P) (fun b c b' d => b.Blocks t P b' ∧ c.Along t P d) (readColonBlock what)
      (readColonBlock what) := by
  refine .bind .acceptColon fun found _ ⟨_, _, same, _⟩ => ?_
  subst same
  cases found with
  | false => exact .bind .get fun _ _ _ => .throw
  | true =>
    refine .bind (.pre .skipBlanks fun _ _ reached => reached.2) fun _ _ _ => .bind .get fun c d => ?_
    rintro ⟨_, _, rfl, rfl, along, -⟩
    by_cases opens : c.peek 0 = some '\x7b'
    · rw [if_pos opens, if_pos ((along.peek (by decide)).mpr opens)]
      refine .pre .readBraced ?_
      rintro _ _ ⟨rfl, rfl, -⟩
      exact ⟨along, opens⟩
    · rw [if_neg opens]
      exact .throw

theorem requireEnd (what : String) :
    Follows (Cursor.Along t P) (fun _ c _ d => c.Along t P d) (requireEnd what) (requireEnd what) := by
  refine .bind .skipBlanks fun _ _ _ => .bind .get fun c d => ?_
  rintro ⟨_, _, rfl, rfl, along, -⟩
  rw [along.atEnd]
  split
  · exact .pure fun _ _ reached => reached.2.2.1
  · exact .throw

theorem readPath (what : String) (m m' : Mark) :
    Follows (Cursor.Along t P) (fun p c q d => p = q ∧ c.Along t P d) (readPath what m) (readPath what m') := by
  refine .bind .nextWord fun w w' ⟨_, _, letters, _⟩ => ?_
  rw [← letters]
  split
  · exact .throw
  · exact .pre (.lift (w.path_respelled letters)) fun _ _ reached => reached.2

theorem readName (what : String) (m m' : Mark) :
    Follows (Cursor.Along t P) (fun a c b d => a = b ∧ c.Along t P d) (readName what m) (readName what m') := by
  refine .bind .nextWord fun w w' ⟨_, _, letters, _⟩ => ?_
  rw [Word.text, Word.text, ← letters]
  split
  · exact .throw
  · exact .pure fun _ _ reached => ⟨rfl, reached.2⟩

/-- A literal is the same if no blank inside a block may be changed. -/
theorem readLiteral (what : String) (literal : ∀ i free, t.offset ≤ i → i < t.offset + t.value.length → P i free →
    Crossable (t.value.take (i - t.offset))) :
    Follows (Cursor.Along t P) (fun a c b d => a = b ∧ c.Along t P d) (readLiteral what) (readLiteral what) := by
  refine .bind (.readColonBlock what) fun b b' ⟨_, _, block, _⟩ => ?_
  have same : b.rest = b'.rest := by
    refine block.respaced.eq fun i free low high allowed => ?_
    obtain ⟨begins, ends, inBlock⟩ := block.inside i low high
    exact inBlock (literal i free begins ends allowed)
  rw [same]
  exact .pure fun _ _ reached => ⟨rfl, reached.2⟩

end Follows

end Reading

end Stencil
