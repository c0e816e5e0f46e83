import Stencil.Proofs.Template.Tiling

namespace Stencil

/-- Whether a word goes on behind the character, where `word` says whether one does in front of it. -/
def goesOn (word : Bool) (c : Char) : Bool :=
  !endsWord c && (word || !isBlank c)

theorem goesOn_eq_false {c : Char} (ends : endsWord c) (word : Bool) : goesOn word c = false := by
  rw [goesOn, ends]
  rfl

/-- The second text has other blanks than the first one at some of the offsets that `P` allows, where the first
characters stand at offset `n`. Directly behind a word, the old blank and the new one both end it, unless `P` allows
any blanks there. -/
inductive Respaced (P : Nat → Bool → Prop) : Bool → Nat → List Char → List Char → Prop
  | nil {word : Bool} {n : Nat} : Respaced P word n [] []
  | same {word : Bool} {n : Nat} {c : Char} {cs ds : List Char} (rest : Respaced P (goesOn word c) (n + 1) cs ds) :
      Respaced P word n (c :: cs) (c :: ds)
  | blank {word free : Bool} {n : Nat} {c d : Char} {cs ds : List Char} (allowed : P n free) (old : isBlank c)
      (new : isBlank d) (ends : word → free ∨ endsWord c ∧ endsWord d) (rest : Respaced P false (n + 1) cs ds) :
      Respaced P word n (c :: cs) (d :: ds)

variable {P Q : Nat → Bool → Prop} {word : Bool} {n : Nat} {cs ds : List Char}

namespace Respaced

theorem length_eq (respaced : Respaced P word n cs ds) : cs.length = ds.length := by
  induction respaced with
  | nil => rfl
  | same _ ih | blank _ _ _ _ _ ih => rw [List.length_cons, List.length_cons, ih]

theorem take (respaced : Respaced P word n cs ds) (k : Nat) : Respaced P word n (cs.take k) (ds.take k) := by
  induction respaced generalizing k with
  | nil =>
    rw [List.take_nil]
    exact .nil
  | same _ ih =>
    cases k with
    | zero => exact .nil
    | succ k => exact .same (ih k)
  | blank allowed old new ends _ ih =>
    cases k with
    | zero => exact .nil
    | succ k => exact .blank allowed old new ends (ih k)

theorem drop (respaced : Respaced P word n cs ds) (k : Nat) :
    ∃ word', Respaced P word' (n + k) (cs.drop k) (ds.drop k) := by
  induction respaced generalizing k with
  | nil =>
    rw [List.drop_nil]
    exact ⟨false, .nil⟩
  | same rest ih | blank _ _ _ _ rest ih =>
    cases k with
    | zero => exact ⟨_, by constructor <;> assumption⟩
    | succ k =>
      obtain ⟨word', later⟩ := ih k
      exact ⟨word', Nat.add_right_comm _ 1 k ▸ later⟩

/-- Only what `P` says of the offsets of the text counts. -/
theorem mono (respaced : Respaced P word n cs ds) (weaker : ∀ i free, n ≤ i → i < n + cs.length → P i free → Q i free) :
    Respaced Q word n cs ds := by
  induction respaced with
  | nil => exact .nil
  | same _ ih =>
    refine .same (ih fun i free low high => weaker i free (by omega) ?_)
    rw [List.length_cons]
    omega
  | blank allowed old new ends _ ih =>
    refine .blank (weaker _ _ (Nat.le_refl _) (by simp) allowed) old new ends (ih fun i free low high => ?_)
    refine weaker i free (by omega) ?_
    rw [List.length_cons]
    omega

/-- Where no offset of the text is allowed, nothing is changed. -/
theorem eq (respaced : Respaced P word n cs ds) (none : ∀ i free, n ≤ i → i < n + cs.length → ¬P i free) :
    cs = ds := by
  have changed : Respaced (fun _ _ => False) word n cs ds := respaced.mono none
  clear respaced none
  induction changed with
  | nil => rfl
  | same _ ih => rw [ih]
  | blank allowed => exact allowed.elim

/-- The same text in front changes nothing but the offset, and whether a word goes on. -/
theorem behind (front : List Char) (respaced : Respaced P (front.foldl goesOn word) (n + front.length) cs ds) :
    Respaced P word n (front ++ cs) (front ++ ds) := by
  induction front generalizing word n with
  | nil => exact respaced
  | cons c front ih =>
    refine .same (ih ?_)
    rwa [Nat.add_right_comm]

theorem refl (cs : List Char) : Respaced P word n cs cs := by
  have whole : Respaced P word n (cs ++ []) (cs ++ []) := .behind cs .nil
  rwa [List.append_nil] at whole

/-- A character that is no blank stays. -/
theorem of_cons {c : Char} (respaced : Respaced P word n (c :: cs) ds) (bright : isBlank c = false) :
    ∃ ds', ds = c :: ds' ∧ Respaced P (goesOn word c) (n + 1) cs ds' := by
  cases respaced with
  | same rest => exact ⟨_, rfl, rest⟩
  | blank _ old =>
    rw [bright] at old
    cases old

/-- Blanks in front of a word are as many as before. -/
theorem blanks (respaced : Respaced P word n cs ds) (apart : word = false) :
    (ds.takeWhile isBlank).length = (cs.takeWhile isBlank).length ∧
      Respaced P false (n + (cs.takeWhile isBlank).length) (cs.drop (cs.takeWhile isBlank).length)
        (ds.drop (cs.takeWhile isBlank).length) := by
  induction respaced with
  | nil => exact ⟨rfl, .nil⟩
  | @same word n c cs ds rest ih =>
    subst apart
    cases blank : isBlank c with
    | true =>
      have later := ih (by simp [goesOn, blank])
      simp only [List.takeWhile_cons, blank, if_true, List.length_cons, List.drop_succ_cons, later.1, true_and]
      rw [← Nat.add_assoc, Nat.add_right_comm]
      exact later.2
    | false =>
      simp only [List.takeWhile_cons, blank, Bool.false_eq_true, if_false, List.length_nil, List.drop_zero, true_and]
      exact .same rest
  | @blank word _ n c d cs ds allowed old new ends rest ih =>
    have later := ih rfl
    simp only [List.takeWhile_cons, old, new, if_true, List.length_cons, List.drop_succ_cons, later.1, true_and]
    rw [← Nat.add_assoc, Nat.add_right_comm]
    exact later.2

/-- A word is spelled as before, and it ends where it did. -/
theorem letters (respaced : Respaced P word n cs ds) (begins : word ∨ ∀ c ∈ cs.head?, isBlank c = false)
    (strict : ∀ k ≤ (cs.takeWhile (!endsWord ·)).length, k < cs.length → ¬P (n + k) true) :
    ds.takeWhile (!endsWord ·) = cs.takeWhile (!endsWord ·) ∧
      Respaced P false (n + (cs.takeWhile (!endsWord ·)).length) (cs.drop (cs.takeWhile (!endsWord ·)).length)
        (ds.drop (cs.takeWhile (!endsWord ·)).length) := by
  induction respaced with
  | nil => exact ⟨rfl, .nil⟩
  | @same word n c cs ds rest ih =>
    cases ends : endsWord c with
    | true =>
      rw [goesOn_eq_false ends, ← goesOn_eq_false ends false] at rest
      simp only [List.takeWhile_cons, ends, Bool.not_true, Bool.false_eq_true, if_false, List.length_nil,
        List.drop_zero, true_and]
      exact .same rest
    | false =>
      have on : goesOn word c := by
        rcases begins with inside | bright
        · simp [goesOn, ends, inside]
        · simp [goesOn, ends, bright c rfl]
      simp only [List.takeWhile_cons, ends, Bool.not_false, if_true, List.length_cons] at strict
      have later := ih (.inl on) fun k within inside => by
        rw [Nat.add_assoc, Nat.add_comm 1]
        exact strict (k + 1) (Nat.succ_le_succ within) (Nat.succ_lt_succ inside)
      simp only [List.takeWhile_cons, ends, Bool.not_false, if_true, List.length_cons, List.drop_succ_cons, later.1,
        true_and]
      rw [← Nat.add_assoc, Nat.add_right_comm]
      exact later.2
  | @blank word free n c d cs ds allowed old new ends rest ih =>
    rcases begins with inside | bright
    · have both : endsWord c ∧ endsWord d := by
        refine (ends inside).resolve_left ?_
        rintro rfl
        exact strict 0 (Nat.zero_le _) (Nat.succ_pos _) allowed
      simp only [List.takeWhile_cons, both.1, both.2, Bool.not_true, Bool.false_eq_true, if_false, List.length_nil,
        List.drop_zero, true_and]
      exact .blank allowed old new nofun rest
    · rw [bright c rfl] at old
      cases old

end Respaced

/-- The same character, or two blanks. -/
def SameOrBlank (c d : Char) : Prop :=
  c = d ∨ isBlank c ∧ isBlank d

theorem SameOrBlank.eq {c d : Char} (like : SameOrBlank c d) (bright : isBlank c = false) : d = c := by
  rcases like with rfl | ⟨blank, -⟩
  · rfl
  · rw [bright] at blank
    cases blank

/-- A character that is no blank stands in both texts or in none of them. -/
theorem SameOrBlank.eq_iff {c d e : Char} (like : SameOrBlank c d) (bright : isBlank e = false) : d = e ↔ c = e := by
  rcases like with rfl | ⟨old, new⟩
  · rfl
  · constructor <;> rintro rfl <;> simp_all

theorem escapes_of_isBlank {c : Char} (blank : isBlank c) (r : Region) : r.escapes c = false := by
  have other (d : Char) (bright : isBlank d = false) : (c == d) = false := by
    rw [beq_eq_false_iff_ne]
    rintro rfl
    rw [bright] at blank
    cases blank
  cases r <;> simp only [Region.escapes, other '$' (by decide), other '\x7b' (by decide), other '\x7d' (by decide),
    Bool.or_false]

theorem SameOrBlank.escapes_eq {c d : Char} (like : SameOrBlank c d) (r : Region) : r.escapes d = r.escapes c := by
  rcases like with rfl | ⟨old, new⟩
  · rfl
  · rw [escapes_of_isBlank old, escapes_of_isBlank new]

theorem SameOrBlank.isBlank_eq {c d : Char} (like : SameOrBlank c d) : isBlank d = isBlank c := by
  rcases like with rfl | ⟨old, new⟩
  · rfl
  · rw [old, new]

theorem Respaced.alike (respaced : Respaced P word n cs ds) : List.Forall₂ SameOrBlank cs ds := by
  induction respaced with
  | nil => exact .nil
  | same _ ih => exact .cons (.inl rfl) ih
  | blank _ old new _ _ ih => exact .cons (.inr ⟨old, new⟩) ih

section Insensitive

/-- Blanks are no braces, and a backslash hides any of them. -/
theorem closingBrace_respaced (alike : List.Forall₂ SameOrBlank cs ds) (depth : Nat) :
    closingBrace depth ds = closingBrace depth cs := by
  fun_induction closingBrace depth cs generalizing ds with
  | case1 =>
    cases alike
    rfl
  | case2 depth c cs ih =>
    obtain _ | ⟨hides, _ | ⟨_, rest⟩⟩ := alike
    rw [hides.eq (by decide), closingBrace, ih rest]
  | case3 depth cs ih =>
    obtain _ | ⟨opens, rest⟩ := alike
    rw [opens.eq (by decide), closingBrace, ih rest]
  | case4 cs =>
    obtain _ | ⟨closes, rest⟩ := alike
    rw [closes.eq (by decide), closingBrace]
  | case5 cs depth ih =>
    obtain _ | ⟨closes, rest⟩ := alike
    rw [closes.eq (by decide), closingBrace, ih rest]
  | case6 depth c cs escape opens closes ih =>
    obtain _ | @⟨_, d, _, ds, like, rest⟩ := alike
    by_cases hides : c = '\\'
    · subst hides
      rw [like.eq (by decide)]
      cases rest with
      | nil => rfl
      | cons => exact absurd rfl (escape _ _ rfl)
    · rw [← ih rest]
      refine Transparent.char ?_ ?_ ?_ depth ds
      · rwa [Ne, like.eq_iff (by decide)]
      · rwa [Ne, like.eq_iff (by decide)]
      · rwa [Ne, like.eq_iff (by decide)]

/-- Blanks neither end literal text nor can they be escaped. -/
theorem textLength_respaced (alike : List.Forall₂ SameOrBlank cs ds) (r : Region) :
    r.textLength ds = r.textLength cs := by
  fun_induction Region.textLength r cs generalizing ds with
  | case1 =>
    cases alike
    rfl
  | case2 =>
    obtain _ | ⟨like, _ | _⟩ := alike
    rw [like.eq (by decide)]
    rfl
  | case3 c text =>
    obtain _ | ⟨like, _ | _⟩ := alike
    rw [Region.textLength, if_neg (mt (like.eq_iff (by decide)).mp text)]
  | case4 d cs =>
    obtain _ | ⟨like, _ | ⟨_, _⟩⟩ := alike
    rw [like.eq (by decide), Region.textLength, if_pos rfl]
  | case5 c d cs text hides ih =>
    obtain _ | ⟨like, _ | ⟨likeToo, rest⟩⟩ := alike
    have special := (likeToo.escapes_eq r).trans hides.2
    rw [Region.textLength, if_neg (mt (like.eq_iff (by decide)).mp text),
      if_pos ⟨(like.eq_iff (by decide)).mpr hides.1, special⟩, ih rest]
  | case6 c d cs text single ih =>
    obtain _ | ⟨like, rest⟩ := alike
    have later := ih rest
    obtain _ | ⟨likeToo, _⟩ := rest
    rw [← likeToo.escapes_eq r, ← like.eq_iff (by decide)] at single
    rw [Region.textLength, if_neg (mt (like.eq_iff (by decide)).mp text), if_neg single, later]

/-- The words between blanks are the same. -/
theorem words_respaced (alike : List.Forall₂ SameOrBlank cs ds) : words ds = words cs := by
  fun_induction words cs generalizing ds with
  | case1 =>
    cases alike
    rfl
  | case2 c blank =>
    obtain _ | ⟨like, _ | _⟩ := alike
    rw [words, like.isBlank_eq, if_pos blank]
  | case3 c bright =>
    obtain _ | ⟨like, _ | _⟩ := alike
    rw [like.eq (Bool.eq_false_iff.mpr bright), words, if_neg bright]
  | case4 c d cs blank ih =>
    obtain _ | ⟨like, rest⟩ := alike
    have later := ih rest
    obtain _ | ⟨likeToo, rest⟩ := rest
    rw [words, like.isBlank_eq, if_pos blank, later]
  | case5 c d cs bright blank ih =>
    obtain _ | ⟨like, rest⟩ := alike
    have later := ih rest
    obtain _ | ⟨likeToo, rest⟩ := rest
    rw [like.eq (Bool.eq_false_iff.mpr bright), words, if_neg bright, likeToo.isBlank_eq, if_pos blank, later]
  | case6 c d cs bright brightToo w ws first ih =>
    obtain _ | ⟨like, rest⟩ := alike
    have later := ih rest
    obtain _ | ⟨likeToo, rest⟩ := rest
    rw [like.eq (Bool.eq_false_iff.mpr bright), words, if_neg bright, likeToo.isBlank_eq, if_neg brightToo, later]
    simp only [first]
  | case7 c d cs bright brightToo none ih =>
    obtain _ | ⟨like, rest⟩ := alike
    have later := ih rest
    obtain _ | ⟨likeToo, rest⟩ := rest
    rw [like.eq (Bool.eq_false_iff.mpr bright), words, if_neg bright, likeToo.isBlank_eq, if_neg brightToo, later]
    simp only [none]

end Insensitive

section Tokens

variable {r : Region} {c d after stopped : Cursor} {t : Token} {opened : Mark}

/-- Two cursors over the same stretch, up to other blanks at some of the offsets of the first one. -/
def Cursor.Respaced (P : Nat → Bool → Prop) (c d : Cursor) : Prop :=
  ∃ word, Stencil.Respaced P word c.offset c.rest d.rest

theorem Cursor.Respaced.of_drop {c' d' : Cursor} {k : Nat} (respaced : c.Respaced P d) (rest : c'.rest = c.rest.drop k)
    (restToo : d'.rest = d.rest.drop k) (offset : c'.offset = c.offset + k) : c'.Respaced P d' := by
  obtain ⟨word, texts⟩ := respaced
  rw [Cursor.Respaced, rest, restToo, offset]
  exact texts.drop k

theorem Cursor.Respaced.advance {k : Nat} (respaced : c.Respaced P d) (within : k ≤ c.rest.length) :
    (c.advance k).Respaced P (d.advance k) :=
  respaced.of_drop (k := k) rfl rfl (by rw [Cursor.advance, List.length_take_of_le within])

/-- A block ends behind as many characters as before. -/
theorem readBraced_respaced {block : Cursor} (alike : List.Forall₂ SameOrBlank c.rest d.rest)
    (read : readBraced c = .ok block after) :
    ∃ n, closingBrace 0 (c.advance 1).rest = some n ∧ block = (c.advance 1).upTo n ∧
      after = (c.advance 1).advance (n + 1) ∧
      readBraced d = .ok ((d.advance 1).upTo n) ((d.advance 1).advance (n + 1)) := by
  obtain ⟨n, found, rfl, rfl⟩ := readBraced_eq_ok_iff.mp read
  have inside : List.Forall₂ SameOrBlank (c.advance 1).rest (d.advance 1).rest := List.forall₂_drop 1 alike
  refine ⟨n, found, rfl, rfl, readBraced_eq_ok_iff.mpr ⟨n, ?_, rfl, rfl⟩⟩
  rw [closingBrace_respaced inside, found]

/-- A directive ends in front of the same delimiter. -/
theorem toDelimiter_respaced (opened' : Mark) (alike : List.Forall₂ SameOrBlank c.rest d.rest)
    (read : toDelimiter opened c = .ok () stopped) :
    ∃ stopped', toDelimiter opened' d = .ok () stopped' ∧ stopped'.rest.length = stopped.rest.length := by
  fun_induction toDelimiter opened c generalizing d with
  | case1 | case3 | case5 => cases read
  | case2 c cs next =>
    cases read
    have length := alike.length_eq
    rw [next] at alike
    obtain ⟨e, es, like, -, left⟩ := List.forall₂_cons_left_iff.mp alike
    rw [like.eq (by decide)] at left
    exact ⟨d, toDelimiter_stop left, length.symm⟩
  | case4 c cs next block mid inside ih =>
    obtain ⟨n, -, -, rfl, insideToo⟩ := readBraced_respaced alike inside
    have behind : List.Forall₂ SameOrBlank ((c.advance 1).advance (n + 1)).rest ((d.advance 1).advance (n + 1)).rest :=
      List.forall₂_drop _ (List.forall₂_drop 1 alike)
    obtain ⟨stopped', found, length⟩ := ih behind read
    rw [next] at alike
    obtain ⟨e, es, like, -, left⟩ := List.forall₂_cons_left_iff.mp alike
    rw [like.eq (by decide)] at left
    exact ⟨stopped', (toDelimiter_block left insideToo).trans found, length⟩
  | case6 c b cs delimiter closes opens next ih =>
    have behind : List.Forall₂ SameOrBlank (c.advance 1).rest (d.advance 1).rest := List.forall₂_drop 1 alike
    obtain ⟨stopped', found, length⟩ := ih behind read
    rw [next] at alike
    obtain ⟨e, es, like, -, left⟩ := List.forall₂_cons_left_iff.mp alike
    refine ⟨stopped', (toDelimiter_char left ?_ ?_ ?_).trans found, length⟩
    · rwa [Ne, like.eq_iff (by decide)]
    · rwa [Ne, like.eq_iff (by decide)]
    · rwa [Ne, like.eq_iff (by decide)]

/-- Tokens of the same kind. A directive may have other blanks, and nothing goes on in front of its content; any
other token holds the same. -/
structure Token.Respaced (P : Nat → Bool → Prop) (t u : Token) : Prop where
  kind : t.kind = u.kind
  content : Stencil.Respaced P false t.offset t.value u.value
  literal : t.kind ≠ .directive → t.value = u.value

theorem directiveToken_respaced {cs : List Char} (respaced : c.Respaced P d) (opens : c.rest = '$' :: cs)
    (read : directiveToken c = .ok t after) :
    ∃ u after', directiveToken d = .ok u after' ∧ t.Respaced P u ∧ after.Respaced P after' := by
  obtain ⟨stopped, closed, rfl, rfl⟩ := directiveToken_ok read
  have inner : (c.advance 1).Respaced P (d.advance 1) := respaced.advance (by simp [opens])
  have content : Stencil.Respaced P false (c.advance 1).offset (c.advance 1).rest (d.advance 1).rest := by
    obtain ⟨word, texts⟩ := respaced
    rw [opens] at texts
    obtain ⟨ds, opensToo, behind⟩ := texts.of_cons (by decide)
    rw [goesOn_eq_false (by decide)] at behind
    simpa [Cursor.advance, opens, opensToo] using behind
  obtain ⟨stopped', closedToo, length⟩ := toDelimiter_respaced d.mark content.alike closed
  have amount : stopped'.offset - (d.advance 1).offset = stopped.offset - (c.advance 1).offset := by
    rw [offset_toDelimiter closedToo, offset_toDelimiter closed, length, content.length_eq]
  have behind : stopped.Respaced P stopped' := by
    refine inner.of_drop (k := (c.advance 1).rest.length - stopped.rest.length) ?_ ?_ ?_
    · exact List.suffix_iff_eq_drop.mp (toDelimiter_found closed).2
    · rw [← length, content.length_eq]
      exact List.suffix_iff_eq_drop.mp (toDelimiter_found closedToo).2
    · have ends := stop_toDelimiter closed
      have shorter := toDelimiter_shorter closed
      rw [Cursor.stop, Cursor.stop] at ends
      omega
  obtain ⟨⟨es, delimiter⟩, -⟩ := toDelimiter_found closed
  have more : 1 ≤ stopped.rest.length := by simp [delimiter]
  refine ⟨⟨.directive, (d.advance 1).rest.take (stopped'.offset - (d.advance 1).offset), (d.advance 1).offset,
    stopped'.offset, d.mark⟩, stopped'.advance 1, ?_, ⟨rfl, ?_, fun other => absurd rfl other⟩, behind.advance more⟩
  · simp only [directiveToken, closedToo]
  · rw [amount]
    exact content.take _

theorem textToken_respaced (respaced : c.Respaced P d) (read : textToken r c = .ok t after)
    (untouched : ∀ i free, t.offset ≤ i → i < t.stop → ¬P i free) :
    ∃ u after', textToken r d = .ok u after' ∧ t.Respaced P u ∧ after.Respaced P after' := by
  cases read
  obtain ⟨word, texts⟩ := id respaced
  have within := r.textLength_le c.rest
  have length := textLength_respaced texts.alike r
  have value : r.unescape (c.rest.take (r.textLength c.rest)) = r.unescape (d.rest.take (r.textLength d.rest)) := by
    rw [length, (texts.take (r.textLength c.rest)).eq fun i free low high => untouched i free low ?_]
    rwa [List.length_take_of_le within] at high
  refine ⟨_, _, rfl, ⟨rfl, ?_, fun _ => value⟩, ?_⟩
  · rw [← value]
    exact .refl _
  · rw [length]
    exact respaced.advance within

theorem next_respaced (respaced : c.Respaced P d) (read : Token.next r c = .ok t after)
    (untouched : t.kind = .text → ∀ i free, t.offset ≤ i → i < t.stop → ¬P i free) :
    ∃ u after', Token.next r d = .ok u after' ∧ t.Respaced P u ∧ after.Respaced P after' := by
  obtain ⟨word, texts⟩ := id respaced
  rcases Token.next_ok read with ⟨done, rfl, rfl⟩ | ⟨b, cs, left, ⟨rfl, opened⟩ | ⟨shown, text⟩⟩
  · have doneToo : d.rest = [] := by
      rw [← List.length_eq_zero_iff, ← texts.length_eq, done, List.length_nil]
    refine ⟨.eof d, d, ?_, ⟨rfl, .nil, fun _ => rfl⟩, respaced⟩
    rw [Token.next, doneToo]
  · obtain ⟨u, after', readToo, token, rest⟩ := directiveToken_respaced respaced left opened
    have alike := texts.alike
    rw [left] at alike
    obtain ⟨e, es, like, -, leftToo⟩ := List.forall₂_cons_left_iff.mp alike
    rw [like.eq (by decide)] at leftToo
    exact ⟨u, after', (Token.next_directive leftToo).trans readToo, token, rest⟩
  · have kind : t.kind = .text := by
      cases text
      rfl
    obtain ⟨u, after', readToo, token, rest⟩ := textToken_respaced respaced text (untouched kind)
    have alike := texts.alike
    rw [left] at alike
    obtain ⟨e, es, like, -, leftToo⟩ := List.forall₂_cons_left_iff.mp alike
    exact ⟨u, after', (Token.next_text leftToo (mt (like.eq_iff (by decide)).mp shown)).trans readToo, token, rest⟩

/-- If no blank in literal text is changed, the tokens are the same up to the blanks of directives. -/
theorem tokenize_respaced {ts : List Token} (respaced : c.Respaced P d) (read : tokenize r c = .ok ts)
    (untouched : ∀ t ∈ ts, t.kind = .text → ∀ i free, t.offset ≤ i → i < t.stop → ¬P i free) :
    ∃ us, tokenize r d = .ok us ∧ List.Forall₂ (Token.Respaced P) ts us := by
  induction size : c.rest.length using Nat.strongRecOn generalizing c d ts with
  | ind length ih =>
    subst size
    have lengths : c.rest.length = d.rest.length := respaced.choose_spec.length_eq
    by_cases done : c.rest = []
    · rw [done] at lengths
      have doneToo : d.rest = [] := List.length_eq_zero_iff.mp lengths.symm
      rw [tokenize_nil done] at read
      cases read
      exact ⟨[.eof d], tokenize_nil doneToo, .cons ⟨rfl, .nil, fun _ => rfl⟩ .nil⟩
    · obtain ⟨t, after, us, first, rest, rfl, -⟩ := tokenize_first done read
      have more : d.rest ≠ [] := by
        rintro doneToo
        rw [doneToo] at lengths
        exact done (List.length_eq_zero_iff.mp lengths)
      obtain ⟨u, after', firstToo, token, behind⟩ := next_respaced respaced first (untouched t List.mem_cons_self)
      obtain ⟨vs, restToo, tokens⟩ := ih _ (Token.next_shorter done first) behind rest
        (fun v member => untouched v (List.mem_cons_of_mem t member)) rfl
      exact ⟨u :: vs, tokenize_ok more firstToo restToo, .cons token tokens⟩

end Tokens

end Stencil
