import Stencil.Proofs.Template.Stretch

namespace Stencil

section Escapes

variable {r : Region} {cs ds : List Char}

/-- No character at the beginning of `ds` is hidden by a backslash at the end of `cs`. -/
def Region.Parts (r : Region) (cs ds : List Char) : Prop :=
  cs.getLast? = some '\\' → ∀ d, ds.head? = some d → r.escapes d = false

theorem Region.Parts.of_cons {c : Char} (parts : r.Parts (c :: cs) ds) : r.Parts cs ds := by
  intro last
  refine parts ?_
  rw [List.getLast?_cons, last]
  rfl

theorem Region.Parts.of_suffix {bs : List Char} (parts : r.Parts bs ds) (behind : cs <:+ bs) :
    r.Parts cs ds := by
  obtain ⟨front, rfl⟩ := behind
  induction front with
  | nil => exact parts
  | cons b front ih => exact ih parts.of_cons

theorem Region.Parts.take (parts : r.Parts cs ds) (n : Nat) : r.Parts cs (ds.take n) := by
  intro last d first
  refine parts last d ?_
  cases n with
  | zero => simp at first
  | succ n => rwa [List.head?_take, if_neg (Nat.succ_ne_zero n)] at first

/-- Text that stops inside `cs` stops there also when something follows, and text that does not goes on. -/
theorem Region.textLength_append (parts : r.Parts cs ds) :
    r.textLength (cs ++ ds) =
      if r.textLength cs = cs.length then cs.length + r.textLength ds else r.textLength cs := by
  fun_induction Region.textLength r cs with
  | case1 => simp
  | case2 =>
    cases ds <;> simp [Region.textLength]
  | case3 c text =>
    cases ds with
    | nil => simp [Region.textLength, text]
    | cons d ds =>
      have shown : ¬(c = '\\' ∧ r.escapes d) := by
        rintro ⟨rfl, hidden⟩
        rw [parts rfl d rfl] at hidden
        cases hidden
      simp only [List.cons_append, List.nil_append, Region.textLength, if_neg text, if_neg shown]
      simp [Nat.add_comm]
  | case4 => simp [Region.textLength]
  | case5 c d cs text hides ih =>
    simp only [List.cons_append, Region.textLength, if_neg text, if_pos hides]
    rw [ih parts.of_cons.of_cons]
    simp only [List.length_cons]
    split <;> split <;> omega
  | case6 c d cs text shown ih =>
    simp only [List.cons_append, Region.textLength, if_neg text, if_neg shown] at ih ⊢
    rw [ih parts.of_cons]
    simp only [List.length_cons]
    split <;> split <;> omega

theorem Region.unescape_append (parts : r.Parts cs ds) :
    r.unescape (cs ++ ds) = r.unescape cs ++ r.unescape ds := by
  fun_induction Region.unescape r cs with
  | case1 => rfl
  | case2 c =>
    cases ds with
    | nil => rfl
    | cons d ds =>
      have shown : ¬(c = '\\' ∧ r.escapes d) := by
        rintro ⟨rfl, hidden⟩
        rw [parts rfl d rfl] at hidden
        cases hidden
      rw [List.singleton_append, Region.unescape, if_neg shown]
      rfl
  | case3 c d cs hides ih =>
    rw [List.cons_append, List.cons_append, Region.unescape, if_pos hides, ih parts.of_cons.of_cons]
    rfl
  | case4 c d cs shown ih =>
    rw [List.cons_append, List.cons_append, Region.unescape, if_neg shown]
    rw [List.cons_append] at ih
    rw [ih parts.of_cons]
    rfl

end Escapes

section Tokens

variable {r : Region} {c after : Cursor} {t : Token} (tail : List Char)

/-- The same place in a stretch that goes on with `tail`. -/
def Cursor.extend (c : Cursor) (tail : List Char) : Cursor := { c with rest := c.rest ++ tail }

@[simp] theorem Cursor.extend_rest : (c.extend tail).rest = c.rest ++ tail := rfl

theorem Cursor.extend_advance {n : Nat} (within : n ≤ c.rest.length) :
    (c.extend tail).advance n = (c.advance n).extend tail := by
  simp only [Cursor.advance, Cursor.extend, List.take_append_of_le_length within,
    List.drop_append_of_le_length within]

theorem closingBrace_append {depth n : Nat} {cs : List Char} (found : closingBrace depth cs = some n) :
    closingBrace depth (cs ++ tail) = some n := by
  obtain ⟨passes, rest, stops⟩ := Transparent.of_closingBrace found
  have split : cs ++ tail = cs.take n ++ ('\x7d' :: rest ++ tail) := by
    rw [← stops, ← List.append_assoc, List.take_append_drop]
  rw [split]
  have before := passes 0 ('\x7d' :: rest ++ tail)
  rwa [Nat.add_zero, List.cons_append, closingBrace, Option.map_some, Nat.zero_add] at before

theorem readBraced_extend {content : Cursor} (read : readBraced c = .ok content after)
    (more : c.rest ≠ []) : readBraced (c.extend tail) = .ok content (after.extend tail) := by
  have one : 1 ≤ c.rest.length := List.length_pos_of_ne_nil more
  obtain ⟨n, found, rfl, rfl⟩ := readBraced_eq_ok_iff.mp read
  have short := closingBrace_lt found
  have goesOn : (c.extend tail).advance 1 = (c.advance 1).extend tail := Cursor.extend_advance tail one
  refine readBraced_eq_ok_iff.mpr ⟨n, ?_, ?_, ?_⟩
  · rw [goesOn, Cursor.extend_rest]
    exact closingBrace_append tail found
  · rw [goesOn]
    simp only [Cursor.upTo, Cursor.extend, List.take_append_of_le_length (Nat.le_of_lt short)]
  · rw [goesOn, Cursor.extend_advance tail (by omega)]

theorem toDelimiter_extend {opened : Mark} (read : toDelimiter opened c = .ok () after) :
    toDelimiter opened (c.extend tail) = .ok () (after.extend tail) := by
  have goesOn (c : Cursor) {d : Char} {cs : List Char} (next : c.rest = d :: cs) :
      (c.extend tail).rest = d :: (cs ++ tail) := by
    rw [Cursor.extend_rest, next, List.cons_append]
  fun_induction toDelimiter opened c with
  | case1 | case3 | case5 => cases read
  | case2 c cs next =>
    cases read
    exact toDelimiter_stop (goesOn _ next)
  | case4 c cs next block mid braced ih =>
    rw [toDelimiter_block (goesOn c next) (readBraced_extend tail braced (by simp [next]))]
    exact ih read
  | case6 c d cs delimiter closes opens next ih =>
    rw [toDelimiter_char (goesOn c next) delimiter opens closes,
      Cursor.extend_advance tail (by simp [next])]
    exact ih read

theorem directiveToken_kind (read : directiveToken c = .ok t after) : t.kind = .directive := by
  obtain ⟨_, -, rfl, -⟩ := directiveToken_ok read
  rfl

theorem directiveToken_extend (more : c.rest ≠ []) (read : directiveToken c = .ok t after) :
    directiveToken (c.extend tail) = .ok t (after.extend tail) := by
  have one : 1 ≤ c.rest.length := List.length_pos_of_ne_nil more
  obtain ⟨stopped, closed, rfl, rfl⟩ := directiveToken_ok read
  have length := offset_toDelimiter closed
  obtain ⟨cs, next⟩ := (toDelimiter_found closed).1
  have found : 1 ≤ stopped.rest.length := by simp [next]
  have within : stopped.offset - (c.advance 1).offset ≤ (c.advance 1).rest.length := by omega
  have goesOn : toDelimiter (c.extend tail).mark ((c.advance 1).extend tail) =
      .ok () (stopped.extend tail) := toDelimiter_extend tail closed
  unfold directiveToken
  simp only [Cursor.extend_advance tail one, goesOn, Cursor.extend_advance tail found]
  simp only [Cursor.extend, List.take_append_of_le_length within]

/-- A token that does not reach the end is read in the same way when something follows. -/
theorem next_extend (more : c.rest ≠ []) (parts : r.Parts c.rest tail)
    (read : Token.next r c = .ok t after) (left : t.kind = .directive ∨ after.rest ≠ []) :
    Token.next r (c.extend tail) = .ok t (after.extend tail) := by
  obtain ⟨d, cs, next⟩ := List.exists_cons_of_ne_nil more
  have goesOn : (c.extend tail).rest = d :: (cs ++ tail) := by rw [Cursor.extend_rest, next, List.cons_append]
  by_cases opens : d = '$'
  · subst opens
    rw [Token.next_directive next] at read
    rw [Token.next_directive goesOn]
    exact directiveToken_extend tail more read
  · rw [Token.next_text next opens] at read
    rw [Token.next_text goesOn opens]
    cases read
    have short : r.textLength c.rest < c.rest.length := by
      have behind := left.resolve_left (by exact nofun)
      rw [Cursor.advance_rest] at behind
      exact List.length_lt_of_drop_ne_nil behind
    have length : r.textLength (c.extend tail).rest = r.textLength c.rest := by
      rw [Cursor.extend_rest, Region.textLength_append parts, if_neg (Nat.ne_of_lt short)]
    unfold textToken
    simp only [length, Cursor.extend_advance tail (Nat.le_of_lt short)]
    simp only [Cursor.extend, List.take_append_of_le_length (Nat.le_of_lt short)]

/-- A text that reaches the end is read on into the text that follows, and both give one token. -/
theorem next_through (more : c.rest ≠ []) (parts : r.Parts c.rest tail)
    (read : Token.next r c = .ok t after) (text : t.kind ≠ .directive) (done : after.rest = []) :
    ∃ v last, Token.next r (c.extend tail) = .ok v last ∧ t.kind = .text ∧ v.kind = .text ∧
      v.value = t.value ++ r.unescape (tail.take (r.textLength tail)) ∧
      last.rest = tail.drop (r.textLength tail) := by
  obtain ⟨d, cs, next⟩ := List.exists_cons_of_ne_nil more
  have goesOn : (c.extend tail).rest = d :: (cs ++ tail) := by rw [Cursor.extend_rest, next, List.cons_append]
  by_cases opens : d = '$'
  · subst opens
    rw [Token.next_directive next] at read
    exact absurd (directiveToken_kind read) text
  · rw [Token.next_text next opens] at read
    cases read
    have whole : r.textLength c.rest = c.rest.length :=
      Nat.le_antisymm (r.textLength_le c.rest) (List.drop_eq_nil_iff.mp done)
    have length : r.textLength (c.rest ++ tail) = c.rest.length + r.textLength tail := by
      rw [Region.textLength_append parts, if_pos whole]
    refine ⟨_, _, Token.next_text goesOn opens, rfl, rfl, ?_, ?_⟩
    · simp only [Cursor.extend_rest, length, whole, List.take_length]
      rw [List.take_length_add_append, Region.unescape_append (parts.take _)]
    · simp only [Cursor.advance_rest, Cursor.extend_rest, length]
      rw [List.drop_length_add_append]

end Tokens

section Merging

variable {α : Type} {r : Region} {c d after : Cursor} {t u : Token} {ts us : List Token}

/-- Two lists one behind the other, where the last of the first and the first of the second become one if
they can be merged. -/
def seam (merge? : α → α → Option α) : List α → List α → List α
  | [], bs => bs
  | [a], b :: bs =>
    match merge? a b with
    | some m => m :: bs
    | none => a :: b :: bs
  | a :: as, bs => a :: seam merge? as bs

section Seam

variable {merge? : α → α → Option α} {a : α} {as bs : List α}

theorem seam_nil : seam merge? [] bs = bs := by
  cases bs <;> rfl

theorem seam_apart {b : α} (apart : merge? a b = none) : seam merge? [a] (b :: bs) = a :: b :: bs := by
  rw [seam, apart]

theorem seam_cons (more : as ≠ []) : seam merge? (a :: as) bs = a :: seam merge? as bs := by
  cases as with
  | nil => contradiction
  | cons => rfl

/-- One that cannot be merged with anything stays by itself, also at the end. -/
theorem seam_alone (alone : ∀ b, merge? a b = none) :
    seam merge? (a :: as) bs = a :: seam merge? as bs := by
  cases as with
  | nil => cases bs <;> simp [seam, alone]
  | cons => rfl

theorem seam_append (front : List α) :
    seam merge? (front ++ a :: as) bs = front ++ seam merge? (a :: as) bs := by
  induction front with
  | nil => rfl
  | cons b front ih => rw [List.cons_append, seam_cons (by simp), ih, List.cons_append]

end Seam

/-- Two texts that stand side by side are one. -/
def Token.merge? (t u : Token) : Option Token :=
  if t.kind = .text ∧ u.kind = .text then some { t with value := t.value ++ u.value, stop := u.stop }
  else none

def Node.merge? : Node → Node → Option Node
  | .text a, .text b => some (.text (a ++ b))
  | _, _ => none

theorem Token.inner_like {M : Mark → Mark → Prop} (like : List.Forall₂ (Token.Like M) ts us) :
    List.Forall₂ (Token.Like M) (Token.inner ts) (Token.inner us) := by
  induction like with
  | nil => exact .nil
  | @cons t u ts us first _ ih =>
    simp only [Token.inner, List.filter_cons, first.1]
    split
    · exact .cons first ih
    · exact ih

theorem Cursor.advance_zero : c.advance 0 = c := rfl

/-- A text that reaches up to the seam goes on with the text behind it. -/
theorem seam_text (text : t.kind = .text) (read : tokenize r d = .ok us) :
    ∃ v ws, v.kind = .text ∧ v.value = t.value ++ r.unescape (d.rest.take (r.textLength d.rest)) ∧
      tokenize r (d.advance (r.textLength d.rest)) = .ok ws ∧
      seam Token.merge? [t] (Token.inner us) = v :: Token.inner ws := by
  cases next : d.rest with
  | nil =>
    rw [tokenize_nil next] at read
    cases read
    refine ⟨t, [.eof d], text, ?_, tokenize_nil next, rfl⟩
    simp [Region.unescape]
  | cons b bs =>
    have more : d.rest ≠ [] := by simp [next]
    obtain ⟨u, after, ws, first, rest, rfl, inner⟩ := tokenize_first more read
    by_cases opens : b = '$'
    · subst opens
      rw [Token.next_directive next] at first
      have apart : Token.merge? t u = none := by simp [Token.merge?, directiveToken_kind first]
      have none : r.textLength ('$' :: bs) = 0 := by cases bs <;> simp [Region.textLength]
      refine ⟨t, u :: ws, text, ?_, ?_, ?_⟩
      · simp [none, Region.unescape]
      · rw [none, Cursor.advance_zero, read]
      · rw [inner, seam_apart apart]
    · rw [Token.next_text next opens] at first
      cases first
      rw [← next]
      let whole : Token := { t with
        value := t.value ++ r.unescape (d.rest.take (r.textLength d.rest))
        stop := d.offset + r.textLength d.rest }
      refine ⟨whole, ws, text, rfl, rest, ?_⟩
      rw [inner, seam, Token.merge?, if_pos ⟨text, rfl⟩]

/-- The same text has like tokens wherever it stands. -/
theorem tokenize_again (same : c.rest = d.rest) (read : tokenize r d = .ok us) :
    ∃ vs, tokenize r c = .ok vs ∧
      List.Forall₂ (Token.Like fun _ _ => True) (Token.inner vs) (Token.inner us) := by
  have like : c.Like (fun _ _ => True) c.rest d := ⟨same, List.infix_rfl, trivial⟩
  have alike := like.tokenize_alike (r := r) .anywhere fun _ _ => rfl
  rw [read] at alike
  obtain ⟨vs, ran, tokens⟩ := alike.of_ok_right
  exact ⟨vs, ran, Token.inner_like tokens⟩

/-- The tokens of a text that another one follows: those of both, with one text at the seam instead of
two. -/
theorem tokenize_extend (parts : r.Parts c.rest d.rest) (read : tokenize r c = .ok ts)
    (readToo : tokenize r d = .ok us) :
    ∃ vs, tokenize r (c.extend d.rest) = .ok vs ∧
      List.Forall₂ (Token.Like fun _ _ => True) (Token.inner vs)
        (seam Token.merge? (Token.inner ts) (Token.inner us)) := by
  induction size : c.rest.length using Nat.strongRecOn generalizing c ts with
  | ind size ih =>
    by_cases done : c.rest = []
    · rw [tokenize_nil done] at read
      cases read
      rw [show Token.inner [Token.eof c] = [] from rfl, seam_nil]
      exact tokenize_again (by simp [done]) readToo
    · have more : (c.extend d.rest).rest ≠ [] := by simp [done]
      obtain ⟨t, after, ws, first, rest, rfl, inner⟩ := tokenize_first done read
      have inside := Token.next_inner done first
      rw [inner]
      -- Only a text that reaches up to the seam is read differently when something follows it.
      by_cases stops : t.kind = .directive ∨ after.rest ≠ []
      · have shorter := Token.next_shorter done first
        have partsToo := parts.of_suffix (next_suffix first)
        obtain ⟨vs, goesOn, like⟩ := ih _ (size ▸ shorter) partsToo rest rfl
        refine ⟨t :: vs, tokenize_ok more (next_extend d.rest done parts first stops) goesOn, ?_⟩
        have split : seam Token.merge? (t :: Token.inner ws) (Token.inner us) =
            t :: seam Token.merge? (Token.inner ws) (Token.inner us) := by
          rcases stops with directive | left
          · exact seam_alone fun u => by simp [Token.merge?, directive]
          · obtain ⟨v, _, _, -, -, -, nonempty⟩ := tokenize_first left rest
            exact seam_cons (by simp [nonempty])
        rw [Token.inner_cons inside, split]
        exact .cons ⟨rfl, rfl, trivial⟩ like
      · obtain ⟨notDirective, ends⟩ := not_or.mp stops
        have ends := not_not.mp ends
        rw [tokenize_nil ends] at rest
        cases rest
        obtain ⟨v, last, step, text, kind, value, behind⟩ :=
          next_through d.rest done parts first notDirective ends
        obtain ⟨w, xs, kindToo, valueToo, readBehind, whole⟩ := seam_text text readToo
        obtain ⟨vs, goesOn, like⟩ := tokenize_again behind readBehind
        refine ⟨v :: vs, tokenize_ok more step goesOn, ?_⟩
        rw [Token.inner_cons (by simp [kind]), show Token.inner [Token.eof after] = [] from rfl, whole]
        exact .cons ⟨kind.trans kindToo.symm, value.trans valueToo.symm, trivial⟩ like

section Derivation

variable {inline : Inline} {m n : Node} {ms ns : List Node} {i : Item}

/-- Only a directive is a part of a conditional. -/
theorem Token.directive_of_part (part : ∀ n, i ≠ .node n) (read : t.item inline = .ok i) :
    t.kind = .directive := by
  rcases Token.item_ok read with ⟨-, same⟩ | ⟨directive, -⟩
  · exact absurd same (part _)
  · exact directive

theorem Token.alone (directive : t.kind = .directive) :
    (∀ u, Token.merge? t u = none) ∧ ∀ u, Token.merge? u t = none :=
  ⟨fun u => by simp [Token.merge?, directive], fun u => by simp [Token.merge?, directive]⟩

/-- All nodes but texts stay by themselves. -/
theorem Node.alone (other : n.isText = false) :
    (∀ k, Node.merge? n k = none) ∧ ∀ k, Node.merge? k n = none := by
  cases n with
  | text => cases other
  | _ => exact ⟨fun k => by cases k <;> rfl, fun k => by cases k <;> rfl⟩

theorem Node.isText_of_directive (directive : t.kind = .directive) (read : t.item inline = .ok (.node n)) :
    n.isText = false := by
  have mirrors := Token.item_mirrors read
  cases n with
  | text value =>
    have role : t.role ≠ .text := by
      simp only [Token.role, directive]
      split
      · decide
      · split
        · decide
        · split <;> decide
    exact absurd mirrors.1 role
  | _ => rfl

theorem Derives.seam_single (read : t.item inline = .ok (.node m)) (second : Derives inline us ns) :
    Derives inline (Stencil.seam Token.merge? [t] us) (Stencil.seam Node.merge? [m] ns) := by
  cases second with
  | nil => exact .single read .nil
  | @single u n us ns readToo after =>
    rcases Token.item_ok read with ⟨text, same⟩ | ⟨directive, -⟩
    · rcases Token.item_ok readToo with ⟨textToo, sameToo⟩ | ⟨directive, -⟩
      · cases same
        cases sameToo
        rw [Stencil.seam, Token.merge?, if_pos ⟨text, textToo⟩, Stencil.seam, Node.merge?]
        refine .single ?_ after
        simp [Token.item, text, String.ofList_append]
      · rw [seam_apart ((Token.alone directive).2 t),
          seam_apart ((Node.alone (Node.isText_of_directive directive readToo)).2 m)]
        exact .single read (.single readToo after)
    · rw [seam_apart ((Token.alone directive).1 u),
        seam_apart ((Node.alone (Node.isText_of_directive directive read)).1 n)]
      exact .single read (.single readToo after)
  | @cond u e mark condition bs ts body ns opens inside closes after =>
    have directive := Token.directive_of_part (by simp) opens
    rw [List.cons_append, seam_apart ((Token.alone directive).2 t), seam_apart ((Node.alone rfl).2 m)]
    exact .single read (.cond opens inside closes after)
  | @condElse u o e mark condition bs ss ts body second ns opens inside splits insideToo closes after =>
    have directive := Token.directive_of_part (by simp) opens
    rw [List.cons_append, List.cons_append, seam_apart ((Token.alone directive).2 t),
      seam_apart ((Node.alone rfl).2 m)]
    exact .single read (.condElse opens inside splits insideToo closes after)

/-- What is derived from the first tokens stands before what is derived from the others, and only texts at
the seam are merged. -/
theorem Derives.seam (first : Derives inline ts ms) (second : Derives inline us ns) :
    Derives inline (Stencil.seam Token.merge? ts us) (Stencil.seam Node.merge? ms ns) := by
  -- The end of a conditional is never merged, so the seam moves on to what stands behind it.
  induction first with
  | nil =>
    rw [seam_nil, seam_nil]
    exact second
  | @single t m ts ms read after ih =>
    by_cases last : ts = []
    · subst last
      cases after
      exact .seam_single read second
    · have more : ms ≠ [] := by
        rintro rfl
        cases after
        exact last rfl
      rw [seam_cons last, seam_cons more]
      exact .single read ih
  | @cond t e mark condition bs ts body ms opens inside closes after _ ih =>
    have directive := Token.directive_of_part (by simp) closes
    rw [seam_append, seam_alone (Token.alone directive).1, seam_alone (Node.alone rfl).1]
    exact .cond opens inside closes ih
  | @condElse t o e mark condition bs ss ts body second ms opens inside splits insideToo closes after _ _ ih =>
    have directive := Token.directive_of_part (by simp) closes
    rw [seam_append, seam_alone (Token.alone directive).1, seam_alone (Node.alone rfl).1]
    exact .condElse opens inside splits insideToo closes ih

end Derivation

/-- A stretch that goes on with another one compiles to the nodes of both. -/
theorem compileStretch_extend {ms ns : List Node} (parts : r.Parts c.rest d.rest)
    (first : compileStretch r c = .ok ms) (second : compileStretch r d = .ok ns) :
    ∃ ks, compileStretch r (c.extend d.rest) = .ok ks ∧
      Node.LikeAll (fun _ _ => True) ks (seam Node.merge? ms ns) := by
  obtain ⟨ts, read, derives⟩ := compileStretch_eq_ok_iff.mp first
  obtain ⟨us, readToo, derivesToo⟩ := compileStretch_eq_ok_iff.mp second
  obtain ⟨vs, goesOn, like⟩ := tokenize_extend parts read readToo
  have same : ∀ l, Inline.Like (fun _ _ => True) l (compileStretch .block) (compileStretch .block) :=
    fun _ b b' rest _ _ => Cursor.Like.compile_alike .anywhere (fun _ _ => rfl)
      ⟨rest, List.infix_rfl, trivial⟩
  have alike := parse_alike .anywhere like fun t _ _ => same t.value.length
  rw [(derives.seam derivesToo).parse, ← parse_inner goesOn] at alike
  obtain ⟨ks, built, nodes⟩ := alike.of_ok_right
  exact ⟨ks, compileStretch_eq_ok_iff.mpr ⟨vs, goesOn, (parse_eq_ok_iff goesOn).mp built⟩, nodes⟩

end Merging

end Stencil
