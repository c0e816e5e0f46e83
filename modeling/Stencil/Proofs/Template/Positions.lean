import Stencil.Proofs.Template.Preorder
import Stencil.Proofs.Template.Reading
import Stencil.Template.Compile

namespace Stencil

variable {text : List Char} {start stop lo hi : Nat}

/-- A stretch from `lo` to `hi` was compiled: its directives are spread over it, or the fault that
was found stands in the text. -/
def Placed (text : List Char) (lo hi : Nat) : Except SyntaxError (List Node) → Prop :=
  Settles text fun nodes => Spread text lo hi (Node.marksIn nodes)

/-- A way to compile the contents of blocks that keeps the places right. -/
def Inline.Places (inline : Inline) (text : List Char) : Prop :=
  ∀ block : Cursor, block.Within text → Placed text block.offset block.stop (inline block)

section Items

variable {inline : Inline} {p : Nat}

/-- The directives of a block lie behind the one that the block belongs to. -/
theorem Reads.inlineBlock (places : inline.Places text) {block : Cursor}
    (inside : Reads.Inner text start stop block) :
    Reads text start stop (fun body => Spread text start stop (Node.marksIn body))
      (liftExcept (inline block)) := by
  obtain ⟨within, low, high⟩ := inside
  have compiled : Reads text start stop _ _ := .lift (places block within)
  exact compiled.weaken fun body spread => spread.mono low high

theorem Reads.readOperands (places : inline.Places text) (opens : text[p]? = some '$')
    (before : p < start) (low : start ≤ stop) (k : Keyword) :
    Reads text start stop (fun i => Spread text p stop i.marks)
      (readOperands inline (placeAt text p) k) := by
  obtain ⟨bound, -⟩ := List.getElem?_eq_some_iff.mp opens
  have known : IsPlace text (placeAt text p) := ⟨p, Nat.le_of_lt bound, rfl⟩
  have own : Spread text p start [placeAt text p] := .single (Nat.le_refl p) before opens
  have alone : Spread text p stop [placeAt text p] := own.mono (Nat.le_refl p) low
  cases k with
  | «include» => exact .bind (.readName _ known) fun _ _ => .pure alone
  | apply =>
    exact .bind (.readPath _ known) fun _ _ => .bind (.readPath _ known) fun _ _ => .pure alone
  | cond => exact .bind (.readPath _ known) fun _ _ => .pure alone
  | map =>
    refine .bind .skipBlanks fun _ _ => .bind .get fun _ _ => ?_
    split
    · refine .bind (.readColonBlock _) fun block inside => ?_
      refine .bind (.inlineBlock places inside) fun body spread => ?_
      refine .bind (.readPath _ known) fun _ _ => .pure ?_
      exact own.append spread (Nat.le_of_lt before) low
    · exact .bind (.readName _ known) fun _ _ => .bind (.readPath _ known) fun _ _ => .pure alone
  | join => exact .bind (.readLiteral _) fun _ _ => .bind (.readPath _ known) fun _ _ => .pure alone
  | txt =>
    refine .bind (.readLiteral _) fun key _ => ?_
    split
    · exact .throw known
    · exact .pure alone

/-- A token of the text, from `lo` up to `hi`. A directive opens with the delimiter at `lo`, and its
content lies behind that. -/
structure Token.Stands (text : List Char) (lo hi : Nat) (t : Token) : Prop where
  mark : t.mark = placeAt text lo
  bound : lo ≤ text.length
  ends : lo ≤ hi
  content : t.kind = .directive →
    text[lo]? = some '$' ∧ lo < t.offset ∧ t.content.Within text ∧ t.content.stop ≤ hi

theorem Reads.readItem (places : inline.Places text) {t : Token} (opens : text[p]? = some '$')
    (mark : t.mark = placeAt text p) (before : p < start) (low : start ≤ stop) :
    Reads text start stop (fun i => Spread text p stop i.marks) (readItem inline t) := by
  obtain ⟨bound, -⟩ := List.getElem?_eq_some_iff.mp opens
  have known : IsPlace text t.mark := ⟨p, Nat.le_of_lt bound, mark⟩
  refine .bind .nextWord fun w here => ?_
  split
  · rename_i k _
    rw [mark]
    exact .bind (.readOperands places opens before low k) fun i spread =>
      .bind (.requireEnd _) fun _ _ => .pure spread
  · refine .bind .get fun c at_ => ?_
    split
    · exact .throw known
    · exact .throw at_.within.isPlace
    · split
      · exact .throw known
      · refine .bind (.lift (Reads.path_settles here)) fun path _ => .bind .skipBlanks fun _ _ =>
          .bind .get fun rest _ => ?_
        split
        · refine .pure ?_
          rw [mark]
          exact .single (Nat.le_refl p) (by omega) opens
        · exact .throw known

/-- What a token contributes is opened by it or inside it. -/
theorem Token.item_placed (places : inline.Places text) {t : Token} (stands : t.Stands text lo hi) :
    Settles text (fun i => Spread text lo hi i.marks) (t.item inline) := by
  unfold Token.item
  split
  · exact Spread.nil
  · exact ⟨lo, stands.bound, stands.mark⟩
  · rename_i directive
    obtain ⟨opens, before, within, inside⟩ := stands.content directive
    have reads := Reads.readItem places opens stands.mark before
      (Nat.le_add_right t.offset t.content.rest.length)
    have step := reads t.content ⟨within, Nat.le_refl _, rfl⟩
    split
    · exact Spread.nil
    split
    · exact Spread.nil
    · cases ran : Stencil.readItem inline t t.content with
      | ok i after =>
        rw [ran] at step
        exact step.2.mono (Nat.le_refl _) inside
      | error e after =>
        rw [ran] at step
        exact step

end Items

section Tokens

theorem Reads.toDelimiter {opened : Mark} (known : IsPlace text opened) :
    Reads text start stop (fun _ => True) (toDelimiter opened) := by
  intro c at_
  fun_induction Stencil.toDelimiter opened c with
  | case1 => exact known
  | case2 => exact ⟨at_, trivial⟩
  | case3 => exact at_.within.isPlace
  | case4 c _ _ block after read ih =>
    have inside := Reads.readBraced c at_
    rw [read] at inside
    exact ih inside.1
  | case5 c _ _ e stopped read =>
    have inside := Reads.readBraced c at_
    rw [read] at inside
    exact inside
  | case6 _ _ _ _ _ _ _ ih => exact ih (at_.advance 1)

theorem directiveToken_stands {c : Cursor} (at_ : c.Between text start stop) {cs : List Char}
    (opens : c.rest = '$' :: cs) :
    Lands text (fun t after => t.Stands text c.offset after.offset ∧ after.Between text start stop)
      (directiveToken c) := by
  have inner := at_.advance 1
  have begins : (c.advance 1).offset = c.offset + 1 := by simp [Cursor.advance, opens]
  have opening : (c.advance 1).mark = ⟨c.mark.line, c.mark.column + 1⟩ := by
    simp [Cursor.advance, opens, Mark.next]
  have closing : Lands text (fun _ after => after.Between text (c.advance 1).offset stop ∧ True)
      (toDelimiter c.mark (c.advance 1)) :=
    Reads.toDelimiter at_.within.isPlace _ ⟨inner.within, Nat.le_refl _, inner.ends⟩
  unfold directiveToken
  cases ran : toDelimiter c.mark (c.advance 1) with
  | error e stopped =>
    rw [ran] at closing
    simp only [ran]
    exact closing
  | ok _ stopped =>
    rw [ran] at closing
    obtain ⟨stays, -⟩ := closing
    have first := at_.behind
    have behind := stays.behind
    have further : stopped.offset ≤ (stopped.advance 1).offset := Nat.le_add_right _ _
    have cut : Token.content ⟨.directive, (c.advance 1).rest.take
        (stopped.offset - (c.advance 1).offset), (c.advance 1).offset, stopped.offset, c.mark⟩ =
        (c.advance 1).upTo (stopped.offset - (c.advance 1).offset) := by
      rw [Token.content, Cursor.upTo, opening]
    have short : ((c.advance 1).upTo (stopped.offset - (c.advance 1).offset)).stop ≤
        (stopped.advance 1).offset := by
      simp only [Cursor.stop, Cursor.upTo, List.length_take]
      omega
    simp only [ran]
    refine ⟨⟨at_.within.mark_eq, at_.within.bound, by omega, fun _ => ?_⟩,
      (stays.advance 1).within, by omega, (stays.advance 1).ends⟩
    rw [cut]
    exact ⟨at_.within.getElem? opens, Nat.le_of_eq begins.symm, inner.within.upTo _, short⟩

/-- A token starts where the cursor stands, and reading goes on behind it. -/
theorem Token.next_stands {r : Region} {c : Cursor} (at_ : c.Between text start stop) :
    Lands text (fun t after => t.Stands text c.offset after.offset ∧ after.Between text start stop)
      (Token.next r c) := by
  unfold Token.next
  split
  · exact ⟨⟨at_.within.mark_eq, at_.within.bound, Nat.le_refl _, fun wrong => by cases wrong⟩, at_⟩
  · rename_i cs left
    exact directiveToken_stands at_ left
  · have further := at_.advance (r.textLength c.rest)
    exact ⟨⟨at_.within.mark_eq, at_.within.bound, Nat.le_add_right _ _, fun wrong => by cases wrong⟩,
      further⟩

/-- Tokens that stand one behind the other, from `lo` to an end token not behind `hi`. -/
inductive Row (text : List Char) (hi : Nat) : Nat → List Token → Prop
  | last {lo : Nat} {t : Token} (eof : t.kind = .eof) (low : lo ≤ hi) : Row text hi lo [t]
  | more {lo mid : Nat} {t : Token} {ts : List Token} (first : t.Stands text lo mid)
      (rest : Row text hi mid ts) : Row text hi lo (t :: ts)

theorem Row.le {ts : List Token} (row : Row text hi lo ts) : lo ≤ hi := by
  induction row with
  | last _ low => exact low
  | more first _ ih => exact Nat.le_trans first.ends ih

theorem tokenize_row {r : Region} {c : Cursor} (at_ : c.Between text start stop) :
    Settles text (Row text stop c.offset) (tokenize r c) := by
  fun_induction tokenize r c with
  | case1 c _ =>
    refine .last rfl ?_
    have ends := at_.ends
    rw [Cursor.stop] at ends
    omega
  | case2 c _ e stopped read =>
    have step := Token.next_stands (r := r) at_
    rw [read] at step
    exact step
  | case3 c _ t after read ih =>
    have step := Token.next_stands (r := r) at_
    rw [read] at step
    have later := ih step.2
    cases ran : tokenize r after with
    | error e =>
      rw [ran] at later
      exact later
    | ok ts =>
      rw [ran] at later
      exact .more step.1 later

end Tokens

section Drafts

/-- The places of the directives that a template under construction has opened so far. -/
def Draft.marks (d : Draft) : List Mark :=
  d.items.flatMap Item.marks

theorem Draft.marks_add {d d' : Draft} {mark : Mark} {i : Item} (added : d.add mark i = .ok d') :
    d'.marks = d.marks ++ i.marks := by
  rw [Draft.marks, Draft.items_add added, List.flatMap_append, Item.marks_items, Draft.marks]

theorem Draft.addTokens_placed {inline : Inline} (places : inline.Places text) {ts : List Token}
    (row : Row text hi lo ts) :
    ∀ d : Draft, start ≤ lo → Spread text start lo d.marks →
      Settles text (fun d' => Spread text start hi d'.marks) (d.addTokens inline ts) := by
  induction row with
  | last eof low =>
    intro d _ spread
    rw [Draft.addTokens, if_pos eof]
    exact spread.mono (Nat.le_refl _) low
  | @more lo mid t ts first rest ih =>
    intro d low spread
    rw [Draft.addTokens]
    split
    · exact spread.mono (Nat.le_refl _) (Nat.le_trans first.ends rest.le)
    · refine (Token.item_placed places first).bind fun i opened => ?_
      refine .bind (Q := fun d' => Spread text start mid d'.marks) ?_ fun d' onwards =>
        ih d' (Nat.le_trans low first.ends) onwards
      cases added : d.add t.mark i with
      | error e => exact ⟨lo, first.bound, (Draft.mark_of_add added).trans first.mark⟩
      | ok d' =>
        change Spread text start mid d'.marks
        rw [Draft.marks_add added]
        exact spread.append opened low first.ends

theorem parse_placed {inline : Inline} (places : inline.Places text) {ts : List Token}
    (row : Row text hi lo ts) : Placed text lo hi (parse inline ts) := by
  refine (Draft.addTokens_placed places row .empty (Nat.le_refl lo) .nil).bind fun d spread => ?_
  cases finished : d.finish with
  | error e =>
    obtain ⟨condition, opened⟩ := Draft.openIf_of_finish finished
    have mark : e.mark ∈ d.marks := List.mem_flatMap.mpr ⟨_, opened, List.mem_singleton.mpr rfl⟩
    exact spread.isPlace mark
  | ok nodes =>
    change Spread text lo hi (Node.marksIn nodes)
    rw [← Node.marks_itemsIn, Draft.items_finish finished]
    exact spread

end Drafts

/-- Compiling a stretch of the text keeps all places. The stretches inside it are shorter, and the
induction is on their length. -/
theorem compileStretch_placed (r : Region) (c : Cursor) (at_ : c.Within text) :
    Placed text c.offset c.stop (compileStretch r c) := by
  fun_induction compileStretch r c with
  | case1 r c ih =>
    refine (tokenize_row ⟨at_, Nat.le_refl _, rfl⟩).bind fun tokens row => ?_
    refine parse_placed (fun block inside => ?_) row
    split
    · rename_i shorter
      exact ih block shorter inside
    · exact inside.isPlace

/-- Positions are exact at every depth. In a compiled source the places of the directives, in
pre-order, are those of strictly increasing offsets at which delimiters stand; a refused source is
refused at the place of one of its offsets, or of its end. -/
theorem compile_positions (source name : String) :
    match compile source name with
    | .ok t => ∃ ps : List Nat, ps.Pairwise (· < ·) ∧
        (∀ p ∈ ps, source.toList[p]? = some '$') ∧
        Node.marksIn t.nodes = ps.map (placeAt source.toList)
    | .error e => ∃ p, p ≤ source.toList.length ∧ e.mark = placeAt source.toList p := by
  have placed := compileStretch_placed .page _ (Cursor.Within.ofText source.toList)
  rw [compile]
  cases ran : compileStretch .page (.ofText source.toList) with
  | error e =>
    rw [ran] at placed
    exact placed
  | ok nodes =>
    rw [ran] at placed
    obtain ⟨ps, rising, inside, same⟩ := placed
    exact ⟨ps, rising, fun p found => (inside p found).2.2, same⟩

end Stencil
