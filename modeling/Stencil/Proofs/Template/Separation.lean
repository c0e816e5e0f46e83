import Stencil.Proofs.Failing
import Stencil.Proofs.Template.Heads
import Stencil.Proofs.Template.Names

namespace Stencil

/-- The directive goes through a list with a template in place, which this block holds. -/
def Token.Opens (t : Token) (block : Cursor) : Prop :=
  ∃ w mid begun after, nextWord t.content = .ok w mid ∧ w.letters = Keyword.map.word.toList ∧
    skipBlanks mid = .ok () begun ∧ readColonBlock Keyword.map.word begun = .ok block after

/-- The directive splits a conditional or closes it. No operands are read from it. -/
def Token.IsBare (t : Token) : Prop :=
  t.role = .otherwise ∨ t.role = .closes

/-- The offset lies in the head of a directive: in its content, outside its blocks; or in the head of a directive of the
template that stands in a block of it. It is free only where no operands are read from the directive. -/
inductive InHead : Region → Cursor → Nat → Bool → Prop
  | own {r : Region} {c : Cursor} {ts : List Token} {t : Token} {i : Nat} {free : Bool} (read : tokenize r c = .ok ts)
      (member : t ∈ ts) (directive : t.kind = .directive) (inside : t.offset ≤ i ∧ i < t.stop)
      (outside : Crossable (t.value.take (i - t.offset))) (bare : free → t.IsBare) : InHead r c i free
  | inline {r : Region} {c block : Cursor} {ts : List Token} {t : Token} {i : Nat} {free : Bool}
      (read : tokenize r c = .ok ts) (member : t ∈ ts) (directive : t.kind = .directive)
      (inside : t.offset ≤ i ∧ i < t.stop) (opens : t.Opens block) (deeper : InHead .block block i free) :
      InHead r c i free

section Items

/-- Places are not compared. -/
abbrev Anywhere : Mark → Mark → Prop := fun _ _ => True

variable {t u : Token} {P : Nat → Bool → Prop} {inline inline' : Inline}

theorem Follows.readOperands {m m' : Mark} {k : Keyword}
    (literal : k ≠ .map → ∀ i free, t.offset ≤ i → i < t.offset + t.value.length → P i free →
      Crossable (t.value.take (i - t.offset)))
    (inlines : ∀ b b', t.Opens b → b.Blocks t P b' → ∀ body, inline b = .ok body →
      ∃ body', inline' b' = .ok body' ∧ Node.LikeAll Anywhere body body') :
    Follows (fun c d => (∃ w, Stencil.nextWord t.content = .ok w c ∧ w.letters = k.word.toList) ∧ c.Along t P d)
      (fun i c j d => i.Like Anywhere j ∧ c.Along t P d) (Stencil.readOperands inline m k)
      (Stencil.readOperands inline' m' k) := by
  cases k with
  | «include» =>
    refine .bind (.pre (.readName _ m m') fun _ _ reached => reached.2) fun name _ ⟨_, _, same, _⟩ => ?_
    exact .pure fun _ _ reached => ⟨⟨trivial, same⟩, reached.2⟩
  | apply =>
    refine .bind (.pre (.readPath _ m m') fun _ _ reached => reached.2) fun func _ ⟨_, _, same, _⟩ => ?_
    refine .bind (.pre (.readPath _ m m') fun _ _ reached => reached.2) fun arg _ ⟨_, _, sameToo, _⟩ => ?_
    exact .pure fun _ _ reached => ⟨⟨trivial, same, sameToo⟩, reached.2⟩
  | cond =>
    refine .bind (.pre (.readPath _ m m') fun _ _ reached => reached.2) fun condition _ ⟨_, _, same, _⟩ => ?_
    exact .pure fun _ _ reached => ⟨⟨trivial, same⟩, reached.2⟩
  | map =>
    refine .bind (.knowing .skipBlanks) fun _ _ _ => .bind .get fun c d => ?_
    rintro ⟨_, _, rfl, rfl, ⟨mid, ⟨w, word, letters⟩, blanks⟩, along, -⟩
    have same := along.peek (b := ':') (by decide)
    by_cases colon : c.peek 0 = some ':'
    · rw [if_pos colon, if_pos (same.mpr colon)]
      have begun : Follows (fun c' d' => c' = c ∧ c'.Along t P d') _ (Stencil.readColonBlock Keyword.map.word)
          (Stencil.readColonBlock Keyword.map.word) := .knowing (.readColonBlock _)
      refine .bind (.pre begun ?_) fun b b' ⟨_, _, ⟨_, rfl, read⟩, block, _⟩ => ?_
      · rintro _ _ ⟨rfl, rfl, reached⟩
        exact ⟨rfl, along⟩
      have opens : t.Opens b := ⟨w, mid, _, _, word, letters, blanks, read⟩
      refine .bind (.pre (.lift (inlines b b' opens block)) fun _ _ reached => reached.2.2) ?_
      rintro body body' ⟨_, _, bodies, -⟩
      refine .bind (.pre (.readPath _ m m') fun _ _ reached => reached.2) fun items _ ⟨_, _, same, _⟩ => ?_
      exact .pure fun _ _ reached => ⟨⟨trivial, bodies, same⟩, reached.2⟩
    · rw [if_neg colon, if_neg (mt same.mp colon)]
      refine .bind (.pre (.readName _ m m') fun _ _ reached => reached.2.2.2.1) fun name _ ⟨_, _, same, _⟩ => ?_
      refine .bind (.pre (.readPath _ m m') fun _ _ reached => reached.2) fun items _ ⟨_, _, sameToo, _⟩ => ?_
      exact .pure fun _ _ reached => ⟨⟨trivial, same, sameToo⟩, reached.2⟩
  | join =>
    have plain := literal (by decide)
    refine .bind (.pre (.readLiteral _ plain) fun _ _ reached => reached.2) fun separator _ ⟨_, _, same, _⟩ => ?_
    refine .bind (.pre (.readPath _ m m') fun _ _ reached => reached.2) fun items _ ⟨_, _, sameToo, _⟩ => ?_
    exact .pure fun _ _ reached => ⟨⟨trivial, same, sameToo⟩, reached.2⟩
  | txt =>
    have plain := literal (by decide)
    refine .bind (.pre (.readLiteral _ plain) fun _ _ reached => reached.2) fun key _ ⟨_, _, same, _⟩ => ?_
    subst same
    split
    · exact .throw
    · exact .pure fun _ _ reached => ⟨⟨trivial, rfl⟩, reached.2⟩

theorem Token.Opens.letters {b mid : Cursor} {w : Word} (opens : t.Opens b) (word : nextWord t.content = .ok w mid) :
    w.letters = Keyword.map.word.toList := by
  obtain ⟨v, _, _, _, same, letters, -⟩ := opens
  rw [word] at same
  cases same
  exact letters

variable (literal : (∀ b, ¬t.Opens b) → ∀ i free, t.offset ≤ i → i < t.offset + t.value.length → P i free →
    Crossable (t.value.take (i - t.offset)))
  (inlines : ∀ b b', t.Opens b → b.Blocks t P b' → ∀ body, inline b = .ok body →
    ∃ body', inline' b' = .ok body' ∧ Node.LikeAll Anywhere body body')

include literal inlines

theorem Follows.readItem (u : Token) :
    Follows (fun c d => c = t.content ∧ c.Along t P d) (fun i _ j _ => i.Like Anywhere j) (readItem inline t)
      (Stencil.readItem inline' u) := by
  refine .bind (.knowing .nextWord) fun w w' ⟨c, d, ⟨_, rfl, word⟩, letters, along⟩ => ?_
  rw [← letters]
  cases found : Keyword.ofWord? w.letters with
  | some k =>
    have keyword := letters_of_ofWord? found
    have plain (other : k ≠ .map) := literal fun b opens => by
      have same := keyword.symm.trans (opens.letters word)
      cases k <;> first | exact other rfl | exact absurd same (by decide)
    refine .bind (.pre (.readOperands plain inlines) ?_) fun i j ⟨_, _, like, _⟩ => ?_
    · rintro _ _ ⟨⟨_, rfl, ran⟩, -, reached⟩
      exact ⟨⟨w, ran, keyword⟩, reached⟩
    · exact .bind (.pre (.requireEnd _) fun _ _ reached => reached.2) fun _ _ _ => .pure fun _ _ _ => like
  | none =>
    refine .bind .get fun c d _ => ?_
    cases filled : w.letters with
    | nil => cases c.peek 0 <;> exact .throw
    | cons b bs =>
      simp only
      split
      · exact .throw
      · refine .bind (.pre (.lift (w.path_respelled letters)) fun _ _ reached => reached.2.2.2.2) ?_
        rintro path _ ⟨_, _, rfl, -⟩
        refine .bind (.pre .skipBlanks fun _ _ reached => reached.2) fun _ _ _ => .bind .get fun c d => ?_
        rintro ⟨_, _, rfl, rfl, behind, -⟩
        rw [behind.atEnd]
        split
        · exact .pure fun _ _ _ => ⟨trivial, rfl⟩
        · exact .throw

/-- A directive with other blanks in its head is read as the same. -/
theorem Token.item_respaced
    (strict : ¬t.IsBare → ∀ i, t.offset ≤ i → i < t.offset + t.value.length →
      Crossable (t.value.take (i - t.offset)) → ¬P i true)
    (like : t.Respaced P u) {i : Item} (directive : t.kind = .directive) (read : t.item inline = .ok i) :
    ∃ j, u.item inline' = .ok j ∧ i.Like Anywhere j := by
  have kind := like.kind
  have split : words u.value = words t.value := words_respaced like.content.alike
  rw [directive] at kind
  rcases Token.item_ok read with
    ⟨text, -⟩ | ⟨-, ⟨isElse, rfl⟩ | ⟨isEnd, rfl⟩ | ⟨notElse, notEnd, c, item⟩⟩
  · rw [directive] at text
    cases text
  · rw [← split] at isElse
    exact ⟨.otherwise, by simp only [Token.item, ← kind, if_pos isElse], trivial⟩
  · have notElse : words u.value ≠ ["else".toList] := by
      rw [split, isEnd]
      decide
    rw [← split] at isEnd
    exact ⟨.endIf, by simp only [Token.item, ← kind, if_neg notElse, if_pos isEnd], trivial⟩
  · have operands : ¬t.IsBare := by
      rintro (splits | closes)
      · exact notElse (Token.words_of_otherwise splits).2
      · exact notEnd (Token.words_of_closes closes).2
    rw [← split] at notElse notEnd
    have along : t.content.Along t P u.content := .begin like.content (strict operands)
    obtain ⟨j, d, itemToo, same⟩ := Follows.readItem literal inlines u t.content u.content i c ⟨rfl, along⟩ item
    refine ⟨j, ?_, same⟩
    simp only [Token.item, ← kind, if_neg notElse, if_neg notEnd, itemToo]

omit literal inlines in
/-- What is no directive holds the same. -/
theorem Token.item_literal (like : t.Respaced P u) {i : Item} (other : t.kind ≠ .directive)
    (read : t.item inline = .ok i) : ∃ j, u.item inline' = .ok j ∧ i.Like Anywhere j := by
  have kind := like.kind
  have value := like.literal other
  rcases Token.item_ok read with ⟨text, rfl⟩ | ⟨directive, -⟩
  · rw [text] at kind
    refine ⟨.node (.text (String.ofList u.value)), ?_, congrArg String.ofList value⟩
    simp only [Token.item, ← kind]
  · exact absurd directive other

end Items

section Compile

variable {inline inline' : Inline} {ts us : List Token}

/-- Tokens whose items hold the same data become nodes that do. -/
theorem Draft.addTokens_follows
    (items : List.Forall₂ (fun t u : Token => t.kind = u.kind ∧ ∀ i, t.item inline = .ok i →
      ∃ j, u.item inline' = .ok j ∧ i.Like Anywhere j) ts us) {d d' e : Draft} (like : d.Like Anywhere e)
    (added : d.addTokens inline ts = .ok d') : ∃ e', e.addTokens inline' us = .ok e' ∧ d'.Like Anywhere e' := by
  induction items generalizing d e with
  | nil =>
    cases added
    exact ⟨e, rfl, like⟩
  | @cons t u ts us first rest ih =>
    rw [Draft.addTokens] at added ⊢
    rw [← first.1]
    split at added
    · rename_i last
      cases added
      exact ⟨e, if_pos last, like⟩
    · rename_i inside
      rw [if_neg inside]
      obtain ⟨i, read, added⟩ := exists_of_bind_ok added
      obtain ⟨mid, grown, added⟩ := exists_of_bind_ok added
      obtain ⟨j, readToo, same⟩ := first.2 i read
      have step := like.add (m := t.mark) (n := u.mark) trivial same
      rw [grown] at step
      obtain ⟨mid', grownToo, mids⟩ := step.of_ok
      obtain ⟨e', addedToo, ends⟩ := ih mids added
      refine ⟨e', ?_, ends⟩
      calc (u.item inline' >>= fun j => e.add u.mark j >>= fun d => d.addTokens inline' us)
        _ = (e.add u.mark j >>= fun d => d.addTokens inline' us) := by rw [readToo]; rfl
        _ = mid'.addTokens inline' us := by rw [grownToo]; rfl
        _ = .ok e' := addedToo

theorem parse_follows
    (items : List.Forall₂ (fun t u : Token => t.kind = u.kind ∧ ∀ i, t.item inline = .ok i →
      ∃ j, u.item inline' = .ok j ∧ i.Like Anywhere j) ts us) {ns : List Node} (parsed : parse inline ts = .ok ns) :
    ∃ ms, parse inline' us = .ok ms ∧ Node.LikeAll Anywhere ns ms := by
  obtain ⟨d, added, finished⟩ := exists_of_bind_ok parsed
  have empty : Draft.empty.Like Anywhere Draft.empty := ⟨.nil, .nil⟩
  obtain ⟨e, addedToo, like⟩ := Draft.addTokens_follows items empty added
  have ends := like.finish
  rw [finished] at ends
  obtain ⟨ms, finishedToo, nodes⟩ := ends.of_ok
  refine ⟨ms, ?_, nodes⟩
  rw [parse, addedToo]
  exact finishedToo

theorem Token.Opens.unique {t : Token} {b b' : Cursor} (opens : t.Opens b) (opensToo : t.Opens b') : b = b' := by
  obtain ⟨w, mid, begun, after, word, -, blanks, braces⟩ := opens
  obtain ⟨w', mid', begun', after', wordToo, -, blanksToo, bracesToo⟩ := opensToo
  rw [word] at wordToo
  cases wordToo
  rw [blanks] at blanksToo
  cases blanksToo
  rw [braces] at bracesToo
  cases bracesToo
  rfl

/-- The block that is opened stands in braces. -/
theorem Token.Opens.blocks {t : Token} {block : Cursor} (opens : t.Opens block) :
    block.Blocks t (fun _ _ => False) block := by
  obtain ⟨w, mid, begun, after, word, -, blanks, braces⟩ := opens
  have along : t.content.Along t (fun _ _ => False) t.content := .begin (.refl _) fun _ _ _ _ => id
  obtain ⟨_, _, wordToo, -, alongMid⟩ := Follows.nextWord _ _ _ _ along word
  rw [word] at wordToo
  cases wordToo
  obtain ⟨_, _, blanksToo, alongBegun, -⟩ := Follows.skipBlanks _ _ _ _ alongMid blanks
  rw [blanks] at blanksToo
  cases blanksToo
  obtain ⟨_, _, bracesToo, blocks, -⟩ := Follows.readColonBlock _ _ _ _ _ alongBegun braces
  rw [braces] at bracesToo
  cases bracesToo
  exact blocks

variable {r : Region} {c d : Cursor} {t : Token} {i : Nat} {free : Bool}

/-- The content of a directive ends where its token does. -/
theorem Token.stop_eq (read : tokenize r c = .ok ts) (member : t ∈ ts) (directive : t.kind = .directive) :
    t.stop = t.offset + t.value.length := by
  induction size : c.rest.length using Nat.strongRecOn generalizing c ts with
  | ind size ih =>
    by_cases done : c.rest = []
    · rw [tokenize_nil done] at read
      cases read
      rw [List.mem_singleton.mp member] at directive
      cases directive
    · obtain ⟨u, after, us, first, rest, rfl, -⟩ := tokenize_first done read
      rcases List.mem_cons.mp member with rfl | later
      · rcases Token.next_ok first with ⟨-, rfl, -⟩ | ⟨_, _, -, ⟨-, opened⟩ | ⟨-, text⟩⟩
        · cases directive
        · obtain ⟨stopped, closed, rfl, -⟩ := directiveToken_ok opened
          have ends := stop_toDelimiter closed
          have shorter := toDelimiter_shorter closed
          simp only [Cursor.stop, List.length_take] at ends ⊢
          omega
        · cases text
          cases directive
      · exact ih _ (size ▸ Token.next_shorter done first) rest later rfl

theorem InHead.within (inHead : InHead r c i free) : c.offset ≤ i ∧ i < c.stop := by
  cases inHead with
  | own read member _ inside | inline read member _ inside =>
    have token := tokenize_within read member
    omega

/-- What lies in the head of a directive lies in one token alone: outside its blocks, or in the head of a directive in
its block. -/
theorem InHead.of_token (inHead : InHead r c i free) (read : tokenize r c = .ok ts) (member : t ∈ ts)
    (inside : t.offset ≤ i ∧ i < t.stop) :
    t.kind = .directive ∧ (Crossable (t.value.take (i - t.offset)) ∧ (free → t.IsBare) ∨
      ∃ block, t.Opens block ∧ InHead .block block i free) := by
  cases inHead with
  | own readToo memberToo directive insideToo outside bare =>
    rw [read] at readToo
    cases readToo
    obtain rfl := tokenize_disjoint read member memberToo inside insideToo
    exact ⟨directive, .inl ⟨outside, bare⟩⟩
  | inline readToo memberToo directive insideToo opens deeper =>
    rw [read] at readToo
    cases readToo
    obtain rfl := tokenize_disjoint read member memberToo inside insideToo
    exact ⟨directive, .inr ⟨_, opens, deeper⟩⟩

section Directive

variable (read : tokenize r c = .ok ts) (member : t ∈ ts) (directive : t.kind = .directive)

include read member directive

/-- In a directive without a template in place no blank inside a block counts. -/
theorem InHead.of_closed (closed : ∀ block, ¬t.Opens block) (low : t.offset ≤ i) (high : i < t.offset + t.value.length)
    (inHead : InHead r c i free) : Crossable (t.value.take (i - t.offset)) := by
  have stop := Token.stop_eq read member directive
  rcases (inHead.of_token read member ⟨low, stop ▸ high⟩).2 with ⟨outside, -⟩ | ⟨block, opens, -⟩
  · exact outside
  · exact absurd opens (closed block)

/-- A blank in the template in place is in the head of a directive there. -/
theorem InHead.of_block {P : Nat → Bool → Prop} {block block' : Cursor} (opens : t.Opens block)
    (blocks : block.Blocks t P block') (low : block.offset ≤ i) (high : i < block.offset + block.rest.length)
    (inHead : InHead r c i free) : InHead .block block i free := by
  have stop := Token.stop_eq read member directive
  obtain ⟨begins, ends, inBlock⟩ := blocks.inside i low high
  rcases (inHead.of_token read member ⟨begins, stop ▸ ends⟩).2 with ⟨outside, -⟩ | ⟨own, opensToo, deeper⟩
  · exact absurd outside inBlock
  · exact opens.unique opensToo ▸ deeper

/-- Where operands are read, no blank outside the blocks is free. -/
theorem InHead.not_free (operands : ¬t.IsBare) (low : t.offset ≤ i) (high : i < t.offset + t.value.length)
    (outside : Crossable (t.value.take (i - t.offset))) : ¬InHead r c i true := by
  intro inHead
  have stop := Token.stop_eq read member directive
  rcases (inHead.of_token read member ⟨low, stop ▸ high⟩).2 with ⟨-, bare⟩ | ⟨block, opens, deeper⟩
  · exact operands (bare rfl)
  · obtain ⟨begins, ends⟩ := deeper.within
    exact (opens.blocks.inside i begins ends).2.2 outside

end Directive

/-- A stretch that compiles still does with other blanks in the heads of its directives, and to the same data. -/
theorem compileStretch_respaced {ns : List Node} (compiled : compileStretch r c = .ok ns)
    (respaced : c.Respaced (InHead r c) d) :
    ∃ ms, compileStretch r d = .ok ms ∧ Node.LikeAll Anywhere ns ms := by
  induction size : c.rest.length using Nat.strongRecOn generalizing r c d ns with
  | ind size ih =>
    subst size
    rw [compileStretch_eq] at compiled
    obtain ⟨ts, read, parsed⟩ := exists_of_bind_ok compiled
    have untouched : ∀ t ∈ ts, t.kind = .text → ∀ i free, t.offset ≤ i → i < t.stop → ¬InHead r c i free := by
      intro t member text i free low high inHead
      have directive := (inHead.of_token read member ⟨low, high⟩).1
      rw [text] at directive
      cases directive
    obtain ⟨us, readToo, tokens⟩ := tokenize_respaced respaced read untouched
    have items : List.Forall₂ (fun t u : Token => t.kind = u.kind ∧ ∀ i, t.item (compileStretch .block) = .ok i →
        ∃ j, u.item (compileStretch .block) = .ok j ∧ i.Like Anywhere j) ts us := by
      refine ((List.forall₂_and_left ts us).mpr ⟨fun t member => member, tokens⟩).imp fun t u ⟨member, like⟩ => ?_
      refine ⟨like.kind, fun i item => ?_⟩
      by_cases directive : t.kind = .directive
      · refine Token.item_respaced ?_ ?_ ?_ like directive item
        · intro closed i free low high
          exact InHead.of_closed read member directive closed low high
        · intro block block' opens blocks body inner
          have short := Nat.lt_trans blocks.shorter (value_inside read member directive).2
          have deeper : block.Respaced (InHead .block block) block' :=
            ⟨false, blocks.respaced.mono fun _ _ => InHead.of_block read member directive opens blocks⟩
          exact ih _ short inner deeper rfl
        · intro operands i low high
          exact InHead.not_free read member directive operands low high
      · exact Token.item_literal like directive item
    obtain ⟨ms, parsedToo, alike⟩ := parse_follows items parsed
    refine ⟨ms, ?_, alike⟩
    rw [compileStretch_eq, readToo]
    exact parsedToo

end Compile

/-- In the heads of directives one blank does as well as another: a source that compiles still does when blanks are
replaced by other blanks there, as many as one likes, and to an equal template up to the places. Directly behind a word
only those blanks which end a word may be replaced, and by such ones only, except in the directives from which no
operands are read. So no name in a template holds any of these, or begins with a blank of any kind. -/
theorem compile_respaced {source other name : String} {t : Template} (compiled : compile source name = .ok t)
    (respaced : Respaced (InHead .page (.ofText source.toList)) false 0 source.toList other.toList) :
    (∃ u, compile other name = .ok u ∧ t.agrees u) ∧
      ∀ n : Node, n.Inside t.nodes → ∀ named, n.name? = some named → IsReadable named := by
  obtain ⟨ns, nodes, rfl⟩ := compile_eq_ok_iff.mp compiled
  have cursors : (Cursor.ofText source.toList).Respaced (InHead .page (.ofText source.toList)) (.ofText other.toList) :=
    ⟨false, respaced⟩
  obtain ⟨ms, nodesToo, alike⟩ := compileStretch_respaced nodes cursors
  refine ⟨⟨⟨ms, name⟩, compile_eq_ok_iff.mpr ⟨ms, nodesToo, rfl⟩, alike.agrees⟩, fun n inside named found => ?_⟩
  exact compileStretch_names nodes inside found

/-- A list gone through with a template in place that includes another one, and a conditional. -/
def tabbed : String :=
  "$map:\x7b$include\n\x0bn$\x7d\txs$$if a$$end\x0bif$"

/-- The same with other blanks. The one that does not end a word stands behind another blank, or in the directive that
closes the conditional. -/
def spaced : String :=
  "$map:\x7b$include \u3000n$\x7d\rxs$$if a$$end\u3000if$"

def tabbedToken : Token :=
  ⟨.directive, "map:\x7b$include\n\x0bn$\x7d\txs".toList, 1, 22, ⟨1, 1⟩⟩

/-- The template in the block of that directive. -/
def tabbedBlock : Cursor :=
  ⟨"$include\n\x0bn$".toList, 6, ⟨1, 7⟩⟩

def includeToken : Token :=
  ⟨.directive, "include\n\x0bn".toList, 7, 17, ⟨1, 7⟩⟩

def endToken : Token :=
  ⟨.directive, "end\x0bif".toList, 30, 36, ⟨2, 15⟩⟩

theorem tokenize_tabbed :
    tokenize .page (.ofText tabbed.toList) =
        .ok [tabbedToken, ⟨.directive, "if a".toList, 24, 28, ⟨2, 9⟩⟩, endToken, ⟨.eof, [], 37, 37, ⟨2, 23⟩⟩] ∧
      tokenize .block tabbedBlock = .ok [includeToken, ⟨.eof, [], 18, 18, ⟨2, 4⟩⟩] := by
  decide +kernel

theorem tabbedToken_opens : tabbedToken.Opens tabbedBlock :=
  ⟨⟨"map".toList, ⟨1, 2⟩⟩, _, _, _, rfl, rfl, rfl, rfl⟩

/-- The blank behind the block is in the head of the outer directive. -/
theorem tabbed_outer : InHead .page (.ofText tabbed.toList) 19 false := by
  have inside : Transparent tabbedBlock.rest := .of_readBraced rfl rfl
  have passed : Crossable (tabbedToken.value.take (19 - tabbedToken.offset)) :=
    (IsSimple.crossable (l := "map:".toList) (by decide)).append (.inBraces inside)
  exact .own tokenize_tabbed.1 List.mem_cons_self rfl (by decide) passed nofun

/-- The blanks in front of the name are in the head of the inner directive. -/
theorem tabbed_inner {i : Nat} (inside : i = 14 ∨ i = 15) : InHead .page (.ofText tabbed.toList) i false := by
  refine .inline tokenize_tabbed.1 List.mem_cons_self rfl ?_ tabbedToken_opens
    (.own tokenize_tabbed.2 List.mem_cons_self rfl ?_ ?_ nofun)
  · rcases inside with rfl | rfl <;> decide
  · rcases inside with rfl | rfl <;> decide
  · rcases inside with rfl | rfl <;> exact IsSimple.crossable (by decide)

/-- The blank in the directive that closes the conditional is free. -/
theorem tabbed_end : InHead .page (.ofText tabbed.toList) 33 true :=
  .own (t := endToken) tokenize_tabbed.1 (by decide) rfl (by decide) (IsSimple.crossable (by decide)) fun _ => .inr (by decide)

theorem compile_respaced_of_tabbed :
    ∃ t, compile tabbed "page" = .ok t ∧
      Respaced (InHead .page (.ofText tabbed.toList)) false 0 tabbed.toList spaced.toList ∧
      (∃ u, compile spaced "page" = .ok u ∧ t.agrees u) ∧
      ∀ n : Node, n.Inside t.nodes → ∀ named, n.name? = some named → IsReadable named := by
  have ok : (compile tabbed "page").isOk := by decide +kernel
  obtain ⟨t, compiled⟩ := compile_of_isOk ok
  have respaced : Respaced (InHead .page (.ofText tabbed.toList)) false 0 tabbed.toList spaced.toList :=
    .behind "$map:\x7b$include".toList
      (.blank (tabbed_inner (.inl rfl)) rfl rfl (fun _ => .inr (by decide))
        (.blank (tabbed_inner (.inr rfl)) rfl rfl nofun
          (.behind "n$\x7d".toList
            (.blank tabbed_outer rfl rfl nofun
              (.behind "xs$$if a$$end".toList
                (.blank tabbed_end rfl rfl (fun _ => .inl rfl) (.refl "if$".toList)))))))
  exact ⟨t, compiled, respaced, compile_respaced compiled respaced⟩

/-- Behind a word a blank that does not end it becomes a part of it: there one blank does not do as well as another, and
there are names with blanks. -/
theorem compile_respaced_apart :
    (¬∀ (source name : String) (t : Template) (i : Nat) (b c : Char), compile source name = .ok t →
      InHead .page (.ofText source.toList) i false → source.toList[i]? = some b → isBlank b → isBlank c →
        ∃ u, compile (String.ofList (source.toList.set i c)) name = .ok u ∧ t.agrees u) ∧
    ¬∀ (source name : String) (t : Template) (n : Node) (named : String), compile source name = .ok t →
      n.Inside t.nodes → n.name? = some named → ∀ c ∈ named.toList, isBlank c = false := by
  constructor
  · intro always
    have ok : (compile "$include a$" "").isOk := by decide +kernel
    obtain ⟨t, compiled⟩ := compile_of_isOk ok
    let token : Token := ⟨.directive, "include a".toList, 1, 10, ⟨1, 1⟩⟩
    have page : tokenize .page (.ofText "$include a$".toList) = .ok [token, ⟨.eof, [], 11, 11, ⟨1, 12⟩⟩] := by
      decide +kernel
    have head : InHead .page (.ofText "$include a$".toList) 8 false :=
      .own page List.mem_cons_self rfl (by decide) (IsSimple.crossable (by decide)) nofun
    obtain ⟨u, compiledToo, -⟩ := always "$include a$" "" t 8 ' ' '\x0b' compiled head (by decide) rfl rfl
    have fails : (compile (String.ofList ("$include a$".toList.set 8 '\x0b')) "").isOk = false := by decide +kernel
    rw [compiledToo] at fails
    cases fails
  · intro always
    have ok : (compile "$include a\x0bb$" "").isOk := by decide +kernel
    obtain ⟨t, compiled⟩ := compile_of_isOk ok
    have names : (compile "$include a\x0bb$" "").toOption.map (·.nodes.map Node.name?) = some [some "a\x0bb"] := by
      decide +kernel
    rw [compiled] at names
    have named : t.nodes.map Node.name? = [some "a\x0bb"] := Option.some.inj names
    obtain ⟨n, ns, nodes, name, -⟩ := List.map_eq_cons_iff.mp named
    have here : n.Inside t.nodes := .here (nodes ▸ List.mem_cons_self)
    have bright := always "$include a\x0bb$" "" t n "a\x0bb" compiled here name '\x0b' (by decide)
    exact absurd bright (by decide)

end Stencil
