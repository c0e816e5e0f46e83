import Stencil.Proofs.Template.Abreast
import Stencil.Proofs.Template.Grammar

namespace Stencil

variable {M : Mark → Mark → Prop} {l : List Char}

section Escapes

/-- As far as a backslash stands before a character in `l`, both regions escape that character or
neither does. -/
def Region.SameOn (r r' : Region) (l : List Char) : Prop :=
  ∀ d, ['\\', d] <:+: l → r.escapes d = r'.escapes d

variable {r r' : Region} (same : r.SameOn r' l)

include same

theorem Region.textLength_same : ∀ cs : List Char, cs <:+: l → r.textLength cs = r'.textLength cs
  | [], _ => rfl
  | [_], _ => rfl
  | c :: d :: cs, inside => by
    have next : d :: cs <:+: l := (List.suffix_cons c (d :: cs)).isInfix.trans inside
    have later := Region.textLength_same (d :: cs) next
    have further := Region.textLength_same cs ((List.suffix_cons d cs).isInfix.trans next)
    rw [Region.textLength, Region.textLength, later, further]
    by_cases hides : c = '\\'
    · subst hides
      have pair : ['\\', d] <+: '\\' :: d :: cs := ⟨cs, rfl⟩
      rw [same d (pair.isInfix.trans inside)]
    · simp only [hides, false_and, if_false]

theorem Region.unescape_same : ∀ cs : List Char, cs <:+: l → r.unescape cs = r'.unescape cs
  | [], _ => rfl
  | [_], _ => rfl
  | c :: d :: cs, inside => by
    have next : d :: cs <:+: l := (List.suffix_cons c (d :: cs)).isInfix.trans inside
    have later := Region.unescape_same (d :: cs) next
    have further := Region.unescape_same cs ((List.suffix_cons d cs).isInfix.trans next)
    rw [Region.unescape, Region.unescape, later, further]
    by_cases hides : c = '\\'
    · subst hides
      have pair : ['\\', d] <+: '\\' :: d :: cs := ⟨cs, rfl⟩
      rw [same d (pair.isInfix.trans inside)]
    · simp only [hides, false_and, if_false]

end Escapes

section Tokens

variable {r r' : Region} {c d after : Cursor} {t : Token}

/-- The content of a directive is what lies between the two cursors, whatever their offsets. -/
theorem offset_toDelimiter {opened : Mark} (read : toDelimiter opened c = .ok () after) :
    after.offset - c.offset = c.rest.length - after.rest.length := by
  have ends := stop_toDelimiter read
  have shorter := toDelimiter_shorter read
  rw [Cursor.stop, Cursor.stop] at ends
  omega

theorem Abreast.directiveToken (steady : Steady M) :
    Abreast M l (Token.Like M) directiveToken directiveToken := by
  intro c d like
  have inner := like.advance steady 1
  have step := Abreast.toDelimiter steady like.mark _ _ inner
  unfold Stencil.directiveToken
  cases ran : Stencil.toDelimiter c.mark (c.advance 1) <;>
    cases ranToo : Stencil.toDelimiter d.mark (d.advance 1) <;> rw [ran, ranToo] at step
  · rename_i stopped _ stoppedToo
    have amount : (c.advance 1).rest.take (stopped.offset - (c.advance 1).offset) =
        (d.advance 1).rest.take (stoppedToo.offset - (d.advance 1).offset) := by
      rw [offset_toDelimiter ran, offset_toDelimiter ranToo, inner.rest, step.2.rest]
    simp only [ran, ranToo]
    exact ⟨⟨rfl, amount, like.mark⟩, step.2.advance steady 1⟩
  · exact step.elim
  · exact step.elim
  · simp only [ran, ranToo]
    exact step

theorem Abreast.textToken (steady : Steady M) (same : r.SameOn r' l) :
    Abreast M l (Token.Like M) (textToken r) (textToken r') := by
  intro c d like
  have length : r.textLength c.rest = r'.textLength d.rest := by
    rw [← like.rest]
    exact Region.textLength_same same _ like.inside
  have piece : c.rest.take (r.textLength c.rest) <:+: l :=
    (List.take_prefix _ _).isInfix.trans like.inside
  have value : r.unescape (c.rest.take (r.textLength c.rest)) =
      r'.unescape (d.rest.take (r'.textLength d.rest)) := by
    rw [Region.unescape_same same _ piece, length, like.rest]
  refine ⟨⟨rfl, value, like.mark⟩, ?_⟩
  rw [← length]
  exact like.advance steady _

theorem Abreast.next (steady : Steady M) (same : r.SameOn r' l) :
    Abreast M l (Token.Like M) (Token.next r) (Token.next r') := by
  intro c d like
  have rest := like.rest
  cases left : c.rest with
  | nil =>
    rw [left] at rest
    simp only [Token.next, left, ← rest]
    exact ⟨⟨rfl, rfl, like.mark⟩, like⟩
  | cons b cs =>
    rw [left] at rest
    by_cases opens : b = '$'
    · subst opens
      rw [Token.next_directive left, Token.next_directive rest.symm]
      exact Abreast.directiveToken steady c d like
    · rw [Token.next_text left opens, Token.next_text rest.symm opens]
      exact Abreast.textToken steady same c d like

theorem Cursor.Like.tokenize_alike (steady : Steady M) (same : r.SameOn r' l) (like : c.Like M l d) :
    Alike M (List.Forall₂ (Token.Like M)) (tokenize r c) (tokenize r' d) := by
  fun_induction tokenize r c generalizing d with
  | case1 c done =>
    rw [tokenize_nil (like.rest ▸ done)]
    exact .cons ⟨rfl, rfl, like.mark⟩ .nil
  | case2 c more e stopped failed =>
    have step := Abreast.next steady same c d like
    rw [tokenize_cons (c := d) (like.rest ▸ more)]
    cases failedToo : Token.next r' d <;> rw [failed, failedToo] at step
    · exact step.elim
    · exact step
  | case3 c more t after read ih =>
    have step := Abreast.next steady same c d like
    rw [tokenize_cons (c := d) (like.rest ▸ more)]
    cases readToo : Token.next r' d <;> rw [read, readToo] at step
    · exact (ih step.2).map fun ts us rest => .cons step.1 rest
    · exact step.elim

/-- The search for a delimiter ends in front of one that is further on in the stretch. -/
theorem toDelimiter_found {opened : Mark} (read : toDelimiter opened c = .ok () after) :
    (∃ cs, after.rest = '$' :: cs) ∧ after.rest <:+ c.rest := by
  fun_induction toDelimiter opened c with
  | case1 | case3 | case5 => cases read
  | case2 _ cs next =>
    cases read
    exact ⟨⟨cs, next⟩, List.suffix_rfl⟩
  | case4 c _ _ _ mid block ih =>
    have behind : mid.rest <:+ c.rest := by
      obtain ⟨n, -, -, rfl⟩ := readBraced_eq_ok_iff.mp block
      exact (List.drop_suffix _ _).trans (List.drop_suffix _ _)
    exact ⟨(ih read).1, (ih read).2.trans behind⟩
  | case6 c _ _ _ _ _ _ ih => exact ⟨(ih read).1, (ih read).2.trans (List.drop_suffix 1 c.rest)⟩

theorem next_suffix (read : Token.next r c = .ok t after) : after.rest <:+ c.rest := by
  rcases Token.next_ok read with ⟨-, -, rfl⟩ | ⟨d, cs, -, ⟨-, opened⟩ | ⟨-, text⟩⟩
  · exact List.suffix_rfl
  · obtain ⟨stopped, closed, -, rfl⟩ := directiveToken_ok opened
    have further := (toDelimiter_found closed).2
    exact (List.drop_suffix 1 _).trans (further.trans (List.drop_suffix 1 _))
  · cases text
    exact List.drop_suffix _ _

theorem next_value (read : Token.next r c = .ok t after) (directive : t.kind = .directive) :
    t.value <:+: c.rest ∧ t.value.length < c.rest.length := by
  rcases Token.next_ok read with ⟨-, rfl, -⟩ | ⟨d, cs, left, ⟨-, opened⟩ | ⟨-, text⟩⟩
  · cases directive
  · obtain ⟨stopped, -, rfl, -⟩ := directiveToken_ok opened
    have content : (c.advance 1).rest = cs := by simp [left]
    rw [left, content]
    refine ⟨(List.take_prefix _ cs).isInfix.trans (List.suffix_cons _ cs).isInfix, ?_⟩
    exact Nat.lt_succ_of_le (List.length_take_le' _ cs)
  · cases text
    cases directive

/-- The content of a directive is a piece of the stretch, and shorter by the delimiters at least. -/
theorem value_inside {ts : List Token} (read : tokenize r c = .ok ts) (member : t ∈ ts)
    (directive : t.kind = .directive) : t.value <:+: c.rest ∧ t.value.length < c.rest.length := by
  induction size : c.rest.length using Nat.strongRecOn generalizing c ts with
  | ind size ih =>
    subst size
    by_cases done : c.rest = []
    · rw [tokenize_nil done] at read
      cases read
      rw [List.mem_singleton.mp member] at directive
      cases directive
    · obtain ⟨u, after, us, first, rest, rfl, -⟩ := tokenize_first done read
      rcases List.mem_cons.mp member with rfl | later
      · exact next_value first directive
      · have shorter := Token.next_shorter done first
        obtain ⟨inside, short⟩ := ih _ shorter rest later rfl
        exact ⟨inside.trans (next_suffix first).isInfix, by omega⟩

end Tokens

section Drafts

structure OpenIf.Like (M : Mark → Mark → Prop) (o p : OpenIf) : Prop where
  before : List.Forall₂ (Node.Like M) o.before p.before
  mark : M o.mark p.mark
  condition : o.condition = p.condition
  body : Node.LikeElse M o.body p.body

structure Draft.Like (M : Mark → Mark → Prop) (d e : Draft) : Prop where
  nodes : List.Forall₂ (Node.Like M) d.nodes e.nodes
  opened : List.Forall₂ (OpenIf.Like M) d.opened e.opened

variable {d e : Draft} {inline inline' : Inline} {ts us : List Token}

theorem Draft.Like.last (like : d.Like M e) : Node.LikeAll M d.nodes.reverse e.nodes.reverse :=
  Node.likeAll_iff.mpr (List.forall₂_reverse_iff.mpr like.nodes)

theorem Draft.Like.add {m n : Mark} {i j : Item} (like : d.Like M e) (mark : M m n)
    (items : i.Like M j) : Alike M (Draft.Like M) (d.add m i) (e.add n j) := by
  have last := like.last
  obtain ⟨nodes, opened⟩ := d
  obtain ⟨nodes', opened'⟩ := e
  obtain ⟨nodesLike, openedLike⟩ := like
  cases i <;> cases j <;> simp only [Item.Like] at items
  case node.node => exact ⟨.cons items nodesLike, openedLike⟩
  case openIf.openIf =>
    exact ⟨.nil, .cons ⟨nodesLike, items.1, items.2, trivial⟩ openedLike⟩
  case otherwise.otherwise =>
    cases openedLike with
    | nil => exact ⟨rfl, mark⟩
    | @cons o p os ps top rest =>
      obtain ⟨before, at_, condition, body⟩ := o
      obtain ⟨before', at', condition', body'⟩ := p
      obtain ⟨outer, place, same, bodies⟩ := top
      cases body <;> cases body' <;> simp only [Node.LikeElse] at bodies
      · exact ⟨.nil, .cons ⟨outer, place, same, last⟩ rest⟩
      · exact ⟨rfl, mark⟩
  case endIf.endIf =>
    cases openedLike with
    | nil => exact ⟨rfl, mark⟩
    | @cons o p os ps top rest =>
      obtain ⟨before, at_, condition, body⟩ := o
      obtain ⟨before', at', condition', body'⟩ := p
      obtain ⟨outer, place, same, bodies⟩ := top
      cases body <;> cases body' <;> simp only [Node.LikeElse] at bodies
      · exact ⟨.cons ⟨place, same, last, trivial⟩ outer, rest⟩
      · exact ⟨.cons ⟨place, same, bodies, last⟩ outer, rest⟩

theorem Draft.Like.finish (like : d.Like M e) :
    Alike M (Node.LikeAll M) d.finish e.finish := by
  have last := like.last
  obtain ⟨nodes, opened⟩ := d
  obtain ⟨nodes', opened'⟩ := e
  cases like.opened with
  | nil => exact last
  | cons top rest => exact ⟨rfl, top.mark⟩

theorem Draft.Like.addTokens (steady : Steady M) (tokens : List.Forall₂ (Token.Like M) ts us)
    (inlines : ∀ t ∈ ts, t.kind = .directive → inline.Like M t.value.length inline')
    (like : d.Like M e) :
    Alike M (Draft.Like M) (d.addTokens inline ts) (e.addTokens inline' us) := by
  induction tokens generalizing d e with
  | nil => exact like
  | @cons t u ts us first rest ih =>
    rw [Draft.addTokens, Draft.addTokens, ← first.1]
    split
    · exact like
    · have items := Token.item_alike steady first (inlines t List.mem_cons_self)
      refine items.bind fun i j item => ?_
      refine (like.add first.2.2 item).bind fun d' e' grown => ?_
      exact ih (fun v member => inlines v (List.mem_cons_of_mem _ member)) grown

theorem parse_alike (steady : Steady M) (tokens : List.Forall₂ (Token.Like M) ts us)
    (inlines : ∀ t ∈ ts, t.kind = .directive → inline.Like M t.value.length inline') :
    Alike M (Node.LikeAll M) (parse inline ts) (parse inline' us) := by
  have empty : Draft.empty.Like M Draft.empty := ⟨.nil, .nil⟩
  exact (empty.addTokens steady tokens inlines).bind fun d e like => like.finish

end Drafts

section Compile

variable {r r' : Region} {c d : Cursor}

/-- The same piece of text at related places compiles to the same at related places, also in another
region if that makes no difference for the escapes in it. -/
theorem Cursor.Like.compile_alike (steady : Steady M) (same : r.SameOn r' c.rest)
    (like : c.Like M c.rest d) :
    Alike M (Node.LikeAll M) (compileStretch r c) (compileStretch r' d) := by
  fun_induction compileStretch r c generalizing r' d with
  | case1 r c ih =>
    rw [compileStretch.eq_def r' d]
    have tokens := like.tokenize_alike steady same
    cases ran : tokenize r c <;> cases ranToo : tokenize r' d <;> rw [ran, ranToo] at tokens
    · exact tokens
    · exact tokens.elim
    · exact tokens.elim
    · rename_i ts us
      refine parse_alike steady tokens fun t member directive b b' rest short mark => ?_
      have shorter : b.rest.length < c.rest.length :=
        Nat.lt_trans short (value_inside ran member directive).2
      have shorterToo : b'.rest.length < d.rest.length := by
        rw [← rest, ← like.rest]
        exact shorter
      rw [dif_pos shorter, dif_pos shorterToo]
      exact ih b shorter (fun _ _ => rfl) ⟨rest, List.infix_rfl, mark⟩

/-- Every block that stands in a stretch is shorter than the stretch, so blocks are simply compiled as
stretches. -/
theorem compileStretch_eq : compileStretch r c = tokenize r c >>= parse (compileStretch .block) := by
  rw [compileStretch]
  cases ran : tokenize r c with
  | error e => rfl
  | ok ts =>
    have like : List.Forall₂ (Token.Like Eq) ts ts := List.forall₂_same.mpr fun t _ => ⟨rfl, rfl, rfl⟩
    refine Alike.eq (fun _ _ => Node.LikeAll.eq) (parse_alike .eq like ?_)
    intro t member directive b b' rest short mark
    have shorter : b.rest.length < c.rest.length := Nat.lt_trans short (value_inside ran member directive).2
    simp only [dif_pos shorter]
    exact Cursor.Like.compile_alike .eq (fun _ _ => rfl) ⟨rest, List.infix_rfl, mark⟩

/-- A stretch compiles to the nodes that are derived from its tokens, where blocks are stretches again. -/
theorem compileStretch_eq_ok_iff {ns : List Node} :
    compileStretch r c = .ok ns ↔
      ∃ ts, tokenize r c = .ok ts ∧ Derives (compileStretch .block) (Token.inner ts) ns := by
  rw [compileStretch_eq]
  constructor
  · intro compiled
    cases read : tokenize r c with
    | error e =>
      rw [read] at compiled
      cases compiled
    | ok ts =>
      rw [read] at compiled
      exact ⟨ts, rfl, (parse_eq_ok_iff read).mp compiled⟩
  · rintro ⟨ts, read, derives⟩
    rw [read]
    exact (parse_eq_ok_iff read).mpr derives

theorem compile_eq_ok_iff {source name : String} {t : Template} :
    compile source name = .ok t ↔
      ∃ ns, compileStretch .page (.ofText source.toList) = .ok ns ∧ t = ⟨ns, name⟩ := by
  rw [compile]
  cases compileStretch .page (.ofText source.toList) with
  | error e => exact ⟨nofun, fun ⟨_, wrong, _⟩ => nomatch wrong⟩
  | ok ns =>
    constructor
    · intro same
      cases same
      exact ⟨ns, rfl, rfl⟩
    · rintro ⟨_, same, rfl⟩
      cases same
      rfl

theorem compile_of_isOk {source name : String} (ok : (compile source name).isOk) :
    ∃ t, compile source name = .ok t := by
  cases ran : compile source name with
  | error e =>
    rw [ran] at ok
    cases ok
  | ok t => exact ⟨t, rfl⟩

end Compile

end Stencil
