import Stencil.Proofs.Template.Roles
import Stencil.Template.Compile
import Mathlib.Data.List.Forall2

namespace Stencil

/-- `Block ::= (text | other | opens Block [otherwise Block] closes)*`. -/
inductive Balanced : List Token.Role → Prop
  | nil : Balanced []
  | text {rest : List Token.Role} (after : Balanced rest) : Balanced (.text :: rest)
  | other {rest : List Token.Role} (after : Balanced rest) : Balanced (.other :: rest)
  | cond {body rest : List Token.Role} (inside : Balanced body) (after : Balanced rest) :
      Balanced (.opens :: body ++ .closes :: rest)
  | condElse {body second rest : List Token.Role} (inside : Balanced body)
      (insideToo : Balanced second) (after : Balanced rest) :
      Balanced (.opens :: body ++ .otherwise :: second ++ .closes :: rest)

/-- The nodes are derived from the tokens. A conditional has a second body exactly when an `else` stands
between its opening token and its end. -/
inductive Derives (inline : Inline) : List Token → List Node → Prop
  | nil : Derives inline [] []
  | single {t : Token} {n : Node} {ts : List Token} {ns : List Node}
      (read : t.item inline = .ok (.node n)) (after : Derives inline ts ns) :
      Derives inline (t :: ts) (n :: ns)
  | cond {t e : Token} {mark : Mark} {condition : Path} {bs ts : List Token} {body ns : List Node}
      (opens : t.item inline = .ok (.openIf mark condition)) (inside : Derives inline bs body)
      (closes : e.item inline = .ok .endIf) (after : Derives inline ts ns) :
      Derives inline (t :: bs ++ e :: ts) (.cond mark condition body none :: ns)
  | condElse {t o e : Token} {mark : Mark} {condition : Path} {bs ss ts : List Token}
      {body second ns : List Node} (opens : t.item inline = .ok (.openIf mark condition))
      (inside : Derives inline bs body) (splits : o.item inline = .ok .otherwise)
      (insideToo : Derives inline ss second) (closes : e.item inline = .ok .endIf)
      (after : Derives inline ts ns) :
      Derives inline (t :: bs ++ o :: ss ++ e :: ts) (.cond mark condition body (some second) :: ns)

variable {inline : Inline} {t e : Token} {i : Item} {ts us : List Token} {n : Node} {ns : List Node}

theorem Token.kind_of_item (read : t.item inline = .ok i) : t.kind ≠ .eof := by
  intro eof
  unfold Token.item at read
  rw [eof] at read
  cases read

theorem Draft.addTokens_cons (read : t.item inline = .ok i) (d : Draft) :
    d.addTokens inline (t :: ts) = d.add t.mark i >>= fun d => d.addTokens inline ts := by
  rw [Draft.addTokens, if_neg (Token.kind_of_item read), read]
  rfl

/-- Tokens add the nodes that are derived from them, whatever was there before and whatever follows. -/
theorem Derives.addTokens (derives : Derives inline ts ns) (d : Draft) (us : List Token) :
    d.addTokens inline (ts ++ us) =
      Draft.addTokens inline { d with nodes := ns.reverse ++ d.nodes } us := by
  induction derives generalizing d us with
  | nil => rfl
  | @single t n ts ns read _ ih =>
    rw [List.cons_append, Draft.addTokens_cons read]
    change Draft.addTokens inline { d with nodes := n :: d.nodes } (ts ++ us) = _
    rw [ih, List.reverse_cons, List.append_assoc, List.singleton_append]
  | @cond t e mark condition bs ts body ns opens _ closes _ ihBody ihAfter =>
    rw [List.append_assoc, List.cons_append, List.cons_append, Draft.addTokens_cons opens]
    change Draft.addTokens inline ⟨[], ⟨d.nodes, mark, condition, none⟩ :: d.opened⟩ _ = _
    rw [ihBody, Draft.addTokens_cons closes]
    change Draft.addTokens inline
      ⟨.cond mark condition (body.reverse ++ []).reverse none :: d.nodes, d.opened⟩ _ = _
    rw [ihAfter, List.append_nil, List.reverse_reverse, List.reverse_cons, List.append_assoc,
      List.singleton_append]
  | @condElse t o e mark condition bs ss ts body second ns opens _ splits _ closes _ ihBody ihSecond
      ihAfter =>
    rw [List.append_assoc, List.append_assoc, List.cons_append, List.cons_append, List.cons_append,
      Draft.addTokens_cons opens]
    change Draft.addTokens inline ⟨[], ⟨d.nodes, mark, condition, none⟩ :: d.opened⟩ _ = _
    rw [ihBody, Draft.addTokens_cons splits]
    change Draft.addTokens inline
      ⟨[], ⟨d.nodes, mark, condition, some (body.reverse ++ []).reverse⟩ :: d.opened⟩ _ = _
    rw [ihSecond, Draft.addTokens_cons closes]
    change Draft.addTokens inline ⟨.cond mark condition (body.reverse ++ []).reverse
      (some (second.reverse ++ []).reverse) :: d.nodes, d.opened⟩ _ = _
    rw [ihAfter, List.append_nil, List.append_nil, List.reverse_reverse, List.reverse_reverse,
      List.reverse_cons, List.append_assoc, List.singleton_append]

theorem Item.Mirrors.items (mirrors : i.Mirrors t) : i.items = [i] := by
  cases i with
  | node n =>
    cases n with
    | cond => cases mirrors
    | text | attr | «include» | apply | mapNamed | mapInline | join | txt => rfl
  | openIf | otherwise | endIf => rfl

/-- The items of the tokens are what is added to the items that were there. -/
theorem Draft.items_addTokens {d d' : Draft} (inner : ∀ t ∈ ts, t.kind ≠ .eof)
    (added : d.addTokens inline ts = .ok d') :
    ∃ is, ts.map (Token.item inline) = is.map .ok ∧ d'.items = d.items ++ is := by
  induction ts generalizing d with
  | nil =>
    cases added
    exact ⟨[], rfl, (List.append_nil _).symm⟩
  | cons t ts ih =>
    cases read : t.item inline with
    | error e =>
      rw [Draft.addTokens, if_neg (inner t List.mem_cons_self), read] at added
      cases added
    | ok i =>
      rw [Draft.addTokens_cons read] at added
      cases step : d.add t.mark i with
      | error e =>
        rw [step] at added
        cases added
      | ok mid =>
        rw [step] at added
        obtain ⟨is, same, grown⟩ := ih (fun u member => inner u (List.mem_cons_of_mem _ member)) added
        refine ⟨i :: is, by rw [List.map_cons, read, same, List.map_cons], ?_⟩
        rw [grown, Draft.items_add step, (Token.item_mirrors read).items, List.append_assoc,
          List.singleton_append]

mutual

/-- Tokens that give the items of a node derive that node. -/
theorem Derives.of_items (n : Node) {ts us : List Token} {ns : List Node}
    (own : ts.map (Token.item inline) = n.items.map .ok) (after : Derives inline us ns) :
    Derives inline (ts ++ us) (n :: ns) := by
  cases n with
  | cond mark condition body elseBody =>
    obtain ⟨t, rest, rfl, opens, parts⟩ := List.map_eq_cons_iff.mp own
    rw [List.map_append, List.map_append] at parts
    obtain ⟨bodies, last, rfl, both, ends⟩ := List.map_eq_append_iff.mp parts
    obtain ⟨e, none, rfl, closes, done⟩ := List.map_eq_cons_iff.mp ends
    obtain rfl := List.map_eq_nil_iff.mp done
    obtain ⟨bs, os, rfl, first, second⟩ := List.map_eq_append_iff.mp both
    have inside := Derives.of_itemsIn body first
    cases elseBody with
    | none =>
      obtain rfl := List.map_eq_nil_iff.mp second
      have whole := Derives.cond opens inside closes after
      simpa using whole
    | some second' =>
      obtain ⟨o, ss, rfl, splits, second⟩ := List.map_eq_cons_iff.mp second
      have insideToo := Derives.of_itemsIn second' second
      have whole := Derives.condElse opens inside splits insideToo closes after
      simpa using whole
  | text | attr | «include» | apply | mapNamed | mapInline | join | txt =>
    obtain ⟨t, none, rfl, read, done⟩ := List.map_eq_cons_iff.mp own
    obtain rfl := List.map_eq_nil_iff.mp done
    exact .single read after

theorem Derives.of_itemsIn (ns : List Node) {ts : List Token}
    (own : ts.map (Token.item inline) = (Node.itemsIn ns).map .ok) : Derives inline ts ns := by
  cases ns with
  | nil =>
    obtain rfl := List.map_eq_nil_iff.mp own
    exact .nil
  | cons n ns =>
    rw [Node.itemsIn, List.map_append] at own
    obtain ⟨front, back, rfl, first, rest⟩ := List.map_eq_append_iff.mp own
    exact Derives.of_items n first (Derives.of_itemsIn ns rest)

end

/-- Deriving loses nothing: taken apart again, the nodes are the items of the tokens. -/
theorem Derives.items (derives : Derives inline ts ns) :
    ts.map (Token.item inline) = (Node.itemsIn ns).map .ok := by
  induction derives with
  | nil => rfl
  | @single t n ts ns read _ ih =>
    have alone : n.items = [.node n] := (Token.item_mirrors read).items
    rw [List.map_cons, read, ih, Node.itemsIn, alone]
    rfl
  | cond opens _ closes _ ihBody ihAfter =>
    simp only [List.map_append, List.map_cons, opens, closes, ihBody, ihAfter, Node.itemsIn, Node.items,
      Node.itemsElse, List.append_nil, List.append_assoc, List.cons_append, List.nil_append]
  | condElse opens _ splits _ closes _ ihBody ihSecond ihAfter =>
    simp only [List.map_append, List.map_cons, opens, splits, closes, ihBody, ihSecond, ihAfter,
      Node.itemsIn, Node.items, Node.itemsElse, List.append_assoc, List.cons_append, List.nil_append]

theorem Derives.mirrors (derives : Derives inline ts ns) :
    List.Forall₂ (fun i t => i.Mirrors t) (Node.itemsIn ns) ts := by
  have same := derives.items
  generalize Node.itemsIn ns = is at same
  clear derives
  induction ts generalizing is with
  | nil =>
    obtain rfl := List.map_eq_nil_iff.mp same.symm
    exact .nil
  | cons t ts ih =>
    obtain ⟨i, rest, rfl, read, same⟩ := List.map_eq_cons_iff.mp same.symm
    exact .cons (Token.item_mirrors read.symm) (ih rest same.symm)

theorem Derives.balanced (derives : Derives inline ts ns) : Balanced (ts.map Token.role) := by
  induction derives with
  | nil => exact .nil
  | @single t n ts ns read _ ih =>
    have mirrors := Token.item_mirrors read
    cases n with
    | cond => cases mirrors
    | text =>
      rw [List.map_cons, mirrors.1]
      exact .text ih
    | attr | «include» | apply | mapNamed | mapInline | join | txt =>
      rw [List.map_cons, mirrors.1]
      exact .other ih
  | cond opens _ closes _ ihBody ihAfter =>
    have first := Token.item_mirrors opens
    have last := Token.item_mirrors closes
    rw [List.map_append, List.map_cons, List.map_cons, first.1, last]
    exact .cond ihBody ihAfter
  | condElse opens _ splits _ closes _ ihBody ihSecond ihAfter =>
    have first := Token.item_mirrors opens
    have middle := Token.item_mirrors splits
    have last := Token.item_mirrors closes
    rw [List.map_append, List.map_append, List.map_cons, List.map_cons, List.map_cons, first.1, middle,
      last]
    exact .condElse ihBody ihSecond ihAfter

/-- A token that can be read by itself. -/
def Token.IsWellFormed (inline : Inline) (t : Token) : Prop :=
  ∃ i, t.item inline = .ok i

theorem Token.IsWellFormed.of_otherwise (role : t.role = .otherwise) : t.IsWellFormed inline := by
  obtain ⟨directive, isElse⟩ := Token.words_of_otherwise role
  refine ⟨.otherwise, ?_⟩
  simp only [Token.item, directive, if_pos isElse]

theorem Token.IsWellFormed.of_closes (role : t.role = .closes) : t.IsWellFormed inline := by
  obtain ⟨directive, isEnd⟩ := Token.words_of_closes role
  have notElse : words t.value ≠ ["else".toList] := by
    rw [isEnd]
    decide
  refine ⟨.endIf, ?_⟩
  simp only [Token.item, directive, if_neg notElse, if_pos isEnd]

theorem Token.IsWellFormed.item (formed : t.IsWellFormed inline) :
    match t.role with
    | .text | .other => ∃ n, t.item inline = .ok (.node n)
    | .opens => ∃ mark condition, t.item inline = .ok (.openIf mark condition)
    | .otherwise => t.item inline = .ok .otherwise
    | .closes => t.item inline = .ok .endIf
    | .last => False := by
  obtain ⟨i, read⟩ := formed
  have mirrors := Token.item_mirrors read
  cases i with
  | node n =>
    cases n with
    | cond => cases mirrors
    | text | attr | «include» | apply | mapNamed | mapInline | join | txt =>
      rw [mirrors.1]
      exact ⟨_, read⟩
  | openIf mark condition =>
    rw [mirrors.1]
    exact ⟨_, _, read⟩
  | otherwise | endIf =>
    rw [show t.role = _ from mirrors]
    exact read

theorem Derives.formed (derives : Derives inline ts ns) : ∀ t ∈ ts, t.IsWellFormed inline := by
  intro t member
  have mapped : t.item inline ∈ ts.map (Token.item inline) := List.mem_map_of_mem member
  rw [derives.items] at mapped
  obtain ⟨i, -, read⟩ := List.mem_map.mp mapped
  exact ⟨i, read.symm⟩

/-- Balanced tokens that can be read one by one have a derivation. -/
theorem Balanced.derives {roles : List Token.Role} (balanced : Balanced roles)
    (same : ts.map Token.role = roles) (formed : ∀ t ∈ ts, t.IsWellFormed inline) :
    ∃ ns, Derives inline ts ns := by
  induction balanced generalizing ts with
  | nil =>
    obtain rfl := List.map_eq_nil_iff.mp same
    exact ⟨[], .nil⟩
  | text _ ih | other _ ih =>
    obtain ⟨t, us, rfl, role, rest⟩ := List.map_eq_cons_iff.mp same
    have item := (formed t List.mem_cons_self).item
    rw [role] at item
    obtain ⟨n, read⟩ := item
    obtain ⟨ns, after⟩ := ih rest fun u member => formed u (List.mem_cons_of_mem _ member)
    exact ⟨n :: ns, .single read after⟩
  | cond _ _ ihBody ihAfter =>
    obtain ⟨front, back, rfl, first, second⟩ := List.map_eq_append_iff.mp same
    obtain ⟨t, bs, rfl, opens, inside⟩ := List.map_eq_cons_iff.mp first
    obtain ⟨e, us, rfl, closes, rest⟩ := List.map_eq_cons_iff.mp second
    have openItem := (formed t (by simp)).item
    have closeItem := (formed e (by simp)).item
    rw [opens] at openItem
    rw [closes] at closeItem
    obtain ⟨mark, condition, read⟩ := openItem
    obtain ⟨body, derived⟩ := ihBody inside fun u member => formed u (by simp [member])
    obtain ⟨ns, after⟩ := ihAfter rest fun u member => formed u (by simp [member])
    exact ⟨_, .cond read derived closeItem after⟩
  | condElse _ _ _ ihBody ihSecond ihAfter =>
    obtain ⟨both, back, rfl, front, third⟩ := List.map_eq_append_iff.mp same
    obtain ⟨first, middle, rfl, first', second⟩ := List.map_eq_append_iff.mp front
    obtain ⟨t, bs, rfl, opens, inside⟩ := List.map_eq_cons_iff.mp first'
    obtain ⟨o, ss, rfl, splits, insideToo⟩ := List.map_eq_cons_iff.mp second
    obtain ⟨e, us, rfl, closes, rest⟩ := List.map_eq_cons_iff.mp third
    have openItem := (formed t (by simp)).item
    have splitItem := (formed o (by simp)).item
    have closeItem := (formed e (by simp)).item
    rw [opens] at openItem
    rw [splits] at splitItem
    rw [closes] at closeItem
    obtain ⟨mark, condition, read⟩ := openItem
    obtain ⟨body, derived⟩ := ihBody inside fun u member => formed u (by simp [member])
    obtain ⟨second, derivedToo⟩ := ihSecond insideToo fun u member => formed u (by simp [member])
    obtain ⟨ns, after⟩ := ihAfter rest fun u member => formed u (by simp [member])
    exact ⟨_, .condElse read derived splitItem derivedToo closeItem after⟩

/-- The tokens of a stretch without its end. -/
def Token.inner (ts : List Token) : List Token :=
  ts.filter (·.kind != .eof)

theorem Token.inner_cons (inside : t.kind ≠ .eof) : Token.inner (t :: ts) = t :: Token.inner ts := by
  simp [Token.inner, inside]

theorem Token.next_inner {r : Region} {c after : Cursor} (more : c.rest ≠ [])
    (read : Token.next r c = .ok t after) : t.kind ≠ .eof := by
  rcases Token.next_ok read with ⟨done, -⟩ | ⟨d, cs, -, ⟨-, opened⟩ | ⟨-, text⟩⟩
  · exact absurd done more
  · obtain ⟨_, -, rfl, -⟩ := directiveToken_ok opened
    exact nofun
  · cases text
    exact nofun

/-- A stretch that is not at its end begins with a token. -/
theorem tokenize_first {r : Region} {c : Cursor} (more : c.rest ≠ [])
    (read : tokenize r c = .ok ts) :
    ∃ t after us, Token.next r c = .ok t after ∧ tokenize r after = .ok us ∧ ts = t :: us ∧
      Token.inner ts = t :: Token.inner us := by
  rw [tokenize_cons more] at read
  cases first : Token.next r c with
  | error e stopped =>
    rw [first] at read
    cases read
  | ok t after =>
    rw [first] at read
    cases rest : tokenize r after with
    | error e =>
      simp only [rest] at read
      cases read
    | ok us =>
      simp only [rest] at read
      cases read
      exact ⟨t, after, us, rfl, rest, rfl, Token.inner_cons (Token.next_inner more first)⟩

theorem tokenize_ok {r : Region} {c after : Cursor} (more : c.rest ≠ []) (first : Token.next r c = .ok t after)
    (rest : tokenize r after = .ok us) : tokenize r c = .ok (t :: us) := by
  simp only [tokenize_cons more, first, rest]
  rfl

/-- The end of a stretch is its last token, and there is no other one. -/
theorem tokenize_inner {r : Region} {c : Cursor} (read : tokenize r c = .ok ts) :
    ∃ e, e.kind = .eof ∧ ts = Token.inner ts ++ [e] := by
  fun_induction tokenize r c generalizing ts with
  | case1 c _ =>
    cases read
    exact ⟨.eof c, rfl, rfl⟩
  | case2 => cases read
  | case3 c more t after first ih =>
    cases rest : tokenize r after with
    | error e =>
      rw [rest] at read
      cases read
    | ok us =>
      rw [rest] at read
      cases read
      obtain ⟨e, eof, split⟩ := ih rest
      exact ⟨e, eof, by rw [Token.inner_cons (Token.next_inner more first), List.cons_append, ← split]⟩

theorem Draft.addTokens_end (last : e.kind = .eof) (d : Draft) :
    d.addTokens inline (Token.inner ts ++ [e]) = d.addTokens inline (Token.inner ts) := by
  have inner : ∀ t ∈ Token.inner ts, t.kind ≠ .eof := by simp [Token.inner]
  generalize Token.inner ts = us at inner
  induction us generalizing d with
  | nil => rw [List.nil_append, Draft.addTokens, Draft.addTokens, if_pos last]
  | cons t us ih =>
    have own := inner t List.mem_cons_self
    rw [List.cons_append, Draft.addTokens, Draft.addTokens, if_neg own, if_neg own]
    simp only [ih _ fun u member => inner u (List.mem_cons_of_mem _ member)]

theorem parse_inner {r : Region} {c : Cursor} (read : tokenize r c = .ok ts) :
    parse inline ts = parse inline (Token.inner ts) := by
  obtain ⟨e, eof, split⟩ := tokenize_inner read
  rw [split, parse, Draft.addTokens_end eof, ← split, parse]

theorem Derives.parse (derives : Derives inline ts ns) : parse inline ts = .ok ns := by
  have added := derives.addTokens Draft.empty []
  rw [List.append_nil] at added
  rw [Stencil.parse, added]
  change Except.ok (ns.reverse ++ []).reverse = Except.ok ns
  rw [List.append_nil, List.reverse_reverse]

/-- Building a template from tokens is deriving it from them. -/
theorem parse_eq_ok_iff {r : Region} {c : Cursor} (read : tokenize r c = .ok ts) :
    parse inline ts = .ok ns ↔ Derives inline (Token.inner ts) ns := by
  have inner : ∀ t ∈ Token.inner ts, t.kind ≠ .eof := by simp [Token.inner]
  rw [parse_inner read]
  refine ⟨fun parsed => ?_, Derives.parse⟩
  rw [parse] at parsed
  cases added : Draft.empty.addTokens inline (Token.inner ts) with
  | error e =>
    rw [added] at parsed
    cases parsed
  | ok d =>
    rw [added] at parsed
    obtain ⟨is, items, grown⟩ := Draft.items_addTokens inner added
    rw [← Draft.items_finish parsed] at grown
    rw [show is = Node.itemsIn ns from grown.symm] at items
    exact .of_itemsIn ns items

/-- Exactly the balanced sequences become nodes, if besides every token that is no part of a conditional
can be read by itself. The nodes are then the derivation of the tokens: taken apart they give one item for
each token, in the same order, of the same role and with its text or its place. -/
theorem parse_balanced {r : Region} {c : Cursor} {tokens : List Token}
    (read : tokenize r c = .ok tokens) (inline : Inline) :
    ((∃ nodes, parse inline tokens = .ok nodes) ↔
      (∀ t ∈ Token.inner tokens, t.role ≠ .otherwise → t.role ≠ .closes → t.IsWellFormed inline) ∧
        Balanced ((Token.inner tokens).map Token.role)) ∧
    ∀ nodes, parse inline tokens = .ok nodes →
      List.Forall₂ (fun i t => i.Mirrors t) (Node.itemsIn nodes) (Token.inner tokens) ∧
        Derives inline (Token.inner tokens) nodes := by
  refine ⟨⟨?_, ?_⟩, fun nodes parsed => ?_⟩
  · rintro ⟨nodes, parsed⟩
    have derives := (parse_eq_ok_iff read).mp parsed
    exact ⟨fun t member _ _ => derives.formed t member, derives.balanced⟩
  · rintro ⟨formed, balanced⟩
    have all : ∀ t ∈ Token.inner tokens, t.IsWellFormed inline := by
      intro t member
      by_cases splits : t.role = .otherwise
      · exact .of_otherwise splits
      by_cases closes : t.role = .closes
      · exact .of_closes closes
      exact formed t member splits closes
    obtain ⟨nodes, derives⟩ := balanced.derives rfl all
    exact ⟨nodes, (parse_eq_ok_iff read).mpr derives⟩
  · have derives := (parse_eq_ok_iff read).mp parsed
    exact ⟨derives.mirrors, derives⟩

/-- The tokens of a conditional with an `else` inside another one without. -/
def nestedTokens : List Token :=
  [⟨.text, "a".toList, 0, 1, ⟨1, 1⟩⟩, ⟨.directive, "if x".toList, 2, 6, ⟨1, 2⟩⟩,
    ⟨.directive, "if y".toList, 8, 12, ⟨1, 8⟩⟩, ⟨.text, "b".toList, 13, 14, ⟨1, 14⟩⟩,
    ⟨.directive, "else".toList, 15, 19, ⟨1, 15⟩⟩, ⟨.directive, "c.d".toList, 21, 24, ⟨1, 21⟩⟩,
    ⟨.directive, "end if".toList, 26, 32, ⟨1, 26⟩⟩, ⟨.directive, "end if".toList, 34, 40, ⟨1, 34⟩⟩,
    ⟨.eof, [], 41, 41, ⟨1, 42⟩⟩]

theorem parse_balanced_of_nested :
    tokenize .page (.ofText "a$if x$$if y$b$else$$c.d$$end if$$end if$".toList) = .ok nestedTokens ∧
    ((∃ nodes, parse (compileStretch .block) nestedTokens = .ok nodes) ↔
      (∀ t ∈ Token.inner nestedTokens, t.role ≠ .otherwise → t.role ≠ .closes →
        t.IsWellFormed (compileStretch .block)) ∧
        Balanced ((Token.inner nestedTokens).map Token.role)) ∧
    ∀ nodes, parse (compileStretch .block) nestedTokens = .ok nodes →
      List.Forall₂ (fun i t => i.Mirrors t) (Node.itemsIn nodes) (Token.inner nestedTokens) ∧
        Derives (compileStretch .block) (Token.inner nestedTokens) nodes := by
  have read : tokenize .page (.ofText "a$if x$$if y$b$else$$c.d$$end if$$end if$".toList) =
      .ok nestedTokens := by
    decide +kernel
  exact ⟨read, parse_balanced read (compileStretch .block)⟩

end Stencil
