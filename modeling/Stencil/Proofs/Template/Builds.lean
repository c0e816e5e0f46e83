import Stencil.Proofs.Template.Readback
import Stencil.Template.Compile

namespace Stencil

/-- Reading all that is left, with a template already under construction. -/
def Draft.run (inline : Inline) (r : Region) (c : Cursor) (d : Draft) : Except SyntaxError Draft := do
  let tokens ← tokenize r c
  d.addTokens inline tokens

section Runs

variable {inline : Inline} {r : Region} {c after : Cursor} {d d' : Draft} {t : Token} {i : Item}

theorem Draft.run_end (done : c.rest = []) : d.run inline r c = .ok d := by
  rw [Draft.run, tokenize, dif_pos done]
  rfl

/-- One token more is one item more. -/
theorem Draft.run_step (more : c.rest ≠ []) (read : Token.next r c = .ok t after)
    (inner : t.kind ≠ .eof) (item : t.item inline = .ok i) (added : d.add t.mark i = .ok d') :
    d.run inline r c = d'.run inline r after := by
  have tokens : tokenize r c = (tokenize r after).map (t :: ·) := by
    rw [tokenize_cons more, read]
  rw [Draft.run, Draft.run, tokens]
  cases tokenize r after with
  | error e => rfl
  | ok ts =>
    change d.addTokens inline (t :: ts) = d'.addTokens inline ts
    rw [Draft.addTokens, if_neg inner, item]
    change (d.add t.mark i >>= fun d => d.addTokens inline ts) = _
    rw [added]
    rfl

end Runs

/-- Reading the printed text in front of `tail` turns the template under construction into one as
described, and then goes on with `tail`. -/
def Builds (inline : Inline) (r : Region) (printed tail : List Char) (d : Draft)
    (Q : Draft → Prop) : Prop :=
  ∀ c : Cursor, c.rest = printed ++ tail →
    ∃ c' d', c'.rest = tail ∧ Q d' ∧ d.run inline r c = d'.run inline r c'

namespace Builds

variable {inline : Inline} {r : Region} {b p q tail : List Char} {d : Draft} {P Q : Draft → Prop}

theorem nothing (as : Q d) : Builds inline r [] tail d Q :=
  fun c left => ⟨c, d, left, as, rfl⟩

theorem append (first : Builds inline r p (q ++ tail) d P)
    (second : ∀ d', P d' → Builds inline r q tail d' Q) : Builds inline r (p ++ q) tail d Q := by
  intro c left
  rw [List.append_assoc] at left
  obtain ⟨c', d', leftToo, as, ran⟩ := first c left
  obtain ⟨c'', d'', last, bs, ranToo⟩ := second d' as c' leftToo
  exact ⟨c'', d'', last, bs, ran.trans ranToo⟩

theorem weaken (builds : Builds inline r p tail d P) (weaker : ∀ d', P d' → Q d') :
    Builds inline r p tail d Q := by
  intro c left
  obtain ⟨c', d', leftToo, as, ran⟩ := builds c left
  exact ⟨c', d', leftToo, weaker d' as, ran⟩

/-- A directive is one token, and builds what its item builds. -/
theorem directive {R : Item → Prop} (inside : Crossable b)
    (reads : ∀ t : Token, t.kind = .directive → t.value = b → ∃ i, t.item inline = .ok i ∧ R i)
    (adds : ∀ mark i, R i → ∃ d', d.add mark i = .ok d' ∧ Q d') :
    Builds inline r (delimited b) tail d Q := by
  intro c left
  obtain ⟨t, after, read, kind, value, rest⟩ := inside.next (r := r) left
  obtain ⟨i, item, as⟩ := reads t kind value
  obtain ⟨d', added, bs⟩ := adds t.mark i as
  refine ⟨after, d', rest, bs, Draft.run_step ?_ read ?_ item added⟩
  · rw [left]
    exact List.cons_ne_nil _ _
  · rw [kind]
    decide

end Builds

/-- The template under construction with nodes added that hold the data of `ns`. -/
def Draft.Extends (d : Draft) (ns : List Node) (d' : Draft) : Prop :=
  ∃ ns', Node.agreeAll ns' ns = true ∧ d' = { d with nodes := ns'.reverse ++ d.nodes }

theorem Draft.Extends.nil (d : Draft) : d.Extends [] d :=
  ⟨[], rfl, rfl⟩

theorem Node.agreeAll_append {ks ls ms ns : List Node} (front : Node.agreeAll ks ms = true)
    (back : Node.agreeAll ls ns = true) : Node.agreeAll (ks ++ ls) (ms ++ ns) = true := by
  induction ks generalizing ms with
  | nil =>
    cases ms with
    | nil => exact back
    | cons m ms => cases front
  | cons k ks ih =>
    cases ms with
    | nil => cases front
    | cons m ms =>
      rw [Node.agreeAll, Bool.and_eq_true] at front
      rw [List.cons_append, List.cons_append, Node.agreeAll, front.1, ih front.2]
      rfl

theorem Draft.Extends.append {d d' d'' : Draft} {ms ns : List Node} (front : d.Extends ms d')
    (back : d'.Extends ns d'') : d.Extends (ms ++ ns) d'' := by
  obtain ⟨ms', agrees, rfl⟩ := front
  obtain ⟨ns', agreesToo, rfl⟩ := back
  exact ⟨ms' ++ ns', Node.agreeAll_append agrees agreesToo, by simp⟩

namespace Builds

variable {inline : Inline} {r : Region} {b tail : List Char} {d : Draft} {n : Node}

theorem text {value : String} (filled : value ≠ "") (plain : isPlain value) (stops : StopsText tail) :
    Builds inline r (r.escape value.toList) tail d (d.Extends [.text value]) := by
  intro c left
  have nonempty : value.toList ≠ [] := fun none => filled (String.toList_eq_nil_iff.mp none)
  have literal := not_mem_of_isPlain plain
  obtain ⟨t, after, read, kind, content, rest⟩ :=
    Region.next_escape nonempty (.inr fun last => literal (List.mem_of_getLast? last)) stops left
  have item : t.item inline = .ok (.node (.text value)) := by
    simp only [Token.item, kind, content, String.ofList_toList]
  refine ⟨after, { d with nodes := .text value :: d.nodes }, rest,
    ⟨[.text value], by simp [Node.agreeAll, Node.agrees], rfl⟩, Draft.run_step ?_ read ?_ item rfl⟩
  · intro none
    rw [Token.next, none] at read
    cases read
    cases kind
  · rw [kind]
    decide

/-- A directive that stands for one node adds that node. -/
theorem node (inside : Crossable b)
    (reads : ∀ t : Token, t.kind = .directive → t.value = b →
      ∃ i, t.item inline = .ok i ∧ i.IsNode n) :
    Builds inline r (delimited b) tail d (d.Extends [n]) := by
  refine .directive inside reads fun mark i as => ?_
  obtain ⟨n', rfl, agrees⟩ := as
  exact ⟨_, rfl, [n'], by simp [Node.agreeAll, agrees], rfl⟩

end Builds

section Conditionals

variable {inline : Inline} {r : Region} {tail : List Char} {d d' d'' : Draft} {condition : Path}
  {body second : List Node} {n : Node} {mark : Mark}

/-- In `d'` a conditional has just been opened behind `d`. -/
def Draft.Opens (d : Draft) (condition : Path) (d' : Draft) : Prop :=
  ∃ mark, d' = ⟨[], ⟨d.nodes, mark, condition, none⟩ :: d.opened⟩

/-- In `d'` a conditional is open behind `d`, and its first body has been read. -/
def Draft.InBody (d : Draft) (condition : Path) (body : List Node) (d' : Draft) : Prop :=
  ∃ mark body', Node.agreeAll body' body = true ∧
    d' = ⟨body'.reverse, ⟨d.nodes, mark, condition, none⟩ :: d.opened⟩

/-- In `d'` a conditional is open behind `d`, and its second body has just begun. -/
def Draft.InElse (d : Draft) (condition : Path) (body : List Node) (d' : Draft) : Prop :=
  ∃ mark body', Node.agreeAll body' body = true ∧
    d' = ⟨[], ⟨d.nodes, mark, condition, some body'⟩ :: d.opened⟩

/-- An end of a conditional completes the node `n` behind `d`. -/
def Draft.ClosesTo (d : Draft) (n : Node) (d' : Draft) : Prop :=
  ∀ mark, ∃ n', d'.add mark .endIf = .ok { d with nodes := n' :: d.nodes } ∧ n'.agrees n = true

theorem Draft.Opens.inBody (opens : d.Opens condition d') (read : d'.Extends body d'') :
    d.InBody condition body d'' := by
  obtain ⟨mark, rfl⟩ := opens
  obtain ⟨body', agrees, rfl⟩ := read
  exact ⟨mark, body', agrees, by simp⟩

theorem Draft.InBody.closes (inBody : d.InBody condition body d') :
    d.ClosesTo (.cond mark condition body none) d' := by
  obtain ⟨at_, body', agrees, rfl⟩ := inBody
  intro last
  refine ⟨.cond at_ condition body' none, by simp [Draft.add], ?_⟩
  simp [Node.agrees, Node.agreeElse, agrees]

theorem Draft.InElse.closes (inElse : d.InElse condition body d') (read : d'.Extends second d'') :
    d.ClosesTo (.cond mark condition body (some second)) d'' := by
  obtain ⟨at_, body', agrees, rfl⟩ := inElse
  obtain ⟨second', agreesToo, rfl⟩ := read
  intro last
  refine ⟨.cond at_ condition body' (some second'), by simp [Draft.add], ?_⟩
  simp [Node.agrees, Node.agreeElse, agrees, agreesToo]

theorem Builds.openIf (ok : condition.isSpellable) :
    Builds inline r (delimited ("if ".toList ++ condition.letters)) tail d (d.Opens condition) := by
  refine .directive (isSimple_cond ok).crossable (fun t kind value =>
    t.item_keyword kind value (.cons rfl _) (.condOperands ok)) fun at_ i opens => ?_
  obtain ⟨mark, rfl⟩ := opens
  exact ⟨_, rfl, mark, rfl⟩

theorem Builds.otherwise (inBody : d.InBody condition body d') :
    Builds inline r (delimited "else".toList) tail d' (d.InElse condition body) := by
  obtain ⟨at_, body', agrees, rfl⟩ := inBody
  have simple : IsSimple "else".toList := by decide
  refine .directive (R := (· = .otherwise)) simple.crossable (fun t kind value => ?_) fun _ i same => ?_
  · exact ⟨_, t.item_else kind value, rfl⟩
  · rw [same]
    exact ⟨_, rfl, at_, body', agrees, by simp⟩

theorem Builds.endIf (closes : d.ClosesTo n d') :
    Builds inline r (delimited "end if".toList) tail d' (d.Extends [n]) := by
  have simple : IsSimple "end if".toList := by decide
  refine .directive (R := (· = .endIf)) simple.crossable (fun t kind value => ?_) fun at_ i same => ?_
  · exact ⟨_, t.item_endIf kind value, rfl⟩
  · obtain ⟨n', added, agrees⟩ := closes at_
    rw [same]
    exact ⟨_, added, [n'], by simp [Node.agreeAll, agrees], rfl⟩

end Conditionals

/-- The blocks that are shorter than this are compiled as blocks are. -/
def Inline.CompilesBelow (inline : Inline) (bound : Nat) : Prop :=
  ∀ block : Cursor, block.rest.length < bound → inline block = compileStretch .block block

/-- A stretch is compiled to what reading it builds from nothing. -/
theorem compileStretch_of_builds {r : Region} {c : Cursor} {ns : List Node}
    (builds : ∀ inline : Inline, inline.CompilesBelow c.rest.length →
      Builds inline r c.rest [] .empty (Draft.empty.Extends ns)) :
    ∃ ns', compileStretch r c = .ok ns' ∧ Node.agreeAll ns' ns = true := by
  rw [compileStretch]
  generalize equal : (fun block : Cursor =>
    if _shorter : block.rest.length < c.rest.length then compileStretch .block block
    else .error ⟨.unmatchedOpen, block.mark⟩) = inline
  have below : Inline.CompilesBelow inline c.rest.length := by
    intro block shorter
    rw [← equal]
    exact dif_pos shorter
  obtain ⟨c', d', done, ⟨ns', agrees, rfl⟩, ran⟩ := builds inline below c (List.append_nil _).symm
  rw [Draft.run_end done] at ran
  refine ⟨ns', ?_, agrees⟩
  cases tokens : tokenize r c with
  | error e =>
    rw [Draft.run, tokens] at ran
    cases ran
  | ok ts =>
    rw [Draft.run, tokens] at ran
    change parse inline ts = .ok ns'
    change Draft.empty.addTokens inline ts = _ at ran
    rw [parse, ran]
    change Except.ok (ns'.reverse ++ []).reverse = Except.ok ns'
    rw [List.append_nil, List.reverse_reverse]

end Stencil
