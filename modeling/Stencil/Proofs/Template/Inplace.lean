import Stencil.Proofs.Template.Written

namespace Stencil

variable {α : Type} {inline : Inline} {b : List Char} {p : Path} {t : Token} {i : Item}

/-- Without escaped braces it makes no difference for a source whether it stands in a block. -/
theorem Region.page_sameOn {l : List Char} (opens : ¬['\\', '\x7b'] <:+: l)
    (closes : ¬['\\', '\x7d'] <:+: l) : Region.page.SameOn .block l := by
  intro d inside
  have notOpen : (d == '\x7b') = false := by
    rw [beq_eq_false_iff_ne]
    rintro rfl
    exact opens inside
  have notClose : (d == '\x7d') = false := by
    rw [beq_eq_false_iff_ne]
    rintro rfl
    exact closes inside
  rw [Region.escapes, Region.escapes, notOpen, notClose, Bool.or_false, Bool.or_false]

theorem compile_of_block {source : String} (name : String) {block : Cursor} {body : List Node}
    (content : block.rest = source.toList) (opens : ¬['\\', '\x7b'] <:+: source.toList)
    (closes : ¬['\\', '\x7d'] <:+: source.toList) (compiled : compileStretch .block block = .ok body) :
    ∃ u, compile source name = .ok u ∧ Node.LikeAll (fun _ _ => True) u.nodes body := by
  have like : (Cursor.ofText source.toList).Like (fun _ _ => True) (Cursor.ofText source.toList).rest block :=
    ⟨content.symm, List.infix_rfl, trivial⟩
  have alike := like.compile_alike .anywhere (Region.page_sameOn opens closes)
  rw [compiled] at alike
  obtain ⟨ns, ran, nodes⟩ := alike.of_ok_right
  exact ⟨⟨ns, name⟩, compile_eq_ok_iff.mpr ⟨ns, ran, rfl⟩, nodes⟩

theorem Passes.ok {x : Scan α} {before after : List Char} {Q : α → Prop} {c c' : Cursor} {a : α}
    (passes : Passes x before Q after) (left : c.rest = before) (read : x c = .ok a c') :
    Q a ∧ c'.rest = after := by
  obtain ⟨a', c'', ran, as, rest⟩ := passes c left
  rw [read] at ran
  cases ran
  exact ⟨as, rest⟩

/-- A map whose template is written in place keeps what the block compiles to. -/
theorem readOperands_mapInline {mark : Mark} {c c' : Cursor} (inside : Transparent b) (ok : p.isSpellable)
    (left : c.rest = ':' :: (braced b ++ ' ' :: p.letters))
    (read : readOperands inline mark .map c = .ok i c') :
    ∃ block body, block.rest = b ∧ inline block = .ok body ∧ i = .node (.mapInline mark body p) := by
  have skipped : (':' :: (braced b ++ ' ' :: p.letters)).dropWhile isBlank =
      ':' :: (braced b ++ ' ' :: p.letters) := rfl
  obtain ⟨begun, blanks, which⟩ := readOperands_map_ok read
  have opened := (Passes.skipBlanks.ok left blanks).2
  rw [skipped] at opened
  rcases which with ⟨-, block, behind, body, items, last, braces, compiled, path, rfl⟩ | ⟨other, -⟩
  · obtain ⟨content, trail⟩ := (Passes.readColonBlock _ inside).ok opened braces
    obtain ⟨rfl, -⟩ := (Passes.itemsPath _ ok).ok trail path
    exact ⟨block, body, content, compiled, rfl⟩
  · rw [Cursor.peek, opened] at other
    exact absurd rfl other

theorem Token.item_mapInline (inside : Transparent b) (ok : p.isSpellable) (directive : t.kind = .directive)
    (value : t.value = Keyword.map.word.toList ++ ':' :: (braced b ++ ' ' :: p.letters))
    (read : t.item inline = .ok i) :
    ∃ block body, block.rest = b ∧ inline block = .ok body ∧ i = .node (.mapInline t.mark body p) := by
  have ends : EndsWord (':' :: (braced b ++ ' ' :: p.letters)) := .cons rfl _
  have word := isWord_keyword .map
  have spelled : Passes nextWord t.value (fun w => w.letters = Keyword.map.word.toList)
      (':' :: (braced b ++ ' ' :: p.letters)) := by
    rw [value]
    exact .nextWord word ends word.dropWhile_isBlank
  have begins : ∃ w ws, words t.value = ('m' :: w) :: ws := by
    rw [value]
    exact words_cons rfl _
  obtain ⟨v, vs, begins⟩ := begins
  rcases Token.item_ok read with ⟨text, -⟩ | ⟨-, ⟨isElse, -⟩ | ⟨isEnd, -⟩ | ⟨-, -, c', item⟩⟩
  · rw [text] at directive
    cases directive
  · rw [begins] at isElse
    cases isElse
  · rw [begins] at isEnd
    cases isEnd
  · obtain ⟨w, mid, first, ⟨k, last, letters, operands⟩ | ⟨_, unknown, -, -, -⟩⟩ := readItem_ok item
    · obtain ⟨own, left⟩ := spelled.ok rfl first
      obtain rfl : k = .map := by
        rw [own] at letters
        cases k <;> first | rfl | cases letters
      exact readOperands_mapInline inside ok left operands
    · rw [(spelled.ok rfl first).1] at unknown
      cases unknown

/-- A source that is one directive has one token. -/
theorem Crossable.tokenize {r : Region} {c : Cursor} {ts : List Token} (inside : Crossable b)
    (left : c.rest = delimited b) (read : tokenize r c = .ok ts) :
    ∃ t, t.kind = .directive ∧ t.value = b ∧ Token.inner ts = [t] := by
  have begins : c.rest = delimited b ++ [] := by rw [left, List.append_nil]
  have more : c.rest ≠ [] := by
    rw [left]
    exact List.cons_ne_nil _ _
  obtain ⟨t, after, first, kind, value, done⟩ := inside.next (r := r) begins
  obtain ⟨u, after', us, firstToo, rest, -, inner⟩ := tokenize_first more read
  rw [first] at firstToo
  cases firstToo
  rw [tokenize_nil done] at rest
  cases rest
  exact ⟨t, kind, value, inner⟩

theorem Derives.alone {ns : List Node} (derives : Derives inline [t] ns) :
    ∃ n, ns = [n] ∧ t.item inline = .ok (.node n) := by
  generalize only : [t] = ts at derives
  cases derives with
  | nil => cases only
  | single read after =>
    cases only
    cases after
    exact ⟨_, rfl, read⟩
  | cond | condElse =>
    have length := congrArg List.length only
    simp at length

theorem compile_mapInline {source name : String} {u : Template} (inside : Transparent source.toList)
    (ok : p.isSpellable)
    (compiled : compile ("$map:\x7b" ++ source ++ "\x7d " ++ p.dotted ++ "$") name = .ok u) :
    ∃ mark block body, block.rest = source.toList ∧ compileStretch .block block = .ok body ∧
      u = ⟨[.mapInline mark body p], name⟩ := by
  obtain ⟨ns, nodes, rfl⟩ := compile_eq_ok_iff.mp compiled
  have spelled : ("$map:\x7b" ++ source ++ "\x7d " ++ p.dotted ++ "$").toList =
      delimited ("map:".toList ++ braced source.toList ++ ' ' :: p.letters) := by
    simp [delimited, braced, Path.letters]
  obtain ⟨ts, read, derives⟩ := compileStretch_eq_ok_iff.mp nodes
  have crossed : Crossable ("map:".toList ++ braced source.toList ++ ' ' :: p.letters) :=
    .block isSmooth_map inside (.path ok)
  obtain ⟨t, directive, value, inner⟩ := crossed.tokenize spelled read
  rw [inner] at derives
  obtain ⟨n, rfl, item⟩ := derives.alone
  obtain ⟨block, body, content, done, same⟩ := Token.item_mapInline inside ok directive value item
  cases same
  exact ⟨_, block, body, content, done, rfl⟩

theorem compile_mapNamed {n : String} (named : isTemplateName n) (ok : p.isSpellable) (name : String) :
    ∃ mark, compile ("$map " ++ n ++ " " ++ p.dotted ++ "$") name = .ok ⟨[.mapNamed mark n p], name⟩ := by
  have spelled : ("$map " ++ n ++ " " ++ p.dotted ++ "$").toList =
      Node.printAll .page [.mapNamed .origin n p] := by
    simp [Node.printAll, Node.print, delimited, Path.letters]
  have printable : Node.arePrintable [.mapNamed .origin n p] = true := by
    simp [Node.arePrintable, Node.isPrintable, named, ok]
  obtain ⟨ns, compiled, agree⟩ := compile_of_printable printable spelled name
  obtain ⟨m, rest, rfl, same, none⟩ := Node.exists_cons_of_agreeAll agree
  obtain ⟨mark, rfl⟩ := Node.eq_mapNamed_of_agrees same
  rw [Node.eq_nil_of_agreeAll none] at compiled
  exact ⟨mark, compiled⟩

end Stencil
