import Stencil.Proofs.Template.Spelling
import Stencil.Template.Equality

namespace Stencil

variable {α β : Type} {before mid after : List Char}

/-- Where just `before` is left, the step gives an answer as described and leaves `after`. -/
def Passes (x : Scan α) (before : List Char) (Q : α → Prop) (after : List Char) : Prop :=
  ∀ c : Cursor, c.rest = before → ∃ a c', x c = .ok a c' ∧ Q a ∧ c'.rest = after

namespace Passes

theorem pure {Q : α → Prop} {a : α} (as : Q a) : Passes (pure a) before Q before :=
  fun c left => ⟨a, c, rfl, as, left⟩

theorem bind {Q : α → Prop} {R : β → Prop} {x : Scan α} {f : α → Scan β}
    (first : Passes x before Q mid) (second : ∀ a, Q a → Passes (f a) mid R after) :
    Passes (x >>= f) before R after := by
  intro c left
  obtain ⟨a, c', ran, as, leftToo⟩ := first c left
  obtain ⟨b, c'', ranToo, bs, last⟩ := second a as c' leftToo
  refine ⟨b, c'', ?_, bs, last⟩
  rw [Scan.bind_of_ok ran, ranToo]

theorem get : Passes (get : Scan Cursor) before (fun c => c.rest = before) before :=
  fun c left => ⟨c, c, rfl, left, left⟩

theorem set {c : Cursor} (left : c.rest = after) :
    Passes (set c : Scan PUnit) before (fun _ => True) after :=
  fun _ _ => ⟨⟨⟩, c, rfl, trivial, left⟩

theorem lift {Q : α → Prop} {r : Except SyntaxError α} {a : α} (ran : r = .ok a) (as : Q a) :
    Passes (liftExcept r : Scan α) before Q before := by
  intro c left
  rw [ran]
  exact ⟨a, c, rfl, as, left⟩

theorem skipBlanks : Passes skipBlanks before (fun _ => True) (before.dropWhile isBlank) := by
  intro c left
  refine ⟨⟨⟩, c.advance (c.rest.takeWhile isBlank).length, rfl, trivial, ?_⟩
  have cut : (before.takeWhile isBlank ++ before.dropWhile isBlank).drop
      (before.takeWhile isBlank).length = before.dropWhile isBlank := List.drop_left
  rw [List.takeWhile_append_dropWhile] at cut
  rw [Cursor.advance_rest, left, cut]

variable {l tail : List Char}

/-- Blanks are skipped, and then everything up to what ends a word is read. -/
theorem upToEnd (stops : (l ++ tail).takeWhile (!endsWord ·) = l) (skipped : before.dropWhile isBlank = l ++ tail) :
    Passes nextWord before (fun w => w.letters = l) tail := by
  refine .bind .skipBlanks fun _ _ => .bind .get fun c left => ?_
  rw [skipped] at left
  have letters : c.rest.takeWhile (!endsWord ·) = l := by
    rw [left, stops]
  rw [letters]
  refine .bind (.set ?_) fun _ _ => .pure rfl
  rw [Cursor.advance_rest, left, List.drop_left]

theorem nextWord (word : IsWord l) (ends : EndsWord tail)
    (skipped : before.dropWhile isBlank = l ++ tail) :
    Passes nextWord before (fun w => w.letters = l) tail :=
  .upToEnd (word.takeWhile ends) skipped

theorem readPath (what : String) (mark : Mark) {p : Path} (ok : p.isSpellable)
    (ends : EndsWord tail) (skipped : before.dropWhile isBlank = p.letters ++ tail) :
    Passes (readPath what mark) before (· = p) tail := by
  have word := isWord_path ok
  refine .bind (.nextWord word ends skipped) fun w spelled => ?_
  rw [if_neg (spelled ▸ word.filled)]
  exact .lift (Word.path_of_letters ok spelled) rfl

theorem readName (what : String) (mark : Mark) {name : String} (ok : isTemplateName name)
    (ends : EndsWord tail) (skipped : before.dropWhile isBlank = name.toList ++ tail) :
    Passes (readName what mark) before (· = name) tail := by
  have word := isWord_name ok
  refine .bind (.nextWord word ends skipped) fun w spelled => ?_
  rw [if_neg (spelled ▸ word.filled)]
  refine .pure ?_
  rw [Word.text, spelled, String.ofList_toList]

theorem accept {d : Char} (bright : isBlank d = false) :
    Passes (accept d) (d :: after) (· = true) after := by
  have skipped : (d :: after).dropWhile isBlank = d :: after := by
    rw [List.dropWhile_cons, bright]
    rfl
  refine .bind .skipBlanks fun _ _ => .bind .get fun c left => ?_
  rw [skipped] at left
  have found : c.peek 0 = some d := by
    rw [Cursor.peek, left]
    rfl
  rw [if_pos found]
  refine .bind (.set ?_) fun _ _ => .pure rfl
  rw [Cursor.advance_rest, left]
  rfl

theorem readColonBlock (what : String) (inside : Transparent l) :
    Passes (readColonBlock what) (':' :: (braced l ++ tail)) (fun block => block.rest = l) tail := by
  have skipped : (braced l ++ tail).dropWhile isBlank = braced l ++ tail := rfl
  refine .bind (.accept (by decide)) fun found same => ?_
  rw [same, if_pos rfl]
  refine .bind .skipBlanks fun _ _ => .bind .get fun c left => ?_
  rw [skipped] at left ⊢
  have opens : c.peek 0 = some '\x7b' := by
    rw [Cursor.peek, left]
    rfl
  rw [if_pos opens]
  intro d leftToo
  have content : (d.advance 1).rest = l ++ '\x7d' :: tail := by
    simp [leftToo, braced]
  refine ⟨_, _, inside.readBraced leftToo, ?_, ?_⟩
  · change (d.advance 1).rest.take l.length = l
    rw [content, List.take_left]
  · rw [Cursor.advance_rest, content, ← List.drop_drop, List.drop_left]
    rfl

/-- A literal is read back from a block that its escaped form just fills. -/
theorem readEnclosed (what : String) {s : String} (inside : Transparent (Region.block.escape s.toList)) :
    Passes (readLiteral what) (':' :: (braced (Region.block.escape s.toList) ++ tail)) (· = s) tail := by
  refine .bind (.readColonBlock what inside) fun block left => .pure ?_
  rw [left, Region.unescape_escape, String.ofList_toList]

theorem readLiteral (what : String) {s : String} (plain : isPlain s) :
    Passes (readLiteral what) (':' :: (braced (Region.block.escape s.toList) ++ tail)) (· = s) tail :=
  .readEnclosed what (.escape (not_mem_of_isPlain plain))

theorem requireEnd (what : String) : Passes (requireEnd what) [] (fun _ => True) [] := by
  refine .bind .skipBlanks fun _ _ => .bind .get fun c left => ?_
  have done : c.atEnd := by
    rw [Cursor.atEnd, left]
    rfl
  rw [if_pos done]
  exact .pure trivial

end Passes

/-- The item is a finished node with the data of `n`. -/
def Item.IsNode (n : Node) (i : Item) : Prop :=
  ∃ n', i = .node n' ∧ n'.agrees n = true

section Operands

variable {inline : Inline} {mark m : Mark} {items : Path}

/-- The list that a directive goes through is the last thing in it. -/
theorem Passes.itemsPath (what : String) (ok : items.isSpellable) :
    Passes (Stencil.readPath what mark) (' ' :: items.letters) (· = items) [] :=
  .readPath what mark ok .nil (isWord_path ok).dropWhile_alone

theorem Passes.includeOperands {name : String} (ok : isTemplateName name) :
    Passes (readOperands inline mark .include) (' ' :: name.toList) (Item.IsNode (.include m name))
      [] := by
  refine .bind (.readName _ mark ok .nil (isWord_name ok).dropWhile_alone) fun _ same => ?_
  exact .pure ⟨_, rfl, beq_iff_eq.mpr same⟩

theorem Passes.applyOperands {func arg : Path} (funcOk : func.isSpellable) (argOk : arg.isSpellable) :
    Passes (readOperands inline mark .apply) (' ' :: (func.letters ++ ' ' :: arg.letters))
      (Item.IsNode (.apply m func arg)) [] := by
  have space : EndsWord (' ' :: arg.letters) := .cons rfl _
  refine .bind (.readPath _ mark funcOk space (isWord_path funcOk).dropWhile_isBlank) fun _ same => ?_
  refine .bind (.itemsPath _ argOk) fun _ sameToo => ?_
  exact .pure ⟨_, rfl, Bool.and_eq_true_iff.mpr ⟨beq_iff_eq.mpr same, beq_iff_eq.mpr sameToo⟩⟩

theorem Passes.condOperands {condition : Path} (ok : condition.isSpellable) :
    Passes (readOperands inline mark .cond) (' ' :: condition.letters)
      (fun i => ∃ mark, i = .openIf mark condition) [] := by
  refine .bind (.itemsPath _ ok) fun _ same => ?_
  exact .pure ⟨mark, same ▸ rfl⟩

theorem Passes.mapNamedOperands {name : String} (ok : isTemplateName name)
    (itemsOk : items.isSpellable) :
    Passes (readOperands inline mark .map) (' ' :: (name.toList ++ ' ' :: items.letters))
      (Item.IsNode (.mapNamed m name items)) [] := by
  have word := isWord_name ok
  have space : EndsWord (' ' :: items.letters) := .cons rfl _
  have skipped : (' ' :: (name.toList ++ ' ' :: items.letters)).dropWhile isBlank =
      name.toList ++ ' ' :: items.letters := word.dropWhile_isBlank
  refine .bind .skipBlanks fun _ _ => .bind .get fun c left => ?_
  rw [skipped] at left ⊢
  have other : ¬ c.peek 0 = some ':' := by
    intro colon
    rw [Cursor.peek, left] at colon
    have inside : ':' ∈ name.toList := by
      cases letters : name.toList with
      | nil => exact absurd letters word.filled
      | cons d ds =>
        rw [letters] at colon
        cases colon
        exact List.mem_cons_self
    exact absurd (word.chars _ inside).2 (by decide)
  rw [if_neg other]
  refine .bind (.readName _ mark ok space word.dropWhile_isBlank) fun _ same => ?_
  refine .bind (.itemsPath _ itemsOk) fun _ sameToo => ?_
  exact .pure ⟨_, rfl, Bool.and_eq_true_iff.mpr ⟨beq_iff_eq.mpr same, beq_iff_eq.mpr sameToo⟩⟩

theorem Passes.mapInlineOperands {b : List Char} {body : List Node} (inside : Transparent b)
    (compiles : ∀ block : Cursor, block.rest = b →
      ∃ body', inline block = .ok body' ∧ Node.agreeAll body' body = true)
    (itemsOk : items.isSpellable) :
    Passes (readOperands inline mark .map) (':' :: (braced b ++ ' ' :: items.letters))
      (Item.IsNode (.mapInline m body items)) [] := by
  have skipped : (':' :: (braced b ++ ' ' :: items.letters)).dropWhile isBlank =
      ':' :: (braced b ++ ' ' :: items.letters) := rfl
  refine .bind .skipBlanks fun _ _ => .bind .get fun c left => ?_
  rw [skipped] at left ⊢
  have colon : c.peek 0 = some ':' := by
    rw [Cursor.peek, left]
    rfl
  rw [if_pos colon]
  refine .bind (.readColonBlock _ inside) fun block content => ?_
  obtain ⟨body', compiled, agrees⟩ := compiles block content
  refine .bind (.lift (Q := fun read => Node.agreeAll read body = true) compiled agrees)
    fun read agreesToo => ?_
  refine .bind (.itemsPath _ itemsOk) fun _ same => ?_
  exact .pure ⟨_, rfl, Bool.and_eq_true_iff.mpr ⟨agreesToo, beq_iff_eq.mpr same⟩⟩

theorem Passes.joinOperands {separator : String} (plain : isPlain separator)
    (itemsOk : items.isSpellable) :
    Passes (readOperands inline mark .join)
      (':' :: (braced (Region.block.escape separator.toList) ++ ' ' :: items.letters))
      (Item.IsNode (.join m separator items)) [] := by
  refine .bind (.readLiteral _ plain) fun _ same => ?_
  refine .bind (.itemsPath _ itemsOk) fun _ sameToo => ?_
  exact .pure ⟨_, rfl, Bool.and_eq_true_iff.mpr ⟨beq_iff_eq.mpr same, beq_iff_eq.mpr sameToo⟩⟩

theorem Passes.txtOperands {key : String} (filled : key ≠ "") (plain : isPlain key) :
    Passes (readOperands inline mark .txt) (':' :: braced (Region.block.escape key.toList))
      (Item.IsNode (.txt m key)) [] := by
  have literal : Passes (Stencil.readLiteral Keyword.txt.word)
      (':' :: (braced (Region.block.escape key.toList) ++ [])) (· = key) [] := .readLiteral _ plain
  rw [List.append_nil] at literal
  refine .bind literal fun read same => ?_
  rw [if_neg (same ▸ filled)]
  exact .pure ⟨_, rfl, beq_iff_eq.mpr same⟩

end Operands

section Items

variable {inline : Inline} {t : Token} {Q : Item → Prop} {operands : List Char}

theorem ofWord?_word (k : Keyword) : Keyword.ofWord? k.word.toList = some k := by
  cases k <;> rfl

/-- No keyword begins like a part of a conditional. -/
theorem word_cons (k : Keyword) :
    ∃ d ds, k.word.toList = d :: ds ∧ isBlank d = false ∧ d ≠ 'e' := by
  cases k <;> exact ⟨_, _, rfl, by decide, by decide⟩

theorem Passes.readItem {k : Keyword} (ends : EndsWord operands)
    (reads : Passes (readOperands inline t.mark k) operands Q []) :
    Passes (readItem inline t) (k.word.toList ++ operands) Q [] := by
  have word := isWord_keyword k
  refine .bind (.nextWord word ends word.dropWhile_isBlank) fun w spelled => ?_
  simp only [spelled, ofWord?_word]
  exact .bind reads fun i as => .bind (.requireEnd _) fun _ _ => .pure as

theorem Token.item_of_passes (directive : t.kind = .directive)
    (notElse : words t.value ≠ ["else".toList])
    (notEnd : words t.value ≠ ["end".toList, "if".toList])
    (reads : Passes (Stencil.readItem inline t) t.value Q after) : ∃ i, t.item inline = .ok i ∧ Q i := by
  obtain ⟨i, c, read, as, -⟩ := reads t.content rfl
  refine ⟨i, ?_, as⟩
  rw [Token.item]
  simp only [directive, if_neg notElse, if_neg notEnd, read]

theorem Token.item_keyword {k : Keyword} (directive : t.kind = .directive)
    (value : t.value = k.word.toList ++ operands) (ends : EndsWord operands)
    (reads : Passes (readOperands inline t.mark k) operands Q []) :
    ∃ i, t.item inline = .ok i ∧ Q i := by
  obtain ⟨d, ds, letters, bright, other⟩ := word_cons k
  obtain ⟨w, ws, first⟩ := words_cons bright (ds ++ operands)
  have begins : words t.value = (d :: w) :: ws := by
    rw [value, letters, List.cons_append, first]
  refine Token.item_of_passes directive ?_ ?_ (value ▸ Passes.readItem ends reads)
  · rw [begins]
    intro same
    cases same
    exact other rfl
  · rw [begins]
    intro same
    cases same
    exact other rfl

theorem ofWord?_eq_none {l : List Char} (free : ∀ w ∈ reservedWords, l ≠ w.toList) :
    Keyword.ofWord? l = none := by
  cases found : Keyword.ofWord? l with
  | none => rfl
  | some k =>
    have same : k.word.toList = l := by
      simpa using List.find?_some found
    have reserved : k.word ∈ reservedWords := by
      cases k <;> decide
    exact absurd same.symm (free k.word reserved)

theorem isPartWord_eq_false {l : List Char} (free : ∀ w ∈ reservedWords, l ≠ w.toList) :
    isPartWord l = false := by
  rw [isPartWord, Bool.or_eq_false_iff, beq_eq_false_iff_ne, beq_eq_false_iff_ne]
  exact ⟨free "else" (by decide), free "end" (by decide)⟩

/-- The paths that are not a reserved word are not spelled like one either. -/
theorem Path.letters_ne_reserved {p : Path} (ok : p.isSpellable)
    (free : reservedWords.all fun w => p != [w]) : ∀ w ∈ reservedWords, p.letters ≠ w.toList := by
  intro w found same
  have spelled : p.letters = Path.letters [w] := by
    rw [same, Path.letters_eq, List.map_singleton, List.intercalate_singleton]
  have spellable : ∀ v ∈ reservedWords, Path.isSpellable [v] := by decide
  have equal := Path.eq_of_letters ok (spellable w found) spelled
  have differs := List.all_eq_true.mp free w found
  rw [equal] at differs
  simp at differs

theorem Passes.readAttr {p : Path} {m : Mark} (ok : p.isSpellable)
    (free : ∀ w ∈ reservedWords, p.letters ≠ w.toList) :
    Passes (Stencil.readItem inline t) p.letters (Item.IsNode (.attr m p)) [] := by
  have word := isWord_path ok
  refine .bind (.nextWord word .nil word.dropWhile_alone) fun w spelled => ?_
  simp only [spelled, ofWord?_eq_none free]
  refine .bind .get fun c left => ?_
  split
  · rename_i none _
    exact absurd none word.filled
  · rename_i none _
    exact absurd none word.filled
  · rw [isPartWord_eq_false free, if_neg Bool.false_ne_true]
    refine .bind (.lift (Word.path_of_letters ok spelled) rfl) fun _ same => ?_
    refine .bind .skipBlanks fun _ _ => .bind .get fun rest leftToo => ?_
    have done : rest.atEnd := by
      rw [Cursor.atEnd, leftToo]
      rfl
    rw [if_pos done]
    exact .pure ⟨_, rfl, beq_iff_eq.mpr same.symm⟩

/-- A path that stands alone is not mistaken for anything else. -/
theorem Token.item_attr {p : Path} {m : Mark} (directive : t.kind = .directive)
    (value : t.value = p.letters) (ok : p.isSpellable)
    (free : reservedWords.all fun w => p != [w]) :
    ∃ i, t.item inline = .ok i ∧ Item.IsNode (.attr m p) i := by
  have word := isWord_path ok
  have unreserved := Path.letters_ne_reserved ok free
  refine Token.item_of_passes directive ?_ ?_ (value ▸ Passes.readAttr ok unreserved)
  · rw [value, word.words]
    intro same
    exact unreserved "else" (by decide) (List.cons.inj same).1
  · rw [value, word.words]
    intro same
    cases (List.cons.inj same).2

theorem Token.item_else (directive : t.kind = .directive) (value : t.value = "else".toList) :
    t.item inline = .ok .otherwise := by
  have word : words t.value = ["else".toList] := by
    rw [value]
    decide
  rw [Token.item]
  simp only [directive, if_pos word]

theorem Token.item_endIf (directive : t.kind = .directive) (value : t.value = "end if".toList) :
    t.item inline = .ok .endIf := by
  have both : words t.value = ["end".toList, "if".toList] := by
    rw [value]
    decide
  have notElse : words t.value ≠ ["else".toList] := by
    rw [both]
    decide
  rw [Token.item]
  simp only [directive, if_neg notElse, if_pos both]

end Items

end Stencil
