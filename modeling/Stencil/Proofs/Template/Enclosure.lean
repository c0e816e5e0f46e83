import Stencil.Proofs.Render.Verbatim
import Stencil.Proofs.Template.Backslashes
import Stencil.Proofs.Template.Inplace

namespace Stencil

/-- The backslashes in front of a brace, and those at the end, come in pairs. -/
def BackslashesPair (cs : List Char) : Prop :=
  ∀ i ≤ cs.length, (∀ b ∈ cs[i]?, b = '\x7b' ∨ b = '\x7d') → Even (backslashesBefore cs i)

instance (cs : List Char) : Decidable (BackslashesPair cs) :=
  letI (i : Nat) : Decidable (∀ b ∈ cs[i]?, b = '\x7b' ∨ b = '\x7d') := Option.decidableForallMem cs[i]?
  Nat.decidableBallLE _ _

section Runs

variable {front cs : List Char} {n : Nat} {c : Char}

/-- A run of backslashes does not go on in front of another character. -/
theorem backslashesBefore_append (ends : front.getLast? ≠ some '\\') (cs : List Char) (i : Nat) :
    backslashesBefore (front ++ cs) (front.length + i) = backslashesBefore cs i := by
  have none : front.reverse.takeWhile (· == '\\') = [] := by
    rw [← List.head?_reverse] at ends
    cases left : front.reverse with
    | nil => rfl
    | cons d ds =>
      rw [left] at ends
      have other : (d == '\\') = false := beq_eq_false_iff_ne.mpr fun same => ends (by rw [same]; rfl)
      rw [List.takeWhile_cons, other]
      rfl
  rw [backslashesBefore, backslashesBefore, List.take_length_add_append, List.reverse_append, List.takeWhile_append,
    none]
  split <;> simp_all

theorem backslashesBefore_replicate (n : Nat) (cs : List Char) :
    backslashesBefore (List.replicate n '\\' ++ cs) n = n := by
  have before : (List.replicate n '\\' ++ cs).take n = List.replicate n '\\' := by
    rw [List.take_append_of_le_length (by simp), List.take_replicate, Nat.min_self]
  rw [backslashesBefore, before, List.reverse_replicate, List.takeWhile_replicate]
  simp

theorem BackslashesPair.even (pair : BackslashesPair (List.replicate n '\\' ++ cs))
    (stops : ∀ b ∈ cs.head?, b = '\x7b' ∨ b = '\x7d') : Even n := by
  have here : (List.replicate n '\\' ++ cs)[n]? = cs.head? := by
    rw [List.getElem?_append_right (by simp), List.length_replicate, Nat.sub_self, List.head?_eq_getElem?]
  have even := pair n (by simp) (here ▸ stops)
  rwa [backslashesBefore_replicate] at even

theorem BackslashesPair.tail (pair : BackslashesPair (List.replicate n '\\' ++ c :: cs)) (ends : c ≠ '\\') :
    BackslashesPair cs := by
  intro i within stops
  have split : List.replicate n '\\' ++ c :: cs = List.replicate n '\\' ++ [c] ++ cs := by simp
  have last : (List.replicate n '\\' ++ [c]).getLast? ≠ some '\\' := by simpa using ends
  rw [split] at pair
  have even := pair ((List.replicate n '\\' ++ [c]).length + i) (by simp; omega)
  rw [backslashesBefore_append last, List.getElem?_append_right (Nat.le_add_right _ _), Nat.add_sub_cancel_left] at even
  exact even stops

/-- It does not matter how many backslashes stand in front of a character that is neither a backslash nor a brace. -/
theorem Transparent.behind (unescaped : c ≠ '\\') (opens : c ≠ '\x7b') (closes : c ≠ '\x7d') (n : Nat) :
    Transparent (List.replicate n '\\' ++ [c]) := by
  rcases Nat.even_or_odd n with even | odd
  · exact (backslashes even).append (char unescaped opens closes)
  · exact hidden odd c

theorem replicate_append_cons (n : Nat) (cs : List Char) :
    List.replicate n '\\' ++ '\\' :: cs = List.replicate (n + 1) '\\' ++ cs := by
  rw [List.replicate_succ', List.append_assoc, List.singleton_append]

/-- The search for a closing brace passes over an escaped literal: its own backslashes in front of a brace hide each
other, and the one that escapes the brace is left for it. -/
theorem BackslashesPair.transparent (pair : BackslashesPair (List.replicate n '\\' ++ cs)) :
    Transparent (List.replicate n '\\' ++ Region.block.escape cs) := by
  -- The backslashes that have been passed since the last other character are kept in front.
  induction cs generalizing n with
  | nil =>
    rw [show Region.block.escape [] = [] from rfl, List.append_nil]
    exact .backslashes (pair.even (by simp))
  | cons c cs ih =>
    rw [Region.escape_cons]
    by_cases more : c = '\\'
    · subst more
      rw [replicate_append_cons] at pair
      rw [if_neg (by decide), List.singleton_append, replicate_append_cons]
      exact ih pair
    · have later : Transparent (Region.block.escape cs) := ih (n := 0) (pair.tail more)
      rw [← List.append_assoc]
      refine .append ?_ later
      by_cases opens : c = '\x7b'
      · subst opens
        rw [if_pos (by decide), replicate_append_cons]
        exact .hidden (pair.even (by simp)).add_one _
      by_cases closes : c = '\x7d'
      · subst closes
        rw [if_pos (by decide), replicate_append_cons]
        exact .hidden (pair.even (by simp)).add_one _
      · split
        · rw [replicate_append_cons]
          exact .behind more opens closes (n + 1)
        · exact .behind more opens closes n

end Runs

section Sources

variable {inline : Inline} {mark : Mark} {items : Path} {b : List Char} {s : String}

theorem Passes.enclosedJoin (inside : Transparent (Region.block.escape s.toList)) (ok : items.isSpellable) :
    Passes (readOperands inline mark .join) (':' :: (braced (Region.block.escape s.toList) ++ ' ' :: items.letters))
      (· = .node (.join mark s items)) [] := by
  refine .bind (.readEnclosed _ inside) fun _ same => ?_
  refine .bind (.itemsPath _ ok) fun _ sameToo => .pure ?_
  rw [same, sameToo]

theorem Passes.enclosedTxt (inside : Transparent (Region.block.escape s.toList)) (filled : s ≠ "") :
    Passes (readOperands inline mark .txt) (':' :: (braced (Region.block.escape s.toList) ++ []))
      (· = .node (.txt mark s)) [] := by
  refine .bind (.readEnclosed _ inside) fun _ same => ?_
  rw [if_neg (same ▸ filled), same]
  exact .pure rfl

theorem Token.enclosedMap {t : Token} {body : List Node} (inside : Transparent b)
    (compiles : ∀ block : Cursor, block.rest = b → inline block = .ok body) (ok : items.isSpellable)
    (directive : t.kind = .directive)
    (value : t.value = Keyword.map.word.toList ++ ':' :: (braced b ++ ' ' :: items.letters)) :
    t.item inline = .ok (.node (.mapInline t.mark body items)) := by
  have agrees (block : Cursor) (content : block.rest = b) :
      ∃ body', inline block = .ok body' ∧ Node.agreeAll body' body = true :=
    ⟨body, compiles block content, Node.LikeAll.agrees (Node.LikeAll.refl (M := Eq) (fun _ => rfl) body)⟩
  obtain ⟨i, read, -⟩ :=
    t.item_keyword directive value (.cons rfl _) (.mapInlineOperands (m := .origin) inside agrees ok)
  obtain ⟨block, body', content, compiled, rfl⟩ := Token.item_mapInline inside ok directive value read
  rw [compiles block content] at compiled
  cases compiled
  exact read

/-- A source that is one directive is one node, at the place of the directive. -/
theorem Crossable.compile {source : String} (inside : Crossable b) (spelled : source.toList = delimited b) {n : Node}
    (reads : ∀ t : Token, t.kind = .directive → t.value = b → t.mark = .origin →
      t.item (compileStretch .block) = .ok (.node n)) (name : String) :
    Stencil.compile source name = .ok ⟨[n], name⟩ := by
  have begins : (Cursor.ofText source.toList).rest = delimited b ++ [] := spelled.trans (List.append_nil _).symm
  have opens : (Cursor.ofText source.toList).rest = '$' :: (b ++ ['$']) := spelled
  have more : (Cursor.ofText source.toList).rest ≠ [] := opens ▸ List.cons_ne_nil _ _
  obtain ⟨t, after, first, kind, value, done⟩ := inside.next (r := .page) begins
  have mark : t.mark = .origin := by
    obtain ⟨_, -, rfl, -⟩ := directiveToken_ok ((Token.next_directive opens).symm.trans first)
    rfl
  have inner : Token.inner [t, .eof after] = [t] := Token.inner_cons (Token.next_inner more first)
  have read := tokenize_ok more first (tokenize_nil done)
  refine compile_eq_ok_iff.mpr ⟨[n], compileStretch_eq_ok_iff.mpr ⟨_, read, ?_⟩, rfl⟩
  rw [inner]
  exact .single (reads t kind value mark) .nil

/-- The item of a directive is what its keyword makes of the operands. -/
theorem Token.item_operands {t : Token} {k : Keyword} {i : Item} {operands : List Char}
    (directive : t.kind = .directive) (value : t.value = k.word.toList ++ operands) (ends : EndsWord operands)
    (reads : Passes (readOperands inline t.mark k) operands (· = i) []) : t.item inline = .ok i := by
  obtain ⟨_, read, rfl⟩ := t.item_keyword directive value ends reads
  exact read

end Sources

/-- A text as it is written into a block. -/
def escapedInBlock (text : String) : String :=
  String.ofList (Region.block.escape text.toList)

/-- A text is read back from a block into which it is written with its braces and delimiters escaped, if its own
backslashes come in pairs in front of its braces and at its end: as the separator of a join, as the only text of a
template in place, or as a text to be translated. -/
theorem compile_enclosed (text name : String) (pair : BackslashesPair text.toList) {p : Path} (ok : p.isSpellable) :
    compile ("$join:\x7b" ++ escapedInBlock text ++ "\x7d " ++ p.dotted ++ "$") name =
      .ok ⟨[.join .origin text p], name⟩ ∧
    compile ("$map:\x7b" ++ escapedInBlock text ++ "\x7d " ++ p.dotted ++ "$") name =
      .ok ⟨[.mapInline .origin (if text = "" then [] else [.text text]) p], name⟩ ∧
    (text ≠ "" → compile ("$txt:\x7b" ++ escapedInBlock text ++ "\x7d$") name = .ok ⟨[.txt .origin text], name⟩) := by
  have inside : Transparent (Region.block.escape text.toList) := pair.transparent (n := 0)
  refine ⟨?_, ?_, fun filled => ?_⟩
  · have spelled : ("$join:\x7b" ++ escapedInBlock text ++ "\x7d " ++ p.dotted ++ "$").toList =
        delimited ("join:".toList ++ braced (Region.block.escape text.toList) ++ ' ' :: p.letters) := by
      simp [delimited, braced, escapedInBlock, Path.letters]
    refine (Crossable.block isSmooth_join inside (.path ok)).compile spelled (fun t directive value mark => ?_) name
    rw [← mark]
    exact Token.item_operands (k := .join) directive value (.cons rfl _) (.enclosedJoin inside ok)
  · have spelled : ("$map:\x7b" ++ escapedInBlock text ++ "\x7d " ++ p.dotted ++ "$").toList =
        delimited ("map:".toList ++ braced (Region.block.escape text.toList) ++ ' ' :: p.letters) := by
      simp [delimited, braced, escapedInBlock, Path.letters]
    refine (Crossable.block isSmooth_map inside (.path ok)).compile spelled (fun t directive value mark => ?_) name
    rw [← mark]
    exact Token.enclosedMap inside (fun block => compileStretch_of_escape) ok directive value
  · have spelled : ("$txt:\x7b" ++ escapedInBlock text ++ "\x7d$").toList =
        delimited ("txt:".toList ++ braced (Region.block.escape text.toList) ++ []) := by
      simp [delimited, braced, escapedInBlock]
    refine (Crossable.block isSmooth_txt inside .nil).compile spelled (fun t directive value mark => ?_) name
    rw [← mark]
    exact Token.item_operands (k := .txt) directive value (.cons rfl _) (.enclosedTxt inside filled)

/-- Backslashes in front of a letter, a delimiter, both braces and the end. -/
def backslashedText : String :=
  "a\\b\\$\\\\\x7b\x7d\\\\"

theorem compile_enclosed_of_backslashed :
    BackslashesPair backslashedText.toList ∧ Path.isSpellable ["x", "y"] ∧ backslashedText ≠ "" ∧
    compile ("$join:\x7b" ++ escapedInBlock backslashedText ++ "\x7d " ++ Path.dotted ["x", "y"] ++ "$") "page" =
      .ok ⟨[.join .origin backslashedText ["x", "y"]], "page"⟩ ∧
    compile ("$map:\x7b" ++ escapedInBlock backslashedText ++ "\x7d " ++ Path.dotted ["x", "y"] ++ "$") "page" =
      .ok ⟨[.mapInline .origin (if backslashedText = "" then [] else [.text backslashedText]) ["x", "y"]], "page"⟩ ∧
    compile ("$txt:\x7b" ++ escapedInBlock backslashedText ++ "\x7d$") "page" =
      .ok ⟨[.txt .origin backslashedText], "page"⟩ := by
  have filled : backslashedText ≠ "" := by decide
  obtain ⟨join, map, txt⟩ := compile_enclosed backslashedText "page" (by decide) (p := ["x", "y"]) (by decide)
  exact ⟨by decide, by decide, filled, join, map, txt filled⟩

end Stencil
