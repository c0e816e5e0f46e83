import Stencil.Proofs.Failing
import Stencil.Proofs.Template.Items
import Stencil.Proofs.Template.Spelling

namespace Stencil

/-- The part that a token plays in the nesting of conditionals. -/
inductive Token.Role where
  | text
  | other
  | opens
  | otherwise
  | closes
  | last
deriving DecidableEq, Repr

/-- The role of a token, from the words of its content. -/
def Token.role (t : Token) : Token.Role :=
  match t.kind with
  | .text => .text
  | .eof => .last
  | .directive =>
    if words t.value = ["else".toList] then .otherwise
    else if words t.value = ["end".toList, "if".toList] then .closes
    else if (words t.value).head? = some "if".toList then .opens
    else .other

theorem Token.words_of_otherwise {t : Token} (role : t.role = .otherwise) :
    t.kind = .directive ∧ words t.value = ["else".toList] := by
  unfold Token.role at role
  split at role
  · cases role
  · cases role
  · rename_i directive
    split at role
    · exact ⟨directive, by assumption⟩
    · split at role
      · cases role
      · split at role <;> cases role

theorem Token.words_of_closes {t : Token} (role : t.role = .closes) :
    t.kind = .directive ∧ words t.value = ["end".toList, "if".toList] := by
  unfold Token.role at role
  split at role
  · cases role
  · cases role
  · rename_i directive
    split at role
    · cases role
    · split at role
      · exact ⟨directive, by assumption⟩
      · split at role <;> cases role

/-- The place of a directive. -/
def Node.mark? : Node → Option Mark
  | .text _ => none
  | .attr mark _ | .include mark _ | .apply mark _ _ | .cond mark _ _ _ | .mapNamed mark _ _
  | .mapInline mark _ _ | .join mark _ _ | .txt mark _ => some mark

/-- The item has the role of the token, and the text or else the place of it. No token is a whole
conditional. -/
def Item.Mirrors (t : Token) : Item → Prop
  | .node (.text value) => t.role = .text ∧ value = String.ofList t.value
  | .node (.cond _ _ _ _) => False
  | .node n => t.role = .other ∧ n.mark? = some t.mark
  | .openIf mark _ => t.role = .opens ∧ mark = t.mark
  | .otherwise => t.role = .otherwise
  | .endIf => t.role = .closes

section Words

/-- The first word of a text, by the blanks alone. -/
theorem head?_words {cs w : List Char} :
    (words cs).head? = some w ↔ w ≠ [] ∧ (cs.dropWhile isBlank).takeWhile (!isBlank ·) = w := by
  have filled (d : Char) (ds w : List Char) : (w ≠ [] ∧ d :: ds = w) ↔ d :: ds = w :=
    and_iff_right_of_imp (by rintro rfl; simp)
  fun_induction words cs generalizing w with
  | case1 => simp
  | case2 c blank => simp [blank]
  | case3 c bright => simpa [bright] using (filled c [] w).symm
  | case4 c d cs blank ih => simp [ih, blank]
  | case5 c d cs bright blank => simpa [bright, blank] using (filled c [] w).symm
  | case6 c d cs bright brightToo v vs first ih =>
    have later := (ih (w := v)).mp (by rw [first]; rfl)
    rw [Bool.not_eq_true] at bright brightToo
    rw [List.dropWhile_cons, brightToo] at later
    have whole : ((c :: d :: cs).dropWhile isBlank).takeWhile (!isBlank ·) = c :: v := by
      rw [List.dropWhile_cons, bright, ← later.2]
      simp [List.takeWhile_cons, bright]
    rw [whole]
    simpa using (filled c v w).symm
  | case7 c d cs bright brightToo none ih =>
    rw [Bool.not_eq_true] at brightToo
    obtain ⟨w, ws, first⟩ := words_cons brightToo cs
    rw [none] at first
    cases first

theorem drop_takeWhile (p : Char → Bool) (cs : List Char) :
    cs.drop (cs.takeWhile p).length = cs.dropWhile p := by
  have split : (cs.takeWhile p ++ cs.dropWhile p).drop (cs.takeWhile p).length = cs.dropWhile p :=
    List.drop_left
  rwa [List.takeWhile_append_dropWhile] at split

end Words

section Steps

variable {α β : Type} {c c' : Cursor}

theorem Scan.lift_ok {r : Except SyntaxError α} {a : α} (read : (liftExcept r : Scan α) c = .ok a c') :
    r = .ok a ∧ c' = c := by
  cases r with
  | error e => cases read
  | ok b =>
    cases read
    exact ⟨rfl, rfl⟩

theorem nextWord_ok {w : Word} (read : nextWord c = .ok w c') :
    w.letters = (c.rest.dropWhile isBlank).takeWhile (!endsWord ·) ∧
      c'.rest = (c.rest.dropWhile isBlank).dropWhile (!endsWord ·) := by
  have skipped : (c.advance (c.rest.takeWhile isBlank).length).rest = c.rest.dropWhile isBlank := by
    rw [Cursor.advance_rest, drop_takeWhile]
  cases read
  refine ⟨by rw [← skipped], ?_⟩
  rw [← skipped]
  exact drop_takeWhile _ _

/-- A path that can be read begins with a word. -/
theorem readPath_ok {what : String} {mark : Mark} {p : Path}
    (read : readPath what mark c = .ok p c') : ∃ w mid, nextWord c = .ok w mid ∧ w.letters ≠ [] := by
  obtain ⟨w, mid, word, rest⟩ := Scan.bind_ok read
  refine ⟨w, mid, word, fun none => ?_⟩
  rw [if_pos none] at rest
  cases rest

end Steps

section Paths

theorem mem_segments {c : Char} {cs : List Char} (member : c ∈ cs) :
    c = '.' ∨ ∃ s ∈ segments cs, c ∈ s := by
  induction cs with
  | nil => cases member
  | cons d ds ih =>
    rw [segments]
    split
    · rename_i dot
      rcases List.mem_cons.mp member with rfl | later
      · exact .inl dot
      · rcases ih later with isDot | ⟨s, inside, there⟩
        · exact .inl isDot
        · exact .inr ⟨s, List.mem_cons_of_mem _ inside, there⟩
    · split
      · rename_i s ss cut
        rcases List.mem_cons.mp member with rfl | later
        · exact .inr ⟨_, List.mem_cons_self, List.mem_cons_self⟩
        · rcases ih later with isDot | ⟨v, inside, there⟩
          · exact .inl isDot
          · rw [cut] at inside
            rcases List.mem_cons.mp inside with rfl | further
            · exact .inr ⟨_, List.mem_cons_self, List.mem_cons_of_mem _ there⟩
            · exact .inr ⟨v, List.mem_cons_of_mem _ further, there⟩
      · rename_i cut
        rcases List.mem_cons.mp member with rfl | later
        · exact .inr ⟨[c], List.mem_cons_self, List.mem_cons_self⟩
        · rcases ih later with isDot | ⟨v, inside, there⟩
          · exact .inl isDot
          · rw [cut] at inside
            cases inside

theorem Word.segment_chars {w : Word} {s : List Char} {name : String} (read : w.segment s = .ok name) :
    s.all isSegmentChar := by
  unfold Word.segment at read
  split at read
  · cases read
  · split at read
    · assumption
    · cases read

/-- A word that spells a path has no blank in it. -/
theorem Word.bright_of_path {w : Word} {p : Path} (read : w.path = .ok p) :
    ∀ c ∈ w.letters, isBlank c = false := by
  intro c member
  rcases mem_segments member with dot | ⟨s, inside, there⟩
  · exact (word_of_isSegmentChar (.inr dot)).1
  · have part : w.segment s ∈ (segments w.letters).map w.segment := List.mem_map_of_mem inside
    rw [map_of_mapM_ok read] at part
    obtain ⟨name, -, spelled⟩ := List.mem_map.mp part
    exact (word_of_isSegmentChar (.inl (List.all_eq_true.mp (Word.segment_chars spelled.symm) c there))).1

end Paths

section Conditionals

variable {inline : Inline} {t : Token} {c c' : Cursor} {i : Item}

theorem chars_if : ∀ c ∈ "if".toList, (!isBlank c) = true ∧ (!endsWord c) = true := by
  intro c inside
  obtain ⟨bright, letter⟩ := (isWord_keyword .cond).chars c inside
  rw [bright, letter]
  exact ⟨rfl, rfl⟩

/-- A conditional with a condition has a blank behind its keyword, so the keyword is a word of its own. -/
theorem head?_words_of_cond {w : Word} {p : Path} {what : String} {mark : Mark}
    (word : nextWord t.content = .ok w c) (keyword : w.letters = "if".toList)
    (condition : readPath what mark c = .ok p c') : (words t.value).head? = some "if".toList := by
  obtain ⟨letters, rest⟩ := nextWord_ok word
  obtain ⟨v, mid, next, filled⟩ := readPath_ok condition
  rw [(nextWord_ok next).1] at filled
  have split : t.value.dropWhile isBlank = "if".toList ++ c.rest := by
    have cut := List.takeWhile_append_dropWhile (p := (!endsWord ·)) (l := t.value.dropWhile isBlank)
    rw [← cut, rest]
    change List.takeWhile _ (t.content.rest.dropWhile isBlank) ++ _ = _
    rw [← letters, keyword]
    rfl
  have stops : (c.rest.takeWhile (!isBlank ·)) = [] := by
    cases left : c.rest with
    | nil => rfl
    | cons d ds =>
      by_cases blank : isBlank d = true
      · simp [blank]
      · have ends : endsWord d = true := by
          have head := List.head?_dropWhile_not (!endsWord ·) (t.content.rest.dropWhile isBlank)
          rw [← rest, left] at head
          simpa using head
        rw [left] at filled
        simp [blank, ends] at filled
  rw [head?_words, split]
  refine ⟨by decide, ?_⟩
  rw [List.takeWhile_append_of_pos fun c inside => (chars_if c inside).1, stops]
  rfl

/-- A directive whose first word is the keyword of a conditional is read as one, or not at all: the
keyword cannot be a part of a longer word that spells a path. -/
theorem letters_of_head?_words {w : Word} (word : nextWord t.content = .ok w c)
    (first : (words t.value).head? = some "if".toList) :
    w.letters = "if".toList ∨ ∃ b ∈ w.letters, isBlank b = true := by
  obtain ⟨letters, -⟩ := nextWord_ok word
  obtain ⟨-, cut⟩ := head?_words.mp first
  have split := List.takeWhile_append_dropWhile (p := (!isBlank ·)) (l := t.value.dropWhile isBlank)
  rw [cut] at split
  change w.letters = List.takeWhile _ (t.value.dropWhile isBlank) at letters
  rw [← split, List.takeWhile_append_of_pos fun c inside => (chars_if c inside).2] at letters
  cases left : (t.value.dropWhile isBlank).dropWhile (!isBlank ·) with
  | nil =>
    rw [left] at letters
    exact .inl letters
  | cons d ds =>
    have blank : isBlank d = true := by
      have head := List.head?_dropWhile_not (!isBlank ·) (t.value.dropWhile isBlank)
      rw [left] at head
      simpa using head
    rw [left, List.takeWhile_cons] at letters
    split at letters
    · exact .inr ⟨d, by rw [letters]; simp, blank⟩
    · exact .inl letters

/-- A list is gone through with a template in place if a colon stands where its name would. -/
theorem readOperands_map_ok {mark : Mark} (read : readOperands inline mark .map c = .ok i c') :
    ∃ begun, skipBlanks c = .ok () begun ∧
      ((begun.peek 0 = some ':' ∧ ∃ block behind body items last,
          readColonBlock Keyword.map.word begun = .ok block behind ∧ inline block = .ok body ∧
            readPath Keyword.map.word mark behind = .ok items last ∧
            i = .node (.mapInline mark body items)) ∨
        (begun.peek 0 ≠ some ':' ∧ ∃ name behind items last,
          readName Keyword.map.word mark begun = .ok name behind ∧
            readPath Keyword.map.word mark behind = .ok items last ∧
            i = .node (.mapNamed mark name items))) := by
  obtain ⟨_, begun, blanks, rest⟩ := Scan.bind_ok read
  obtain ⟨here, _, same, rest⟩ := Scan.bind_ok rest
  cases same
  refine ⟨begun, blanks, ?_⟩
  split at rest
  · rename_i colon
    obtain ⟨block, behind, braces, rest⟩ := Scan.bind_ok rest
    obtain ⟨body, _, compiled, rest⟩ := Scan.bind_ok rest
    obtain ⟨done, here⟩ := Scan.lift_ok compiled
    obtain ⟨items, last, path, rest⟩ := Scan.bind_ok rest
    rw [here] at path
    cases rest
    exact .inl ⟨colon, block, behind, body, items, _, braces, done, path, rfl⟩
  · rename_i other
    obtain ⟨name, behind, named, rest⟩ := Scan.bind_ok rest
    obtain ⟨items, last, path, rest⟩ := Scan.bind_ok rest
    cases rest
    exact .inr ⟨other, name, behind, items, _, named, path, rfl⟩

/-- Only the keyword of a conditional opens one; every other directive is a node by itself, and keeps the
place of its token. -/
theorem readOperands_ok {mark : Mark} {k : Keyword} (read : readOperands inline mark k c = .ok i c') :
    (k = .cond ∧ ∃ p mid, readPath k.word mark c = .ok p mid ∧ i = .openIf mark p) ∨
      (k ≠ .cond ∧ ∃ n, i = .node n ∧ n.items = [i] ∧ n.mark? = some mark) := by
  cases k with
  | «include» =>
    obtain ⟨name, mid, -, done⟩ := Scan.bind_ok read
    cases done
    exact .inr ⟨by decide, _, rfl, rfl, rfl⟩
  | apply =>
    obtain ⟨func, mid, -, rest⟩ := Scan.bind_ok read
    obtain ⟨arg, last, -, done⟩ := Scan.bind_ok rest
    cases done
    exact .inr ⟨by decide, _, rfl, rfl, rfl⟩
  | cond =>
    obtain ⟨p, mid, condition, done⟩ := Scan.bind_ok read
    cases done
    exact .inl ⟨rfl, p, c', condition, rfl⟩
  | map =>
    obtain ⟨-, -, ⟨-, _, _, _, _, _, -, -, -, rfl⟩ | ⟨-, _, _, _, _, -, -, rfl⟩⟩ := readOperands_map_ok read
    · exact .inr ⟨by decide, _, rfl, rfl, rfl⟩
    · exact .inr ⟨by decide, _, rfl, rfl, rfl⟩
  | join =>
    obtain ⟨separator, _, -, rest⟩ := Scan.bind_ok read
    obtain ⟨items, _, -, done⟩ := Scan.bind_ok rest
    cases done
    exact .inr ⟨by decide, _, rfl, rfl, rfl⟩
  | txt =>
    obtain ⟨key, _, -, rest⟩ := Scan.bind_ok read
    split at rest
    · cases rest
    · cases rest
      exact .inr ⟨by decide, _, rfl, rfl, rfl⟩

theorem Item.Mirrors.node {n : Node} (role : t.role = .other) (single : n.items = [.node n])
    (mark : n.mark? = some t.mark) : Item.Mirrors t (.node n) := by
  cases n with
  | text => cases mark
  | cond => cases single
  | attr | «include» | apply | mapNamed | mapInline | join | txt => exact ⟨role, mark⟩

theorem letters_of_ofWord? {l : List Char} {k : Keyword} (found : Keyword.ofWord? l = some k) :
    l = k.word.toList := by
  have same : k.word.toList = l := by
    simpa using List.find?_some found
  exact same.symm

/-- A directive that can be read is what its keyword says, or the path that its only word spells. -/
theorem readItem_ok (read : readItem inline t c = .ok i c') :
    ∃ w mid, nextWord c = .ok w mid ∧
      ((∃ k last, w.letters = k.word.toList ∧ readOperands inline t.mark k mid = .ok i last) ∨
        ∃ p, Keyword.ofWord? w.letters = none ∧ isPartWord w.letters = false ∧ w.path = .ok p ∧
          i = .node (.attr t.mark p)) := by
  obtain ⟨w, mid, word, rest⟩ := Scan.bind_ok read
  refine ⟨w, mid, word, ?_⟩
  cases found : Keyword.ofWord? w.letters with
  | some k =>
    simp only [found] at rest
    obtain ⟨item, last, operands, rest⟩ := Scan.bind_ok rest
    obtain ⟨-, _, -, done⟩ := Scan.bind_ok rest
    cases done
    exact .inl ⟨k, last, letters_of_ofWord? found, operands⟩
  | none =>
    simp only [found] at rest
    obtain ⟨here, _, -, rest⟩ := Scan.bind_ok rest
    cases letters : w.letters with
    | nil => cases next : here.peek 0 <;> simp only [letters, next] at rest <;> cases rest
    | cons d ds =>
      simp only [letters] at rest
      split at rest
      · cases rest
      · rename_i noPart
        obtain ⟨p, _, spelled, rest⟩ := Scan.bind_ok rest
        obtain ⟨-, _, -, rest⟩ := Scan.bind_ok rest
        obtain ⟨left, _, -, rest⟩ := Scan.bind_ok rest
        split at rest <;> cases rest
        exact .inr ⟨p, rfl, Bool.eq_false_iff.mpr noPart, (Scan.lift_ok spelled).1, rfl⟩

/-- A token that can be read is a text, a part of a conditional, or a directive of another kind. -/
theorem Token.item_ok (read : t.item inline = .ok i) :
    t.kind = .text ∧ i = .node (.text (String.ofList t.value)) ∨
      t.kind = .directive ∧
        (words t.value = ["else".toList] ∧ i = .otherwise ∨
          words t.value = ["end".toList, "if".toList] ∧ i = .endIf ∨
          words t.value ≠ ["else".toList] ∧ words t.value ≠ ["end".toList, "if".toList] ∧
            ∃ c', readItem inline t t.content = .ok i c') := by
  unfold Token.item at read
  split at read
  · rename_i text
    cases read
    exact .inl ⟨text, rfl⟩
  · cases read
  · rename_i directive
    refine .inr ⟨directive, ?_⟩
    split at read
    · rename_i isElse
      cases read
      exact .inl ⟨isElse, rfl⟩
    · rename_i notElse
      split at read
      · rename_i isEnd
        cases read
        exact .inr (.inl ⟨isEnd, rfl⟩)
      · rename_i notEnd
        split at read <;> cases read
        exact .inr (.inr ⟨notElse, notEnd, _, by assumption⟩)

theorem readItem_mirrors (directive : t.kind = .directive) (notElse : words t.value ≠ ["else".toList])
    (notEnd : words t.value ≠ ["end".toList, "if".toList])
    (read : readItem inline t t.content = .ok i c') : i.Mirrors t := by
  have role : t.role = if (words t.value).head? = some "if".toList then .opens else .other := by
    simp only [Token.role, directive, if_neg notElse, if_neg notEnd]
  obtain ⟨w, mid, word, ⟨k, last, letters, operands⟩ | ⟨p, found, -, spelled, rfl⟩⟩ := readItem_ok read
  · rcases readOperands_ok operands with ⟨rfl, p, _, condition, rfl⟩ | ⟨other, n, rfl, single, mark⟩
    · rw [if_pos (head?_words_of_cond word letters condition)] at role
      exact ⟨role, rfl⟩
    · refine .node ?_ single mark
      rw [role, if_neg]
      intro first
      rcases letters_of_head?_words word first with keyword | ⟨b, member, blank⟩
      · rw [letters] at keyword
        cases k <;> first | exact other rfl | exact absurd keyword (by decide)
      · rw [letters] at member
        rw [((isWord_keyword k).chars b member).1] at blank
        cases blank
  · refine .node ?_ rfl rfl
    rw [role, if_neg]
    intro first
    rcases letters_of_head?_words word first with keyword | ⟨b, member, blank⟩
    · rw [keyword] at found
      exact absurd found (by decide)
    · rw [w.bright_of_path spelled b member] at blank
      cases blank

/-- A token that can be read is mirrored by its item. -/
theorem Token.item_mirrors (read : t.item inline = .ok i) : i.Mirrors t := by
  rcases Token.item_ok read with
    ⟨text, rfl⟩ | ⟨directive, ⟨isElse, rfl⟩ | ⟨isEnd, rfl⟩ | ⟨notElse, notEnd, c', item⟩⟩
  · exact ⟨by simp only [Token.role, text], rfl⟩
  · change t.role = .otherwise
    simp only [Token.role, directive, if_pos isElse]
  · have notElse : words t.value ≠ ["else".toList] := by
      rw [isEnd]
      decide
    change t.role = .closes
    simp only [Token.role, directive, if_neg notElse, if_pos isEnd]
  · exact readItem_mirrors directive notElse notEnd item

end Conditionals

end Stencil
