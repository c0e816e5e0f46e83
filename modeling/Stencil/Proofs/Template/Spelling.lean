import Stencil.Proofs.Template.Crossing

namespace Stencil

section Words

/-- A word of a directive: something is there, and nothing in it is blank or ends the word. -/
structure IsWord (l : List Char) : Prop where
  filled : l ≠ []
  chars : ∀ c ∈ l, isBlank c = false ∧ endsWord c = false

/-- A word is complete in front of this text. -/
def EndsWord (tail : List Char) : Prop :=
  ∀ c ∈ tail.head?, endsWord c

theorem EndsWord.nil : EndsWord [] := by
  simp [EndsWord]

theorem EndsWord.cons {c : Char} (ends : endsWord c) (cs : List Char) : EndsWord (c :: cs) := by
  simpa [EndsWord] using ends

variable {l tail : List Char}

theorem IsWord.dropWhile_isBlank (word : IsWord l) : (l ++ tail).dropWhile isBlank = l ++ tail := by
  obtain ⟨filled, chars⟩ := word
  cases l with
  | nil => contradiction
  | cons c cs =>
    have bright := (chars c List.mem_cons_self).1
    rw [List.cons_append, List.dropWhile_cons, bright]
    rfl

theorem IsWord.dropWhile_alone (word : IsWord l) : l.dropWhile isBlank = l ++ [] := by
  have skipped : (l ++ []).dropWhile isBlank = l ++ [] := word.dropWhile_isBlank
  rw [List.append_nil] at skipped ⊢
  exact skipped

theorem IsWord.takeWhile (word : IsWord l) (ends : EndsWord tail) :
    (l ++ tail).takeWhile (!endsWord ·) = l := by
  have inside : ∀ c ∈ l, !endsWord c := fun c found => by simp [word.chars c found]
  rw [List.takeWhile_append_of_pos inside]
  cases tail with
  | nil => exact List.append_nil l
  | cons c cs =>
    have stops := ends c rfl
    rw [List.takeWhile_cons, stops]
    exact List.append_nil l

/-- The first word of a text that does not begin with a blank begins with the same character. -/
theorem words_cons {c : Char} (bright : isBlank c = false) (cs : List Char) :
    ∃ w ws, words (c :: cs) = (c :: w) :: ws := by
  cases cs with
  | nil => exact ⟨[], [], by simp [words, bright]⟩
  | cons d cs =>
    rw [words, bright]
    split
    · contradiction
    · split
      · exact ⟨[], _, rfl⟩
      · split
        · exact ⟨_, _, rfl⟩
        · exact ⟨[], [], rfl⟩

theorem IsWord.words (word : IsWord l) : words l = [l] := by
  obtain ⟨filled, chars⟩ := word
  induction l with
  | nil => contradiction
  | cons c cs ih =>
    have bright := (chars c List.mem_cons_self).1
    cases cs with
    | nil => simp [Stencil.words, bright]
    | cons d cs =>
      have later := ih (List.cons_ne_nil _ _) fun e found => chars e (List.mem_cons_of_mem _ found)
      have brightToo := (chars d (by simp)).1
      simp [Stencil.words, bright, brightToo, later]

theorem isWord_keyword (k : Keyword) : IsWord k.word.toList := by
  have letters : k.word.toList.all fun c => !isBlank c && !endsWord c := by
    cases k <;> decide
  refine ⟨by cases k <;> decide, fun c found => ?_⟩
  have own := List.all_eq_true.mp letters c found
  rwa [Bool.and_eq_true, Bool.not_eq_true', Bool.not_eq_true'] at own

end Words

section Names

theorem word_of_isNameChar {c : Char} (letter : isNameChar c) :
    isBlank c = false ∧ endsWord c = false := by
  simp only [isNameChar, Bool.and_eq_true, Bool.not_eq_true', bne_iff_ne, ne_eq] at letter
  obtain ⟨⟨⟨⟨bright, colon⟩, opens⟩, closes⟩, delimiter⟩ := letter
  have space : ∀ d : Char, isBlank d → c ≠ d := fun d blank same => by
    rw [← same, bright] at blank
    contradiction
  have s := space ' ' (by decide)
  have t := space '\t' (by decide)
  have r := space '\r' (by decide)
  have n := space '\n' (by decide)
  exact ⟨bright, by simp [endsWord, s, t, r, n, colon, opens, closes, delimiter]⟩

theorem isWord_name {name : String} (ok : isTemplateName name) : IsWord name.toList := by
  simp only [isTemplateName, Bool.and_eq_true, bne_iff_ne, ne_eq, List.all_eq_true] at ok
  exact ⟨fun none => ok.1 (String.toList_eq_nil_iff.mp none),
    fun c found => word_of_isNameChar (ok.2 c found)⟩

end Names

section Paths

/-- A character of a path, a dot included. Its code is far from those of all special characters. -/
theorem toNat_of_isSegmentChar {c : Char} (letter : isSegmentChar c ∨ c = '.') :
    48 ≤ c.toNat ∧ c.toNat ≤ 57 ∨ 65 ≤ c.toNat ∧ c.toNat ≤ 90 ∨ 97 ≤ c.toNat ∧ c.toNat ≤ 122 ∨
      c.toNat = 95 ∨ c.toNat = 45 ∨ c.toNat = 46 := by
  change ((((decide (c.val ≥ 65 ∧ c.val ≤ 90) || decide (c.val ≥ 97) && decide (c.val ≤ 122))
    || decide (c.val ≥ 48) && decide (c.val ≤ 57)) || c == '_') || c == '-') = true ∨ c = '.' at letter
  simp only [Bool.or_eq_true, Bool.and_eq_true, decide_eq_true_eq, beq_iff_eq, ge_iff_le,
    UInt32.le_iff_toNat_le] at letter
  change ((((65 ≤ c.toNat ∧ c.toNat ≤ 90 ∨ 97 ≤ c.toNat ∧ c.toNat ≤ 122) ∨
    48 ≤ c.toNat ∧ c.toNat ≤ 57) ∨ c = '_') ∨ c = '-') ∨ c = '.' at letter
  rcases letter with ((((upper | lower) | digit) | rfl) | rfl) | rfl
  · omega
  · omega
  · omega
  · decide
  · decide
  · decide

theorem word_of_isSegmentChar {c : Char} (letter : isSegmentChar c ∨ c = '.') :
    isBlank c = false ∧ endsWord c = false ∧ c ≠ '\\' := by
  have code := toNat_of_isSegmentChar letter
  refine ⟨?_, ?_, ?_⟩
  · simp only [isBlank, Bool.or_eq_false_iff, Bool.and_eq_false_iff, decide_eq_false_iff_not,
      beq_eq_false_iff_ne]
    omega
  · rw [Bool.eq_false_iff]
    intro ends
    rw [endsWord, List.contains_iff_mem] at ends
    simp only [List.mem_cons, List.not_mem_nil, or_false] at ends
    rcases ends with rfl | rfl | rfl | rfl | rfl | rfl | rfl | rfl <;> exact absurd code (by decide)
  · rintro rfl
    exact absurd code (by decide)

theorem Path.isSpellable_iff {p : Path} :
    p.isSpellable ↔ p ≠ [] ∧ ∀ s ∈ p, s ≠ "" ∧ s.toList.all isSegmentChar := by
  simp only [Path.isSpellable, Bool.and_eq_true, bne_iff_ne, List.all_eq_true]

theorem Path.letters_eq (p : Path) : p.letters = ['.'].intercalate (p.map String.toList) := by
  rw [Path.letters, Path.dotted, String.toList_intercalate]
  rfl

theorem segments_of_dotless {s : List Char} (dotless : '.' ∉ s) : segments s = [s] := by
  induction s with
  | nil => rfl
  | cons c cs ih =>
    rw [List.mem_cons, not_or] at dotless
    rw [segments, if_neg fun same => dotless.1 same.symm, ih dotless.2]

theorem segments_append_dot {s : List Char} (dotless : '.' ∉ s) (cs : List Char) :
    segments (s ++ '.' :: cs) = s :: segments cs := by
  induction s with
  | nil => rfl
  | cons c s ih =>
    rw [List.mem_cons, not_or] at dotless
    rw [List.cons_append, segments, if_neg fun same => dotless.1 same.symm, ih dotless.2]

/-- Cutting at the dots undoes joining with dots. -/
theorem segments_intercalate (parts : List (List Char)) (nonempty : parts ≠ [])
    (dotless : ∀ s ∈ parts, '.' ∉ s) : segments (['.'].intercalate parts) = parts := by
  induction parts with
  | nil => contradiction
  | cons s parts ih =>
    have own := dotless s List.mem_cons_self
    cases parts with
    | nil => rw [List.intercalate_singleton, segments_of_dotless own]
    | cons t parts =>
      have later := ih (List.cons_ne_nil _ _) fun u found => dotless u (List.mem_cons_of_mem _ found)
      rw [List.intercalate_cons_cons, List.append_assoc, List.singleton_append,
        segments_append_dot own, later]

theorem not_dot_of_isSegmentChar {s : String} (ok : s.toList.all isSegmentChar) : '.' ∉ s.toList := by
  intro found
  exact absurd (List.all_eq_true.mp ok _ found) (by decide)

theorem Word.path_of_letters {p : Path} (ok : p.isSpellable) {w : Word}
    (spelled : w.letters = p.letters) : w.path = .ok p := by
  obtain ⟨nonempty, parts⟩ := Path.isSpellable_iff.mp ok
  have cut : segments p.letters = p.map String.toList := by
    rw [Path.letters_eq, segments_intercalate _ (by simpa using nonempty)]
    intro s found
    obtain ⟨t, inside, rfl⟩ := List.mem_map.mp found
    exact not_dot_of_isSegmentChar (parts t inside).2
  rw [Word.path, spelled, cut]
  clear cut spelled ok nonempty
  induction p with
  | nil => rfl
  | cons s p ih =>
    obtain ⟨filled, letters⟩ := parts s List.mem_cons_self
    have own : w.segment s.toList = .ok s := by
      rw [Word.segment, if_neg fun none => filled (String.toList_eq_nil_iff.mp none),
        if_pos letters, String.ofList_toList]
    have later := ih fun t found => parts t (List.mem_cons_of_mem _ found)
    rw [List.map_cons, List.mapM_cons, own, later]
    rfl

theorem mem_intercalate {c : Char} {sep : List Char} {parts : List (List Char)}
    (found : c ∈ sep.intercalate parts) : c ∈ sep ∨ ∃ s ∈ parts, c ∈ s := by
  induction parts with
  | nil => cases found
  | cons s parts ih =>
    cases parts with
    | nil =>
      rw [List.intercalate_singleton] at found
      exact .inr ⟨s, List.mem_cons_self, found⟩
    | cons t parts =>
      rw [List.intercalate_cons_cons, List.mem_append, List.mem_append] at found
      rcases found with (inFirst | inSep) | later
      · exact .inr ⟨s, List.mem_cons_self, inFirst⟩
      · exact .inl inSep
      · rcases ih later with inSep | ⟨u, inside, there⟩
        · exact .inl inSep
        · exact .inr ⟨u, List.mem_cons_of_mem _ inside, there⟩

/-- The characters of a spelled path are those of its segments, and dots. -/
theorem Path.letters_chars {p : Path} (ok : p.isSpellable) {c : Char} (found : c ∈ p.letters) :
    isSegmentChar c ∨ c = '.' := by
  obtain ⟨-, parts⟩ := Path.isSpellable_iff.mp ok
  rw [Path.letters_eq] at found
  rcases mem_intercalate found with dot | ⟨s, inside, there⟩
  · exact .inr (List.mem_singleton.mp dot)
  · obtain ⟨t, segment, rfl⟩ := List.mem_map.mp inside
    exact .inl (List.all_eq_true.mp (parts t segment).2 c there)

theorem isWord_path {p : Path} (ok : p.isSpellable) : IsWord p.letters := by
  obtain ⟨nonempty, parts⟩ := Path.isSpellable_iff.mp ok
  refine ⟨?_, fun c found => ?_⟩
  · intro none
    rw [Path.letters_eq] at none
    cases p with
    | nil => contradiction
    | cons s p =>
      have filled := (parts s List.mem_cons_self).1
      cases p with
      | nil =>
        rw [List.map_singleton, List.intercalate_singleton] at none
        exact filled (String.toList_eq_nil_iff.mp none)
      | cons t p => simp at none
  · have plain := word_of_isSegmentChar (Path.letters_chars ok found)
    exact ⟨plain.1, plain.2.1⟩

/-- Different paths are spelled differently, so no path but this one is read as a reserved word. -/
theorem Path.eq_of_letters {p q : Path} (ok : p.isSpellable) (okToo : q.isSpellable)
    (same : p.letters = q.letters) : p = q := by
  have first := Word.path_of_letters (w := ⟨p.letters, .origin⟩) ok rfl
  have second := Word.path_of_letters (w := ⟨p.letters, .origin⟩) okToo same
  rw [first] at second
  exact Except.ok.inj second

end Paths

section Contents

/-- Text of a directive outside its blocks. -/
def IsSimple (l : List Char) : Prop :=
  ∀ c ∈ l, c ≠ '$' ∧ c ≠ '\x7b' ∧ c ≠ '\x7d'

instance (l : List Char) : Decidable (IsSimple l) :=
  List.decidableBAll _ l

variable {k l b : List Char}

theorem IsWord.isSimple (word : IsWord l) : IsSimple l := by
  intro c found
  have inside := (word.chars c found).2
  refine ⟨?_, ?_, ?_⟩ <;> rintro rfl <;> exact absurd inside (by decide)

theorem IsSimple.append (first : IsSimple k) (second : IsSimple l) : IsSimple (k ++ l) :=
  fun c found => (List.mem_append.mp found).elim (first c) (second c)

theorem IsSimple.space (simple : IsSimple l) : IsSimple (' ' :: l) :=
  .append (k := [' ']) (by decide) simple

theorem IsSimple.crossable (simple : IsSimple l) : Crossable l :=
  Crossable.of_chars l simple

theorem IsSimple.transparent (simple : IsSimple l) : Transparent (delimited l) :=
  .inDelimiters fun c found => (simple c found).2

/-- Simple text in which nothing is hidden by a backslash. -/
structure IsSmooth (l : List Char) : Prop where
  simple : IsSimple l
  plain : '\\' ∉ l

theorem IsSmooth.nil : IsSmooth [] :=
  ⟨by decide, by decide⟩

theorem IsSmooth.path {p : Path} (ok : p.isSpellable) : IsSmooth (' ' :: p.letters) := by
  refine ⟨(isWord_path ok).isSimple.space, ?_⟩
  rw [List.mem_cons, not_or]
  refine ⟨by decide, fun found => ?_⟩
  exact (word_of_isSegmentChar (Path.letters_chars ok found)).2.2 rfl

/-- A block inside a directive does not stop the search for the end of the directive. -/
theorem Crossable.block (head : IsSmooth k) (inside : Transparent b) (trail : IsSmooth l) :
    Crossable (k ++ braced b ++ l) :=
  (head.simple.crossable.append (.inBraces inside)).append trail.simple.crossable

theorem Transparent.block (head : IsSmooth k) (inside : Transparent b) (trail : IsSmooth l) :
    Transparent (delimited (k ++ braced b ++ l)) := by
  have smooth : ∀ {m : List Char}, IsSmooth m → Transparent m := fun {m} ok =>
    .of_chars m fun c found => ⟨fun same => ok.plain (same ▸ found), (ok.simple c found).2⟩
  have delimiter : Transparent ['$'] := char (by decide) (by decide) (by decide)
  have parts := ((delimiter.append (smooth head)).append inside.inBraces).append
    ((smooth trail).append delimiter)
  have same : delimited (k ++ braced b ++ l) =
      ['$'] ++ k ++ braced b ++ (l ++ ['$']) := by
    simp [delimited]
  rw [same]
  exact parts

end Contents

section Directives

variable {name : String} {p q : Path} {b : List Char}

theorem isSimple_include (ok : isTemplateName name) :
    IsSimple ("include ".toList ++ name.toList) :=
  .append (by decide) (isWord_name ok).isSimple

theorem isSimple_apply (ok : p.isSpellable) (okToo : q.isSpellable) :
    IsSimple ("apply ".toList ++ p.letters ++ ' ' :: q.letters) :=
  .append (.append (by decide) (isWord_path ok).isSimple) (isWord_path okToo).isSimple.space

theorem isSimple_cond (ok : p.isSpellable) : IsSimple ("if ".toList ++ p.letters) :=
  .append (by decide) (isWord_path ok).isSimple

theorem isSimple_mapNamed (ok : isTemplateName name) (okToo : p.isSpellable) :
    IsSimple ("map ".toList ++ name.toList ++ ' ' :: p.letters) :=
  .append (.append (by decide) (isWord_name ok).isSimple) (isWord_path okToo).isSimple.space

theorem isSmooth_map : IsSmooth "map:".toList :=
  ⟨by decide, by decide⟩

theorem isSmooth_join : IsSmooth "join:".toList :=
  ⟨by decide, by decide⟩

theorem isSmooth_txt : IsSmooth "txt:".toList :=
  ⟨by decide, by decide⟩

theorem not_mem_of_isPlain {s : String} (plain : isPlain s) : '\\' ∉ s.toList := by
  simpa [isPlain] using plain

end Directives

end Stencil
