import Stencil.Proofs.Template.Crossing

namespace Stencil

/-- The units of a text: a backslash together with the character behind it, and every other character alone. -/
def braceUnits : List Char → List (List Char)
  | [] => []
  | '\\' :: d :: cs => ['\\', d] :: braceUnits cs
  | c :: cs => [c] :: braceUnits cs

/-- How many more of the units open a block than close one. -/
def balance (us : List (List Char)) : Int :=
  us.count ['\x7b'] - us.count ['\x7d']

/-- A closing brace behind the units `before` is the first one that brings the balance to minus one. -/
structure IsMatch (us before : List (List Char)) : Prop where
  closes : ∃ behind, us = before ++ ['\x7d'] :: behind
  reaches : balance (before ++ [['\x7d']]) = -1
  first : ∀ front, front ++ [['\x7d']] <+: before → balance (front ++ [['\x7d']]) ≠ -1

section Units

variable {cs : List Char} {c : Char} {u : List Char} {first second : List (List Char)}

theorem braceUnits_cons (plain : c = '\\' → cs = []) : braceUnits (c :: cs) = [c] :: braceUnits cs := by
  rw [braceUnits]
  intro d ds escape behind
  have none := plain escape
  rw [none] at behind
  cases behind

theorem flatten_braceUnits (cs : List Char) : (braceUnits cs).flatten = cs := by
  fun_induction braceUnits cs with
  | case1 => rfl
  | case2 d cs ih => rw [List.flatten_cons, ih, List.cons_append, List.singleton_append]
  | case3 c cs _ ih => rw [List.flatten_cons, ih, List.singleton_append]

/-- Only the last unit of a text can be a backslash alone, so what stands in front of a unit has the same units by
itself. -/
theorem braceUnits_front (split : braceUnits cs = first ++ u :: second) : braceUnits first.flatten = first := by
  fun_induction braceUnits cs generalizing first with
  | case1 => simp at split
  | case2 d cs ih =>
    cases first with
    | nil => rfl
    | cons v first =>
      rw [List.cons_append, List.cons.injEq] at split
      obtain ⟨rfl, later⟩ := split
      rw [List.flatten_cons, List.cons_append, List.singleton_append, braceUnits, ih later]
  | case3 c cs single ih =>
    cases first with
    | nil => rfl
    | cons v first =>
      rw [List.cons_append, List.cons.injEq] at split
      obtain ⟨rfl, later⟩ := split
      have unescaped : c ≠ '\\' := by
        intro escape
        cases cs with
        | nil => simp [braceUnits] at later
        | cons d cs => exact single d cs escape rfl
      rw [List.flatten_cons, List.singleton_append, braceUnits_cons fun escape => absurd escape unescaped, ih later]

end Units

section Balance

variable {us : List (List Char)} {u : List Char} {depth inner : Nat} {found : Option Nat}

theorem balance_append (us vs : List (List Char)) : balance (us ++ vs) = balance us + balance vs := by
  simp only [balance, List.count_append]
  omega

theorem balance_neutral (opens : u ≠ ['\x7b']) (closes : u ≠ ['\x7d']) : balance [u] = 0 := by
  simp [balance, opens, closes]

/-- What a search among units comes to when `depth` blocks are open in front of them: the length of the units in front
of the closing brace that closes one block more, or nothing. On the way no more blocks are closed than are open. -/
def Closing (depth : Nat) (us : List (List Char)) : Option Nat → Prop
  | some n => ∃ before behind, us = before ++ ['\x7d'] :: behind ∧ before.flatten.length = n ∧
      depth + balance before = 0 ∧ ∀ front, front <+: before → 0 ≤ depth + balance front
  | none => ∀ front, front <+: us → 0 ≤ depth + balance front

/-- A balance that stays up behind a unit, counted from there, stays up with the unit in front. -/
theorem balance_nonneg_cons (step : depth + balance [u] = inner)
    (later : ∀ front, front <+: us → 0 ≤ inner + balance front) :
    ∀ front, front <+: u :: us → 0 ≤ depth + balance front := by
  intro front begins
  rcases List.prefix_cons_iff.mp begins with rfl | ⟨rest, rfl, inside⟩
  · exact Int.natCast_nonneg depth
  · have up := later rest inside
    have parts := balance_append [u] rest
    rw [List.singleton_append] at parts
    omega

theorem Closing.cons (step : depth + balance [u] = inner) (later : Closing inner us found) :
    Closing depth (u :: us) (found.map (· + u.length)) := by
  cases found with
  | none => exact balance_nonneg_cons step later
  | some n =>
    obtain ⟨before, behind, split, length, ends, stays⟩ := later
    have parts := balance_append [u] before
    rw [List.singleton_append] at parts
    have longer : (u :: before).flatten.length = n + u.length := by
      rw [List.flatten_cons, List.length_append, length, Nat.add_comm]
    exact ⟨u :: before, behind, by rw [split, List.cons_append], longer, by omega, balance_nonneg_cons step stays⟩

end Balance

/-- The search for a closing brace goes over the units of a text. -/
theorem closing_closingBrace (depth : Nat) (cs : List Char) :
    Closing depth (braceUnits cs) (closingBrace depth cs) := by
  have plus : balance [['\x7b']] = 1 := by decide
  have minus : balance [['\x7d']] = -1 := by decide
  fun_induction closingBrace depth cs with
  | case1 =>
    intro front begins
    rw [List.prefix_nil.mp begins]
    exact Int.natCast_nonneg _
  | case2 depth d cs ih =>
    have neutral : balance [['\\', d]] = 0 := balance_neutral (by simp) (by simp)
    rw [braceUnits]
    exact ih.cons (by omega)
  | case3 depth cs ih =>
    rw [braceUnits_cons (by simp)]
    exact ih.cons (by omega)
  | case4 cs =>
    rw [braceUnits_cons (by simp)]
    refine ⟨[], braceUnits cs, rfl, rfl, rfl, fun front begins => ?_⟩
    rw [List.prefix_nil.mp begins]
    exact Int.le_refl 0
  | case5 cs depth ih =>
    rw [braceUnits_cons (by simp)]
    exact ih.cons (by omega)
  | case6 depth d cs escape opens closes ih =>
    have neutral : balance [[d]] = 0 := balance_neutral (by simpa using opens) (by simpa using closes)
    have plain : d = '\\' → cs = [] := by
      intro same
      cases cs with
      | nil => rfl
      | cons e es => exact (escape e es same rfl).elim
    rw [braceUnits_cons plain]
    exact ih.cons (by omega)

section Blocks

variable {c content after : Cursor} {cs : List Char} {n : Nat}

/-- A block ends at the first closing brace that brings the balance to minus one. -/
theorem isMatch_of_closingBrace (found : closingBrace 0 cs = some n) :
    IsMatch (braceUnits cs) (braceUnits (cs.take n)) ∧ balance (braceUnits (cs.take n)) = 0 ∧
      ∀ front, front <+: braceUnits (cs.take n) → 0 ≤ balance front := by
  have closing := closing_closingBrace 0 cs
  rw [found] at closing
  obtain ⟨before, behind, split, length, ends, stays⟩ := closing
  have whole := flatten_braceUnits cs
  rw [split, List.flatten_append] at whole
  have content : braceUnits (cs.take n) = before := by
    rw [← whole, ← length, List.take_left, braceUnits_front split]
  have minus : balance [['\x7d']] = -1 := by decide
  have parts := balance_append before [['\x7d']]
  rw [content]
  refine ⟨⟨⟨behind, split⟩, by omega, fun front begins => ?_⟩, by omega, fun front begins => ?_⟩
  · have up := stays _ begins
    omega
  · have up := stays front begins
    omega

/-- A closing brace is found exactly if one brings the balance to minus one. -/
theorem exists_closingBrace_iff : (∃ n, closingBrace 0 cs = some n) ↔
    ∃ before behind, braceUnits cs = before ++ ['\x7d'] :: behind ∧ balance (before ++ [['\x7d']]) = -1 := by
  constructor
  · rintro ⟨n, found⟩
    obtain ⟨⟨⟨behind, split⟩, reaches, -⟩, -⟩ := isMatch_of_closingBrace found
    exact ⟨_, behind, split, reaches⟩
  · rintro ⟨before, behind, closes, reaches⟩
    cases found : closingBrace 0 cs with
    | some n => exact ⟨n, rfl⟩
    | none =>
      have stays := closing_closingBrace 0 cs
      rw [found] at stays
      have begins : before ++ [['\x7d']] <+: braceUnits cs :=
        ⟨behind, (closes.trans (List.append_cons before _ behind)).symm⟩
      have up := stays _ begins
      omega

theorem rest_of_opens (opens : c.rest = '\x7b' :: cs) : (c.advance 1).rest = cs := by
  rw [Cursor.advance_rest, opens, List.drop_one, List.tail_cons]

/-- A block that is read stands between two braces, and reading goes on behind the second one. -/
theorem readBraced_between (opens : c.rest = '\x7b' :: cs) (read : readBraced c = .ok content after) :
    closingBrace 0 cs = some content.rest.length ∧ cs = content.rest ++ '\x7d' :: after.rest ∧
      content = (c.advance 1).upTo content.rest.length ∧ after = c.advance (content.rest.length + 2) := by
  obtain ⟨n, found, rfl, rfl⟩ := readBraced_eq_ok_iff.mp read
  have inside := rest_of_opens opens
  rw [inside] at found
  have within := Nat.le_of_lt (closingBrace_lt found)
  have length : ((c.advance 1).upTo n).rest.length = n := by
    rw [Cursor.upTo_rest, inside, List.length_take_of_le within]
  obtain ⟨rest, closes⟩ := (Transparent.of_closingBrace found).2
  have behind : ((c.advance 1).advance (n + 1)).rest = rest := by
    rw [Cursor.advance_rest, inside, ← List.drop_drop, closes, List.drop_one, List.tail_cons]
  have split : cs = cs.take n ++ '\x7d' :: rest := by rw [← closes, List.take_append_drop]
  have further : (c.advance 1).advance (n + 1) = c.advance (n + 2) := by
    rw [Cursor.advance_advance, Nat.add_comm 1, Nat.add_assoc]
  rw [length, behind, Cursor.upTo_rest, inside]
  exact ⟨found, split, rfl, further⟩

/-- A block ends at the brace that matches its opening one. Reading it gives an answer exactly if some closing brace
behind the opening one brings the balance to minus one. The first such brace then stands behind the content, and
reading goes on behind it; scanned by itself, the content never goes below zero and comes to zero. Otherwise the
opening brace is reported, and the cursor stands at the end of its stretch. -/
theorem readBraced_matching (opens : c.rest = '\x7b' :: cs) :
    ((∃ content after, readBraced c = .ok content after) ↔
        ∃ before behind, braceUnits cs = before ++ ['\x7d'] :: behind ∧ balance (before ++ [['\x7d']]) = -1) ∧
      (∀ content after, readBraced c = .ok content after →
        cs = content.rest ++ '\x7d' :: after.rest ∧ IsMatch (braceUnits cs) (braceUnits content.rest) ∧
        content.offset = c.offset + 1 ∧ content.mark = c.mark.next '\x7b' ∧
        after = c.advance (content.rest.length + 2) ∧ after.offset = content.stop + 1 ∧
        balance (braceUnits content.rest) = 0 ∧
        ∀ front, front <+: braceUnits content.rest → 0 ≤ balance front) ∧
      ((∀ before behind, braceUnits cs = before ++ ['\x7d'] :: behind → balance (before ++ [['\x7d']]) ≠ -1) →
        ∃ e stopped, readBraced c = .error e stopped ∧ e.mark = c.mark ∧
          e.message = "Unmatched '\x7b' at " ++ c.mark.text ∧ stopped.rest = [] ∧ stopped.offset = c.stop) := by
  have inside := rest_of_opens opens
  have answered : (∃ content after, readBraced c = .ok content after) ↔ ∃ n, closingBrace 0 cs = some n := by
    constructor
    · rintro ⟨content, after, read⟩
      exact ⟨_, (readBraced_between opens read).1⟩
    · rintro ⟨n, found⟩
      exact ⟨_, _, readBraced_eq_ok_iff.mpr ⟨n, by rw [inside, found], rfl, rfl⟩⟩
  refine ⟨answered.trans exists_closingBrace_iff, fun content after read => ?_, fun never => ?_⟩
  · obtain ⟨found, split, start, further⟩ := readBraced_between opens read
    obtain ⟨isMatch, ends, stays⟩ := isMatch_of_closingBrace found
    have taken : cs.take content.rest.length = content.rest := by
      rw [split]
      exact List.take_left
    rw [taken] at isMatch ends stays
    have offset : content.offset = c.offset + 1 := by
      rw [start]
      simp [Cursor.advance, Cursor.upTo, opens]
    have mark : content.mark = c.mark.next '\x7b' := by
      rw [start]
      simp [Cursor.advance, Cursor.upTo, opens]
    have same : after.stop = c.stop := further ▸ Cursor.stop_advance c _
    have goesOn : after.offset = content.stop + 1 := by
      have length := congrArg List.length split
      rw [List.length_append, List.length_cons] at length
      rw [Cursor.stop, Cursor.stop, opens, List.length_cons] at same
      rw [Cursor.stop]
      omega
    exact ⟨split, isMatch, offset, mark, further, goesOn, ends, stays⟩
  · have missing : closingBrace 0 cs = none := by
      rw [Option.eq_none_iff_forall_ne_some]
      intro n found
      obtain ⟨before, behind, closes, reaches⟩ := exists_closingBrace_iff.mp ⟨n, found⟩
      exact never before behind closes reaches
    refine ⟨⟨.unmatchedOpen, c.mark⟩, (c.advance 1).finish, ?_, rfl, rfl, Cursor.finish_rest _, ?_⟩
    · rw [readBraced, inside, missing]
    · have ends : (c.advance 1).finish.stop = c.stop := by rw [Cursor.finish, Cursor.stop_advance, Cursor.stop_advance]
      rw [Cursor.stop, Cursor.finish_rest, List.length_nil] at ends
      exact ends

end Blocks

/-- A block on the second line of a text, with a hidden brace, a block in it and backslashes in a pair, and more behind
it that closes nothing. -/
def pairedBlock : Cursor :=
  ⟨"\x7ba\\\x7d\x7b\\\\\x7d\x7d\x7d\\".toList, 4, ⟨2, 3⟩⟩

theorem readBraced_matching_of_paired :
    let content : Cursor := ⟨"a\\\x7d\x7b\\\\\x7d".toList, 5, ⟨2, 4⟩⟩
    let after : Cursor := ⟨"\x7d\\".toList, 13, ⟨2, 12⟩⟩
    pairedBlock.rest = '\x7b' :: (content.rest ++ '\x7d' :: after.rest) ∧ readBraced pairedBlock = .ok content after ∧
      IsMatch (braceUnits (content.rest ++ '\x7d' :: after.rest)) (braceUnits content.rest) ∧
      after = pairedBlock.advance (content.rest.length + 2) ∧ balance (braceUnits content.rest) = 0 ∧
      ∀ front, front <+: braceUnits content.rest → 0 ≤ balance front := by
  intro content after
  have opens : pairedBlock.rest = '\x7b' :: (content.rest ++ '\x7d' :: after.rest) := by decide
  have read : readBraced pairedBlock = .ok content after := by rfl
  obtain ⟨-, answer, -⟩ := readBraced_matching opens
  obtain ⟨-, isMatch, -, -, further, -, ends, stays⟩ := answer content after read
  exact ⟨opens, read, isMatch, further, ends, stays⟩

end Stencil
