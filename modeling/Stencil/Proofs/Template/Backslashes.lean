import Stencil.Proofs.Template.Seam
import Mathlib.Algebra.Ring.Parity
import Mathlib.Data.List.TakeWhile

namespace Stencil

/-- How many backslashes stand directly in front of the place `i`. -/
def backslashesBefore (cs : List Char) (i : Nat) : Nat :=
  ((cs.take i).reverse.takeWhile (· == '\\')).length

section Runs

variable {cs front : List Char} {b : Char} {i : Nat}

/-- The text in front of a place ends with the run of backslashes that is counted there. -/
theorem take_eq_run (cs : List Char) (i : Nat) :
    ∃ front, cs.take i = front ++ List.replicate (backslashesBefore cs i) '\\' ∧ front.getLast? ≠ some '\\' := by
  have run : (cs.take i).reverse.takeWhile (· == '\\') = List.replicate (backslashesBefore cs i) '\\' :=
    List.eq_replicate_iff.mpr ⟨rfl, fun c found =>
      eq_of_beq (List.mem_takeWhile_imp (p := (· == '\\')) found)⟩
  refine ⟨((cs.take i).reverse.dropWhile (· == '\\')).reverse, ?_, ?_⟩
  · calc cs.take i
      _ = ((cs.take i).reverse.takeWhile (· == '\\') ++ (cs.take i).reverse.dropWhile (· == '\\')).reverse := by
        rw [List.takeWhile_append_dropWhile, List.reverse_reverse]
      _ = _ := by rw [List.reverse_append, run, List.reverse_replicate]
  · rw [List.getLast?_reverse]
    intro last
    have stops := List.head?_dropWhile_not (· == '\\') (cs.take i).reverse
    rw [last] at stops
    cases stops

theorem exists_run (found : cs[i]? = some b) :
    ∃ front back, cs = front ++ List.replicate (backslashesBefore cs i) '\\' ++ b :: back ∧
      front.getLast? ≠ some '\\' ∧ i = front.length + backslashesBefore cs i := by
  obtain ⟨within, rfl⟩ := List.getElem?_eq_some_iff.mp found
  obtain ⟨front, run, ends⟩ := take_eq_run cs i
  have length := congrArg List.length run
  rw [List.length_take, List.length_append, List.length_replicate, Nat.min_eq_left (Nat.le_of_lt within)] at length
  refine ⟨front, cs.drop (i + 1), ?_, ends, length⟩
  rw [← run, ← List.drop_eq_getElem_cons within, List.take_append_drop]

end Runs

namespace Transparent

/-- Backslashes in pairs hide each other. -/
theorem backslashes {n : Nat} (even : Even n) : Transparent (List.replicate n '\\') := by
  obtain ⟨m, rfl⟩ := even
  induction m with
  | zero => exact nil
  | succ m ih =>
    have pair : List.replicate (m + 1 + (m + 1)) '\\' = ['\\', '\\'] ++ List.replicate (m + m) '\\' := by
      rw [Nat.add_add_add_comm, Nat.add_comm, List.replicate_add]
      rfl
    rw [pair]
    exact (escaped '\\').append ih

/-- The last one of an odd number of backslashes hides the character behind it. -/
theorem hidden {n : Nat} (odd : Odd n) (c : Char) : Transparent (List.replicate n '\\' ++ [c]) := by
  obtain ⟨m, rfl⟩ := odd
  have last : List.replicate (2 * m + 1) '\\' ++ [c] = List.replicate (2 * m) '\\' ++ ['\\', c] := by
    rw [List.replicate_succ', List.append_assoc, List.singleton_append]
  rw [last]
  exact (backslashes (even_two_mul m)).append (escaped c)

end Transparent

/-- The search for a closing brace reads the text as a whole, without a character behind it: it ends inside the text,
or comes to the end of it with some number of blocks open. -/
def Whole (b : List Char) : Prop :=
  ∀ depth, (∃ n, n < b.length ∧ ∀ tail, closingBrace depth (b ++ tail) = some n) ∨
    ∃ inner, ∀ tail, closingBrace depth (b ++ tail) = (closingBrace inner tail).map (· + b.length)

namespace Whole

variable {b d : List Char}

theorem of_transparent (passed : Transparent b) : Whole b :=
  fun depth => .inr ⟨depth, passed depth⟩

theorem append (first : Whole b) (second : Whole d) : Whole (b ++ d) := by
  intro depth
  rcases first depth with ⟨n, within, ends⟩ | ⟨inner, passes⟩
  · refine .inl ⟨n, by rw [List.length_append]; omega, fun tail => ?_⟩
    rw [List.append_assoc, ends]
  · rcases second inner with ⟨n, within, ends⟩ | ⟨innermost, passesToo⟩
    · refine .inl ⟨n + b.length, by rw [List.length_append]; omega, fun tail => ?_⟩
      rw [List.append_assoc, passes, ends, Option.map_some]
    · refine .inr ⟨innermost, fun tail => ?_⟩
      rw [List.append_assoc, passes, passesToo, Option.map_map]
      congr 1
      funext n
      simp only [Function.comp_apply, List.length_append]
      omega

theorem char {c : Char} (unescaped : c ≠ '\\') : Whole [c] := by
  intro depth
  by_cases opens : c = '\x7b'
  · subst opens
    exact .inr ⟨depth + 1, fun tail => rfl⟩
  · by_cases closes : c = '\x7d'
    · subst closes
      cases depth with
      | zero => exact .inl ⟨0, Nat.one_pos, fun tail => rfl⟩
      | succ depth => exact .inr ⟨depth, fun tail => rfl⟩
    · exact of_transparent (.char unescaped opens closes) depth

/-- Only a backslash at the end could hide what follows. -/
theorem of_getLast? : ∀ b : List Char, b.getLast? ≠ some '\\' → Whole b
  | [], _ => of_transparent .nil
  | [c], ends => char fun same => ends (by rw [same]; rfl)
  | c :: d :: b, ends => by
    have later (tail : List Char) (behind : tail <:+ d :: b) (more : tail ≠ []) : tail.getLast? ≠ some '\\' := by
      rw [List.getLast?_cons_cons] at ends
      obtain ⟨front, whole⟩ := behind
      rwa [← whole, List.getLast?_append_of_ne_nil _ more] at ends
    by_cases hides : c = '\\'
    · rw [hides]
      refine (of_transparent (.escaped d)).append (of_getLast? b ?_)
      cases b with
      | nil => simp
      | cons e b => exact later _ (List.suffix_cons d _) (List.cons_ne_nil e b)
    · exact (char hides).append (of_getLast? (d :: b) (later _ List.suffix_rfl (List.cons_ne_nil d b)))

end Whole

/-- The search for a closing brace does not count the brace at `i`: with a letter in its place it would go the same
way, however many blocks are open before the text and whatever follows it. -/
def IsUncounted (cs : List Char) (i : Nat) : Prop :=
  ∀ depth tail, closingBrace depth (cs.set i 'x' ++ tail) = closingBrace depth (cs ++ tail)

/-- Taking escapes away drops the backslash in front of the place `i` and keeps what stands there. -/
def IsUnescaped (cs : List Char) (i : Nat) : Prop :=
  ∃ front d back, cs = front ++ '\\' :: d :: back ∧ i = front.length + 1 ∧
    Region.block.unescape cs = Region.block.unescape front ++ d :: Region.block.unescape back

section Braces

variable {cs front back : List Char} {i : Nat} {b : Char}

/-- Text in front of the end of a block does not lead there with one more block open. -/
theorem closingBrace_deeper_ne {depth : Nat} (ends : closingBrace depth (back ++ ['\x7d']) = some back.length) :
    closingBrace (depth + 1) (back ++ ['\x7d']) ≠ some back.length := by
  have passes := (Transparent.of_closingBrace ends).1 1 ['\x7d']
  rw [List.take_left] at passes
  rw [passes]
  exact nofun

theorem eq_some_of_map_add {o : Option Nat} {m n : Nat} (sum : o.map (· + m) = some (m + n)) : o = some n := by
  obtain ⟨k, inner, same⟩ := Option.map_eq_some_iff.mp sum
  rw [inner, Option.some.injEq]
  omega

/-- A brace that is not hidden counts: without it one block too many or too few is open at the end. -/
theorem closingBrace_counts (brace : b = '\x7b' ∨ b = '\x7d') (passed : Whole front)
    (closed : Transparent (front ++ b :: back)) :
    closingBrace 0 (front ++ 'x' :: back ++ ['\x7d']) ≠ closingBrace 0 (front ++ b :: back ++ ['\x7d']) := by
  intro same
  have whole : closingBrace 0 (front ++ b :: back ++ ['\x7d']) = some (front.length + (1 + back.length)) := by
    rw [closed, closingBrace, Option.map_some, Nat.zero_add, List.length_append, List.length_cons,
      Nat.add_comm 1 back.length]
  have letter : Transparent ['x'] := .char (by decide) (by decide) (by decide)
  rw [whole, List.append_assoc, List.cons_append] at same
  rw [List.append_assoc, List.cons_append] at whole
  rcases passed 0 with ⟨n, within, ends⟩ | ⟨inner, passes⟩
  · rw [ends, Option.some.injEq] at whole
    omega
  · rw [passes] at same whole
    have behind := eq_some_of_map_add whole
    have without : closingBrace inner (back ++ ['\x7d']) = some back.length := by
      have kept := eq_some_of_map_add same
      rw [← List.singleton_append, letter] at kept
      exact eq_some_of_map_add kept
    rcases brace with rfl | rfl
    · rw [closingBrace] at behind
      exact closingBrace_deeper_ne without (eq_some_of_map_add behind)
    · cases inner with
      | zero =>
        rw [closingBrace, Option.some.injEq] at behind
        omega
      | succ inner =>
        rw [closingBrace] at behind
        exact closingBrace_deeper_ne (eq_some_of_map_add behind) without

theorem set_of_run {run : Nat} (d : Char) (split : cs = front ++ List.replicate run '\\' ++ b :: back)
    (place : i = front.length + run) : cs.set i d = front ++ List.replicate run '\\' ++ d :: back := by
  have length : (front ++ List.replicate run '\\').length = i := by
    rw [List.length_append, List.length_replicate, place]
  rw [split, ← length, List.set_append_right _ _ (Nat.le_refl _), Nat.sub_self, List.set_cons_zero]

/-- In a text that opens as many blocks as it closes, a brace is uncounted behind an odd number of backslashes, and
nowhere else. -/
theorem isUncounted_iff (closed : Transparent cs) (found : cs[i]? = some b) (brace : b = '\x7b' ∨ b = '\x7d') :
    IsUncounted cs i ↔ Odd (backslashesBefore cs i) := by
  obtain ⟨front, back, split, ends, place⟩ := exists_run found
  generalize backslashesBefore cs i = run at split place
  have swapped := set_of_run 'x' split place
  have before := Whole.of_getLast? front ends
  constructor
  · intro uncounted
    by_contra even
    rw [Nat.not_odd_iff_even] at even
    have same := uncounted 0 ['\x7d']
    rw [swapped, split] at same
    rw [split] at closed
    exact closingBrace_counts brace (before.append (.of_transparent (.backslashes even))) closed same
  · intro odd depth tail
    have reads (d : Char) : front ++ List.replicate run '\\' ++ d :: back ++ tail =
        front ++ (List.replicate run '\\' ++ [d] ++ (back ++ tail)) := by
      simp
    rw [swapped, split, reads, reads]
    rcases before depth with ⟨n, -, ends⟩ | ⟨inner, passes⟩
    · rw [ends, ends]
    · rw [passes, passes, Transparent.hidden odd, Transparent.hidden odd, List.length_append, List.length_append]
      rfl

/-- A brace loses the backslash in front of it whenever there is one. -/
theorem isUnescaped_iff (found : cs[i]? = some b) (brace : b = '\x7b' ∨ b = '\x7d') :
    IsUnescaped cs i ↔ 0 < backslashesBefore cs i := by
  constructor
  · rintro ⟨front, d, back, rfl, rfl, -⟩
    have before : (front ++ '\\' :: d :: back).take (front.length + 1) = front ++ ['\\'] := by
      rw [List.take_length_add_append, List.take_succ_cons, List.take_zero]
    rw [backslashesBefore, before, List.reverse_append, List.reverse_singleton, List.singleton_append]
    exact Nat.succ_pos _
  · intro some
    obtain ⟨front, back, split, -, place⟩ := exists_run found
    obtain ⟨run, counted⟩ := Nat.exists_eq_succ_of_ne_zero (Nat.pos_iff_ne_zero.mp some)
    rw [counted] at split place
    have last : cs = front ++ List.replicate run '\\' ++ '\\' :: b :: back := by
      rw [split, List.replicate_succ']
      simp
    have parts : Region.block.Parts (front ++ List.replicate run '\\') ('\\' :: b :: back) := by
      rintro - d first
      cases first
      rfl
    have special : Region.block.escapes b = true := by
      rcases brace with rfl | rfl <;> rfl
    refine ⟨_, b, back, last, ?_, ?_⟩
    · rw [List.length_append, List.length_replicate, place, Nat.add_assoc]
    · rw [last, Region.unescape_append parts, Region.unescape, if_pos ⟨rfl, special⟩]

end Braces

/-- The search for the end of a block leaves a brace in it uncounted behind an odd number of backslashes; taking the
escapes of its content away drops the backslash in front of a brace whenever there is one. So the two agree about a
brace exactly if it stands behind no backslash or behind an odd number of them. -/
theorem readBraced_escapes {c content after : Cursor} {i : Nat} {b : Char} (read : readBraced c = .ok content after)
    (found : content.rest[i]? = some b) (brace : b = '\x7b' ∨ b = '\x7d') :
    (IsUncounted content.rest i ↔ Odd (backslashesBefore content.rest i)) ∧
      (IsUnescaped content.rest i ↔ 0 < backslashesBefore content.rest i) ∧
      ((IsUncounted content.rest i ↔ IsUnescaped content.rest i) ↔
        backslashesBefore content.rest i = 0 ∨ Odd (backslashesBefore content.rest i)) := by
  have scanned := isUncounted_iff (.of_content read) found brace
  have dropped := isUnescaped_iff found brace
  refine ⟨scanned, dropped, ?_⟩
  rw [scanned, dropped]
  generalize backslashesBefore content.rest i = run
  rw [Nat.odd_iff]
  omega

/-- The content of a block, with braces behind no backslash, behind one and behind three. -/
def hiddenBraces : Cursor :=
  ⟨"a\x7b\\\x7d\\\\\\\x7b\x7d".toList, 1, ⟨1, 2⟩⟩

theorem readBraced_escapes_of_three :
    readBraced (.ofText (braced hiddenBraces.rest)) = .ok hiddenBraces ⟨[], 11, ⟨1, 12⟩⟩ ∧
    hiddenBraces.rest[7]? = some '\x7b' ∧
    (IsUncounted hiddenBraces.rest 7 ↔ Odd (backslashesBefore hiddenBraces.rest 7)) ∧
      (IsUnescaped hiddenBraces.rest 7 ↔ 0 < backslashesBefore hiddenBraces.rest 7) ∧
      ((IsUncounted hiddenBraces.rest 7 ↔ IsUnescaped hiddenBraces.rest 7) ↔
        backslashesBefore hiddenBraces.rest 7 = 0 ∨ Odd (backslashesBefore hiddenBraces.rest 7)) := by
  have read : readBraced (.ofText (braced hiddenBraces.rest)) = .ok hiddenBraces ⟨[], 11, ⟨1, 12⟩⟩ := rfl
  exact ⟨read, rfl, readBraced_escapes read rfl (.inl rfl)⟩

/-- Behind two backslashes a brace opens a block, and yet it loses one of them. -/
theorem readBraced_escapes_apart :
    ∃ content after, readBraced (.ofText "\x7b\\\\\x7b\x7d\x7d".toList) = .ok content after ∧
      content.rest[2]? = some '\x7b' ∧ ¬(IsUncounted content.rest 2 ↔ IsUnescaped content.rest 2) := by
  refine ⟨_, _, rfl, rfl, fun agree => ?_⟩
  have uncounted := agree.mpr ⟨['\\'], '\x7b', ['\x7d'], rfl, rfl, rfl⟩
  exact absurd (uncounted 0 ['\x7d']) (by decide)

end Stencil
