import Mathlib.Data.List.TakeWhile
import Stencil.CommandLine.Run
import Stencil.Proofs.Failing
import Stencil.Yaml.Builtin

namespace Stencil

/-- The text has a character that is not blank. -/
def Worded (s : String) : Prop :=
  ∃ c ∈ s.toList, isBlank c = false

namespace Worded

variable {s : String}

theorem begin {c : Char} {cs : List Char} (seen : isBlank c = false) : Worded (String.ofList (c :: cs)) :=
  ⟨c, String.toList_ofList ▸ List.mem_cons_self, seen⟩

theorem append (worded : Worded s) (t : String) : Worded (s ++ t) := by
  obtain ⟨c, member, seen⟩ := worded
  refine ⟨c, ?_, seen⟩
  rw [String.toList_append]
  exact List.mem_append_left t.toList member

theorem after (worded : Worded s) (t : String) : Worded (t ++ s) := by
  obtain ⟨c, member, seen⟩ := worded
  refine ⟨c, ?_, seen⟩
  rw [String.toList_append]
  exact List.mem_append_right t.toList member

/-- Trimming takes nothing but blanks. -/
theorem trimEnd (worded : Worded s) : Worded (String.ofList (trimEnd s.toList)) := by
  obtain ⟨c, member, seen⟩ := worded
  refine ⟨c, ?_, seen⟩
  rw [String.toList_ofList, Stencil.trimEnd, List.mem_reverse]
  have split := List.takeWhile_append_dropWhile (p := isBlank) (l := s.toList.reverse)
  rw [← List.mem_reverse, ← split, List.mem_append] at member
  refine member.resolve_left fun blank => ?_
  rw [List.mem_takeWhile_imp blank] at seen
  cases seen

end Worded

section Messages

theorem Fault.message_worded (fault : Fault) : Worded fault.message := by
  cases fault with
  | unmatchedOpen | unmatchedClose | unterminated | emptyDirective | elseOutsideIf | endOutsideIf | duplicateElse
  | unclosedIf | emptyKey => exact .begin rfl
  | unknownDirective | missingName | missingPath | unexpectedToken => exact .append (.begin rfl) _
  | blockExpected | braceExpected | unexpectedCharacter | emptySegment => exact .append (.append (.begin rfl) _) _
  | unexpectedRest | invalidSegment => exact .append (.append (.append (.append (.begin rfl) _) _) _) _

theorem SyntaxError.message_worded (e : SyntaxError) : Worded e.message :=
  (e.fault.message_worded.append _).append _

theorem DecodeError.message_worded (e : DecodeError) : Worded e.message :=
  .append (.append (.append (.begin rfl) _) _) _

theorem FileError.message_worded (e : FileError) : Worded e.message := by
  have fault : Worded e.fault.text := by cases e.fault <;> exact .begin rfl
  unfold FileError.message
  dsimp only
  split
  · exact fault
  · exact ((fault.append _).append _).append _

theorem MomentFault.message_worded (fault : MomentFault) : Worded fault.message := by
  cases fault with
  | month | day | hour | minute | second | range => exact .begin rfl
  | year | offset => exact .append (.append (.begin rfl) _) _

theorem Yaml.Fault.message_worded (fault : Yaml.Fault) : Worded fault.message := by
  cases fault with
  | malformed | half => exact .begin rfl
  | code n =>
    change Worded (if n < Yaml.codeLimit then _ else _)
    split <;> exact .begin rfl
  | noDigits | notNumber => exact .append (.append (.begin rfl) _) _
  | tooManyDigits => exact .append (.append (.append (.append (.begin rfl) _) _) _) _
  | moment f => exact f.message_worded

theorem Disk.readText_worded {d : Disk} {p : FilePath} (charset : FileCharset) :
    FailsAs (fun e => Worded e.message) (d.readText p charset) := by
  refine .bind (.mapError fun e _ => e.message_worded) fun _ _ => .bind (.mapError fun e _ => ?_) fun _ _ => .ok _
  exact e.message_worded

/-- A reader that says why a scalar has no value. -/
def Yaml.Library.Speaks (y : Yaml.Library) : Prop :=
  ∀ text words, y.read text = .error (.noValue words) → Worded words

theorem Yaml.Fault.refusal_worded {fault : Yaml.Fault} {words : String} (refused : fault.refusal = .noValue words) :
    Worded words := by
  unfold refusal at refused
  split at refused
  · cases refused
  · cases refused
  · split at refused
    · cases refused
    · cases refused
      exact message_worded _

theorem Yaml.builtin_speaks : builtin.Speaks := by
  intro text words refused
  change (readDocument text.toList).mapError Fault.refusal = _ at refused
  cases read : (readDocument text.toList : Except Fault PlainData) with
  | ok v =>
    rw [read] at refused
    cases refused
  | error fault =>
    rw [read] at refused
    exact Fault.refusal_worded (Except.error.inj refused)

end Messages
end Stencil
