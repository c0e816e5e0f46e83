import Stencil.Storage.Text

namespace Stencil

section LineEnds

theorem return_not_mem_plainLineEnds (cs : List Char) : '\r' ∉ plainLineEnds cs := by
  fun_induction plainLineEnds cs with
  | case1 | case2 => simp
  | case3 cs ih => simpa using ih
  | case4 c cs other ih => simpa using ih
  | case5 c cs single crlf other ih =>
    have apart : '\r' ≠ c := by
      rintro rfl
      cases cs with
      | nil => exact single rfl rfl
      | cons d cs => exact other d cs rfl rfl
    simpa [apart] using ih

theorem plainLineEnds_eq_self_iff {cs : List Char} : plainLineEnds cs = cs ↔ '\r' ∉ cs := by
  constructor
  · intro same
    rw [← same]
    exact return_not_mem_plainLineEnds cs
  · intro absent
    fun_induction plainLineEnds cs with
    | case1 => rfl
    | case2 | case3 | case4 => simp at absent
    | case5 c cs _ _ _ ih => rw [ih fun member => absent (List.mem_cons_of_mem c member)]

end LineEnds

namespace Disk

variable {d : Disk} {p : FilePath} {content : Bytes}

theorem isFile_iff : d.isFile p = true ↔ ∃ content, d.find? p = some (.file content) := by
  rw [isFile]
  split
  · rename_i content found
    exact ⟨fun _ => ⟨content, found⟩, fun _ => rfl⟩
  · rename_i other
    exact ⟨nofun, fun ⟨content, found⟩ => (other content found).elim⟩

/-- A question about a path has its answer, unless the path is too long. -/
theorem ask_cases (d : Disk) (p : FilePath) (answer : Disk → FilePath → Bool) :
    d.ask p answer = .ok (answer d p) ∨
      d.reach p = .error .nameTooLong ∧ d.ask p answer = .error ⟨.nameTooLong, p, none⟩ := by
  unfold ask
  split
  · rename_i long
    exact .inr ⟨long, rfl⟩
  · exact .inl rfl

theorem read_eq_ok_iff : d.read p = .ok content ↔ d.find? p = some (.file content) := by
  rw [read, find?]
  cases d.reach p with
  | error fault => simp
  | ok place =>
    cases stands : d.entry? place with
    | none => simp [stands]
    | some e => cases e <;> simp [stands]

/-- A file that is there is read to its end, and all that can go wrong is in its bytes. -/
theorem readText_of_read (read : d.read p = .ok content) (charset : FileCharset) :
    d.readText p charset = ((charset.decode content).mapError .undecodable).map
      fun cs => String.ofList (plainLineEnds cs) := by
  have opened : d.readText p charset = (charset.decode content).mapError .undecodable >>=
      fun cs => pure (String.ofList (plainLineEnds cs)) := by
    rw [readText, read]
    rfl
  rw [opened]
  cases charset.decode content <;> rfl

end Disk
end Stencil
