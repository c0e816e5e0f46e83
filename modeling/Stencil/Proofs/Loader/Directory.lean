import Stencil.Loader
import Stencil.Proofs.Render.Origin
import Stencil.Proofs.Storage.Text

namespace Stencil

/-- The answer of a loader that compiles what it has found is a template or a refusal. -/
theorem compileNamed_error {source name : String} {e : LoadError}
    (error : compileNamed source name = .error e) : ∃ fault, e = .invalid fault := by
  rw [compileNamed] at error
  cases compiled : compile source name with
  | ok t =>
    rw [compiled] at error
    cases error
  | error fault =>
    rw [compiled] at error
    cases error
    exact ⟨fault, rfl⟩

namespace TemplateDirectory

variable {t : TemplateDirectory} {d : Disk} {name : String} {place : Place} {e : LoadError}

/-- How a directory fails at a name: its path has a zero character, or is too long for the machine to look for
anything there, or the file that stands there is no text. -/
inductive Fails (t : TemplateDirectory) (d : Disk) (name : String) : LoadError → Prop
  | zeroCharacter
      (zero : t.directory.hasZero = true ∨ (t.directory ++ FilePath.ofText (name ++ t.suffix)).hasZero = true) :
      Fails t d name (.file ⟨.zeroCharacter, t.directory ++ FilePath.ofText (name ++ t.suffix), none⟩)
  | tooLong {place : Place} (inside : t.place d.here name = .ok place)
      (long : d.reach (.ofPlace place) = .error .nameTooLong) :
      Fails t d name (.file ⟨.nameTooLong, .ofPlace place, none⟩)
  | undecodable {place : Place} {content : Bytes} {fault : DecodeError} (inside : t.place d.here name = .ok place)
      (stands : d.find? (.ofPlace place) = some (.file content))
      (garbled : t.charset.decode content = .error fault) : Fails t d name (.unreadable fault)

theorem Fails.failure?_ne_none (fails : t.Fails d name e) : e.failure? ≠ none := by
  cases fails <;> exact Option.some_ne_none _

section Steps

theorem place_of_zero
    (zero : t.directory.hasZero = true ∨ (t.directory ++ FilePath.ofText (name ++ t.suffix)).hasZero = true)
    (here : Place) :
    t.place here name = .error (.file ⟨.zeroCharacter, t.directory ++ FilePath.ofText (name ++ t.suffix), none⟩) := by
  unfold TemplateDirectory.place
  rw [if_pos ((Bool.or_eq_true ..).mpr zero)]

theorem place_error (outside : t.place d.here name = .error e) : e.failure? = none ∨ t.Fails d name e := by
  unfold TemplateDirectory.place at outside
  dsimp only at outside
  split at outside
  · rename_i zero
    cases outside
    exact .inr (.zeroCharacter ((Bool.or_eq_true ..).mp zero))
  · split at outside <;> cases outside
    exact .inl rfl

theorem locate_of_place (inside : t.place d.here name = .ok place) :
    t.locate d name = (d.ask (.ofPlace place) Disk.isFile).mapError .file >>= fun there =>
      if there then .ok place
      else .error (.missing ("Template not found: " ++ name ++ " (" ++ (FilePath.ofPlace place).text ++ ")")) := by
  rw [locate, inside]
  rfl

theorem load_of_locate_error (error : t.locate d name = .error e) : t.load d name = .error e := by
  rw [load, error]
  rfl

theorem load_of_outside (outside : t.place d.here name = .error e) : t.load d name = .error e := by
  refine load_of_locate_error ?_
  rw [locate, outside]
  rfl

/-- At a place there is a file, or there is none, or its path is too long for an answer. -/
theorem file_cases (d : Disk) (place : Place) :
    (∃ content, d.find? (.ofPlace place) = some (.file content)) ∨
      d.ask (.ofPlace place) Disk.isFile = .ok false ∨ d.reach (.ofPlace place) = .error .nameTooLong := by
  rcases d.ask_cases (.ofPlace place) Disk.isFile with asked | ⟨long, -⟩
  · cases there : d.isFile (.ofPlace place) with
    | false => exact .inr (.inl (asked.trans (congrArg _ there)))
    | true => exact .inl (Disk.isFile_iff.mp there)
  · exact .inr (.inr long)

theorem load_of_long (inside : t.place d.here name = .ok place)
    (long : d.reach (.ofPlace place) = .error .nameTooLong) :
    t.load d name = .error (.file ⟨.nameTooLong, .ofPlace place, none⟩) := by
  refine load_of_locate_error ?_
  rw [locate_of_place inside, Disk.ask, long]
  rfl

theorem load_of_located (found : t.locate d name = .ok place) :
    t.load d name = match d.readText (.ofPlace place) t.charset with
      | .ok source => compileNamed source name
      | .error (.undecodable fault) => .error (.unreadable fault)
      | .error (.file fault) => .error (.file fault)
      | .error fault => .error (.missing fault.message) := by
  rw [load, found]
  rfl

/-- A file that stands at the place for a name is compiled under that name, if it is text. -/
theorem load_of_file {content : Bytes} (inside : t.place d.here name = .ok place)
    (stands : d.find? (.ofPlace place) = some (.file content)) :
    t.load d name = match t.charset.decode content with
      | .ok cs => compileNamed (String.ofList (plainLineEnds cs)) name
      | .error fault => .error (.unreadable fault) := by
  have found : t.locate d name = .ok place := by
    rw [locate_of_place inside]
    rcases Disk.ask_cases d (.ofPlace place) Disk.isFile with asked | ⟨long, -⟩
    · rw [asked, Disk.isFile_iff.mpr ⟨content, stands⟩]
      rfl
    · rw [Disk.find?, long] at stands
      cases stands
  rw [load_of_located found, Disk.readText_of_read (Disk.read_eq_ok_iff.mpr stands)]
  cases t.charset.decode content <;> rfl

/-- Where no file stands at the place for a name, there is no template. -/
theorem load_of_no_file (inside : t.place d.here name = .ok place)
    (asked : d.ask (.ofPlace place) Disk.isFile = .ok false) :
    t.load d name =
      .error (.missing ("Template not found: " ++ name ++ " (" ++ (FilePath.ofPlace place).text ++ ")")) := by
  refine load_of_locate_error ?_
  rw [locate_of_place inside, asked]
  rfl

end Steps

/-- A directory fails in the listed ways, and whenever one of them applies. -/
theorem load_fails_iff : t.load d name = .error e ∧ e.failure? ≠ none ↔ t.Fails d name e := by
  constructor
  · rintro ⟨error, fails⟩
    cases inside : t.place d.here name with
    | error f =>
      rw [load_of_outside inside] at error
      cases error
      exact (place_error inside).resolve_left fails
    | ok place =>
      rcases file_cases d place with ⟨content, stands⟩ | asked | long
      · rw [load_of_file inside stands] at error
        cases decoded : t.charset.decode content with
        | ok cs =>
          rw [decoded] at error
          obtain ⟨fault, rfl⟩ := compileNamed_error error
          exact absurd rfl fails
        | error fault =>
          rw [decoded] at error
          cases error
          exact .undecodable inside stands decoded
      · rw [load_of_no_file inside asked] at error
        cases error
        exact absurd rfl fails
      · rw [load_of_long inside long] at error
        cases error
        exact .tooLong inside long
  · intro fails
    refine ⟨?_, fails.failure?_ne_none⟩
    cases fails with
    | zeroCharacter zero => exact load_of_outside (place_of_zero zero d.here)
    | tooLong inside long => exact load_of_long inside long
    | undecodable inside stands garbled => rw [load_of_file inside stands, garbled]

end TemplateDirectory

/-- The templates of the directory one is in. -/
def templatesHere : TemplateDirectory :=
  { directory := ⟨.here, []⟩ }

end Stencil
