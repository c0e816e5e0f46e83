import Stencil.Proofs.Failing
import Stencil.Proofs.Storage.Text
import Stencil.Settings

namespace Stencil

/-- If a zero character is blamed, then a path that the error is about has one. -/
def FileError.Justified (e : FileError) : Prop :=
  e.fault = .zeroCharacter → e.path.hasZero = true ∨ ∃ p ∈ e.other, p.hasZero = true

namespace Disk

variable {d : Disk} {y : Yaml.Library} {p : FilePath}

section Paths

theorem walk_ne_zeroCharacter (d : Disk) (place : Place) (names : List String) :
    d.walk place names ≠ .error .zeroCharacter := by
  induction names generalizing place with
  | nil => exact nofun
  | cons name names ih =>
    rw [walk]
    split
    · exact nofun
    · exact nofun
    · split
      · exact nofun
      · exact ih _

theorem reach_eq_zeroCharacter_iff : d.reach p = .error .zeroCharacter ↔ p.hasZero = true := by
  unfold reach
  split
  · rename_i zero
    exact ⟨fun _ => zero, fun _ => rfl⟩
  · rename_i clear
    refine ⟨fun blamed => ?_, fun zero => absurd zero clear⟩
    split at blamed
    · cases blamed
    · exact absurd blamed (d.walk_ne_zeroCharacter _ _)

/-- The fault that stops a walk to a path is one that the path can be blamed for. -/
theorem justified_of_reach {fault : FileFault} (stopped : d.reach p = .error fault) (other : Option FilePath) :
    FileError.Justified ⟨fault, p, other⟩ := by
  rintro rfl
  exact .inl (reach_eq_zeroCharacter_iff.mp stopped)

theorem justified_of_ne {e : FileError} (other : e.fault ≠ .zeroCharacter) : e.Justified :=
  fun zero => absurd zero other

theorem ask_justified (answer : Disk → FilePath → Bool) : FailsAs FileError.Justified (d.ask p answer) := by
  rcases d.ask_cases p answer with asked | ⟨-, long⟩
  · rw [asked]
    exact .ok _
  · rw [long]
    exact .error (justified_of_ne nofun)

theorem resolve_justified : FailsAs FileError.Justified (d.resolve p) := by
  unfold resolve
  split
  · rename_i zero
    exact .error fun _ => .inl zero
  · exact .ok _

theorem read_justified : FailsAs FileError.Justified (d.read p) := by
  unfold read
  split
  · rename_i stopped
    exact .error (justified_of_reach stopped none)
  · split
    · exact .error (justified_of_ne nofun)
    · exact .error (justified_of_ne nofun)
    · exact .ok _

theorem write_justified (content : Bytes) : FailsAs FileError.Justified (d.write p content) := by
  unfold write
  split
  · rename_i stopped
    exact .error (justified_of_reach stopped none)
  · split
    · exact .error (justified_of_ne nofun)
    · exact .ok _
    · exact .error (justified_of_ne nofun)
    · exact .error (justified_of_ne nofun)

theorem replace_justified (source target : FilePath) : FailsAs FileError.Justified (d.replace source target) := by
  unfold replace
  dsimp only
  split
  · rename_i stopped
    exact .error (justified_of_reach stopped _)
  · rename_i stopped _
    refine .error fun blamed => .inr ⟨target, rfl, ?_⟩
    cases blamed
    exact reach_eq_zeroCharacter_iff.mp stopped
  · split
    · exact .error (justified_of_ne nofun)
    · exact .ok _
    · exact .error (justified_of_ne nofun)
    · exact .error (justified_of_ne nofun)

theorem makeDirectory_justified :
    FailsAs (fun fault => FileError.Justified ⟨fault, p, none⟩) (d.makeDirectory p) := by
  unfold makeDirectory
  split
  · rename_i stopped
    exact .error (justified_of_reach stopped none)
  · split
    · exact .error (justified_of_ne nofun)
    · exact .ok _
    · exact .error (justified_of_ne nofun)
    · exact .error (justified_of_ne nofun)

theorem tryMakeDirectories_justified (start : PathStart) (above : List String) (d : Disk) :
    FailsAs FileError.Justified (d.tryMakeDirectories start above).2 := by
  induction above generalizing d with
  | nil => exact .ok ()
  | cons name above ih =>
    have kept {d : Disk} {fault : FileFault}
        (failed : d.makeDirectory ⟨start, (name :: above).reverse⟩ = .error fault) :
        FailsAs FileError.Justified (if d.isDirectory ⟨start, (name :: above).reverse⟩ then .ok ()
          else .error ⟨fault, ⟨start, (name :: above).reverse⟩, none⟩) := by
      split
      · exact .ok ()
      · exact .error (makeDirectory_justified fault failed)
    rw [tryMakeDirectories]
    dsimp only
    split
    · exact .ok ()
    · split
      · rename_i stopped
        exact .error (ih d _ (by rw [stopped]))
      · split
        · exact .ok ()
        · exact .error (justified_of_ne nofun)
        · rename_i failed
          exact kept failed
    · rename_i failed
      exact kept failed

end Paths

/-- Why the characters of a file cannot be had: it is not there, or its bytes are no text. -/
inductive Unread (d : Disk) (p : FilePath) : ReadError → Prop
  | file {e : FileError} (justified : e.Justified) : Unread d p (.file e)
  | garbled {content : Bytes} {fault : DecodeError} (stands : d.find? p = some (.file content))
      (garbled : decodeUtf8 content = .error fault) : Unread d p (.undecodable fault)

/-- Why the data of a file cannot be had: besides its characters, its document can be at fault. -/
inductive Unusable (d : Disk) (y : Yaml.Library) (p : FilePath) : ReadError → Prop
  | unread {cause : ReadError} (unread : d.Unread p cause) : Unusable d y p cause
  | flawed {text : String} {refusal : Yaml.Refusal} (read : d.readText p .utf8 = .ok text)
      (refused : y.read text = .error refusal) : Unusable d y p (.unusable p refusal)
  | notMapping : Unusable d y p (.notMapping p)

theorem readText_unread : FailsAs (d.Unread p) (d.readText p .utf8) := by
  refine .bind (.mapError fun e failed => .file (read_justified e failed)) fun content read => ?_
  refine .bind (.mapError fun fault garbled => ?_) fun _ _ => .ok _
  exact .garbled (read_eq_ok_iff.mp (ok_of_mapError read)) garbled

theorem readYaml_unusable : FailsAs (d.Unusable y p) (d.readYaml y p) := by
  refine .bind (readText_unread.mono fun _ unread => .unread unread) fun text read => ?_
  exact .mapError fun _ refused => .flawed read refused

theorem readYamlMapping_unusable : FailsAs (d.Unusable y p) (d.readYamlMapping y p) := by
  refine .bind readYaml_unusable fun v _ => ?_
  split
  · exact .ok _
  · exact .ok _
  · exact .error .notMapping

/-- An empty file stands for an empty mapping, and the entries of any other are those of its document. -/
theorem readYaml_of_readYamlMapping {entries : Entries Empty} (read : d.readYamlMapping y p = .ok entries) :
    entries = [] ∨ d.readYaml y p = .ok (.mapping entries) := by
  obtain ⟨v, document, read⟩ := exists_of_bind_ok read
  split at read
  · cases read
    exact .inl rfl
  · cases read
    exact .inr document
  · cases read

end Disk

section Places

theorem FilePath.hasZero_eq_false_iff {p : FilePath} :
    p.hasZero = false ↔ ∀ name ∈ p.names, '\x00' ∉ name.toList := by
  simp [FilePath.hasZero, List.any_eq_false]

theorem Place.mem_follow {place : Place} {names : List String} {name : String} (member : name ∈ place.follow names) :
    name ∈ place ∨ name ∈ names := by
  induction names generalizing place with
  | nil => exact .inl member
  | cons first names ih =>
    rcases ih member with early | late
    · dsimp only at early
      split at early
      · exact .inl (List.dropLast_subset place early)
      · rcases List.mem_append.mp early with before | last
        · exact .inl before
        · exact .inr (List.mem_singleton.mp last ▸ List.mem_cons_self)
    · exact .inr (List.mem_cons_of_mem first late)

/-- An absolute path without a zero character names a place without one. -/
theorem FilePath.hasZero_resolve {p : FilePath} (clear : p.hasZero = false) (absolute : p.isAbsolute = true)
    (here : Place) : (FilePath.ofPlace (p.resolve here)).hasZero = false := by
  rw [FilePath.hasZero_eq_false_iff] at clear ⊢
  intro name member
  rw [FilePath.ofPlace, FilePath.resolve, if_pos absolute] at member
  exact clear name ((Place.mem_follow member).resolve_left List.not_mem_nil)

theorem FilePath.isAbsolute_ofPlace_append (place : Place) (p : FilePath) :
    (FilePath.ofPlace place ++ p).isAbsolute = true := by
  change (if p.isAbsolute = true then p else _).isAbsolute = true
  split
  · assumption
  · rfl

end Places

namespace Settings

theorem firstFile_justified {d : Disk} (ps : List FilePath) : FailsAs FileError.Justified (locate.firstFile d ps) := by
  induction ps with
  | nil => exact .ok none
  | cons p ps ih =>
    refine .bind (Disk.ask_justified _) fun there _ => ?_
    split
    · exact .ok _
    · exact ih

theorem locate_justified {d : Disk} (start : FilePath) : FailsAs FileError.Justified (locate d start) :=
  .bind Disk.resolve_justified fun _ _ => firstFile_justified _

section Fields

variable {φ : Type} [Handle φ] {entries : Entries φ} {base place : Place}

theorem refuse_ne_ok {α : Type} (v : Value φ) (inWords : String → SettingsError) (a : α) : refuse v inWords ≠ .ok a := by
  unfold refuse
  split <;> simp

/-- No directory in the settings has a zero character in its path. -/
theorem directoryField_clear {name : String} (found : directoryField entries name base = .ok (some place)) :
    (FilePath.ofPlace place).hasZero = false := by
  unfold directoryField at found
  split at found
  · cases found
  · cases found
  · split at found
    · exact absurd found (refuse_ne_ok _ _ _)
    · dsimp only at found
      split at found
      · cases found
      · rename_i clear
        cases found
        exact FilePath.hasZero_resolve (Bool.eq_false_iff.mpr clear) (FilePath.isAbsolute_ofPlace_append _ _) base
  · exact absurd found (refuse_ne_ok _ _ _)

theorem templatesDir_of_ofEntries {s : Settings} (made : ofEntries entries base = .ok s) :
    directoryField entries "templates_dir" base = .ok s.templatesDir := by
  unfold ofEntries at made
  cases strange : strangeKey? entries with
  | some key =>
    rw [strange] at made
    cases made
  | none =>
    rw [strange] at made
    dsimp only at made
    split at made
    · cases made
    · split at made
      all_goals
        obtain ⟨quiet, -, made⟩ := exists_of_bind_ok made
        obtain ⟨templatesDir, found, made⟩ := exists_of_bind_ok made
        obtain ⟨_, -, made⟩ := exists_of_bind_ok made
        obtain ⟨_, -, made⟩ := exists_of_bind_ok made
        obtain ⟨_, -, made⟩ := exists_of_bind_ok made
        obtain ⟨_, -, made⟩ := exists_of_bind_ok made
        cases made
        exact found

end Fields

/-- Settings are read from a mapping, or everything is at its default. -/
theorem load_eq_ok {y : Yaml.Library} {d : Disk} {p : FilePath} {s : Settings} (loaded : load y d p = .ok s) :
    s = {} ∨ ∃ (entries : Entries Empty) (base : Place), ofEntries entries base = .ok s := by
  obtain ⟨there, -, loaded⟩ := exists_of_bind_ok loaded
  split at loaded
  · obtain ⟨entries, -, made⟩ := exists_of_bind_ok loaded
    exact .inr ⟨entries, _, made⟩
  · cases loaded
    exact .inl rfl

end Settings
end Stencil
