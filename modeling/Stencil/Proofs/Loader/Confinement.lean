import Stencil.Proofs.Loader.Compilation
import Stencil.Proofs.Storage.Normalization

namespace Stencil

/-- The components of the path of a template's file: the name with the suffix is joined to the directory. -/
def fileComponents (here : Place) (dir suffix name : String) : List String :=
  pathComponents (pathComponents here dir) (name ++ suffix)

/-- An answer of a loader but for the name that was asked for. -/
def nameless : Except LoadError Template → Except (Option LoadError) (List Node)
  | .ok t => .ok t.nodes
  | .error (.missing _) => .error none
  | .error e => .error (some e)

namespace Disk

/-- The disks differ neither under the place nor in where the way to it leads through directories. -/
structure AlikeUnder (root : Place) (d d' : Disk) : Prop where
  here : d'.here = d.here
  way : ∀ place, place <+: root → (d'.entry? place = some .directory ↔ d.entry? place = some .directory)
  under : ∀ place, root <+: place → d'.entry? place = d.entry? place

variable {d d' : Disk} {root place place' : Place} {names : List String}

/-- A walk that arrives has followed the names. -/
theorem follow_of_walk (arrived : d.walk place names = .ok place') : place' = place.follow names := by
  induction names generalizing place with
  | nil =>
    cases arrived
    rfl
  | cons name names ih =>
    rw [walk] at arrived
    split at arrived
    · cases arrived
    · cases arrived
    · split at arrived
      · cases arrived
      · exact ih arrived

/-- The path to a place leads nowhere else. -/
theorem reach_ofPlace (plain : ∀ name ∈ place, LeadsDown name) (reached : d.reach (.ofPlace place) = .ok place') :
    place' = place := by
  rw [reach] at reached
  split at reached
  · cases reached
  · split at reached
    · cases reached
    · have followed : place' = Place.follow [] place := follow_of_walk reached
      rw [followed, Place.follow_plain [] plain, List.nil_append]

theorem entry?_of_find? {e : Entry} (plain : ∀ name ∈ place, LeadsDown name)
    (found : d.find? (.ofPlace place) = some e) : d.entry? place = some e := by
  rw [find?] at found
  split at found
  · rename_i reached
    rw [← reach_ofPlace plain reached]
    exact found
  · cases found

section Alike

/-- What a walk comes to when something on its way is no directory. -/
def Blocked (walked : Except FileFault Place) : Prop :=
  walked = .error .notFound ∨ walked = .error .notDirectory

theorem walk_blocked (closed : d.entry? place ≠ some .directory) (name : String) (names : List String) :
    Blocked (d.walk place (name :: names)) := by
  rw [walk]
  split
  · exact .inl rfl
  · exact .inr rfl
  · contradiction

theorem AlikeUnder.directory_iff (alike : AlikeUnder root d d') (inside : root <+: place ++ names) :
    d'.entry? place = some .directory ↔ d.entry? place = some .directory := by
  rcases List.prefix_or_prefix_of_prefix (List.prefix_append place names) inside with above | below
  · exact alike.way place above
  · rw [alike.under place below]

/-- Walks down to something under the place pass the same directories. -/
theorem AlikeUnder.walk (alike : AlikeUnder root d d') (place : Place) (plain : ∀ name ∈ names, LeadsDown name)
    (inside : root <+: place ++ names) :
    d'.walk place names = d.walk place names ∨ Blocked (d'.walk place names) ∧ Blocked (d.walk place names) := by
  induction names generalizing place with
  | nil => exact .inl rfl
  | cons name names ih =>
    by_cases stands : d.entry? place = some .directory
    · have stands' := (alike.directory_iff inside).mpr stands
      have further := ih (place ++ [name]) (fun other member => plain other (List.mem_cons_of_mem name member))
        (by simpa using inside)
      have down : name ≠ ".." := (plain name List.mem_cons_self).2.2
      rw [Disk.walk, Disk.walk, stands, stands']
      dsimp only
      rw [if_neg down]
      split
      · exact .inl rfl
      · exact further
    · exact .inr ⟨walk_blocked (mt (alike.directory_iff inside).mp stands) name names, walk_blocked stands name names⟩

theorem find?_of_blocked {p : FilePath} (blocked : Blocked (d.reach p)) :
    d.find? p = none ∧ d.reach p ≠ .error .nameTooLong := by
  constructor
  · rcases blocked with missing | closed
    · rw [find?, missing]
    · rw [find?, closed]
  · intro long
    rw [long] at blocked
    rcases blocked with missing | closed
    · cases missing
    · cases closed

/-- The same is found under the place, and the same paths are too long. -/
theorem AlikeUnder.find? (alike : AlikeUnder root d d') (plain : ∀ name ∈ place, LeadsDown name)
    (inside : root <+: place) :
    d'.find? (.ofPlace place) = d.find? (.ofPlace place) ∧
      (d'.reach (.ofPlace place) = .error .nameTooLong ↔ d.reach (.ofPlace place) = .error .nameTooLong) := by
  have reached : d'.reach (.ofPlace place) = d.reach (.ofPlace place) ∨
      Blocked (d'.reach (.ofPlace place)) ∧ Blocked (d.reach (.ofPlace place)) := by
    rw [reach, reach]
    split
    · exact .inl rfl
    · split
      · exact .inl rfl
      · exact alike.walk [] plain inside
  rcases reached with same | ⟨blocked', blocked⟩
  · refine ⟨?_, by rw [same]⟩
    rw [Disk.find?, Disk.find?, same]
    split
    · rename_i arrived
      rw [reach_ofPlace plain arrived]
      exact alike.under place inside
    · rfl
  · obtain ⟨none', short'⟩ := find?_of_blocked blocked'
    obtain ⟨none, short⟩ := find?_of_blocked blocked
    exact ⟨none'.trans none.symm, fun long => absurd long short', fun long => absurd long short⟩

theorem AlikeUnder.ask (alike : AlikeUnder root d d') (plain : ∀ name ∈ place, LeadsDown name)
    (inside : root <+: place) : d'.ask (.ofPlace place) isFile = d.ask (.ofPlace place) isFile := by
  obtain ⟨found, long_iff⟩ := alike.find? plain inside
  by_cases long : d.reach (.ofPlace place) = .error .nameTooLong
  · rw [Disk.ask, Disk.ask, long, long_iff.mpr long]
  · have answer := (d.ask_cases (.ofPlace place) isFile).resolve_right fun h => long h.1
    have answer' := (d'.ask_cases (.ofPlace place) isFile).resolve_right fun h => long (long_iff.mp h.1)
    rw [answer, answer', isFile, isFile, found]

end Alike
end Disk

namespace TemplateDirectory

/-- What holds of a directory of templates with the path `dir`, which leads to `root`. -/
structure Confined (t : TemplateDirectory) (d : Disk) (dir : String) (root : Place) : Prop where
  normal (name : String) : ∃! place, Normalizes (fileComponents d.here dir t.suffix name) place
  /-- The place for a name is where its path is normalised to; one that is not under the root is refused. -/
  located {name : String} {place : Place} (clear : '\x00' ∉ (dir ++ name ++ t.suffix).toList)
    (normal : Normalizes (fileComponents d.here dir t.suffix name) place) :
    t.place d.here name = if root <+: place then .ok place
      else .error (.missing ("Template name escapes template directory: " ++ name))
  /-- A path with a zero character has no place, and is refused as no path at all. -/
  unplaced {name : String} (zero : '\x00' ∈ (dir ++ name ++ t.suffix).toList) :
    t.place d.here name = .error (.file ⟨.zeroCharacter, t.directory ++ FilePath.ofText (name ++ t.suffix), none⟩)
  /-- Every template comes from a file under the root. -/
  read {name : String} {template : Template} (loaded : t.load d name = .ok template) :
    ∃ place content cs, Normalizes (fileComponents d.here dir t.suffix name) place ∧ root <+: place ∧
      d.entry? place = some (.file content) ∧ t.charset.decode content = .ok cs ∧
      compileNamed (String.ofList (plainLineEnds cs)) name = .ok template
  /-- No answer depends on what stands elsewhere. -/
  unseen {d' : Disk} (alike : d.AlikeUnder root d') (name : String) : t.load d' name = t.load d name
  /-- What stands under a name that only begins with the name of the root is out of reach. -/
  apart {above below : List String} {last extra : String} (top : root = above ++ [last]) (longer : extra ≠ "")
    (name : String) : t.place d.here name ≠ .ok (above ++ (last ++ extra) :: below)
  /-- Names whose paths are normalised to the same place are answered alike. -/
  merged {name name' : String} {place : Place} (clear : '\x00' ∉ (dir ++ name ++ t.suffix).toList)
    (clear' : '\x00' ∉ (dir ++ name' ++ t.suffix).toList)
    (normal : Normalizes (fileComponents d.here dir t.suffix name) place)
    (normal' : Normalizes (fileComponents d.here dir t.suffix name') place) :
    nameless (t.load d name) = nameless (t.load d name')

section Places

variable {here : Place} {dir suffix name : String} (charset : FileCharset)

theorem hasZero_join (p q : FilePath) : (p.hasZero || (p ++ q).hasZero) = (p.hasZero || q.hasZero) := by
  change (p.hasZero || (if q.isAbsolute then q else ⟨p.start, p.names ++ q.names⟩ : FilePath).hasZero) = _
  split
  · rfl
  · have split : (⟨p.start, p.names ++ q.names⟩ : FilePath).hasZero = (p.hasZero || q.hasZero) := List.any_append
    rw [split, ← Bool.or_assoc, Bool.or_self]

theorem zero_iff : ((FilePath.ofText dir).hasZero || (FilePath.ofText dir ++ .ofText (name ++ suffix)).hasZero) = true ↔
    '\x00' ∈ (dir ++ name ++ suffix).toList := by
  rw [hasZero_join, Bool.or_eq_true, FilePath.hasZero_ofText, FilePath.hasZero_ofText, String.append_assoc,
    ← List.mem_append, ← String.toList_append]

/-- A name has the place where its path is normalised to, if that is under the directory. -/
theorem place_eq {root place : Place} (plain : ∀ part ∈ here, LeadsDown part)
    (clear : '\x00' ∉ (dir ++ name ++ suffix).toList) (top : Normalizes (pathComponents here dir) root)
    (normal : Normalizes (fileComponents here dir suffix name) place) :
    (⟨.ofText dir, suffix, charset⟩ : TemplateDirectory).place here name =
      if root <+: place then .ok place
      else .error (.missing ("Template name escapes template directory: " ++ name)) := by
  have rooted : (FilePath.ofText dir).resolve here = root := by
    rw [normalizes_iff.mp top, ← FilePath.resolve_ofText, normalForm_plain plain]
  have file : (FilePath.ofText (name ++ suffix)).resolve root = place := by
    rw [normalizes_iff.mp top, normalizes_iff.mp normal]
    exact FilePath.resolve_ofText _ _
  unfold TemplateDirectory.place
  dsimp only
  rw [if_neg (mt zero_iff.mp clear), rooted, file]
  simp only [List.isPrefixOf_iff_prefix]

/-- A place is only given for a path without a zero character. -/
theorem place_eq_ok {root place : Place} (plain : ∀ part ∈ here, LeadsDown part)
    (top : Normalizes (pathComponents here dir) root)
    (inside : (⟨.ofText dir, suffix, charset⟩ : TemplateDirectory).place here name = .ok place) :
    Normalizes (fileComponents here dir suffix name) place ∧ root <+: place := by
  by_cases clear : '\x00' ∈ (dir ++ name ++ suffix).toList
  · have zero := (Bool.or_eq_true ..).mp (zero_iff.mpr clear)
    rw [place_of_zero (t := ⟨.ofText dir, suffix, charset⟩) zero] at inside
    cases inside
  · have normal := normalizes_normalForm (fileComponents here dir suffix name)
    rw [place_eq charset plain clear top normal] at inside
    split at inside
    · rename_i under
      cases inside
      exact ⟨normal, under⟩
    · cases inside

end Places

section Loading

variable {t : TemplateDirectory} {d d' : Disk} {name name' : String} {place : Place}

/-- Disks that are alike under the directory give the same templates. -/
theorem load_alike {root : Place} (alike : d.AlikeUnder root d')
    (inside : ∀ place, t.place d.here name = .ok place → root <+: place ∧ ∀ part ∈ place, LeadsDown part) :
    t.load d' name = t.load d name := by
  cases given : t.place d.here name with
  | error e =>
    have given' : t.place d'.here name = .error e := by rw [alike.here, given]
    rw [load_of_outside given, load_of_outside given']
  | ok place =>
    have given' : t.place d'.here name = .ok place := by rw [alike.here, given]
    obtain ⟨under, plain⟩ := inside place given
    obtain ⟨found, long_iff⟩ := alike.find? plain under
    rcases file_cases d place with ⟨content, stands⟩ | asked | long
    · rw [load_of_file given stands, load_of_file given' (found.trans stands)]
    · rw [load_of_no_file given asked, load_of_no_file given' ((alike.ask plain under).trans asked)]
    · rw [load_of_long given long, load_of_long given' (long_iff.mpr long)]

theorem nameless_compileNamed (cs : List Char) (name : String) :
    nameless (compileNamed (String.ofList cs) name) = (nodesOf cs).mapError fun e => some (.invalid e) := by
  rw [compileNamed, compile_mapError]
  cases nodesOf cs <;> rfl

/-- Two names with one place differ in their templates' names only. -/
theorem load_merged (given : t.place d.here name = .ok place) (given' : t.place d.here name' = .ok place) :
    nameless (t.load d name) = nameless (t.load d name') := by
  rcases file_cases d place with ⟨content, stands⟩ | asked | long
  · rw [load_of_file given stands, load_of_file given' stands]
    cases t.charset.decode content with
    | error fault => rfl
    | ok cs => exact (nameless_compileNamed _ name).trans (nameless_compileNamed _ name').symm
  · rw [load_of_no_file given asked, load_of_no_file given' asked]
    rfl
  · rw [load_of_long given long, load_of_long given' long]

/-- A template is compiled from the file at the place for its name. -/
theorem load_eq_ok {template : Template} (loaded : t.load d name = .ok template) :
    ∃ place content cs, t.place d.here name = .ok place ∧ d.find? (.ofPlace place) = some (.file content) ∧
      t.charset.decode content = .ok cs ∧ compileNamed (String.ofList (plainLineEnds cs)) name = .ok template := by
  cases given : t.place d.here name with
  | error e =>
    rw [load_of_outside given] at loaded
    cases loaded
  | ok place =>
    rcases file_cases d place with ⟨content, stands⟩ | asked | long
    · rw [load_of_file given stands] at loaded
      cases decoded : t.charset.decode content with
      | error fault =>
        rw [decoded] at loaded
        cases loaded
      | ok cs =>
        rw [decoded] at loaded
        exact ⟨place, content, cs, rfl, stands, decoded, loaded⟩
    · rw [load_of_no_file given asked] at loaded
      cases loaded
    · rw [load_of_long given long] at loaded
      cases loaded

end Loading

theorem not_prefix_of_longer {above below : List String} {last extra : String} (longer : extra ≠ "") :
    ¬above ++ [last] <+: above ++ (last ++ extra) :: below := by
  intro under
  have same : last = last ++ extra := (List.cons_prefix_cons.mp ((List.prefix_append_right_inj above).mp under)).1
  have more : last.toList ++ [] = last.toList ++ extra.toList := by
    rw [← String.toList_append, ← same, List.append_nil]
  exact longer (String.toList_eq_nil_iff.mp (List.append_cancel_left more).symm)

/-- A name gets the place where its path is normalised to, if that is under the directory, and only then; what is loaded
depends on nothing else. -/
theorem load_confined (d : Disk) (plain : ∀ part ∈ d.here, LeadsDown part) (dir suffix : String)
    (charset : FileCharset) :
    (∃! root, Normalizes (pathComponents d.here dir) root) ∧
      ∀ root, Normalizes (pathComponents d.here dir) root → Confined ⟨.ofText dir, suffix, charset⟩ d dir root := by
  refine ⟨normalizes_unique _, fun root top => ?_⟩
  constructor
  case normal => exact fun name => normalizes_unique _
  case located => exact fun clear normal => place_eq charset plain clear top normal
  case unplaced => exact fun zero => place_of_zero ((Bool.or_eq_true ..).mp (zero_iff.mpr zero)) d.here
  case read =>
    intro name template loaded
    obtain ⟨place, content, cs, given, found, decoded, compiled⟩ := load_eq_ok loaded
    obtain ⟨normal, inside⟩ := place_eq_ok charset plain top given
    exact ⟨place, content, cs, normal, inside, Disk.entry?_of_find? normal.plain found, decoded, compiled⟩
  case unseen =>
    intro d' alike name
    refine load_alike alike fun place given => ?_
    obtain ⟨normal, inside⟩ := place_eq_ok charset plain top given
    exact ⟨inside, normal.plain⟩
  case apart =>
    intro above below last extra split longer name given
    have inside := (place_eq_ok charset plain top given).2
    rw [split] at inside
    exact not_prefix_of_longer longer inside
  case merged =>
    intro name name' place clear clear' normal normal'
    have given := place_eq charset plain clear top normal
    have given' := place_eq charset plain clear' top normal'
    by_cases inside : root <+: place
    · rw [if_pos inside] at given given'
      exact load_merged given given'
    · rw [if_neg inside] at given given'
      rw [load_of_outside given, load_of_outside given']
      rfl

/-- A directory of templates, and a file beside it in one whose name begins alike. -/
def siblingDisk : Disk :=
  ⟨[(["w"], .directory), (["w", "t"], .directory), (["w", "t", "b.tpl"], .file (encodeUtf8 "B".toList)),
    (["w", "tx"], .directory), (["w", "tx", "b.tpl"], .file (encodeUtf8 "X".toList))], ["w"]⟩

theorem load_confined_of_siblings :
    let t : TemplateDirectory := ⟨.ofText "t", ".tpl", .utf8⟩
    (∀ part ∈ siblingDisk.here, LeadsDown part) ∧ Normalizes (pathComponents siblingDisk.here "t") ["w", "t"] ∧
      Confined t siblingDisk "t" ["w", "t"] ∧
      t.place siblingDisk.here "../t/./a//../b" = .ok ["w", "t", "b.tpl"] ∧
      t.place siblingDisk.here "../tx/b" = .error (.missing "Template name escapes template directory: ../tx/b") ∧
      nameless (t.load siblingDisk "../t/./a//../b") = nameless (t.load siblingDisk "/w/t/b") := by
  intro t
  have plain : ∀ part ∈ siblingDisk.here, LeadsDown part := by
    intro part member
    rw [List.mem_singleton.mp member]
    exact ⟨by decide, by decide, by decide⟩
  have top : Normalizes (pathComponents siblingDisk.here "t") ["w", "t"] := normalizes_iff.mpr (by decide)
  have confined : Confined t siblingDisk "t" ["w", "t"] :=
    (load_confined siblingDisk plain "t" ".tpl" .utf8).2 ["w", "t"] top
  have inside : Normalizes (fileComponents siblingDisk.here "t" ".tpl" "../t/./a//../b") ["w", "t", "b.tpl"] :=
    normalizes_iff.mpr (by decide)
  have outside : Normalizes (fileComponents siblingDisk.here "t" ".tpl" "../tx/b") ["w", "tx", "b.tpl"] :=
    normalizes_iff.mpr (by decide)
  have absolute : Normalizes (fileComponents siblingDisk.here "t" ".tpl" "/w/t/b") ["w", "t", "b.tpl"] :=
    normalizes_iff.mpr (by decide)
  refine ⟨plain, top, confined, ?_, ?_, confined.merged (by decide) (by decide) inside absolute⟩
  · exact confined.located (by decide) inside
  · exact confined.located (by decide) outside

/-- A name that leads out of the directory is refused in another way if it has a zero character. -/
theorem place_of_escaping_zero :
    let t : TemplateDirectory := ⟨.ofText "t", ".tpl", .utf8⟩
    Normalizes (pathComponents ["w"] "t") ["w", "t"] ∧
      Normalizes (fileComponents ["w"] "t" ".tpl" "../x\x00") ["w", "x\x00.tpl"] ∧
      ¬["w", "t"] <+: ["w", "x\x00.tpl"] ∧
      t.place ["w"] "../x\x00" = .error (.file ⟨.zeroCharacter, .ofText "t/../x\x00.tpl", none⟩) ∧
      ∀ message, t.place ["w"] "../x\x00" ≠ .error (.missing message) := by
  intro t
  have refused : t.place ["w"] "../x\x00" = .error (.file ⟨.zeroCharacter, .ofText "t/../x\x00.tpl", none⟩) := by
    decide +kernel
  refine ⟨normalizes_iff.mpr (by decide), normalizes_iff.mpr (by decide), by decide, refused, ?_⟩
  intro message
  rw [refused]
  exact nofun

end TemplateDirectory
end Stencil
