import Stencil.Proofs.Failing
import Stencil.Proofs.Localization.Enumeration
import Stencil.Proofs.Localization.History
import Stencil.Yaml.Builtin

namespace Stencil

variable {y : Yaml.Library} {d d' : Disk} {directory p : FilePath} {locale name domain : String} {content : Bytes}

section Reading

theorem readCatalogFile_congr (stands : d.find? p = some (.file content)) (stands' : d'.find? p = some (.file content))
    (locale : String) (domain : Option String) :
    readCatalogFile y d' p locale domain = readCatalogFile y d p locale domain := by
  have text : d'.readText p .utf8 = d.readText p .utf8 := by
    rw [Disk.readText_of_read (Disk.read_eq_ok_iff.mpr stands), Disk.readText_of_read (Disk.read_eq_ok_iff.mpr stands')]
  have mapping : d'.readYamlMapping y p = d.readYamlMapping y p := by
    rw [Disk.readYamlMapping, Disk.readYamlMapping, Disk.readYaml, Disk.readYaml, text]
  unfold readCatalogFile
  rw [mapping]

theorem readCatalogFiles_congr {paths : List (String × FilePath)}
    (same : ∀ x ∈ paths, readCatalogFile y d' x.2 x.1 none = readCatalogFile y d x.2 x.1 none) :
    readCatalogFiles y d' paths = readCatalogFiles y d paths := by
  induction paths with
  | nil => rfl
  | cons x paths ih =>
    obtain ⟨locale, p⟩ := x
    rw [readCatalogFiles, readCatalogFiles, same _ List.mem_cons_self,
      ih fun x member => same x (List.mem_cons_of_mem _ member)]

/-- Reading a directory looks at nothing but the catalog files in it. -/
theorem readCatalogDirectory_congr (formed : d.WellFormed) (formed' : d'.WellFormed)
    (asked : d'.ask directory Disk.isDirectory = d.ask directory Disk.isDirectory)
    (same : ∀ locale name content, d'.Contributes directory locale name content ↔
      d.Contributes directory locale name content) :
    readCatalogDirectory y d' directory = readCatalogDirectory y d directory := by
  have read : readCatalogFiles y d' (catalogPaths d directory) = readCatalogFiles y d (catalogPaths d directory) := by
    refine readCatalogFiles_congr fun x member => ?_
    obtain ⟨locale, name, content, rfl, contributes⟩ := (mem_catalogPaths formed).mp member
    exact readCatalogFile_congr contributes.stands ((same _ _ _).mpr contributes).stands _ _
  rw [readCatalogDirectory, readCatalogDirectory, asked, catalogPaths_congr formed formed' same, read]

theorem readCatalogFile_ok {file : CatalogFile} (read : readCatalogFile y d p locale none = .ok file) :
    file.locale = locale ∧ file.domain = p.stem ∧ d.readYamlMapping y p = .ok file.entries := by
  unfold readCatalogFile at read
  dsimp only at read
  split at read
  · rename_i entries mapping
    cases read
    exact ⟨rfl, rfl, mapping⟩
  · cases read

theorem readCatalogFile_eq_ok_iff (locale : String) :
    (∃ file, readCatalogFile y d p locale none = .ok file) ↔ ∃ entries, d.readYamlMapping y p = .ok entries := by
  constructor
  · rintro ⟨file, read⟩
    exact ⟨file.entries, (readCatalogFile_ok read).2.2⟩
  · rintro ⟨entries, mapping⟩
    unfold readCatalogFile
    rw [mapping]
    exact ⟨_, rfl⟩

section Steps

variable {x : String × FilePath} {paths : List (String × FilePath)}

theorem readCatalogFiles_cons_of_ok {file : CatalogFile} (read : readCatalogFile y d x.2 x.1 none = .ok file) :
    readCatalogFiles y d (x :: paths) =
      ⟨file :: (readCatalogFiles y d paths).events, (readCatalogFiles y d paths).answer⟩ := by
  rw [readCatalogFiles, read]
  rfl

theorem readCatalogFiles_cons_of_error {e : CatalogError} (failed : readCatalogFile y d x.2 x.1 none = .error e) :
    readCatalogFiles y d (x :: paths) = ⟨[], .error e⟩ := by
  rw [readCatalogFiles, failed]
  rfl

end Steps

/-- There is an answer in the end if no file is in the way. -/
theorem readCatalogFiles_answer_iff {paths : List (String × FilePath)} :
    (readCatalogFiles y d paths).answer = .ok () ↔ ∀ x ∈ paths, ∃ entries, d.readYamlMapping y x.2 = .ok entries := by
  induction paths with
  | nil => exact ⟨fun _ => nofun, fun _ => rfl⟩
  | cons x paths ih =>
    rw [List.forall_mem_cons, ← readCatalogFile_eq_ok_iff x.1]
    cases read : readCatalogFile y d x.2 x.1 none with
    | ok file =>
      rw [readCatalogFiles_cons_of_ok read, ih]
      exact ⟨fun rest => ⟨⟨file, rfl⟩, rest⟩, And.right⟩
    | error e =>
      rw [readCatalogFiles_cons_of_error read]
      exact ⟨nofun, fun ⟨⟨_, found⟩, _⟩ => nomatch found⟩

/-- All files have been read if there is an answer. -/
theorem map_of_readCatalogFiles_ok {paths : List (String × FilePath)}
    (answer : (readCatalogFiles y d paths).answer = .ok ()) :
    paths.map (fun x => readCatalogFile y d x.2 x.1 none) = (readCatalogFiles y d paths).events.map .ok := by
  induction paths with
  | nil => rfl
  | cons x paths ih =>
    cases read : readCatalogFile y d x.2 x.1 none with
    | ok file =>
      rw [readCatalogFiles_cons_of_ok read] at answer ⊢
      rw [List.map_cons, List.map_cons, read, ih answer]
    | error e =>
      rw [readCatalogFiles_cons_of_error read] at answer
      cases answer

/-- In the files that have been read stands whatever holds of all mappings that their paths lead to. -/
theorem forall_mem_of_readCatalogFiles_ok {P : Entries Empty → Prop} {paths : List (String × FilePath)}
    (answer : (readCatalogFiles y d paths).answer = .ok ()) :
    (∀ file ∈ (readCatalogFiles y d paths).events, P file.entries) ↔
      ∀ x ∈ paths, ∃ entries, d.readYamlMapping y x.2 = .ok entries ∧ P entries := by
  have read := map_of_readCatalogFiles_ok answer
  constructor
  · intro hold x member
    have listed := List.mem_map_of_mem (f := fun x => readCatalogFile y d x.2 x.1 none) member
    rw [read] at listed
    obtain ⟨file, among, same⟩ := List.mem_map.mp listed
    exact ⟨file.entries, (readCatalogFile_ok same.symm).2.2, hold file among⟩
  · intro hold file among
    have listed := List.mem_map_of_mem (f := Except.ok (ε := CatalogError)) among
    rw [← read] at listed
    obtain ⟨x, member, same⟩ := List.mem_map.mp listed
    obtain ⟨entries, mapping, holds⟩ := hold x member
    cases mapping.symm.trans (readCatalogFile_ok same).2.2
    exact holds

/-- What the files for one locale and domain hold is what their paths lead to. -/
theorem entries_of_map {paths : List (String × FilePath)} {files : List CatalogFile}
    (read : paths.map (fun x => readCatalogFile y d x.2 x.1 none) = files.map .ok) (locale domain : String) :
    (files.filter fun file => file.locale = locale ∧ file.domain = domain).flatMap (·.entries) =
      (paths.filter fun x => x.1 = locale ∧ x.2.stem = domain).flatMap fun x =>
        (d.readYamlMapping y x.2).toOption.getD [] := by
  induction paths generalizing files with
  | nil =>
    rw [List.map_nil, eq_comm, List.map_eq_nil_iff] at read
    rw [read]
    rfl
  | cons x paths ih =>
    cases files with
    | nil => cases read
    | cons file files =>
      obtain ⟨first, rest⟩ := List.cons.inj read
      obtain ⟨sameLocale, sameDomain, mapping⟩ := readCatalogFile_ok first
      rw [List.filter_cons, List.filter_cons, sameLocale, sameDomain]
      split
      · rw [List.flatMap_cons, List.flatMap_cons, ih rest, mapping]
        rfl
      · exact ih rest

end Reading

namespace Catalog

section Adding

variable {c : Catalog}

/-- Adding what a file holds. -/
def stepOf (file : CatalogFile) : Step Empty :=
  .add file.locale file.domain file.entries

/-- Files can all be added if each of them holds texts. -/
theorem addFiles_eq_ok_iff (unfrozen : c.frozen = false) {last : Except CatalogError Unit} {files : List CatalogFile} :
    (c.addFiles last files).2 = .ok () ↔ last = .ok () ∧ ∀ file ∈ files, areTexts file.entries = true := by
  induction files generalizing c with
  | nil => simp [addFiles]
  | cons file files ih =>
    rw [List.forall_mem_cons, addFiles, addFile]
    cases texts : areTexts file.entries with
    | true =>
      obtain ⟨more, answer, still⟩ := add_of_not_frozen file.locale file.domain unfrozen texts
      rw [answer, eq_self, true_and]
      exact ih still
    | false =>
      rw [add_of_no_texts file.locale file.domain unfrozen texts]
      exact iff_of_false (by rintro ⟨⟩) fun sound => absurd sound.2.1 Bool.false_ne_true

theorem addFiles_of_texts (unfrozen : c.frozen = false) (last : Except CatalogError Unit) {files : List CatalogFile}
    (texts : ∀ file ∈ files, areTexts file.entries = true) :
    c.addFiles last files = ((files.map stepOf).foldl after c, last) := by
  induction files generalizing c with
  | nil => rfl
  | cons file files ih =>
    rw [List.forall_mem_cons] at texts
    obtain ⟨more, answer, still⟩ := add_of_not_frozen file.locale file.domain unfrozen texts.1
    rw [addFiles, addFile, answer, List.map_cons, List.foldl_cons, stepOf, after, answer]
    exact ih still texts.2

theorem addFiles_of_frozen (frozen : c.frozen = true) (last : Except CatalogError Unit) (file : CatalogFile)
    (files : List CatalogFile) : c.addFiles last (file :: files) = (c, .error (.add .frozen)) := by
  rw [addFiles, addFile, add_eq_error_iff.mpr frozen]
  rfl

theorem added_map_stepOf (locale domain : String) {files : List CatalogFile}
    (texts : ∀ file ∈ files, areTexts file.entries = true) :
    added locale domain (files.map stepOf) =
      (files.filter fun file => file.locale = locale ∧ file.domain = domain).flatMap (·.entries) := by
  induction files with
  | nil => rfl
  | cons file files ih =>
    rw [List.forall_mem_cons] at texts
    rw [List.map_cons, stepOf, added, ih texts.2, texts.1, List.filter_cons]
    simp only [decide_eq_true_eq, and_true]
    split <;> rfl

end Adding

section Filling

variable (c : Catalog)

theorem addAllFrom_congr (read : readCatalogDirectory y d' directory = readCatalogDirectory y d directory) :
    c.addAllFrom y d' directory = c.addAllFrom y d directory := by
  rw [addAllFrom, addAllFrom, read]

theorem addAllFrom_of_directory (there : d.isDirectory directory = true) :
    c.addAllFrom y d directory = c.addFiles (readCatalogFiles y d (catalogPaths d directory)).answer
      (readCatalogFiles y d (catalogPaths d directory)).events := by
  rw [addAllFrom, readCatalogDirectory, Disk.ask_isDirectory_iff.mpr there]

theorem addAllFrom_of_no_directory (missing : d.isDirectory directory = false) :
    ∃ e, c.addAllFrom y d directory = (c, .error e) := by
  rw [addAllFrom, readCatalogDirectory]
  rcases d.ask_cases directory Disk.isDirectory with asked | ⟨-, asked⟩
  · rw [asked, missing]
    exact ⟨_, rfl⟩
  · rw [asked]
    exact ⟨_, rfl⟩

theorem isDirectory_of_addAllFrom (loaded : (c.addAllFrom y d directory).2 = .ok ()) :
    d.isDirectory directory = true := by
  cases there : d.isDirectory directory with
  | true => rfl
  | false =>
    obtain ⟨e, failed⟩ := addAllFrom_of_no_directory c there
    rw [failed] at loaded
    cases loaded

/-- The files for a locale and a domain hold together what the two names lead to. -/
theorem entriesUnder_append (formed : d.WellFormed) (directory : FilePath) (locale domain : String) :
    d.entriesUnder y directory locale (domain ++ ".yaml") ++ d.entriesUnder y directory locale (domain ++ ".yml") =
      ((catalogPaths d directory).filter fun x => x.1 = locale ∧ x.2.stem = domain).flatMap fun x =>
        (d.readYamlMapping y x.2).toOption.getD [] := by
  rw [filter_catalogPaths formed, List.flatMap_map, Disk.entriesUnder, Disk.entriesUnder, catalogSuffixes]
  cases longer : d.counts directory locale (domain ++ ".yaml") <;>
    cases shorter : d.counts directory locale (domain ++ ".yml") <;> simp [longer, shorter]

/-- Whoever is frozen refuses the first file, so there can be none. -/
theorem catalogPaths_of_frozen (frozen : c.frozen = true) (there : d.isDirectory directory = true)
    (loaded : (c.addAllFrom y d directory).2 = .ok ()) : catalogPaths d directory = [] := by
  rw [addAllFrom_of_directory c there] at loaded
  cases events : (readCatalogFiles y d (catalogPaths d directory)).events with
  | nil =>
    rw [events, addFiles] at loaded
    have read := map_of_readCatalogFiles_ok loaded
    rwa [events, List.map_nil, List.map_eq_nil_iff] at read
  | cons file files =>
    rw [events, addFiles_of_frozen frozen] at loaded
    cases loaded

/-- Filling succeeds if the directory is there, and if every catalog file can be read, holds texts and is not
refused. -/
theorem addAllFrom_eq_ok_iff (formed : d.WellFormed) :
    (c.addAllFrom y d directory).2 = .ok () ↔ d.isDirectory directory = true ∧
      ∀ locale name content, d.Contributes directory locale name content → c.frozen = false ∧
        ∃ entries, d.readYamlMapping y (localePath directory locale name) = .ok entries ∧ areTexts entries = true := by
  constructor
  · intro loaded
    have there := isDirectory_of_addAllFrom c loaded
    refine ⟨there, fun locale name content contributes => ?_⟩
    have member := (mem_catalogPaths formed).mpr ⟨locale, name, content, rfl, contributes⟩
    cases frozen : c.frozen with
    | false =>
      rw [addAllFrom_of_directory c there, addFiles_eq_ok_iff frozen] at loaded
      exact ⟨rfl, (forall_mem_of_readCatalogFiles_ok loaded.1).mp loaded.2 _ member⟩
    | true =>
      rw [catalogPaths_of_frozen c frozen there loaded] at member
      cases member
  · rintro ⟨there, fit⟩
    have fits : ∀ x ∈ catalogPaths d directory, c.frozen = false ∧
        ∃ entries, d.readYamlMapping y x.2 = .ok entries ∧ areTexts entries = true := by
      intro x member
      obtain ⟨locale, name, content, rfl, contributes⟩ := (mem_catalogPaths formed).mp member
      exact fit locale name content contributes
    rw [addAllFrom_of_directory c there]
    cases paths : catalogPaths d directory with
    | nil => rfl
    | cons x rest =>
      rw [paths] at fits
      have answer : (readCatalogFiles y d (x :: rest)).answer = .ok () :=
        readCatalogFiles_answer_iff.mpr fun z member =>
          (fits z member).2.imp fun _ => And.left
      rw [addFiles_eq_ok_iff (fits x List.mem_cons_self).1]
      exact ⟨answer, (forall_mem_of_readCatalogFiles_ok answer).mpr fun z member => (fits z member).2⟩

/-- What a catalog answers after it was filled: the two files for a domain count, the one with the shorter suffix
first, and then what was there before. -/
theorem find?_addAllFrom (formed : d.WellFormed) (loaded : (c.addAllFrom y d directory).2 = .ok ())
    (key locale domain : String) :
    (c.addAllFrom y d directory).1.find? key locale domain =
      ((lastText? (d.entriesUnder y directory locale (domain ++ ".yml")) key).or
        (lastText? (d.entriesUnder y directory locale (domain ++ ".yaml")) key)).or (c.find? key locale domain) := by
  have there := isDirectory_of_addAllFrom c loaded
  rw [← lastText?_append, entriesUnder_append formed]
  cases frozen : c.frozen with
  | false =>
    rw [addAllFrom_of_directory c there] at loaded ⊢
    obtain ⟨answer, texts⟩ := (addFiles_eq_ok_iff frozen).mp loaded
    rw [addFiles_of_texts frozen _ texts, find?_foldl _ _ frozen, added_map_stepOf _ _ texts,
      entries_of_map (map_of_readCatalogFiles_ok answer)]
  | true =>
    have none := catalogPaths_of_frozen c frozen there loaded
    rw [addAllFrom_of_directory c there, none]
    rfl

end Filling

/-- Filling a catalog from a directory, whatever reads its files, comes out the same, with its error and with what it
has added before the error, in whatever order the disk lists its entries, and whatever stands on it besides the
catalog files: those with the suffix of one that stand directly in a directory directly in the given one. It
succeeds just if the directory is there and each of these files can be read, holds texts and is not refused. Then
a key has the text that the file of its domain with the shorter suffix gives it, or else the one with the
longer suffix, or else the one that it had before. -/
theorem addAllFrom_determined (y : Yaml.Library) (c : Catalog) {d : Disk} (formed : d.WellFormed) (directory : FilePath) :
    (∀ d' : Disk, d'.here = d.here → d'.entries.Perm d.entries →
      c.addAllFrom y d' directory = c.addAllFrom y d directory) ∧
    (∀ d' : Disk, d'.WellFormed →
      d'.ask directory Disk.isDirectory = d.ask directory Disk.isDirectory →
      (∀ locale name content, d'.Contributes directory locale name content ↔
        d.Contributes directory locale name content) →
      c.addAllFrom y d' directory = c.addAllFrom y d directory) ∧
    ((c.addAllFrom y d directory).2 = .ok () ↔ d.isDirectory directory = true ∧
      ∀ locale name content, d.Contributes directory locale name content → c.frozen = false ∧
        ∃ entries, d.readYamlMapping y (localePath directory locale name) = .ok entries ∧
          areTexts entries = true) ∧
    ((c.addAllFrom y d directory).2 = .ok () → ∀ key locale domain,
      (c.addAllFrom y d directory).1.find? key locale domain =
        ((lastText? (d.entriesUnder y directory locale (domain ++ ".yml")) key).or
          (lastText? (d.entriesUnder y directory locale (domain ++ ".yaml")) key)).or
            (c.find? key locale domain)) := by
  have only (d' : Disk) (formed' : d'.WellFormed)
      (asked : d'.ask directory Disk.isDirectory = d.ask directory Disk.isDirectory)
      (same : ∀ locale name content, d'.Contributes directory locale name content ↔
        d.Contributes directory locale name content) : c.addAllFrom y d' directory = c.addAllFrom y d directory :=
    addAllFrom_congr c (readCatalogDirectory_congr formed formed' asked same)
  refine ⟨fun d' here shuffled => ?_, only, addAllFrom_eq_ok_iff c formed, find?_addAllFrom c formed⟩
  have found := Disk.find?_congr (Disk.entry?_of_perm formed shuffled) here
  refine only d' (formed.of_perm shuffled) ?_ fun locale name content => ?_
  · unfold Disk.ask Disk.isDirectory
    rw [(found directory).1, (found directory).2]
  · constructor <;> rintro ⟨inside, suffixed, stands⟩ <;> refine ⟨inside, suffixed, ?_⟩
    · rwa [← (found _).2]
    · rwa [(found _).2]

/-- A directory with a catalog file that is no text, among others that are none. -/
def scattered : Disk :=
  ⟨[(["c", "it", "m.yml"], .file []), (["c", "it"], .directory), (["c", "en", "notes.txt"], .file [0xFE]),
    (["c", "it", "m.yaml"], .file [0xFF]), (["c", "stray.yaml"], .file [0xFD]), (["c"], .directory),
    (["c", "en"], .directory)], []⟩

theorem scattered_contributes : scattered.Contributes (.ofText "c") "it" "m.yaml" [0xFF] :=
  ⟨by decide, by decide +kernel, by rfl⟩

theorem addAllFrom_determined_of_scattered :
    scattered.WellFormed ∧
      ({} : Catalog).addAllFrom Yaml.builtin { scattered with entries := scattered.entries.reverse } (.ofText "c") =
        ({} : Catalog).addAllFrom Yaml.builtin scattered (.ofText "c") ∧
      (({} : Catalog).addAllFrom Yaml.builtin scattered (.ofText "c")).2 ≠ .ok () := by
  have formed : scattered.WellFormed := ⟨by decide, by decide⟩
  obtain ⟨anyOrder, -, loads, -⟩ := addAllFrom_determined Yaml.builtin {} formed (.ofText "c")
  refine ⟨formed, anyOrder _ rfl (List.reverse_perm _), fun loaded => ?_⟩
  obtain ⟨-, entries, mapping, -⟩ := (loads.mp loaded).2 _ _ _ scattered_contributes
  have read := Disk.readText_of_read (Disk.read_eq_ok_iff.mpr scattered_contributes.stands) .utf8
  have garbled : FileCharset.utf8.decode [0xFF] = .error ⟨0xFF, 0, 1, .start⟩ := by cbv
  rw [garbled] at read
  rw [Disk.readYamlMapping, Disk.readYaml, read] at mapping
  cases mapping

end Catalog

end Stencil
