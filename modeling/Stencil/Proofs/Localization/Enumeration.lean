import Stencil.Proofs.Storage.Listing

namespace Stencil

/-- A name with one of the suffixes of catalog files. -/
def isCatalogName (name : String) : Bool :=
  catalogSuffixes.contains (splitSuffix name).2

/-- The path of a file in the directory for a locale. -/
def localePath (directory : FilePath) (locale name : String) : FilePath :=
  (directory.child locale).child name

namespace Disk

/-- A catalog file with this content stands in the directory for a locale. -/
structure Contributes (d : Disk) (directory : FilePath) (locale name : String) (content : Bytes) : Prop where
  inside : locale ≠ ".."
  suffixed : isCatalogName name = true
  stands : d.find? (localePath directory locale name) = some (.file content)

/-- Whether any catalog file of this name stands in the directory for a locale. -/
def counts (d : Disk) (directory : FilePath) (locale name : String) : Bool :=
  locale != ".." && isCatalogName name && d.isFile (localePath directory locale name)

/-- The entries of a catalog file; there are none if it does not stand there or cannot be read. -/
def entriesUnder (d : Disk) (y : Yaml.Library) (directory : FilePath) (locale name : String) : Entries Empty :=
  if d.counts directory locale name then
    (d.readYamlMapping y (localePath directory locale name)).toOption.getD []
  else []

end Disk

variable {d d' : Disk} {directory p : FilePath} {locale name domain : String} {content : Bytes}

section Names

theorem splitSuffix_append (name : String) : (splitSuffix name).1 ++ (splitSuffix name).2 = name := by
  unfold splitSuffix
  dsimp only
  split
  · rename_i before rest
    split
    · exact String.append_empty
    · -- Read from its end, the name is what stands behind the last dot, the dot, and what stands before it.
      have parts : name.toList.reverse = name.toList.reverse.takeWhile (· != '.') ++ '.' :: before := by
        rw [← rest]
        exact (List.prefix_iff_eq_append.mp (List.takeWhile_prefix _)).symm
      have letters := congrArg List.reverse parts
      rw [List.reverse_reverse, List.reverse_append, List.reverse_cons, List.append_assoc, List.singleton_append]
        at letters
      rw [← String.ofList_append, ← letters, String.ofList_toList]
  · exact String.append_empty

theorem catalogSuffix_unique {stem stem' suffix suffix' : String} (known : suffix ∈ catalogSuffixes)
    (known' : suffix' ∈ catalogSuffixes) (same : stem ++ suffix = stem' ++ suffix') :
    stem = stem' ∧ suffix = suffix' := by
  -- The last three letters of the two suffixes are not the same.
  have apart (stem stem' : String) : stem ++ ".yaml" ≠ stem' ++ ".yml" := by
    intro same
    have letters := congrArg String.toList same
    rw [String.toList_append, String.toList_append] at letters
    have ends : stem.toList ++ ['.'] ++ ['y', 'a', 'm', 'l'] = stem'.toList ++ ['.', 'y', 'm', 'l'] := by
      simpa using letters
    cases (List.append_inj' ends rfl).2
  simp only [catalogSuffixes, List.mem_cons, List.not_mem_nil, or_false] at known known'
  rcases known with rfl | rfl <;> rcases known' with rfl | rfl
  · exact ⟨(String.append_left_inj _).mp same, rfl⟩
  · exact absurd same (apart _ _)
  · exact absurd same.symm (apart _ _)
  · exact ⟨(String.append_left_inj _).mp same, rfl⟩

/-- A name ends in the suffix of a catalog file in one way only. -/
theorem splitSuffix_of_isCatalogName {suffix : String} (known : suffix ∈ catalogSuffixes)
    (suffixed : isCatalogName (domain ++ suffix) = true) : splitSuffix (domain ++ suffix) = (domain, suffix) := by
  have found : (splitSuffix (domain ++ suffix)).2 ∈ catalogSuffixes := List.contains_iff_mem.mp suffixed
  obtain ⟨stem, end'⟩ := catalogSuffix_unique found known (splitSuffix_append (domain ++ suffix))
  exact Prod.ext stem end'

end Names

section Paths

/-- The order in which catalog files are read: by locale, and by name in each locale. -/
def ReadBefore (x y : String × FilePath) : Prop :=
  x.1 < y.1 ∨ x.1 = y.1 ∧ x.2.fileName < y.2.fileName

theorem not_readBefore_of_readBefore {x y : String × FilePath} (before : ReadBefore x y) : ¬ReadBefore y x := by
  rintro (back | ⟨same, back⟩)
  · rcases before with ahead | ⟨same, -⟩
    · exact String.lt_irrefl _ (String.lt_trans ahead back)
    · exact String.lt_irrefl y.1 (same ▸ back)
  · rcases before with ahead | ⟨-, ahead⟩
    · exact String.lt_irrefl y.1 (same ▸ ahead)
    · exact String.lt_irrefl _ (String.lt_trans ahead back)

instance : Std.Irrefl ReadBefore where
  irrefl _ before := not_readBefore_of_readBefore before before

instance : Std.Antisymm ReadBefore where
  antisymm _ _ before back := absurd back (not_readBefore_of_readBefore before)

theorem mem_catalogPaths (formed : d.WellFormed) {x : String × FilePath} :
    x ∈ catalogPaths d directory ↔
      ∃ locale name content, x = (locale, localePath directory locale name) ∧
        d.Contributes directory locale name content := by
  rw [catalogPaths, List.mem_flatMap]
  constructor
  · rintro ⟨localeDir, listed, member⟩
    obtain ⟨inDirectory, isDirectory⟩ := List.mem_filter.mp listed
    obtain ⟨place, locale, e, -, rfl, stands⟩ := Disk.mem_list.mp inDirectory
    obtain ⟨q, chosen, rfl⟩ := List.mem_map.mp member
    obtain ⟨inLocale, kept⟩ := List.mem_filter.mp chosen
    obtain ⟨-, name, -, -, rfl, -⟩ := Disk.mem_list.mp inLocale
    obtain ⟨isFile, suffixed⟩ := (Bool.and_eq_true ..).mp kept
    obtain ⟨content, found⟩ := Disk.isFile_iff.mp isFile
    rw [FilePath.suffix, Disk.fileName_child] at suffixed
    refine ⟨locale, name, content, by rw [Disk.fileName_child]; rfl, ?_, suffixed, found⟩
    rintro rfl
    exact formed.named _ stands (List.mem_append_right _ List.mem_cons_self)
  · rintro ⟨locale, name, content, rfl, inside, suffixed, stands⟩
    have down : name ≠ ".." := by
      rintro rfl
      contradiction
    obtain ⟨inLocale, there⟩ := Disk.mem_list_of_find? formed down stands
    obtain ⟨inDirectory, -⟩ := Disk.mem_list_of_find? formed inside there
    refine ⟨_, List.mem_filter.mpr ⟨inDirectory, Disk.isDirectory_iff.mpr there⟩, List.mem_map.mpr
      ⟨localePath directory locale name, ?_, by rw [Disk.fileName_child]⟩⟩
    · refine List.mem_filter.mpr ⟨inLocale, (Bool.and_eq_true ..).mpr ⟨Disk.isFile_iff.mpr ⟨content, stands⟩, ?_⟩⟩
      rwa [FilePath.suffix, localePath, Disk.fileName_child]

theorem catalogPaths_increasing (formed : d.WellFormed) (directory : FilePath) :
    (catalogPaths d directory).Pairwise ReadBefore := by
  rw [catalogPaths, List.pairwise_flatMap]
  constructor
  · intro localeDir _
    rw [List.pairwise_map]
    exact ((Disk.list_increasing formed localeDir).filter _).imp fun before => .inr ⟨rfl, before⟩
  · refine ((Disk.list_increasing formed directory).filter _).imp fun {first second} before x member y member' => ?_
    obtain ⟨_, -, rfl⟩ := List.mem_map.mp member
    obtain ⟨_, -, rfl⟩ := List.mem_map.mp member'
    exact .inl before

theorem catalogPaths_congr (formed : d.WellFormed) (formed' : d'.WellFormed)
    (same : ∀ locale name content, d'.Contributes directory locale name content ↔
      d.Contributes directory locale name content) : catalogPaths d' directory = catalogPaths d directory := by
  refine (catalogPaths_increasing formed' directory).eq_of_mem_iff
    (catalogPaths_increasing formed directory) fun x => ?_
  rw [mem_catalogPaths formed, mem_catalogPaths formed']
  simp only [same]

theorem counts_iff :
    d.counts directory locale name = true ↔ ∃ content, d.Contributes directory locale name content := by
  rw [Disk.counts, Bool.and_eq_true, Bool.and_eq_true, bne_iff_ne, Disk.isFile_iff]
  constructor
  · rintro ⟨⟨inside, suffixed⟩, content, stands⟩
    exact ⟨content, inside, suffixed, stands⟩
  · rintro ⟨content, inside, suffixed, stands⟩
    exact ⟨⟨inside, suffixed⟩, content, stands⟩

/-- The files for one locale and domain: at most one with each suffix, the shorter suffix last. -/
theorem filter_catalogPaths (formed : d.WellFormed) (directory : FilePath) (locale domain : String) :
    (catalogPaths d directory).filter (fun x => x.1 = locale ∧ x.2.stem = domain) =
      (catalogSuffixes.filter fun suffix => d.counts directory locale (domain ++ suffix)).map fun suffix =>
        (locale, localePath directory locale (domain ++ suffix)) := by
  have increasing : (catalogSuffixes.map fun suffix =>
      (locale, localePath directory locale (domain ++ suffix))).Pairwise ReadBefore := by
    have before : (localePath directory locale (domain ++ ".yaml")).fileName <
        (localePath directory locale (domain ++ ".yml")).fileName := by
      rw [localePath, localePath, Disk.fileName_child, Disk.fileName_child, String.lt_iff, String.toList_append,
        String.toList_append]
      exact List.append_left_lt (by decide)
    exact List.pairwise_pair.mpr (.inr ⟨rfl, before⟩)
  refine ((catalogPaths_increasing formed directory).filter _).eq_of_mem_iff
    (increasing.sublist (List.filter_sublist.map _)) fun x => ?_
  rw [List.mem_filter, mem_catalogPaths formed, List.mem_map, decide_eq_true_eq]
  constructor
  · rintro ⟨⟨locale', name, content, rfl, contributes⟩, rfl, rfl⟩
    have whole : (localePath directory locale' name).stem ++ (splitSuffix name).2 = name := by
      rw [FilePath.stem, localePath, Disk.fileName_child, splitSuffix_append]
    refine ⟨(splitSuffix name).2, List.mem_filter.mpr ⟨List.contains_iff_mem.mp contributes.suffixed, ?_⟩, ?_⟩
    · rw [whole]
      exact counts_iff.mpr ⟨content, contributes⟩
    · rw [whole]
  · rintro ⟨suffix, chosen, rfl⟩
    obtain ⟨known, there⟩ := List.mem_filter.mp chosen
    obtain ⟨content, contributes⟩ := counts_iff.mp there
    refine ⟨⟨locale, _, content, rfl, contributes⟩, rfl, ?_⟩
    rw [FilePath.stem, localePath, Disk.fileName_child, splitSuffix_of_isCatalogName known contributes.suffixed]

end Paths

end Stencil
