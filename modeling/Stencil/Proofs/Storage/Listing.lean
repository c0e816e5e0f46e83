import Stencil.Localization.Directory
import Stencil.Proofs.Failing
import Stencil.Proofs.Storage.Text
import Mathlib.Data.List.Sort

namespace Stencil.Disk

/-- Each place is taken once, and no name in it goes up. -/
structure WellFormed (d : Disk) : Prop where
  distinct : (d.entries.map (·.1)).Nodup
  named : ∀ x ∈ d.entries, ".." ∉ x.1

variable {d d' : Disk} {p q : FilePath} {place : Place} {name : String} {e : Entry}

section Entries

theorem entry?_eq_some_iff (formed : d.WellFormed) (deep : place ≠ []) :
    d.entry? place = some e ↔ (place, e) ∈ d.entries := by
  unfold entry?
  rw [if_neg deep, Option.map_eq_some_iff]
  constructor
  · rintro ⟨⟨at', e'⟩, found, rfl⟩
    have same : at' = place := by simpa using List.find?_some found
    exact same ▸ List.mem_of_find?_eq_some found
  · intro member
    have there : (d.entries.find? (·.1 == place)).isSome := List.find?_isSome.mpr ⟨_, member, by simp⟩
    obtain ⟨x, found⟩ := Option.isSome_iff_exists.mp there
    have same : x.1 = place := by simpa using List.find?_some found
    have all : x = (place, e) :=
      List.inj_on_of_nodup_map formed.distinct (List.mem_of_find?_eq_some found) member same
    exact ⟨x, found, by rw [all]⟩

theorem WellFormed.of_perm (formed : d.WellFormed) (shuffled : d'.entries.Perm d.entries) : d'.WellFormed where
  distinct := (shuffled.map _).nodup_iff.mpr formed.distinct
  named x member := formed.named x (shuffled.mem_iff.mp member)

theorem entry?_of_perm (formed : d.WellFormed) (shuffled : d'.entries.Perm d.entries) (place : Place) :
    d'.entry? place = d.entry? place := by
  by_cases root : place = []
  · unfold entry?
    rw [if_pos root, if_pos root]
  · refine Option.ext fun e => ?_
    rw [entry?_eq_some_iff formed root, entry?_eq_some_iff (formed.of_perm shuffled) root, shuffled.mem_iff]

end Entries

section Walking

theorem walk_through (d : Disk) (place : Place) (first second : List String) :
    d.walk place (first ++ second) = d.walk place first >>= fun middle => d.walk middle second := by
  induction first generalizing place with
  | nil => rfl
  | cons name first ih =>
    rw [List.cons_append, walk, walk]
    split
    · rfl
    · rfl
    · split
      · rfl
      · exact ih _

/-- Walks are the same on disks where the same things stand at the same places. -/
theorem walk_congr (same : ∀ place, d'.entry? place = d.entry? place) (place : Place) (names : List String) :
    d'.walk place names = d.walk place names := by
  induction names generalizing place with
  | nil => rfl
  | cons name names ih => rw [walk, walk, same place, ih]

theorem find?_congr (same : ∀ place, d'.entry? place = d.entry? place) (here : d'.here = d.here) (p : FilePath) :
    d'.reach p = d.reach p ∧ d'.find? p = d.find? p := by
  have reached : d'.reach p = d.reach p := by rw [reach, reach, here, walk_congr same]
  refine ⟨reached, ?_⟩
  rw [find?, find?, reached]
  split
  · exact same _
  · rfl

theorem walk_one {middle : Place} (moved : d.walk middle [name] = .ok place) :
    d.entry? middle = some .directory ∧ place = if name = ".." then middle.dropLast else middle ++ [name] := by
  rw [walk] at moved
  split at moved
  · cases moved
  · cases moved
  · rename_i stands
    split at moved
    · cases moved
    · cases moved
      exact ⟨stands, rfl⟩

theorem intercalate_size_le (s : String) (names : List String) (name : String) :
    (s.intercalate names).utf8ByteSize ≤ (s.intercalate (names ++ [name])).utf8ByteSize := by
  induction names with
  | nil => exact Nat.zero_le _
  | cons first names ih =>
    cases names with
    | nil =>
      rw [List.singleton_append, String.intercalate_cons_cons, String.intercalate_singleton,
        String.utf8ByteSize_append, String.utf8ByteSize_append]
      omega
    | cons second names =>
      simp only [List.cons_append, String.intercalate_cons_cons, String.utf8ByteSize_append]
      exact Nat.add_le_add_left ih _

theorem text_child (p : FilePath) (name : String) :
    (p.child name).text = p.start.text ++ "/".intercalate (p.names ++ [name]) := by
  rw [FilePath.text]
  split
  · rename_i empty
    exact absurd empty (by simp [FilePath.child])
  · rfl

/-- The text of a path is no longer than that of a path into it; only the path without names has a text that is not
a part of the other, and that one is short. -/
theorem text_size_le_limit (inside : (p.child name).text.utf8ByteSize ≤ pathLimit) :
    p.text.utf8ByteSize ≤ pathLimit := by
  rw [text_child, String.utf8ByteSize_append] at inside
  rw [FilePath.text]
  split
  · decide
  · rw [String.utf8ByteSize_append]
    exact (Nat.add_le_add_left (intercalate_size_le "/" p.names name) _).trans inside

/-- Whoever gets anywhere has got to the directory it stands in. -/
theorem reach_of_child (reached : d.reach (p.child name) = .ok place) :
    ∃ middle, d.reach p = .ok middle ∧ d.entry? middle = some .directory ∧
      place = if name = ".." then middle.dropLast else middle ++ [name] := by
  unfold reach at reached ⊢
  split at reached
  · cases reached
  · rename_i clear
    split at reached
    · cases reached
    · rename_i short
      have clear' : ¬p.hasZero = true := by
        intro zero
        refine clear ?_
        rw [FilePath.hasZero, FilePath.child, List.any_append]
        exact Bool.or_eq_true_iff.mpr (.inl zero)
      have short' : ¬pathLimit < p.text.utf8ByteSize :=
        Nat.not_lt.mpr (text_size_le_limit (Nat.not_lt.mp short))
      rw [if_neg clear', if_neg short']
      rw [FilePath.child, walk_through] at reached
      obtain ⟨middle, first, last⟩ := exists_of_bind_ok reached
      exact ⟨middle, first, walk_one last⟩

end Walking

section Listing

/-- The last name of a place directly in another one. -/
def nameUnder? (place inner : Place) : Option String :=
  match inner.getLast? with
  | some name => if inner.dropLast = place then some name else none
  | none => none

theorem nameUnder?_eq_some_iff {inner : Place} : nameUnder? place inner = some name ↔ inner = place ++ [name] := by
  rw [nameUnder?]
  constructor
  · intro chosen
    split at chosen
    · rename_i last found
      split at chosen
      · rename_i above
        cases chosen
        rw [← above, List.dropLast_append_getLast? _ found]
      · cases chosen
    · cases chosen
  · rintro rfl
    rw [List.getLast?_concat, List.dropLast_concat]
    exact if_pos rfl

theorem namesIn_eq (d : Disk) (place : Place) :
    d.namesIn place = (d.entries.map (·.1)).filterMap (nameUnder? place) := by
  rw [List.filterMap_map]
  rfl

theorem mem_namesIn : name ∈ d.namesIn place ↔ ∃ e, (place ++ [name], e) ∈ d.entries := by
  rw [namesIn_eq, List.mem_filterMap]
  constructor
  · rintro ⟨inner, member, chosen⟩
    obtain ⟨⟨_, e⟩, listed, rfl⟩ := List.mem_map.mp member
    exact ⟨e, nameUnder?_eq_some_iff.mp chosen ▸ listed⟩
  · rintro ⟨e, listed⟩
    exact ⟨_, List.mem_map.mpr ⟨_, listed, rfl⟩, nameUnder?_eq_some_iff.mpr rfl⟩

theorem nodup_namesIn (formed : d.WellFormed) (place : Place) : (d.namesIn place).Nodup := by
  rw [namesIn_eq]
  refine formed.distinct.filterMap fun inner inner' name here here' => ?_
  rw [nameUnder?_eq_some_iff.mp here, nameUnder?_eq_some_iff.mp here']

theorem fileName_child (p : FilePath) (name : String) : (p.child name).fileName = name := by
  rw [FilePath.fileName, FilePath.child, List.getLast?_concat]
  rfl

/-- What is listed of a directory is what stands directly in it. -/
theorem mem_list : q ∈ d.list p ↔
    ∃ place name e, d.reach p = .ok place ∧ q = p.child name ∧ (place ++ [name], e) ∈ d.entries := by
  rw [list]
  cases d.reach p with
  | error fault => exact ⟨nofun, fun ⟨_, _, _, reached, _⟩ => nomatch reached⟩
  | ok place =>
    rw [List.mem_map]
    constructor
    · rintro ⟨name, member, rfl⟩
      obtain ⟨e, there⟩ := mem_namesIn.mp (List.mem_mergeSort.mp member)
      exact ⟨place, name, e, rfl, rfl, there⟩
    · rintro ⟨_, name, e, ⟨⟩, rfl, there⟩
      exact ⟨name, List.mem_mergeSort.mpr (mem_namesIn.mpr ⟨e, there⟩), rfl⟩

/-- What is found in a directory is listed there, if the way to it does not go up. -/
theorem mem_list_of_find? (formed : d.WellFormed) (down : name ≠ "..") (found : d.find? (p.child name) = some e) :
    p.child name ∈ d.list p ∧ d.find? p = some .directory := by
  rw [find?] at found
  split at found
  · rename_i place reached
    obtain ⟨middle, above, stands, rfl⟩ := reach_of_child reached
    rw [if_neg down, entry?_eq_some_iff formed (List.append_ne_nil_of_right_ne_nil _ (List.cons_ne_nil _ _))] at found
    refine ⟨mem_list.mpr ⟨middle, name, e, above, rfl, found⟩, ?_⟩
    rw [find?, above]
    exact stands
  · cases found

theorem isDirectory_iff : d.isDirectory p = true ↔ d.find? p = some .directory := by
  rw [isDirectory]
  split
  · rename_i found
    exact ⟨fun _ => found, fun _ => rfl⟩
  · rename_i other
    exact ⟨nofun, fun found => (other found).elim⟩

theorem ask_isDirectory_iff : d.ask p isDirectory = .ok true ↔ d.isDirectory p = true := by
  rcases d.ask_cases p isDirectory with asked | ⟨long, asked⟩
  · rw [asked, Except.ok.injEq]
  · rw [asked, isDirectory_iff, find?, long]
    constructor
    · intro answer
      cases answer
    · intro found
      cases found

/-- Each name is listed once, and behind all names that come before it. -/
theorem list_increasing (formed : d.WellFormed) (p : FilePath) :
    (d.list p).Pairwise fun q q' => q.fileName < q'.fileName := by
  rw [list]
  cases d.reach p with
  | error fault => exact .nil
  | ok place =>
    have ordered : ((d.namesIn place).mergeSort).Pairwise fun a b => decide (a ≤ b) = true :=
      List.pairwise_mergeSort (fun a b c => by simpa using String.le_trans)
        (fun a b => by simpa using String.le_total a b) _
    have distinct : ((d.namesIn place).mergeSort).Nodup :=
      (List.mergeSort_perm _ _).nodup_iff.mpr (nodup_namesIn formed place)
    rw [List.pairwise_map]
    refine (ordered.and distinct).imp fun {name name'} both => ?_
    rw [fileName_child, fileName_child]
    exact String.not_le.mp fun back => both.2 (String.le_antisymm (of_decide_eq_true both.1) back)

end Listing

end Stencil.Disk
