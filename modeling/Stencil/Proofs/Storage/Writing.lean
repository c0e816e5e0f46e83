import Stencil.Localization.Skeleton
import Stencil.Proofs.Storage.Listing

namespace Stencil.Disk

variable {d d' : Disk} {p q : FilePath} {place : Place}

section Entries

theorem entry?_put (d : Disk) (deep : place ≠ []) (e : Entry) (other : Place) :
    entry? (d.put place e) other = if other = place then some e else d.entry? other := by
  unfold entry? put
  by_cases root : other = []
  · rw [if_pos root, if_pos root, if_neg (root ▸ deep.symm)]
  rw [if_neg root, if_neg root]
  split
  · rename_i taken
    have kept : ((·.1 == other) ∘ fun old : Place × Entry => if old.1 = place then (place, e) else old) =
        (·.1 == other) := by
      funext old
      by_cases same : old.1 = place <;> simp [same]
    rw [List.find?_map, kept]
    split
    · rename_i same
      obtain ⟨old, member, here⟩ := List.any_eq_true.mp taken
      have there : (d.entries.find? (·.1 == other)).isSome := List.find?_isSome.mpr ⟨old, member, same ▸ here⟩
      obtain ⟨first, found⟩ := Option.isSome_iff_exists.mp there
      have at' : first.1 = other := by simpa using List.find?_some found
      rw [found, Option.map_some, Option.map_some, if_pos (at'.trans same)]
    · rename_i apart
      cases found : d.entries.find? (·.1 == other) with
      | none => rfl
      | some old =>
        have at' : old.1 = other := by simpa using List.find?_some found
        rw [Option.map_some, if_neg (at' ▸ apart)]
  · rename_i free
    have missing : d.entries.find? (·.1 == place) = none := by
      rw [List.find?_eq_none]
      exact fun old member here => free (List.any_eq_true.mpr ⟨old, member, here⟩)
    rw [List.find?_append]
    split
    · rename_i same
      rw [same, missing]
      simp
    · rename_i apart
      simp [Ne.symm apart]

theorem entry?_drop (d : Disk) (deep : place ≠ []) (other : Place) :
    entry? (d.drop place) other = if other = place then none else d.entry? other := by
  unfold entry? drop
  by_cases root : other = []
  · rw [if_pos root, if_pos root, if_neg (root ▸ deep.symm)]
  rw [if_neg root, if_neg root, List.find?_filter]
  split
  · rename_i same
    rw [same, List.find?_eq_none.mpr, Option.map_none]
    simp
  · rename_i apart
    congr 2
    funext x
    by_cases here : x.1 = other
    · simp [here, apart]
    · simp [here]

theorem here_put (d : Disk) (place : Place) (e : Entry) : (d.put place e).here = d.here := by
  unfold put
  split <;> rfl

end Entries

/-- Away from some places stands what has stood there, or else a directory where nothing has. -/
def Touches (d : Disk) (touched : List Place) (after : Disk) : Prop :=
  ∀ q ∉ touched, after.entry? q = d.entry? q ∨ d.entry? q = none ∧ after.entry? q = some .directory

namespace Touches

variable {touched more : List Place} {after later : Disk}

theorem refl (d : Disk) : d.Touches touched d :=
  fun _ _ => .inl rfl

theorem mono (touches : d.Touches touched after) (within : touched ⊆ more) : d.Touches more after :=
  fun q away => touches q fun member => away (within member)

theorem trans (first : d.Touches touched after) (second : after.Touches touched later) : d.Touches touched later := by
  intro q away
  rcases first q away with same | ⟨nothing, new⟩
  · rcases second q away with same' | ⟨nothing, new⟩
    · exact .inl (same'.trans same)
    · exact .inr ⟨same ▸ nothing, new⟩
  · rcases second q away with same' | ⟨nothing', _⟩
    · exact .inr ⟨nothing, same'.trans new⟩
    · cases new.symm.trans nothing'

/-- A place where the same stands as before has not been touched. -/
theorem spare (touches : d.Touches (touched ++ [place]) after) (same : after.entry? place = d.entry? place) :
    d.Touches touched after := by
  intro q away
  by_cases here : q = place
  · exact .inl (here ▸ same)
  · refine touches q fun member => ?_
    exact (List.mem_append.mp member).elim away fun last => here (List.mem_singleton.mp last)

theorem put (d : Disk) (deep : place ≠ []) (e : Entry) : d.Touches [place] (d.put place e) := by
  intro q away
  rw [entry?_put d deep, if_neg (List.ne_of_not_mem_cons away)]
  exact .inl rfl

end Touches

section Walking

/-- Whoever gets somewhere gets there too where no directory is missing. -/
theorem walk_of_directories (kept : ∀ q, d.entry? q = some .directory → d'.entry? q = some .directory)
    {start : Place} {names : List String} (walked : d.walk start names = .ok place) :
    d'.walk start names = .ok place := by
  induction names generalizing start with
  | nil => exact walked
  | cons name names ih =>
    rw [walk] at walked ⊢
    split at walked
    · cases walked
    · cases walked
    · rename_i stands
      rw [kept start stands]
      split at walked
      · cases walked
      · rename_i short
        exact (if_neg short).trans (ih walked)

theorem reach_of_directories (here : d'.here = d.here)
    (kept : ∀ q, d.entry? q = some .directory → d'.entry? q = some .directory) (reached : d.reach p = .ok place) :
    d'.reach p = .ok place := by
  unfold reach at reached ⊢
  split at reached
  · cases reached
  · rename_i clear
    split at reached
    · cases reached
    · rename_i short
      rw [if_neg clear, if_neg short, here]
      exact walk_of_directories kept reached

theorem reach_put {e : Entry} (deep : place ≠ []) (free : d.entry? place ≠ some .directory) {other : Place}
    (reached : d.reach p = .ok other) : (d.put place e).reach p = .ok other := by
  refine reach_of_directories (here_put d place e) (fun r stands => ?_) reached
  rw [entry?_put d deep, if_neg (by rintro rfl; exact free stands)]
  exact stands

theorem reach_drop (deep : place ≠ []) (free : d.entry? place ≠ some .directory) {other : Place}
    (reached : d.reach p = .ok other) : (d.drop place).reach p = .ok other := by
  have here : (d.drop place).here = d.here := rfl
  refine reach_of_directories here (fun r stands => ?_) reached
  rw [entry?_drop d deep, if_neg (by rintro rfl; exact free stands)]
  exact stands

theorem intercalate_size_le_longer (s : String) (names : List String) (name more : String) :
    (s.intercalate (names ++ [name])).utf8ByteSize ≤ (s.intercalate (names ++ [name ++ more])).utf8ByteSize := by
  induction names with
  | nil => simp
  | cons first names ih =>
    rw [List.cons_append, List.cons_append, String.intercalate_cons_of_ne_nil (by simp),
      String.intercalate_cons_of_ne_nil (by simp)]
    simpa only [String.utf8ByteSize_append] using Nat.add_le_add_left ih _

/-- Whoever gets to a name gets to the names it begins with. -/
theorem reach_child_of_longer {name more : String} (down : name ≠ "..") (down' : name ++ more ≠ "..")
    (reached : d.reach (q.child (name ++ more)) = .ok place) :
    ∃ middle, place = middle ++ [name ++ more] ∧ d.reach (q.child name) = .ok (middle ++ [name]) := by
  unfold reach at reached ⊢
  split at reached
  · cases reached
  · rename_i clear
    split at reached
    · cases reached
    · rename_i short
      have clear' : ¬(q.child name).hasZero = true := by
        simp only [FilePath.hasZero, FilePath.child, List.any_append, List.any_cons, List.any_nil, Bool.or_false,
          Bool.or_eq_true, String.toList_append, List.contains_iff_mem, List.mem_append] at clear ⊢
        tauto
      have short' : ¬pathLimit < (q.child name).text.utf8ByteSize := by
        have longer := intercalate_size_le_longer "/" q.names name more
        rw [text_child, String.utf8ByteSize_append] at short ⊢
        omega
      rw [if_neg clear', if_neg short']
      simp only [FilePath.child, walk_through] at reached ⊢
      obtain ⟨middle, first, last⟩ := exists_of_bind_ok reached
      obtain ⟨stands, rfl⟩ := walk_one last
      refine ⟨middle, if_neg down', ?_⟩
      have small : ¬nameLimit < name.utf8ByteSize := by
        intro long
        rw [walk, stands] at last
        dsimp only at last
        rw [if_pos (by rw [String.utf8ByteSize_append]; omega)] at last
        cases last
      have one : d.walk middle [name] = .ok (middle ++ [name]) := by
        rw [walk, stands]
        dsimp only
        rw [if_neg small, if_neg down, walk]
      exact first ▸ one

end Walking

section Directories

theorem makeDirectory_eq_ok {made : Disk} (answer : d.makeDirectory p = .ok made) :
    ∃ place, place ≠ [] ∧ d.entry? place = none ∧ made = d.put place .directory := by
  unfold makeDirectory at answer
  split at answer
  · cases answer
  · rename_i place reached
    split at answer
    · cases answer
    · rename_i nothing _
      cases answer
      refine ⟨place, ?_, nothing, rfl⟩
      rintro rfl
      cases nothing
    · cases answer
    · cases answer

theorem makeDirectory_touches {made : Disk} (answer : d.makeDirectory p = .ok made) : d.Touches [] made := by
  obtain ⟨place, deep, nothing, rfl⟩ := makeDirectory_eq_ok answer
  intro q _
  rw [entry?_put d deep]
  split
  · rename_i same
    exact .inr ⟨same ▸ nothing, rfl⟩
  · exact .inl rfl

/-- Making directories touches nothing, whether or not it succeeds. -/
theorem tryMakeDirectories_touches (d : Disk) (start : PathStart) (names : List String) :
    d.Touches [] (d.tryMakeDirectories start names).1 := by
  induction names with
  | nil => exact .refl d
  | cons name above ih =>
    rw [tryMakeDirectories]
    dsimp only
    split
    · rename_i answer
      exact makeDirectory_touches answer
    · split
      · rename_i stopped
        rwa [stopped] at ih
      · rename_i stopped
        rw [stopped] at ih
        split
        · rename_i answer
          exact ih.trans (makeDirectory_touches answer)
        · exact ih
        · exact ih
    · exact .refl d

end Directories

section Files

variable {content : Bytes}

theorem write_eq_ok {written : Disk} (answer : d.write p content = .ok written) :
    ∃ place, d.reach p = .ok place ∧ place ≠ [] ∧ d.entry? place ≠ some .directory ∧
      written = d.put place (.file content) := by
  unfold write at answer
  split at answer
  · cases answer
  · rename_i place reached
    have other : d.entry? place ≠ some .directory := by
      intro stands
      rw [stands] at answer
      cases answer
    have deep : place ≠ [] := by
      rintro rfl
      exact other rfl
    split at answer
    · cases answer
    · cases answer
      exact ⟨place, reached, deep, other, rfl⟩
    · cases answer
    · cases answer

theorem replace_of_directory {old new : Place} (source : d.reach p = .ok old) (target : d.reach q = .ok new)
    (stands : d.entry? old = some (.file content)) (taken : d.entry? new = some .directory) :
    d.replace p q = .error ⟨.isDirectory, p, some q⟩ := by
  rw [replace, source, target]
  dsimp only
  rw [stands, taken]

theorem replace_of_free {old new : Place} (source : d.reach p = .ok old) (target : d.reach q = .ok new)
    (stands : d.entry? old = some (.file content)) (free : d.entry? new ≠ some .directory) :
    d.replace p q = .ok ((d.drop old).put new (.file content)) := by
  rw [replace, source, target]
  dsimp only
  rw [stands]
  cases there : d.entry? new with
  | none => rfl
  | some e =>
    cases e with
    | file _ => rfl
    | directory => exact absurd there free

theorem besides_child (q : FilePath) (name : String) : besides (q.child name) = q.child (name ++ ".tmp-rt") := by
  rw [besides, fileName_child, FilePath.child, FilePath.child, List.dropLast_concat]

/-- A file that is written aside first is not written at all, or stays there because a directory is in its way, or gets
where it belongs. -/
theorem writeAside_cases (d : Disk) (q : FilePath) {name : String} (down : name ≠ "..")
    (down' : name ++ ".tmp-rt" ≠ "..") (content : Bytes) :
    (∃ e, d.writeAside (q.child name) content = (d, .error e)) ∨
      ∃ place aside, place ≠ [] ∧ aside ≠ [] ∧ place ≠ aside ∧ d.reach (q.child name) = .ok place ∧
        d.reach (besides (q.child name)) = .ok aside ∧ d.entry? aside ≠ some .directory ∧
        (d.entry? place = some .directory ∧ d.writeAside (q.child name) content =
            (d.put aside (.file content), .error ⟨.isDirectory, besides (q.child name), some (q.child name)⟩) ∨
          d.entry? place ≠ some .directory ∧ d.writeAside (q.child name) content =
            (((d.put aside (.file content)).drop aside).put place (.file content), .ok ())) := by
  rw [writeAside]
  cases written : d.write (besides (q.child name)) content with
  | error e => exact .inl ⟨e, rfl⟩
  | ok d' =>
    obtain ⟨aside, reached, deep, free, rfl⟩ := write_eq_ok written
    obtain ⟨place, deep', apart, reached'⟩ :
        ∃ place, place ≠ [] ∧ place ≠ aside ∧ d.reach (q.child name) = .ok place := by
      rw [besides_child] at reached
      obtain ⟨middle, rfl, reached'⟩ := reach_child_of_longer down down' reached
      refine ⟨_, by simp, fun same => ?_, reached'⟩
      have sizes := congrArg String.utf8ByteSize (List.singleton_inj.mp (List.append_cancel_left same))
      have seven : ".tmp-rt".utf8ByteSize = 7 := rfl
      rw [String.utf8ByteSize_append] at sizes
      omega
    have stands : entry? (d.put aside (.file content)) aside = some (.file content) := by
      rw [entry?_put d deep, if_pos rfl]
    have same : entry? (d.put aside (.file content)) place = d.entry? place := by
      rw [entry?_put d deep, if_neg apart]
    refine .inr ⟨place, aside, deep', deep, apart, reached', reached, free, ?_⟩
    dsimp only
    by_cases taken : d.entry? place = some .directory
    · refine .inl ⟨taken, ?_⟩
      rw [replace_of_directory (reach_put deep free reached) (reach_put deep free reached') stands (same.trans taken)]
    · refine .inr ⟨taken, ?_⟩
      rw [replace_of_free (reach_put deep free reached) (reach_put deep free reached') stands (same ▸ taken)]

/-- What the operation touches: nothing, or the place aside, or both places. -/
theorem writeAside_touches (d : Disk) (q : FilePath) {name : String} (down : name ≠ "..")
    (down' : name ++ ".tmp-rt" ≠ "..") (content : Bytes) :
    ∃ after outcome, d.writeAside (q.child name) content = (after, outcome) ∧
      (after = d ∧ (∃ e, outcome = .error e) ∨
        ∃ place aside, place ≠ aside ∧ after.reach (q.child name) = .ok place ∧
          after.reach (besides (q.child name)) = .ok aside ∧
          (outcome = .ok () ∧ d.Touches [place, aside] after ∧ after.entry? place = some (.file content) ∧
              after.entry? aside = none ∨
            outcome = .error ⟨.isDirectory, besides (q.child name), some (q.child name)⟩ ∧ d.Touches [aside] after ∧
              after.entry? place = some .directory ∧ after.entry? aside = some (.file content))) := by
  rcases d.writeAside_cases q down down' content with
    ⟨e, written⟩ | ⟨place, aside, deep, deep', apart, reached, reached', free, ⟨taken, written⟩ | ⟨free', written⟩⟩
  · exact ⟨d, _, written, .inl ⟨rfl, e, rfl⟩⟩
  · refine ⟨_, _, written, .inr ⟨place, aside, apart, ?_, ?_, .inr ⟨rfl, .put d deep' _, ?_, ?_⟩⟩⟩
    · exact reach_put deep' free reached
    · exact reach_put deep' free reached'
    · rw [entry?_put d deep', if_neg apart]
      exact taken
    · rw [entry?_put d deep', if_pos rfl]
  · have there (r : Place) : entry? (((d.put aside (.file content)).drop aside).put place (.file content)) r =
        if r = place then some (.file content) else if r = aside then none else d.entry? r := by
      rw [entry?_put _ deep, entry?_drop _ deep', entry?_put d deep']
      split
      · rfl
      · split <;> rfl
    have written' : entry? (d.put aside (.file content)) aside ≠ some .directory := by
      rw [entry?_put d deep', if_pos rfl]
      nofun
    have free'' : entry? ((d.put aside (.file content)).drop aside) place ≠ some .directory := by
      rw [entry?_drop _ deep', if_neg apart, entry?_put d deep', if_neg apart]
      exact free'
    refine ⟨_, _, written, .inr ⟨place, aside, apart, ?_, ?_, .inl ⟨rfl, fun r away => ?_, ?_, ?_⟩⟩⟩
    · exact reach_put deep free'' (reach_drop deep' written' (reach_put deep' free reached))
    · exact reach_put deep free'' (reach_drop deep' written' (reach_put deep' free reached'))
    · obtain ⟨other, away⟩ := List.ne_and_not_mem_of_not_mem_cons away
      rw [there, if_neg other, if_neg (List.ne_of_not_mem_cons away)]
      exact .inl rfl
    · rw [there, if_pos rfl]
    · rw [there, if_neg (Ne.symm apart), if_pos rfl]

end Files

end Stencil.Disk
