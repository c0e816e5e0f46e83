import Stencil.CommandLine.Run
import Stencil.Proofs.Text.Json

namespace Stencil

/-- The places of occurrences, file by file. -/
def referencesOf (found : FilePath → List Occurrence) (sources : List FilePath) : List Reference :=
  sources.flatMap fun p => (found p).map fun o => ⟨o.key, p, o.line⟩

/-- The places where a key occurs, in order. -/
def placesOf (key : String) (rs : List Reference) : List String :=
  (rs.filter (·.key == key)).map Reference.text

section Groups

variable {groups : List (String × List String)} {r : Reference} {rs : List Reference}

/-- The first group takes all that has its key, and leaves the rest to the groups behind it. -/
theorem foldl_addReference_cons (key : String) (texts : List String) (rest : List (String × List String))
    (rs : List Reference) :
    rs.foldl addReference ((key, texts) :: rest) =
      (key, texts ++ placesOf key rs) :: (rs.filter (·.key != key)).foldl addReference rest := by
  induction rs generalizing texts rest with
  | nil => simp [placesOf]
  | cons r rs ih =>
    rw [List.foldl_cons, addReference]
    split
    · rename_i same
      subst same
      simp [ih, placesOf]
    · rename_i other
      simp [ih, placesOf, Ne.symm other]

theorem groupReferences_cons (r : Reference) (rs : List Reference) :
    groupReferences (r :: rs) =
      (r.key, r.text :: placesOf r.key rs) :: groupReferences (rs.filter (·.key != r.key)) :=
  foldl_addReference_cons r.key [r.text] [] rs

theorem placesOf_filter {key other : String} (apart : key ≠ other) (rs : List Reference) :
    placesOf key (rs.filter (·.key != other)) = placesOf key rs := by
  rw [placesOf, placesOf, List.filter_filter]
  congr 1
  refine List.filter_congr fun r _ => ?_
  by_cases same : r.key = key
  · simp [same, apart]
  · simp [same]

/-- Each key has one group, in the order in which the keys are first met, with all its places in order. -/
theorem groupReferences_eq (rs : List Reference) :
    groupReferences rs = (rs.map (·.key)).eraseDups.map fun key => (key, placesOf key rs) := by
  cases rs with
  | nil => rfl
  | cons r rs =>
    have rest := groupReferences_eq (rs.filter (·.key != r.key))
    have keys : ((r :: rs).map (·.key)).eraseDups = r.key :: ((rs.filter (·.key != r.key)).map (·.key)).eraseDups := by
      rw [List.map_cons, List.eraseDups_cons, List.filter_map]
      rfl
    rw [groupReferences_cons, rest, keys, List.map_cons]
    congr 1
    · simp [placesOf]
    · refine List.map_congr_left fun key member => ?_
      obtain ⟨other, kept, rfl⟩ := List.mem_map.mp (List.mem_eraseDups.mp member)
      have apart : other.key ≠ r.key := by simpa using (List.mem_filter.mp kept).2
      rw [placesOf_filter apart]
      simp [placesOf, Ne.symm apart]
termination_by rs.length
decreasing_by
  rw [List.length_cons]
  exact Nat.lt_succ_of_le (List.length_filter_le _ _)

/-- Nothing is lost by putting places together, and nothing is added. -/
theorem groupReferences_perm (rs : List Reference) :
    ((groupReferences rs).flatMap fun group => group.2.map fun text => (group.1, text)).Perm
      (rs.map fun r => (r.key, r.text)) := by
  cases rs with
  | nil => exact .nil
  | cons r rs =>
    have rest := groupReferences_perm (rs.filter (·.key != r.key))
    have same : (placesOf r.key rs).map (fun text => (r.key, text)) =
        (rs.filter (·.key == r.key)).map fun s => (s.key, s.text) := by
      rw [placesOf, List.map_map]
      refine List.map_congr_left fun s member => ?_
      have key : s.key = r.key := by simpa using (List.mem_filter.mp member).2
      simp [key]
    rw [groupReferences_cons, List.flatMap_cons, List.map_cons, List.map_cons, same, List.cons_append]
    refine .cons _ (((rest.append_left _).trans ?_))
    rw [← List.map_append]
    exact (List.filter_append_perm (·.key == r.key) rs).map _
termination_by rs.length
decreasing_by
  rw [List.length_cons]
  exact Nat.lt_succ_of_le (List.length_filter_le _ _)

end Groups

section Sources

variable {d : Disk} {sources : List FilePath} {found : FilePath → List Occurrence}

theorem referencesIn_of_compile (compile : ∀ p ∈ sources, occurrencesOfFile d p = .ok (found p)) :
    referencesIn d sources = .ok (referencesOf found sources) := by
  have each : (sources.mapM fun p => do
      return (← occurrencesOfFile d p).map fun o => ⟨o.key, p, o.line⟩ : Except SourceError (List (List Reference))) =
      .ok (sources.map fun p => (found p).map fun o => ⟨o.key, p, o.line⟩) := by
    induction sources with
    | nil => rfl
    | cons p sources ih =>
      rw [List.mapM_cons, compile p List.mem_cons_self, ih fun q member => compile q (List.mem_cons_of_mem p member)]
      rfl
  rw [referencesIn, each]
  rfl

/-- A listing of files that can be compiled ends well, leaves all files as they are, and prints all places. -/
theorem Invocation.run_keys {files : List String} {rs : List Reference}
    (listed : referencesIn d (files.map .ofText) = .ok rs) (y : Yaml.Library) (verbose debugging : Bool) :
    ∃ log, Invocation.run ⟨verbose, .keys files⟩ y d debugging = (d, .ok ⟨0, referencesJson rs, log⟩) := by
  have answer : (listKeys d files).answer = .ok (referencesJson rs) := by
    rw [listKeys, listed]
    rfl
  simp [Invocation.run, Command.run, Task.finish, answer]

theorem keys_referencesOf (found : FilePath → List Occurrence) (sources : List FilePath) :
    (referencesOf found sources).map (·.key) = (sources.flatMap found).map (·.key) := by
  simp [referencesOf, List.map_flatMap, Function.comp_def]

/-- The texts of some files that can be compiled, put together by their keys. Every key stands once, in the order in
which the keys are first met, with all its places in order, and these are as many as there are occurrences. A listing
of the same files tells the same places in order, from which putting them together makes the same. -/
theorem referencesByKey_collects (compile : ∀ p ∈ sources, occurrencesOfFile d p = .ok (found p)) :
    ∃ groups refs, referencesByKey d sources = .ok groups ∧ refs = referencesOf found sources ∧
      groups.map (·.1) = ((sources.flatMap found).map (·.key)).eraseDups ∧
      (∀ group ∈ groups, group.2 = (refs.filter (·.key == group.1)).map Reference.text) ∧
      (groups.flatMap (·.2)).length = (sources.flatMap found).length ∧
      groups = groupReferences refs ∧
      (∀ others, referencesJson others = referencesJson refs →
        others.map (fun r => (r.file.text, r.key, r.line)) = refs.map fun r => (r.file.text, r.key, r.line)) ∧
      ∀ files, files.map FilePath.ofText = sources → ∀ y verbose debugging, ∃ log,
        Invocation.run ⟨verbose, .keys files⟩ y d debugging = (d, .ok ⟨0, referencesJson refs, log⟩) := by
  have listed := referencesIn_of_compile compile
  refine ⟨_, _, ?_, rfl, ?_, ?_, ?_, rfl, fun others same => referencesJson_injective same, ?_⟩
  · rw [referencesByKey, listed]
    rfl
  · rw [groupReferences_eq, List.map_map, ← keys_referencesOf]
    exact List.map_id _
  · rw [groupReferences_eq]
    intro group member
    obtain ⟨key, _, rfl⟩ := List.mem_map.mp member
    rfl
  · have total := (groupReferences_perm (referencesOf found sources)).length_eq
    simpa [List.length_flatMap, referencesOf] using total
  · rintro files rfl y verbose debugging
    exact Invocation.run_keys listed y verbose debugging

/-- Two files of templates with a text in common. -/
def sharedDisk : Disk :=
  ⟨[(["a.tpl"], .file (encodeUtf8 "$txt:\x7bHi\x7d$\n$txt:\x7bBye\x7d$".toList)),
    (["b.tpl"], .file (encodeUtf8 "$txt:\x7bBye\x7d$".toList))], []⟩

theorem referencesByKey_collects_of_shared :
    let sources := [.ofText "a.tpl", .ofText "b.tpl", .ofText "a.tpl"]
    ∃ groups, referencesByKey sharedDisk sources = .ok groups ∧ groups.map (·.1) = ["Hi", "Bye"] ∧
      (groups.flatMap (·.2)).length = 5 := by
  let found (p : FilePath) : List Occurrence := if p = .ofText "a.tpl" then [⟨"Hi", 1⟩, ⟨"Bye", 2⟩] else [⟨"Bye", 1⟩]
  have compile : ∀ p ∈ [.ofText "a.tpl", .ofText "b.tpl", .ofText "a.tpl"],
      occurrencesOfFile sharedDisk p = .ok (found p) := by
    decide +kernel
  obtain ⟨groups, refs, made, -, keys, -, total, -⟩ := referencesByKey_collects compile
  exact ⟨groups, made, keys.trans (by decide +kernel), total.trans (by decide +kernel)⟩

end Sources

end Stencil
