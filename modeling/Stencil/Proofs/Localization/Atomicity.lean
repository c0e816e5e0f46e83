import Stencil.Proofs.Storage.Writing
import Stencil.Yaml.Builtin

namespace Stencil

section Naming

variable {more : List Char}

theorem splitSlashes_of_plain (plain : '/' ∉ more) : splitSlashes more = [more] := by
  induction more with
  | nil => rfl
  | cons c cs ih =>
    obtain ⟨other, plain⟩ := List.ne_and_not_mem_of_not_mem_cons plain
    rw [splitSlashes, if_neg (Ne.symm other), ih plain]

/-- What is added to a text without a slash is added to its last part. -/
theorem splitSlashes_append (plain : '/' ∉ more) (cs : List Char) :
    ∃ parts last, splitSlashes cs = parts ++ [last] ∧ splitSlashes (cs ++ more) = parts ++ [last ++ more] := by
  induction cs with
  | nil => exact ⟨[], [], rfl, splitSlashes_of_plain plain⟩
  | cons c cs ih =>
    obtain ⟨parts, last, split, split'⟩ := ih
    rw [List.cons_append, splitSlashes, splitSlashes, split, split']
    split
    · exact ⟨[] :: parts, last, rfl, rfl⟩
    · cases parts with
      | nil => exact ⟨[], c :: last, rfl, rfl⟩
      | cons first parts => exact ⟨(c :: first) :: parts, last, rfl, rfl⟩

/-- The path of a catalog ends in a name with its suffix, whatever slashes and dots there are in the name of its
domain. -/
theorem exists_child_of_domain (target : FilePath) (domain : String) :
    ∃ (q : FilePath) (stem : String), target ++ FilePath.ofText (domain ++ ".yaml") = q.child (stem ++ ".yaml") := by
  have plain : '/' ∉ ".yaml".toList := by decide
  obtain ⟨parts, last, -, split⟩ := splitSlashes_append plain domain.toList
  have named : isName (last ++ ".yaml".toList) = true := by
    cases last <;> simp [isName]
  have names : (FilePath.ofText (domain ++ ".yaml")).names =
      (parts.filter isName).map String.ofList ++ [String.ofList last ++ ".yaml"] := by
    rw [FilePath.ofText, String.toList_append, split, List.filter_append, List.map_append, List.filter_cons,
      if_pos named]
    simp [String.ofList_append]
  have appended : target ++ FilePath.ofText (domain ++ ".yaml") = target.append (FilePath.ofText (domain ++ ".yaml")) :=
    rfl
  rw [appended, FilePath.append]
  split
  · refine ⟨⟨(FilePath.ofText (domain ++ ".yaml")).start, (parts.filter isName).map String.ofList⟩,
      String.ofList last, ?_⟩
    rw [FilePath.child, ← names]
  · refine ⟨⟨target.start, target.names ++ (parts.filter isName).map String.ofList⟩, String.ofList last, ?_⟩
    rw [names, FilePath.child, List.append_assoc]

/-- A name with a long end does not go up. -/
theorem append_ne_up {s t : String} (long : 2 < t.utf8ByteSize) : s ++ t ≠ ".." := by
  intro up
  have sizes := congrArg String.utf8ByteSize up
  have two : "..".utf8ByteSize = 2 := rfl
  rw [String.utf8ByteSize_append] at sizes
  omega

end Naming

section Sources

variable {d : Disk} {sources : List FilePath} {e : SourceError}

theorem referencesByKey_error (failed : referencesByKey d sources = .error e) :
    ∃ p ∈ sources, occurrencesOfFile d p = .error e := by
  have fails : FailsAs (fun e => ∃ p ∈ sources, occurrencesOfFile d p = .error e) (referencesByKey d sources) := by
    refine .bind (.bind (.mapM fun p member => ?_) fun _ _ => .ok _) fun _ _ => .ok _
    exact .bind (fun e failed => ⟨p, member, failed⟩) fun _ _ => .ok _
  exact fails e failed

theorem compiles_of_referencesByKey {groups : List (String × List String)}
    (answer : referencesByKey d sources = .ok groups) {p : FilePath} (member : p ∈ sources) :
    ∃ found, occurrencesOfFile d p = .ok found := by
  obtain ⟨_, answer, _⟩ := exists_of_bind_ok answer
  obtain ⟨all, answers, _⟩ := exists_of_bind_ok answer
  have each := map_of_mapM_ok answers
  obtain ⟨_, _, made⟩ := List.mem_map.mp (each ▸ List.mem_map_of_mem member)
  obtain ⟨found, answer, _⟩ := exists_of_bind_ok made.symm
  exact ⟨found, answer⟩

end Sources

section Making

variable {y : Yaml.Library} {d made after : Disk} {target : FilePath} {sources : List FilePath}
  {groups : List (String × List String)}

theorem buildSkeleton_of_unmade {e : FileError} (listed : referencesByKey d sources = .ok groups)
    (making : d.tryMakeDirectories target.start target.names.reverse = (made, .error e)) (domain : String) :
    buildSkeleton y d target sources domain = (made, .error (.file e)) := by
  rw [buildSkeleton, listed]
  dsimp only
  rw [making]

theorem buildSkeleton_of_made {domain : String} {outcome : Except FileError Unit}
    (listed : referencesByKey d sources = .ok groups)
    (making : d.tryMakeDirectories target.start target.names.reverse = (made, .ok ()))
    (written : made.writeAside (target ++ FilePath.ofText (domain ++ ".yaml"))
      (encodeUtf8 (y.write (groups.map skeletonEntry)).toList) = (after, outcome)) :
    buildSkeleton y d target sources domain = (after, (outcome.mapError .file).map fun _ =>
      ⟨target ++ FilePath.ofText (domain ++ ".yaml"), groups.length⟩) := by
  rw [buildSkeleton, listed]
  dsimp only
  rw [making]
  dsimp only
  rw [written]

/-- Once the sources are read, they are not what fails. -/
theorem mapError_ne_source (outcome : Except FileError Unit) (s : Skeleton) (e : SourceError) :
    (outcome.mapError .file).map (fun _ => s) ≠ (.error (.source e) : Except SkeletonError Skeleton) := by
  cases outcome <;> nofun

end Making

/-- What can become of a disk where the skeleton of a catalog is written, whatever text is written for it. A source
that is not read leaves the disk as it is. Otherwise, if the file beside the catalog cannot be written, there are new
directories at most. If it can be, the catalog is either replaced by it, or else it is a directory and nothing
replaces it; then what has been written beside it stays. -/
theorem buildSkeleton_touches (y : Yaml.Library) (d : Disk) (target : FilePath) (sources : List FilePath)
    (domain : String) :
    ∃ after outcome, buildSkeleton y d target sources domain = (after, outcome) ∧
      ((∃ e, outcome = .error (.source e)) ↔ ∃ p ∈ sources, ∃ e, occurrencesOfFile d p = .error e) ∧
      (∀ e, outcome = .error (.source e) → after = d) ∧
      ∀ groups, referencesByKey d sources = .ok groups →
        d.Touches [] after ∧ (∃ e, outcome = .error (.file e)) ∨
          ∃ path place aside, path = target ++ FilePath.ofText (domain ++ ".yaml") ∧ place ≠ aside ∧
            after.reach path = .ok place ∧ after.reach (besides path) = .ok aside ∧
            (outcome = .ok ⟨path, groups.length⟩ ∧ d.Touches [place, aside] after ∧
                after.entry? place = some (.file (encodeUtf8 (y.write (groups.map skeletonEntry)).toList)) ∧
                after.entry? aside = none ∧ (d.entry? aside = none → d.Touches [place] after) ∨
              outcome = .error (.file ⟨.isDirectory, besides path, some path⟩) ∧ d.Touches [aside] after ∧
                after.entry? place = some .directory ∧
                after.entry? aside = some (.file (encodeUtf8 (y.write (groups.map skeletonEntry)).toList))) := by
  cases listed : referencesByKey d sources with
  | error e =>
    obtain ⟨p, member, failed⟩ := referencesByKey_error listed
    refine ⟨d, .error (.source e), by rw [buildSkeleton, listed], ?_, fun _ _ => rfl, nofun⟩
    exact ⟨fun _ => ⟨p, member, e, failed⟩, fun _ => ⟨e, rfl⟩⟩
  | ok groups =>
    have compile : ¬∃ p ∈ sources, ∃ e, occurrencesOfFile d p = .error e := by
      rintro ⟨p, member, e, failed⟩
      obtain ⟨found, answer⟩ := compiles_of_referencesByKey listed member
      cases failed.symm.trans answer
    have grown := Disk.tryMakeDirectories_touches d target.start target.names.reverse
    cases making : d.tryMakeDirectories target.start target.names.reverse with
    | mk made answer =>
      rw [making] at grown
      cases answer with
      | error e =>
        refine ⟨made, _, buildSkeleton_of_unmade listed making domain, ?_, nofun, fun _ _ => .inl ⟨grown, e, rfl⟩⟩
        exact ⟨nofun, fun failed => absurd failed compile⟩
      | ok _ =>
        obtain ⟨q, stem, path⟩ := exists_child_of_domain target domain
        have down : stem ++ ".yaml" ≠ ".." := append_ne_up (by decide)
        have down' : stem ++ ".yaml" ++ ".tmp-rt" ≠ ".." := append_ne_up (by decide)
        obtain ⟨after, outcome, written, effects⟩ :=
          made.writeAside_touches q down down' (encodeUtf8 (y.write (groups.map skeletonEntry)).toList)
        rw [← path] at written effects
        refine ⟨after, _, buildSkeleton_of_made listed making written,
          ⟨fun ⟨e, failed⟩ => absurd failed (mapError_ne_source _ _ e), fun failed => absurd failed compile⟩,
          fun e failed => absurd failed (mapError_ne_source _ _ e), ?_⟩
        rintro _ ⟨⟩
        rcases effects with ⟨rfl, e, rfl⟩ | ⟨place, aside, apart, reached, reached', effect⟩
        · exact .inl ⟨grown, e, rfl⟩
        · refine .inr ⟨_, place, aside, rfl, apart, reached, reached', ?_⟩
          rcases effect with ⟨rfl, touches, stands, gone⟩ | ⟨rfl, touches, stands, left⟩
          · have all : d.Touches ([place] ++ [aside]) after := (grown.mono (List.nil_subset _)).trans touches
            exact .inl ⟨rfl, all, stands, gone, fun nothing => all.spare (gone.trans nothing.symm)⟩
          · exact .inr ⟨rfl, (grown.mono (List.nil_subset _)).trans touches, stands, left⟩

/-- A template, and a directory where its catalog belongs. -/
def blockedDisk : Disk :=
  ⟨[(["a.tpl"], .file (encodeUtf8 "$txt:\x7bHi\x7d$".toList)), (["out"], .directory),
    (["out", "messages.yaml"], .directory)], []⟩

/-- The catalog cannot be written, and yet there is a new file. -/
theorem buildSkeleton_leaves_file :
    let built := buildSkeleton Yaml.builtin blockedDisk (.ofText "out") [.ofText "a.tpl"] "messages"
    built.2 = .error (.file ⟨.isDirectory, .ofText "out/messages.yaml.tmp-rt", some (.ofText "out/messages.yaml")⟩) ∧
      blockedDisk.find? (.ofText "out/messages.yaml.tmp-rt") = none ∧
      built.1.find? (.ofText "out/messages.yaml.tmp-rt") =
        some (.file (encodeUtf8 "Hi: ''  # a.tpl:1\n".toList)) := by
  decide +kernel

end Stencil
