import Stencil.Proofs.CommandLine.Reasons

namespace Stencil

open CommandError (Explained)

variable {y : Yaml.Library} {d : Disk} {p : FilePath} {r : RenderRequest} {s : Settings}

section Commands

theorem RenderRequest.compile_explained {e : Engine} (settings : r.settings y d = .ok s)
    (made : e.source = s.templateDirectory.map .directory) :
    FailsAs (Explained y d (.render r)) (r.compile d s e).answer := by
  unfold RenderRequest.compile
  dsimp only
  refine .answer_bind (Explained.ask _) fun there _ => ?_
  split <;> refine .answer_bind (.mapError ?_) fun _ _ => .answer_bind (.ok ()) fun _ _ => .ok _
  · exact Engine.readTemplate_unread.mono fun _ unread => .source (.given r) unread
  · exact Engine.get_explained settings made r.template

theorem RenderRequest.entries_explained (speaks : y.Speaks) : FailsAs (Explained y d (.render r)) (r.entries y d) := by
  unfold RenderRequest.entries
  cases given : r.data with
  | none => exact .ok []
  | some text =>
    dsimp only
    refine .bind (Explained.ask _) fun there _ => ?_
    split
    · refine .bind (.mapError (Disk.readYaml_unusable.mono fun cause unusable => ?_)) fun v _ => ?_
      · exact ⟨unusable.worded speaks, fun _ => Unhandled.arises_of_data (.data given) unusable⟩
      · split
        · exact .ok _
        · exact .ok _
        · exact .error (.told (.append (.begin rfl) _) rfl)
    · exact .error (.told (.append (.begin rfl) _) rfl)

theorem RenderRequest.run_explained (speaks : y.Speaks) : FailsAs (Explained y d (.render r)) (r.run y d).answer := by
  unfold RenderRequest.run
  refine .answer_bind (settings_explained speaks) fun s settings => ?_
  refine .answer_bind (.mapError (Engine.ofSettings_explained speaks settings)) fun e ready => ?_
  have made := Engine.source_ofSettings (ok_of_mapError ready)
  refine .answer_bind (compile_explained settings made) fun t _ => ?_
  refine .answer_bind (entries_explained speaks) fun data entries => ?_
  refine .answer_bind (.mapError (Engine.render_explained settings made t entries _)) fun text _ => ?_
  exact .ok _

theorem referencesIn_unread (sources : List FilePath) :
    FailsAs (fun e => ∃ p ∈ sources, ∀ cause, e = .read cause → d.Unread p cause) (referencesIn d sources) := by
  refine .bind (.mapM fun p member => ?_) fun _ _ => .ok _
  refine .bind (.bind ?_ fun _ _ => .ok _) fun _ _ => .ok _
  exact (compileText_unread "").mono fun e unread => ⟨p, member, unread⟩

theorem referencesByKey_unread (sources : List FilePath) :
    FailsAs (fun e => ∃ p ∈ sources, ∀ cause, e = .read cause → d.Unread p cause) (referencesByKey d sources) :=
  .bind (referencesIn_unread sources) fun _ _ => .ok _

theorem listKeys_explained (files : List String) : FailsAs (Explained y d (.keys files)) (listKeys d files).answer := by
  refine .map (.mapError ((referencesIn_unread _).mono ?_)) _
  rintro e ⟨p, member, unread⟩
  obtain ⟨text, listed, rfl⟩ := List.mem_map.mp member
  exact .source (.listed listed) unread

theorem Disk.writeAside_justified (content : Bytes) : FailsAs FileError.Justified (d.writeAside p content).2 := by
  unfold Disk.writeAside
  split
  · rename_i e failed
    exact .error (Disk.write_justified content e failed)
  · split
    · rename_i e failed
      exact .error (Disk.replace_justified _ _ e failed)
    · exact .ok ()

theorem writeSkeleton_explained (target domain : String) (files : List String) :
    FailsAs (Explained y d (.catalog target domain files)) (writeSkeleton y d target domain files).2.answer := by
  have built : FailsAs (fun e => Explained y d (.catalog target domain files) (.skeleton e))
      (buildSkeleton y d (.ofText target) (files.map .ofText) domain).2 := by
    unfold buildSkeleton
    split
    · rename_i e failed
      obtain ⟨p, member, unread⟩ := referencesByKey_unread _ e failed
      obtain ⟨text, listed, rfl⟩ := List.mem_map.mp member
      exact .error (.skeleton (.source (.gathered listed) unread))
    · split
      · rename_i e failed
        have justified := Disk.tryMakeDirectories_justified _ _ d e (congrArg Prod.snd failed)
        exact .error ⟨fun _ => e.message_worded, fun _ => Unhandled.arises_of_path justified⟩
      · refine .map (.mapError ?_) _
        refine (Disk.writeAside_justified _).mono fun e justified => ?_
        exact ⟨fun _ => e.message_worded, fun _ => Unhandled.arises_of_path justified⟩
  refine .answer_bind (.ok ()) fun _ _ => .answer_bind (.mapError built) fun _ _ => ?_
  exact .answer_bind (.ok ()) fun _ _ => .ok _

theorem Command.run_explained (speaks : y.Speaks) (c : Command) : FailsAs (Explained y d c) (c.run y d).2.answer := by
  cases c with
  | render r => exact r.run_explained speaks
  | keys files => exact listKeys_explained files
  | catalog target domain files => exact writeSkeleton_explained target domain files

end Commands

theorem Task.finish_of_unhandled {task : Task String} {e : CommandError} {u : Unhandled}
    (answer : task.answer = .error e) (passed : e.unhandled? = some u) (everything : Bool) :
    task.finish everything = .error u := by
  unfold Task.finish
  rw [answer]
  dsimp only
  rw [passed]

section Garbled

variable {content : Bytes} {fault : DecodeError}

theorem compileText_of_garbled (stands : d.find? p = some (.file content))
    (garbled : decodeUtf8 content = .error fault) (name : String) :
    compileText d p name = .error (.read (.undecodable fault)) := by
  have decoded : FileCharset.utf8.decode content = .error fault := garbled
  rw [compileText, Disk.readText_of_read (Disk.read_eq_ok_iff.mpr stands), decoded]
  rfl

/-- Nothing is listed when the first of the files is no text, whatever the others are. -/
theorem listKeys_of_garbled {text : String} (stands : d.find? (.ofText text) = some (.file content))
    (garbled : decodeUtf8 content = .error fault) (files : List String) :
    (listKeys d (text :: files)).answer = .error (.source (.read (.undecodable fault))) := by
  rw [listKeys, List.map_cons, referencesIn, List.mapM_cons, occurrencesOfFile, compileText_of_garbled stands garbled]
  rfl

end Garbled

/-- Whatever the files hold, and whatever reads their documents if it says why a scalar has no value, a command ends
with status zero, or with status two, nothing printed and a message in its log; or else a file taken for a template is
no text, the reader of documents comes to a halt, a document stands for no value here or for a whole number that is too
long for a text, a key of the settings is no text, or a path has a zero character, and this is what the command ends
with. -/
theorem Invocation.run_finishes {y : Yaml.Library} (speaks : y.Speaks) (i : Invocation) (d : Disk) (debugging : Bool) :
    match (i.run y d debugging).2 with
    | .ok f => f.status = 0 ∨
        f.status = 2 ∧ f.output = "" ∧ ∃ shown told, f.log = shown ++ told ++ "\n" ∧ Worded told
    | .error u => u.Arises y d i.command := by
  change match (i.command.run y d).2.finish (i.verbose || debugging) with | .ok _ => _ | .error _ => _
  cases answer : (i.command.run y d).2.answer with
  | ok text =>
    rw [Task.finish, answer]
    exact .inl rfl
  | error e =>
    obtain ⟨worded, arises⟩ := Command.run_explained speaks i.command e answer
    cases passed : e.unhandled? with
    | some u =>
      rw [Task.finish_of_unhandled answer passed]
      exact arises u passed
    | none =>
      rw [Task.finish, answer]
      dsimp only
      rw [passed]
      exact .inr ⟨rfl, rfl, _, _, rfl, (worded passed).trimEnd⟩

/-- A template, and data for it in which a date has no such month. -/
def datedDisk : Disk :=
  ⟨[(["a.tpl"], .file (encodeUtf8 "$x$".toList)), (["x.yaml"], .file (encodeUtf8 "x: 2021-13-01".toList))], []⟩

theorem Invocation.run_finishes_of_dated :
    let i : Invocation := ⟨false, .render { template := "a.tpl", data := some "x.yaml" }⟩
    let log := "month must be in 1..12\n"
    Yaml.builtin.Speaks ∧ (i.run Yaml.builtin datedDisk false).2 = .ok ⟨2, "", log⟩ ∧
      ∃ shown told, log = shown ++ told ++ "\n" ∧ Worded told := by
  intro i log
  have finishes := Invocation.run_finishes Yaml.builtin_speaks i datedDisk false
  have answer : (i.run Yaml.builtin datedDisk false).2 = .ok ⟨2, "", log⟩ := by decide +kernel
  rw [answer] at finishes
  exact ⟨Yaml.builtin_speaks, answer, (finishes.resolve_left (by decide)).2.2⟩

/-- A file that is no text ends the listing of its texts without a word, though the command line is in order. -/
theorem Invocation.run_garbled :
    ∃ i, Invocation.parse ["keys", "a.tpl"] = .ok i ∧
      (i.run Yaml.builtin garbledDisk false).2 = .error (.undecodable ⟨0xFF, 0, 1, .start⟩) := by
  refine ⟨⟨false, .keys ["a.tpl"]⟩, by rfl, ?_⟩
  have stands : garbledDisk.find? (.ofText "a.tpl") = some (.file [0xFF]) := by rfl
  have garbled : decodeUtf8 [0xFF] = .error ⟨0xFF, 0, 1, .start⟩ := by cbv
  exact Task.finish_of_unhandled (listKeys_of_garbled stands garbled []) rfl false

end Stencil
