import Stencil.Proofs.CommandLine.Wording
import Stencil.Proofs.Loader.Protocol
import Stencil.Proofs.Localization.Filling
import Stencil.Proofs.Storage.Faults

namespace Stencil

namespace RenderRequest

/-- The file that holds the settings of a run: the one that is given, or else the nearest. -/
inductive Heeds (r : RenderRequest) (d : Disk) : FilePath → Prop
  | given {text : String} (given : r.config = some text) : Heeds r d (.ofText text)
  | nearest {p : FilePath} (unset : r.config = none)
      (found : Settings.locate d (.ofPlace d.here) = .ok (some p)) : Heeds r d p

/-- The files that a run reads data from: settings, texts in other languages, and what to fill in. -/
inductive Consults (r : RenderRequest) (y : Yaml.Library) (d : Disk) : FilePath → Prop
  | settings {p : FilePath} (heeds : r.Heeds d p) : Consults r y d p
  | catalog {s : Settings} {place : Place} {locale : String} {p : FilePath} (settings : r.settings y d = .ok s)
      (catalogs : s.catalogDir = some place) (listed : (locale, p) ∈ catalogPaths d (.ofPlace place)) :
      Consults r y d p
  | data {text : String} (given : r.data = some text) : Consults r y d (.ofText text)

end RenderRequest

/-- The files that a command may take for templates: those it is given, and those that names stand for. -/
inductive Command.Compiles (y : Yaml.Library) (d : Disk) : Command → FilePath → Prop
  | given (r : RenderRequest) : Compiles y d (.render r) (.ofText r.template)
  | named {r : RenderRequest} {s : Settings} {t : TemplateDirectory} {name : String} {place : Place}
      (settings : r.settings y d = .ok s) (templates : s.templateDirectory = some t)
      (inside : t.place d.here name = .ok place) : Compiles y d (.render r) (.ofPlace place)
  | listed {files : List String} {text : String} (member : text ∈ files) : Compiles y d (.keys files) (.ofText text)
  | gathered {target domain : String} {files : List String} {text : String} (member : text ∈ files) :
      Compiles y d (.catalog target domain files) (.ofText text)

/-- What ends a command without a word in its log: a file taken for a template that is no text, a document at which
the reader comes to a halt or that stands for no value here, a whole number in one that is too long for a text, a key
of the settings that is no text, or a path with a zero character. -/
inductive Unhandled.Arises (y : Yaml.Library) (d : Disk) : Command → Unhandled → Prop
  | undecodable {c : Command} {p : FilePath} {content : Bytes} {fault : DecodeError} (compiles : c.Compiles y d p)
      (stands : d.find? p = some (.file content)) (garbled : decodeUtf8 content = .error fault) :
      Arises y d c (.undecodable fault)
  | halted {r : RenderRequest} {p : FilePath} {text kind words : String} (consults : r.Consults y d p)
      (read : d.readText p .utf8 = .ok text) (refused : y.read text = .error (.halted kind words)) :
      Arises y d (.render r) (.halted kind words)
  | beyond {r : RenderRequest} {p : FilePath} {text : String} (consults : r.Consults y d p)
      (read : d.readText p .utf8 = .ok text) (refused : y.read text = .error .beyond) : Arises y d (.render r) .beyond
  | raised {r : RenderRequest} {p : FilePath} {v : PlainData} (consults : r.Consults y d p)
      (read : d.readYaml y p = .ok v) (long : v.isWritable = false) : Arises y d (.render r) (.raised .tooManyDigits)
  | keyNotText {r : RenderRequest} {p : FilePath} {entries : Entries Empty} {key : PlainData} (heeds : r.Heeds d p)
      (read : d.readYamlMapping y p = .ok entries) (strange : Settings.strangeKey? entries = some key) :
      Arises y d (.render r) (.keyNotText key.typeName)
  | path {c : Command} {e : FileError} (zero : e.fault = .zeroCharacter)
      (holds : e.path.hasZero = true ∨ ∃ p ∈ e.other, p.hasZero = true) : Arises y d c (.path e)

/-- An error that is told in words, or else ends the command otherwise for a reason. -/
structure CommandError.Explained (y : Yaml.Library) (d : Disk) (c : Command) (e : CommandError) : Prop where
  worded : e.unhandled? = none → Worded e.message
  arises : ∀ u, e.unhandled? = some u → u.Arises y d c

variable {y : Yaml.Library} {d : Disk} {c : Command} {p : FilePath} {u : Unhandled} {r : RenderRequest} {s : Settings}

theorem Disk.Unread.worded {cause : ReadError} (unread : d.Unread p cause) : Worded cause.message := by
  cases unread with
  | file => exact FileError.message_worded _
  | garbled => exact DecodeError.message_worded _

theorem Disk.Unusable.worded (speaks : y.Speaks) {cause : ReadError} (unusable : d.Unusable y p cause)
    (handled : Unhandled.ofData? cause = none) : Worded cause.message := by
  cases unusable with
  | unread unread => exact unread.worded
  | @flawed text refusal read refused =>
    cases refusal with
    | malformed => exact .append (.append (.append (.begin rfl) _) _) _
    | noValue => exact speaks text _ refused
    | halted | beyond => cases handled
  | notMapping => exact .append (.begin rfl) _

namespace Unhandled

theorem arises_of_path {e : FileError} (justified : e.Justified) (passed : ofPath? e = some u) : u.Arises y d c := by
  unfold ofPath? at passed
  split at passed
  · rename_i zero
    cases passed
    exact .path zero (justified zero)
  · cases passed

theorem arises_of_template {cause : ReadError} (compiles : c.Compiles y d p) (unread : d.Unread p cause)
    (passed : ofTemplate? cause = some u) : u.Arises y d c := by
  cases unread with
  | file justified => exact arises_of_path justified passed
  | garbled stands garbled =>
    cases passed
    exact .undecodable compiles stands garbled

theorem arises_of_data {cause : ReadError} (consults : r.Consults y d p) (unusable : d.Unusable y p cause)
    (passed : ofData? cause = some u) : u.Arises y d (.render r) := by
  cases unusable with
  | unread unread => cases unread <;> cases passed
  | @flawed text refusal read refused =>
    cases refusal with
    | malformed | noValue => cases passed
    | halted =>
      cases passed
      exact .halted consults read refused
    | beyond =>
      cases passed
      exact .beyond consults read refused
  | notMapping => cases passed

/-- There are no entries in an empty file that could be too long. -/
theorem arises_of_long {entries : Entries Empty} (consults : r.Consults y d p)
    (read : d.readYamlMapping y p = .ok entries) (long : Entries.areWritable entries = false) :
    (raised .tooManyDigits).Arises y d (.render r) := by
  rcases Disk.readYaml_of_readYamlMapping read with rfl | document
  · cases long
  · exact .raised consults document (by rwa [Value.isWritable])

end Unhandled

open CommandError (Explained)

namespace CommandError.Explained

theorem told {e : CommandError} (worded : Worded e.message) (handled : e.unhandled? = none) : Explained y d c e := by
  refine ⟨fun _ => worded, fun u passed => ?_⟩
  rw [handled] at passed
  cases passed

/-- An error that ends the command without a word. -/
theorem left {e : CommandError} (passed : e.unhandled? = some u) (arises : u.Arises y d c) : Explained y d c e := by
  constructor
  · intro handled
    rw [passed] at handled
    cases handled
  · intro _ same
    cases passed.symm.trans same
    exact arises

theorem path {e : FileError} (justified : e.Justified) : Explained y d c (.path e) :=
  ⟨fun _ => e.message_worded, fun _ passed => Unhandled.arises_of_path justified passed⟩

theorem ask (answer : Disk → FilePath → Bool) : FailsAs (Explained y d c) ((d.ask p answer).mapError .path) :=
  .mapError ((Disk.ask_justified answer).mono fun _ justified => .path justified)

theorem source {e : SourceError} (compiles : c.Compiles y d p)
    (unread : ∀ cause, e = .read cause → d.Unread p cause) : Explained y d c (.source e) := by
  cases e with
  | read cause =>
    have found := unread cause rfl
    exact ⟨fun _ => found.worded, fun u passed => Unhandled.arises_of_template compiles found passed⟩
  | invalid e => exact .told e.message_worded rfl

theorem skeleton {e : SourceError} (explained : Explained y d c (.source e)) : Explained y d c (.skeleton (.source e)) := by
  cases e with
  | read cause => exact ⟨explained.worded, explained.arises⟩
  | invalid e => exact .told e.message_worded rfl

end CommandError.Explained

section Settings

variable {entries : Entries Empty} {name : String} (heeds : r.Heeds d p) (read : d.readYamlMapping y p = .ok entries)

include heeds read

/-- A value that is refused is shown, if it can be shown at all. -/
theorem Settings.refuse_explained {α : Type} {v : PlainData} (found : entries.get? name = some v)
    (inWords : String → SettingsError) (worded : ∀ shown, Worded (inWords shown).message)
    (handled : ∀ shown, (CommandError.settings (inWords shown)).unhandled? = none) :
    FailsAs (fun e => Explained y d (.render r) (.settings e)) (refuse v inWords : Except SettingsError α) := by
  unfold refuse Value.guarded
  cases long : v.isWritable with
  | true => exact .error (.told (worded _) (handled _))
  | false =>
    refine .error (.left rfl (Unhandled.arises_of_long (.settings heeds) read (Bool.eq_false_iff.mpr fun writable => ?_)))
    have shorter : v.isWritable = true := Inherited.isWritable.get? (by rwa [Value.isWritable]) found
    cases long.symm.trans shorter

theorem Settings.directoryField_explained (base : Place) :
    FailsAs (fun e => Explained y d (.render r) (.settings e)) (directoryField entries name base) := by
  unfold directoryField
  have refused {v : PlainData} (found : entries.get? name = some v) :=
    Settings.refuse_explained (α := Option Place) heeds read found (.notPath name)
      (fun _ => .append (.after (.begin rfl) name) _) fun _ => rfl
  split
  · exact .ok _
  · exact .ok _
  · rename_i found
    split
    · exact refused found
    · dsimp only
      split
      · rename_i zero
        refine .error ⟨fun _ => FileError.message_worded _, fun _ => Unhandled.arises_of_path fun _ => .inl zero⟩
      · exact .ok _
  · rename_i found
    exact refused found

theorem Settings.textField_explained (default : String) :
    FailsAs (fun e => Explained y d (.render r) (.settings e)) (textField entries name default) := by
  unfold textField
  have refused {v : PlainData} (found : entries.get? name = some v) :=
    Settings.refuse_explained (α := String) heeds read found (.notText name)
      (fun _ => .append (.after (.begin rfl) name) _) fun _ => rfl
  split
  · exact .ok _
  · rename_i found
    split
    · exact refused found
    · exact .ok _
  · rename_i found
    exact refused found

theorem Settings.ofEntries_explained (base : Place) :
    FailsAs (fun e => Explained y d (.render r) (.settings e)) (ofEntries entries base) := by
  unfold ofEntries
  cases strange : strangeKey? entries with
  | some key => exact .error (.left rfl (.keyNotText heeds read strange))
  | none =>
    dsimp only
    split
    · exact .error (.told (.append (.begin rfl) _) rfl)
    · split <;> refine .bind ?_ fun quiet _ => .bind (directoryField_explained heeds read base) fun _ _ =>
        .bind (textField_explained heeds read _) fun _ _ => .bind (directoryField_explained heeds read base) fun _ _ =>
          .bind (textField_explained heeds read _) fun _ _ => .bind (textField_explained heeds read _) fun _ _ => .ok _
      · exact .ok false
      · exact .ok _
      · exact .error (.told (.append (.begin rfl) _) rfl)

omit read in
theorem Settings.load_explained (speaks : y.Speaks) :
    FailsAs (fun e => Explained y d (.render r) (.settings e)) (load y d p) := by
  refine .bind (.mapError ?_) fun there _ => ?_
  · refine (Disk.ask_justified _).mono fun e justified => ?_
    exact ⟨fun _ => e.message_worded, fun _ => Unhandled.arises_of_path justified⟩
  · split
    · refine .bind (.mapError ?_) fun entries read => ?_
      · refine Disk.readYamlMapping_unusable.mono fun cause unusable => ⟨unusable.worded speaks, fun u passed => ?_⟩
        exact Unhandled.arises_of_data (.settings heeds) unusable passed
      · exact ofEntries_explained heeds (ok_of_mapError read) _
    · exact .ok _

omit heeds read

/-- The settings of a run are there, or it is told why not. -/
theorem RenderRequest.settings_explained (speaks : y.Speaks) :
    FailsAs (Explained y d (.render r)) (r.settings y d) := by
  unfold RenderRequest.settings
  cases given : r.config with
  | some text =>
    dsimp only
    refine .bind (.ask _) fun there _ => ?_
    split
    · exact .mapError (Settings.load_explained (.given given) speaks)
    · exact .error (.told (.append (.begin rfl) _) rfl)
  | none =>
    dsimp only
    refine .bind (.mapError ?_) fun found located => ?_
    · exact (Settings.locate_justified _).mono fun _ justified => .path justified
    split
    · exact .mapError (Settings.load_explained (.nearest given (ok_of_mapError located)) speaks)
    · exact .ok _

theorem RenderRequest.settings_eq_ok (settings : r.settings y d = .ok s) :
    s = {} ∨ ∃ (entries : Entries Empty) (base : Place), Settings.ofEntries entries base = .ok s := by
  unfold RenderRequest.settings at settings
  split at settings
  · obtain ⟨there, -, settings⟩ := exists_of_bind_ok settings
    split at settings
    · exact Settings.load_eq_ok (ok_of_mapError settings)
    · cases settings
  · obtain ⟨found, -, settings⟩ := exists_of_bind_ok settings
    split at settings
    · exact Settings.load_eq_ok (ok_of_mapError settings)
    · cases settings
      exact .inl rfl

theorem RenderRequest.templatesDir_clear {place : Place} (settings : r.settings y d = .ok s)
    (templates : s.templatesDir = some place) : (FilePath.ofPlace place).hasZero = false := by
  rcases settings_eq_ok settings with rfl | ⟨entries, base, made⟩
  · cases templates
  · have found := Settings.templatesDir_of_ofEntries made
    rw [templates] at found
    exact Settings.directoryField_clear found

end Settings

section Catalogs

theorem readCatalogFile_explained (speaks : y.Speaks) (consults : r.Consults y d p) (locale : String)
    (domain : Option String) :
    FailsAs (fun e => Explained y d (.render r) (.catalog e)) (readCatalogFile y d p locale domain) := by
  unfold readCatalogFile
  dsimp only
  split
  · exact .ok _
  · rename_i cause failed
    have unusable := Disk.readYamlMapping_unusable cause failed
    split
    · exact .error (.told (.append (.append (.append (.begin rfl) _) _) _) rfl)
    · exact .error ⟨unusable.worded speaks, fun u passed => Unhandled.arises_of_data consults unusable passed⟩

theorem Catalog.areTexts_of_areWritable {entries : Entries Empty} (writable : Entries.areWritable entries = true) :
    areTexts entries = true := by
  rw [Entries.areWritable_iff] at writable
  exact Entries.areWritable_iff.mpr fun e given => writable e (List.mem_filter.mp given).1

/-- Entries that are refused hold something too long for a text. -/
theorem Catalog.addFile_explained (cat : Catalog) {f : CatalogFile} (consults : r.Consults y d p)
    (read : d.readYamlMapping y p = .ok f.entries) :
    FailsAs (fun e => Explained y d (.render r) (.catalog e)) (cat.addFile f) := by
  refine .mapError ?_
  unfold Catalog.add
  split
  · exact .error (.told (.begin rfl) rfl)
  · split
    · rename_i unfit
      refine .error (.left rfl (Unhandled.arises_of_long consults read (Bool.eq_false_iff.mpr fun writable => ?_)))
      rw [Catalog.areTexts_of_areWritable writable] at unfit
      cases unfit
    · exact .ok _

theorem Catalog.addFiles_explained (speaks : y.Speaks) {files : List (String × FilePath)}
    (consults : ∀ f ∈ files, r.Consults y d f.2) (cat : Catalog) :
    FailsAs (fun e => Explained y d (.render r) (.catalog e))
      (cat.addFiles (readCatalogFiles y d files).answer (readCatalogFiles y d files).events).2 := by
  induction files generalizing cat with
  | nil => exact .ok ()
  | cons x files ih =>
    rw [List.forall_mem_cons] at consults
    cases read : readCatalogFile y d x.2 x.1 none with
    | error e =>
      rw [readCatalogFiles_cons_of_error read]
      exact .error (readCatalogFile_explained speaks consults.1 x.1 none e read)
    | ok file =>
      rw [readCatalogFiles_cons_of_ok read, Catalog.addFiles]
      split
      · exact ih consults.2 _
      · rename_i failed
        exact .error (cat.addFile_explained consults.1 (readCatalogFile_ok read).2.2 _ failed)

theorem Catalog.ofDirectory_explained (speaks : y.Speaks) {directory : FilePath}
    (consults : ∀ f ∈ catalogPaths d directory, r.Consults y d f.2) :
    FailsAs (fun e => Explained y d (.render r) (.catalog e)) (Catalog.ofDirectory y d directory).answer := by
  refine .map ?_ _
  unfold readCatalogDirectory
  split
  · exact Catalog.addFiles_explained speaks consults {}
  · exact .error (.told (.append (.begin rfl) _) rfl)
  · rename_i e _
    exact .error (.told e.message_worded rfl)

theorem Engine.ofSettings_explained (speaks : y.Speaks) (settings : r.settings y d = .ok s) :
    FailsAs (fun e => Explained y d (.render r) (.catalog e)) (Engine.ofSettings y d s).answer := by
  refine .answer_bind ?_ fun _ _ => .ok _
  unfold Settings.readCatalog
  cases catalogs : s.catalogDir with
  | none => exact .ok none
  | some place =>
    refine .answer_bind (.mapError (Catalog.ofDirectory_explained speaks fun f listed => ?_)) fun _ _ =>
      .answer_bind (.ok ()) fun _ _ => .ok _
    exact .catalog settings catalogs listed

/-- The templates of an engine come from the directory that the settings name, and from nowhere else. -/
theorem Engine.source_ofSettings {e : Engine} (made : (Engine.ofSettings y d s).answer = .ok e) :
    e.source = s.templateDirectory.map .directory := by
  rw [Engine.ofSettings, Traced.answer_bind] at made
  cases read : (s.readCatalog y d).answer with
  | error _ =>
    rw [read] at made
    cases made
  | ok catalog =>
    rw [read] at made
    cases made
    rfl

end Catalogs

section Templates

theorem compileText_unread (name : String) :
    FailsAs (fun e => ∀ cause, e = .read cause → d.Unread p cause) (compileText d p name) := by
  refine .bind (.mapError fun cause failed => ?_) fun _ _ => .mapError fun _ _ _ => nofun
  rintro _ ⟨⟩
  exact Disk.readText_unread cause failed

theorem Engine.readTemplate_unread :
    FailsAs (fun e => ∀ cause, e = .read cause → d.Unread p cause) (readTemplate d p) := by
  refine .bind (.mapError fun e failed => ?_) fun content read => .bind (.mapError fun fault garbled => ?_) fun _ _ =>
    .mapError fun _ _ _ => nofun
  · rintro _ ⟨⟩
    exact .file (Disk.read_justified e failed)
  · rintro _ ⟨⟩
    exact .garbled (Disk.read_eq_ok_iff.mp (ok_of_mapError read)) garbled

/-- An error of loading a template is told by the command that asked for it, or by the run that did. -/
theorem CommandError.Explained.run {e : LoadError} {f : Failure} (explained : Explained y d c (.template e))
    (passed : e.failure? = some f) : Explained y d c (.run f) := by
  cases e <;> cases passed <;> exact ⟨explained.worded, explained.arises⟩

theorem CommandError.unhandled?_template {e : LoadError} (handled : e.failure? = none) :
    (CommandError.template e).unhandled? = none := by
  cases e <;> cases handled <;> rfl

theorem TemplateDirectory.load_worded (t : TemplateDirectory) (name : String) :
    FailsAs (fun e => Worded e.message) (t.load d name) := by
  have located : FailsAs (fun e => Worded e.message) (t.locate d name) := by
    refine .bind ?_ fun place _ => .bind (.mapError fun e _ => e.message_worded) fun there _ => ?_
    · unfold TemplateDirectory.place
      dsimp only
      split
      · exact .error (FileError.message_worded _)
      · split
        · exact .ok _
        · exact .error (.append (.begin rfl) name)
    · split
      · exact .ok _
      · exact .error (.append (.append (.append (.append (.begin rfl) _) _) _) _)
  refine .bind located fun place _ => ?_
  split
  · exact .mapError fun e _ => e.message_worded
  · exact .error (DecodeError.message_worded _)
  · exact .error (FileError.message_worded _)
  · rename_i failed
    exact .error (Disk.readText_worded _ _ failed)

theorem Engine.get_worded {e : Engine} (made : e.source = s.templateDirectory.map .directory) (name : String) :
    FailsAs (fun e => Worded e.message) (e.get d name) := by
  unfold Engine.get
  rw [made]
  cases s.templateDirectory with
  | none => exact .error (.append (.append (.begin rfl) _) _)
  | some t => exact t.load_worded name

/-- A directory that fails at a name does so for a reason. -/
theorem TemplateDirectory.Fails.arises {t : TemplateDirectory} {name : String} {e : LoadError}
    (failed : t.Fails d name e) (settings : r.settings y d = .ok s) (templates : s.templateDirectory = some t)
    (passed : (CommandError.template e).unhandled? = some u) : u.Arises y d (.render r) := by
  obtain ⟨place, directory, rfl⟩ := Option.map_eq_some_iff.mp templates
  cases failed with
  | zeroCharacter zero =>
    have whole := zero.resolve_left (Bool.eq_false_iff.mp (RenderRequest.templatesDir_clear settings directory))
    have justified : FileError.Justified ⟨.zeroCharacter, _, none⟩ := fun _ => .inl whole
    exact Unhandled.arises_of_path justified passed
  | @tooLong inner inside long =>
    have justified : FileError.Justified ⟨.nameTooLong, .ofPlace inner, none⟩ := Disk.justified_of_ne nofun
    exact Unhandled.arises_of_path justified passed
  | undecodable inside stands garbled =>
    cases passed
    exact .undecodable (.named settings templates inside) stands garbled

theorem Engine.get_explained {e : Engine} (settings : r.settings y d = .ok s)
    (made : e.source = s.templateDirectory.map .directory) (name : String) :
    FailsAs (fun e => Explained y d (.render r) (.template e)) (e.get d name) := by
  intro error failed
  refine ⟨fun _ => Engine.get_worded made name error failed, fun u passed => ?_⟩
  have fails : error.failure? ≠ none := by
    intro handled
    rw [CommandError.unhandled?_template handled] at passed
    cases passed
  rw [Engine.get, made] at failed
  cases templates : s.templateDirectory with
  | none =>
    rw [templates] at failed
    cases failed
    exact absurd rfl fails
  | some t =>
    rw [templates] at failed
    exact (TemplateDirectory.load_fails_iff.mp ⟨failed, fails⟩).arises settings templates passed

/-- Only a file with data makes data that is too long. -/
theorem RenderRequest.arises_of_long {data : Entries Empty} (entries : r.entries y d = .ok data)
    (long : Entries.areWritable data = false) : (Unhandled.raised .tooManyDigits).Arises y d (.render r) := by
  unfold RenderRequest.entries at entries
  cases given : r.data with
  | none =>
    rw [given] at entries
    cases entries
    cases long
  | some text =>
    rw [given] at entries
    obtain ⟨there, -, entries⟩ := exists_of_bind_ok entries
    split at entries
    · obtain ⟨v, document, entries⟩ := exists_of_bind_ok entries
      split at entries
      · cases entries
        cases long
      · cases entries
        exact .raised (.data given) (ok_of_mapError document) (by rwa [Value.isWritable])
      · cases entries
    · cases entries

/-- A run over data without functions fails only where the directory of its templates does, or where a value in the
data is too long for a text. -/
theorem Engine.render_explained {e : Engine} (settings : r.settings y d = .ok s)
    (made : e.source = s.templateDirectory.map .directory) (t : Template) {data : Entries Empty}
    (entries : r.entries y d = .ok data) (options : Option Options) :
    FailsAs (fun f => Explained y d (.render r) (.run f)) (e.render d t ⟨[], data⟩ options).answer := by
  intro f failed
  have closed : Closed fun v : PlainData => Entries.areWritable data = true → v.isWritable = true :=
    (Inherited.isWritable.under _).closed fun f => f.elim
  have whole : (⟨[], data⟩ : Context Empty).All fun v => Entries.areWritable data = true → v.isWritable = true :=
    .single fun writable => by rwa [Value.isWritable]
  cases render_accounted closed t whole f failed with
  | @call _ function => exact function.elim
  | unwritable known long =>
    refine .left rfl (RenderRequest.arises_of_long entries (Bool.eq_false_iff.mpr fun writable => ?_))
    cases long.symm.trans (known writable)
  | @loader loader name error _ present asked answer passed =>
    change e.source.map (·.load d) = some loader at present
    obtain ⟨source, chosen, rfl⟩ := Option.map_eq_some_iff.mp present
    have got : e.get d name = .error error := by rwa [Engine.get, chosen]
    exact (Engine.get_explained settings made name error got).run passed

end Templates

end Stencil
