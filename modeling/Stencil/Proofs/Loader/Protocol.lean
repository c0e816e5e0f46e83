import Stencil.Data.Builtin
import Stencil.Proofs.Loader.Chain
import Stencil.Proofs.Loader.Directory

namespace Stencil

/-- The directories that a source may look into. -/
inductive TemplateSource.Asks (t : TemplateDirectory) : TemplateSource → Prop
  | directory : Asks t (.directory t)
  | chain {sources : List TemplateSource} {s : TemplateSource} (member : s ∈ sources) (asks : Asks t s) :
      Asks t (.chain sources)

theorem Registered.load_error {entry : Registered} {name : String} {e : LoadError}
    (error : entry.load name = .error e) : ∃ fault, e = .invalid fault := by
  cases entry with
  | ready t => cases error
  | source text => exact compileNamed_error error

/-- A registry says no more than any loader may. -/
theorem loadRegistered_error {r : Registry} {name : String} {e : LoadError}
    (error : loadRegistered r name = .error e) : e.failure? = none := by
  rw [loadRegistered_eq] at error
  cases found : r.get? name with
  | none =>
    rw [found] at error
    cases error
    rfl
  | some entry =>
    rw [found] at error
    obtain ⟨fault, rfl⟩ := Registered.load_error error
    rfl

section Sources

variable {d : Disk} {name : String} {e : LoadError}

mutual

/-- A source fails at a name only where one of its directories does. -/
theorem TemplateSource.load_fails : ∀ source : TemplateSource, source.load d name = .error e → e.failure? ≠ none →
    ∃ t, source.Asks t ∧ t.Fails d name e
  | .registry entries, error, fails => absurd (loadRegistered_error error) fails
  | .directory t, error, fails => ⟨t, .directory, TemplateDirectory.load_fails_iff.mp ⟨error, fails⟩⟩
  | .chain sources, error, fails => by
    obtain ⟨s, member, t, asks, failed⟩ := TemplateSource.loadEach_fails sources error fails
    exact ⟨t, .chain member asks, failed⟩

theorem TemplateSource.loadEach_fails : ∀ sources : List TemplateSource,
    loadFirst (TemplateSource.loadEach d sources) name = .error e → e.failure? ≠ none →
      ∃ s ∈ sources, ∃ t, s.Asks t ∧ t.Fails d name e
  | [], error, fails => by
    cases error
    exact absurd rfl fails
  | s :: sources, error, fails => by
    rw [TemplateSource.loadEach, loadFirst_cons] at error
    split at error
    · obtain ⟨later, member, found⟩ := TemplateSource.loadEach_fails sources error fails
      exact ⟨later, List.mem_cons_of_mem s member, found⟩
    · exact ⟨s, List.mem_cons_self, TemplateSource.load_fails s error fails⟩

end

end Sources

/-- What the loader fails at, nobody looks for among the data. -/
theorem answer_include_of_failure {φ : Type} [Callable φ] {s : Setting} {loader : Loader} {name : String}
    {e : LoadError} {f : Failure} (present : s.loader = some loader) (failed : loader name = .error e)
    (passed : e.failure? = some f) (ctx : Context φ) (mark : Mark) (levels : Nat) (st : Standing) (after : List Node) :
    (renderAt s (levels + 1) st ctx (.include mark name :: after)).answer = .error f := by
  have sought : (findTemplate s ctx mark name).answer = .error f := by
    rw [findTemplate, present]
    dsimp only
    rw [Traced.answer_bind, failed]
    cases e <;> cases passed <;> rfl
  rw [renderAt, nodesText, nodeText, includeText, enter]
  simp only [Traced.answer_bind, sought]
  rfl

/-- A file of one byte that begins no character, in the directory one is in. -/
def garbledDisk : Disk :=
  ⟨[(["w"], .directory), (["w", "a.tpl"], .file [0xFF])], ["w"]⟩

theorem load_garbled :
    (TemplateSource.directory templatesHere).load garbledDisk "a" = .error (.unreadable ⟨0xFF, 0, 1, .start⟩) := by
  have inside : templatesHere.place garbledDisk.here "a" = .ok ["w", "a.tpl"] := by rfl
  have stands : garbledDisk.find? (.ofPlace ["w", "a.tpl"]) = some (.file [0xFF]) := by rfl
  have garbled : templatesHere.charset.decode [0xFF] = .error ⟨0xFF, 0, 1, .start⟩ := by cbv
  exact (TemplateDirectory.load_fails_iff.mpr (.undecodable inside stands garbled)).1

/-- Of any name a source gives the template, or says that there is none, or that its source is refused; or else one
of its directories fails. So a run that has its templates from there gives a text, unless a function in the data
throws or a value cannot be written out, or the run asks for a name at which one of the directories fails. -/
theorem TemplateSource.load_protocol (source : TemplateSource) (d : Disk) :
    (∀ name, (∃ t, source.load d name = .ok t) ∨ (∃ words, source.load d name = .error (.missing words)) ∨
      (∃ fault, source.load d name = .error (.invalid fault)) ∨
      ∃ t e, source.Asks t ∧ t.Fails d name e ∧ source.load d name = .error e) ∧
    ∀ (φ : Type) [Callable φ] (s : Setting) (u : Template) (ctx : Context φ) (f : Failure),
      s.loader = some (source.load d) → (render s u ctx).answer = .error f →
        (∃ r, f = .raised r) ∨ ∃ name t e, .asked name ∈ (render s u ctx).events ∧ source.Asks t ∧
          t.Fails d name e ∧ e.failure? = some f := by
  constructor
  · intro name
    cases answer : source.load d name with
    | ok t => exact .inl ⟨t, rfl⟩
    | error e =>
      cases e with
      | missing words => exact .inr (.inl ⟨words, rfl⟩)
      | invalid fault => exact .inr (.inr (.inl ⟨fault, rfl⟩))
      | unreadable _ | file _ =>
        obtain ⟨t, asks, failed⟩ := source.load_fails answer (Option.some_ne_none _)
        exact .inr (.inr (.inr ⟨t, _, asks, failed, rfl⟩))
  · intro φ _ s u ctx f present failed
    cases render_accounted .all u (fun _ _ => trivial) f failed with
    | call => exact .inl ⟨_, rfl⟩
    | unwritable => exact .inl ⟨_, rfl⟩
    | @loader loader name e _ given asked answer passed =>
      rw [present] at given
      cases given
      have fails : e.failure? ≠ none := by
        rw [passed]
        exact Option.some_ne_none f
      obtain ⟨t, asks, failed⟩ := source.load_fails answer fails
      exact .inr ⟨name, t, e, asked, asks, failed, passed⟩

/-- A run with a chain, whose registry misses the name of the file that is no text. -/
theorem TemplateSource.load_protocol_of_garbled :
    let source : TemplateSource := .chain [.registry [("b", .source "x")], .directory templatesHere]
    let s : Setting := ⟨some (source.load garbledDisk), none, "en", {}⟩
    let u : Template := ⟨[.include ⟨1, 1⟩ "a", .attr ⟨1, 12⟩ ["x"]], "main"⟩
    let ctx : Context Builtin := ⟨[], [(.str "x", .int 1)]⟩
    (render s u ctx).answer = .error (.unreadable ⟨0xFF, 0, 1, .start⟩) ∧
      ∃ name t e, .asked name ∈ (render s u ctx).events ∧ source.Asks t ∧ t.Fails garbledDisk name e ∧
        e.failure? = some (.unreadable ⟨0xFF, 0, 1, .start⟩) := by
  intro source s u ctx
  have loaded : source.load garbledDisk "a" = .error (.unreadable ⟨0xFF, 0, 1, .start⟩) := by
    change loadFirst [loadRegistered [("b", .source "x")], (TemplateSource.directory templatesHere).load garbledDisk] "a" = _
    rw [loadFirst_cons, loadFirst_cons, load_garbled]
    rfl
  have failed : (render s u ctx).answer = .error (.unreadable ⟨0xFF, 0, 1, .start⟩) :=
    answer_include_of_failure rfl loaded rfl ctx ⟨1, 1⟩ 99 _ _
  refine ⟨failed, ?_⟩
  rcases (source.load_protocol garbledDisk).2 Builtin s u ctx _ rfl failed with ⟨r, raised⟩ | origin
  · cases raised
  · exact origin

/-- A template that includes one whose file is no text ends without a text, also when nothing is to be reported. -/
theorem render_of_garbled :
    let s : Setting := ⟨some ((TemplateSource.directory templatesHere).load garbledDisk), none, "en", { quiet := true }⟩
    (TemplateSource.directory templatesHere).load garbledDisk "a" = .error (.unreadable ⟨0xFF, 0, 1, .start⟩) ∧
      (render s ⟨[.include ⟨1, 1⟩ "a"], ""⟩ (⟨[], []⟩ : Context Builtin)).answer =
        .error (.unreadable ⟨0xFF, 0, 1, .start⟩) :=
  ⟨load_garbled, answer_include_of_failure rfl load_garbled rfl _ ⟨1, 1⟩ 99 _ []⟩

end Stencil
