import Stencil.Data.Builtin
import Stencil.Localization.Catalog

namespace Stencil.Catalog

variable {φ : Type} [Handle φ]

/-- What can be done to a catalog. -/
inductive Step (φ : Type) where
  | add (locale domain : String) (entries : Entries φ)
  | freeze

/-- A catalog after a step. One that does not take any more stays as it is. -/
def after (c : Catalog) : Step φ → Catalog
  | .add locale domain entries =>
    match c.add locale domain entries with
    | .ok more => more
    | .error _ => c
  | .freeze => c.freeze

/-- A new catalog after some steps, first to last. -/
def ofSteps (steps : List (Step φ)) : Catalog :=
  steps.foldl after {}

/-- What has been added for a locale and a domain before the first freeze, in order. Entries that cannot be taken
as texts are not added. -/
def added (locale domain : String) : List (Step φ) → Entries φ
  | [] | .freeze :: _ => []
  | .add l d entries :: rest =>
    if (l = locale ∧ d = domain) ∧ areTexts entries then entries ++ added locale domain rest
    else added locale domain rest

/-- An entry with the key, taken as a text, and with something for its text. -/
def Gives (key : String) (e : Value φ × Value φ) : Prop :=
  e.1.shown = key ∧ e.2 ≠ .null ∧ e.2 ≠ .str ""

/-- The text of the last of the entries that gives one for the key. -/
def lastText? (entries : Entries φ) (key : String) : Option String :=
  (entries.reverse.find? fun e => !isVoid e.2 && e.1.shown == key).map (·.2.shown)

omit [Handle φ] in
theorem isVoid_eq_false_iff {v : Value φ} : isVoid v = false ↔ v ≠ .null ∧ v ≠ .str "" := by
  cases v <;> simp [isVoid]

theorem gives_iff {key : String} {e : Value φ × Value φ} :
    (!isVoid e.2 && e.1.shown == key) = true ↔ Gives key e := by
  rw [Bool.and_eq_true, Bool.not_eq_true', isVoid_eq_false_iff, beq_iff_eq, Gives, and_comm]

theorem lastText?_append (first second : Entries φ) (key : String) :
    lastText? (first ++ second) key = (lastText? second key).or (lastText? first key) := by
  rw [lastText?, List.reverse_append, List.find?_append, Option.map_or]
  rfl

theorem lastText?_of_none {key : String} {entries : Entries φ} (nothing : ∀ e ∈ entries, ¬Gives key e) :
    lastText? entries key = none := by
  rw [lastText?, Option.map_eq_none_iff, List.find?_eq_none]
  intro e member
  rw [gives_iff]
  exact nothing e (List.mem_reverse.mp member)

theorem lastText?_of_last {key : String} {e : Value φ × Value φ} (before : Entries φ) {later : Entries φ}
    (gives : Gives key e) (last : ∀ x ∈ later, ¬Gives key x) :
    lastText? (before ++ e :: later) key = some e.2.shown := by
  have alone : lastText? [e] key = some e.2.shown := by
    rw [lastText?, List.reverse_singleton, List.find?_singleton, if_pos (gives_iff.mpr gives)]
    rfl
  rw [List.append_cons, lastText?_append, lastText?_append, lastText?_of_none last, alone]
  rfl

section Adding

variable {c more : Catalog} {l d : String} {entries : Entries φ}

theorem find?_messagesOf (key locale domain : String) :
    ((messagesOf l d entries).reverse.find? fun m => m.locale == locale && m.domain == domain && m.key == key).map
      (·.text) = if l = locale ∧ d = domain then lastText? entries key else none := by
  rw [messagesOf, givenEntries, ← List.map_reverse, List.find?_map, Option.map_map, ← List.filter_reverse, List.find?_filter]
  split
  · rename_i here
    obtain ⟨rfl, rfl⟩ := here
    rw [lastText?]
    congr 2
    funext e
    rw [Bool.eq_iff_iff]
    simp
  · rename_i elsewhere
    rw [Option.map_eq_none_iff, List.find?_eq_none]
    intro e _ found
    simp only [Function.comp_apply, Bool.and_eq_true, beq_iff_eq, decide_eq_true_eq] at found
    exact elsewhere found.2.1

theorem find?_add (answer : c.add l d entries = .ok more) (key locale domain : String) :
    more.find? key locale domain =
      if l = locale ∧ d = domain then (lastText? entries key).or (c.find? key locale domain)
      else c.find? key locale domain := by
  unfold add at answer
  split at answer
  · cases answer
  · split at answer
    · cases answer
    · cases answer
      rw [find?, List.find?_append, Option.map_or, find?_messagesOf]
      split <;> rfl

/-- What is void leaves everything as it was. -/
theorem find?_add_of_none (answer : c.add l d entries = .ok more) {key : String}
    (nothing : ∀ e ∈ entries, ¬Gives key e) (locale domain : String) :
    more.find? key locale domain = c.find? key locale domain := by
  rw [find?_add answer, lastText?_of_none nothing]
  split <;> rfl

/-- Additions are refused by frozen catalogs and by no others. -/
theorem add_eq_error_iff : c.add l d entries = .error .frozen ↔ c.frozen = true := by
  unfold add
  split
  · simp_all
  · split <;> simp_all

theorem add_of_not_frozen (l d : String) (unfrozen : c.frozen = false) (texts : areTexts entries = true) :
    ∃ more, c.add l d entries = .ok more ∧ more.frozen = false := by
  rw [add, unfrozen, texts]
  exact ⟨_, rfl, rfl⟩

theorem add_of_no_texts (l d : String) (unfrozen : c.frozen = false) (none : areTexts entries = false) :
    c.add l d entries = .error (.raised .tooManyDigits) := by
  rw [add, unfrozen, none]
  rfl

/-- Entries that cannot be taken as texts leave a catalog as it is. -/
theorem after_of_no_texts (c : Catalog) (l d : String) (none : areTexts entries = false) :
    c.after (.add l d entries) = c := by
  cases frozen : c.frozen with
  | true => rw [after, add_eq_error_iff.mpr frozen]
  | false => rw [after, add_of_no_texts l d frozen none]

end Adding

section Running

variable (c : Catalog) (steps : List (Step φ))

/-- Nothing changes a frozen catalog. -/
theorem foldl_of_frozen (frozen : c.frozen = true) : steps.foldl after c = c := by
  induction steps with
  | nil => rfl
  | cons step steps ih =>
    have same : c.after step = c := by
      cases step with
      | add l d entries => rw [after, add_eq_error_iff.mpr frozen]
      | freeze => rw [after, freeze, ← frozen]
    rw [List.foldl_cons, same, ih]

theorem frozen_foldl : (steps.foldl after c).frozen = true ↔ c.frozen = true ∨ .freeze ∈ steps := by
  induction steps generalizing c with
  | nil => simp
  | cons step steps ih =>
    rw [List.foldl_cons, ih]
    cases step with
    | add l d entries =>
      cases frozen : c.frozen with
      | true => simp [after, add_eq_error_iff.mpr frozen, frozen]
      | false =>
        cases texts : areTexts entries with
        | true =>
          obtain ⟨more, answer, unfrozen⟩ := add_of_not_frozen l d frozen texts
          simp [after, answer, unfrozen]
        | false => simp [after_of_no_texts c l d texts, frozen]
    | freeze => simp [after, freeze]

/-- As long as it is not frozen, a catalog answers with the last text that was added. -/
theorem find?_foldl (unfrozen : c.frozen = false) (key locale domain : String) :
    (steps.foldl after c).find? key locale domain =
      (lastText? (added locale domain steps) key).or (c.find? key locale domain) := by
  induction steps generalizing c with
  | nil => rfl
  | cons step steps ih =>
    rw [List.foldl_cons]
    cases step with
    | add l d entries =>
      cases texts : areTexts entries with
      | true =>
        obtain ⟨more, answer, still⟩ := add_of_not_frozen l d unfrozen texts
        rw [after, answer, ih more still, find?_add answer, added, texts]
        simp only [and_true]
        split
        · rw [lastText?_append, Option.or_assoc]
        · rfl
      | false =>
        rw [after_of_no_texts c l d texts, ih c unfrozen, added, texts, if_neg (by simp)]
    | freeze => rw [foldl_of_frozen _ steps rfl]; rfl

end Running

/-- Two catalogs that cannot be told apart by what they answer. -/
structure AnswersLike (c d : Catalog) : Prop where
  translate : ∀ key locale domain, c.translate key locale domain = d.translate key locale domain
  locales : c.locales = d.locales
  domains : c.domains = d.domains

theorem AnswersLike.of_same {c d : Catalog} (messages : c.messages = d.messages)
    (sections : c.sections = d.sections) : c.AnswersLike d where
  translate key locale domain := by simp only [Catalog.translate, find?, messages]
  locales := by rw [Catalog.locales, Catalog.locales, sections]
  domains := by rw [Catalog.domains, Catalog.domains, sections]

theorem answersLike_freeze (c : Catalog) (n : Nat) :
    ((List.replicate n (Step.freeze : Step φ)).foldl after c).AnswersLike c := by
  have kept : ∀ c : Catalog, ((List.replicate n (Step.freeze : Step φ)).foldl after c).messages = c.messages ∧
      ((List.replicate n (Step.freeze : Step φ)).foldl after c).sections = c.sections := by
    induction n with
    | zero => exact fun _ => ⟨rfl, rfl⟩
    | succ n ih => exact fun c => ih c.freeze
  exact .of_same (kept c).1 (kept c).2

theorem translate_of_base {c : Catalog} {locale : String} (noUnderscore : '_' ∉ locale.toList)
    (noHyphen : '-' ∉ locale.toList) (key domain : String) :
    c.translate key locale domain = c.find? key locale domain := by
  have whole : baseLocale? locale = none := by
    simp [baseLocale?, noUnderscore, noHyphen]
  rw [translate, whole]
  cases c.find? key locale domain <;> rfl

theorem translate_add_of_none {c : Catalog} {l d : String} {entries : Entries φ} {key : String}
    (nothing : ∀ e ∈ entries, ¬Gives key e) (locale domain : String) :
    (c.after (.add l d entries)).translate key locale domain = c.translate key locale domain := by
  rw [after]
  split
  · rename_i more answer
    have same := find?_add_of_none answer nothing
    simp only [translate, same]
  · rfl

/-- A catalog with any history. In a locale without a region a key has the text of the last entry that gives one
for it, among those that were added for just that locale and domain before the first freeze, and it has none
when there is no such entry. An addition whose entries for a key are void does not change what the key
is translated to anywhere. Additions are refused exactly after a freeze, and then it is as if they had not been
tried. To freeze the catalog, however often, does not change what it answers. -/
theorem ofSteps_answers (steps : List (Step φ)) :
    (∀ key locale domain, '_' ∉ locale.toList → '-' ∉ locale.toList →
      (∀ before e later, added locale domain steps = before ++ e :: later → Gives key e →
        (∀ x ∈ later, ¬Gives key x) → (ofSteps steps).translate key locale domain = some e.2.shown) ∧
      ((∀ e ∈ added locale domain steps, ¬Gives key e) →
        (ofSteps steps).translate key locale domain = none)) ∧
    (∀ l d entries key, (∀ e ∈ entries, e.1.shown = key → e.2 = .null ∨ e.2 = .str "") →
      ∀ locale domain, (ofSteps (steps ++ [.add l d entries])).translate key locale domain =
        (ofSteps steps).translate key locale domain) ∧
    (∀ l d entries, ((ofSteps steps).add l d entries = .error .frozen ↔ .freeze ∈ steps) ∧
      (.freeze ∈ steps → ∀ more, ofSteps (steps ++ .add l d entries :: more) = ofSteps (steps ++ more))) ∧
    ∀ n, (ofSteps (steps ++ List.replicate n .freeze)).AnswersLike (ofSteps steps) := by
  refine ⟨fun key locale domain noUnderscore noHyphen => ?_, fun l d entries key void locale domain => ?_,
    fun l d entries => ?_, fun n => ?_⟩
  · have answer : (ofSteps steps).translate key locale domain = lastText? (added locale domain steps) key := by
      rw [translate_of_base noUnderscore noHyphen, ofSteps, find?_foldl _ _ rfl]
      exact Option.or_none
    refine ⟨fun before e later split gives last => ?_, fun nothing => ?_⟩
    · rw [answer, split, lastText?_of_last before gives last]
    · rw [answer, lastText?_of_none nothing]
  · rw [ofSteps, List.foldl_append]
    refine translate_add_of_none (fun e member gives => ?_) locale domain
    exact (void e member gives.1).elim gives.2.1 gives.2.2
  · have frozen : (ofSteps steps).frozen = true ↔ .freeze ∈ steps := by
      simp [ofSteps, frozen_foldl]
    refine ⟨add_eq_error_iff.trans frozen, fun member more => ?_⟩
    -- Frozen as it is, the catalog stays what it is, whatever comes.
    have kept (later : List (Step φ)) : later.foldl after (ofSteps steps) = ofSteps steps :=
      foldl_of_frozen _ later (frozen.mpr member)
    rw [ofSteps, ofSteps, List.foldl_append, List.foldl_append]
    exact (kept _).trans (kept _).symm
  · rw [ofSteps, List.foldl_append]
    exact answersLike_freeze _ n

/-- A key that is no text hides the text that looks like it, and neither what is void nor what comes too late
hides anything. -/
example : (ofSteps (φ := Builtin) [.add "en" "messages" [(.str "1", .str "one"), (.int 1, .bool false)],
    .add "en" "messages" [(.str "1", .null)], .freeze, .add "en" "messages" [(.str "1", .str "late")]]).translate
      "1" "en" "messages" = some "False" := by
  decide +kernel

end Stencil.Catalog
