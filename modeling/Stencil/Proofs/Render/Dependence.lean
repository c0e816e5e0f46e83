import Stencil.Data.Builtin
import Stencil.Proofs.Render.Comparison
import Stencil.Yaml.Scalar

namespace Stencil

variable {φ : Type}

/-- The templates that were found during a run, from wherever they are. -/
def templatesOf (events : List Event) : List Template :=
  events.filterMap Event.template?

/-- Runs in which only templates with keys among the given ones are found, compared by all that happens. -/
def Comparison.exact (keys : String → Prop) : Comparison Event where
  allowed e := ∀ t, e.template? = some t → ∀ o ∈ t.occurrences, keys o.key
  view := some
  keys := keys
  marks := Eq
  standings := Eq
  marks_refl _ := rfl
  enter _ standings := by rw [standings]
  began standings like := by rw [standings, like.eq]
  reported _ places := by rw [places]
  tooDeep _ standings places _ := by rw [standings, places]
  tooDeepInPlace _ standings places _ := by rw [standings, places]
  found allowed told := allowed _ told

variable [Callable φ] {t : Template}

/-- Whole runs are the same in all that happens when their settings and scopes are as good as the same. -/
theorem Comparison.exact_render {keys : String → Prop} {s s' : Setting}
    (settings : (exact keys).SettingsAlike s s') {c d : Context φ} (scopes : c.Alike d)
    (own : ∀ o ∈ t.occurrences, keys o.key)
    (found : ∀ u ∈ templatesOf (render s t c).events, ∀ o ∈ u.occurrences, keys o.key) :
    render s t c = render s' t d := by
  have same : (exact keys).Same (render s t c) (render s' t d) :=
    Comparison.renderAt settings (.inl rfl) rfl scopes (Node.LikeAll.refl (fun _ => rfl) t.nodes) own
  have allowed : ∀ e ∈ (render s t c).events, (exact keys).allowed e :=
    fun e member u told => found u (List.mem_filterMap.mpr ⟨e, member, told⟩)
  obtain ⟨answers, events⟩ := same allowed
  simp only [exact, List.filterMap_some] at events
  calc render s t c
      = ⟨(render s t c).events, (render s t c).answer⟩ := rfl
    _ = ⟨(render s' t d).events, (render s' t d).answer⟩ := by rw [answers, events]

section Translators

/-- Translators that agree on the keys of the template and of every template that is found during the run make no
difference: the run is the same in all that happens, and so in its text and its reports. -/
theorem render_translators (s : Setting) (t : Template) (ctx : Context φ) (f g : Translator)
    (keys : String → Prop) (own : ∀ o ∈ t.occurrences, keys o.key)
    (found : ∀ u ∈ templatesOf (render { s with translator := some f } t ctx).events,
      ∀ o ∈ u.occurrences, keys o.key)
    (agree : ∀ key, keys key → ∀ locale domain, f key locale domain = g key locale domain) :
    render { s with translator := some f } t ctx = render { s with translator := some g } t ctx := by
  have settings : (Comparison.exact keys).SettingsAlike { s with translator := some f }
      { s with translator := some g } := by
    refine ⟨rfl, rfl, fun key known => ?_⟩
    exact congrArg (·.getD key) (agree key known _ _)
  exact Comparison.exact_render settings (.refl ctx) own found

/-- Translators that differ at a key that is nowhere, with keys in all kinds of bodies and in an included template. -/
theorem render_translators_of_bodies :
    let s : Setting := ⟨some fun name => .ok ⟨[.txt ⟨1, 1⟩ "d"], name⟩, none, "en", {}⟩
    let t : Template := ⟨[.cond ⟨1, 1⟩ ["x"] [] (some [.txt ⟨1, 7⟩ "a", .mapInline ⟨2, 1⟩ [.txt ⟨2, 9⟩ "b"] ["xs"]]),
      .include ⟨3, 1⟩ "part"], "main"⟩
    let ctx : Context Builtin := ⟨[], [(.str "xs", .list [.mapping []])]⟩
    let f : Translator := fun key _ _ => some (key ++ key)
    let g : Translator := fun key _ _ => if key = "c" then none else some (key ++ key)
    (∀ o ∈ t.occurrences, o.key ≠ "c") ∧
      (∀ u ∈ templatesOf (render { s with translator := some f } t ctx).events, ∀ o ∈ u.occurrences, o.key ≠ "c") ∧
      (∀ key, key ≠ "c" → ∀ locale domain, f key locale domain = g key locale domain) ∧
      render { s with translator := some f } t ctx = render { s with translator := some g } t ctx := by
  intro s t ctx f g
  have own : ∀ o ∈ t.occurrences, o.key ≠ "c" := by decide
  have found : ∀ u ∈ templatesOf (render { s with translator := some f } t ctx).events,
      ∀ o ∈ u.occurrences, o.key ≠ "c" := by
    decide +kernel
  have agree : ∀ key, key ≠ "c" → ∀ locale domain, f key locale domain = g key locale domain :=
    fun key other _ _ => (if_neg other).symm
  exact ⟨own, found, agree, render_translators s t ctx f g (· ≠ "c") own found agree⟩

end Translators

section Scopes

/-- Scopes in which every name finds the same make no difference, if functions are called with the same. In
particular the scopes inside the outermost one may be merged into a single one, in which the inner ones
count first, whatever keys other than texts are the same. -/
theorem render_scopes (s : Setting) (t : Template) (c : Context φ) (same : Value φ → Value φ → Bool)
    (texts : ∀ key name, same key (.str name) = key.isText name) :
    (∀ d : Context φ, c.root = d.root → (∀ name, c.lookup name = d.lookup name) →
      render s t c = render s t d) ∧
    render s t c = render s t (c.merged same) := by
  have settings : (Comparison.exact fun _ => True).SettingsAlike s s := .refl _ s
  have alike {d : Context φ} (scopes : c.Alike d) : render s t c = render s t d :=
    Comparison.exact_render settings scopes (fun _ _ => trivial) fun _ _ _ _ => trivial
  exact ⟨fun d root lookup => alike ⟨root, lookup⟩, alike (c.alike_merged texts)⟩

/-- Two scopes that bind the same name, inside one that holds a function, and the same in a single one. -/
theorem render_scopes_of_two :
    let s : Setting := ⟨none, none, "en", {}⟩
    let t : Template := ⟨[.attr ⟨1, 1⟩ ["a"], .attr ⟨1, 4⟩ ["b"], .attr ⟨1, 7⟩ ["size"]], ""⟩
    let root : Entries Builtin := [(.str "size", .func .len)]
    let c : Context Builtin := ⟨[[(.str "a", .int 1)], [(.str "a", .int 2), (.str "b", .int 3)]], root⟩
    let d : Context Builtin := ⟨[[(.str "b", .int 3), (.str "a", .int 1)]], root⟩
    (∀ (key : Value Builtin) name, Yaml.sameKey key (.str name) = key.isText name) ∧ c.root = d.root ∧
      (∀ name, c.lookup name = d.lookup name) ∧ render s t c = render s t d ∧
      render s t c = render s t (c.merged Yaml.sameKey) := by
  intro s t root c d
  have texts (key : Value Builtin) (name : String) : Yaml.sameKey key (.str name) = key.isText name := by
    cases key <;> simp [Yaml.sameKey, Value.isText]
  have lookup (name : String) : c.lookup name = d.lookup name := by
    by_cases a : "a" = name
    · subst a
      rfl
    · by_cases b : "b" = name
      · subst b
        rfl
      · simp [Context.lookup, Context.scopes, Entries.get?, Value.isText, a, b, c, d, root]
  have both := render_scopes s t c Yaml.sameKey texts
  exact ⟨texts, rfl, lookup, both.1 d rfl lookup, both.2⟩

end Scopes
end Stencil
