import Stencil.Proofs.Render.Inclusion
import Stencil.Proofs.Render.Levels
import Stencil.Proofs.Render.Verbatim

namespace Stencil

variable {φ α β : Type}

/-- The reports that get through: none of them when the run is quiet. -/
def Setting.shown (s : Setting) (ds : List Diagnostic) : List Diagnostic :=
  if s.options.quiet then [] else ds

theorem Setting.shown_nil (s : Setting) : s.shown [] = [] := by
  unfold shown
  split <;> rfl

theorem Setting.shown_append (s : Setting) (ds es : List Diagnostic) :
    s.shown (ds ++ es) = s.shown ds ++ s.shown es := by
  unfold shown
  split <;> rfl

theorem Setting.shown_loud {s : Setting} (loud : s.options.quiet = false) (ds : List Diagnostic) :
    s.shown ds = ds := by
  rw [shown, loud]
  rfl

theorem reportsOf_append (early late : List Event) : reportsOf (early ++ late) = reportsOf early ++ reportsOf late :=
  List.filterMap_append

theorem reportsOf_reports (s : Setting) (d : Diagnostic) : reportsOf (s.reports d) = s.shown [d] := by
  unfold Setting.reports Setting.shown
  split <;> rfl

/-- A part of a run that answers `a` and makes just the reports `ds`. -/
structure Yields (x : Outcome α) (a : α) (ds : List Diagnostic) : Prop where
  answer : x.answer = .ok a
  reports : reportsOf x.events = ds

namespace Yields

theorem pure (a : α) : Yields (pure a) a [] := ⟨rfl, rfl⟩

theorem tell {e : Event} (silent : e.diagnostic? = none) : Yields (Traced.tell e) () [] :=
  ⟨rfl, List.filterMap_cons_none silent⟩

theorem bind {x : Outcome α} {f : α → Outcome β} {a : α} {b : β} {ds es : List Diagnostic} (first : Yields x a ds)
    (second : Yields (f a) b es) : Yields (x >>= f) b (ds ++ es) := by
  rw [Traced.bind_of_ok first.answer]
  exact ⟨second.answer, by rw [reportsOf_append, first.reports, second.reports]⟩

/-- A first part that reports nothing. -/
theorem after {x : Outcome α} {f : α → Outcome β} {a : α} {b : β} {ds : List Diagnostic} (first : Yields x a [])
    (second : Yields (f a) b ds) : Yields (x >>= f) b ds := first.bind second

variable {s : Setting}

theorem reportInstead (mark : Mark) (cause : Diagnostic.Cause) :
    Yields (reportInstead s mark cause) "" (s.shown [⟨cause, mark⟩]) := by
  rw [reportInstead_eq]
  exact ⟨rfl, reportsOf_reports s _⟩

/-- Two texts, one behind the other. -/
theorem both {x y : Outcome String} {first second : String} {ds es : List Diagnostic} (left : Yields x first ds)
    (right : Yields y second es) :
    Yields (do
      let a ← x
      let b ← y
      return a ++ b) (first ++ second) (ds ++ es) := by
  have rest : Yields (do let b ← y; return first ++ b) (first ++ second) es := by
    rw [← List.append_nil es]
    exact right.bind (.pure _)
  exact left.bind rest

theorem findTemplate {loader : Loader} (present : s.loader = some loader) {name : String} {t : Template}
    (loads : loader name = .ok t) (ctx : Context φ) (mark : Mark) :
    Yields (findTemplate s ctx mark name) (some t) [] := by
  unfold Stencil.findTemplate
  rw [present]
  dsimp only
  rw [loads]
  exact .after (.tell rfl) (.after (.tell rfl) (.pure _))

section Nodes

variable [Callable φ] {st : Standing} {ctx : Context φ} {ds es : List Diagnostic} {first second : String}

theorem nodes {below : Option (Below φ)} {n : Node} {ns : List Node}
    (evaluated : Yields (nodeText s below st ctx n) first ds)
    (others : Yields (nodesText s below st ctx ns) second es) :
    Yields (nodesText s below st ctx (n :: ns)) (first ++ second) (ds ++ es) := by
  rw [nodesText_cons evaluated.answer others.answer]
  refine ⟨rfl, ?_⟩
  rw [List.cons_append, reportsOf, List.filterMap_cons_none rfl, List.filterMap_append, List.filterMap_append]
  have own : reportsOf (nodeText s below st ctx n).events ++ reportsOf [.wrote first] = ds :=
    evaluated.reports.symm ▸ List.append_nil ds
  exact congrArg₂ _ own others.reports

theorem node {below : Option (Below φ)} {n : Node} (evaluated : Yields (nodeText s below st ctx n) first ds) :
    Yields (nodesText s below st ctx [n]) first ds := by
  have nothing : Yields (nodesText s below st ctx []) "" [] := .pure ""
  have whole := nodes evaluated nothing
  rwa [String.append_empty, List.append_nil] at whole

theorem append {levels : Nat} {ms ns : List Node} (left : Yields (renderAt s levels st ctx ms) first ds)
    (right : Yields (renderAt s levels st ctx ns) second es) :
    Yields (renderAt s levels st ctx (ms ++ ns)) (first ++ second) (ds ++ es) := by
  rw [renderAt_append]
  exact .both left right

theorem verbatim (levels : Nat) (text : String) : Yields (renderAt s levels st ctx (Node.verbatim text)) text [] := by
  cases levels <;> exact ⟨(nodesText_verbatim s _ st ctx text).1, (nodesText_verbatim s _ st ctx text).2⟩

end Nodes
end Yields
end Stencil
