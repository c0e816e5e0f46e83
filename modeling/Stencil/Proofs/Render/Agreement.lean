import Stencil.Data.Builtin
import Stencil.Proofs.Render.Comparison

namespace Stencil

variable {φ : Type}

/-- The cause without the templates that are open. -/
def Diagnostic.Cause.withoutChain : Diagnostic.Cause → Diagnostic.Cause
  | .tooDeep _ name => .tooDeep [] name
  | .tooDeepInPlace _ items => .tooDeepInPlace [] items
  | cause => cause

/-- Two reports of the same thing. The places may differ, and so may the chains where both report that
no level is left; of all other messages no character does. -/
structure Diagnostic.SameMatter (d e : Diagnostic) : Prop where
  kind : d.kind = e.kind
  target : d.target = e.target
  message : d.message = e.message ∨ ∃ chain chain' : String,
    d.message = "Template nesting exceeds 100 levels: " ++ chain ∧
      e.message = "Template nesting exceeds 100 levels: " ++ chain'

theorem Diagnostic.sameMatter_of_withoutChain {d e : Diagnostic}
    (same : d.cause.withoutChain = e.cause.withoutChain) : d.SameMatter e := by
  obtain ⟨c, m⟩ := d
  obtain ⟨c', n⟩ := e
  -- Only the two causes that have a chain lose something, so causes of different forms never become the same.
  cases c <;> cases c' <;> simp only [Cause.withoutChain, reduceCtorEq] at same
  case tooDeep.tooDeep chain _ chain' _ =>
    obtain ⟨-, rfl⟩ := Cause.tooDeep.inj same
    exact ⟨rfl, rfl, .inr ⟨nestingText chain _, nestingText chain' _, rfl, rfl⟩⟩
  case tooDeepInPlace.tooDeepInPlace chain _ chain' _ =>
    obtain ⟨-, rfl⟩ := Cause.tooDeepInPlace.inj same
    exact ⟨rfl, rfl, .inr ⟨nestingText chain none, nestingText chain' none, rfl, rfl⟩⟩
  all_goals
    cases same
    exact ⟨rfl, rfl, .inl rfl⟩

/-- Runs compared by their answers and by the causes of their reports. -/
def Comparison.causes : Comparison Diagnostic.Cause where
  allowed _ := True
  view e := e.diagnostic?.map (·.cause.withoutChain)
  keys _ := True
  marks _ _ := True
  standings _ _ := True
  marks_refl _ := trivial
  enter _ _ := trivial
  began _ _ := rfl
  reported _ _ := rfl
  tooDeep _ _ _ _ := rfl
  tooDeepInPlace _ _ _ _ := rfl
  found _ _ _ _ := trivial

theorem Comparison.causes_view (events : List Event) :
    events.filterMap causes.view = (reportsOf events).map (·.cause.withoutChain) :=
  (List.map_filterMap ..).symm

/-- Templates that agree cannot be told apart by filling them in, but for the places that reports give and for the
chains in reports that no level is left. -/
theorem render_agreeing [Callable φ] (s : Setting) {t u : Template} (agree : t.agrees u = true) (ctx : Context φ) :
    (render s t ctx).answer = (render s u ctx).answer ∧
      List.Forall₂ Diagnostic.SameMatter (reportsOf (render s t ctx).events) (reportsOf (render s u ctx).events) := by
  have same : Comparison.causes.Same (render s t ctx) (render s u ctx) :=
    Comparison.renderAt (.refl _ s) (.inl rfl) trivial (.refl ctx) (Node.LikeAll.of_agreeAll agree) fun _ _ => trivial
  obtain ⟨answers, causes⟩ := same fun _ _ => trivial
  rw [Comparison.causes_view, Comparison.causes_view] at causes
  refine ⟨answers, ?_⟩
  have paired := List.forall₂_eq_eq_eq ▸ causes
  rw [List.forall₂_map_left_iff, List.forall₂_map_right_iff] at paired
  exact paired.imp fun _ _ => Diagnostic.sameMatter_of_withoutChain

/-- Templates whose places and names differ at every depth, filled in with a loader whose templates include
themselves: a path that leads nowhere, an element that is no mapping, and no level left. -/
theorem render_agreeing_of_moved :
    let s : Setting := ⟨some fun name => .ok ⟨[.include ⟨1, 1⟩ name], name⟩, none, "en", {}⟩
    let t : Template := ⟨[.cond ⟨1, 1⟩ ["x"] [] (some [.mapInline ⟨1, 7⟩ [.attr ⟨1, 13⟩ ["y"]] ["xs"]]),
      .include ⟨2, 1⟩ "part"], "left"⟩
    let u : Template := ⟨[.cond ⟨2, 3⟩ ["x"] [] (some [.mapInline ⟨4, 1⟩ [.attr ⟨5, 2⟩ ["y"]] ["xs"]]),
      .include ⟨6, 1⟩ "part"], "right"⟩
    let ctx : Context Builtin := ⟨[], [(.str "xs", .list [.mapping [], .int 1])]⟩
    t.agrees u = true ∧
      (reportsOf (render s t ctx).events).map (·.kind) = [.attribute, .listType, .include] ∧
      (render s t ctx).answer = (render s u ctx).answer ∧
      List.Forall₂ Diagnostic.SameMatter (reportsOf (render s t ctx).events)
        (reportsOf (render s u ctx).events) := by
  intro s t u ctx
  have agree : t.agrees u = true := by decide
  have kinds : (reportsOf (render s t ctx).events).map (·.kind) = [.attribute, .listType, .include] := by
    decide +kernel
  exact ⟨agree, kinds, render_agreeing s agree ctx⟩

end Stencil
