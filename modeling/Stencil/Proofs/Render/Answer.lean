import Stencil.Proofs.Render.Comparison

namespace Stencil

variable {φ α β : Type}

/-- Two parts of a run that end with the same answer, whatever happens in them. -/
def EndAlike (x y : Outcome α) : Prop :=
  x.answer = y.answer

/-- Runs compared by nothing but their answers. -/
def Comparison.answers : Comparison Empty where
  allowed _ := True
  view _ := none
  keys _ := True
  marks _ _ := True
  standings _ _ := True
  marks_refl _ := trivial
  enter _ _ := trivial
  began _ _ := rfl
  reported _ _ := rfl
  tooDeep _ _ _ _ := rfl
  tooDeepInPlace _ _ _ _ := rfl
  found _ _ _ _ := trivial

theorem Comparison.Same.endAlike {x y : Outcome α} (same : answers.Same x y) : EndAlike x y :=
  (same fun _ _ => trivial).1

namespace EndAlike

theorem same {x y : Outcome α} (alike : EndAlike x y) : Comparison.answers.Same x y := by
  have nothing (events : List Event) : events.filterMap Comparison.answers.view = [] :=
    List.filterMap_eq_nil_iff.mpr fun _ _ => rfl
  exact fun _ => ⟨alike, by rw [nothing, nothing]⟩

theorem bind {x y : Outcome α} {f g : α → Outcome β} (first : EndAlike x y)
    (second : ∀ a, EndAlike (f a) (g a)) : EndAlike (x >>= f) (y >>= g) :=
  (Comparison.Same.bind first.same fun a _ _ => (second a).same).endAlike

variable {s : Setting}

theorem reportInstead (s : Setting) (m n : Mark) (cause other : Diagnostic.Cause) :
    EndAlike (reportInstead s m cause) (reportInstead s n other) := by
  have same : Comparison.answers.Same (Stencil.reportInstead s m cause) (Stencil.reportInstead s n other) :=
    .reportInstead (.refl _ s) fun _ => rfl
  exact same.endAlike

theorem itemsText {m n : Mark} {items : Path} {each other : Entries φ → Outcome String}
    (alike : ∀ entries, EndAlike (each entries) (other entries)) (index : Nat)
    (elements : List (Value φ)) :
    EndAlike (itemsText s m items each index elements) (itemsText s n items other index elements) :=
  (Comparison.Same.itemsText (.refl _ s) trivial items (fun entries => (alike entries).same) index elements).endAlike

theorem listAt [Callable φ] {ctx : Context φ} (m n : Mark) (items : Path) :
    EndAlike (listAt s ctx m items) (listAt s ctx n items) :=
  (Comparison.Same.listAt (.refl _ s) trivial (.refl ctx) items).endAlike

end EndAlike

/-- Two ways to go one level deeper that end alike on like nodes, from wherever the run stands. -/
def BelowAlike (below other : Option (Below φ)) : Prop :=
  Option.Rel (fun x y => ∀ st st' ctx ms ns, Node.LikeAll (fun _ _ => True) ms ns →
    EndAlike (x st ctx ms) (y st' ctx ns)) below other

theorem BelowAlike.enter {s : Setting} {below other : Option (Below φ)} (alike : BelowAlike below other)
    (st st' : Standing) {m n : Mark} {name name' : Option String} {cause cause' : Diagnostic.Cause}
    {inside inside' : (Context φ → List Node → Outcome String) → Outcome String}
    (same : ∀ x y, (∀ ctx ms ns, Node.LikeAll (fun _ _ => True) ms ns → EndAlike (x ctx ms) (y ctx ns)) →
      EndAlike (inside x) (inside' y)) :
    EndAlike (enter s below st m name cause inside) (enter s other st' n name' cause' inside') := by
  cases alike with
  | none => exact .reportInstead s m n _ _
  | some related => exact same _ _ (related (st.enter name) (st'.enter name'))

section Nodes

variable [Callable φ] {s : Setting}

/-- What a run at some level ends with is settled by the data of its nodes, the scopes and the setting. -/
theorem renderAt_alike (levels : Nat) (st st' : Standing) (ctx : Context φ) {ms ns : List Node}
    (like : Node.LikeAll (fun _ _ => True) ms ns) :
    EndAlike (renderAt s levels st ctx ms) (renderAt s levels st' ctx ns) :=
  (Comparison.renderAt (k := .answers) (.refl _ s) (.inl rfl) trivial (.refl ctx) like fun _ _ => trivial).endAlike

/-- The name of a template is of no account for its text. -/
theorem render_alike (t : Template) (ctx : Context φ) (st : Standing) :
    EndAlike (render s t ctx) (renderAt s maxLevels st ctx t.nodes) :=
  renderAt_alike maxLevels _ st ctx (Node.LikeAll.refl (fun _ => trivial) t.nodes)

end Nodes

end Stencil
