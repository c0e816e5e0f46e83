import Stencil.Data.Builtin
import Stencil.Proofs.Render.Comparison

namespace Stencil

variable {φ : Type} {s : Setting} {ctx : Context φ} {mark : Mark} {name : String} {t : Template}

/-- Runs without a report of too deep nesting, compared by their reports. -/
def Comparison.shallow : Comparison Diagnostic where
  allowed e := ∀ d, e.diagnostic? = some d → d.cause.isTooDeep = false
  view := Event.diagnostic?
  keys _ := True
  marks := Eq
  standings _ _ := True
  marks_refl _ := rfl
  enter _ _ := trivial
  began _ _ := rfl
  reported _ places := by rw [places]
  tooDeep _ _ _ allowed := nomatch allowed _ rfl
  tooDeepInPlace _ _ _ allowed := nomatch allowed _ rfl
  found _ _ _ _ := trivial

theorem Comparison.shallow_unlimited (loud : s.options.quiet = false) : shallow.Unlimited s := by
  refine ⟨loud, fun d deep allowed => ?_⟩
  cases deep.symm.trans (allowed d rfl)

/-- A template that is found is found without a report. -/
theorem Comparison.shallow_findTemplate (answer : (findTemplate s ctx mark name).answer = .ok (some t)) :
    shallow.Same (findTemplate s ctx mark name) (pure (some t)) :=
  fun _ => ⟨answer, reportsOf_findTemplate answer⟩

section Nodes

variable [Callable φ]

theorem nodesText_append (below : Option (Below φ)) (st : Standing) (ms ns : List Node) :
    nodesText s below st ctx (ms ++ ns) = do
      let first ← nodesText s below st ctx ms
      let others ← nodesText s below st ctx ns
      return first ++ others := by
  induction ms with
  | nil => simp only [List.nil_append, nodesText, pure_bind, String.empty_append, bind_pure]
  | cons m ms ih =>
    simp only [List.cons_append, nodesText, ih, bind_assoc, pure_bind, String.append_assoc]

theorem renderAt_append (levels : Nat) (st : Standing) (ms ns : List Node) :
    renderAt s levels st ctx (ms ++ ns) = do
      let first ← renderAt s levels st ctx ms
      let others ← renderAt s levels st ctx ns
      return first ++ others := by
  cases levels <;> exact nodesText_append _ st ms ns

/-- A directive alone, if what happens in it is compared by reports. -/
theorem Comparison.shallow_alone {below : Option (Below φ)} {st : Standing} {n : Node} {x : Outcome String}
    (same : shallow.Same (nodeText s below st ctx n) x) : shallow.Same (nodesText s below st ctx [n]) x := by
  have whole : x = pure () >>= fun _ => x >>= fun first => pure () >>= fun _ =>
      pure "" >>= fun others => pure (first ++ others) := by
    simp only [pure_bind, String.append_empty, bind_pure]
  rw [whole]
  refine .bind (fun _ => ⟨rfl, rfl⟩) fun _ _ _ => .bind same fun first _ _ => ?_
  exact .bind (fun _ => ⟨rfl, rfl⟩) fun _ _ _ => .refl _

/-- The nodes of an included template show the same one level further up, if there was a level for them. -/
theorem Comparison.shallow_include (loud : s.options.quiet = false)
    (found : (findTemplate s ctx mark name).answer = .ok (some t)) (levels : Nat) (st : Standing) :
    shallow.Same (Stencil.renderAt s levels st ctx [.include mark name])
      (Stencil.renderAt s levels st ctx t.nodes) := by
  cases levels with
  | zero =>
    refine shallow_alone fun allowed => ?_
    cases allowed _ (reported_mem loud) _ rfl
  | succ levels =>
    refine shallow_alone ?_
    have deeper : shallow.Same (Stencil.renderAt s levels (st.enter (some name)) ctx t.nodes)
        (Stencil.renderAt s (levels + 1) st ctx t.nodes) :=
      renderAt (.refl _ s) (.inr ⟨Nat.le_succ levels, shallow_unlimited loud⟩) trivial (.refl ctx)
        (Node.LikeAll.refl (fun _ => rfl) t.nodes) fun _ _ => trivial
    refine .bind (g := fun _ => Stencil.renderAt s (levels + 1) st ctx t.nodes)
      (shallow_findTemplate found) fun a answer _ => ?_
    cases found.symm.trans answer
    exact deeper

/-- An include of a template that is found, between any nodes, may be replaced by the nodes of the template,
wherever the run stands and however many levels are left. If there is no report that they are too few, the text
or the failure is the same, and so are all reports. -/
theorem renderAt_included (loud : s.options.quiet = false)
    (found : (findTemplate s ctx mark name).answer = .ok (some t)) (levels : Nat) (st : Standing)
    (before after : List Node)
    (enough : ∀ d ∈ reportsOf (renderAt s levels st ctx (before ++ [.include mark name] ++ after)).events,
      d.cause.isTooDeep = false) :
    (renderAt s levels st ctx (before ++ [.include mark name] ++ after)).answer =
        (renderAt s levels st ctx (before ++ t.nodes ++ after)).answer ∧
      reportsOf (renderAt s levels st ctx (before ++ [.include mark name] ++ after)).events =
        reportsOf (renderAt s levels st ctx (before ++ t.nodes ++ after)).events := by
  have same : Comparison.shallow.Same (renderAt s levels st ctx (before ++ [.include mark name] ++ after))
      (renderAt s levels st ctx (before ++ t.nodes ++ after)) := by
    simp only [renderAt_append]
    refine .bind (.bind (.refl _) fun _ _ _ => ?_) fun _ _ _ => .refl _
    exact .bind (Comparison.shallow_include loud found levels st) fun _ _ _ => .refl _
  refine same fun e member d told => enough d ?_
  exact List.mem_filterMap.mpr ⟨e, member, told⟩

end Nodes

/-- A template that maps another one over a list, one of whose elements is none, and looks for what is missing. -/
def roster : Template :=
  ⟨[.attr ⟨1, 1⟩ ["title"], .mapNamed ⟨1, 8⟩ "entry" ["people"]], "roster"⟩

def rosterData : Context Builtin :=
  ⟨[], [(.str "roster", .template roster), (.str "entry", .template ⟨[.attr ⟨1, 1⟩ ["name"], .text ";"], "entry"⟩),
    (.str "people", .list [.mapping [(.str "name", .str "x")], .null])]⟩

/-- The last level but one, with reports before, in and after the template that is included. -/
theorem renderAt_included_of_roster :
    let s : Setting := ⟨some fun name => .error (.missing name), none, "en", {}⟩
    let before : List Node := [.attr ⟨1, 1⟩ ["none"], .text ": "]
    let after : List Node := [.mapNamed ⟨2, 3⟩ "entry" ["people"]]
    let st : Standing := ⟨98, ["main"]⟩
    s.options.quiet = false ∧ (findTemplate s rosterData ⟨1, 9⟩ "roster").answer = .ok (some roster) ∧
      (∀ d ∈ reportsOf (renderAt s 2 st rosterData (before ++ [.include ⟨1, 9⟩ "roster"] ++ after)).events,
        d.cause.isTooDeep = false) ∧
      (renderAt s 2 st rosterData (before ++ [.include ⟨1, 9⟩ "roster"] ++ after)).answer =
        (renderAt s 2 st rosterData (before ++ roster.nodes ++ after)).answer ∧
      reportsOf (renderAt s 2 st rosterData (before ++ [.include ⟨1, 9⟩ "roster"] ++ after)).events =
        reportsOf (renderAt s 2 st rosterData (before ++ roster.nodes ++ after)).events := by
  intro s before after st
  have found : (findTemplate s rosterData ⟨1, 9⟩ "roster").answer = .ok (some roster) := rfl
  have enough : ∀ d ∈ reportsOf (renderAt s 2 st rosterData
      (before ++ [.include ⟨1, 9⟩ "roster"] ++ after)).events, d.cause.isTooDeep = false := by
    decide +kernel
  exact ⟨rfl, found, enough, renderAt_included rfl found 2 st before after enough⟩

end Stencil
