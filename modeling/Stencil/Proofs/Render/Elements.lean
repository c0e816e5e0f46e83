import Stencil.Data.Builtin
import Stencil.Proofs.Render.Attribution
import Stencil.Proofs.Render.Bookkeeping

namespace Stencil

variable {φ α β : Type}

section Raising

/-- The same event, with the element that it tells of counted further on. -/
def Event.raise (k : Nat) : Event → Event
  | .reported ⟨.notMapping items index, mark⟩ => .reported ⟨.notMapping items (index + k), mark⟩
  | e => e

/-- The elements that are reported while no node is being evaluated, counted further on; `stack` are the nodes that
are being evaluated before the first event. -/
def raiseOwn (k : Nat) : List Node → List Event → List Event
  | _, [] => []
  | stack, e :: es => (if stack.isEmpty then e.raise k else e) :: raiseOwn k (e.opens stack) es

/-- A part of a run that goes over elements, with those elements counted further on, but not those of lists inside. -/
def raised (k : Nat) (x : Outcome α) : Outcome α := ⟨raiseOwn k [] x.events, x.answer⟩

variable {k : Nat}

theorem raiseOwn_append (stack : List Node) (es fs : List Event) :
    raiseOwn k stack (es ++ fs) = raiseOwn k stack es ++ raiseOwn k (es.foldl Event.opens stack) fs := by
  induction es generalizing stack with
  | nil => rfl
  | cons e es ih => rw [List.cons_append, raiseOwn, raiseOwn, ih, List.foldl_cons, List.cons_append]

/-- A report that points at a node is made while that node is being evaluated. -/
theorem AllJustified.raiseOwn {t : Template} {ctx : Context φ} {past es : List Event}
    (all : AllJustified t ctx past es) : raiseOwn k (openNodes past) es = es := by
  induction es generalizing past with
  | nil => rfl
  | cons e es ih =>
    obtain ⟨justified, later⟩ := all
    have same : (if (openNodes past).isEmpty then e.raise k else e) = e := by
      cases e with
      | reported d =>
        obtain ⟨n, outer, opened, -⟩ := justified
        rw [opened]
        rfl
      | _ => exact ite_self _
    have rest := ih later
    rw [openNodes, List.foldl_append] at rest
    rw [Stencil.raiseOwn, same]
    exact congrArg (e :: ·) rest

/-- Reports are made only inside evaluations, and when there is an answer, every evaluation is over. -/
structure Enclosed (x : Outcome α) : Prop where
  raised : ∀ k, raised k x = x
  closes : ∀ a, x.answer = .ok a → openNodes x.events = []

theorem renderAt_enclosed [Callable φ] (s : Setting) (levels : Nat) (st : Standing) (ctx : Context φ)
    (nodes : List Node) : Enclosed (renderAt s levels st ctx nodes) := by
  have known (n : Node) (inside : n ∈ Node.preorderIn nodes) : Template.Reaches ⟨nodes, ""⟩ [] n :=
    ⟨_, List.mem_cons_self, inside⟩
  have attributed : Attributed ⟨nodes, ""⟩ ctx [] (renderAt s levels st ctx nodes) :=
    renderAt_attributed levels st (.refl ctx) nodes known
  refine ⟨fun k => ?_, attributed.closes⟩
  have same := attributed.justified.raiseOwn (k := k)
  exact congrArg (Traced.mk · _) same

/-- What comes second is raised for itself if it makes no difference to it which evaluations the first part leaves
open. -/
theorem raised_bind {x : Outcome α} {f : α → Outcome β} (same : ∀ a, x.answer = .ok a →
      raiseOwn k (openNodes x.events) (f a).events = raiseOwn k [] (f a).events) :
    raised k (x >>= f) = raised k x >>= fun a => raised k (f a) := by
  cases answer : x.answer with
  | error e =>
    have failed : (raised k x).answer = .error e := answer
    rw [Traced.bind_of_error answer, Traced.bind_of_error failed]
    rfl
  | ok a =>
    have done : (raised k x).answer = .ok a := answer
    have second := same a answer
    rw [openNodes] at second
    rw [Traced.bind_of_ok answer, Traced.bind_of_ok done, raised, raiseOwn_append, second]
    rfl

theorem raised_bind_pure (x : Outcome α) (f : α → β) :
    raised k (x >>= fun a => pure (f a)) = raised k x >>= fun a => pure (f a) :=
  raised_bind fun _ _ => rfl

end Raising

section Items

variable {s : Setting} {mark : Mark} {items : Path} {each : Entries φ → Outcome String}

theorem itemsText_append (index : Nat) (xs ys : List (Value φ)) :
    itemsText s mark items each index (xs ++ ys) = do
      let first ← itemsText s mark items each index xs
      let others ← itemsText s mark items each (index + xs.length) ys
      return first ++ others := by
  induction xs generalizing index with
  | nil =>
    simp only [List.nil_append, itemsText, pure_bind, String.empty_append, bind_pure, List.length_nil, Nat.add_zero]
  | cons x xs ih =>
    simp only [List.cons_append, itemsText, ih, bind_assoc, pure_bind, String.append_assoc, List.length_cons,
      Nat.add_right_comm index 1, Nat.add_assoc]

theorem itemText_raised (enclosed : ∀ entries, Enclosed (each entries)) (index k : Nat) (v : Value φ) :
    itemText s mark items each (index + k) v = raised k (itemText s mark items each index v) := by
  have own : reportInstead s mark (.notMapping items (index + k)) =
      raised k (reportInstead s mark (.notMapping items index)) := by
    rw [reportInstead_eq, reportInstead_eq]
    unfold Setting.reports
    split <;> rfl
  cases v with
  | mapping entries => exact ((enclosed entries).raised k).symm
  | _ => exact own

theorem itemText_closes (enclosed : ∀ entries, Enclosed (each entries)) (index : Nat) (v : Value φ) (text : String)
    (answer : (itemText s mark items each index v).answer = .ok text) :
    openNodes (itemText s mark items each index v).events = [] := by
  have own : openNodes (reportInstead s mark (.notMapping items index)).events = [] := by
    rw [reportInstead_eq]
    unfold Setting.reports
    split <;> rfl
  cases v with
  | mapping entries => exact (enclosed entries).closes text answer
  | _ => exact own

/-- Counted from further on, the elements give the same texts, and only the reports of those among them that are no
mappings are others. -/
theorem itemsText_raised (enclosed : ∀ entries, Enclosed (each entries)) (index k : Nat) (ys : List (Value φ)) :
    itemsText s mark items each (index + k) ys = raised k (itemsText s mark items each index ys) := by
  induction ys generalizing index with
  | nil => rfl
  | cons y ys ih =>
    have first : itemText s mark items each (index + k) y = raised k (itemText s mark items each index y) :=
      itemText_raised enclosed index k y
    have others := ih (index + 1)
    rw [Nat.add_right_comm] at others
    rw [itemsText, itemsText, first, others, raised_bind fun text answer => by
      rw [itemText_closes enclosed index y text answer]]
    simp only [raised_bind_pure]

end Items

/-- A map: its place, its template by name or in place, and the path of its list. -/
structure MapNode where
  mark : Mark
  template : String ⊕ List Node
  items : Path

namespace MapNode

def node (m : MapNode) : Node :=
  match m.template with
  | .inl name => .mapNamed m.mark name m.items
  | .inr body => .mapInline m.mark body m.items

/-- The name of the template, if it has one. -/
def name? (m : MapNode) : Option String :=
  match m.template with
  | .inl name => some name
  | .inr _ => none

/-- What is reported when no level is left for the template. -/
def tooDeep (m : MapNode) (chain : List String) : Diagnostic.Cause :=
  match m.template with
  | .inl name => .tooDeep chain name
  | .inr _ => .tooDeepInPlace chain m.items

/-- Looks for the nodes that each element is rendered with. -/
def find (m : MapNode) (s : Setting) (ctx : Context φ) : Outcome (Option (List Node)) :=
  match m.template with
  | .inl name => do return (← findTemplate s ctx m.mark name).map Template.nodes
  | .inr body => return some body

/-- What a map does with the elements of its list once it is entered. -/
def elementsText (m : MapNode) (s : Setting) (render : Context φ → List Node → Outcome String) (ctx : Context φ)
    (elements : List (Value φ)) : Outcome String := do
  match ← m.find s ctx with
  | none => return ""
  | some nodes => itemsText s m.mark m.items (fun scope => render (ctx.push scope) nodes) 0 elements

/-- What a map does with its list: if there are elements, it goes one level deeper with them. -/
def listText (m : MapNode) (s : Setting) (below : Option (Below φ)) (st : Standing) (ctx : Context φ) :
    Option (List (Value φ)) → Outcome String
  | none | some [] => return ""
  | some elements =>
    enter s below st m.mark m.name? (m.tooDeep st.chain) fun render => m.elementsText s render ctx elements

theorem nodeText_node [Callable φ] (m : MapNode) (s : Setting) (below : Option (Below φ)) (st : Standing)
    (ctx : Context φ) :
    nodeText s below st ctx m.node = listAt s ctx m.mark m.items >>= m.listText s below st ctx := by
  obtain ⟨mark, template, items⟩ := m
  cases template with
  | inl name =>
    refine congrArg (listAt s ctx mark items >>= ·) (funext fun elements => ?_)
    rcases elements with _ | _ | ⟨v, rest⟩
    · rfl
    · rfl
    · simp only [listText, elementsText, find, bind_assoc, pure_bind]
      refine congrArg (enter s below st mark _ _) (funext fun render => ?_)
      refine congrArg (findTemplate s ctx mark name >>= ·) (funext fun found => ?_)
      cases found <;> rfl
  | inr body =>
    refine congrArg (listAt s ctx mark items >>= ·) (funext fun elements => ?_)
    rcases elements with _ | _ | ⟨v, rest⟩ <;> rfl

/-- A template that is found is found without a report. -/
theorem reportsOf_find {m : MapNode} {s : Setting} {ctx : Context φ} {nodes : List Node}
    (found : (m.find s ctx).answer = .ok (some nodes)) : reportsOf (m.find s ctx).events = [] := by
  obtain ⟨mark, template, items⟩ := m
  cases template with
  | inl name =>
    unfold find at found ⊢
    dsimp only at found ⊢
    rw [Traced.answer_bind] at found
    obtain ⟨t, answer, same⟩ := exists_of_bind_ok found
    cases t with
    | none => cases same
    | some t =>
      rw [Traced.bind_of_ok answer, Traced.events_pure, List.append_nil]
      exact reportsOf_findTemplate answer
  | inr body => rfl

variable [Callable φ]

/-- A map looks for its list and goes over the elements; and so it does from wherever the run stands, with however many
levels left, once its template is found. For no element nothing is done, and a mapping is rendered, once, as the
innermost scope. Any other element gives no text and is reported. Elements behind others give their texts and their
reports behind those of the others, and they give what they would give alone, but for their places in the list in what
the map itself reports of them. If the run is a walk with books, the reports are all that is new in them. -/
theorem elements_append (m : MapNode) (s : Setting) (levels : Nat) (st : Standing) (ctx : Context φ)
    {nodes : List Node} (found : (m.find s ctx).answer = .ok (some nodes)) :
    let each (scope : Entries φ) : Outcome String := renderAt s levels st (ctx.push scope) nodes
    let work : List (Value φ) → Outcome String := itemsText s m.mark m.items each 0
    let missed (index : Nat) : Diagnostic := ⟨.notMapping m.items index, m.mark⟩
    (∀ below outer, nodeText s below outer ctx m.node =
      listAt s ctx m.mark m.items >>= m.listText s below outer ctx) ∧
    (∃ lookup, reportsOf lookup = [] ∧ ∀ elements, m.elementsText s (renderAt s levels st) ctx elements =
      ⟨lookup ++ (work elements).events, (work elements).answer⟩) ∧
    work [] = pure "" ∧
    (∀ scope, work [.mapping scope] = each scope) ∧
    (∀ v : Value φ, v.kind ≠ .mapping → work [v] = ⟨s.reports (missed 0), .ok ""⟩) ∧
    (∀ index, (missed index).kind = .listType ∧ (missed index).message =
      "Element " ++ toString index ++ " of '" ++ m.items.dotted ++ "' is not a mapping") ∧
    (∀ xs ys, work (xs ++ ys) = do
      let first ← work xs
      let others ← raised xs.length (work ys)
      return first ++ others) ∧
    ∀ b : Ledger, b.standing = st → maxLevels - b.depth = levels → ∀ elements,
      Walk.items s m.mark m.items (fun scope => walk s (ctx.push scope) nodes) 0 elements b =
        ((work elements).answer, b.note (work elements).events) := by
  intro each work missed
  have enclosed (scope : Entries φ) : Enclosed (each scope) := renderAt_enclosed s levels st (ctx.push scope) nodes
  have alone (v : Value φ) : work [v] = itemText s m.mark m.items each 0 v := by
    simp only [work, itemsText, pure_bind, String.append_empty, bind_pure]
  have counted (k : Nat) (ys : List (Value φ)) : itemsText s m.mark m.items each (0 + k) ys = raised k (work ys) :=
    itemsText_raised enclosed 0 k ys
  refine ⟨fun below outer => m.nodeText_node s below outer ctx, ⟨_, reportsOf_find found, fun elements => ?_⟩, rfl,
    fun scope => alone _, fun v other => ?_, fun _ => ⟨rfl, rfl⟩, fun xs ys => ?_, ?_⟩
  · rw [elementsText, Traced.bind_of_ok found]
  · rw [alone, ← reportInstead_eq]
    cases v with
    | mapping => exact absurd rfl other
    | _ => rfl
  · rw [← counted]
    exact itemsText_append 0 xs ys
  · rintro b rfl rfl elements
    have follows (scope : Entries φ) : (walk s (ctx.push scope) nodes).Follows (maxLevels - b.depth) fun st =>
        renderAt s (maxLevels - b.depth) st (ctx.push scope) nodes := by
      intro b' depth
      rw [walk_eq_renderAt, depth]
    exact Walk.Follows.items follows 0 elements b rfl

omit [Callable φ] in
/-- A template that maps itself over the list of an element. What is reported there of the same directive and the same
path is not counted with the elements outside. -/
theorem elements_append_of_inner :
    let nodes : List Node := [.mapNamed ⟨1, 1⟩ "row" ["xs"]]
    let m : MapNode := ⟨⟨1, 1⟩, .inl "row", ["xs"]⟩
    let s : Setting := ⟨some fun name => .ok ⟨nodes, name⟩, none, "en", {}⟩
    let ctx : Context Builtin := ⟨[], []⟩
    let each (scope : Entries Builtin) : Outcome String := renderAt s 3 ⟨1, ["row"]⟩ (ctx.push scope) nodes
    let work : List (Value Builtin) → Outcome String := itemsText s m.mark m.items each 0
    let missed (index : Nat) : Diagnostic := ⟨.notMapping m.items index, m.mark⟩
    let xs : List (Value Builtin) := [.null]
    let ys : List (Value Builtin) := [.mapping [(.str "xs", .list [.int 1])], .str "x"]
    (m.find s ctx).answer = .ok (some nodes) ∧
      work (xs ++ ys) = (do
        let first ← work xs
        let others ← raised xs.length (work ys)
        return first ++ others) ∧
      reportsOf (work ys).events = [missed 0, missed 1] ∧
      reportsOf (work (xs ++ ys)).events = [missed 0, missed 0, missed 2] := by
  intro nodes m s ctx each work missed xs ys
  have found : (m.find s ctx).answer = .ok (some nodes) := rfl
  obtain ⟨-, -, -, -, -, -, append, -⟩ := m.elements_append s 3 ⟨1, ["row"]⟩ ctx found
  exact ⟨found, append xs ys, rfl, rfl⟩

end MapNode
end Stencil
