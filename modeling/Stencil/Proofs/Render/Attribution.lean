import Stencil.Proofs.Render.Dependence
import Stencil.Proofs.Render.Disclosure

namespace Stencil

variable {φ α β : Type}

section Matters

/-- The path of the list that a node goes over. -/
def Node.list? : Node → Option Path
  | .mapNamed _ _ items | .mapInline _ _ items | .join _ _ items => some items
  | .text _ | .attr _ _ | .include _ _ | .apply _ _ _ | .cond _ _ _ _ | .txt _ _ => none

/-- What a node can report: the kind, and the path or the name that the report is about. -/
inductive Node.Reports : Node → Diagnostic.Kind → String → Prop
  | value (mark : Mark) (path : Path) : Reports (.attr mark path) .attribute path.dotted
  | func (mark : Mark) (func arg : Path) : Reports (.apply mark func arg) .attribute func.dotted
  | arg (mark : Mark) (func arg : Path) : Reports (.apply mark func arg) .attribute arg.dotted
  | list {n : Node} {items : Path} (goesOver : n.list? = some items) : Reports n .attribute items.dotted
  | listType {n : Node} {items : Path} (goesOver : n.list? = some items) : Reports n .listType items.dotted
  | included (mark : Mark) (name : String) : Reports (.include mark name) .include name
  | mapNamed (mark : Mark) (name : String) (items : Path) : Reports (.mapNamed mark name items) .include name
  | mapInline (mark : Mark) (body : List Node) (items : Path) :
      Reports (.mapInline mark body items) .include items.dotted

/-- The scopes of the second chain are those of the first, with more of them inside. -/
structure Context.Around (c d : Context φ) : Prop where
  root : d.root = c.root
  inner : c.inner <:+ d.inner

theorem Context.Around.refl (c : Context φ) : c.Around c := ⟨rfl, List.suffix_refl _⟩

theorem Context.Around.push {c d : Context φ} (around : c.Around d) (scope : Entries φ) : c.Around (d.push scope) :=
  ⟨around.root, around.inner.trans (List.suffix_cons scope d.inner)⟩

/-- A report that points at a node. A path that it tells of is one of the node's own, and it did lead nowhere, in the
scopes of the run or with elements of lists inside them. -/
structure Diagnostic.PointsAt (ctx : Context φ) (d : Diagnostic) (n : Node) : Prop where
  mark : n.mark? = some d.mark
  matter : n.Reports d.kind d.target
  failed : ∀ e, d.cause = .unresolved e → e.path ∈ n.paths ∧ ∃ c : Context φ, ctx.Around c ∧ c.find e.path = .error e

theorem Value.path_of_follow {v : Value φ} {whole rest : Path} {e : Unresolved}
    (failed : v.follow whole rest = .error e) : e.path = whole := by
  induction rest generalizing v with
  | nil => cases failed
  | cons segment rest ih =>
    unfold Value.follow at failed
    split at failed
    · split at failed
      · exact ih failed
      · cases failed
        rfl
    · cases failed
      rfl

theorem Context.path_of_find {c : Context φ} {path : Path} {e : Unresolved} (failed : c.find path = .error e) :
    e.path = path := by
  unfold Context.find at failed
  split at failed
  · cases failed
    rfl
  · split at failed
    · exact Value.path_of_follow failed
    · cases failed
      rfl

/-- Only looking for the value can end without one, not the call after it. -/
theorem find_of_valueAt [Callable φ] {c : Context φ} {path : Path} {e : Unresolved}
    (answer : (valueAt c path).answer = .ok (.error e)) : c.find path = .error e := by
  unfold valueAt at answer
  cases found : c.find path with
  | error e' =>
    rw [found] at answer
    cases answer
    rfl
  | ok v =>
    rw [found] at answer
    dsimp only at answer
    rw [Traced.answer_bind] at answer
    obtain ⟨w, -, same⟩ := exists_of_bind_ok answer
    cases same

end Matters

section Past

/-- The nodes that are being evaluated after an event, innermost first, if they were `stack` before it. -/
def Event.opens (stack : List Node) : Event → List Node
  | .began _ n => n :: stack
  | .wrote _ => stack.tail
  | .listed _ | .asked _ | .loaded _ | .bound _ | .compiled _ | .reported _ => stack

/-- The nodes that are being evaluated after some events, innermost first. -/
def openNodes (past : List Event) : List Node :=
  past.foldl Event.opens []

/-- The node stands in the template, or in one that was found by then. -/
def Template.Reaches (t : Template) (past : List Event) (n : Node) : Prop :=
  ∃ u ∈ t :: templatesOf past, n ∈ Node.preorderIn u.nodes

theorem Template.Reaches.later {t : Template} {past : List Event} {n : Node} (reaches : t.Reaches past n)
    (more : List Event) : t.Reaches (past ++ more) n := by
  obtain ⟨u, known, inside⟩ := reaches
  refine ⟨u, ?_, inside⟩
  rw [templatesOf, List.filterMap_append]
  exact List.mem_cons.mpr ((List.mem_cons.mp known).imp_right (List.mem_append_left _))

variable (t : Template) (ctx : Context φ)

/-- What is sure of an event after all that has happened before: an evaluation begins with a node of a template that
is known by then, and a report points at the innermost node that is being evaluated. -/
def Justified (past : List Event) : Event → Prop
  | .began _ n => t.Reaches past n
  | .reported d => ∃ n outer, openNodes past = n :: outer ∧ d.PointsAt ctx n
  | .wrote _ | .listed _ | .asked _ | .loaded _ | .bound _ | .compiled _ => True

/-- Every one of the events is justified after those before it. -/
def AllJustified (past : List Event) : List Event → Prop
  | [] => True
  | e :: es => Justified t ctx past e ∧ AllJustified (past ++ [e]) es

variable {t ctx} {past es fs : List Event}

theorem allJustified_append :
    AllJustified t ctx past (es ++ fs) ↔ AllJustified t ctx past es ∧ AllJustified t ctx (past ++ es) fs := by
  induction es generalizing past with
  | nil => simp [AllJustified]
  | cons e es ih => simp only [List.cons_append, AllJustified, ih, and_assoc, List.append_assoc, List.nil_append]

/-- Every node that is being evaluated is one of a known template. -/
theorem AllJustified.reaches (all : AllJustified t ctx past es) (known : ∀ n ∈ openNodes past, t.Reaches past n) :
    ∀ n ∈ openNodes (past ++ es), t.Reaches (past ++ es) n := by
  induction es generalizing past with
  | nil => rwa [List.append_nil]
  | cons e es ih =>
    have next : ∀ n ∈ openNodes (past ++ [e]), t.Reaches (past ++ [e]) n := by
      intro n member
      rw [openNodes, List.foldl_append] at member
      have before : n ∈ openNodes past ∨ t.Reaches past n := by
        cases e with
        | began st m =>
          rcases List.mem_cons.mp member with rfl | outer
          · exact .inr all.1
          · exact .inl outer
        | wrote text => exact .inl (List.mem_of_mem_tail member)
        | _ => exact .inl member
      exact (before.elim (known n) id).later [e]
    have whole := ih all.2 next
    rwa [List.append_assoc] at whole

end Past

/-- A part of a run after some events: what happens in it is justified, and when it has an answer, the same nodes are
being evaluated as before it. -/
structure Attributed (t : Template) (ctx : Context φ) (past : List Event) (x : Outcome α) : Prop where
  justified : AllJustified t ctx past x.events
  closes : ∀ a, x.answer = .ok a → openNodes (past ++ x.events) = openNodes past

/-- A part of the evaluation of the node `n`, wherever in the run that is, once the nodes `ns` are those of a template
that is known. -/
def Points (t : Template) (ctx : Context φ) (n : Node) (ns : List Node) (x : Outcome α) : Prop :=
  ∀ past outer, openNodes past = n :: outer → (∀ k ∈ Node.preorderIn ns, t.Reaches past k) → Attributed t ctx past x

variable {t : Template} {ctx : Context φ} {past : List Event}

theorem Attributed.pure (a : α) : Attributed t ctx past (pure a) :=
  ⟨trivial, fun _ _ => congrArg openNodes (List.append_nil past)⟩

theorem Attributed.bind {x : Outcome α} {f : α → Outcome β} (first : Attributed t ctx past x)
    (second : ∀ a, x.answer = .ok a → Attributed t ctx (past ++ x.events) (f a)) :
    Attributed t ctx past (x >>= f) := by
  cases answer : x.answer with
  | error e =>
    rw [Traced.bind_of_error answer]
    exact ⟨first.justified, nofun⟩
  | ok a =>
    rw [Traced.bind_of_ok answer]
    refine ⟨allJustified_append.mpr ⟨first.justified, (second a answer).justified⟩, fun b done => ?_⟩
    rw [← List.append_assoc, (second a answer).closes b done, first.closes a answer]

theorem Attributed.tell {e : Event} (justified : Justified t ctx past e) (flat : ∀ stack, e.opens stack = stack) :
    Attributed t ctx past (Traced.tell e) := by
  refine ⟨⟨justified, trivial⟩, fun _ _ => ?_⟩
  rw [openNodes, Traced.tell, List.foldl_append]
  exact flat _

namespace Points

variable {n : Node} {ns : List Node} {s : Setting}

theorem pure (a : α) : Points t ctx n ns (pure a) := fun _ _ _ _ => .pure a

theorem bind {x : Outcome α} {f : α → Outcome β} (first : Points t ctx n ns x)
    (second : ∀ a, x.answer = .ok a → Points t ctx n ns (f a)) : Points t ctx n ns (x >>= f) := by
  intro past outer here known
  have early := first past outer here known
  refine early.bind fun a answer => second a answer _ outer ((early.closes a answer).trans here) fun k inside => ?_
  exact (known k inside).later x.events

theorem silent {x : Outcome α} (nothing : x.events = []) : Points t ctx n ns x := by
  intro past outer _ _
  refine ⟨nothing ▸ trivial, fun _ _ => ?_⟩
  rw [nothing, List.append_nil]

theorem call (r : Except Raised α) : Points t ctx n ns (Outcome.ofCall r) := silent rfl

theorem tell {e : Event} (plain : ∀ past, Justified t ctx past e) (flat : ∀ stack, e.opens stack = stack) :
    Points t ctx n ns (Traced.tell e) := fun past _ _ _ => .tell (plain past) flat

theorem report {mark : Mark} {cause : Diagnostic.Cause} (points : Diagnostic.PointsAt ctx ⟨cause, mark⟩ n) :
    Points t ctx n ns (report s mark cause) := by
  unfold Stencil.report
  split
  · exact .pure ()
  · exact fun past outer here _ => .tell ⟨n, outer, here, points⟩ fun _ => rfl

theorem reportInstead {mark : Mark} {cause : Diagnostic.Cause} (points : Diagnostic.PointsAt ctx ⟨cause, mark⟩ n) :
    Points t ctx n ns (reportInstead s mark cause) :=
  .bind (.report points) fun _ _ => .pure ""

section Lookup

variable {mark : Mark} {name : String} (own : n.mark? = some mark) (names : n.Reports .include name)

include own names

theorem boundTemplate (c : Context φ) (missed : Option String) :
    Points t ctx n ns (boundTemplate s c mark name missed) := by
  unfold Stencil.boundTemplate
  split
  · exact .bind (.tell (fun _ => trivial) fun _ => rfl) fun _ _ => .pure _
  · split
    · exact .bind (.tell (fun _ => trivial) fun _ => rfl) fun _ _ => .pure _
    · exact .bind (.report ⟨own, names, nofun⟩) fun _ _ => .pure none
  · exact .bind (.report ⟨own, names, nofun⟩) fun _ _ => .pure none

theorem findTemplate (c : Context φ) : Points t ctx n ns (findTemplate s c mark name) := by
  unfold Stencil.findTemplate
  split
  · exact .boundTemplate own names c none
  · refine .bind (.tell (fun _ => trivial) fun _ => rfl) fun _ _ => ?_
    split
    · exact .bind (.tell (fun _ => trivial) fun _ => rfl) fun _ _ => .pure _
    · exact .boundTemplate own names c _
    · exact .bind (.report ⟨own, names, nofun⟩) fun _ _ => .pure none
    · exact .silent rfl
    · exact .silent rfl

end Lookup

section Values

variable {c : Context φ} (around : ctx.Around c) {mark : Mark} (own : n.mark? = some mark)

include around own

/-- A path of the node that leads nowhere. -/
theorem unresolved {path : Path} {e : Unresolved} (asks : path ∈ n.paths) (reports : n.Reports .attribute path.dotted)
    (failed : c.find path = .error e) : Diagnostic.PointsAt ctx ⟨.unresolved e, mark⟩ n := by
  have whole := Context.path_of_find failed
  subst whole
  refine ⟨own, reports, ?_⟩
  rintro _ ⟨⟩
  exact ⟨asks, c, around, failed⟩

variable [Callable φ]

omit around own in
theorem valueAt (path : Path) : Points t ctx n ns (valueAt c path) := .silent (valueAt_events c path)

theorem listAt {items : Path} (asks : items ∈ n.paths) (goesOver : n.list? = some items) :
    Points t ctx n ns (listAt s c mark items) := by
  refine .bind (.valueAt items) fun found answer => ?_
  split
  · have failed := find_of_valueAt answer
    exact .bind (.report (unresolved around own asks (.list goesOver) failed)) fun _ _ => .pure none
  · exact .bind (.tell (fun _ => trivial) fun _ => rfl) fun _ _ => .pure _
  · exact .bind (.tell (fun _ => trivial) fun _ => rfl) fun _ _ => .pure _
  · exact .bind (.report ⟨own, .listType goesOver, nofun⟩) fun _ _ => .pure none

end Values

section Leaves

variable [Callable φ] {c : Context φ} (around : ctx.Around c) (mark : Mark)

theorem holds (condition : Path) : Points t ctx n ns (holds c condition) := by
  refine .bind (.valueAt condition) fun found _ => ?_
  cases found with
  | error e => exact .pure false
  | ok v => exact .bind (.call _) fun _ _ => .pure _

theorem elementText (v : Value φ) : Points t ctx n ns (elementText c v) := by
  cases v with
  | func f => exact .bind (.call _) fun _ _ => .call _
  | _ => exact .call _

theorem elementTexts (vs : List (Value φ)) : Points t ctx n ns (vs.mapM (Stencil.elementText c)) := by
  induction vs with
  | nil => exact .pure []
  | cons v vs ih =>
    rw [List.mapM_cons]
    exact .bind (.elementText v) fun _ _ => .bind ih fun _ _ => .pure _

include around

theorem attrText (path : Path) : Points t ctx (.attr mark path) ns (attrText s c mark path) := by
  refine .bind (.valueAt path) fun found answer => ?_
  cases found with
  | error e =>
    have failed := find_of_valueAt answer
    exact .reportInstead (unresolved around rfl List.mem_cons_self (.value mark path) failed)
  | ok v => exact .call _

theorem applyText (func arg : Path) : Points t ctx (.apply mark func arg) ns (applyText s c mark func arg) := by
  unfold Stencil.applyText
  split
  · rename_i failed
    exact .reportInstead (unresolved around rfl List.mem_cons_self (.func mark func arg) failed)
  · refine .bind (.valueAt arg) fun found answer => ?_
    cases found with
    | error e =>
      have failed := find_of_valueAt answer
      exact .reportInstead
        (unresolved around rfl (List.mem_cons_of_mem _ List.mem_cons_self) (.arg mark func arg) failed)
    | ok v => exact .bind (.call _) fun _ _ => .call _
  · exact .call _

theorem joinText (separator : String) (items : Path) :
    Points t ctx (.join mark separator items) ns (joinText s c mark separator items) := by
  refine .bind (.listAt around rfl List.mem_cons_self rfl) fun found _ => ?_
  cases found with
  | none => exact .pure ""
  | some elements => exact .bind (.elementTexts elements) fun _ _ => .pure _

end Leaves

/-- Going over the elements of a list, all of which the node is evaluated with. -/
theorem itemsText {mark : Mark} {items : Path} (own : n.mark? = some mark) (goesOver : n.list? = some items)
    {each : Entries φ → Outcome String} (points : ∀ entries, Points t ctx n ns (each entries)) (index : Nat)
    (elements : List (Value φ)) : Points t ctx n ns (itemsText s mark items each index elements) := by
  induction elements generalizing index with
  | nil => exact .pure ""
  | cons v rest ih =>
    refine .bind ?_ fun _ _ => .bind (ih (index + 1)) fun _ _ => .pure _
    cases v with
    | mapping entries => exact points entries
    | _ => exact .reportInstead ⟨own, .listType goesOver, nofun⟩

end Points

section Levels

/-- The way to go one level deeper, into the nodes of a template that is known. -/
def BelowAttributed (t : Template) (ctx : Context φ) (below : Option (Below φ)) : Prop :=
  ∀ deeper ∈ below, ∀ past st c ns, ctx.Around c → (∀ k ∈ Node.preorderIn ns, t.Reaches past k) →
    Attributed t ctx past (deeper st c ns)

variable {s : Setting} {below : Option (Below φ)} (levels : BelowAttributed t ctx below) (st : Standing)
  {c : Context φ} {n : Node} {mark : Mark} {outer : List Node}

theorem mem_templatesOf_findTemplate {name : String} {u : Template}
    (answer : (findTemplate s c mark name).answer = .ok (some u)) :
    u ∈ templatesOf (findTemplate s c mark name).events := by
  obtain ⟨e, told, events⟩ := findTemplate_found answer
  have member : e ∈ (findTemplate s c mark name).events := by
    rcases events with events | events <;> simp [events]
  exact List.mem_filterMap.mpr ⟨e, member, told⟩

/-- A template that is found is known from then on. -/
theorem reaches_of_findTemplate {name : String} {u : Template}
    (answer : (findTemplate s c mark name).answer = .ok (some u)) {k : Node} (inside : k ∈ Node.preorderIn u.nodes) :
    t.Reaches (past ++ (findTemplate s c mark name).events) k := by
  refine ⟨u, List.mem_cons_of_mem _ ?_, inside⟩
  rw [templatesOf, List.filterMap_append]
  exact List.mem_append_right _ (mem_templatesOf_findTemplate answer)

include levels

theorem BelowAttributed.enter (here : openNodes past = n :: outer) {name : Option String} {cause : Diagnostic.Cause}
    (points : Diagnostic.PointsAt ctx ⟨cause, mark⟩ n)
    {inside : (Context φ → List Node → Outcome String) → Outcome String}
    (attributed : ∀ render, (∀ past c ns, ctx.Around c → (∀ k ∈ Node.preorderIn ns, t.Reaches past k) →
      Attributed t ctx past (render c ns)) → Attributed t ctx past (inside render)) :
    Attributed t ctx past (enter s below st mark name cause inside) := by
  cases below with
  | none =>
    have turned : Points t ctx n [] (reportInstead s mark cause) := .reportInstead points
    exact turned past outer here nofun
  | some deeper => exact attributed _ fun past c ns => levels deeper rfl past _ c ns

variable (around : ctx.Around c)

include around

theorem BelowAttributed.includeText {name : String} (here : openNodes past = .include mark name :: outer) :
    Attributed t ctx past (includeText s below st c mark name) := by
  refine levels.enter st here ?_ fun render inside => ?_
  · exact ⟨rfl, .included mark name, nofun⟩
  have lookup : Points t ctx (.include mark name) [] (findTemplate s c mark name) :=
    .findTemplate rfl (.included mark name) c
  refine .bind (lookup past outer here nofun) fun found answer => ?_
  cases found with
  | none => exact .pure ""
  | some u => exact inside _ c u.nodes around fun k => reaches_of_findTemplate answer

variable [Callable φ]

theorem BelowAttributed.mapNamedText {name : String} {items : Path}
    (here : openNodes past = .mapNamed mark name items :: outer) :
    Attributed t ctx past (mapNamedText s below st c mark name items) := by
  have list : Points t ctx (.mapNamed mark name items) [] (listAt s c mark items) :=
    .listAt around rfl List.mem_cons_self rfl
  have listed := list past outer here nofun
  refine listed.bind fun elements answer => ?_
  have stays := (listed.closes elements answer).trans here
  split
  · exact .pure ""
  · exact .pure ""
  · refine levels.enter st stays ?_ fun render inside => ?_
    · exact ⟨rfl, .mapNamed mark name items, nofun⟩
    have lookup : Points t ctx (.mapNamed mark name items) [] (findTemplate s c mark name) :=
      .findTemplate rfl (.mapNamed mark name items) c
    have looked := lookup _ outer stays nofun
    refine looked.bind fun found answer => ?_
    cases found with
    | none => exact .pure ""
    | some u =>
      have each (scope : Entries φ) :
          Points t ctx (.mapNamed mark name items) u.nodes (render (c.push scope) u.nodes) :=
        fun past _ _ known => inside past _ u.nodes (around.push scope) known
      have still := (looked.closes _ answer).trans stays
      exact Points.itemsText rfl rfl each 0 _ _ outer still fun k => reaches_of_findTemplate answer

theorem BelowAttributed.mapInlineText {body : List Node} {items : Path}
    (here : openNodes past = .mapInline mark body items :: outer)
    (known : ∀ k ∈ Node.preorderIn body, t.Reaches past k) :
    Attributed t ctx past (mapInlineText s below st c mark body items) := by
  have list : Points t ctx (.mapInline mark body items) [] (listAt s c mark items) :=
    .listAt around rfl List.mem_cons_self rfl
  have listed := list past outer here nofun
  refine listed.bind fun elements answer => ?_
  have stays := (listed.closes elements answer).trans here
  split
  · exact .pure ""
  · exact .pure ""
  · refine levels.enter st stays ?_ fun render inside => ?_
    · exact ⟨rfl, .mapInline mark body items, nofun⟩
    have each (scope : Entries φ) : Points t ctx (.mapInline mark body items) body (render (c.push scope) body) :=
      fun past _ _ known => inside past _ body (around.push scope) known
    exact Points.itemsText rfl rfl each 0 _ _ outer stays fun k within => (known k within).later _

end Levels

/-- A whole evaluation: within it the node is the innermost one, and after it no longer. -/
theorem Attributed.evaluation {st : Standing} {n : Node} {x : Outcome String} (reaches : t.Reaches past n)
    (inside : ∀ outer, openNodes (past ++ [.began st n]) = n :: outer → Attributed t ctx (past ++ [.began st n]) x) :
    Attributed t ctx past (do
      Traced.tell (.began st n)
      let text ← x
      Traced.tell (.wrote text)
      return text) := by
  have opened : openNodes (past ++ [.began st n]) = n :: openNodes past := List.foldl_append
  obtain ⟨justified, closes⟩ := inside _ opened
  rw [Traced.bind_of_ok rfl]
  cases answer : x.answer with
  | error e =>
    rw [Traced.bind_of_error answer]
    exact ⟨⟨reaches, justified⟩, nofun⟩
  | ok text =>
    rw [Traced.bind_of_ok answer, Traced.bind_of_ok rfl]
    have all : AllJustified t ctx past (.began st n :: (x.events ++ [.wrote text])) :=
      ⟨reaches, allJustified_append.mpr ⟨justified, trivial, trivial⟩⟩
    refine ⟨all, fun _ _ => ?_⟩
    calc openNodes (past ++ .began st n :: (x.events ++ [.wrote text]))
        = (openNodes (past ++ [.began st n] ++ x.events)).tail := by
          simp only [openNodes, List.foldl_append, List.foldl_cons, List.foldl_nil, Event.opens]
      _ = openNodes past := by rw [closes text answer, opened, List.tail_cons]

section Run

variable [Callable φ] {s : Setting}

/-- A sequence begins with a whole evaluation. -/
theorem nodesText_cons_eq (below : Option (Below φ)) (st : Standing) (c : Context φ) (n : Node) (ns : List Node) :
    nodesText s below st c (n :: ns) =
      (do
        Traced.tell (.began st n)
        let text ← nodeText s below st c n
        Traced.tell (.wrote text)
        return text) >>= fun text => do
      let others ← nodesText s below st c ns
      return text ++ others := by
  simp only [nodesText, bind_assoc, pure_bind]

mutual

theorem BelowAttributed.nodeText {below : Option (Below φ)} (levels : BelowAttributed t ctx below) (st : Standing)
    {c : Context φ} (around : ctx.Around c) (n : Node) {past : List Event} {outer : List Node}
    (here : openNodes past = n :: outer) (known : ∀ k ∈ n.preorder, t.Reaches past k) :
    Attributed t ctx past (nodeText s below st c n) := by
  cases n with
  | text | txt => exact .pure _
  | attr mark path =>
    have value : Points t ctx (.attr mark path) [] (attrText s c mark path) := .attrText around mark path
    exact value past outer here nofun
  | «include» mark name => exact levels.includeText st around here
  | apply mark func arg =>
    have applied : Points t ctx (.apply mark func arg) [] (applyText s c mark func arg) :=
      .applyText around mark func arg
    exact applied past outer here nofun
  | cond mark condition body elseBody =>
    obtain ⟨-, inside⟩ := List.forall_mem_cons.mp known
    obtain ⟨inBody, inElse⟩ := List.forall_mem_append.mp inside
    have decides : Points t ctx (.cond mark condition body elseBody) [] (holds c condition) := .holds condition
    refine .bind (decides past outer here nofun) fun truthy _ => ?_
    cases truthy with
    | true => exact BelowAttributed.nodesText levels st around body fun k within => (inBody k within).later _
    | false => exact BelowAttributed.elseText levels st around elseBody fun k within => (inElse k within).later _
  | mapNamed mark name items => exact levels.mapNamedText st around here
  | mapInline mark body items =>
    obtain ⟨-, inBody⟩ := List.forall_mem_cons.mp known
    exact levels.mapInlineText st around here inBody
  | join mark separator items =>
    have joined : Points t ctx (.join mark separator items) [] (joinText s c mark separator items) :=
      .joinText around mark separator items
    exact joined past outer here nofun

theorem BelowAttributed.nodesText {below : Option (Below φ)} (levels : BelowAttributed t ctx below) (st : Standing)
    {c : Context φ} (around : ctx.Around c) (ns : List Node) {past : List Event}
    (known : ∀ k ∈ Node.preorderIn ns, t.Reaches past k) : Attributed t ctx past (nodesText s below st c ns) := by
  cases ns with
  | nil => exact .pure ""
  | cons n ns =>
    obtain ⟨first, rest⟩ := List.forall_mem_append.mp known
    rw [nodesText_cons_eq]
    refine .bind (.evaluation (first n n.mem_preorder_self) fun outer here => ?_) fun text _ => ?_
    · exact BelowAttributed.nodeText levels st around n here fun k within => (first k within).later _
    · refine .bind ?_ fun _ _ => .pure _
      exact BelowAttributed.nodesText levels st around ns fun k within => (rest k within).later _

theorem BelowAttributed.elseText {below : Option (Below φ)} (levels : BelowAttributed t ctx below) (st : Standing)
    {c : Context φ} (around : ctx.Around c) (elseBody : Option (List Node)) {past : List Event}
    (known : ∀ k ∈ Node.preorderElse elseBody, t.Reaches past k) :
    Attributed t ctx past (elseText s below st c elseBody) := by
  cases elseBody with
  | none => exact .pure ""
  | some body => exact BelowAttributed.nodesText levels st around body known

end

theorem renderAt_attributed (levels : Nat) (st : Standing) {c : Context φ} (around : ctx.Around c) (ns : List Node)
    {past : List Event} (known : ∀ k ∈ Node.preorderIn ns, t.Reaches past k) :
    Attributed t ctx past (renderAt s levels st c ns) := by
  induction levels generalizing st c ns past with
  | zero =>
    refine BelowAttributed.nodesText ?_ st around ns known
    rintro _ ⟨⟩
  | succ levels ih =>
    refine BelowAttributed.nodesText ?_ st around ns known
    rintro _ ⟨⟩ past st c ns around known
    exact ih st around ns known

end Run
end Stencil
