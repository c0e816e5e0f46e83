import Stencil.Proofs.Data.Holding
import Stencil.Proofs.Failing
import Stencil.Render.Run

namespace Stencil

variable {φ α β : Type}

/-- How a run that asked for a template ends when the loader neither misses nor refuses it. -/
def LoadError.failure? : LoadError → Option Failure
  | .missing _ | .invalid _ => none
  | .unreadable e => some (.unreadable e)
  | .file e => some (.file e)

/-- Where the failure of a run can come from, the events being those of the run up to then, and `V` a property of all
values that it comes across. -/
inductive Failure.Arises [Callable φ] (V : Value φ → Prop) (s : Setting) (events : List Event) : Failure → Prop
  | call {r : Raised} {f : φ} {x : Value φ} (known : V (.func f)) (given : V x) (threw : Callable.call f x = .error r) :
      Arises V s events (.raised r)
  | unwritable {v : Value φ} (known : V v) (long : v.isWritable = false) : Arises V s events (.raised .tooManyDigits)
  | loader {loader : Loader} {name : String} {e : LoadError} {f : Failure} (present : s.loader = some loader)
      (asked : .asked name ∈ events) (answer : loader name = .error e) (passed : e.failure? = some f) :
      Arises V s events f

variable [Callable φ] {V : Value φ → Prop}

theorem Failure.Arises.after {s : Setting} {events : List Event} {f : Failure} (arises : f.Arises V s events)
    (before : List Event) : f.Arises V s (before ++ events) := by
  cases arises with
  | call known given threw => exact .call known given threw
  | unwritable known long => exact .unwritable known long
  | loader present asked answer passed =>
    exact .loader present (List.mem_append_right before asked) answer passed

section Found

variable (closed : Closed V) {ctx : Context φ} (data : ctx.All V)

include closed data

/-- What a path leads to is one of the values that the property is handed on to. -/
theorem Closed.valueAt {path : Path} {v : Value φ} (answer : (valueAt ctx path).answer = .ok (.ok v)) : V v := by
  unfold Stencil.valueAt at answer
  split at answer
  · cases answer
  · rename_i found
    rw [Traced.answer_bind] at answer
    obtain ⟨w, settled, same⟩ := exists_of_bind_ok answer
    cases same
    exact data.settle closed (data.find closed.toInherited found) (ok_of_mapError settled)

omit closed data in
/-- A list is found only under a path that leads to one. -/
theorem list_of_listAt {s : Setting} {mark : Mark} {items : Path} {elements : List (Value φ)}
    (answer : (listAt s ctx mark items).answer = .ok (some elements)) :
    (valueAt ctx items).answer = .ok (.ok (.list elements)) ∨ (valueAt ctx items).answer = .ok (.ok (.tuple elements)) := by
  unfold Stencil.listAt at answer
  rw [Traced.answer_bind] at answer
  obtain ⟨found, looked, answer⟩ := exists_of_bind_ok answer
  rw [looked]
  split at answer <;> rw [Traced.answer_bind] at answer <;> obtain ⟨_, -, same⟩ := exists_of_bind_ok answer
  · cases same
  · cases same
    exact .inl rfl
  · cases same
    exact .inr rfl
  · cases same

theorem Closed.listAt {s : Setting} {mark : Mark} {items : Path} {elements : List (Value φ)}
    (answer : (listAt s ctx mark items).answer = .ok (some elements)) : ∀ v ∈ elements, V v := by
  rcases list_of_listAt answer with list | tuple
  · exact fun _ member => closed.item (closed.valueAt data list) member
  · exact fun _ member => closed.part (closed.valueAt data tuple) member

end Found

/-- A part of a run whose failure, if it has one, is accounted for. -/
def Accounted (V : Value φ → Prop) (s : Setting) (x : Outcome α) : Prop :=
  FailsAs (fun f => f.Arises V s x.events) x.answer

namespace Accounted

variable {s : Setting}

theorem pure (a : α) : Accounted V s (pure a) := nofun

theorem tell (e : Event) : Accounted V s (Traced.tell e) := nofun

theorem bind {x : Outcome α} {f : α → Outcome β} (first : Accounted V s x)
    (second : ∀ a, x.answer = .ok a → Accounted V s (f a)) : Accounted V s (x >>= f) := by
  intro failure failed
  cases answer : x.answer with
  | error e =>
    rw [Traced.bind_of_error answer] at failed ⊢
    cases failed
    exact first failure answer
  | ok a =>
    rw [Traced.bind_of_ok answer] at failed ⊢
    exact (second a answer failure failed).after x.events

theorem call {f : φ} {x : Value φ} (known : V (.func f)) (given : V x) :
    Accounted V s (Outcome.ofCall (Callable.call f x)) :=
  .mapError fun _ threw => .call known given threw

theorem guarded {v : Value φ} (known : V v) (made : α) :
    FailsAs (fun r => Failure.Arises V s [] (.raised r)) (v.guarded made) := by
  unfold Value.guarded
  split
  · exact .ok made
  · rename_i long
    exact .error (.unwritable known (Bool.eq_false_iff.mpr long))

theorem written {v : Value φ} (known : V v) : Accounted V s (Outcome.ofCall v.written) :=
  .mapError (guarded known _)

theorem isAbsent {v : Value φ} (known : V v) : Accounted V s (Outcome.ofCall v.isAbsent) := by
  unfold Value.isAbsent
  split
  · exact .mapError (guarded known _)
  · exact .pure _

theorem scalarsText {vs : List (Value φ)} (known : ∀ v ∈ vs, V v) :
    Accounted V s (Outcome.ofCall (scalarsText vs)) := by
  refine .mapError (.bind (.mapM fun v member => ?_) fun _ _ => .ok _)
  exact guarded (known v (List.mem_filter.mp member |>.1)) _

theorem report (mark : Mark) (cause : Diagnostic.Cause) : Accounted V s (report s mark cause) := by
  unfold Stencil.report
  split
  · exact .pure ()
  · exact .tell _

theorem reportInstead (mark : Mark) (cause : Diagnostic.Cause) : Accounted V s (reportInstead s mark cause) :=
  .bind (.report mark cause) fun _ _ => .pure ""

theorem boundTemplate (ctx : Context φ) (mark : Mark) (name : String) (missed : Option String) :
    Accounted V s (boundTemplate s ctx mark name missed) := by
  unfold Stencil.boundTemplate
  split
  · exact .bind (.tell _) fun _ _ => .pure _
  · split
    · exact .bind (.tell _) fun _ _ => .pure _
    · exact .bind (.report mark _) fun _ _ => .pure none
  · exact .bind (.report mark _) fun _ _ => .pure none

theorem findTemplate (ctx : Context φ) (mark : Mark) (name : String) :
    Accounted V s (findTemplate s ctx mark name) := by
  unfold Stencil.findTemplate
  split
  · exact .boundTemplate ctx mark name none
  · rename_i loader present
    -- The loader's own failure is only accounted for together with the question before it.
    have fails {e : LoadError} {f : Failure} (answer : loader name = .error e) (passed : e.failure? = some f) :
        Accounted V s (Traced.tell (.asked name) >>= fun _ => (.ofExcept (.error f) : Outcome (Option Template))) := by
      intro _ failed
      cases failed
      exact .loader present (List.mem_singleton_self _) answer passed
    split
    · exact .bind (.tell _) fun _ _ => .bind (.tell _) fun _ _ => .pure _
    · exact .bind (.tell _) fun _ _ => .boundTemplate ctx mark name _
    · exact .bind (.tell _) fun _ _ => .bind (.report mark _) fun _ _ => .pure none
    · rename_i answer
      exact fails answer rfl
    · rename_i answer
      exact fails answer rfl

theorem itemsText (mark : Mark) (items : Path) {each : Entries φ → Outcome String}
    (inside : ∀ entries, V (.mapping entries) → Accounted V s (each entries)) (index : Nat)
    {elements : List (Value φ)} (known : ∀ v ∈ elements, V v) :
    Accounted V s (itemsText s mark items each index elements) := by
  induction elements generalizing index with
  | nil => exact .pure ""
  | cons v rest ih =>
    rw [List.forall_mem_cons] at known
    refine .bind ?_ fun _ _ => .bind (ih (index + 1) known.2) fun _ _ => .pure _
    cases v with
    | mapping entries => exact inside entries known.1
    | _ => exact .reportInstead mark _

section Nodes

variable (closed : Closed V) {ctx : Context φ} (data : ctx.All V)

include data

theorem settle {v : Value φ} (known : V v) : Accounted V s (Outcome.ofCall (ctx.settle v)) := by
  cases v with
  | func f => exact .call known data.root
  | _ => exact .pure _

include closed

theorem valueAt (path : Path) : Accounted V s (valueAt ctx path) := by
  unfold Stencil.valueAt
  split
  · exact .pure _
  · rename_i found
    exact .bind (.settle data (data.find closed.toInherited found)) fun _ _ => .pure _

theorem attrText (mark : Mark) (path : Path) : Accounted V s (attrText s ctx mark path) := by
  refine .bind (.valueAt closed data path) fun found answer => ?_
  cases found with
  | error e => exact .reportInstead mark _
  | ok v => exact .written (closed.valueAt data answer)

omit data in
theorem answered {f : φ} {x : Value φ} (known : V (.func f)) (given : V x) :
    Accounted V s (do Outcome.ofCall (← Outcome.ofCall (Callable.call f x)).written) :=
  .bind (.call known given) fun _ answer => .written (closed.answer known given (ok_of_mapError answer))

theorem applyText (mark : Mark) (func arg : Path) : Accounted V s (applyText s ctx mark func arg) := by
  unfold Stencil.applyText
  split
  · exact .reportInstead mark _
  · rename_i isFunc
    refine .bind (.valueAt closed data arg) fun found answer => ?_
    cases found with
    | error e => exact .reportInstead mark _
    | ok v => exact .answered closed (data.find closed.toInherited isFunc) (closed.valueAt data answer)
  · rename_i found
    exact .written (data.find closed.toInherited found)

theorem holds (condition : Path) : Accounted V s (holds ctx condition) := by
  refine .bind (.valueAt closed data condition) fun found answer => ?_
  cases found with
  | error e => exact .pure _
  | ok v => exact .bind (.isAbsent (closed.valueAt data answer)) fun _ _ => .pure _

theorem listAt (mark : Mark) (items : Path) : Accounted V s (listAt s ctx mark items) := by
  refine .bind (.valueAt closed data items) fun found _ => ?_
  split
  · exact .bind (.report mark _) fun _ _ => .pure none
  · exact .bind (.tell _) fun _ _ => .pure _
  · exact .bind (.tell _) fun _ _ => .pure _
  · exact .bind (.report mark _) fun _ _ => .pure none

theorem elementText {v : Value φ} (known : V v) : Accounted V s (elementText ctx v) := by
  cases v with
  | func f => exact .answered closed known data.root
  | mapping entries =>
    refine .scalarsText fun v member => ?_
    obtain ⟨e, among, rfl⟩ := List.mem_map.mp member
    exact closed.entry known among
  | list elements => exact .scalarsText fun _ member => closed.item known member
  | tuple elements => exact .scalarsText fun _ member => closed.part known member
  | _ => exact .written known

theorem elementTexts {vs : List (Value φ)} (known : ∀ v ∈ vs, V v) :
    Accounted V s (vs.mapM (Stencil.elementText ctx)) := by
  induction vs with
  | nil => exact .pure []
  | cons v vs ih =>
    rw [List.forall_mem_cons] at known
    rw [List.mapM_cons]
    exact .bind (.elementText closed data known.1) fun _ _ => .bind (ih known.2) fun _ _ => .pure _

theorem joinText (mark : Mark) (separator : String) (items : Path) :
    Accounted V s (joinText s ctx mark separator items) := by
  refine .bind (.listAt closed data mark items) fun found answer => ?_
  cases found with
  | none => exact .pure ""
  | some elements => exact .bind (.elementTexts closed data (closed.listAt data answer)) fun _ _ => .pure _

end Nodes

section Levels

variable (closed : Closed V) {below : Option (Below φ)}
  (deeper : ∀ inner ∈ below, ∀ st ctx nodes, ctx.All V → Accounted V s (inner st ctx nodes)) (st : Standing)

include deeper

theorem enter (mark : Mark) (name : Option String) (tooDeep : Diagnostic.Cause)
    {inside : (Context φ → List Node → Outcome String) → Outcome String}
    (accounted : ∀ render, (∀ ctx nodes, ctx.All V → Accounted V s (render ctx nodes)) →
      Accounted V s (inside render)) : Accounted V s (enter s below st mark name tooDeep inside) := by
  cases below with
  | none => exact .reportInstead mark _
  | some inner => exact accounted _ (deeper inner rfl _)

variable {ctx : Context φ} (data : ctx.All V) (mark : Mark)

include data

theorem includeText (name : String) : Accounted V s (includeText s below st ctx mark name) := by
  refine .enter deeper st mark _ _ fun render inside => .bind (.findTemplate ctx mark name) fun found _ => ?_
  cases found with
  | none => exact .pure ""
  | some t => exact inside ctx t.nodes data

include closed

theorem mapNamedText (name : String) (items : Path) :
    Accounted V s (mapNamedText s below st ctx mark name items) := by
  refine .bind (.listAt closed data mark items) fun elements answer => ?_
  split
  · exact .pure ""
  · exact .pure ""
  · refine .enter deeper st mark _ _ fun render inside => .bind (.findTemplate ctx mark name) fun found _ => ?_
    cases found with
    | none => exact .pure ""
    | some t =>
      exact .itemsText mark items (fun _ scope => inside _ t.nodes (data.push scope)) 0 (closed.listAt data answer)

theorem mapInlineText (body : List Node) (items : Path) :
    Accounted V s (mapInlineText s below st ctx mark body items) := by
  refine .bind (.listAt closed data mark items) fun elements answer => ?_
  split
  · exact .pure ""
  · exact .pure ""
  · refine .enter deeper st mark _ _ fun render inside => ?_
    exact .itemsText mark items (fun _ scope => inside _ body (data.push scope)) 0 (closed.listAt data answer)

end Levels
end Accounted

section Run

variable {s : Setting}

mutual

theorem nodeText_accounted (closed : Closed V) {below : Option (Below φ)}
    (deeper : ∀ inner ∈ below, ∀ st ctx nodes, ctx.All V → Accounted V s (inner st ctx nodes)) (st : Standing)
    {ctx : Context φ} (data : ctx.All V) (n : Node) : Accounted V s (nodeText s below st ctx n) := by
  cases n with
  | text | txt => exact .pure _
  | attr mark path => exact .attrText closed data mark path
  | «include» mark name => exact .includeText deeper st data mark name
  | apply mark func arg => exact .applyText closed data mark func arg
  | cond mark condition body elseBody =>
    rw [nodeText]
    refine .bind (.holds closed data condition) fun truthy _ => ?_
    cases truthy with
    | true => exact nodesText_accounted closed deeper st data body
    | false => exact elseText_accounted closed deeper st data elseBody
  | mapNamed mark name items => exact .mapNamedText closed deeper st data mark name items
  | mapInline mark body items => exact .mapInlineText closed deeper st data mark body items
  | join mark separator items => exact .joinText closed data mark separator items

theorem nodesText_accounted (closed : Closed V) {below : Option (Below φ)}
    (deeper : ∀ inner ∈ below, ∀ st ctx nodes, ctx.All V → Accounted V s (inner st ctx nodes)) (st : Standing)
    {ctx : Context φ} (data : ctx.All V) (ns : List Node) : Accounted V s (nodesText s below st ctx ns) := by
  cases ns with
  | nil => exact .pure ""
  | cons n ns =>
    refine .bind (.tell _) fun _ _ => .bind (nodeText_accounted closed deeper st data n) fun _ _ => ?_
    exact .bind (.tell _) fun _ _ => .bind (nodesText_accounted closed deeper st data ns) fun _ _ => .pure _

theorem elseText_accounted (closed : Closed V) {below : Option (Below φ)}
    (deeper : ∀ inner ∈ below, ∀ st ctx nodes, ctx.All V → Accounted V s (inner st ctx nodes)) (st : Standing)
    {ctx : Context φ} (data : ctx.All V) (x : Option (List Node)) : Accounted V s (elseText s below st ctx x) := by
  cases x with
  | none => exact .pure ""
  | some body => exact nodesText_accounted closed deeper st data body

end

variable (closed : Closed V)

include closed

theorem renderAt_accounted (levels : Nat) (st : Standing) {ctx : Context φ} (data : ctx.All V) (nodes : List Node) :
    Accounted V s (renderAt s levels st ctx nodes) := by
  induction levels generalizing st ctx nodes with
  | zero => exact nodesText_accounted closed (by simp) st data nodes
  | succ levels ih =>
    refine nodesText_accounted closed ?_ st data nodes
    rintro inner ⟨⟩
    exact fun st ctx nodes data => ih st data nodes

/-- A run that fails does so because a function in the data threw, because a value there could not be written out, or
because the loader failed at a name that it was asked for during the run. -/
theorem render_accounted (t : Template) {ctx : Context φ} (data : ctx.All V) : Accounted V s (render s t ctx) :=
  renderAt_accounted closed maxLevels _ data t.nodes

end Run
end Stencil
