import Stencil.Proofs.Traced
import Stencil.Render.Run

namespace Stencil

variable {φ α β : Type}

/-- The same setting, quiet or not. -/
def Setting.withQuiet (s : Setting) (quiet : Bool) : Setting :=
  { s with options := { s.options with quiet } }

/-- Anything but a report. -/
def Event.isSilent (e : Event) : Bool := e.diagnostic?.isNone

theorem reportsOf_filter_isSilent (events : List Event) :
    reportsOf (events.filter Event.isSilent) = [] := by
  rw [reportsOf, List.filterMap_eq_nil_iff]
  intro e member
  exact Option.isNone_iff_eq_none.mp (List.mem_filter.mp member).2

/-- What is left of a part of a run without its reports. -/
def hush (x : Outcome α) : Outcome α := x.keep Event.isSilent

@[simp] theorem hush_pure (a : α) : hush (pure a) = pure a := rfl

@[simp] theorem hush_bind (x : Outcome α) (f : α → Outcome β) :
    hush (x >>= f) = hush x >>= fun a => hush (f a) :=
  Traced.keep_bind _ x f

@[simp] theorem hush_ofCall (r : Except Raised α) : hush (Outcome.ofCall r) = Outcome.ofCall r := rfl

/-- An event that is no report stays. -/
theorem hush_tell {e : Event} (silent : e.isSilent) : hush (Traced.tell e) = Traced.tell e := by
  rw [hush, Traced.keep_tell, if_pos silent]

@[simp] theorem hush_began (st : Standing) (n : Node) :
    hush (Traced.tell (.began st n)) = Traced.tell (.began st n) := hush_tell rfl

@[simp] theorem hush_wrote (text : String) :
    hush (Traced.tell (.wrote text)) = Traced.tell (.wrote text) := hush_tell rfl

variable (s : Setting)

@[simp] theorem hush_boundTemplate (ctx : Context φ) (mark : Mark) (name : String)
    (missed : Option String) :
    hush (boundTemplate (s.withQuiet false) ctx mark name missed) =
      boundTemplate (s.withQuiet true) ctx mark name missed := by
  unfold boundTemplate
  split
  · rfl
  · split <;> rfl
  · rfl

@[simp] theorem hush_findTemplate (ctx : Context φ) (mark : Mark) (name : String) :
    hush (findTemplate (s.withQuiet false) ctx mark name) =
      findTemplate (s.withQuiet true) ctx mark name := by
  unfold findTemplate
  simp only [Setting.withQuiet]
  split
  · exact hush_boundTemplate s ctx mark name none
  · rename_i loader _
    rw [hush_bind, hush_tell rfl]
    congr 1
    funext _
    split
    · rfl
    · exact hush_boundTemplate s ctx mark name _
    · rfl
    · rfl
    · rfl

theorem hush_itemText (mark : Mark) (items : Path) {loud quiet : Entries φ → Outcome String}
    (each : ∀ entries, hush (loud entries) = quiet entries) (index : Nat) (v : Value φ) :
    hush (itemText (s.withQuiet false) mark items loud index v) =
      itemText (s.withQuiet true) mark items quiet index v := by
  cases v with
  | mapping entries => exact each entries
  | _ => rfl

/-- Going over the elements of a list keeps two ways to render one of them in step. -/
theorem hush_itemsText (mark : Mark) (items : Path) {loud quiet : Entries φ → Outcome String}
    (each : ∀ entries, hush (loud entries) = quiet entries) (index : Nat) (elements : List (Value φ)) :
    hush (itemsText (s.withQuiet false) mark items loud index elements) =
      itemsText (s.withQuiet true) mark items quiet index elements := by
  induction elements generalizing index with
  | nil => rfl
  | cons v rest ih =>
    simp only [itemsText, hush_bind, hush_itemText s mark items each, ih, hush_pure]

/-- The two ways to go one level deeper, when they are in step with each other. -/
def BelowInStep (loud quiet : Option (Below φ)) : Prop :=
  Option.Rel (fun x y => ∀ st ctx nodes, hush (x st ctx nodes) = y st ctx nodes) loud quiet

theorem hush_enter {loud quiet : Option (Below φ)} (step : BelowInStep loud quiet) (st : Standing)
    (mark : Mark) (name : Option String) (tooDeep : Diagnostic.Cause)
    {inside inside' : (Context φ → List Node → Outcome String) → Outcome String}
    (same : ∀ x y, (∀ ctx nodes, hush (x ctx nodes) = y ctx nodes) → hush (inside x) = inside' y) :
    hush (enter (s.withQuiet false) loud st mark name tooDeep inside) =
      enter (s.withQuiet true) quiet st mark name tooDeep inside' := by
  cases step with
  | none => rfl
  | some related => exact same _ _ (related (st.enter name))

theorem hush_includeText {loud quiet : Option (Below φ)} (step : BelowInStep loud quiet)
    (st : Standing) (ctx : Context φ) (mark : Mark) (name : String) :
    hush (includeText (s.withQuiet false) loud st ctx mark name) =
      includeText (s.withQuiet true) quiet st ctx mark name := by
  refine hush_enter s step st mark _ _ fun x y related => ?_
  rw [hush_bind, hush_findTemplate]
  congr 1
  funext found
  cases found with
  | none => rfl
  | some t => exact related ctx t.nodes

section Nodes

variable [Callable φ] (ctx : Context φ)

/-- Looking for a value reports nothing by itself. -/
@[simp] theorem hush_valueAt (path : Path) : hush (valueAt ctx path) = valueAt ctx path := by
  unfold valueAt
  split
  · rfl
  · rw [hush_bind, hush_ofCall]
    rfl

@[simp] theorem hush_attrText (mark : Mark) (path : Path) :
    hush (attrText (s.withQuiet false) ctx mark path) = attrText (s.withQuiet true) ctx mark path := by
  unfold attrText
  rw [hush_bind, hush_valueAt]
  congr 1
  funext found
  cases found <;> rfl

@[simp] theorem hush_applyText (mark : Mark) (func arg : Path) :
    hush (applyText (s.withQuiet false) ctx mark func arg) =
      applyText (s.withQuiet true) ctx mark func arg := by
  unfold applyText
  split
  · rfl
  · rw [hush_bind, hush_valueAt]
    congr 1
    funext found
    cases found with
    | error e => rfl
    | ok v => simp only [hush_bind, hush_ofCall]
  · rfl

@[simp] theorem hush_holds (condition : Path) : hush (holds ctx condition) = holds ctx condition := by
  unfold holds
  rw [hush_bind, hush_valueAt]
  congr 1
  funext found
  cases found with
  | error e => rfl
  | ok v => exact (hush_bind _ _).trans (by simp only [hush_ofCall, hush_pure])

@[simp] theorem hush_listAt (mark : Mark) (items : Path) :
    hush (listAt (s.withQuiet false) ctx mark items) = listAt (s.withQuiet true) ctx mark items := by
  unfold listAt
  rw [hush_bind, hush_valueAt]
  congr 1
  funext found
  split <;> rfl

@[simp] theorem hush_elementText (v : Value φ) : hush (elementText ctx v) = elementText ctx v := by
  unfold elementText
  split
  · rw [hush_bind, hush_ofCall]
    rfl
  all_goals rfl

@[simp] theorem hush_mapM (f : α → Outcome β) (same : ∀ a, hush (f a) = f a) (as : List α) :
    hush (as.mapM f) = as.mapM f := by
  induction as with
  | nil => rfl
  | cons a as ih => simp only [List.mapM_cons, hush_bind, same, ih, hush_pure]

@[simp] theorem hush_joinText (mark : Mark) (separator : String) (items : Path) :
    hush (joinText (s.withQuiet false) ctx mark separator items) =
      joinText (s.withQuiet true) ctx mark separator items := by
  unfold joinText
  rw [hush_bind, hush_listAt]
  congr 1
  funext found
  cases found with
  | none => rfl
  | some elements => simp only [hush_bind, hush_mapM _ (hush_elementText ctx), hush_pure]

section Level

variable {loud quiet : Option (Below φ)} (step : BelowInStep loud quiet) (st : Standing)

include step

theorem hush_mapNamedText (mark : Mark) (name : String) (items : Path) :
    hush (mapNamedText (s.withQuiet false) loud st ctx mark name items) =
      mapNamedText (s.withQuiet true) quiet st ctx mark name items := by
  unfold mapNamedText
  rw [hush_bind, hush_listAt]
  congr 1
  funext elements
  split
  · rfl
  · rfl
  · refine hush_enter s step st mark _ _ fun x y related => ?_
    rw [hush_bind, hush_findTemplate]
    congr 1
    funext found
    cases found with
    | none => rfl
    | some t => exact hush_itemsText s mark items (fun entries => related _ t.nodes) 0 _

theorem hush_mapInlineText (mark : Mark) (body : List Node) (items : Path) :
    hush (mapInlineText (s.withQuiet false) loud st ctx mark body items) =
      mapInlineText (s.withQuiet true) quiet st ctx mark body items := by
  unfold mapInlineText
  rw [hush_bind, hush_listAt]
  congr 1
  funext elements
  split
  · rfl
  · rfl
  · exact hush_enter s step st mark _ _ fun x y related =>
      hush_itemsText s mark items (fun entries => related _ body) 0 _

end Level

mutual

theorem hush_nodeText {loud quiet : Option (Below φ)} (step : BelowInStep loud quiet) (st : Standing)
    (n : Node) : hush (nodeText (s.withQuiet false) loud st ctx n) =
      nodeText (s.withQuiet true) quiet st ctx n := by
  cases n with
  | text value => rfl
  | attr mark path => exact hush_attrText s ctx mark path
  | «include» mark name => exact hush_includeText s step st ctx mark name
  | apply mark func arg => exact hush_applyText s ctx mark func arg
  | cond mark condition body elseBody =>
    simp only [nodeText, hush_bind, hush_holds]
    congr 1
    funext truthy
    cases truthy with
    | true => exact hush_nodesText step st body
    | false =>
      cases elseBody with
      | none => rfl
      | some body => exact hush_nodesText step st body
  | mapNamed mark name items => exact hush_mapNamedText s ctx step st mark name items
  | mapInline mark body items => exact hush_mapInlineText s ctx step st mark body items
  | join mark separator items => exact hush_joinText s ctx mark separator items
  | txt mark key => rfl

theorem hush_nodesText {loud quiet : Option (Below φ)} (step : BelowInStep loud quiet) (st : Standing)
    (nodes : List Node) : hush (nodesText (s.withQuiet false) loud st ctx nodes) =
      nodesText (s.withQuiet true) quiet st ctx nodes := by
  cases nodes with
  | nil => rfl
  | cons n ns =>
    simp only [nodesText, hush_bind, hush_began, hush_wrote, hush_nodeText step st n,
      hush_nodesText step st ns, hush_pure]

end

/-- On every level the quiet way to render is the other one without its reports. -/
theorem hush_renderAt (levels : Nat) (st : Standing) (ctx : Context φ) (nodes : List Node) :
    hush (renderAt (s.withQuiet false) levels st ctx nodes) =
      renderAt (s.withQuiet true) levels st ctx nodes := by
  induction levels generalizing st ctx nodes with
  | zero => exact hush_nodesText s ctx .none st nodes
  | succ levels ih => exact hush_nodesText s ctx (.some ih) st nodes

/-- Two runs that differ only in being quiet or not give the same text or fail in the same way, and
the quiet one reports nothing. All else that happens in them is the same, in the same order. -/
theorem render_quiet (t : Template) (ctx : Context φ) :
    (render (s.withQuiet true) t ctx).answer = (render (s.withQuiet false) t ctx).answer ∧
      reportsOf (render (s.withQuiet true) t ctx).events = [] ∧
      (render (s.withQuiet true) t ctx).events =
        (render (s.withQuiet false) t ctx).events.filter Event.isSilent := by
  have same := hush_renderAt s maxLevels ⟨0, if t.name = "" then [] else [t.name]⟩ ctx t.nodes
  have answers := congrArg Traced.answer same
  have events := congrArg Traced.events same
  refine ⟨answers.symm, ?_, events.symm⟩
  rw [render, ← events]
  exact reportsOf_filter_isSilent _

end Nodes

end Stencil
