import Stencil.Data.Builtin
import Stencil.Proofs.Render.Attribution
import Stencil.Proofs.Render.Levels

namespace Stencil

variable {φ α β : Type}

section Room

/-- What the evaluation of nodes inside each other takes of the stack, if that of each of them takes so many frames. -/
def stackOf (frames : Node → Nat) : List Node → Nat
  | [] => 0
  | n :: outer => frames n + stackOf frames outer

/-- The events before the first evaluation that there is no room for, inside those that are open. -/
def fitting (frames : Node → Nat) (room : Nat) : List Node → List Event → List Event
  | _, [] => []
  | stack, e :: es =>
    if stackOf frames (e.opens stack) ≤ room then e :: fitting frames room (e.opens stack) es else []

/-- What ends a run on a stack of limited size before its time. -/
inductive Halt where
  | failed (f : Failure)
  /-- There is no room for the evaluation of a node. -/
  | overflow
deriving DecidableEq, Repr

/-- A run on a stack with so much room, which is over as soon as there is none. -/
def renderIn [Callable φ] (frames : Node → Nat) (room : Nat) (s : Setting) (t : Template) (ctx : Context φ) :
    Traced Event Halt String :=
  let run := render s t ctx
  let done := fitting frames room [] run.events
  ⟨done, if done.length = run.events.length then run.answer.mapError .failed else .error .overflow⟩

mutual

/-- The most that the evaluation of a node takes on its own level. What is written in place is on the next one. -/
def Node.height (frames : Node → Nat) : Node → Nat
  | .cond mark condition body elseBody =>
    frames (.cond mark condition body elseBody) + max (Node.heightIn frames body) (Node.heightElse frames elseBody)
  | .mapInline mark body items => max (frames (.mapInline mark body items)) (Node.heightIn frames body)
  | .text value => frames (.text value)
  | .attr mark path => frames (.attr mark path)
  | .include mark name => frames (.include mark name)
  | .apply mark func arg => frames (.apply mark func arg)
  | .mapNamed mark name items => frames (.mapNamed mark name items)
  | .join mark separator items => frames (.join mark separator items)
  | .txt mark key => frames (.txt mark key)

def Node.heightIn (frames : Node → Nat) : List Node → Nat
  | [] => 0
  | n :: ns => max (n.height frames) (Node.heightIn frames ns)

def Node.heightElse (frames : Node → Nat) : Option (List Node) → Nat
  | none => 0
  | some body => Node.heightIn frames body

end

theorem Node.frames_le_height (frames : Node → Nat) (n : Node) : frames n ≤ n.height frames := by
  cases n with
  | cond => exact Nat.le_add_right _ _
  | mapInline => exact Nat.le_max_left _ _
  | _ => exact Nat.le_refl _

end Room

section Fitting

variable {frames : Node → Nat} {room : Nat} {stack : List Node}

theorem fitting_append {es : List Event} (fits : fitting frames room stack es = es) (fs : List Event) :
    fitting frames room stack (es ++ fs) = es ++ fitting frames room (es.foldl Event.opens stack) fs := by
  induction es generalizing stack with
  | nil => rfl
  | cons e es ih =>
    rw [fitting] at fits
    split at fits
    · rename_i enough
      rw [List.cons_append, fitting, if_pos enough, ih (List.cons.inj fits).2]
      rfl
    · cases fits

theorem fitting_of_flat (enough : stackOf frames stack ≤ room) {es : List Event} (flat : ∀ e ∈ es, e.IsFlat) :
    fitting frames room stack es = es ∧ es.foldl Event.opens stack = stack := by
  induction es with
  | nil => exact ⟨rfl, rfl⟩
  | cons e es ih =>
    rw [List.forall_mem_cons] at flat
    have same : e.opens stack = stack := by
      cases e with
      | began | wrote => exact flat.1.elim
      | _ => rfl
    obtain ⟨fits, closes⟩ := ih flat.2
    rw [fitting, List.foldl_cons, same, if_pos enough, fits]
    exact ⟨rfl, closes⟩

theorem fitting_begins (es : List Event) : fitting frames room stack es <+: es := by
  induction es generalizing stack with
  | nil => exact List.prefix_refl _
  | cons e es ih =>
    rw [fitting]
    split
    · exact List.cons_prefix_cons.mpr ⟨rfl, ih⟩
    · exact List.nil_prefix

/-- All events fit just if at no time more is open than there is room for. -/
theorem fitting_eq_self_iff (enough : stackOf frames stack ≤ room) {es : List Event} :
    fitting frames room stack es = es ↔
      ∀ before, before <+: es → stackOf frames (before.foldl Event.opens stack) ≤ room := by
  induction es generalizing stack with
  | nil =>
    refine iff_of_true rfl fun before initial => ?_
    rwa [List.prefix_nil.mp initial]
  | cons e es ih =>
    rw [fitting]
    split
    · rename_i next
      rw [List.cons_inj_right, ih next]
      constructor
      · intro all before initial
        cases before with
        | nil => exact enough
        | cons d before =>
          obtain ⟨rfl, rest⟩ := List.cons_prefix_cons.mp initial
          exact all before rest
      · exact fun all before initial => all (e :: before) (List.cons_prefix_cons.mpr ⟨rfl, initial⟩)
    · rename_i crowded
      exact iff_of_false (by simp) fun all => crowded (all [e] ⟨es, rfl⟩)

end Fitting

/-- No template that is found among the events takes more than `h` frames on a level. -/
def Short (frames : Node → Nat) (h : Nat) (es : List Event) : Prop :=
  ∀ u ∈ templatesOf es, Node.heightIn frames u.nodes ≤ h

/-- A part of a run inside the evaluation of the nodes in `stack` that there is room for, if the templates that it finds
are short; and when it has an answer, these are the open nodes again. -/
def Low (frames : Node → Nat) (h room : Nat) (stack : List Node) (x : Outcome α) : Prop :=
  Short frames h x.events → fitting frames room stack x.events = x.events ∧
    ∀ a, x.answer = .ok a → x.events.foldl Event.opens stack = stack

namespace Low

variable {frames : Node → Nat} {h room : Nat} {stack : List Node} {s : Setting}

theorem flat (enough : stackOf frames stack ≤ room) {x : Outcome α} (flat : Flat x) : Low frames h room stack x :=
  fun _ => ⟨(fitting_of_flat enough flat).1, fun _ _ => (fitting_of_flat enough flat).2⟩

theorem pure (a : α) : Low frames h room stack (pure a) := fun _ => ⟨rfl, fun _ _ => rfl⟩

theorem bind {x : Outcome α} {f : α → Outcome β} (first : Low frames h room stack x)
    (second : ∀ a, x.answer = .ok a → Short frames h x.events → Low frames h room stack (f a)) :
    Low frames h room stack (x >>= f) := by
  intro short
  cases answer : x.answer with
  | error e =>
    rw [Traced.bind_of_error answer] at short ⊢
    exact ⟨(first short).1, nofun⟩
  | ok a =>
    rw [Traced.bind_of_ok answer] at short ⊢
    dsimp only at short ⊢
    rw [Short, templatesOf, List.filterMap_append, List.forall_mem_append] at short
    obtain ⟨fits, closes⟩ := first short.1
    obtain ⟨fitsToo, closesToo⟩ := second a answer short.1 short.2
    refine ⟨?_, fun b done => ?_⟩
    · rw [fitting_append fits, closes a answer, fitsToo]
    · rw [List.foldl_append, closes a answer, closesToo b done]

/-- A whole evaluation: the node is opened for it, and closed after it. -/
theorem evaluation {st : Standing} {n : Node} {x : Outcome String} (enough : stackOf frames (n :: stack) ≤ room)
    (inside : Low frames h room (n :: stack) x) :
    Low frames h room stack (do
      Traced.tell (.began st n)
      let text ← x
      Traced.tell (.wrote text)
      return text) := by
  intro short
  have outside : stackOf frames stack ≤ room := by
    rw [stackOf] at enough
    omega
  rw [Traced.bind_of_ok rfl] at short ⊢
  have begins (es : List Event) :
      fitting frames room stack (.began st n :: es) = .began st n :: fitting frames room (n :: stack) es :=
    if_pos enough
  cases answer : x.answer with
  | error e =>
    rw [Traced.bind_of_error answer] at short ⊢
    refine ⟨?_, nofun⟩
    change fitting frames room stack (.began st n :: x.events) = _
    rw [begins, (inside short).1]
    rfl
  | ok text =>
    rw [Traced.bind_of_ok answer, Traced.bind_of_ok rfl] at short ⊢
    have own : Short frames h x.events := by
      change Short frames h (.began st n :: (x.events ++ [Event.wrote text])) at short
      rw [Short, templatesOf, List.filterMap_cons_none rfl, List.filterMap_append, List.forall_mem_append] at short
      exact short.1
    obtain ⟨fits, closes⟩ := inside own
    have ends : fitting frames room (n :: stack) [Event.wrote text] = [Event.wrote text] := if_pos outside
    refine ⟨?_, fun _ _ => ?_⟩
    · change fitting frames room stack (.began st n :: (x.events ++ [Event.wrote text])) = _
      rw [begins, fitting_append fits, closes text answer, ends]
      rfl
    · change (x.events ++ [Event.wrote text]).foldl Event.opens (n :: stack) = stack
      rw [List.foldl_append, closes text answer]
      rfl

theorem itemsText {mark : Mark} {items : Path} (enough : stackOf frames stack ≤ room)
    {each : Entries φ → Outcome String} (inside : ∀ entries, Low frames h room stack (each entries)) (index : Nat)
    (elements : List (Value φ)) : Low frames h room stack (itemsText s mark items each index elements) := by
  induction elements generalizing index with
  | nil => exact .pure ""
  | cons v rest ih =>
    refine .bind ?_ fun _ _ _ => .bind (ih (index + 1)) fun _ _ _ => .pure _
    cases v with
    | mapping entries => exact inside entries
    | _ => exact .flat enough (.reportInstead mark _)

end Low

section Levels

variable {frames : Node → Nat} {h room : Nat}

/-- The way to go one level deeper, with so many levels left from there on: there is room where the room for them is. -/
def BelowLow (frames : Node → Nat) (h room levels : Nat) (below : Option (Below φ)) : Prop :=
  ∀ deeper ∈ below, ∀ st ctx ns stack, stackOf frames stack + levels * h ≤ room → Node.heightIn frames ns ≤ h →
    Low frames h room stack (deeper st ctx ns)

variable {s : Setting} {levels : Nat} {below : Option (Below φ)} (deeper : BelowLow frames h room levels below)
  {stack : List Node} (enough : stackOf frames stack + levels * h ≤ room) (st : Standing) (ctx : Context φ)
  {mark : Mark}

include deeper enough

theorem BelowLow.enter {name : Option String} {cause : Diagnostic.Cause}
    {inside : (Context φ → List Node → Outcome String) → Outcome String}
    (low : ∀ render, (∀ ctx ns, Node.heightIn frames ns ≤ h → Low frames h room stack (render ctx ns)) →
      Low frames h room stack (inside render)) :
    Low frames h room stack (enter s below st mark name cause inside) := by
  cases below with
  | none => exact .flat (by omega) (.reportInstead mark cause)
  | some render => exact low _ fun ctx ns short => deeper render rfl _ ctx ns stack enough short

theorem BelowLow.includeText {name : String} : Low frames h room stack (includeText s below st ctx mark name) := by
  refine deeper.enter enough st fun render low => ?_
  refine .bind (.flat (by omega) (.findTemplate ctx mark name)) fun found answer short => ?_
  cases found with
  | none => exact .pure ""
  | some u => exact low ctx u.nodes (short u (mem_templatesOf_findTemplate answer))

variable [Callable φ]

theorem BelowLow.mapNamedText {name : String} {items : Path} :
    Low frames h room stack (mapNamedText s below st ctx mark name items) := by
  refine .bind (.flat (by omega) (.listAt ctx mark items)) fun elements _ _ => ?_
  split
  · exact .pure ""
  · exact .pure ""
  · refine deeper.enter enough st fun render low => ?_
    refine .bind (.flat (by omega) (.findTemplate ctx mark name)) fun found answer short => ?_
    cases found with
    | none => exact .pure ""
    | some u =>
      have known := short u (mem_templatesOf_findTemplate answer)
      exact .itemsText (by omega) (fun scope => low (ctx.push scope) u.nodes known) 0 _

theorem BelowLow.mapInlineText {body : List Node} {items : Path} (short : Node.heightIn frames body ≤ h) :
    Low frames h room stack (mapInlineText s below st ctx mark body items) := by
  refine .bind (.flat (by omega) (.listAt ctx mark items)) fun elements _ _ => ?_
  split
  · exact .pure ""
  · exact .pure ""
  · refine deeper.enter enough st fun render low => ?_
    exact .itemsText (by omega) (fun scope => low (ctx.push scope) body short) 0 _

end Levels

section Run

variable [Callable φ] {s : Setting} {frames : Node → Nat} {h room levels : Nat} {below : Option (Below φ)}

mutual

theorem BelowLow.nodeText (deeper : BelowLow frames h room levels below) (st : Standing) (ctx : Context φ) (n : Node)
    {stack : List Node} (enough : stackOf frames stack + n.height frames + levels * h ≤ room)
    (short : n.height frames ≤ h) : Low frames h room (n :: stack) (nodeText s below st ctx n) := by
  have own := n.frames_le_height frames
  have here : stackOf frames (n :: stack) + levels * h ≤ room := by
    rw [stackOf]
    omega
  have flat {x : Outcome String} (flat : Flat x) : Low frames h room (n :: stack) x := .flat (by omega) flat
  cases n with
  | text | txt => exact .pure _
  | attr mark path => exact flat (.attrText ctx mark path)
  | «include» mark name => exact deeper.includeText here st ctx
  | apply mark func arg => exact flat (.applyText ctx mark func arg)
  | cond mark condition body elseBody =>
    rw [Node.height] at enough short
    rw [stackOf] at here
    refine .bind (.flat (by rw [stackOf]; omega) (.holds ctx condition)) fun truthy _ _ => ?_
    cases truthy with
    | true => exact BelowLow.nodesText deeper st ctx body (by rw [stackOf]; omega) (by omega)
    | false => exact BelowLow.elseText deeper st ctx elseBody (by rw [stackOf]; omega) (by omega)
  | mapNamed mark name items => exact deeper.mapNamedText here st ctx
  | mapInline mark body items =>
    rw [Node.height] at short
    exact deeper.mapInlineText here st ctx (by omega)
  | join mark separator items => exact flat (.joinText ctx mark separator items)

theorem BelowLow.nodesText (deeper : BelowLow frames h room levels below) (st : Standing) (ctx : Context φ)
    (ns : List Node) {stack : List Node} (enough : stackOf frames stack + Node.heightIn frames ns + levels * h ≤ room)
    (short : Node.heightIn frames ns ≤ h) : Low frames h room stack (nodesText s below st ctx ns) := by
  cases ns with
  | nil => exact .pure ""
  | cons n ns =>
    rw [Node.heightIn] at enough short
    have own := n.frames_le_height frames
    rw [nodesText_cons_eq]
    refine .bind (.evaluation (by rw [stackOf]; omega) ?_) fun _ _ _ => .bind ?_ fun _ _ _ => .pure _
    · exact BelowLow.nodeText deeper st ctx n (by omega) (by omega)
    · exact BelowLow.nodesText deeper st ctx ns (by omega) (by omega)

theorem BelowLow.elseText (deeper : BelowLow frames h room levels below) (st : Standing) (ctx : Context φ)
    (elseBody : Option (List Node)) {stack : List Node}
    (enough : stackOf frames stack + Node.heightElse frames elseBody + levels * h ≤ room)
    (short : Node.heightElse frames elseBody ≤ h) : Low frames h room stack (elseText s below st ctx elseBody) := by
  cases elseBody with
  | none => exact .pure ""
  | some body =>
    rw [Node.heightElse] at enough short
    exact BelowLow.nodesText deeper st ctx body enough short

end

/-- A level takes no more than `h`, and there is that much for each of those that are left. -/
theorem renderAt_low (levels : Nat) (st : Standing) (ctx : Context φ) {ns : List Node} {stack : List Node}
    (enough : stackOf frames stack + Node.heightIn frames ns + levels * h ≤ room)
    (short : Node.heightIn frames ns ≤ h) : Low frames h room stack (renderAt s levels st ctx ns) := by
  induction levels generalizing st ctx ns stack with
  | zero =>
    refine BelowLow.nodesText ?_ st ctx ns enough short
    rintro _ ⟨⟩
  | succ levels ih =>
    refine BelowLow.nodesText ?_ st ctx ns enough short
    rintro _ ⟨⟩ st ctx ns stack enough short
    rw [Nat.succ_mul] at enough
    exact ih st ctx (by omega) short

theorem renderIn_of_short (t : Template) (ctx : Context φ)
    (short : ∀ u ∈ t :: templatesOf (render s t ctx).events, Node.heightIn frames u.nodes ≤ h)
    (enough : (maxLevels + 1) * h ≤ room) :
    renderIn frames room s t ctx = ⟨(render s t ctx).events, (render s t ctx).answer.mapError .failed⟩ := by
  rw [List.forall_mem_cons] at short
  have top : stackOf frames [] + Node.heightIn frames t.nodes + maxLevels * h ≤ room := by
    rw [Nat.succ_mul] at enough
    simp only [stackOf]
    omega
  have low : Low frames h room [] (render s t ctx) := renderAt_low maxLevels _ ctx top short.1
  rw [renderIn, (low short.2).1, if_pos rfl]

/-- The stack runs out just if at some time more is open than there is room for. -/
theorem renderIn_overflow_iff (t : Template) (ctx : Context φ) :
    (renderIn frames room s t ctx).answer = .error .overflow ↔
      ∃ before, before <+: (render s t ctx).events ∧ room < stackOf frames (openNodes before) := by
  have whole : fitting frames room [] (render s t ctx).events = (render s t ctx).events ↔ _ :=
    fitting_eq_self_iff (Nat.zero_le room)
  rw [renderIn]
  dsimp only
  split
  · rename_i same
    have fits := whole.mp ((fitting_begins _).eq_of_length same)
    refine iff_of_false (fun ended => ?_) fun ⟨before, initial, crowded⟩ => ?_
    · cases answer : (render s t ctx).answer <;> rw [answer] at ended <;> cases ended
    · exact absurd (fits before initial) (Nat.not_le.mpr crowded)
  · rename_i cut
    refine iff_of_true rfl (by_contra fun never => cut ?_)
    rw [whole.mpr fun before initial => ?_]
    exact Nat.not_lt.mp fun crowded => never ⟨before, initial, crowded⟩

end Run

/-- Whatever the template and the scopes, if functions answer, if texts can be made of all values, and if the loader
misses or refuses the templates that it does not give: a run gives a text and keeps to its levels. On a stack of limited
size it is cut short just if at some time the nodes that are being evaluated take more than there is, and that is never
so if there is room on each level, and on the first one, for the highest of the templates. -/
theorem render_withinLevels [Callable φ] {V : Value φ → Prop} (sound : Sound V) (s : Setting)
    (loads : ∀ loader, s.loader = some loader → loader.Answers) (t : Template) (ctx : Context φ) (data : ctx.All V) :
    WithinLevels s (render s t ctx) ∧
      (∀ frames room, (renderIn frames room s t ctx).answer = .error .overflow ↔
        ∃ before, before <+: (render s t ctx).events ∧ room < stackOf frames (openNodes before)) ∧
      ∀ frames h room, (∀ u ∈ t :: templatesOf (render s t ctx).events, Node.heightIn frames u.nodes ≤ h) →
        (maxLevels + 1) * h ≤ room →
          ∃ text, (render s t ctx).answer = .ok text ∧
            renderIn frames room s t ctx = ⟨(render s t ctx).events, .ok text⟩ := by
  have within := sound.withinLevels loads t data
  refine ⟨within, fun frames room => renderIn_overflow_iff t ctx, fun frames h room short enough => ?_⟩
  obtain ⟨text, answer⟩ := within.answers
  refine ⟨text, answer, ?_⟩
  rw [renderIn_of_short t ctx short enough, answer]
  rfl

/-- A loader whose every template includes itself, data with a function in it, and a stack that is just large enough. -/
theorem render_withinLevels_of_self_include :
    let V : Value Builtin → Prop := fun v => v.HoldsOnly (· = .upper) ∧ v.isWritable = true
    let loader : Loader := fun name => .ok ⟨[.include ⟨1, 1⟩ name], name⟩
    let s : Setting := ⟨some loader, none, "en", {}⟩
    let t : Template := ⟨[.attr ⟨1, 1⟩ ["shout"], .include ⟨1, 8⟩ "a"], "a"⟩
    let ctx : Context Builtin := ⟨[], [(.str "shout", .func .upper)]⟩
    Sound V ∧ loader.Answers ∧ ctx.All V ∧
      (∀ u ∈ t :: templatesOf (render s t ctx).events, Node.heightIn (fun _ => 4) u.nodes ≤ 4) ∧
      (maxLevels + 1) * 4 ≤ 404 ∧ WithinLevels s (render s t ctx) ∧
      ∃ text, (render s t ctx).answer = .ok text ∧
        renderIn (fun _ => 4) 404 s t ctx = ⟨(render s t ctx).events, .ok text⟩ := by
  intro V loader s t ctx
  have sound : Sound V := by
    refine ⟨(Inherited.holdsOnly _).and .isWritable, ?_, And.right⟩
    rintro f x ⟨known, -⟩ ⟨-, writable⟩
    rw [Value.HoldsOnly] at known
    subst known
    have written : x.written = .ok x.text := if_pos writable
    refine ⟨.str (x.text.map Char.toUpper), ?_, ?_, rfl⟩
    · change x.written.map _ = _
      rw [written]
      rfl
    · rw [Value.HoldsOnly]
      trivial
  have answers : loader.Answers := by
    rintro name e ⟨⟩
  have loads : ∀ l, s.loader = some l → l.Answers := by
    rintro l ⟨⟩
    exact answers
  have data : ctx.All V := by
    refine .single ⟨?_, rfl⟩
    simp [Value.HoldsOnly, Entries.HoldOnly, Entry.HoldsOnly]
  have short : ∀ u ∈ t :: templatesOf (render s t ctx).events, Node.heightIn (fun _ => 4) u.nodes ≤ 4 := by
    decide +kernel
  obtain ⟨within, -, fits⟩ := render_withinLevels sound s loads t ctx data
  exact ⟨sound, answers, data, short, by decide, within, fits _ 4 404 short (by decide)⟩

/-- A whole number is too long for a text, and a template that includes itself inside two conditionals takes more than
a stack of a thousand frames has before the last level is reached. -/
theorem render_halts :
    let long : Context Builtin := ⟨[], [(.str "x", .int (Nat.pow 16 3600))]⟩
    let again : Node := .cond ⟨1, 1⟩ ["x"] [.cond ⟨1, 7⟩ ["x"] [.include ⟨1, 13⟩ "a"] none] none
    let s : Setting := ⟨some fun _ => .ok ⟨[again], "a"⟩, none, "en", {}⟩
    let t : Template := ⟨[.include ⟨1, 2⟩ "a"], ""⟩
    let ctx : Context Builtin := ⟨[], [(.str "x", .int 1)]⟩
    (render s ⟨[.attr ⟨1, 2⟩ ["x"]], ""⟩ long).answer = .error (.raised .tooManyDigits) ∧
      (render s t ctx).answer = .ok "" ∧ (renderIn (fun _ => 4) 1000 s t ctx).answer = .error .overflow := by
  intro long again s t ctx
  have early : ((render s t ctx).events.take 421) <+: (render s t ctx).events := List.take_prefix _ _
  have crowded : 1000 < stackOf (fun _ => 4) (openNodes ((render s t ctx).events.take 421)) := by decide +kernel
  refine ⟨by decide +kernel, by decide +kernel, (renderIn_overflow_iff t ctx).mpr ⟨_, early, crowded⟩⟩

end Stencil
