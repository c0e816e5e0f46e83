import Stencil.Proofs.Render.Origin
import Stencil.Data.Builtin

namespace Stencil

variable {φ α β : Type}

/-- A loader that misses what it does not give, or refuses its source, but never fails by itself. -/
def Loader.Answers (loader : Loader) : Prop :=
  ∀ name e, loader name = .error e → (∃ message, e = .missing message) ∨ ∃ fault, e = .invalid fault

/-- The events of a report: none when the run is quiet. -/
def Setting.reports (s : Setting) (d : Diagnostic) : List Event :=
  if s.options.quiet then [] else [.reported d]

/-- Once `found` has happened since the evaluation of the node began, a template is about to be
entered, inside the open ones; the diagnostic is what is reported instead when no level is left. -/
inductive Node.Enters (chain : List String) : Node → List Event → Diagnostic → Prop
  | named (mark : Mark) (name : String) :
      Node.Enters chain (.include mark name) [] ⟨.tooDeep chain name, mark⟩
  | eachNamed (mark : Mark) (name : String) (items : Path) (k : Nat) :
      Node.Enters chain (.mapNamed mark name items) [.listed (k + 1)] ⟨.tooDeep chain name, mark⟩
  | eachInline (mark : Mark) (body : List Node) (items : Path) (k : Nat) :
      Node.Enters chain (.mapInline mark body items) [.listed (k + 1)]
        ⟨.tooDeepInPlace chain items, mark⟩

theorem Node.Enters.kind {chain : List String} {n : Node} {found : List Event} {d : Diagnostic}
    (enters : n.Enters chain found d) : d.kind = .include := by
  cases enters <;> rfl

/-- What leads to entering a template happens before anything of what comes later. -/
theorem Node.Enters.before {chain : List String} {n : Node} {found after more rest : List Event}
    {d : Diagnostic} (enters : n.Enters chain found d)
    (ended : after ≠ [] ∨ ∀ k, more.head? ≠ some (.listed k)) (same : after ++ more = found ++ rest) :
    ∃ early, after = found ++ early ∧ rest = early ++ more := by
  cases enters with
  | named => exact ⟨after, rfl, same.symm⟩
  | eachNamed | eachInline =>
    cases after with
    | nil =>
      rw [List.nil_append] at same
      exact absurd (congrArg List.head? same) (ended.resolve_left (by simp) _)
    | cons e early =>
      obtain ⟨rfl, tail⟩ := List.cons.inj same
      exact ⟨early, rfl, tail.symm⟩

/-- A node is evaluated where it may be, and what happens after that is as it must be on its level:
at the last one the directives that would enter a template are turned away. -/
structure Held (s : Setting) (st : Standing) (n : Node) (after : List Event) : Prop where
  depth : st.depth ≤ maxLevels
  chain : st.chain.length ≤ st.depth + 1
  ended : after ≠ []
  refused : st.depth = maxLevels → ∀ found d rest, n.Enters st.chain found d → after = found ++ rest →
    ∃ others, rest = s.reports d ++ .wrote "" :: others

theorem Held.append {s : Setting} {st : Standing} {n : Node} {after : List Event}
    (held : Held s st n after) (more : List Event) : Held s st n (after ++ more) where
  depth := held.depth
  chain := held.chain
  ended := by simp [held.ended]
  refused last found d rest enters same := by
    obtain ⟨early, split, rfl⟩ := enters.before (.inl held.ended) same
    obtain ⟨others, refused⟩ := held.refused last found d early enters split
    exact ⟨others ++ more, by simp [refused]⟩

/-- Every evaluation that begins among the events is as it must be. -/
def AllHeld (s : Setting) (events : List Event) : Prop :=
  ∀ before st n after, events = before ++ .began st n :: after → Held s st n after

/-- The end of an evaluation begins none. -/
theorem AllHeld.wrote (s : Setting) (text : String) : AllHeld s [.wrote text] := by
  intro before st n after same
  cases before with
  | nil => cases same
  | cons d before => simp at same

theorem AllHeld.append {s : Setting} {first second : List Event} (held : AllHeld s first)
    (later : AllHeld s second) : AllHeld s (first ++ second) := by
  intro before st n after same
  rcases List.append_eq_append_iff.mp same with ⟨early, rfl, rest⟩ | ⟨early, rfl, rest⟩
  · exact later early st n after rest
  · cases early with
    | nil => exact later [] st n after rest.symm
    | cons e early =>
      obtain ⟨rfl, rfl⟩ := List.cons.inj rest
      exact (held before st n early rfl).append second

theorem AllHeld.began {s : Setting} {st : Standing} {n : Node} {after : List Event}
    (held : Held s st n after) (later : AllHeld s after) : AllHeld s (.began st n :: after) := by
  intro before st' n' after' same
  cases before with
  | nil =>
    obtain ⟨began, rfl⟩ := List.cons.inj same
    cases began
    exact held
  | cons d before => exact later before st' n' after' (List.cons.inj same).2

/-- The event neither begins nor ends the evaluation of a node. -/
def Event.IsFlat : Event → Prop
  | .began _ _ | .wrote _ => False
  | .listed _ | .asked _ | .loaded _ | .bound _ | .compiled _ | .reported _ => True

/-- A part of a run that stays in the evaluation of one node. -/
def Flat (x : Outcome α) : Prop :=
  ∀ e ∈ x.events, e.IsFlat

namespace Flat

variable {s : Setting}

theorem silent {x : Outcome α} (nothing : x.events = []) : Flat x := by
  simp [Flat, nothing]

theorem pure (a : α) : Flat (pure a) := silent rfl

theorem tell {e : Event} (flat : e.IsFlat) : Flat (Traced.tell e) := by
  rintro _ member
  cases List.mem_singleton.mp member
  exact flat

theorem bind {x : Outcome α} {f : α → Outcome β} (first : Flat x) (second : ∀ a, Flat (f a)) : Flat (x >>= f) := by
  cases answer : x.answer with
  | error e =>
    rw [Traced.bind_of_error answer]
    exact first
  | ok a =>
    rw [Traced.bind_of_ok answer]
    exact fun e member => (List.mem_append.mp member).elim (first e) (second a e)

theorem report (mark : Mark) (cause : Diagnostic.Cause) : Flat (report s mark cause) := by
  unfold Stencil.report
  split
  · exact .pure ()
  · exact .tell trivial

theorem reportInstead (mark : Mark) (cause : Diagnostic.Cause) : Flat (reportInstead s mark cause) :=
  .bind (.report mark cause) fun _ => .pure ""

theorem boundTemplate (ctx : Context φ) (mark : Mark) (name : String) (missed : Option String) :
    Flat (boundTemplate s ctx mark name missed) := by
  unfold Stencil.boundTemplate
  split
  · exact .bind (.tell trivial) fun _ => .pure _
  · split
    · exact .bind (.tell trivial) fun _ => .pure _
    · exact .bind (.report mark _) fun _ => .pure none
  · exact .bind (.report mark _) fun _ => .pure none

theorem findTemplate (ctx : Context φ) (mark : Mark) (name : String) : Flat (findTemplate s ctx mark name) := by
  unfold Stencil.findTemplate
  split
  · exact .boundTemplate ctx mark name none
  · refine .bind (.tell trivial) fun _ => ?_
    split
    · exact .bind (.tell trivial) fun _ => .pure _
    · exact .boundTemplate ctx mark name _
    · exact .bind (.report mark _) fun _ => .pure none
    · exact .silent rfl
    · exact .silent rfl

section Nodes

variable [Callable φ] (ctx : Context φ)

theorem valueAt (path : Path) : Flat (valueAt ctx path) := by
  unfold Stencil.valueAt
  split
  · exact .pure _
  · exact .bind (.silent rfl) fun _ => .pure _

theorem attrText (mark : Mark) (path : Path) : Flat (attrText s ctx mark path) := by
  refine .bind (.valueAt ctx path) fun found => ?_
  cases found with
  | error e => exact .reportInstead mark _
  | ok v => exact .silent rfl

theorem applyText (mark : Mark) (func arg : Path) : Flat (applyText s ctx mark func arg) := by
  unfold Stencil.applyText
  split
  · exact .reportInstead mark _
  · refine .bind (.valueAt ctx arg) fun found => ?_
    cases found with
    | error e => exact .reportInstead mark _
    | ok v => exact .bind (.silent rfl) fun _ => .silent rfl
  · exact .silent rfl

theorem holds (condition : Path) : Flat (holds ctx condition) := by
  refine .bind (.valueAt ctx condition) fun found => ?_
  cases found with
  | error e => exact .pure false
  | ok v => exact .bind (.silent rfl) fun _ => .pure _

theorem listAt (mark : Mark) (items : Path) : Flat (listAt s ctx mark items) := by
  refine .bind (.valueAt ctx items) fun found => ?_
  split
  · exact .bind (.report mark _) fun _ => .pure none
  · exact .bind (.tell trivial) fun _ => .pure _
  · exact .bind (.tell trivial) fun _ => .pure _
  · exact .bind (.report mark _) fun _ => .pure none

theorem elementTexts (vs : List (Value φ)) : Flat (vs.mapM (elementText ctx)) := by
  induction vs with
  | nil => exact .pure []
  | cons v vs ih =>
    rw [List.mapM_cons]
    refine .bind ?_ fun _ => .bind ih fun _ => .pure _
    cases v with
    | func f => exact .bind (.silent rfl) fun _ => .silent rfl
    | _ => exact .silent rfl

theorem joinText (mark : Mark) (separator : String) (items : Path) : Flat (joinText s ctx mark separator items) := by
  refine .bind (.listAt ctx mark items) fun found => ?_
  cases found with
  | none => exact .pure ""
  | some elements => exact .bind (.elementTexts ctx elements) fun _ => .pure _

end Nodes
end Flat

/-- A part of a run in which every evaluation that begins is as it must be, if the part has an answer. -/
def InLevels (s : Setting) (x : Outcome α) : Prop :=
  ∀ a, x.answer = .ok a → AllHeld s x.events

namespace InLevels

variable {s : Setting}

theorem flat {x : Outcome α} (flat : Flat x) : InLevels s x := by
  intro _ _ before st n after same
  exact (flat (.began st n) (by simp [same])).elim

theorem pure (a : α) : InLevels s (pure a) := .flat (.pure a)

theorem bind {x : Outcome α} {f : α → Outcome β} (first : InLevels s x)
    (second : ∀ a, x.answer = .ok a → InLevels s (f a)) : InLevels s (x >>= f) := by
  intro b answer
  cases early : x.answer with
  | error e =>
    rw [Traced.bind_of_error early] at answer
    cases answer
  | ok a =>
    rw [Traced.bind_of_ok early] at answer ⊢
    exact (first a early).append (second a early b answer)

theorem itemsText (mark : Mark) (items : Path) {each : Entries φ → Outcome String}
    (inside : ∀ entries, InLevels s (each entries)) (index : Nat) (elements : List (Value φ)) :
    InLevels s (itemsText s mark items each index elements) := by
  induction elements generalizing index with
  | nil => exact .pure ""
  | cons v rest ih =>
    refine .bind ?_ fun _ _ => .bind (ih (index + 1)) fun _ _ => .pure _
    cases v with
    | mapping entries => exact inside entries
    | _ => exact .flat (.reportInstead mark _)

end InLevels

section Last

variable (s : Setting)

theorem report_eq (mark : Mark) (cause : Diagnostic.Cause) :
    report s mark cause = ⟨s.reports ⟨cause, mark⟩, .ok ()⟩ := by
  unfold report Setting.reports
  split <;> rfl

theorem reportInstead_eq (mark : Mark) (cause : Diagnostic.Cause) :
    reportInstead s mark cause = ⟨s.reports ⟨cause, mark⟩, .ok ""⟩ := by
  rw [reportInstead, report_eq, Traced.bind_of_ok rfl, Traced.events_pure, List.append_nil]
  rfl

theorem reports_ne_listed (d : Diagnostic) (k : Nat) (rest : List Event) :
    s.reports d ≠ .listed k :: rest := by
  unfold Setting.reports
  split <;> simp

variable [Callable φ] (ctx : Context φ)

theorem valueAt_events (path : Path) : (valueAt ctx path).events = [] := by
  unfold valueAt
  split
  · rfl
  · cases ctx.settle _ <;> rfl

/-- A list is looked for in vain, with a report or with a failure, or it is found. -/
theorem listAt_cases (mark : Mark) (items : Path) :
    (∃ e, listAt s ctx mark items = ⟨[], .error e⟩) ∨
      (∃ d, listAt s ctx mark items = ⟨s.reports d, .ok none⟩) ∨
      ∃ elements, listAt s ctx mark items = ⟨[.listed elements.length], .ok (some elements)⟩ := by
  have none := valueAt_events ctx items
  unfold listAt
  cases answer : (valueAt ctx items).answer with
  | error e =>
    rw [Traced.bind_of_error answer, none]
    exact .inl ⟨e, rfl⟩
  | ok found =>
    have reported (cause : Diagnostic.Cause) :
        (do report s mark cause; return Option.none : Outcome (Option (List (Value φ)))) =
          ⟨s.reports ⟨cause, mark⟩, .ok .none⟩ := by
      unfold report Setting.reports
      split <;> rfl
    rw [Traced.bind_of_ok answer, none, List.nil_append]
    refine .inr ?_
    split
    · exact .inl ⟨_, reported _⟩
    · exact .inr ⟨_, rfl⟩
    · exact .inr ⟨_, rfl⟩
    · exact .inl ⟨_, reported _⟩

/-- What goes on once a list is found is nothing but a report, if a report is all there may be for
a list with elements. -/
theorem listAt_refused {mark : Mark} {items : Path} {cause : Diagnostic.Cause}
    {each : Option (List (Value φ)) → Outcome String} (missing : each none = pure "")
    (empty : each (some []) = pure "")
    (refused : ∀ v vs, each (some (v :: vs)) = reportInstead s mark cause) {k : Nat}
    {rest : List Event} (listed : (listAt s ctx mark items >>= each).events = .listed (k + 1) :: rest) :
    rest = s.reports ⟨cause, mark⟩ ∧ (listAt s ctx mark items >>= each).answer = .ok "" := by
  rcases listAt_cases s ctx mark items with ⟨e, found⟩ | ⟨d, found⟩ | ⟨elements, found⟩
  · rw [found, Traced.bind_of_error rfl] at listed
    cases listed
  · rw [found, Traced.bind_of_ok rfl, missing] at listed
    simp only [Traced.events_pure, List.append_nil] at listed
    exact absurd listed (reports_ne_listed s d _ _)
  · rw [found, Traced.bind_of_ok rfl] at listed ⊢
    cases elements with
    | nil =>
      rw [empty] at listed
      simp at listed
    | cons v vs =>
      rw [refused, reportInstead_eq] at listed ⊢
      exact ⟨(List.cons.inj listed).2.symm, rfl⟩

/-- At the last level a directive that is about to enter a template is turned away. -/
theorem nodeText_last {st : Standing} {n : Node} {found rest : List Event} {d : Diagnostic}
    (enters : n.Enters st.chain found d)
    (events : (nodeText s none st ctx n).events = found ++ rest) :
    rest = s.reports d ∧ (nodeText s none st ctx n).answer = .ok "" := by
  cases enters with
  | named mark name =>
    change (reportInstead s mark _).events = rest at events
    change rest = _ ∧ (reportInstead s mark _).answer = _
    rw [reportInstead_eq] at events ⊢
    exact ⟨events.symm, rfl⟩
  | eachNamed mark name items k =>
    exact listAt_refused s ctx rfl rfl (fun _ _ => rfl) events
  | eachInline mark body items k =>
    exact listAt_refused s ctx rfl rfl (fun _ _ => rfl) events

end Last

section Nodes

variable [Callable φ] {s : Setting} (ctx : Context φ)

/-- The way to go one level deeper, for a run that stands at `st`: at the last level there is none,
and on the others whatever is rendered there is as it must be. -/
inductive Deeper (s : Setting) (st : Standing) : Option (Below φ) → Prop
  | last (depth : st.depth = maxLevels) : Deeper s st none
  | left {deeper : Below φ} (depth : st.depth < maxLevels)
      (inside : ∀ name ctx nodes, InLevels s (deeper (st.enter name) ctx nodes)) : Deeper s st (some deeper)

namespace Deeper

variable {st : Standing} {below : Option (Below φ)} (deeper : Deeper s st below) (mark : Mark)

include deeper

omit [Callable φ] in
theorem enter (name : Option String) (tooDeep : Diagnostic.Cause)
    {inside : (Context φ → List Node → Outcome String) → Outcome String}
    (held : ∀ render, (∀ ctx nodes, InLevels s (render ctx nodes)) → InLevels s (inside render)) :
    InLevels s (enter s below st mark name tooDeep inside) := by
  cases deeper with
  | last => exact .flat (.reportInstead mark _)
  | left _ all => exact held _ (all name)

omit [Callable φ] in
theorem includeText (name : String) : InLevels s (includeText s below st ctx mark name) := by
  refine deeper.enter mark _ _ fun render inside => .bind (.flat (.findTemplate ctx mark name)) fun found _ => ?_
  cases found with
  | none => exact .pure ""
  | some t => exact inside ctx t.nodes

theorem mapNamedText (name : String) (items : Path) :
    InLevels s (mapNamedText s below st ctx mark name items) := by
  refine .bind (.flat (.listAt ctx mark items)) fun elements _ => ?_
  split
  · exact .pure ""
  · exact .pure ""
  · refine deeper.enter mark _ _ fun render inside => .bind (.flat (.findTemplate ctx mark name)) fun found _ => ?_
    cases found with
    | none => exact .pure ""
    | some t => exact .itemsText mark items (fun scope => inside (ctx.push scope) t.nodes) 0 _

theorem mapInlineText (body : List Node) (items : Path) :
    InLevels s (mapInlineText s below st ctx mark body items) := by
  refine .bind (.flat (.listAt ctx mark items)) fun elements _ => ?_
  split
  · exact .pure ""
  · exact .pure ""
  · refine deeper.enter mark _ _ fun render inside => ?_
    exact .itemsText mark items (fun scope => inside (ctx.push scope) body) 0 _

variable {ctx} in
theorem held (chain : st.chain.length ≤ st.depth + 1) {n : Node} {text : String}
    (answer : (nodeText s below st ctx n).answer = .ok text) :
    Held s st n ((nodeText s below st ctx n).events ++ [.wrote text]) where
  depth := by cases deeper <;> omega
  chain := chain
  ended := by simp
  refused last found d rest enters same := by
    cases deeper with
    | left depth => omega
    | last =>
      obtain ⟨early, events, rfl⟩ := enters.before (.inr (by simp)) same
      obtain ⟨rfl, empty⟩ := nodeText_last s ctx enters events
      cases answer.symm.trans empty
      exact ⟨[], rfl⟩

end Deeper
end Nodes

theorem nodesText_cons [Callable φ] {s : Setting} {below : Option (Below φ)} {st : Standing}
    {ctx : Context φ} {n : Node} {ns : List Node} {text others : String}
    (answer : (nodeText s below st ctx n).answer = .ok text)
    (rest : (nodesText s below st ctx ns).answer = .ok others) :
    nodesText s below st ctx (n :: ns) =
      ⟨.began st n :: ((nodeText s below st ctx n).events ++ [.wrote text]) ++
        (nodesText s below st ctx ns).events, .ok (text ++ others)⟩ := by
  rw [nodesText, Traced.bind_of_ok rfl, Traced.bind_of_ok answer, Traced.bind_of_ok rfl,
    Traced.bind_of_ok rest]
  simp [Traced.tell]

/-- A sequence of nodes has a text only if its first node and the others have one. -/
theorem texts_of_nodesText_cons [Callable φ] {s : Setting} {below : Option (Below φ)} {st : Standing}
    {ctx : Context φ} {n : Node} {ns : List Node} {text : String}
    (answer : (nodesText s below st ctx (n :: ns)).answer = .ok text) :
    (∃ first, (nodeText s below st ctx n).answer = .ok first) ∧
      ∃ others, (nodesText s below st ctx ns).answer = .ok others := by
  rw [nodesText, Traced.bind_of_ok rfl, Traced.answer_bind] at answer
  obtain ⟨first, here, answer⟩ := exists_of_bind_ok answer
  rw [Traced.bind_of_ok rfl, Traced.answer_bind] at answer
  obtain ⟨others, rest, -⟩ := exists_of_bind_ok answer
  exact ⟨⟨first, here⟩, others, rest⟩

section Run

variable [Callable φ] {s : Setting}

mutual

theorem Deeper.nodeText (ctx : Context φ) {st : Standing} {below : Option (Below φ)} (deeper : Deeper s st below)
    (chain : st.chain.length ≤ st.depth + 1) (n : Node) : InLevels s (nodeText s below st ctx n) := by
  cases n with
  | text value => exact .pure value
  | attr mark path => exact .flat (.attrText ctx mark path)
  | «include» mark name => exact deeper.includeText ctx mark name
  | apply mark func arg => exact .flat (.applyText ctx mark func arg)
  | cond mark condition body elseBody =>
    refine .bind (.flat (.holds ctx condition)) fun truthy _ => ?_
    cases truthy with
    | true => exact Deeper.nodesText ctx deeper chain body
    | false =>
      cases elseBody with
      | none => exact .pure ""
      | some body => exact Deeper.nodesText ctx deeper chain body
  | mapNamed mark name items => exact deeper.mapNamedText ctx mark name items
  | mapInline mark body items => exact deeper.mapInlineText ctx mark body items
  | join mark separator items => exact .flat (.joinText ctx mark separator items)
  | txt mark key => exact .pure _

theorem Deeper.nodesText (ctx : Context φ) {st : Standing} {below : Option (Below φ)} (deeper : Deeper s st below)
    (chain : st.chain.length ≤ st.depth + 1) (nodes : List Node) : InLevels s (nodesText s below st ctx nodes) := by
  cases nodes with
  | nil => exact .pure ""
  | cons n ns =>
    intro text answer
    obtain ⟨⟨first, here⟩, others, rest⟩ := texts_of_nodesText_cons answer
    have inside := Deeper.nodeText ctx deeper chain n first here
    have later := Deeper.nodesText ctx deeper chain ns others rest
    rw [nodesText_cons here rest]
    exact (AllHeld.began (deeper.held chain here) (inside.append (.wrote s first))).append later

end

/-- As many levels are left as the run is above the last one, wherever in a run that is. -/
theorem renderAt_inLevels (levels : Nat) {st : Standing} (left : st.depth + levels = maxLevels)
    (chain : st.chain.length ≤ st.depth + 1) (ctx : Context φ) (nodes : List Node) :
    InLevels s (renderAt s levels st ctx nodes) := by
  induction levels generalizing st ctx nodes with
  | zero => exact Deeper.nodesText ctx (.last left) chain nodes
  | succ levels ih =>
    refine Deeper.nodesText ctx (.left (by omega) ?_) chain nodes
    intro name ctx nodes
    refine ih (by simp only [Standing.enter]; omega) ?_ ctx nodes
    have one : name.toList.length ≤ 1 := by cases name <;> simp
    simp only [Standing.enter, List.length_append]
    omega

end Run

/-- What can be relied on in a run. It gives a text. No node is evaluated deeper than at the last
level, or inside more templates than one for each level and the first one. At the last level
a directive that is about to enter a template asks for none, writes the empty text, and is reported
exactly once unless the run is quiet. -/
structure WithinLevels (s : Setting) (run : Outcome String) : Prop where
  answers : ∃ text, run.answer = .ok text
  bounded : ∀ st n, .began st n ∈ run.events →
    st.depth ≤ maxLevels ∧ st.chain.length ≤ st.depth + 1
  refused : ∀ before st n found rest d, run.events = before ++ .began st n :: (found ++ rest) →
    st.depth = maxLevels → n.Enters st.chain found d →
    d.kind = .include ∧ ∃ others, rest = s.reports d ++ .wrote "" :: others

/-- Values that a run comes through with: functions among them answer, with values among them, and texts can be made
of all of them. -/
structure Sound [Callable φ] (V : Value φ → Prop) : Prop extends Inherited V where
  answers {f : φ} {x : Value φ} : V (.func f) → V x → ∃ v, Callable.call f x = .ok v ∧ V v
  writable {v : Value φ} : V v → v.isWritable = true

section Answers

variable [Callable φ] {V : Value φ → Prop} (sound : Sound V)

include sound

theorem Sound.closed : Closed V where
  toInherited := sound.toInherited
  answer known given answer := by
    obtain ⟨w, answered, inside⟩ := sound.answers known given
    cases answered.symm.trans answer
    exact inside

variable {s : Setting} (loads : ∀ loader, s.loader = some loader → loader.Answers) (t : Template) {ctx : Context φ}
  (data : ctx.All V)

include loads data

/-- Nothing of what a failure can come from is there. -/
theorem Sound.render_answers : ∃ text, (render s t ctx).answer = .ok text := by
  cases answer : (render s t ctx).answer with
  | ok text => exact ⟨text, rfl⟩
  | error f =>
    cases render_accounted sound.closed t data f answer with
    | call known given threw =>
      obtain ⟨v, answered, -⟩ := sound.answers known given
      cases answered.symm.trans threw
    | unwritable known long => cases long.symm.trans (sound.writable known)
    | @loader loader name e _ present asked failed passed =>
      rcases loads loader present name e failed with ⟨_, rfl⟩ | ⟨_, rfl⟩ <;> cases passed

theorem Sound.withinLevels : WithinLevels s (render s t ctx) := by
  have chain : (if t.name = "" then [] else [t.name]).length ≤ 1 := by split <;> simp
  obtain ⟨text, answer⟩ := sound.render_answers loads t data
  have held : AllHeld s (render s t ctx).events := renderAt_inLevels maxLevels (Nat.zero_add _) chain ctx t.nodes text answer
  refine ⟨⟨text, answer⟩, ?_, ?_⟩
  · intro st n member
    obtain ⟨before, after, split⟩ := List.append_of_mem member
    have here := held before st n after split
    exact ⟨here.depth, here.chain⟩
  · intro before st n found rest d split last enters
    exact ⟨enters.kind, (held before st n _ split).refused last found d rest enters rfl⟩

end Answers
end Stencil
