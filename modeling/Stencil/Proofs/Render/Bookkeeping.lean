import Stencil.Proofs.Failing
import Stencil.Proofs.Render.Inclusion
import Stencil.Proofs.Render.Levels

namespace Stencil

variable {φ α β : Type}

/-- The books of a walk: how deep it stands, the templates that are open there, outermost first, and all reports. -/
structure Ledger where
  depth : Nat
  chain : List String
  reports : List Diagnostic
deriving DecidableEq, Repr

def Ledger.standing (b : Ledger) : Standing := ⟨b.depth, b.chain⟩

/-- The books after some events. -/
def Ledger.note (b : Ledger) (events : List Event) : Ledger := { b with reports := b.reports ++ reportsOf events }

/-- The books one level deeper, where a template that has a name is one of the open ones. -/
def Ledger.enter (b : Ledger) (name : Option String) : Ledger :=
  { b with depth := b.depth + 1, chain := b.chain ++ name.toList }

/-- The books one level further up. If the template that is left has a name, it was the last of the open ones. -/
def Ledger.leave (b : Ledger) (name : Option String) : Ledger :=
  { b with depth := b.depth - 1, chain := if name.isSome then b.chain.dropLast else b.chain }

theorem Ledger.note_nil (b : Ledger) : b.note [] = b := by
  simp [note, reportsOf]

theorem Ledger.note_note (b : Ledger) (early late : List Event) :
    (b.note early).note late = b.note (early ++ late) := by
  simp [note, reportsOf]

theorem Ledger.note_cons {e : Event} (silent : e.diagnostic? = none) (b : Ledger) (events : List Event) :
    b.note (e :: events) = b.note events := by
  rw [note, note, reportsOf, List.filterMap_cons_none silent, reportsOf]

/-- Leaving a template undoes that it was entered, whatever was reported in between. -/
theorem Ledger.leave_note_enter (b : Ledger) (name : Option String) (events : List Event) :
    ((b.enter name).note events).leave name = b.note events := by
  cases name with
  | none => simp [leave, note, enter]
  | some name => simp [leave, note, enter]

/-- A part of a run that has the books at hand. They are still there after a failure. -/
abbrev Walk := ExceptT Failure (StateM Ledger)

namespace Walk

/-- A part of a run that enters nothing. Its reports are written down. -/
def leaf (x : Outcome α) : Walk α := fun b => (x.answer, b.note x.events)

/-- Goes one level deeper. If there is none, this is reported, with the templates that are open. -/
def enter (s : Setting) (mark : Mark) (name : Option String) (tooDeep : List String → Diagnostic.Cause) :
    Walk Bool := do
  let b ← get
  if maxLevels ≤ b.depth then
    leaf (report s mark (tooDeep b.chain))
    return false
  else
    set (b.enter name)
    return true

/-- Goes one level up again. -/
def leave (name : Option String) : Walk Unit := modify (·.leave name)

/-- Goes one level deeper for a part of the walk, and up again however that ends. -/
def within (s : Setting) (mark : Mark) (name : Option String) (tooDeep : List String → Diagnostic.Cause)
    (inside : Walk String) : Walk String := do
  if ← enter s mark name tooDeep then
    try inside finally leave name
  else
    return ""

def item (s : Setting) (mark : Mark) (path : Path) (each : Entries φ → Walk String) (index : Nat) :
    Value φ → Walk String
  | .mapping entries => each entries
  | _ => leaf (reportInstead s mark (.notMapping path index))

def items (s : Setting) (mark : Mark) (path : Path) (each : Entries φ → Walk String) :
    Nat → List (Value φ) → Walk String
  | _, [] => return ""
  | index, v :: rest => do
    let first ← item s mark path each index v
    let others ← items s mark path each (index + 1) rest
    return first ++ others

variable [Callable φ] (s : Setting) (deeper : Context φ → List Node → Walk String)

def included (ctx : Context φ) (mark : Mark) (name : String) : Walk String :=
  within s mark (some name) (.tooDeep · name) do
    match ← leaf (findTemplate s ctx mark name) with
    | none => return ""
    | some t => deeper ctx t.nodes

def mapNamed (ctx : Context φ) (mark : Mark) (name : String) (path : Path) : Walk String := do
  match ← leaf (listAt s ctx mark path) with
  | none | some [] => return ""
  | some elements =>
    within s mark (some name) (.tooDeep · name) do
      match ← leaf (findTemplate s ctx mark name) with
      | none => return ""
      | some t => items s mark path (fun scope => deeper (ctx.push scope) t.nodes) 0 elements

def mapInline (ctx : Context φ) (mark : Mark) (body : List Node) (path : Path) : Walk String := do
  match ← leaf (listAt s ctx mark path) with
  | none | some [] => return ""
  | some elements =>
    within s mark none (.tooDeepInPlace · path) do
      items s mark path (fun scope => deeper (ctx.push scope) body) 0 elements

mutual

def node (ctx : Context φ) : Node → Walk String
  | .text value => return value
  | .attr mark path => leaf (attrText s ctx mark path)
  | .include mark name => included s deeper ctx mark name
  | .apply mark func arg => leaf (applyText s ctx mark func arg)
  | .cond _ condition body elseBody => do
    if ← leaf (holds ctx condition) then nodes ctx body
    else orElse ctx elseBody
  | .mapNamed mark name path => mapNamed s deeper ctx mark name path
  | .mapInline mark body path => mapInline s deeper ctx mark body path
  | .join mark separator path => leaf (joinText s ctx mark separator path)
  | .txt _ key => return localizedText s key

def nodes (ctx : Context φ) : List Node → Walk String
  | [] => return ""
  | n :: ns => do
    let first ← node ctx n
    let others ← nodes ctx ns
    return first ++ others

def orElse (ctx : Context φ) : Option (List Node) → Walk String
  | none => return ""
  | some body => nodes ctx body

end

/-- A walk that may go so many levels deeper. -/
def levels (s : Setting) : Nat → Context φ → List Node → Walk String
  -- Whoever is at the last level is turned away before going deeper.
  | 0 => nodes s fun _ _ => return ""
  | left + 1 => nodes s (levels s left)

end Walk

/-- The walk through a sequence of nodes, from wherever the books say that it stands. -/
def walk [Callable φ] (s : Setting) (ctx : Context φ) (nodes : List Node) : Walk String := do
  let b ← get
  Walk.levels s (maxLevels - b.depth) ctx nodes

/-- Wherever it stands, if so many levels are left, the walk does what the run does: it ends with the same answer, and
the reports are all that is new in the books. -/
def Walk.Follows (left : Nat) (w : Walk α) (run : Standing → Outcome α) : Prop :=
  ∀ b : Ledger, maxLevels - b.depth = left → w b = ((run b.standing).answer, b.note (run b.standing).events)

/-- What the walk goes on with one level deeper does what the run goes on with, as long as there is such a level. -/
inductive Walk.Deepens (deeper : Context φ → List Node → Walk String) : Nat → Option (Below φ) → Prop
  | last : Deepens deeper 0 none
  | left {left : Nat} {below : Below φ} (follows : ∀ ctx nodes, (deeper ctx nodes).Follows left (below · ctx nodes)) :
      Deepens deeper (left + 1) (some below)

namespace Walk

theorem bind_apply (w : Walk α) (f : α → Walk β) (b : Ledger) :
    (w >>= f) b = match w b with
      | (.ok a, b') => f a b'
      | (.error e, b') => (.error e, b') := by
  change (match w b with | (r, b') => ExceptT.bindCont f r b') = _
  rcases w b with ⟨_ | _, _⟩ <;> rfl

section Levels

variable {s : Setting} {mark : Mark} {name : Option String} {tooDeep : List String → Diagnostic.Cause} {b : Ledger}

theorem enter_of_full (full : maxLevels ≤ b.depth) :
    enter s mark name tooDeep b = (.ok false, b.note (s.reports ⟨tooDeep b.chain, mark⟩)) := by
  unfold enter
  rw [bind_apply]
  change (if maxLevels ≤ b.depth then _ else _ : Walk Bool) b = _
  rw [if_pos full, bind_apply, leaf, report_eq]
  rfl

theorem enter_of_left (left : b.depth < maxLevels) : enter s mark name tooDeep b = (.ok true, b.enter name) := by
  unfold enter
  rw [bind_apply]
  change (if maxLevels ≤ b.depth then _ else _ : Walk Bool) b = _
  rw [if_neg (Nat.not_le_of_lt left)]
  rfl

end Levels

/-- A level is left after an answer and after a failure alike. -/
theorem finally_leave (w : Walk α) (name : Option String) (b : Ledger) :
    (try w finally leave name : Walk α) b = ((w b).1, (w b).2.leave name) := by
  have either (r : Except Failure α × Ledger) :
      (try (fun _ => r : Walk α) finally leave name : Walk α) b = (r.1, r.2.leave name) := by
    rcases r with ⟨_ | _, _⟩ <;> rfl
  exact either (w b)

namespace Follows

variable {left : Nat}

theorem same (x : Outcome α) : (Walk.leaf x).Follows left fun _ => x := fun _ _ => rfl

theorem pure (a : α) : (Pure.pure a : Walk α).Follows left fun _ => Pure.pure a := by
  intro b _
  rw [Traced.events_pure, Ledger.note_nil]
  rfl

theorem bind {w : Walk α} {f : α → Walk β} {run : Standing → Outcome α} {next : Standing → α → Outcome β}
    (first : w.Follows left run) (second : ∀ a, (f a).Follows left (next · a)) :
    (w >>= f).Follows left fun st => run st >>= next st := by
  intro b depth
  rw [bind_apply, first b depth]
  dsimp only
  cases answer : (run b.standing).answer with
  | error e => rw [Traced.bind_of_error answer]
  | ok a =>
    rw [Traced.bind_of_ok answer, ← Ledger.note_note]
    -- The books show the same depth and the same templates as before the first part.
    exact second a _ depth

/-- What is no report is not in the books. -/
theorem tell {w : Walk α} {event : Standing → Event} {run : Standing → Outcome α}
    (silent : ∀ st, (event st).diagnostic? = none) (follows : w.Follows left run) :
    w.Follows left fun st => Traced.tell (event st) >>= fun _ => run st := by
  intro b depth
  dsimp only
  rw [Traced.bind_of_ok rfl, follows b depth]
  exact congrArg _ (Ledger.note_cons (silent b.standing) b _).symm

variable {s : Setting}

theorem items {mark : Mark} {path : Path} {each : Entries φ → Walk String}
    {run : Standing → Entries φ → Outcome String}
    (follows : ∀ entries, (each entries).Follows left (run · entries)) (index : Nat) (elements : List (Value φ)) :
    (Walk.items s mark path each index elements).Follows left fun st =>
      itemsText s mark path (run st) index elements := by
  induction elements generalizing index with
  | nil => exact pure ""
  | cons v rest ih =>
    refine bind ?_ fun first => bind (ih (index + 1)) fun others => pure _
    cases v with
    | mapping entries => exact follows entries
    | _ => exact same _

variable {deeper : Context φ → List Node → Walk String} {below : Option (Below φ)}
  (deepens : Deepens deeper left below)

include deepens

/-- The step into a template and out of it: it is gone into if there is a level left, and then the walk comes back to
where it was. -/
theorem within (mark : Mark) (name : Option String) (tooDeep : List String → Diagnostic.Cause) {w : Walk String}
    {inside : (Context φ → List Node → Outcome String) → Outcome String}
    (follows : ∀ k (run : Below φ), (∀ ctx nodes, (deeper ctx nodes).Follows k (run · ctx nodes)) →
      w.Follows k fun st => inside (run st)) :
    (Walk.within s mark name tooDeep w).Follows left fun st =>
      Stencil.enter s below st mark name (tooDeep st.chain) inside := by
  intro b depth
  cases deepens with
  | last =>
    rw [Walk.within, bind_apply, enter_of_full (by omega)]
    dsimp only [Stencil.enter]
    rw [reportInstead_eq]
    rfl
  | @left left run same =>
    have deeper := follows left run same (b.enter name) (by simp only [Ledger.enter]; omega)
    rw [Walk.within, bind_apply, enter_of_left (by omega)]
    dsimp only
    rw [if_pos rfl, finally_leave, deeper, Ledger.leave_note_enter]
    rfl

theorem included (ctx : Context φ) (mark : Mark) (name : String) :
    (Walk.included s deeper ctx mark name).Follows left (includeText s below · ctx mark name) := by
  refine within deepens mark (some name) (.tooDeep · name) fun k run follows => ?_
  refine bind (same _) fun found => ?_
  cases found with
  | none => exact pure ""
  | some t => exact follows ctx t.nodes

variable [Callable φ]

theorem mapNamed (ctx : Context φ) (mark : Mark) (name : String) (path : Path) :
    (Walk.mapNamed s deeper ctx mark name path).Follows left (mapNamedText s below · ctx mark name path) := by
  refine bind (same _) fun elements => ?_
  rcases elements with _ | _ | ⟨v, rest⟩
  · exact pure ""
  · exact pure ""
  · refine within deepens mark (some name) (.tooDeep · name) fun k run follows => ?_
    refine bind (same _) fun found => ?_
    cases found with
    | none => exact pure ""
    | some t => exact items (fun scope => follows (ctx.push scope) t.nodes) 0 _

theorem mapInline (ctx : Context φ) (mark : Mark) (body : List Node) (path : Path) :
    (Walk.mapInline s deeper ctx mark body path).Follows left (mapInlineText s below · ctx mark body path) := by
  refine bind (same _) fun elements => ?_
  rcases elements with _ | _ | ⟨v, rest⟩
  · exact pure ""
  · exact pure ""
  · refine within deepens mark none (.tooDeepInPlace · path) fun k run follows => ?_
    exact items (fun scope => follows (ctx.push scope) body) 0 _

end Follows

section Nodes

variable [Callable φ] {s : Setting} {left : Nat} {deeper : Context φ → List Node → Walk String}
  {below : Option (Below φ)} (ctx : Context φ)

mutual

theorem Deepens.node (deepens : Deepens deeper left below) (n : Node) :
    (Walk.node s deeper ctx n).Follows left (nodeText s below · ctx n) := by
  cases n with
  | text value => exact .pure value
  | attr | apply | join => exact .same _
  | «include» mark name => exact .included deepens ctx mark name
  | cond mark condition body elseBody =>
    refine .bind (.same _) fun truthy => ?_
    cases truthy with
    | true => exact Deepens.nodes deepens body
    | false => exact Deepens.orElse deepens elseBody
  | mapNamed mark name path => exact .mapNamed deepens ctx mark name path
  | mapInline mark body path => exact .mapInline deepens ctx mark body path
  | txt mark key => exact .pure _

theorem Deepens.nodes (deepens : Deepens deeper left below) (ns : List Node) :
    (Walk.nodes s deeper ctx ns).Follows left (nodesText s below · ctx ns) := by
  cases ns with
  | nil => exact .pure ""
  | cons n ns =>
    refine .tell (fun _ => rfl) (.bind (Deepens.node deepens n) fun first => ?_)
    exact .tell (fun _ => rfl) (.bind (Deepens.nodes deepens ns) fun others => .pure _)

theorem Deepens.orElse (deepens : Deepens deeper left below) (elseBody : Option (List Node)) :
    (Walk.orElse s deeper ctx elseBody).Follows left (elseText s below · ctx elseBody) := by
  cases elseBody with
  | none => exact .pure ""
  | some body => exact Deepens.nodes deepens body

end

theorem levels_follows (ns : List Node) : (levels s left ctx ns).Follows left (renderAt s left · ctx ns) := by
  induction left generalizing ctx ns with
  | zero => exact Deepens.nodes ctx .last ns
  | succ left ih => exact Deepens.nodes ctx (.left ih) ns

end Nodes
end Walk

variable [Callable φ] (s : Setting) (ctx : Context φ) (b : Ledger)

/-- The walk is the run with as many levels as are left. -/
theorem walk_eq_renderAt (nodes : List Node) :
    walk s ctx nodes b = ((renderAt s (maxLevels - b.depth) b.standing ctx nodes).answer,
      b.note (renderAt s (maxLevels - b.depth) b.standing ctx nodes).events) :=
  Walk.levels_follows ctx nodes b rfl

variable {s ctx b}

theorem renderAt_append_ok {levels : Nat} {st : Standing} {xs ys : List Node} {text : String}
    (answer : (renderAt s levels st ctx (xs ++ ys)).answer = .ok text) :
    ∃ first second, text = first ++ second ∧ (renderAt s levels st ctx xs).answer = .ok first ∧
      (renderAt s levels st ctx ys).answer = .ok second ∧ (renderAt s levels st ctx (xs ++ ys)).events =
        (renderAt s levels st ctx xs).events ++ (renderAt s levels st ctx ys).events := by
  rw [renderAt_append] at answer ⊢
  rw [Traced.answer_bind] at answer
  obtain ⟨first, atFirst, answer⟩ := exists_of_bind_ok answer
  rw [Traced.answer_bind] at answer
  obtain ⟨second, atSecond, answer⟩ := exists_of_bind_ok answer
  cases answer
  refine ⟨first, second, rfl, atFirst, atSecond, ?_⟩
  rw [Traced.bind_of_ok atFirst, Traced.bind_of_ok atSecond, Traced.events_pure, List.append_nil]

/-- If the walk through two sequences of nodes comes to an end, so it does through each of them. The texts and the
reports are put together, and neither depends on what was reported before. -/
theorem walk_append_ok {xs ys : List Node} {text : String} {after : Ledger}
    (ran : walk s ctx (xs ++ ys) b = (.ok text, after)) :
    ∃ first second ds es, text = first ++ second ∧ after = { b with reports := b.reports ++ (ds ++ es) } ∧
      ∀ earlier, walk s ctx xs { b with reports := earlier } = (.ok first, { b with reports := earlier ++ ds }) ∧
        walk s ctx ys { b with reports := earlier } = (.ok second, { b with reports := earlier ++ es }) := by
  rw [walk_eq_renderAt] at ran
  obtain ⟨answer, rfl⟩ := Prod.mk.inj ran
  obtain ⟨first, second, rfl, atFirst, atSecond, events⟩ := renderAt_append_ok answer
  let run := renderAt s (maxLevels - b.depth) b.standing ctx
  refine ⟨first, second, reportsOf (run xs).events, reportsOf (run ys).events, rfl, ?_, fun earlier => ⟨?_, ?_⟩⟩
  · rw [events, Ledger.note, reportsOf, List.filterMap_append]
    rfl
  · rw [walk_eq_renderAt, ← atFirst]
    rfl
  · rw [walk_eq_renderAt, ← atSecond]
    rfl

variable (s ctx b)

/-- A walk through two sequences of nodes that ends with a text is a walk through each of them: the texts and the
reports are put together, each part being what it is from the same depth, inside the same open templates and in the
same scopes, whatever was reported before. However a walk ends, the books show the depth and the open templates that
they showed before, and the earlier reports are still there, in front. And the walk is no other than the run: it ends
as the run does, and what it adds to the books is what the run reports. -/
theorem walk_append :
    (∀ xs ys text after, walk s ctx (xs ++ ys) b = (.ok text, after) →
      ∃ first second ds es, text = first ++ second ∧ after = { b with reports := b.reports ++ (ds ++ es) } ∧
        ∀ earlier, walk s ctx xs { b with reports := earlier } = (.ok first, { b with reports := earlier ++ ds }) ∧
          walk s ctx ys { b with reports := earlier } = (.ok second, { b with reports := earlier ++ es })) ∧
    ∀ nodes, (walk s ctx nodes b).2.depth = b.depth ∧ (walk s ctx nodes b).2.chain = b.chain ∧
      b.reports <+: (walk s ctx nodes b).2.reports ∧
      walk s ctx nodes b = ((renderAt s (maxLevels - b.depth) b.standing ctx nodes).answer,
        b.note (renderAt s (maxLevels - b.depth) b.standing ctx nodes).events) := by
  refine ⟨fun xs ys text after ran => walk_append_ok ran, fun nodes => ?_⟩
  rw [walk_eq_renderAt]
  exact ⟨rfl, rfl, List.prefix_append _ _, rfl⟩

/-- Reports before the walk, in front of an included template and inside it. -/
theorem walk_append_of_included :
    let s : Setting := ⟨some fun name => .ok ⟨[.attr ⟨1, 1⟩ ["n"], .attr ⟨1, 4⟩ ["x"]], name⟩, none, "en", {}⟩
    let ctx : Context Builtin := ⟨[], [(.str "x", .str "y")]⟩
    let missing (column : Nat) : Diagnostic := ⟨.unresolved ⟨["n"], "n", .undefined⟩, ⟨1, column⟩⟩
    let b : Ledger := ⟨3, ["a"], [missing 9]⟩
    let xs : List Node := [.text "x", .attr ⟨1, 2⟩ ["n"]]
    let ys : List Node := [.include ⟨1, 5⟩ "b"]
    walk s ctx (xs ++ ys) b = (.ok "xy", { b with reports := [missing 9, missing 2, missing 1] }) ∧
      ∃ first second ds es, "xy" = first ++ second ∧
        { b with reports := [missing 9, missing 2, missing 1] } = { b with reports := b.reports ++ (ds ++ es) } ∧
          ∀ earlier, walk s ctx xs { b with reports := earlier } = (.ok first, { b with reports := earlier ++ ds }) ∧
            walk s ctx ys { b with reports := earlier } = (.ok second, { b with reports := earlier ++ es }) := by
  intro s ctx missing b xs ys
  have ran : walk s ctx (xs ++ ys) b = (.ok "xy", { b with reports := [missing 9, missing 2, missing 1] }) := rfl
  exact ⟨ran, (walk_append s ctx b).1 xs ys _ _ ran⟩

/-- A function throws inside a template that is included behind a report. -/
example :
    let s : Setting := ⟨some fun name => .ok ⟨[.attr ⟨1, 1⟩ ["none"], .attr ⟨1, 7⟩ ["f"]], name⟩, none, "en", {}⟩
    let ctx : Context Builtin := ⟨[], [(.str "f", .func (.raise "no"))]⟩
    let b : Ledger := ⟨3, ["a"], []⟩
    walk s ctx [.include ⟨1, 1⟩ "b"] b =
      (.error (.raised (.thrown "no")), { b with reports := [⟨.unresolved ⟨["none"], "none", .undefined⟩, ⟨1, 1⟩⟩] }) :=
  rfl

end Stencil
