import Stencil.Data.Display
import Stencil.Render.Diagnostic

namespace Stencil

/-- A supply of localized texts: for a key, a locale and a domain. -/
abbrev Translator := String → String → String → Option String

/-- What one run may be told. -/
structure Options where
  quiet : Bool := false
  locale : Option String := none
  domain : String := "messages"
deriving DecidableEq, Repr

/-- What stays the same during a run. -/
structure Setting where
  loader : Option Loader
  translator : Option Translator
  defaultLocale : String
  options : Options

/-- The locale of a run: an empty one counts as none. -/
def Setting.locale (s : Setting) : String :=
  match s.options.locale with
  | none | some "" => s.defaultLocale
  | some locale => locale

variable {φ : Type}

/-- Reports, unless the run is to be quiet. -/
def report (s : Setting) (mark : Mark) (cause : Diagnostic.Cause) : Outcome Unit :=
  if s.options.quiet then pure () else .tell (.reported ⟨cause, mark⟩)

/-- Gives the empty text and a report in its place. -/
def reportInstead (s : Setting) (mark : Mark) (cause : Diagnostic.Cause) : Outcome String := do
  report s mark cause
  return ""

/-- Looks for a template among the data. If the loader has missed it already, its words are used. -/
def boundTemplate (s : Setting) (ctx : Context φ) (mark : Mark) (name : String)
    (missed : Option String) : Outcome (Option Template) :=
  match ctx.lookup name with
  | some (.template t) => do
    Traced.tell (.bound t)
    return some t
  | some (.str source) =>
    match compile source name with
    | .ok t => do
      Traced.tell (.compiled t)
      return some t
    | .error e => do
      report s mark (.refused name e)
      return none
  | other => do
    let words := match missed, other with
      | some words, _ => words
      | none, none => "Template not found: " ++ name
      | none, some _ => "Attribute '" ++ name ++ "' is not a template"
    report s mark (.noTemplate name words)
    return none

/-- Looks for a template: the loader is asked first, and what it misses may be among the data. -/
def findTemplate (s : Setting) (ctx : Context φ) (mark : Mark) (name : String) :
    Outcome (Option Template) :=
  match s.loader with
  | none => boundTemplate s ctx mark name none
  | some loader => do
    Traced.tell (.asked name)
    match loader name with
    | .ok t => do
      Traced.tell (.loaded t)
      return some t
    | .error (.missing message) => boundTemplate s ctx mark name (some message)
    | .error (.invalid e) => do
      report s mark (.refused name e)
      return none
    | .error (.unreadable e) => .ofExcept (.error (.unreadable e))
    | .error (.file e) => .ofExcept (.error (.file e))

section Nodes

variable [Callable φ]

/-- The value under a path, after a call if it is a function, or why there is none. -/
def valueAt (ctx : Context φ) (path : Path) : Outcome (Except Unresolved (Value φ)) :=
  match ctx.find path with
  | .error e => return .error e
  | .ok v => return .ok (← Outcome.ofCall (ctx.settle v))

def attrText (s : Setting) (ctx : Context φ) (mark : Mark) (path : Path) : Outcome String := do
  match ← valueAt ctx path with
  | .error e => reportInstead s mark (.unresolved e)
  | .ok v => Outcome.ofCall v.written

/-- The text of a function's answer. The argument is not looked for when the function is none. -/
def applyText (s : Setting) (ctx : Context φ) (mark : Mark) (func arg : Path) :
    Outcome String :=
  match ctx.find func with
  | .error e => reportInstead s mark (.unresolved e)
  | .ok (.func f) => do
    match ← valueAt ctx arg with
    | .error e => reportInstead s mark (.unresolved e)
    | .ok v => Outcome.ofCall (← Outcome.ofCall (Callable.call f v)).written
  | .ok v => Outcome.ofCall v.written

/-- Whether a condition holds. A path that leads nowhere does not, and is not reported. -/
def holds (ctx : Context φ) (condition : Path) : Outcome Bool := do
  match ← valueAt ctx condition with
  | .error _ => return false
  | .ok v => return !(← Outcome.ofCall v.isAbsent)

/-- The elements of the list under a path; without a list there is a report. -/
def listAt (s : Setting) (ctx : Context φ) (mark : Mark) (items : Path) :
    Outcome (Option (List (Value φ))) := do
  match ← valueAt ctx items with
  | .error e => do
    report s mark (.unresolved e)
    return none
  | .ok (.list elements) | .ok (.tuple elements) => do
    Traced.tell (.listed elements.length)
    return some elements
  | .ok v => do
    report s mark (.notList items v.kind)
    return none

/-- The texts of the scalars among some values, put together. -/
def scalarsText (vs : List (Value φ)) : Except Raised String := do
  return String.join (← (vs.filter (·.kind = .scalar)).mapM Value.written)

/-- The text of an element of a joined list. Of a list or a mapping the scalars are taken; a
function is called with the outermost scope. -/
def elementText (ctx : Context φ) : Value φ → Outcome String
  | .func f => do Outcome.ofCall (← Outcome.ofCall (Callable.call f (.mapping ctx.root))).written
  | .mapping entries => Outcome.ofCall (scalarsText (entries.map (·.2)))
  | .list elements | .tuple elements => Outcome.ofCall (scalarsText elements)
  | v => Outcome.ofCall v.written

/-- The texts of the elements of a list, with a separator between them. -/
def joinText (s : Setting) (ctx : Context φ) (mark : Mark) (separator : String) (items : Path) :
    Outcome String := do
  match ← listAt s ctx mark items with
  | none => return ""
  | some elements => return separator.intercalate (← elements.mapM (elementText ctx))

/-- The localized text for a key, or the key itself. -/
def localizedText (s : Setting) (key : String) : String :=
  match s.translator with
  | none => key
  | some translate => (translate key s.locale s.options.domain).getD key

/-- A template for one element, which is the innermost scope then; only a mapping can be one. -/
def itemText (s : Setting) (mark : Mark) (items : Path) (each : Entries φ → Outcome String)
    (index : Nat) : Value φ → Outcome String
  | .mapping entries => each entries
  | _ => reportInstead s mark (.notMapping items index)

/-- A template for each element, counted from `index`. -/
def itemsText (s : Setting) (mark : Mark) (items : Path) (each : Entries φ → Outcome String) :
    Nat → List (Value φ) → Outcome String
  | _, [] => return ""
  | index, v :: rest => do
    let first ← itemText s mark items each index v
    let others ← itemsText s mark items each (index + 1) rest
    return first ++ others

/-- The way to render nodes one level deeper, from where the run stands then and in the given scopes. -/
abbrev Below (φ : Type) := Standing → Context φ → List Node → Outcome String

/-- Goes one level deeper, into the template of a name or into one that is written in place. When no
level is left there is a report instead. -/
def enter (s : Setting) (below : Option (Below φ)) (st : Standing) (mark : Mark)
    (name : Option String) (tooDeep : Diagnostic.Cause)
    (inside : (Context φ → List Node → Outcome String) → Outcome String) : Outcome String :=
  match below with
  | some deeper => inside (deeper (st.enter name))
  | none => reportInstead s mark tooDeep

def includeText (s : Setting) (below : Option (Below φ)) (st : Standing)
    (ctx : Context φ) (mark : Mark) (name : String) : Outcome String :=
  enter s below st mark (some name) (.tooDeep st.chain name) fun deeper => do
    match ← findTemplate s ctx mark name with
    | none => return ""
    | some t => deeper ctx t.nodes

/-- The text of a named template for each element of a list. An empty list enters nothing. -/
def mapNamedText (s : Setting) (below : Option (Below φ)) (st : Standing)
    (ctx : Context φ) (mark : Mark) (name : String) (items : Path) : Outcome String := do
  match ← listAt s ctx mark items with
  | none | some [] => return ""
  | some elements =>
    enter s below st mark (some name) (.tooDeep st.chain name) fun deeper => do
      match ← findTemplate s ctx mark name with
      | none => return ""
      | some t =>
        itemsText s mark items (fun scope => deeper (ctx.push scope) t.nodes) 0 elements

/-- The text of a template that is written in place for each element of a list. -/
def mapInlineText (s : Setting) (below : Option (Below φ)) (st : Standing)
    (ctx : Context φ) (mark : Mark) (body : List Node) (items : Path) : Outcome String := do
  match ← listAt s ctx mark items with
  | none | some [] => return ""
  | some elements =>
    enter s below st mark none (.tooDeepInPlace st.chain items) fun deeper =>
      itemsText s mark items (fun scope => deeper (ctx.push scope) body) 0 elements

mutual

/-- The text of a node. Only the bodies of a conditional are on the same level as the node. -/
def nodeText (s : Setting) (below : Option (Below φ)) (st : Standing)
    (ctx : Context φ) : Node → Outcome String
  | .text value => return value
  | .attr mark path => attrText s ctx mark path
  | .include mark name => includeText s below st ctx mark name
  | .apply mark func arg => applyText s ctx mark func arg
  | .cond _ condition body elseBody => do
    if ← holds ctx condition then nodesText s below st ctx body
    else elseText s below st ctx elseBody
  | .mapNamed mark name items => mapNamedText s below st ctx mark name items
  | .mapInline mark body items => mapInlineText s below st ctx mark body items
  | .join mark separator items => joinText s ctx mark separator items
  | .txt _ key => return localizedText s key

/-- The texts of a sequence of nodes, put together. -/
def nodesText (s : Setting) (below : Option (Below φ)) (st : Standing)
    (ctx : Context φ) : List Node → Outcome String
  | [] => return ""
  | n :: ns => do
    Traced.tell (.began st n)
    let first ← nodeText s below st ctx n
    Traced.tell (.wrote first)
    let others ← nodesText s below st ctx ns
    return first ++ others

/-- The text of a second body, empty where there is none. -/
def elseText (s : Setting) (below : Option (Below φ)) (st : Standing)
    (ctx : Context φ) : Option (List Node) → Outcome String
  | none => return ""
  | some body => nodesText s below st ctx body

end

/-- The text of a sequence of nodes with a number of levels below it. -/
def renderAt (s : Setting) : Nat → Below φ
  | 0 => nodesText s none
  | levels + 1 => nodesText s (some (renderAt s levels))

/-- The text of a template. A template with a name is the first of the open ones. -/
def render (s : Setting) (t : Template) (ctx : Context φ) : Outcome String :=
  renderAt s maxLevels ⟨0, if t.name = "" then [] else [t.name]⟩ ctx t.nodes

end Nodes
end Stencil
