import Stencil.Data.Resolve
import Stencil.Loader
import Stencil.Traced

namespace Stencil

inductive Diagnostic.Kind where
  /-- A path led nowhere. -/
  | attribute
  /-- A template was missing, refused, or nested too deeply. -/
  | include
  /-- Something was no list, or an element no mapping. -/
  | listType
deriving DecidableEq, Repr

def Diagnostic.Kind.name : Diagnostic.Kind → String
  | .attribute => "attribute"
  | .include => "include"
  | .listType => "list_type"

def maxLevels : Nat := 100

/-- The names that a report of too deep nesting shows: the open templates, outermost first, from the
last earlier one with the innermost name on. -/
def nestingNames (names : List String) : List String :=
  match names.reverse with
  | [] => []
  | last :: before =>
    match before.dropWhile (· != last) with
    | [] => names
    | same :: _ => same :: ((last :: before.takeWhile (· != last)).reverse)

/-- The text of those names; a template written in place has none. -/
def nestingText (chain : List String) (name : Option String) : String :=
  match nestingNames (chain ++ name.toList) with
  | [] => "<inline map>"
  | names => " → ".intercalate names

/-- What went wrong at a directive. -/
inductive Diagnostic.Cause where
  | unresolved (e : Unresolved)
  | notList (items : Path) (kind : Value.Kind)
  | notMapping (items : Path) (index : Nat)
  /-- There is no template of that name; the words are those of whoever looked for it. -/
  | noTemplate (name words : String)
  | refused (name : String) (e : SyntaxError)
  /-- The named template is not entered, inside the open ones. -/
  | tooDeep (chain : List String) (name : String)
  /-- The template written in place is not entered, inside the open ones. -/
  | tooDeepInPlace (chain : List String) (items : Path)
deriving DecidableEq, Repr

namespace Diagnostic.Cause

def kind : Cause → Kind
  | unresolved _ => .attribute
  | notList _ _ | notMapping _ _ => .listType
  | noTemplate _ _ | refused _ _ | tooDeep _ _ | tooDeepInPlace _ _ => .include

/-- The path or the name of the template that the cause is about. -/
def target : Cause → String
  | unresolved e => e.path.dotted
  | notList items _ | notMapping items _ | tooDeepInPlace _ items => items.dotted
  | noTemplate name _ | refused name _ | tooDeep _ name => name

def message : Cause → String
  | unresolved e => e.message
  | notList items kind => "'" ++ items.dotted ++ "' is not a list (got " ++ kind.name ++ ")"
  | notMapping items index =>
    "Element " ++ toString index ++ " of '" ++ items.dotted ++ "' is not a mapping"
  | noTemplate _ words => words
  | refused name e => "Failed to compile template '" ++ name ++ "': " ++ e.message
  | tooDeep chain name => deep (nestingText chain (some name))
  | tooDeepInPlace chain _ => deep (nestingText chain none)
where
  deep (names : String) : String :=
    "Template nesting exceeds " ++ toString maxLevels ++ " levels: " ++ names

end Diagnostic.Cause

/-- A report: what went wrong, and the place of the directive. -/
structure Diagnostic where
  cause : Diagnostic.Cause
  mark : Mark
deriving DecidableEq, Repr

namespace Diagnostic

def kind (d : Diagnostic) : Kind := d.cause.kind

def message (d : Diagnostic) : String := d.cause.message

def target (d : Diagnostic) : String := d.cause.target

end Diagnostic

def Diagnostic.text (d : Diagnostic) : String :=
  d.mark.text ++ ": " ++ d.message

/-- Where a run stands: how many levels it is below the template it began with, and the names of the
templates that are open there, outermost first. -/
structure Standing where
  depth : Nat
  chain : List String
deriving DecidableEq, Repr

/-- One level deeper, inside one more open template. One that is written in place has no name. -/
def Standing.enter (st : Standing) (name : Option String) : Standing :=
  ⟨st.depth + 1, st.chain ++ name.toList⟩

/-- What happens during a run. -/
inductive Event where
  /-- The evaluation of a node began. -/
  | began (st : Standing) (n : Node)
  /-- The node whose evaluation began last and has not ended yet gave a text. -/
  | wrote (text : String)
  /-- A list of so many elements was found under the path of a node. -/
  | listed (count : Nat)
  /-- The loader was asked for a template. -/
  | asked (name : String)
  /-- The loader gave a template. -/
  | loaded (t : Template)
  /-- A template was found among the data. -/
  | bound (t : Template)
  /-- A template was compiled from a source among the data. -/
  | compiled (t : Template)
  | reported (d : Diagnostic)
deriving Repr

def Event.diagnostic? : Event → Option Diagnostic
  | .reported d => some d
  | _ => none

def Event.template? : Event → Option Template
  | .loaded t | .bound t | .compiled t => some t
  | _ => none

/-- What ends a run before its time. -/
inductive Failure where
  /-- A function in the data threw, or a value could not be written out. -/
  | raised (r : Raised)
  /-- The file of a template is no text. -/
  | unreadable (e : DecodeError)
  /-- The machine could not look for the file of a template. -/
  | file (e : FileError)
deriving DecidableEq, Repr

/-- What comes of a part of a run. -/
abbrev Outcome := Traced Event Failure

def Outcome.ofCall {α : Type} (r : Except Raised α) : Outcome α := .ofExcept (r.mapError .raised)

def reportsOf (events : List Event) : List Diagnostic :=
  events.filterMap Event.diagnostic?

end Stencil
