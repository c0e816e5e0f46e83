import Stencil.Data.Moment
import Stencil.Template.Syntax

namespace Stencil

/-- A piece of data with functions of type `φ`. A tuple is a list that is shown differently. -/
inductive Value (φ : Type) where
  | null
  | bool (b : Bool)
  | int (n : Int)
  | float (x : Float)
  | str (s : String)
  | moment (m : Moment)
  | list (items : List (Value φ))
  | tuple (items : List (Value φ))
  | mapping (entries : List (Value φ × Value φ))
  | template (t : Template)
  | func (f : φ)

instance {φ : Type} : Inhabited (Value φ) := ⟨.null⟩

/-- The entries of a mapping, in order. No key stands twice. -/
abbrev Entries (φ : Type) := List (Value φ × Value φ)

/-- The most digits of a whole number that are read or written. -/
def maxDigits : Nat := 4300

/-- What is thrown instead of an answer. -/
inductive Raised where
  /-- A function threw. -/
  | thrown (message : String)
  /-- A text was to be made of a whole number with too many digits. -/
  | tooManyDigits
deriving DecidableEq, Repr

def Raised.message : Raised → String
  | thrown message => message
  | tooManyDigits =>
    "Exceeds the limit (" ++ toString maxDigits ++ " digits) for integer string conversion; use "
      ++ "sys.set_int_max_str_digits() to increase the limit"

/-- Handles that can be shown: each has a name. -/
class Handle (φ : Type) where
  name : φ → String

/-- Handles for functions of one argument: each can also be called. -/
class Callable (φ : Type) extends Handle φ where
  call : φ → Value φ → Except Raised (Value φ)

/-- The kinds of values that the rules tell apart. -/
inductive Value.Kind where
  | scalar
  | mapping
  | list
  | callable
deriving DecidableEq, Repr

def Value.Kind.name : Value.Kind → String
  | scalar => "scalar"
  | mapping => "mapping"
  | list => "list"
  | callable => "callable"

variable {φ : Type}

namespace Value

/-- The kind of a value. A template counts as a scalar. -/
def kind : Value φ → Kind
  | .mapping _ => .mapping
  | .list _ | .tuple _ => .list
  | .func _ => .callable
  | .null | .bool _ | .int _ | .float _ | .str _ | .moment _ | .template _ => .scalar

/-- Whether a value counts as absent in a condition: nothing, `false`, the empty text and the empty
list do; zero and the empty mapping do not. -/
def isEmpty : Value φ → Bool
  | .null | .bool false => true
  | .str s => s == ""
  | .list items | .tuple items => items.isEmpty
  | .bool true | .int _ | .float _ | .moment _ | .mapping _ | .template _ | .func _ => false

/-- The name of the type of a value, as messages give it. -/
def typeName : Value φ → String
  | .null => "NoneType"
  | .bool _ => "bool"
  | .int _ => "int"
  | .float _ => "float"
  | .str _ => "str"
  | .moment (.day _) => "date"
  | .moment (.time _ _ _) => "datetime"
  | .list _ => "list"
  | .tuple _ => "tuple"
  | .mapping _ => "dict"
  | .template _ => "CompiledTemplate"
  | .func _ => "Fn"

def isText (s : String) : Value φ → Bool
  | .str t => t == s
  | _ => false

end Value

/-- The value under the textual key `name`. Keys of other kinds are never found, however they are
written. -/
def Entries.get? (entries : Entries φ) (name : String) : Option (Value φ) :=
  (entries.find? fun e => e.1.isText name).map (·.2)

/-- Sets the value of a textual key: the first entry for it keeps its position, and a new one goes to
the end. -/
def Entries.put (name : String) (value : Value φ) : Entries φ → Entries φ
  | [] => [(.str name, value)]
  | (key, old) :: rest =>
    if key.isText name then (key, value) :: rest else (key, old) :: Entries.put name value rest

end Stencil
