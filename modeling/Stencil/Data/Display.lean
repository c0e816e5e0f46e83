import Stencil.Data.Value
import Stencil.Decimal.Notation
import Stencil.Template.Display

namespace Stencil

variable {φ : Type} [Handle φ]

mutual

/-- The form of a value inside a list or a mapping. -/
def Value.inner : Value φ → String
  | .null => "None"
  | .bool true => "True"
  | .bool false => "False"
  | .int n => toString n
  | .float x => floatText x
  | .str s => quoted s
  | .moment m => m.inner
  | .list items => "[" ++ ", ".intercalate (Value.innerAll items) ++ "]"
  | .tuple items => tupleText (Value.innerAll items)
  | .mapping entries => "\x7b" ++ ", ".intercalate (Value.innerEntries entries) ++ "\x7d"
  | .template t => t.display
  | .func f => "<fn " ++ Handle.name f ++ ">"

def Value.innerAll : List (Value φ) → List String
  | [] => []
  | v :: vs => v.inner :: Value.innerAll vs

def Value.innerEntries : List (Value φ × Value φ) → List String
  | [] => []
  | e :: es => Value.innerEntry e :: Value.innerEntries es

def Value.innerEntry : Value φ × Value φ → String
  | (k, v) => k.inner ++ ": " ++ v.inner

end

namespace Value

/-- The form of a value on its own, where nothing is shown as `None`. -/
def shown : Value φ → String
  | .str s => s
  | .moment m => m.text
  | v => v.inner

/-- The form in which a directive writes a value out. -/
def text : Value φ → String
  | .null => ""
  | v => v.shown

end Value

mutual

/-- Whether the text of a value can be made: no whole number in it has too many digits. -/
def Value.isWritable : Value φ → Bool
  | .int n => n.natAbs < tenTo maxDigits
  | .list items | .tuple items => Value.areWritable items
  | .mapping entries => Entries.areWritable entries
  | .null | .bool _ | .float _ | .str _ | .moment _ | .template _ | .func _ => true

def Value.areWritable : List (Value φ) → Bool
  | [] => true
  | v :: vs => v.isWritable && Value.areWritable vs

def Entries.areWritable : List (Value φ × Value φ) → Bool
  | [] => true
  | e :: es => Entry.isWritable e && Entries.areWritable es

def Entry.isWritable : Value φ × Value φ → Bool
  | (k, v) => k.isWritable && v.isWritable

end

namespace Value

/-- A text made of a value that it can be made of. -/
def guarded {α : Type} (v : Value φ) (made : α) : Except Raised α :=
  if v.isWritable then .ok made else .error .tooManyDigits

def written (v : Value φ) : Except Raised String := v.guarded v.text

/-- Whether a value counts as absent. Of a scalar the text is made to see. -/
def isAbsent (v : Value φ) : Except Raised Bool :=
  if v.kind = .scalar then v.guarded v.isEmpty else .ok v.isEmpty

end Value
end Stencil
