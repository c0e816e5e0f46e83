import Stencil.Text.Mark

namespace Stencil

/-- An attribute path: the segments of `foo.bar.baz`, outermost first. -/
abbrev Path := List String

def Path.dotted (p : Path) : String :=
  ".".intercalate p

/-- A piece of a compiled template. -/
inductive Node where
  /-- Literal text, written out as it is. -/
  | text (value : String)
  /-- The value found under a path. -/
  | attr (mark : Mark) (path : Path)
  /-- Another template, by name. -/
  | include (mark : Mark) (name : String)
  /-- A function under one path applied to the value under another. -/
  | apply (mark : Mark) (func arg : Path)
  /-- A choice between two bodies; without an `else` there is no second one. -/
  | cond (mark : Mark) (condition : Path) (body : List Node) (elseBody : Option (List Node))
  /-- A named template for each element of a list. -/
  | mapNamed (mark : Mark) (name : String) (items : Path)
  /-- A template written in place for each element of a list. -/
  | mapInline (mark : Mark) (body : List Node) (items : Path)
  /-- The elements of a list with a separator between them. -/
  | join (mark : Mark) (separator : String) (items : Path)
  /-- A text to be translated. -/
  | txt (mark : Mark) (key : String)
deriving Repr

/-- A compiled template. The name is only for messages and for the chain of open templates. -/
structure Template where
  nodes : List Node
  name : String := ""
deriving Repr

end Stencil
