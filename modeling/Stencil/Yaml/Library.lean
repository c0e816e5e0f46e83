import Stencil.Data.Value

namespace Stencil

/-- Data from a file holds no functions. -/
instance : Handle Empty := ⟨Empty.elim⟩

instance : Callable Empty := ⟨fun f _ => f.elim⟩

/-- Data without functions. -/
abbrev PlainData := Value Empty

namespace Yaml

/-- Why a reader gives no data. -/
inductive Refusal where
  /-- The text is no document. -/
  | malformed (words : String)
  /-- A scalar has the form of a value, but there is no such value. -/
  | noValue (words : String)
  /-- The reader comes to a halt for a reason that no one who reads a document expects. -/
  | halted (kind words : String)
  /-- What the document stands for is no value here: half of a character, bytes, or a list inside itself. -/
  | beyond
deriving DecidableEq, Repr

/-- An entry of a mapping whose text is still to be filled in, with a comment behind it. -/
structure OpenEntry where
  key : String
  comment : String
deriving DecidableEq, Repr

/-- Whatever is used to read YAML and to write it. The reader gives the value of the one document in
a text, and nothing for a text that holds none; the writer gives a text for a mapping. -/
structure Library where
  read : String → Except Refusal PlainData
  write : List OpenEntry → String

end Yaml
end Stencil
