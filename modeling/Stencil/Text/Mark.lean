namespace Stencil

/-- A line and a column. -/
structure Mark where
  line : Nat
  column : Nat
deriving DecidableEq, Repr

namespace Mark

def origin : Mark := ⟨1, 1⟩

def next (m : Mark) (c : Char) : Mark :=
  if c = '\n' then ⟨m.line + 1, 1⟩ else ⟨m.line, m.column + 1⟩

def past (m : Mark) (cs : List Char) : Mark :=
  cs.foldl next m

@[simp] theorem past_nil (m : Mark) : m.past [] = m := rfl

@[simp] theorem past_cons (m : Mark) (c : Char) (cs : List Char) :
    m.past (c :: cs) = (m.next c).past cs := rfl

theorem past_append (m : Mark) (cs ds : List Char) : m.past (cs ++ ds) = (m.past cs).past ds :=
  List.foldl_append

def text (m : Mark) : String :=
  toString m.line ++ ":" ++ toString m.column

end Mark
end Stencil
