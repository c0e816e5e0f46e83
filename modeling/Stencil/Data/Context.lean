import Stencil.Data.Value

namespace Stencil

variable {φ : Type}

/-- A chain of scopes, of which there is at least one. -/
structure Context (φ : Type) where
  /-- The scopes inside the outermost one, innermost first. -/
  inner : List (Entries φ)
  root : Entries φ

/-- Why data is no chain of scopes. -/
inductive ContextError where
  | noScope
  | notMapping (typeName : String)
deriving DecidableEq, Repr

def ContextError.message : ContextError → String
  | noScope => "DataContext requires at least one scope"
  | notMapping typeName => "Data scope must be a mapping, got " ++ typeName

namespace Context

def scopes (c : Context φ) : List (Entries φ) := c.inner ++ [c.root]

def depth (c : Context φ) : Nat := c.inner.length + 1

def push (c : Context φ) (scope : Entries φ) : Context φ := { c with inner := scope :: c.inner }

/-- The value that the innermost scope with that name gives to it. -/
def lookup (c : Context φ) (name : String) : Option (Value φ) :=
  c.scopes.findSome? (·.get? name)

/-- A scope has to be a mapping. -/
def scopeOf : Value φ → Except ContextError (Entries φ)
  | .mapping entries => .ok entries
  | v => .error (.notMapping v.typeName)

/-- The chain with the given scopes, innermost first. -/
def ofScopes (scopes : List (Value φ)) : Except ContextError (Context φ) := do
  let all ← scopes.mapM scopeOf
  match all.getLast? with
  | none => .error .noScope
  | some root => .ok ⟨all.dropLast, root⟩

/-- The chain whose only scope is the given data; without data the scope is empty. -/
def of : Value φ → Except ContextError (Context φ)
  | .null => .ok ⟨[], []⟩
  | v => return ⟨[], ← scopeOf v⟩

end Context
end Stencil
