import Stencil.Data.Context

namespace Stencil

variable {φ : Type}

/-- Why a path leads nowhere. -/
inductive Obstacle where
  /-- The segment is not bound. -/
  | undefined
  /-- The segment would have to be looked up in a value that is no mapping. -/
  | notIndexable (kind : Value.Kind)
deriving DecidableEq, Repr

/-- A path, and the segment at which it ends early. -/
structure Unresolved where
  path : Path
  segment : String
  obstacle : Obstacle
deriving DecidableEq, Repr

def Unresolved.message (e : Unresolved) : String :=
  match e.obstacle with
  | .undefined => "Undefined attribute '" ++ e.segment ++ "' in '" ++ e.path.dotted ++ "'"
  | .notIndexable kind =>
    "Cannot look up '" ++ e.segment ++ "' in a " ++ kind.name ++ " value in '" ++ e.path.dotted
      ++ "'"

/-- Follows the segments from a value on; `path` is the whole path, for the error. -/
def Value.follow (path : Path) (v : Value φ) : Path → Except Unresolved (Value φ)
  | [] => .ok v
  | segment :: rest =>
    match v with
    | .mapping entries =>
      match Entries.get? entries segment with
      | some next => next.follow path rest
      | none => .error ⟨path, segment, .undefined⟩
    | other => .error ⟨path, segment, .notIndexable other.kind⟩

/-- The value under a path, before any call. The empty path leads nowhere. -/
def Context.find (c : Context φ) (path : Path) : Except Unresolved (Value φ) :=
  match path with
  | [] => .error ⟨[], "", .undefined⟩
  | head :: rest =>
    match c.lookup head with
    | some v => v.follow path rest
    | none => .error ⟨path, head, .undefined⟩

/-- What a found value stands for: a function is called once, and what it answers is final. -/
def Context.settle [Callable φ] (c : Context φ) : Value φ → Except Raised (Value φ)
  | .func f => Callable.call f (.mapping c.root)
  | v => .ok v

end Stencil
