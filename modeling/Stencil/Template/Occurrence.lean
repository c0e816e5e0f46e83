import Stencil.Template.Compile

namespace Stencil

/-- A text to be translated and the line it stands on. -/
structure Occurrence where
  key : String
  line : Nat
deriving DecidableEq, Repr

mutual

/-- The occurrences in one node and in all bodies inside it. -/
def Node.occurrences : Node → List Occurrence
  | .txt mark key => [⟨key, mark.line⟩]
  | .cond _ _ body elseBody => Node.occurrencesIn body ++ Node.occurrencesElse elseBody
  | .mapInline _ body _ => Node.occurrencesIn body
  | .text _ | .attr _ _ | .include _ _ | .apply _ _ _ | .mapNamed _ _ _ | .join _ _ _ => []

def Node.occurrencesIn : List Node → List Occurrence
  | [] => []
  | n :: ns => n.occurrences ++ Node.occurrencesIn ns

/-- The occurrences in a second body, where there is one. -/
def Node.occurrencesElse : Option (List Node) → List Occurrence
  | none => []
  | some body => Node.occurrencesIn body

end

def Template.occurrences (t : Template) : List Occurrence :=
  Node.occurrencesIn t.nodes

def occurrencesOfSource (source : String) : Except SyntaxError (List Occurrence) :=
  return (← compile source "").occurrences

end Stencil
