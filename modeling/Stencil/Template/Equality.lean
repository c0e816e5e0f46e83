import Stencil.Template.Syntax

namespace Stencil

mutual

def Node.agrees : Node → Node → Bool
  | .text a, .text b => a == b
  | .attr _ p, .attr _ q => p == q
  | .include _ m, .include _ n => m == n
  | .apply _ f a, .apply _ g b => f == g && a == b
  | .cond _ p a x, .cond _ q b y => p == q && Node.agreeAll a b && Node.agreeElse x y
  | .mapNamed _ m p, .mapNamed _ n q => m == n && p == q
  | .mapInline _ a p, .mapInline _ b q => Node.agreeAll a b && p == q
  | .join _ s p, .join _ t q => s == t && p == q
  | .txt _ k, .txt _ l => k == l
  | _, _ => false

def Node.agreeAll : List Node → List Node → Bool
  | [], [] => true
  | m :: ms, n :: ns => m.agrees n && Node.agreeAll ms ns
  | _, _ => false

def Node.agreeElse : Option (List Node) → Option (List Node) → Bool
  | none, none => true
  | some a, some b => Node.agreeAll a b
  | _, _ => false

end

def Template.agrees (s t : Template) : Bool :=
  Node.agreeAll s.nodes t.nodes

end Stencil
