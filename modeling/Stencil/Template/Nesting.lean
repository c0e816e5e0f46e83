import Stencil.Template.Directive

namespace Stencil

/-- A conditional whose end has not been met. The nodes before it are latest first; its first body
is kept here once `else` was met. -/
structure OpenIf where
  before : List Node
  mark : Mark
  condition : Path
  body : Option (List Node)
deriving Repr

/-- A template under construction: the nodes of the innermost open body, latest first, and the
conditionals around it, innermost first. -/
structure Draft where
  nodes : List Node
  opened : List OpenIf
deriving Repr

namespace Draft

def empty : Draft := ⟨[], []⟩

def add (d : Draft) (mark : Mark) : Item → Except SyntaxError Draft
  | .node n => .ok { d with nodes := n :: d.nodes }
  | .openIf mark condition => .ok ⟨[], ⟨d.nodes, mark, condition, none⟩ :: d.opened⟩
  | .otherwise =>
    match d.opened with
    | [] => .error ⟨.elseOutsideIf, mark⟩
    | top :: rest =>
      match top.body with
      | none => .ok ⟨[], { top with body := some d.nodes.reverse } :: rest⟩
      | some _ => .error ⟨.duplicateElse, mark⟩
  | .endIf =>
    match d.opened with
    | [] => .error ⟨.endOutsideIf, mark⟩
    | top :: rest =>
      let last := d.nodes.reverse
      let node := match top.body with
        | none => .cond top.mark top.condition last none
        | some body => .cond top.mark top.condition body (some last)
      .ok ⟨node :: top.before, rest⟩

/-- The finished nodes. The innermost conditional that is still open is the one reported. -/
def finish (d : Draft) : Except SyntaxError (List Node) :=
  match d.opened with
  | [] => .ok d.nodes.reverse
  | top :: _ => .error ⟨.unclosedIf, top.mark⟩

end Draft

/-- Takes the tokens up to the first end token, or all of them if there is none. -/
def Draft.addTokens (inline : Inline) (d : Draft) : List Token → Except SyntaxError Draft
  | [] => .ok d
  | t :: ts =>
    if t.kind = .eof then .ok d
    else do
      let item ← t.item inline
      let d ← d.add t.mark item
      d.addTokens inline ts

def parse (inline : Inline) (tokens : List Token) : Except SyntaxError (List Node) := do
  let d ← Draft.empty.addTokens inline tokens
  d.finish

end Stencil
