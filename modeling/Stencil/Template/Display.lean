import Stencil.Template.Syntax
import Stencil.Text.Quoted

namespace Stencil

def recordText (kind : String) (parts : List (String × String)) : String :=
  kind ++ "(" ++ ", ".intercalate (parts.map fun (name, text) => name ++ "=" ++ text) ++ ")"

def directiveText (kind : String) (mark : Mark) (parts : List (String × String)) : String :=
  recordText kind
    (("line", toString mark.line) :: ("column", toString mark.column) :: parts)

def pathText (p : Path) : String :=
  tupleText (p.map quoted)

mutual

def Node.display : Node → String
  | .text value => recordText "TextNode" [("text", quoted value)]
  | .attr mark path => directiveText "AttrNode" mark [("path", pathText path)]
  | .include mark name => directiveText "IncludeNode" mark [("name", quoted name)]
  | .apply mark func arg =>
    directiveText "ApplyNode" mark [("func", pathText func), ("arg", pathText arg)]
  | .cond mark condition body elseBody =>
    directiveText "IfNode" mark
      [("condition", pathText condition), ("body", tupleText (Node.displayAll body)),
        ("else_body", Node.displayElse elseBody)]
  | .mapNamed mark name items =>
    directiveText "MapNode" mark [("body", quoted name), ("items", pathText items)]
  | .mapInline mark body items =>
    directiveText "MapNode" mark
      [("body", recordText "CompiledTemplate"
          [("nodes", tupleText (Node.displayAll body)), ("name", quoted "")]),
        ("items", pathText items)]
  | .join mark separator items =>
    directiveText "JoinNode" mark [("separator", quoted separator), ("items", pathText items)]
  | .txt mark key => directiveText "TxtNode" mark [("key", quoted key)]

def Node.displayAll : List Node → List String
  | [] => []
  | n :: ns => n.display :: Node.displayAll ns

def Node.displayElse : Option (List Node) → String
  | none => "None"
  | some body => tupleText (Node.displayAll body)

end

def Template.display (t : Template) : String :=
  recordText "CompiledTemplate"
    [("nodes", tupleText (Node.displayAll t.nodes)), ("name", quoted t.name)]

end Stencil
