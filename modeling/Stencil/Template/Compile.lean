import Stencil.Template.Nesting

namespace Stencil

/-- Compiles a stretch of source. A block inside it is a shorter stretch, and is compiled in the
same way; one that were not shorter could not be a block and is refused. -/
def compileStretch (r : Region) (c : Cursor) : Except SyntaxError (List Node) := do
  let tokens ← tokenize r c
  parse (fun block =>
    if _shorter : block.rest.length < c.rest.length then compileStretch .block block
    else .error ⟨.unmatchedOpen, block.mark⟩) tokens
termination_by c.rest.length

/-- Compiles the content of a block that is cut out of nowhere: a template without a name. -/
def compileBlock (c : Cursor) : Except SyntaxError Template := do
  return { nodes := ← compileStretch .block c }

def compile (source : String) (name : String) : Except SyntaxError Template := do
  return { nodes := ← compileStretch .page (.ofText source.toList), name }

end Stencil
