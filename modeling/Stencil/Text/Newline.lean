namespace Stencil

/-- The text with every line end written as one line feed. -/
def plainLineEnds : List Char → List Char
  | [] => []
  | ['\r'] => ['\n']
  | '\r' :: '\n' :: cs => '\n' :: plainLineEnds cs
  | '\r' :: c :: cs => '\n' :: plainLineEnds (c :: cs)
  | c :: cs => c :: plainLineEnds cs

end Stencil
