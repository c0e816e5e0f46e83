import Stencil.Text.Mark

namespace Stencil

/-- The causes for which a source is refused. -/
inductive Fault where
  | unmatchedOpen
  | unmatchedClose
  | unterminated
  | blockExpected (what : String)
  | braceExpected (what : String)
  | unexpectedRest (rest what : String)
  | emptyDirective
  | unexpectedCharacter (c : Char)
  | unknownDirective (text : String)
  | missingName (what : String)
  | missingPath (what : String)
  | emptySegment (word : String)
  | invalidSegment (segment word : String)
  | elseOutsideIf
  | endOutsideIf
  | duplicateElse
  | unclosedIf
  | emptyKey
  | unexpectedToken (kind : String)
deriving DecidableEq, Repr

def Fault.message : Fault → String
  | unmatchedOpen => "Unmatched '\x7b'"
  | unmatchedClose => "Unmatched '\x7d'"
  | unterminated => "Unterminated directive, expected closing '$'"
  | blockExpected what => "Expected ':\x7b...\x7d' after '" ++ what ++ "'"
  | braceExpected what => "Expected '\x7b' after '" ++ what ++ ":'"
  | unexpectedRest rest what => "Unexpected '" ++ rest ++ "' in " ++ what ++ " directive"
  | emptyDirective => "Empty directive"
  | unexpectedCharacter c => "Unexpected '" ++ c.toString ++ "' in directive"
  | unknownDirective text => "Unknown directive: " ++ text
  | missingName what => "Missing template name in " ++ what
  | missingPath what => "Missing attribute path in " ++ what
  | emptySegment word => "Empty path segment in '" ++ word ++ "'"
  | invalidSegment segment word => "Invalid attribute name '" ++ segment ++ "' in '" ++ word ++ "'"
  | elseOutsideIf => "else without if"
  | endOutsideIf => "end if without if"
  | duplicateElse => "Duplicate else in if block"
  | unclosedIf => "Unexpected end of template, expected $end if$"
  | emptyKey => "Empty localization key in txt"
  | unexpectedToken kind => "Unexpected token: " ++ kind

/-- A fault and the place it is reported at. -/
structure SyntaxError where
  fault : Fault
  mark : Mark
deriving DecidableEq, Repr

/-- The wording of an error: that of its fault, and the place. -/
def SyntaxError.message (e : SyntaxError) : String :=
  e.fault.message ++ " at " ++ e.mark.text

end Stencil
