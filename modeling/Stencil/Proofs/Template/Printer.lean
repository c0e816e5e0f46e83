import Stencil.Template.Directive

namespace Stencil

/-- Literal text with the escapes that its region asks for. -/
def Region.escape (r : Region) (cs : List Char) : List Char :=
  cs.flatMap fun c => if r.escapes c then ['\\', c] else [c]

/-- A directive with its delimiters. -/
def delimited (content : List Char) : List Char :=
  '$' :: content ++ ['$']

/-- A block with its braces. -/
def braced (content : List Char) : List Char :=
  '\x7b' :: content ++ ['\x7d']

/-- The characters of a path as a directive has them. -/
def Path.letters (p : Path) : List Char :=
  p.dotted.toList

mutual

/-- The source of a node that stands in the region `r`. -/
def Node.print (r : Region) : Node → List Char
  | .text value => r.escape value.toList
  | .attr _ path => delimited path.letters
  | .include _ name => delimited ("include ".toList ++ name.toList)
  | .apply _ func arg => delimited ("apply ".toList ++ func.letters ++ ' ' :: arg.letters)
  | .cond _ condition body elseBody =>
    delimited ("if ".toList ++ condition.letters) ++ Node.printAll r body
      ++ Node.printElse r elseBody ++ delimited "end if".toList
  | .mapNamed _ name items => delimited ("map ".toList ++ name.toList ++ ' ' :: items.letters)
  | .mapInline _ body items =>
    delimited ("map:".toList ++ braced (Node.printAll .block body) ++ ' ' :: items.letters)
  | .join _ separator items =>
    delimited ("join:".toList ++ braced (Region.block.escape separator.toList)
      ++ ' ' :: items.letters)
  | .txt _ key => delimited ("txt:".toList ++ braced (Region.block.escape key.toList))

/-- The source of a sequence of nodes. -/
def Node.printAll (r : Region) : List Node → List Char
  | [] => []
  | n :: ns => n.print r ++ Node.printAll r ns

/-- The source of a second body, with the word that leads it in. -/
def Node.printElse (r : Region) : Option (List Node) → List Char
  | none => []
  | some body => delimited "else".toList ++ Node.printAll r body

end

/-- Text that can be written down in a template: an escape makes a backslash that stands for itself
ambiguous. -/
def isPlain (s : String) : Bool :=
  !s.toList.contains '\\'

/-- A path that a directive can spell. -/
def Path.isSpellable (p : Path) : Bool :=
  p != [] && p.all fun s => s != "" && s.toList.all isSegmentChar

/-- The words that are not read as a path where a directive begins. -/
def reservedWords : List String :=
  ["include", "apply", "if", "map", "join", "txt", "else", "end"]

/-- A character of a template name: it neither ends a word nor is it blank. -/
def isNameChar (c : Char) : Bool :=
  !isBlank c && c != ':' && c != '\x7b' && c != '\x7d' && c != '$'

/-- A name that a directive can spell. -/
def isTemplateName (name : String) : Bool :=
  name != "" && name.toList.all isNameChar

def Node.isText : Node → Bool
  | .text _ => true
  | _ => false

mutual

/-- A node that has a source. -/
def Node.isPrintable : Node → Bool
  | .text value => value != "" && isPlain value
  | .attr _ path => path.isSpellable && reservedWords.all fun w => path != [w]
  | .include _ name => isTemplateName name
  | .apply _ func arg => func.isSpellable && arg.isSpellable
  | .cond _ condition body elseBody =>
    condition.isSpellable && Node.arePrintable body && Node.isPrintableElse elseBody
  | .mapNamed _ name items => isTemplateName name && items.isSpellable
  | .mapInline _ body items => Node.arePrintable body && items.isSpellable
  | .join _ separator items => isPlain separator && items.isSpellable
  | .txt _ key => key != "" && isPlain key

/-- A sequence of nodes that has a source: two texts in a row would run into one. -/
def Node.arePrintable : List Node → Bool
  | [] => true
  | n :: ns => n.isPrintable && Node.arePrintable ns && !(n.isText && ns.head?.any Node.isText)

def Node.isPrintableElse : Option (List Node) → Bool
  | none => true
  | some body => Node.arePrintable body

end

/-- A tree with a block and a conditional inside one another. -/
def nestedNodes : List Node :=
  [.text "a$\x7b",
    .cond .origin ["x", "y"]
      [.mapInline .origin
        [.text "\x7d$", .include .origin "n\\",
          .cond .origin ["z"] [.txt .origin "k"] none]
        ["xs"]]
      (some [.join .origin ", " ["xs"], .mapNamed .origin "n" ["xs"]]),
    .attr .origin ["else", "if"]]

example : String.ofList (Node.printAll .page nestedNodes) =
    "a\\$\x7b$if x.y$$map:\x7b\\\x7d\\$$include n\\$$if z$$txt:\x7bk\x7d$$end if$\x7d xs$" ++
      "$else$$join:\x7b, \x7d xs$$map n xs$$end if$$else.if$" := by
  decide

end Stencil
