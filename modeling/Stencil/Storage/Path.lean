namespace Stencil

/-- Where a path starts. Two slashes lead to the root as one does, but are kept apart in its text;
three or more are the same as one. -/
inductive PathStart where
  | here
  | slash
  | twoSlashes
deriving DecidableEq, Repr

def PathStart.text : PathStart → String
  | here => ""
  | slash => "/"
  | twoSlashes => "//"

def PathStart.ofSlashes : Nat → PathStart
  | 0 => here
  | 2 => twoSlashes
  | _ => slash

/-- A path. The names are outermost first, without empty ones and single dots. -/
structure FilePath where
  start : PathStart
  names : List String
deriving DecidableEq, Repr

/-- A place on a disk: the names from the root down, none of which goes up. -/
abbrev Place := List String

def splitSlashes : List Char → List (List Char)
  | [] => [[]]
  | c :: cs =>
    if c = '/' then [] :: splitSlashes cs
    else match splitSlashes cs with
      | s :: ss => (c :: s) :: ss
      | [] => [[c]]

def isName (part : List Char) : Bool :=
  part != [] && part != ['.']

namespace FilePath

def isAbsolute (p : FilePath) : Bool := p.start != .here

def ofText (text : String) : FilePath :=
  { start := .ofSlashes (text.toList.takeWhile (· == '/')).length
    names := ((splitSlashes text.toList).filter isName).map String.ofList }

def ofPlace (p : Place) : FilePath := ⟨.slash, p⟩

def text (p : FilePath) : String :=
  match p.start, p.names with
  | .here, [] => "."
  | start, names => start.text ++ "/".intercalate names

def append (p q : FilePath) : FilePath :=
  if q.isAbsolute then q else ⟨p.start, p.names ++ q.names⟩

instance : Append FilePath := ⟨append⟩

def child (p : FilePath) (name : String) : FilePath := { p with names := p.names ++ [name] }

def parent (p : FilePath) : FilePath := { p with names := p.names.dropLast }

/-- The last name, empty if there is none. -/
def fileName (p : FilePath) : String := p.names.getLast?.getD ""

end FilePath

/-- A name cut before its last dot, if that is neither its first nor its last character. -/
def splitSuffix (name : String) : String × String :=
  let cs := name.toList.reverse
  let last := cs.takeWhile (· != '.')
  match cs.drop last.length with
  | '.' :: before =>
    if last = [] ∨ before = [] then (name, "")
    else (String.ofList before.reverse, String.ofList ('.' :: last.reverse))
  | _ => (name, "")

namespace FilePath

def stem (p : FilePath) : String := (splitSuffix p.fileName).1

/-- The suffix of the last name with its dot, empty if there is none. -/
def suffix (p : FilePath) : String := (splitSuffix p.fileName).2

end FilePath

/-- The place reached from `place` by the given names, when every name leads to something. The root
has nothing above it. -/
def Place.follow (place : Place) (names : List String) : Place :=
  names.foldl (fun p name => if name = ".." then p.dropLast else p ++ [name]) place

/-- The place that a path names, for someone at `here`. -/
def FilePath.resolve (here : Place) (p : FilePath) : Place :=
  Place.follow (if p.isAbsolute then [] else here) p.names

end Stencil
