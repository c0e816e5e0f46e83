import Stencil.Storage.Text
import Stencil.Template.Occurrence

namespace Stencil

/-- Why a template file gives no template. -/
inductive SourceError where
  | read (e : ReadError)
  | invalid (e : SyntaxError)
deriving DecidableEq, Repr

def SourceError.message : SourceError → String
  | read e => e.message
  | invalid e => e.message

/-- The template in a file, whose lines are taken with plain line ends. -/
def compileText (d : Disk) (p : FilePath) (name : String) : Except SourceError Template := do
  let source ← (d.readText p .utf8).mapError .read
  (compile source name).mapError .invalid

def occurrencesOfFile (d : Disk) (p : FilePath) : Except SourceError (List Occurrence) :=
  return (← compileText d p "").occurrences

/-- A text to be translated, the file and the line it occurs in. -/
structure Reference where
  key : String
  file : FilePath
  line : Nat
deriving DecidableEq, Repr

def referencesIn (d : Disk) (sources : List FilePath) :
    Except SourceError (List Reference) := do
  let all ← sources.mapM fun p => do
    return (← occurrencesOfFile d p).map fun o => ⟨o.key, p, o.line⟩
  return all.flatten

def Reference.text (r : Reference) : String :=
  r.file.text ++ ":" ++ toString r.line

/-- Adds a reference under its key, which keeps the position of its first one. -/
def addReference (groups : List (String × List String)) (r : Reference) :
    List (String × List String) :=
  match groups with
  | [] => [(r.key, [r.text])]
  | (key, refs) :: rest =>
    if key = r.key then (key, refs ++ [r.text]) :: rest else (key, refs) :: addReference rest r

/-- References by key, in the order in which the keys first occur. -/
def groupReferences (rs : List Reference) : List (String × List String) :=
  rs.foldl addReference []

def referencesByKey (d : Disk) (sources : List FilePath) :
    Except SourceError (List (String × List String)) :=
  return groupReferences (← referencesIn d sources)

/-- The entry of a skeleton for a key, which tells where it occurs. -/
def skeletonEntry (group : String × List String) : Yaml.OpenEntry :=
  ⟨group.1, "# " ++ " ".intercalate group.2⟩

/-- Why a skeleton cannot be written. -/
inductive SkeletonError where
  | source (e : SourceError)
  | file (e : FileError)
deriving DecidableEq, Repr

def SkeletonError.message : SkeletonError → String
  | source e => e.message
  | file e => e.message

/-- The name under which a file is written before it takes the place of an old one. -/
def besides (p : FilePath) : FilePath :=
  { p with names := p.names.dropLast ++ [p.fileName ++ ".tmp-rt"] }

/-- Puts a file in place of an old one in a single step: it is written under another name first. -/
def Disk.writeAside (d : Disk) (p : FilePath) (content : Bytes) : Disk × Except FileError Unit :=
  match d.write (besides p) content with
  | .error e => (d, .error e)
  | .ok written =>
    match written.replace (besides p) p with
    | .error e => (written, .error e)
    | .ok replaced => (replaced, .ok ())

/-- What a written skeleton is: where it stands, and how many keys it has. -/
structure Skeleton where
  path : FilePath
  keys : Nat
deriving DecidableEq, Repr

/-- Writes the skeleton for some template files into a directory. Nothing is touched before all of
them have been read. -/
def buildSkeleton (y : Yaml.Library) (d : Disk) (target : FilePath) (sources : List FilePath)
    (domain : String) : Disk × Except SkeletonError Skeleton :=
  match referencesByKey d sources with
  | .error e => (d, .error (.source e))
  | .ok groups =>
    match d.tryMakeDirectories target.start target.names.reverse with
    | (made, .error e) => (made, .error (.file e))
    | (made, .ok _) =>
      let path := target ++ FilePath.ofText (domain ++ ".yaml")
      let text := y.write (groups.map skeletonEntry)
      let (after, outcome) := made.writeAside path (encodeUtf8 text.toList)
      (after, (outcome.mapError .file).map fun _ => ⟨path, groups.length⟩)

end Stencil
