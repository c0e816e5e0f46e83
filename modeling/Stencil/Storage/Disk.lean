import Stencil.Storage.Path
import Stencil.Text.Quoted
import Stencil.Text.Utf8

namespace Stencil

/-- What stands at a place. -/
inductive Entry where
  | file (content : Bytes)
  | directory
deriving DecidableEq, Repr

/-- Why an operation on files fails. -/
inductive FileFault where
  | notFound
  | alreadyThere
  | notDirectory
  | isDirectory
  | nameTooLong
  /-- No path holds a zero character. -/
  | zeroCharacter
deriving DecidableEq, Repr

/-- A fault and the path, or the two paths, that it is about. -/
structure FileError where
  fault : FileFault
  path : FilePath
  other : Option FilePath := none
deriving DecidableEq, Repr

/-- The number and the wording of a fault, if the system has one for it. -/
def FileFault.text : FileFault → String
  | notFound => "[Errno 2] No such file or directory"
  | alreadyThere => "[Errno 17] File exists"
  | notDirectory => "[Errno 20] Not a directory"
  | isDirectory => "[Errno 21] Is a directory"
  | nameTooLong => "[Errno 36] File name too long"
  | zeroCharacter => "embedded null byte"

/-- The wording with the paths. A path with a zero character is not shown. -/
def FileError.message (e : FileError) : String :=
  let second := match e.other with
    | none => ""
    | some p => " -> " ++ quoted p.text
  if e.fault = .zeroCharacter then e.fault.text
  else e.fault.text ++ ": " ++ quoted e.path.text ++ second

/-- The entries by place, each place once, and the directory one is in. The root is always there. -/
structure Disk where
  entries : List (Place × Entry)
  here : Place
deriving Repr

def nameLimit : Nat := 255

def pathLimit : Nat := 4095

def FilePath.hasZero (p : FilePath) : Bool :=
  p.names.any (·.toList.contains '\x00')

namespace Disk

def entry? (d : Disk) (p : Place) : Option Entry :=
  if p = [] then some .directory else (d.entries.find? (·.1 == p)).map (·.2)

/-- Walks from a place along names; every place that is left has to be a directory. -/
def walk (d : Disk) : Place → List String → Except FileFault Place
  | p, [] => .ok p
  | p, name :: names =>
    match d.entry? p with
    | none => .error .notFound
    | some (.file _) => .error .notDirectory
    | some .directory =>
      if nameLimit < name.utf8ByteSize then .error .nameTooLong
      else d.walk (if name = ".." then p.dropLast else p ++ [name]) names

/-- The place that a path leads to, where something may or may not stand. -/
def reach (d : Disk) (p : FilePath) : Except FileFault Place :=
  if p.hasZero then .error .zeroCharacter
  else if pathLimit < p.text.utf8ByteSize then .error .nameTooLong
  else d.walk (if p.isAbsolute then [] else d.here) p.names

def find? (d : Disk) (p : FilePath) : Option Entry :=
  match d.reach p with
  | .ok place => d.entry? place
  | .error _ => none

def isFile (d : Disk) (p : FilePath) : Bool :=
  match d.find? p with
  | some (.file _) => true
  | _ => false

def isDirectory (d : Disk) (p : FilePath) : Bool :=
  match d.find? p with
  | some .directory => true
  | _ => false

/-- The answer to a question about what stands at the end of a path. A name that is too long for any
answer is an error; of all other paths that lead nowhere the answer is known. -/
def ask (d : Disk) (p : FilePath) (answer : Disk → FilePath → Bool) : Except FileError Bool :=
  match d.reach p with
  | .error .nameTooLong => .error ⟨.nameTooLong, p, none⟩
  | _ => .ok (answer d p)

/-- The place that a path names, whether or not there is something. -/
def resolve (d : Disk) (p : FilePath) : Except FileError Place :=
  if p.hasZero then .error ⟨.zeroCharacter, p, none⟩ else .ok (p.resolve d.here)

def read (d : Disk) (p : FilePath) : Except FileError Bytes :=
  match d.reach p with
  | .error fault => .error ⟨fault, p, none⟩
  | .ok place =>
    match d.entry? place with
    | none => .error ⟨.notFound, p, none⟩
    | some .directory => .error ⟨.isDirectory, p, none⟩
    | some (.file content) => .ok content

/-- The names of what stands directly in the directory at a place, in no particular order. -/
def namesIn (d : Disk) (place : Place) : List String :=
  d.entries.filterMap fun (p, _) =>
    match p.getLast? with
    | some name => if p.dropLast = place then some name else none
    | none => none

/-- The disk with `e` at a place that is not the root, instead of what stood there. -/
def put (d : Disk) (place : Place) (e : Entry) : Disk :=
  if d.entries.any (·.1 == place) then
    { d with entries := d.entries.map fun old => if old.1 = place then (place, e) else old }
  else { d with entries := d.entries ++ [(place, e)] }

def drop (d : Disk) (place : Place) : Disk :=
  { d with entries := d.entries.filter (·.1 != place) }

/-- Writes a file, new or in place of an old one. The directory for it has to be there. -/
def write (d : Disk) (p : FilePath) (content : Bytes) : Except FileError Disk :=
  match d.reach p with
  | .error fault => .error ⟨fault, p, none⟩
  | .ok place =>
    match d.entry? place, d.entry? place.dropLast with
    | some .directory, _ => .error ⟨.isDirectory, p, none⟩
    | _, some .directory => .ok (d.put place (.file content))
    | _, some (.file _) => .error ⟨.notDirectory, p, none⟩
    | _, none => .error ⟨.notFound, p, none⟩

/-- Makes one directory, whose own directory has to be there. -/
def makeDirectory (d : Disk) (p : FilePath) : Except FileFault Disk :=
  match d.reach p with
  | .error fault => .error fault
  | .ok place =>
    match d.entry? place, d.entry? place.dropLast with
    | some _, _ => .error .alreadyThere
    | none, some .directory => .ok (d.put place .directory)
    | none, some (.file _) => .error .notDirectory
    | none, none => .error .notFound

/-- Makes a directory and those it has to stand in, unless they are there. The path is given by its
names, last name first. Where that fails, the directories made so far stay. -/
def tryMakeDirectories (d : Disk) (start : PathStart) : List String → Disk × Except FileError Unit
  | [] => (d, .ok ())
  | name :: above =>
    let p : FilePath := ⟨start, (name :: above).reverse⟩
    let keep (d : Disk) (fault : FileFault) : Disk × Except FileError Unit :=
      (d, if d.isDirectory p then .ok () else .error ⟨fault, p, none⟩)
    match d.makeDirectory p with
    | .ok made => (made, .ok ())
    | .error .notFound =>
      match d.tryMakeDirectories start above with
      | (d, .error e) => (d, .error e)
      | (d, .ok _) =>
        match d.makeDirectory p with
        | .ok made => (made, .ok ())
        | .error .notFound => (d, .error ⟨.notFound, p, none⟩)
        | .error fault => keep d fault
    | .error fault => keep d fault

/-- The disk with a directory and those it has to stand in, if all of them can be there. -/
def makeDirectories (d : Disk) (start : PathStart) (names : List String) : Except FileError Disk :=
  let (made, outcome) := d.tryMakeDirectories start names
  outcome.map fun _ => made

/-- Moves a file to where another file may stand, which it replaces. -/
def replace (d : Disk) (source target : FilePath) : Except FileError Disk :=
  let failed (fault : FileFault) : Except FileError Disk := .error ⟨fault, source, some target⟩
  match d.reach source, d.reach target with
  | .error fault, _ | _, .error fault => failed fault
  | .ok old, .ok new =>
    match d.entry? old, d.entry? new with
    | some (.file _), some .directory => failed .isDirectory
    | some (.file content), _ => .ok ((d.drop old).put new (.file content))
    | some .directory, _ => failed .isDirectory
    | none, _ => failed .notFound

end Disk
end Stencil
