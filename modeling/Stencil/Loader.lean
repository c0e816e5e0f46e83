import Stencil.Storage.Text
import Stencil.Template.Compile

namespace Stencil

/-- Why a loader gives no template. Only a missing one is a matter for the next source of a chain. -/
inductive LoadError where
  | missing (message : String)
  | invalid (e : SyntaxError)
  | unreadable (e : DecodeError)
  | file (e : FileError)
deriving DecidableEq, Repr

def LoadError.message : LoadError → String
  | missing message => message
  | invalid e => e.message
  | unreadable e => e.message
  | file e => e.message

/-- A supply of named templates. -/
abbrev Loader := String → Except LoadError Template

/-- Compiles the source that a loader has found under a name. -/
def compileNamed (source : String) (name : String) : Except LoadError Template :=
  (compile source name).mapError .invalid

/-- An entry of a registry: a source, or a template that is ready. -/
inductive Registered where
  | source (text : String)
  | ready (t : Template)

/-- A directory of template files: the file for a name is found by adding the suffix. -/
structure TemplateDirectory where
  directory : FilePath
  suffix : String := ".tpl"
  charset : FileCharset := .utf8

namespace TemplateDirectory

/-- The place of the file for a name. A name that leads out of the directory has none. -/
def place (t : TemplateDirectory) (here : Place) (name : String) : Except LoadError Place :=
  let root := t.directory.resolve here
  let path := t.directory ++ FilePath.ofText (name ++ t.suffix)
  let place := (FilePath.ofText (name ++ t.suffix)).resolve root
  if t.directory.hasZero || path.hasZero then .error (.file ⟨.zeroCharacter, path, none⟩)
  else if root.isPrefixOf place then .ok place
  else .error (.missing ("Template name escapes template directory: " ++ name))

def locate (t : TemplateDirectory) (d : Disk) (name : String) : Except LoadError Place := do
  let place ← t.place d.here name
  let path := FilePath.ofPlace place
  if ← (d.ask path Disk.isFile).mapError .file then return place
  else .error (.missing ("Template not found: " ++ name ++ " (" ++ path.text ++ ")"))

end TemplateDirectory

def TemplateDirectory.load (t : TemplateDirectory) (d : Disk) : Loader := fun name => do
  let place ← t.locate d name
  match d.readText (.ofPlace place) t.charset with
  | .ok source => compileNamed source name
  | .error (.undecodable e) => .error (.unreadable e)
  | .error (.file e) => .error (.file e)
  | .error e => .error (.missing e.message)

/-- The loader over a registry. Of two entries for one name the later counts. -/
def loadRegistered (entries : List (String × Registered)) : Loader := fun name =>
  match entries.reverse.lookup name with
  | none => .error (.missing ("Template not found: " ++ name))
  | some (.ready t) => .ok t
  | some (.source text) => compileNamed text name

/-- The loader that asks several others in order, until one does not miss the template. -/
def loadFirst (loaders : List Loader) : Loader := fun name =>
  match loaders with
  | [] => .error (.missing ("Template not found: " ++ name))
  | first :: rest =>
    match first name with
    | .error (.missing _) => loadFirst rest name
    | answer => answer

/-- A description of a source of templates. -/
inductive TemplateSource where
  | registry (entries : List (String × Registered))
  | directory (t : TemplateDirectory)
  | chain (sources : List TemplateSource)

namespace TemplateSource

mutual

/-- The loader that a description stands for, on a given disk. -/
def load (d : Disk) : TemplateSource → Loader
  | registry entries => loadRegistered entries
  | directory t => t.load d
  | chain sources => loadFirst (loadEach d sources)

def loadEach (d : Disk) : List TemplateSource → List Loader
  | [] => []
  | s :: ss => s.load d :: loadEach d ss

end

end TemplateSource
end Stencil
