import Stencil.Storage.Text
import Stencil.Traced
import Stencil.Localization.Catalog

namespace Stencil

/-- A catalog file that was read. -/
structure CatalogFile where
  locale : String
  domain : String
  path : FilePath
  entries : Entries Empty

/-- Why a catalog cannot be filled from a disk. -/
inductive CatalogError where
  | add (e : Catalog.AddError)
  | noDirectory (p : FilePath)
  | invalid (p : FilePath) (cause : ReadError)
  /-- The machine could not read a file or a directory. -/
  | unread (cause : ReadError)
deriving DecidableEq, Repr

def CatalogError.message : CatalogError → String
  | add e => e.message
  | noDirectory p => "Catalog directory not found: " ++ p.text
  | invalid p cause => "Invalid catalog file " ++ p.text ++ ": " ++ cause.message
  | unread cause => cause.message

/-- Reads a catalog file. The domain is that of the file's name unless another is given. -/
def readCatalogFile (y : Yaml.Library) (d : Disk) (p : FilePath) (locale : String)
    (domain : Option String) : Except CatalogError CatalogFile := do
  let domain := match domain with
    | none | some "" => p.stem
    | some domain => domain
  match d.readYamlMapping y p with
  | .ok entries => return ⟨locale, domain, p, entries⟩
  | .error cause => .error (if cause.isExpected then .invalid p cause else .unread cause)

def catalogSuffixes : List String := [".yaml", ".yml"]

/-- The paths of what stands directly in a directory, by name. -/
def Disk.list (d : Disk) (p : FilePath) : List FilePath :=
  match d.reach p with
  | .ok place => ((d.namesIn place).mergeSort).map p.child
  | .error _ => []

/-- The catalog files under a directory with their locales, in the order in which they are read. -/
def catalogPaths (d : Disk) (directory : FilePath) : List (String × FilePath) :=
  ((d.list directory).filter d.isDirectory).flatMap fun localeDir =>
    ((d.list localeDir).filter fun p => d.isFile p && catalogSuffixes.contains p.suffix).map
      fun p => (localeDir.fileName, p)

/-- Reads files one after the other, up to the first that cannot be read. -/
def readCatalogFiles (y : Yaml.Library) (d : Disk) :
    List (String × FilePath) → Traced CatalogFile CatalogError Unit
  | [] => return ()
  | (locale, p) :: rest => do
    let file ← .ofExcept (readCatalogFile y d p locale none)
    Traced.tell file
    readCatalogFiles y d rest

def readCatalogDirectory (y : Yaml.Library) (d : Disk) (directory : FilePath) :
    Traced CatalogFile CatalogError Unit :=
  match d.ask directory Disk.isDirectory with
  | .ok true => readCatalogFiles y d (catalogPaths d directory)
  | .ok false => .ofExcept (.error (.noDirectory directory))
  | .error e => .ofExcept (.error (.unread (.file e)))

namespace Catalog

def addFile (c : Catalog) (f : CatalogFile) : Except CatalogError Catalog :=
  (c.add f.locale f.domain f.entries).mapError .add

def addFrom (c : Catalog) (y : Yaml.Library) (d : Disk) (p : FilePath) (locale : String)
    (domain : Option String) : Except CatalogError Catalog := do
  c.addFile (← readCatalogFile y d p locale domain)

/-- Adds files that were read, and reports `last` after them. What was added before an error stays. -/
def addFiles (c : Catalog) (last : Except CatalogError Unit) :
    List CatalogFile → Catalog × Except CatalogError Unit
  | [] => (c, last)
  | f :: fs =>
    match c.addFile f with
    | .ok c => c.addFiles last fs
    | .error e => (c, .error e)

def addAllFrom (c : Catalog) (y : Yaml.Library) (d : Disk) (directory : FilePath) :
    Catalog × Except CatalogError Unit :=
  let read := readCatalogDirectory y d directory
  c.addFiles read.answer read.events

/-- A frozen catalog of all files under a directory, with the files that were read for it. -/
def ofDirectory (y : Yaml.Library) (d : Disk) (directory : FilePath) :
    Traced CatalogFile CatalogError Catalog :=
  let read := readCatalogDirectory y d directory
  let (c, outcome) := ({} : Catalog).addFiles read.answer read.events
  ⟨read.events, outcome.map fun _ => c.freeze⟩

end Catalog
end Stencil
