import Stencil.Engine

namespace Stencil

inductive LogLevel where
  | debug
  | warning
deriving DecidableEq, Repr

def LogLevel.name : LogLevel → String
  | debug => "DEBUG"
  | warning => "WARNING"

/-- A line of the log. -/
structure LogLine where
  level : LogLevel
  text : String
deriving DecidableEq, Repr

namespace LogLine

def written (l : LogLine) : String :=
  "[" ++ l.level.name ++ "] " ++ l.text ++ "\n"

def isShown (everything : Bool) (l : LogLine) : Bool :=
  everything || l.level == .warning

def compiled (t : Template) : LogLine :=
  ⟨.debug, "Compiled template '" ++ t.name ++ "' -> " ++ toString t.nodes.length ++ " nodes"⟩

def loading (name : String) (place : Place) : LogLine :=
  ⟨.debug, "Loading template '" ++ name ++ "' from " ++ (FilePath.ofPlace place).text⟩

def catalogRead (f : CatalogFile) : LogLine :=
  ⟨.debug, "Loaded " ++ toString f.entries.length ++ " messages for " ++ f.locale ++ "/" ++ f.domain
    ++ " from " ++ f.path.text⟩

def catalogComplete (c : Catalog) : LogLine :=
  let list (names : List String) : String := "[" ++ ", ".intercalate (names.map quoted) ++ "]"
  ⟨.debug, "Catalog loaded: locales=" ++ list c.locales ++ " domains=" ++ list c.domains⟩

def skeletonWritten (s : Skeleton) : LogLine :=
  ⟨.debug, "Wrote " ++ toString s.keys ++ " keys to " ++ s.path.text⟩

def reported (d : Diagnostic) : LogLine :=
  ⟨.warning, d.text⟩

end LogLine

def SetupEvent.logLines : SetupEvent → List LogLine
  | .read f => [.catalogRead f]
  | .complete c => [.catalogComplete c]

/-- The line about a file that is about to be read, if there is one for that name. -/
def TemplateDirectory.logLines (t : TemplateDirectory) (d : Disk) (name : String) : List LogLine :=
  match t.locate d name with
  | .ok place => [.loading name place]
  | .error _ => []

/-- The lines about what happens during a run whose templates come from a directory. -/
def Event.logLines (templates : Option TemplateDirectory) (d : Disk) : Event → List LogLine
  | .asked name => (templates.map (·.logLines d name)).getD []
  | .loaded t | .compiled t => [.compiled t]
  | .bound _ | .began _ _ | .wrote _ | .listed _ => []
  | .reported r => [.reported r]

/-- The lines about reading files one after the other, up to the first that gives no template. -/
def sourceLogLines (d : Disk) (sources : List FilePath) : List LogLine :=
  (sources.map fun p => (compileText d p "").toOption).takeWhile (·.isSome)
    |>.filterMap (·.map .compiled)

end Stencil
