import Stencil.Render.Run
import Stencil.Settings
import Stencil.Localization.Directory
import Stencil.Localization.Skeleton

namespace Stencil

structure Engine where
  source : Option TemplateSource := none
  translator : Option Translator := none
  defaultLocale : String := "en"
  options : Options := {}

/-- What happens while an engine is set up. -/
inductive SetupEvent where
  /-- A catalog file was read. -/
  | read (f : CatalogFile)
  /-- All catalog files were. -/
  | complete (c : Catalog)

def Settings.templateDirectory (s : Settings) : Option TemplateDirectory :=
  s.templatesDir.map fun place => { directory := .ofPlace place, suffix := s.templateSuffix }

def Settings.readCatalog (y : Yaml.Library) (d : Disk) (s : Settings) :
    Traced SetupEvent CatalogError (Option Catalog) :=
  match s.catalogDir with
  | none => return none
  | some place => do
    let c ← (Catalog.ofDirectory y d (.ofPlace place)).translate (fun f => [SetupEvent.read f]) id
    Traced.tell (.complete c)
    return some c

namespace Engine

def ofSettings (y : Yaml.Library) (d : Disk) (s : Settings) :
    Traced SetupEvent CatalogError Engine := do
  let catalog ← s.readCatalog y d
  return {
    source := s.templateDirectory.map .directory
    translator := catalog.map Catalog.translate
    defaultLocale := s.defaultLocale
    options := { quiet := s.quiet, domain := s.domain } }

/-- The template in a file, byte for byte, named after the file. -/
def readTemplate (d : Disk) (p : FilePath) : Except SourceError Template := do
  let content ← (d.read p).mapError fun e => .read (.file e)
  let cs ← (decodeUtf8 content).mapError fun e => .read (.undecodable e)
  (compile (String.ofList cs) p.stem).mapError .invalid

def get (e : Engine) (d : Disk) (name : String) : Except LoadError Template :=
  match e.source with
  | none => .error (.missing ("No template loader configured for '" ++ name ++ "'"))
  | some source => source.load d name

/-- What a run of this engine has to go by. -/
def setting (e : Engine) (d : Disk) (options : Option Options) : Setting :=
  { loader := e.source.map (·.load d)
    translator := e.translator
    defaultLocale := e.defaultLocale
    options := options.getD e.options }

def render {φ : Type} [Callable φ] (e : Engine) (d : Disk) (t : Template) (ctx : Context φ)
    (options : Option Options) : Outcome String :=
  Stencil.render (e.setting d options) t ctx

/-- The same sources and localized texts with everything else at its default. -/
def plain (e : Engine) : Engine :=
  { source := e.source, translator := e.translator }

end Engine
end Stencil
