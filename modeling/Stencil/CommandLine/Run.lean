import Stencil.CommandLine.Arguments
import Stencil.CommandLine.Log
import Stencil.CommandLine.Report
import Stencil.Text.Blank

namespace Stencil

/-- Why a command fails. -/
inductive CommandError where
  /-- Nothing can be said about a path. -/
  | path (e : FileError)
  | noSettings (p : FilePath)
  | settings (e : SettingsError)
  | catalog (e : CatalogError)
  | source (e : SourceError)
  | template (e : LoadError)
  | noData (p : FilePath)
  | data (e : ReadError)
  | dataNotMapping (p : FilePath)
  | run (f : Failure)
  | skeleton (e : SkeletonError)
deriving DecidableEq, Repr

/-- What ends a command in another way than an error of its user. -/
inductive Unhandled where
  /-- The file of a template is no text. -/
  | undecodable (e : DecodeError)
  /-- A path holds a zero character. -/
  | path (e : FileError)
  /-- The reader of YAML came to a halt. -/
  | halted (kind words : String)
  /-- A document stands for something that is no value here. How the command goes on is not said. -/
  | beyond
  /-- A key of the settings is no text. -/
  | keyNotText (typeName : String)
  /-- A value could not be written out. -/
  | raised (r : Raised)
deriving DecidableEq, Repr

namespace Unhandled

def message : Unhandled → String
  | undecodable e => e.message
  | path e => e.message
  | halted _ words => words
  | beyond => "No value for a document"
  | keyNotText typeName => (SettingsError.keyNotText typeName).message
  | raised r => r.message

def ofPath? (e : FileError) : Option Unhandled :=
  if e.fault = .zeroCharacter then some (.path e) else none

def ofTemplate? : ReadError → Option Unhandled
  | .undecodable e => some (.undecodable e)
  | .file e => ofPath? e
  | _ => none

def ofData? : ReadError → Option Unhandled
  | .unusable _ (.halted kind words) => some (.halted kind words)
  | .unusable _ .beyond => some .beyond
  | _ => none

end Unhandled

namespace CommandError

def message : CommandError → String
  | path e => e.message
  | noSettings p => "Config file not found: " ++ p.text
  | settings e => e.message
  | catalog e => e.message
  | source e => e.message
  | template e => e.message
  | noData p => "Data file not found: " ++ p.text
  | data e => e.message
  | dataNotMapping p => "Data file must contain a mapping at top level: " ++ p.text
  | run (.raised r) => r.message
  | run (.unreadable e) => e.message
  | run (.file e) => e.message
  | skeleton e => e.message

/-- What ends a command without a word in its log, if the error is one of those. -/
def unhandled? : CommandError → Option Unhandled
  | source (.read cause) | skeleton (.source (.read cause)) => Unhandled.ofTemplate? cause
  | template (.unreadable e) | run (.unreadable e) => some (.undecodable e)
  | path e | settings (.path e) | template (.file e) | run (.file e) | skeleton (.file e) =>
    Unhandled.ofPath? e
  | data cause | settings (.unreadable cause) | catalog (.unread cause) => Unhandled.ofData? cause
  | settings (.keyNotText typeName) => some (.keyNotText typeName)
  | run (.raised r) | settings (.raised r) | catalog (.add (.raised r)) => some (.raised r)
  | _ => none

end CommandError

/-- A part of a command, with what it logs. -/
abbrev Task := Traced LogLine CommandError

namespace RenderRequest

/-- The settings for a run: those of the given file, or else of the nearest one. -/
def settings (r : RenderRequest) (y : Yaml.Library) (d : Disk) : Except CommandError Settings := do
  match r.config with
  | some text =>
    let p := FilePath.ofText text
    if ← (d.ask p Disk.isFile).mapError .path then (Settings.load y d p).mapError .settings
    else throw (.noSettings p)
  | none =>
    match ← (Settings.locate d (.ofPlace d.here)).mapError .path with
    | some p => (Settings.load y d p).mapError .settings
    | none => return {}

/-- The template for a run: a file, or else the template of that name. -/
def compile (r : RenderRequest) (d : Disk) (s : Settings) (e : Engine) : Task Template := do
  let p := FilePath.ofText r.template
  let t ←
    if ← .ofExcept ((d.ask p Disk.isFile).mapError .path) then
      .ofExcept ((Engine.readTemplate d p).mapError .source)
    else
      ⟨(s.templateDirectory.map (·.logLines d r.template)).getD [],
        (e.get d r.template).mapError .template⟩
  Traced.tell (.compiled t)
  return t

/-- The data for a run. An empty file holds an empty mapping, and so does no file. -/
def entries (r : RenderRequest) (y : Yaml.Library) (d : Disk) :
    Except CommandError (Entries Empty) := do
  match r.data with
  | none => return []
  | some text =>
    let p := FilePath.ofText text
    if ← (d.ask p Disk.isFile).mapError .path then
      match ← (d.readYaml y p).mapError .data with
      | .null => return []
      | .mapping entries => return entries
      | _ => throw (.dataNotMapping p)
    else throw (.noData p)

/-- Fills in a template, and gives the text or a report. -/
def run (r : RenderRequest) (y : Yaml.Library) (d : Disk) : Task String := do
  let s ← .ofExcept (r.settings y d)
  let e ← (Engine.ofSettings y d s).translate SetupEvent.logLines .catalog
  let t ← r.compile d s e
  let entries ← .ofExcept (r.entries y d)
  let locale := r.locale.getD s.defaultLocale
  let domain := r.domain.getD s.domain
  let options : Options := { quiet := r.quiet || s.quiet, locale := some locale, domain }
  let out := e.render d t ⟨[], entries⟩ (some options)
  let text ← out.translate (Event.logLines s.templateDirectory d) .run
  return if r.report then runJson r.template locale domain text (reportsOf out.events) else text

end RenderRequest

/-- Lists the texts to be translated of some files. -/
def listKeys (d : Disk) (files : List String) : Task String :=
  let sources := files.map .ofText
  ⟨sourceLogLines d sources,
    ((referencesIn d sources).mapError .source).map referencesJson⟩

/-- Writes the skeleton of a catalog, and gives its path. -/
def writeSkeleton (y : Yaml.Library) (d : Disk) (target domain : String) (files : List String) :
    Disk × Task String :=
  let sources := files.map .ofText
  let (after, outcome) := buildSkeleton y d (.ofText target) sources domain
  (after, do
    (⟨sourceLogLines d sources, .ok ()⟩ : Task Unit)
    let s ← .ofExcept (outcome.mapError .skeleton)
    Traced.tell (.skeletonWritten s)
    return s.path.text ++ "\n")

/-- Carries out a command, which may leave another disk behind. -/
def Command.run (y : Yaml.Library) (d : Disk) : Command → Disk × Task String
  | .render request => (d, request.run y d)
  | .keys files => (d, listKeys d files)
  | .catalog target domain files => writeSkeleton y d target domain files

/-- How a command ends: its status, what it prints, and its log. -/
structure Finished where
  status : Nat
  output : String
  log : String
deriving DecidableEq, Repr

/-- The end of a task. What is not handled is left to the caller. -/
def Task.finish (task : Task String) (everything : Bool) : Except Unhandled Finished :=
  let log := String.join ((task.events.filter (·.isShown everything)).map LogLine.written)
  match task.answer with
  | .ok text => .ok ⟨0, text, log⟩
  | .error e =>
    match e.unhandled? with
    | some cause => .error cause
    | none => .ok ⟨2, "", log ++ String.ofList (trimEnd e.message.toList) ++ "\n"⟩

/-- Carries out what a command line asks for. Everything is logged if the user or the surroundings
ask for it. -/
def Invocation.run (i : Invocation) (y : Yaml.Library) (d : Disk) (debugging : Bool) :
    Disk × Except Unhandled Finished :=
  let (after, task) := i.command.run y d
  (after, task.finish (i.verbose || debugging))

end Stencil
