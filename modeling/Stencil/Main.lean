import Stencil.CommandLine.Run
import Stencil.Yaml.Builtin

namespace Stencil

def readEntry (place : Place) : IO (Option Entry) := do
  let path := (FilePath.ofPlace place).text
  try
    return some (.file (← IO.FS.readBinFile path).toList)
  catch _ =>
    try
      let _ ← (← IO.FS.realPath path).readDir
      return some .directory
    catch _ => return none

/-- Reads what stands at a place, if that has not been done. -/
def Disk.bring (d : Disk) (place : Place) : IO Disk := do
  if (d.entry? place).isSome then return d
  match ← readEntry place with
  | some e => return d.put place e
  | none => return d

/-- Reads what stands at the end of a path and at all places on the way. -/
def Disk.bringPath (d : Disk) (p : FilePath) : IO Disk := do
  let start : Place := if p.isAbsolute then [] else d.here
  let onTheWay := (List.range (p.names.length + 1)).map fun n => start.follow (p.names.take n)
  let places := onTheWay.flatMap fun place => (Settings.upwards place).reverse
  places.foldlM Disk.bring d

partial def Disk.bringTree (d : Disk) (place : Place) : IO Disk := do
  let d ← d.bringPath (.ofPlace place)
  match d.entry? place with
  | some .directory =>
    let children ← (← IO.FS.realPath (FilePath.ofPlace place).text).readDir
    children.foldlM (fun d child => d.bringTree (place ++ [child.fileName])) d
  | _ => return d

def Command.paths : Command → List FilePath
  | .render r => ([r.template] ++ r.data.toList ++ r.config.toList).map .ofText
  | .keys files => files.map .ofText
  | .catalog target domain files =>
    let path := FilePath.ofText target ++ FilePath.ofText (domain ++ ".yaml")
    path :: besides path :: files.map .ofText

/-- Reads what a command may look at: the files it names, the settings, and the directories that the
settings name. -/
def Disk.gather (d : Disk) (c : Command) : IO Disk := do
  let d ← (Settings.upwards d.here).foldlM
    (fun d place => d.bringPath ((FilePath.ofPlace place).child Settings.fileName)) d
  let d ← c.paths.foldlM Disk.bringPath d
  match c with
  | .render r =>
    match r.settings Yaml.builtin d with
    | .ok s => (s.templatesDir.toList ++ s.catalogDir.toList).foldlM Disk.bringTree d
    | .error _ => return d
  | _ => return d

/-- Writes what is on a disk and was not on the one before it, and removes what is no longer there. -/
def Disk.writeBack (after before : Disk) : IO Unit := do
  before.entries.forM fun (place, _) => do
    if (after.entry? place).isNone then IO.FS.removeFile (FilePath.ofPlace place).text
  after.entries.forM fun (place, e) => do
    if before.entry? place != some e then
      let path := (FilePath.ofPlace place).text
      match e with
      | .directory => IO.FS.createDirAll path
      | .file content => IO.FS.writeBinFile path (.mk content.toArray)

def Invocation.perform (i : Invocation) : IO UInt32 := do
  let here := (FilePath.ofText (← IO.currentDir).toString).names
  let before ← Disk.gather ⟨[], here⟩ i.command
  let debugging := ((← IO.getEnv "SGT_DEBUG").getD "") != ""
  let (after, outcome) := i.run Yaml.builtin before debugging
  after.writeBack before
  match outcome with
  | .ok finished =>
    IO.eprint finished.log
    IO.print finished.output
    return finished.status.toUInt32
  | .error e =>
    IO.eprintln e.message
    return 1

end Stencil

def main (args : List String) : IO UInt32 := do
  match Stencil.Invocation.parse args with
  | .ok invocation => invocation.perform
  | .error ending =>
    if ending = .usage then IO.eprintln Stencil.Ending.summary
    else IO.println ending.output
    return ending.status.toUInt32
