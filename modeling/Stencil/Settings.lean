import Stencil.Storage.Text
import Stencil.Data.Display

namespace Stencil

structure Settings where
  templatesDir : Option Place := none
  templateSuffix : String := ".tpl"
  catalogDir : Option Place := none
  defaultLocale : String := "en"
  domain : String := "messages"
  quiet : Bool := false
deriving DecidableEq, Repr

/-- Why settings are refused. -/
inductive SettingsError where
  | unknownKeys (keys : List String)
  /-- A key that is no text cannot be told among the unknown ones. -/
  | keyNotText (typeName : String)
  | notBoolean (typeName : String)
  | notText (name shown : String)
  | notPath (name shown : String)
  | unreadable (cause : ReadError)
  /-- Nothing can be said about a path. -/
  | path (e : FileError)
  /-- The value that is refused cannot be shown. -/
  | raised (r : Raised)
deriving DecidableEq, Repr

def SettingsError.message : SettingsError → String
  | unknownKeys keys => "Unknown config keys: " ++ ", ".intercalate keys
  | keyNotText typeName => "sequence item 0: expected str instance, " ++ typeName ++ " found"
  | notBoolean typeName => "quiet: expected boolean, got " ++ typeName
  | notText name shown => name ++ ": expected non-empty string, got " ++ shown
  | notPath name shown => name ++ ": expected path string, got " ++ shown
  | unreadable cause => cause.message
  | path e => e.message
  | raised r => r.message

namespace Settings

variable {φ : Type} [Handle φ]

def knownKeys : List String :=
  ["templates_dir", "template_suffix", "catalog_dir", "default_locale", "domain", "quiet"]

/-- Refuses the value of a field, in words that show it. -/
def refuse {α : Type} (v : Value φ) (inWords : String → SettingsError) : Except SettingsError α :=
  match v.guarded v.inner with
  | .ok shown => .error (inWords shown)
  | .error r => .error (.raised r)

def textField (entries : Entries φ) (name default : String) : Except SettingsError String :=
  match entries.get? name with
  | none => .ok default
  | some (.str s) => if s = "" then refuse (.str s : Value φ) (.notText name) else .ok s
  | some v => refuse v (.notText name)

def directoryField (entries : Entries φ) (name : String) (base : Place) :
    Except SettingsError (Option Place) :=
  match entries.get? name with
  | none | some .null => .ok none
  | some (.str s) =>
    if s = "" then refuse (.str s : Value φ) (.notPath name)
    else
      let p := FilePath.ofPlace base ++ FilePath.ofText s
      if p.hasZero then .error (.path ⟨.zeroCharacter, p, none⟩) else .ok (some (p.resolve base))
  | some v => refuse v (.notPath name)

def isKnown (key : Value φ) : Bool :=
  knownKeys.any (key.isText ·)

/-- The first key that is no text. -/
def strangeKey? (entries : Entries φ) : Option (Value φ) :=
  (entries.map (·.1)).find? fun
    | .str _ => false
    | _ => true

/-- The settings in a mapping, whose directories are given from `base`. -/
def ofEntries (entries : Entries φ) (base : Place) : Except SettingsError Settings := do
  if let some key := strangeKey? entries then throw (.keyNotText key.typeName)
  let unknown := (entries.map (·.1)).filter (!isKnown ·)
  if !unknown.isEmpty then throw (.unknownKeys ((unknown.map Value.shown).mergeSort))
  let quiet ← match entries.get? "quiet" with
    | none => pure false
    | some (.bool b) => pure b
    | some v => throw (.notBoolean v.typeName)
  let templatesDir ← directoryField entries "templates_dir" base
  let templateSuffix ← textField entries "template_suffix" ".tpl"
  let catalogDir ← directoryField entries "catalog_dir" base
  let defaultLocale ← textField entries "default_locale" "en"
  let domain ← textField entries "domain" "messages"
  return { templatesDir, templateSuffix, catalogDir, defaultLocale, domain, quiet }

def load (y : Yaml.Library) (d : Disk) (p : FilePath) : Except SettingsError Settings := do
  if ← (d.ask p Disk.isFile).mapError .path then
    let entries ← (d.readYamlMapping y p).mapError .unreadable
    ofEntries entries (p.parent.resolve d.here)
  else return {}

/-- The name of the file that settings are looked for in. -/
def fileName : String := "sgt.yaml"

/-- The places above a place, nearest first, and before them the place itself. -/
def upwards (p : Place) : List Place :=
  ((List.range (p.length + 1)).map p.take).reverse

/-- The nearest file with settings, in the directory at a path or above it. -/
def locate (d : Disk) (start : FilePath) : Except FileError (Option FilePath) := do
  let place ← d.resolve start
  firstFile ((upwards place).map fun p => (FilePath.ofPlace p).child fileName)
where
  firstFile : List FilePath → Except FileError (Option FilePath)
    | [] => return none
    | p :: ps => do if ← d.ask p Disk.isFile then return some p else firstFile ps

end Settings
end Stencil
