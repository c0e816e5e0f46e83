import Stencil.Storage.Disk
import Stencil.Text.Charset
import Stencil.Text.Newline
import Stencil.Yaml.Library

namespace Stencil

/-- Why the content of a file cannot be used. -/
inductive ReadError where
  | file (e : FileError)
  | undecodable (e : DecodeError)
  /-- There is no data in the file that could be used. -/
  | unusable (p : FilePath) (refusal : Yaml.Refusal)
  | notMapping (p : FilePath)
deriving DecidableEq, Repr

def ReadError.message : ReadError → String
  | file e => e.message
  | undecodable e => e.message
  | unusable p (.malformed words) => "Invalid YAML in " ++ p.text ++ ": " ++ words
  | unusable _ (.noValue words) | unusable _ (.halted _ words) => words
  | unusable p .beyond => "No value for " ++ p.text
  | notMapping p => "YAML must be a mapping: " ++ p.text

/-- Whether the cause lies in what was asked for, and not in the machine. -/
def ReadError.isExpected : ReadError → Bool
  | file e => e.fault = .zeroCharacter
  | unusable _ (.halted _ _) | unusable _ .beyond => false
  | unusable _ (.malformed _) | unusable _ (.noValue _) | undecodable _ | notMapping _ => true

namespace Disk

/-- The characters of a file, with plain line ends. -/
def readText (d : Disk) (p : FilePath) (charset : FileCharset) : Except ReadError String := do
  let content ← (d.read p).mapError .file
  let cs ← (charset.decode content).mapError .undecodable
  return String.ofList (plainLineEnds cs)

def readYaml (d : Disk) (y : Yaml.Library) (p : FilePath) : Except ReadError PlainData := do
  let text ← d.readText p .utf8
  (y.read text).mapError (.unusable p)

/-- The mapping in a YAML file; an empty file holds an empty one. -/
def readYamlMapping (d : Disk) (y : Yaml.Library) (p : FilePath) :
    Except ReadError (Entries Empty) := do
  match ← d.readYaml y p with
  | .null => return []
  | .mapping entries => return entries
  | _ => .error (.notMapping p)

end Disk
end Stencil
