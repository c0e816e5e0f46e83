namespace Stencil

/-- Why a command line leads to no command. -/
inductive Ending where
  | version
  | help
  | usage
deriving DecidableEq, Repr

/-- What a long option is for. -/
inductive OptionRole where
  /-- It stands by itself. -/
  | flag
  /-- It takes a value. -/
  | value
  /-- It ends the reading. -/
  | ends (e : Ending)
deriving DecidableEq, Repr

/-- The options of a command. -/
structure OptionTable where
  /-- Those of one letter behind one hyphen, all of which end the reading. -/
  letters : List (Char × Ending)
  /-- The long ones by name, hyphens included. -/
  names : List (String × OptionRole)

/-- An argument by itself. -/
inductive Argument where
  | plain (text : String)
  /-- Two hyphens. -/
  | divider
  | flag (name : String)
  /-- An option that takes a value, with the one that is attached to it. -/
  | value (name : String) (attached : Option String)
  | ends (e : Ending)
  | unknown
deriving DecidableEq, Repr

/-- What stands before the first equals sign, and what stands behind it if there is one. -/
def splitEquals (arg : String) : String × Option String :=
  let name := arg.toList.takeWhile (· != '=')
  match arg.toList.drop name.length with
  | [] => (arg, none)
  | _ :: value => (String.ofList name, some (String.ofList value))

/-- Whether an argument is a negative number, with or without a decimal point. -/
def isNegativeNumber : List Char → Bool
  | '-' :: cs =>
    let whole := cs.takeWhile Char.isDigit
    match cs.drop whole.length with
    | [] => whole != []
    | '.' :: fraction => fraction != [] && fraction.all Char.isDigit
    | _ => false
  | _ => false

/-- A long option and what is attached to it. Only a value can be attached. -/
def Argument.ofOption (name : String) (role : OptionRole) (attached : Option String) : Argument :=
  match role, attached with
  | .value, _ => .value name attached
  | .flag, none => .flag name
  | .ends e, none => .ends e
  | _, some _ => .ends .usage

namespace OptionTable

/-- Whether a text may stand behind a letter: more letters may, and an equals sign with more letters
behind it. -/
def allowsLetters (table : OptionTable) (behind : List Char) : Bool :=
  let letters := match behind with
    | '=' :: letters => letters
    | letters => letters
  behind != ['='] && letters.all fun c => (table.letters.lookup c).isSome

/-- The long options that an argument can stand for, which may be cut short. -/
def candidates (table : OptionTable) (arg : String) : List Argument :=
  let (start, attached) := splitEquals arg
  match table.names.lookup start with
  | some role => [.ofOption start role attached]
  | none =>
    (table.names.filter fun o => start.toList.isPrefixOf o.1.toList).map fun o =>
      .ofOption o.1 o.2 attached

/-- What an argument is among the given options. An ambiguous one is an error at once. -/
def classify (table : OptionTable) (arg : String) : Except Ending Argument :=
  let other : Argument :=
    if isNegativeNumber arg.toList || arg.toList.contains ' ' then .plain arg else .unknown
  match arg.toList with
  | '-' :: '-' :: _ =>
    match table.candidates arg with
    | [] => .ok other
    | [a] => .ok a
    | _ => .error .usage
  | '-' :: letter :: rest =>
    match table.letters.lookup letter with
    | some e => .ok (.ends (if table.allowsLetters rest then e else .usage))
    | none => .ok other
  | _ => .ok (.plain arg)

end OptionTable

def OptionTable.classifyAll (table : OptionTable) : List String → Except Ending (List Argument)
  | [] => .ok []
  | arg :: args =>
    if arg = "--" then .ok (.divider :: args.map .plain)
    else do
      let first ← table.classify arg
      return first :: (← table.classifyAll args)

/-- Whether plain arguments are still to come, are being read, or have ended. -/
inductive PlainState where
  | waiting
  | reading
  | ended
deriving DecidableEq, Repr

/-- What was read of the arguments of a command. -/
structure Reading where
  flags : List String := []
  /-- The values of options, latest first. An option that has two hyphens attached to it is left
  without a value, for these stand for nothing. -/
  values : List (String × Option String) := []
  plain : List String := []
  state : PlainState := .waiting
  /-- There was an argument for which there is no use. -/
  surplus : Bool := false
deriving DecidableEq, Repr

namespace Reading

def take (r : Reading) (many : Bool) (text : String) : Reading :=
  match r.state with
  | .waiting => { r with plain := [text], state := .reading }
  | .reading => if many then { r with plain := r.plain ++ [text] } else { r with surplus := true }
  | .ended => { r with surplus := true }

/-- Takes two hyphens, which have to stand before or among plain arguments, or next to them. -/
def divide (r : Reading) : Reading :=
  if r.state = .ended then { r with surplus := true } else r

/-- Takes note that the plain arguments are interrupted. -/
def interrupt (r : Reading) : Reading :=
  if r.state = .reading then { r with state := .ended } else r

/-- The last value of an option, unless it is empty. -/
def given? (r : Reading) (name : String) : Option String :=
  (r.values.lookup name).join.filter (· != "")

end Reading

/-- Reads the arguments of a command, of which `many` or only one may be plain. -/
def Reading.add (many : Bool) : Reading → List Argument → Except Ending Reading
  | r, [] => .ok r
  | r, .plain text :: rest => add many (r.take many text) rest
  | r, .divider :: rest => add many r.divide rest
  | r, .unknown :: rest => add many { r.interrupt with surplus := true } rest
  | _, .ends e :: _ => .error e
  | r, .flag name :: rest =>
    let r := r.interrupt
    add many { r with flags := name :: r.flags } rest
  | r, .value name (some value) :: rest =>
    let r := r.interrupt
    add many { r with values := (name, some value |>.filter (· != "--")) :: r.values } rest
  | r, .value name none :: .plain value :: rest =>
    let r := r.interrupt
    add many { r with values := (name, some value) :: r.values } rest
  | _, .value _ none :: _ => .error .usage

/-- What is to be filled in, and how. -/
structure RenderRequest where
  /-- A file, or the name of a template. -/
  template : String
  data : Option String := none
  locale : Option String := none
  domain : Option String := none
  config : Option String := none
  quiet : Bool := false
  report : Bool := false
deriving DecidableEq, Repr

inductive Command where
  | render (request : RenderRequest)
  /-- Lists the texts to be translated of some files. -/
  | keys (files : List String)
  /-- Writes the skeleton of a catalog for some files. -/
  | catalog (target domain : String) (files : List String)
deriving DecidableEq, Repr

/-- A command, and whether everything is to be logged. -/
structure Invocation where
  verbose : Bool
  command : Command
deriving DecidableEq, Repr

/-- The options of every command, which explain it, and its own. -/
def OptionTable.ofNames (names : List (String × OptionRole)) : OptionTable :=
  ⟨[('h', .help)], ("--help", .ends .help) :: names⟩

def mainOptions : OptionTable :=
  ⟨[('h', .help), ('v', .version)],
    [("--help", .ends .help), ("--version", .ends .version), ("--verbose", .flag)]⟩

def renderOptions : OptionTable :=
  .ofNames [("--data", .value), ("--locale", .value), ("--domain", .value), ("--quiet", .flag),
    ("--config", .value), ("--report", .flag)]

def keysOptions : OptionTable := .ofNames []

def catalogOptions : OptionTable :=
  .ofNames [("--target", .value), ("--domain", .value)]

/-- Reads all arguments of a command, each of which has to be of use. -/
def OptionTable.readAll (table : OptionTable) (many : Bool) (args : List String) :
    Except Ending Reading := do
  let r ← Reading.add many {} (← table.classifyAll args)
  if r.surplus || r.plain.isEmpty then throw .usage
  return r

namespace Command

/-- The domain of a catalog whose domain is left without a value. -/
def noDomain : String := "[]"

def parse (name : String) (args : List String) : Except Ending Command := do
  match name with
  | "render" =>
    let r ← renderOptions.readAll false args
    return .render {
      template := r.plain.headD ""
      data := r.given? "--data"
      locale := r.given? "--locale"
      domain := r.given? "--domain"
      config := r.given? "--config"
      quiet := r.flags.contains "--quiet"
      report := r.flags.contains "--report" }
  | "keys" => return .keys (← keysOptions.readAll true args).plain
  | "catalog" =>
    let r ← catalogOptions.readAll true args
    let domain := match r.values.lookup "--domain" with
      | none => "messages"
      | some domain => domain.getD noDomain
    match (r.values.lookup "--target").join with
    | none => throw .usage
    | some target => return .catalog target domain r.plain
  | _ => throw .usage

end Command

namespace Invocation

/-- Looks for the command among arguments that were seen one by one. An unknown option before it does
no harm until the command itself has been read. -/
def parseFrom (verbose surplus : Bool) : List Argument → List String → Except Ending Invocation
  | .plain name :: _, _ :: args => do
    let command ← Command.parse name args
    if surplus then throw .usage
    return ⟨verbose, command⟩
  | .flag _ :: seen, _ :: args => parseFrom true surplus seen args
  | .ends e :: _, _ => .error e
  | .unknown :: seen, _ :: args => parseFrom verbose true seen args
  | _, _ => .error .usage

def parse (args : List String) : Except Ending Invocation := do
  parseFrom false false (← mainOptions.classifyAll args) args

end Invocation

namespace Ending

/-- The status of a command line that leads to no command. -/
def status : Ending → Nat
  | version | help => 0
  | usage => 2

def summary : String :=
  "usage: sgt [-h] [-v] [--verbose] COMMAND ...\n\n"
    ++ "sgt render TEMPLATE [--data FILE] [--locale LOCALE] [--domain DOMAIN] [--quiet]\n"
    ++ "    [--config FILE] [--report]\n"
    ++ "sgt keys FILE ...\n"
    ++ "sgt catalog --target DIR [--domain DOMAIN] FILE ..."

def output : Ending → String
  | version => "sgt 0.3.0"
  | help => summary
  | usage => ""

end Ending
end Stencil
