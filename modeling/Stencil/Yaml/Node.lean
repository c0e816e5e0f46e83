import Stencil.Yaml.Token
import Stencil.Yaml.Scalar

namespace Stencil.Yaml

inductive Node where
  | plain (text : List Char)
  | quoted (text : List Char)
  | sequence (items : List Node)
  /-- The entries of a mapping. If some were taken over from other mappings, those are the first ones,
  and a later entry hides an earlier one. -/
  | mapping (takenOver : Bool) (entries : List (Node × Node))
  /-- A mapping that is to take over the entries of something that is none. -/
  | unmergeable

instance : Inhabited Node := ⟨.plain []⟩

namespace Node

def empty : Node := .plain []

/-- Whether a key asks for the entries of its value to be taken over. -/
def isMergeKey : Node → Bool
  | plain text => ScalarForm.of text == .merge
  | _ => false

/-- The entries that are taken over from a value: those of a mapping, or of several, of which the
first one is to hide the others. -/
def mergedEntries : Node → Option (List (Node × Node))
  | mapping _ entries => some entries
  | sequence items => do
    let all ← items.mapM fun
      | mapping _ entries => some entries
      | _ => none
    return all.reverse.flatten
  | _ => none

/-- Splits entries into those that are taken over and those that stand there. Only one key may ask
for entries, unless the earlier ones get none. -/
def splitEntries : List (Node × Node) → Option (List (Node × Node) × List (Node × Node))
  | [] => some ([], [])
  | (key, value) :: rest =>
    if key.isMergeKey then do
      let first ← value.mergedEntries
      let (taken, own) ← splitEntries rest
      if !first.isEmpty && rest.any (·.1.isMergeKey) then none else return (first ++ taken, own)
    else do
      let (taken, own) ← splitEntries rest
      return (taken, (key, value) :: own)

def ofEntries (entries : List (Node × Node)) : Node :=
  match splitEntries entries with
  | none => .unmergeable
  | some (taken, own) => .mapping (!taken.isEmpty) (taken ++ own)

/-- Whether a pair inside brackets ends here, with a comma or the closing bracket. -/
def endsPair (closing : Bracket) : List Token → Bool
  | .comma :: _ => true
  | .closing b :: _ => b == closing
  | _ => false

/-- What the tokens that are left have to say when they do not fit. -/
def misfit {α : Type} : List Token → Except Fault α
  | .fault f :: _ => .error f
  | _ => .error .malformed

mutual

def readInner : Nat → List Token → Except Fault (Node × List Token)
  | 0, ts => misfit ts
  | fuel + 1, ts =>
    match ts with
    | .scalar true text :: rest => .ok (.plain text, rest)
    | .scalar false text :: rest => .ok (.quoted text, rest)
    | .opening .square :: rest => do
      let (items, rest) ← readItems fuel rest
      return (.sequence items, rest)
    | .opening .curly :: rest => do
      let (entries, rest) ← readPairs fuel rest
      return (ofEntries entries, rest)
    | _ => misfit ts

/-- Reads a value behind its colon, if there is one, in a structure that `closing` ends. -/
def readPairValue : Nat → (closing : Bracket) → List Token → Except Fault (Node × List Token)
  | 0, _, ts => misfit ts
  | fuel + 1, closing, ts =>
    match ts with
    | .value :: rest =>
      if endsPair closing rest then .ok (empty, rest) else readInner fuel rest
    | _ => .ok (empty, ts)

def readPair : Nat → (closing : Bracket) → List Token → Except Fault ((Node × Node) × List Token)
  | 0, _, ts => misfit ts
  | fuel + 1, closing, ts => do
    let (key, rest) ←
      if ts.head? = some .value ∨ endsPair closing ts then pure (empty, ts) else readInner fuel ts
    let (value, rest) ← readPairValue fuel closing rest
    return ((key, value), rest)

/-- Reads the rest of a sequence in brackets. A key in it makes a mapping of one entry. -/
def readItems : Nat → List Token → Except Fault (List Node × List Token)
  | 0, ts => misfit ts
  | fuel + 1, ts => do
    if let .closing .square :: rest := ts then return ([], rest)
    let (item, rest) ← match ts with
      | .key :: rest => do
        let (entry, rest) ← readPair fuel .square rest
        pure (ofEntries [entry], rest)
      | _ => readInner fuel ts
    match rest with
    | .comma :: rest => do
      let (items, rest) ← readItems fuel rest
      return (item :: items, rest)
    | .closing .square :: rest => return ([item], rest)
    | _ => misfit rest

/-- Reads the rest of a mapping in brackets. An entry without a colon is a key by itself. -/
def readPairs : Nat → List Token → Except Fault (List (Node × Node) × List Token)
  | 0, ts => misfit ts
  | fuel + 1, ts => do
    if let .closing .curly :: rest := ts then return ([], rest)
    let (entry, rest) ← match ts with
      | .key :: rest => readPair fuel .curly rest
      | .value :: _ => do
        let (value, rest) ← readPairValue fuel .curly ts
        pure ((empty, value), rest)
      | _ => do
        let (key, rest) ← readInner fuel ts
        pure ((key, empty), rest)
    match rest with
    | .comma :: rest => do
      let (entries, rest) ← readPairs fuel rest
      return (entry :: entries, rest)
    | .closing .curly :: rest => return ([entry], rest)
    | _ => misfit rest

end

/-- Whether a key, a colon or the end of a structure comes next: then something was left out. -/
def endsEntry : List Token → Bool
  | .key :: _ | .value :: _ | .dedent :: _ => true
  | _ => false

def endsItem (inMapping : Bool) : List Token → Bool
  | .dash :: _ | .dedent :: _ => true
  | .key :: _ | .value :: _ => inMapping
  | _ => false

mutual

/-- Reads a node. Where a value of a mapping is read, its dashes may stand in the column of the
keys. -/
def read : Nat → (inMapping : Bool) → List Token → Except Fault (Node × List Token)
  | 0, _, ts => misfit ts
  | fuel + 1, inMapping, ts =>
    match ts with
    | .sequence :: rest => do
      let (items, rest) ← readDashes fuel false rest
      return (.sequence items, rest)
    | .mapping :: rest => do
      let (entries, rest) ← readEntries fuel rest
      return (ofEntries entries, rest)
    | .dash :: _ =>
      if inMapping then do
        let (items, rest) ← readDashes fuel true ts
        return (.sequence items, rest)
      else misfit ts
    | _ => readInner fuel ts

/-- Reads the items behind dashes. If these stand in the column of keys, nothing ends them but what
cannot belong to them. -/
def readDashes : Nat → (inMapping : Bool) → List Token → Except Fault (List Node × List Token)
  | 0, _, ts => misfit ts
  | fuel + 1, inMapping, ts =>
    match ts with
    | .dash :: rest => do
      let (item, rest) ←
        if endsItem inMapping rest then pure (empty, rest) else read fuel false rest
      let (items, rest) ← readDashes fuel inMapping rest
      return (item :: items, rest)
    | .dedent :: rest => .ok ([], if inMapping then ts else rest)
    | _ => if inMapping then .ok ([], ts) else misfit ts

def readEntries : Nat → List Token → Except Fault (List (Node × Node) × List Token)
  | 0, ts => misfit ts
  | fuel + 1, ts =>
    match ts with
    | .dedent :: rest => .ok ([], rest)
    | .key :: _ | .value :: _ => do
      let (key, rest) ← match ts with
        | .key :: rest => if endsEntry rest then pure (empty, rest) else read fuel true rest
        | _ => pure (empty, ts)
      let (value, rest) ← match rest with
        | .value :: rest => if endsEntry rest then pure (empty, rest) else read fuel true rest
        | _ => pure (empty, rest)
      let (entries, rest) ← readEntries fuel rest
      return ((key, value) :: entries, rest)
    | _ => misfit ts

end

/-- The structure of a document, `none` if it holds nothing. There may be a mark in front of it and
one behind it. -/
def readDocument (ts : List Token) : Except Fault (Option Node) := do
  if ts = [] then return none
  let (node, rest) ← match ts with
    | [.documentStart] | .documentStart :: .documentStart :: _
      | .documentStart :: .documentEnd :: _ => pure (empty, ts.drop 1)
    | .documentStart :: rest => read (3 * ts.length + 3) false rest
    | _ => read (3 * ts.length + 3) false ts
  let rest := if rest.head? = some .documentEnd then rest.drop 1 else rest
  if rest = [] then return some node else misfit rest

end Node
end Stencil.Yaml
