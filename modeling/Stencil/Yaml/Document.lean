import Stencil.Yaml.Node

namespace Stencil.Yaml

open Stencil

variable {φ : Type}

/-- A fault in a part of a document, and how deep it lies. -/
structure Flaw where
  depth : Nat
  fault : Fault
deriving DecidableEq, Repr

/-- A part of a document with its flaws, in order. The value of a flawed part is of no use. -/
structure Examined (α : Type) where
  value : α
  flaws : List Flaw

namespace Examined

def atDepth {α : Type} (e : Examined α) (depth : Nat) : Examined α :=
  { e with flaws := e.flaws.map fun f => { f with depth } }

def worst {α : Type} (e : Examined α) : Option Flaw :=
  e.flaws.foldl
    (fun least f => match least with
      | none => some f
      | some l => if f.depth < l.depth then some f else some l) none

/-- The value, unless there is a flaw. -/
def outcome {α : Type} (e : Examined α) : Except Fault α :=
  match e.worst with
  | none => .ok e.value
  | some f => .error f.fault

end Examined

/-- A key is no mapping and no list: a list is one as a tuple, whose parts are keys again. -/
def keyOf? : Value φ → Option (Value φ)
  | .mapping _ => none
  | .list items =>
    if items.any fun v => v.kind == .mapping || v.kind == .list then none else some (.tuple items)
  | v => some v

/-- Sets the value of a key: the first entry for it keeps its position and its form. -/
def putEntry (key value : Value φ) : Entries φ → Entries φ
  | [] => [(key, value)]
  | (k, v) :: rest => if sameKey k key then (k, value) :: rest else (k, v) :: putEntry key value rest

/-- Adds an entry with its flaws. A key that is there already is a flaw, unless it may be hidden. -/
def addEntry (takenOver : Bool) (depth : Nat) (all : Examined (Entries φ))
    (key value : Examined (Value φ)) : Examined (Entries φ) :=
  let flaw : List Flaw := [⟨depth, .malformed⟩]
  let flaws := all.flaws ++ (key.atDepth depth).flaws
  match keyOf? key.value with
  | none => ⟨all.value, flaws ++ flaw⟩
  | some k =>
    let twice := !takenOver && all.value.any (sameKey ·.1 k)
    ⟨putEntry k value.value all.value, flaws ++ value.flaws ++ (if twice then flaw else [])⟩

mutual

def Node.examine (depth : Nat) : Node → Examined (Value φ)
  | .plain text =>
    match plainValue text with
    | .ok v => ⟨v, []⟩
    | .error fault => ⟨.null, [⟨depth, fault⟩]⟩
  | .quoted text => ⟨.str (String.ofList text), []⟩
  | .sequence items =>
    let all := Node.examineItems (depth + 1) items
    ⟨.list all.value, all.flaws⟩
  | .mapping takenOver entries =>
    let all := Node.examineEntries takenOver (depth + 1) ⟨[], []⟩ entries
    ⟨.mapping all.value, all.flaws⟩
  | .unmergeable => ⟨.null, [⟨depth + 1, .malformed⟩]⟩

def Node.examineItems (depth : Nat) : List Node → Examined (List (Value φ))
  | [] => ⟨[], []⟩
  | n :: ns =>
    let first := n.examine depth
    let others := Node.examineItems depth ns
    ⟨first.value :: others.value, first.flaws ++ others.flaws⟩

def Node.examineEntries (takenOver : Bool) (depth : Nat) (all : Examined (Entries φ)) :
    List (Node × Node) → Examined (Entries φ)
  | [] => all
  | e :: es => Node.examineEntries takenOver depth (Node.examineEntry takenOver depth all e) es

def Node.examineEntry (takenOver : Bool) (depth : Nat) (all : Examined (Entries φ)) :
    Node × Node → Examined (Entries φ)
  | (key, value) =>
    let key : Examined (Value φ) := match key with
      | .plain ['='] => ⟨.str "=", []⟩
      | other => other.examine depth
    addEntry takenOver depth all key (value.examine depth)

end

/-- The value of a document; one that holds nothing has the value nothing. -/
def readDocument (text : List Char) : Except Fault (Value φ) := do
  match ← Node.readDocument (Token.readAll text) with
  | none => return .null
  | some node => (node.examine 0).outcome

end Stencil.Yaml
