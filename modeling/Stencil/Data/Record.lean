import Stencil.Data.Context
import Stencil.Data.Display

namespace Stencil

/-- What can be paired with field names. -/
inductive Record (φ : Type) where
  /-- A value that is read as a sequence. -/
  | plain (v : Value φ)
  /-- A record of a type with named fields. -/
  | named (typeName : String) (fields : List (String × Value φ))
  /-- A type of records, which is not itself a record. -/
  | type

/-- Why a record is no mapping. -/
inductive RecordError where
  | namesRequired (typeName : String)
  | notEnoughKeys (expected got : Nat)
  | tooManyKeys (expected got : Nat)
  | empty
  /-- What should be read as a sequence is none. -/
  | notIterable (typeName : String)
  /-- The name of a record could not be made a text. -/
  | raised (r : Raised)
deriving DecidableEq, Repr

def RecordError.message : RecordError → String
  | namesRequired typeName => "Field names are required for " ++ typeName ++ " records"
  | notEnoughKeys expected got =>
    "Not enough keys: record has " ++ toString expected ++ " fields, got " ++ toString got
      ++ " names"
  | tooManyKeys expected got =>
    "Too many keys: record has " ++ toString expected ++ " fields, got " ++ toString got
      ++ " names"
  | empty => "Record is empty, expected (name, *values)"
  | notIterable typeName => "'" ++ typeName ++ "' object is not iterable"
  | raised r => r.message

variable {φ : Type}

/-- The name of the type of a value with the module that it is from, if that is not the main one. -/
def Value.fullTypeName (v : Value φ) : String :=
  match v with
  | .moment _ => "datetime." ++ v.typeName
  | _ => v.typeName

/-- The elements of a value that is read as a sequence: a text has its characters, and a mapping its
keys. -/
def Value.elements (v : Value φ) : Except RecordError (List (Value φ)) :=
  match v with
  | .list items | .tuple items => .ok items
  | .str s => .ok (s.toList.map fun c => .str c.toString)
  | .mapping entries => .ok (entries.map (·.1))
  | v => .error (.notIterable v.fullTypeName)

/-- The mapping with the given pairs. Of two pairs with one name the later gives the value, and the
earlier the position. -/
def Entries.ofPairs (pairs : List (String × Value φ)) : Entries φ :=
  pairs.foldl (fun entries (name, value) => entries.put name value) []

def pairUp (names : List String) (values : List (Value φ)) : Except RecordError (Entries φ) :=
  if names.length < values.length then .error (.notEnoughKeys values.length names.length)
  else if values.length < names.length then .error (.tooManyKeys values.length names.length)
  else .ok (.ofPairs (names.zip values))

namespace Record

def typeName : Record φ → String
  | .plain v => v.typeName
  | .named name _ => name
  | .type => "type"

def values : Record φ → Except RecordError (List (Value φ))
  | .plain v => v.elements
  | .named _ fields => .ok (fields.map (·.2))
  | .type => .error (.notIterable "type")

/-- A record as a mapping, under the given names or else under those of its own fields. -/
def entries (r : Record φ) (names : Option (List String)) : Except RecordError (Entries φ) :=
  match names, r with
  | some names, r => do pairUp names (← r.values)
  | none, .named _ fields => .ok (.ofPairs fields)
  | none, r => .error (.namesRequired r.typeName)

/-- A record as a mapping under its name. A record with fields of its own is named by its type; of
any other the first element is the name, and the others are the values. -/
def namedEntries [Handle φ] (r : Record φ) (names : Option (List String)) :
    Except RecordError (Entries φ) := do
  match r with
  | .named name _ => return [(.str name, .mapping (← r.entries names))]
  | r =>
    match ← r.values with
    | [] => .error .empty
    | first :: rest =>
      let name ← (first.guarded first.shown).mapError .raised
      return [(.str name, .mapping (← (Record.plain (.tuple rest)).entries names))]

end Record
end Stencil
