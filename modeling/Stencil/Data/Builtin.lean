import Stencil.Data.Display

namespace Stencil

/-- The functions on offer. -/
inductive Builtin where
  /-- The argument itself. -/
  | id
  /-- Always the same value. -/
  | const (value : Value Builtin)
  /-- The value under a key of the argument, which has to be a mapping with that key. -/
  | get (key : String)
  /-- The text of the argument with the Latin letters in upper case. -/
  | upper
  /-- The text of the argument between two others. -/
  | wrap (left right : String)
  /-- The number of characters, elements or entries. -/
  | len
  /-- The list of the keys. -/
  | keys
  /-- No answer but an error. -/
  | raise (message : String)

namespace Builtin

def name : Builtin → String
  | .id => "id"
  | .const _ => "const"
  | .get _ => "get"
  | .upper => "upper"
  | .wrap _ _ => "wrap"
  | .len => "len"
  | .keys => "keys"
  | .raise _ => "raise"

instance : Handle Builtin := ⟨name⟩

def call (f : Builtin) (x : Value Builtin) : Except Raised (Value Builtin) :=
  match f with
  | .id => .ok x
  | .const value => .ok value
  | .get key =>
    let found := match x with
      | .mapping entries => Entries.get? entries key
      | _ => none
    match found with
    | some value => .ok value
    | none => .error (.thrown ("get: no " ++ key))
  | .upper => x.written.map fun text => .str (text.map Char.toUpper)
  | .wrap left right => x.written.map fun text => .str (left ++ text ++ right)
  | .len =>
    .ok <| .int <| match x with
      | .str s => s.length
      | .list items | .tuple items => items.length
      | .mapping entries => entries.length
      | _ => 0
  | .keys =>
    .ok <| .list <| match x with
      | .mapping entries => entries.map (·.1)
      | _ => []
  | .raise message => .error (.thrown message)

instance : Callable Builtin := ⟨call⟩

end Builtin
end Stencil
