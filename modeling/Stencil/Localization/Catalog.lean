import Stencil.Data.Display

namespace Stencil

/-- The text for a key in a locale. -/
structure Message where
  locale : String
  domain : String
  key : String
  text : String
deriving DecidableEq, Repr

/-- The texts, latest first, and the pairs of locale and domain that anything was added for,
even if it was nothing. -/
structure Catalog where
  messages : List Message := []
  sections : List (String × String) := []
  frozen : Bool := false
deriving DecidableEq, Repr

namespace Catalog

/-- Why entries cannot be added. -/
inductive AddError where
  | frozen
  /-- A key or a value could not be taken as a text. -/
  | raised (r : Raised)
deriving DecidableEq, Repr

def AddError.message : AddError → String
  | frozen => "Translation catalog is frozen"
  | raised r => r.message

variable {φ : Type} [Handle φ]

def isVoid : Value φ → Bool
  | .null => true
  | .str s => s == ""
  | _ => false

/-- The entries that give a text. -/
def givenEntries (entries : Entries φ) : Entries φ :=
  entries.filter fun e => !isVoid e.2

/-- The texts that some entries give, in order. Keys and values are taken as texts. -/
def messagesOf (locale domain : String) (entries : Entries φ) : List Message :=
  (givenEntries entries).map fun e => ⟨locale, domain, e.1.shown, e.2.shown⟩

/-- Whether the entries that give a text can be taken as texts. -/
def areTexts (entries : Entries φ) : Bool :=
  Entries.areWritable (givenEntries entries)

def add (c : Catalog) (locale domain : String) (entries : Entries φ) : Except AddError Catalog :=
  if c.frozen then .error .frozen
  else if !areTexts entries then .error (.raised .tooManyDigits)
  else
    .ok { c with
      messages := (messagesOf locale domain entries).reverse ++ c.messages
      sections := (locale, domain) :: c.sections }

def freeze (c : Catalog) : Catalog := { c with frozen := true }

def find? (c : Catalog) (key locale domain : String) : Option String :=
  (c.messages.find? fun m => m.locale == locale && m.domain == domain && m.key == key).map (·.text)

/-- The language of a regional locale: what stands before the first underscore, or, in a locale
without one, before the first hyphen. -/
def baseLocale? (locale : String) : Option String :=
  let cs := locale.toList
  if cs.contains '_' then some (String.ofList (cs.takeWhile (· != '_')))
  else if cs.contains '-' then some (String.ofList (cs.takeWhile (· != '-')))
  else none

/-- The text for a locale, or else for its language. -/
def translate (c : Catalog) (key locale domain : String) : Option String :=
  match c.find? key locale domain with
  | some text => some text
  | none => (baseLocale? locale).bind fun base => c.find? key base domain

def locales (c : Catalog) : List String :=
  ((c.sections.map (·.1)).eraseDups).mergeSort

def domains (c : Catalog) : List String :=
  ((c.sections.map (·.2)).eraseDups).mergeSort

end Catalog
end Stencil
