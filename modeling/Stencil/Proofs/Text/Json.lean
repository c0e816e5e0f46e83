import Mathlib
import Stencil.CommandLine.Report

namespace Stencil

def hexValue (digit : Char) : Nat :=
  "0123456789abcdef".toList.idxOf digit

/-- Reads back a character of a text, and what follows it. There is none at the end of a text. -/
def readJsonChar : List Char → Option (Char × List Char)
  | '\\' :: 'n' :: cs => some ('\n', cs)
  | '\\' :: 'r' :: cs => some ('\r', cs)
  | '\\' :: 't' :: cs => some ('\t', cs)
  | '\\' :: 'b' :: cs => some ('\x08', cs)
  | '\\' :: 'f' :: cs => some ('\x0c', cs)
  | '\\' :: 'u' :: '0' :: '0' :: sixteens :: ones :: cs => some (.ofNat (16 * hexValue sixteens + hexValue ones), cs)
  | '\\' :: c :: cs => some (c, cs)
  | c :: cs => if c = '"' then none else some (c, cs)
  | [] => none

theorem readJsonChar_control {n : Nat} (control : n < 32) (cs : List Char) :
    readJsonChar (jsonChar (.ofNat n) ++ cs) = some (.ofNat n, cs) := by
  interval_cases n <;> rfl

/-- A character is itself in a text, unless it ends texts, escapes others, or controls what reads it. -/
theorem jsonChar_plain {c : Char} (mark : c ≠ '"') (escape : c ≠ '\\') (printed : 32 ≤ c.toNat) : jsonChar c = [c] := by
  have distinct {e : Char} (control : e.toNat < 32) : c ≠ e := by
    rintro rfl
    omega
  have feed : c ≠ '\n' := distinct (by decide)
  have carriage : c ≠ '\r' := distinct (by decide)
  have tab : c ≠ '\t' := distinct (by decide)
  have back : c ≠ '\x08' := distinct (by decide)
  have page : c ≠ '\x0c' := distinct (by decide)
  simp [jsonChar, mark, escape, feed, carriage, tab, back, page, Nat.not_lt.mpr printed]

theorem readJsonChar_jsonChar (c : Char) (cs : List Char) : readJsonChar (jsonChar c ++ cs) = some (c, cs) := by
  by_cases control : c.toNat < 32
  · simpa using readJsonChar_control control cs
  by_cases mark : c = '"'
  · rw [mark]
    rfl
  by_cases escape : c = '\\'
  · rw [escape]
    rfl
  rw [jsonChar_plain mark escape (Nat.not_lt.mp control), List.singleton_append, readJsonChar.eq_def]
  simp [mark, escape]

/-- Something about values that can be told from their texts, whatever follows these. -/
def Tells {α β : Type} (read : α → β) (write : α → List Char) : Prop :=
  ∀ a b s t, write a ++ s = write b ++ t → read a = read b ∧ s = t

theorem jsonChar_tells : Tells id jsonChar := by
  intro c d s t same
  have read := congrArg readJsonChar same
  rw [readJsonChar_jsonChar, readJsonChar_jsonChar] at read
  simpa using read

theorem jsonChar_append_ne (c : Char) (s t : List Char) : jsonChar c ++ s ≠ '"' :: t := by
  intro same
  have read := readJsonChar_jsonChar c s
  rw [same] at read
  cases read

theorem flatMap_jsonChar_tells : Tells id fun cs : List Char => cs.flatMap jsonChar ++ ['"'] := by
  intro cs
  induction cs with
  | nil =>
    rintro (_ | ⟨d, ds⟩) s t same
    · simpa using same
    · simp only [List.flatMap_cons, List.append_assoc] at same
      exact absurd same.symm (jsonChar_append_ne d _ _)
  | cons c cs ih =>
    rintro (_ | ⟨d, ds⟩) s t same
    · simp only [List.flatMap_cons, List.append_assoc] at same
      exact absurd same (jsonChar_append_ne c _ _)
    · simp only [List.flatMap_cons, List.append_assoc] at same
      obtain ⟨rfl, same⟩ := jsonChar_tells c d _ _ same
      obtain ⟨rfl, rfl⟩ := ih ds s t (by simpa using same)
      exact ⟨rfl, rfl⟩

theorem jsonText_tells : Tells id fun s : String => (jsonText s).toList := by
  intro a b s t same
  simp only [jsonText, String.toList_ofList, List.cons_append, List.cons.injEq, true_and] at same
  obtain ⟨letters, rest⟩ := flatMap_jsonChar_tells _ _ _ _ same
  exact ⟨String.toList_inj.mp letters, rest⟩

/-- A number ends where something stands that is no digit. -/
theorem jsonNumber_tells {c : Char} (stops : c.isDigit = false) :
    Tells id fun n : Nat => (jsonNumber n).toList ++ [c] := by
  have digits (n : Nat) : ∀ d ∈ (jsonNumber n).toList, d.isDigit = true := by
    intro d member
    rw [jsonNumber, Nat.toString_eq_repr, Nat.toList_repr] at member
    exact Nat.isDigit_of_mem_toDigits (by decide) (by decide) member
  have cut (n : Nat) (s : List Char) :
      ((jsonNumber n).toList ++ [c] ++ s).takeWhile (·.isDigit) = (jsonNumber n).toList := by
    rw [List.append_assoc, List.takeWhile_append_of_pos (digits n), List.singleton_append, List.takeWhile_cons, stops]
    exact List.append_nil _
  intro m n s t same
  have shown := congrArg (List.takeWhile (·.isDigit)) same
  rw [cut, cut] at shown
  obtain rfl : m = n := Nat.repr_injective (String.toList_inj.mp shown)
  exact ⟨rfl, List.append_cancel_left same⟩

section Arrays

variable {α β : Type} {read : α → β} {write : α → String}

/-- What stands behind the first value of an array. -/
def jsonRest (items : List String) : List Char :=
  items.flatMap (fun item => ',' :: ' ' :: item.toList) ++ [']']

theorem toList_jsonArray_cons (item : String) (items : List String) :
    (jsonArray (item :: items)).toList = '[' :: (item.toList ++ jsonRest items) := by
  have joined : (", ".intercalate (item :: items)).toList =
      item.toList ++ items.flatMap fun item => ',' :: ' ' :: item.toList := by
    induction items generalizing item with
    | nil => simp
    | cons next items ih => simp [String.intercalate_cons_cons, ih]
  simp [jsonArray, jsonRest, joined]

theorem jsonRest_tells (each : Tells read fun a => (write a).toList) :
    Tells (List.map read) fun as => jsonRest (as.map write) := by
  intro as
  induction as with
  | nil =>
    rintro (_ | ⟨b, bs⟩) s t same
    · simpa [jsonRest] using same
    · simp [jsonRest] at same
  | cons a as ih =>
    rintro (_ | ⟨b, bs⟩) s t same
    · simp [jsonRest] at same
    · obtain ⟨first, same⟩ := each a b (jsonRest (as.map write) ++ s) (jsonRest (bs.map write) ++ t) (by
        simpa [jsonRest] using same)
      obtain ⟨others, rfl⟩ := ih bs s t same
      exact ⟨congrArg₂ List.cons first others, rfl⟩

/-- An array tells about its values what each of them tells about itself, if none begins like the end of an array. -/
theorem jsonArray_tells (each : Tells read fun a => (write a).toList)
    (begins : ∀ a s t, (write a).toList ++ s ≠ ']' :: t) :
    Tells (List.map read) fun as => (jsonArray (as.map write)).toList := by
  have none : (jsonArray []).toList = ['[', ']'] := rfl
  rintro (_ | ⟨a, as⟩) (_ | ⟨b, bs⟩) s t same
  · simpa using same
  · simp only [List.map_nil, none, List.map_cons, toList_jsonArray_cons, List.cons_append, List.append_assoc,
      List.cons.injEq, true_and] at same
    exact absurd same.symm (begins b _ _)
  · simp only [List.map_nil, none, List.map_cons, toList_jsonArray_cons, List.cons_append, List.append_assoc,
      List.cons.injEq, true_and] at same
    exact absurd same (begins a _ _)
  · simp only [List.map_cons, toList_jsonArray_cons, List.cons_append, List.append_assoc, List.cons.injEq,
      true_and] at same
    obtain ⟨first, same⟩ := each a b _ _ same
    obtain ⟨others, rfl⟩ := jsonRest_tells each as bs s t same
    exact ⟨congrArg₂ List.cons first others, rfl⟩

end Arrays

theorem Reference.toList_json (r : Reference) :
    r.json.toList = "\x7b\"file\": ".toList ++ ((jsonText r.file.text).toList ++ (", \"key\": ".toList ++
      ((jsonText r.key).toList ++ (", \"line\": ".toList ++ ((jsonNumber r.line).toList ++ ['\x7d']))))) := by
  have file : jsonText "file" = "\"file\"" := by decide
  have key : jsonText "key" = "\"key\"" := by decide
  have line : jsonText "line" = "\"line\"" := by decide
  simp [Reference.json, jsonObject, file, key, line]

theorem Reference.json_tells : Tells (fun r : Reference => (r.file.text, r.key, r.line)) fun r => r.json.toList := by
  intro r r' s t same
  simp only [Reference.toList_json, List.append_assoc] at same
  obtain ⟨file, same⟩ := jsonText_tells _ _ _ _ (List.append_cancel_left same)
  obtain ⟨key, same⟩ := jsonText_tells _ _ _ _ (List.append_cancel_left same)
  have line := jsonNumber_tells (c := '\x7d') rfl r.line r'.line s t (by
    simpa using List.append_cancel_left same)
  exact ⟨Prod.ext file (Prod.ext key line.1), line.2⟩

/-- What is told about the places of texts is these places, in this order. -/
theorem referencesJson_injective {rs rs' : List Reference} (same : referencesJson rs = referencesJson rs') :
    rs.map (fun r => (r.file.text, r.key, r.line)) = rs'.map fun r => (r.file.text, r.key, r.line) := by
  have begins (r : Reference) (s t : List Char) : r.json.toList ++ s ≠ ']' :: t := by
    simp [Reference.toList_json]
  have letters : (jsonArray (rs.map Reference.json)).toList ++ [] = (jsonArray (rs'.map Reference.json)).toList ++ [] :=
    congrArg (String.toList · ++ []) same
  exact (jsonArray_tells Reference.json_tells begins rs rs' [] [] letters).1

end Stencil
