import Stencil.Data.Builtin
import Stencil.Data.Record
import Stencil.Proofs.Data.Scopes
import Mathlib.Data.List.Induction

namespace Stencil

variable {φ : Type}

section Pairs

theorem Entries.get?_cons (key v : Value φ) (rest : Entries φ) (name : String) :
    Entries.get? ((key, v) :: rest) name = if key.isText name then some v else rest.get? name := by
  unfold Entries.get?
  rw [List.find?_cons]
  cases key.isText name <;> rfl

end Pairs

/-- A sequence without fields of its own, its first element, and the sequence of the others. -/
inductive Value.Splits : Value φ → Value φ → Value φ → Prop
  | list (first : Value φ) (rest : List (Value φ)) : Splits (.list (first :: rest)) first (.list rest)
  | tuple (first : Value φ) (rest : List (Value φ)) : Splits (.tuple (first :: rest)) first (.tuple rest)
  | text (c : Char) (cs : List Char) :
      Splits (.str (String.ofList (c :: cs))) (.str c.toString) (.str (String.ofList cs))

section Records

variable {names : List String} {values : List (Value φ)}

/-- Without its first element a sequence is one of the other values. -/
theorem Value.Splits.elements {v first rest : Value φ} (splits : v.Splits first rest) :
    ∃ others, v.elements = .ok (first :: others) ∧ rest.elements = .ok others := by
  cases splits with
  | list _ others | tuple _ others => exact ⟨others, rfl, rfl⟩
  | text c cs =>
    refine ⟨cs.map fun d => .str d.toString, ?_, ?_⟩
    · rw [Value.elements, String.toList_ofList, List.map_cons]
    · rw [Value.elements, String.toList_ofList]

end Records
end Stencil
