import Stencil.Data.Resolve

namespace Stencil

variable {φ : Type}

/-- Two chains in which every name has the same value, or none in both, and whose outermost scopes are
the same. -/
structure Context.Alike (c d : Context φ) : Prop where
  root : c.root = d.root
  lookup : ∀ name, c.lookup name = d.lookup name

theorem Context.lookup_of_scope (entries : Entries φ) (name : String) :
    Context.lookup ⟨[], entries⟩ name = entries.get? name :=
  List.findSome?_singleton

theorem Context.lookup_push (c : Context φ) (scope : Entries φ) (name : String) :
    (c.push scope).lookup name = (scope.get? name).or (c.lookup name) := by
  rw [lookup, scopes, push, List.cons_append, List.findSome?_cons]
  cases scope.get? name <;> rfl

namespace Context.Alike

variable {c d : Context φ}

theorem refl (c : Context φ) : c.Alike c := ⟨rfl, fun _ => rfl⟩

variable (alike : c.Alike d)

include alike

/-- A scope inside both hides the same names in both. -/
theorem push (scope : Entries φ) : (c.push scope).Alike (d.push scope) where
  root := alike.root
  lookup name := by rw [lookup_push, lookup_push, alike.lookup name]

theorem find (path : Path) : c.find path = d.find path := by
  cases path with
  | nil => rfl
  | cons head rest => rw [Context.find, Context.find, alike.lookup head]

theorem settle [Callable φ] (v : Value φ) : c.settle v = d.settle v := by
  cases v with
  | func f => rw [Context.settle, Context.settle, alike.root]
  | _ => rfl

end Context.Alike

section Merging

/-- The entries of one mapping over those of another: of two entries for the same key, as `same` tells, the
first mapping's counts. -/
def Entries.over (same : Value φ → Value φ → Bool) (inner outer : Entries φ) : Entries φ :=
  inner ++ outer.filter fun e => !inner.any fun d => same d.1 e.1

/-- All scopes inside the outermost one as a single scope, in which the inner ones count first. -/
def Context.merged (same : Value φ → Value φ → Bool) (c : Context φ) : Context φ :=
  ⟨[c.inner.foldr (Entries.over same) []], c.root⟩

theorem Value.eq_of_isText {v : Value φ} {name : String} (text : v.isText name = true) : v = .str name := by
  cases v <;> simp_all [Value.isText]

variable {same : Value φ → Value φ → Bool} (texts : ∀ key name, same key (.str name) = key.isText name)

include texts

/-- An entry of the outer mapping whose key is the text `name` is only left out for an inner one with that key. -/
theorem Entries.find?_kept {inner : Entries φ} {name : String} (absent : inner.find? (·.1.isText name) = none)
    (outer : Entries φ) :
    (outer.filter fun e => !inner.any fun d => same d.1 e.1).find? (·.1.isText name) =
      outer.find? (·.1.isText name) := by
  rw [List.find?_filter]
  congr 1
  funext e
  cases text : e.1.isText name with
  | false => simp
  | true =>
    have missing : inner.any (fun d => same d.1 e.1) = false := by
      rw [Value.eq_of_isText text, List.any_eq_false]
      intro d member
      rw [texts]
      exact List.find?_eq_none.mp absent d member
    simp [missing]

theorem Entries.get?_over (inner outer : Entries φ) (name : String) :
    (inner.over same outer).get? name = (inner.get? name).or (outer.get? name) := by
  unfold Entries.get? Entries.over
  rw [List.find?_append, Option.map_or]
  cases atName : inner.find? (·.1.isText name) with
  | some e => rfl
  | none => rw [Entries.find?_kept texts atName]

theorem Entries.get?_overAll (inner : List (Entries φ)) (name : String) :
    Entries.get? (inner.foldr (Entries.over same) []) name = inner.findSome? (·.get? name) := by
  induction inner with
  | nil => rfl
  | cons scope inner ih =>
    rw [List.foldr_cons, Entries.get?_over texts, ih, List.findSome?_cons]
    cases scope.get? name <;> rfl

/-- Merging the scopes inside the outermost one cannot be noticed. -/
theorem Context.alike_merged (c : Context φ) : c.Alike (c.merged same) where
  root := rfl
  lookup name := by
    have inside : (c.merged same).inner.findSome? (·.get? name) = c.inner.findSome? (·.get? name) := by
      rw [merged, List.findSome?_singleton, Entries.get?_overAll texts]
    rw [lookup, lookup, scopes, scopes, List.findSome?_append, List.findSome?_append, inside]
    rfl

end Merging

end Stencil
