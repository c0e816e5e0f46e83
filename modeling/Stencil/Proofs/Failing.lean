import Stencil.Proofs.Traced

namespace Stencil

variable {ε ε' φ ψ α β : Type} {P Q : φ → Prop}

/-- If the result is an error, it has the property. -/
def FailsAs (P : φ → Prop) (r : Except φ α) : Prop :=
  ∀ e, r = .error e → P e

/-- Telling errors in other words makes no answers. -/
theorem ok_of_mapError {r : Except φ α} {g : φ → ψ} {a : α} (answer : r.mapError g = .ok a) : r = .ok a := by
  cases r with
  | error e => cases answer
  | ok b =>
    cases answer
    rfl

/-- Two parts have an answer together only if each of them has one. -/
theorem exists_of_bind_ok {r : Except φ α} {f : α → Except φ β} {b : β} (answer : r >>= f = .ok b) :
    ∃ a, r = .ok a ∧ f a = .ok b := by
  cases r with
  | error e => cases answer
  | ok a => exact ⟨a, rfl, answer⟩

/-- A list has answers only if each of its elements has one, and they are these. -/
theorem map_of_mapM_ok {f : α → Except φ β} {xs : List α} {ys : List β} (answers : xs.mapM f = .ok ys) :
    xs.map f = ys.map .ok := by
  induction xs generalizing ys with
  | nil =>
    cases answers
    rfl
  | cons x xs ih =>
    rw [List.mapM_cons] at answers
    obtain ⟨y, first, answers⟩ := exists_of_bind_ok answers
    obtain ⟨zs, rest, answers⟩ := exists_of_bind_ok answers
    cases answers
    rw [List.map_cons, List.map_cons, first, ih rest]

namespace FailsAs

theorem ok (a : α) : FailsAs P (.ok a) := nofun

theorem error {e : φ} (holds : P e) : FailsAs P (.error e : Except φ α) := by
  rintro _ ⟨⟩
  exact holds

theorem mono {r : Except φ α} (fails : FailsAs P r) (weaker : ∀ e, P e → Q e) : FailsAs Q r :=
  fun e failed => weaker e (fails e failed)

theorem bind {r : Except φ α} {f : α → Except φ β} (first : FailsAs P r)
    (second : ∀ a, r = .ok a → FailsAs P (f a)) : FailsAs P (r >>= f) := by
  cases r with
  | error e => exact .error (first e rfl)
  | ok a => exact second a rfl

theorem mapError {r : Except φ α} {g : φ → ψ} {P : ψ → Prop} (fails : FailsAs (fun e => P (g e)) r) :
    FailsAs P (r.mapError g) := by
  cases r with
  | error e => exact .error (fails e rfl)
  | ok a => exact .ok a

theorem map {r : Except φ α} (fails : FailsAs P r) (f : α → β) : FailsAs P (r.map f) := by
  cases r with
  | error e => exact .error (fails e rfl)
  | ok a => exact .ok (f a)

theorem mapM {f : α → Except φ β} {xs : List α} (each : ∀ x ∈ xs, FailsAs P (f x)) : FailsAs P (xs.mapM f) := by
  induction xs with
  | nil => exact .ok []
  | cons x xs ih =>
    rw [List.mapM_cons]
    refine .bind (each x List.mem_cons_self) fun _ _ => .bind (ih fun y member => ?_) fun _ _ => .ok _
    exact each y (List.mem_cons_of_mem x member)

/-- The errors of traced results are those of their answers. -/
theorem answer_bind {x : Traced ε φ α} {f : α → Traced ε φ β} (first : FailsAs P x.answer)
    (second : ∀ a, x.answer = .ok a → FailsAs P (f a).answer) : FailsAs P (x >>= f).answer := by
  rw [Traced.answer_bind]
  exact .bind first second

end FailsAs
end Stencil
