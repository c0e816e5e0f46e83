import Stencil.Traced

namespace Stencil.Traced

variable {ε φ α β γ : Type}

@[simp] theorem events_pure (a : α) : (pure a : Traced ε φ α).events = [] := rfl

@[simp] theorem answer_pure (a : α) : (pure a : Traced ε φ α).answer = .ok a := rfl

theorem bind_of_ok {x : Traced ε φ α} {a : α} (answer : x.answer = .ok a) (f : α → Traced ε φ β) :
    x >>= f = ⟨x.events ++ (f a).events, (f a).answer⟩ := by
  change andThen x f = _
  rw [andThen, answer]

theorem bind_of_error {x : Traced ε φ α} {e : φ} (answer : x.answer = .error e)
    (f : α → Traced ε φ β) : x >>= f = ⟨x.events, .error e⟩ := by
  change andThen x f = _
  rw [andThen, answer]

/-- What comes second is only of account where the first part has an answer. -/
theorem bind_congr {x : Traced ε φ α} {f g : α → Traced ε φ β} (same : ∀ a, x.answer = .ok a → f a = g a) :
    x >>= f = x >>= g := by
  cases answer : x.answer with
  | error e => rw [bind_of_error answer, bind_of_error answer]
  | ok a => rw [bind_of_ok answer, bind_of_ok answer, same a answer]

theorem answer_bind (x : Traced ε φ α) (f : α → Traced ε φ β) :
    (x >>= f).answer = x.answer >>= fun a => (f a).answer := by
  cases answer : x.answer with
  | error e =>
    rw [bind_of_error answer]
    rfl
  | ok a =>
    rw [bind_of_ok answer]
    rfl

/-- Parts can be grouped in any way: the events stay in order, and the first error ends all. -/
theorem bind_assoc (x : Traced ε φ α) (f : α → Traced ε φ β) (g : β → Traced ε φ γ) :
    x >>= f >>= g = x >>= fun a => f a >>= g := by
  cases first : x.answer with
  | error e => rw [bind_of_error first, bind_of_error first, bind_of_error rfl]
  | ok a =>
    rw [bind_of_ok first, bind_of_ok first]
    cases second : (f a).answer with
    | error e => rw [bind_of_error second, bind_of_error rfl]
    | ok b =>
      rw [bind_of_ok second, bind_of_ok rfl]
      simp only [List.append_assoc]

instance : LawfulMonad (Traced ε φ) := by
  refine .mk' _ ?_ (fun _ _ => rfl) bind_assoc
  intro α x
  cases answer : x.answer with
  | error e =>
    change x >>= (fun a => pure (id a)) = x
    rw [bind_of_error answer, ← answer]
  | ok a =>
    change x >>= (fun a => pure (id a)) = x
    rw [bind_of_ok answer, events_pure, answer_pure, List.append_nil, id_eq, ← answer]

/-- The same result with only those events that pass a test. -/
def keep (test : ε → Bool) (x : Traced ε φ α) : Traced ε φ α :=
  ⟨x.events.filter test, x.answer⟩

section Keep

variable (test : ε → Bool)

theorem keep_tell (e : ε) :
    (tell e : Traced ε φ Unit).keep test = if test e then tell e else pure () := by
  by_cases kept : test e <;> simp only [keep, tell, List.filter_cons, List.filter_nil, kept] <;> rfl

/-- Events are forgotten part by part, since no part looks at the events before it. -/
@[simp] theorem keep_bind (x : Traced ε φ α) (f : α → Traced ε φ β) :
    (x >>= f).keep test = x.keep test >>= fun a => (f a).keep test := by
  cases answer : x.answer with
  | error e =>
    rw [bind_of_error answer, bind_of_error (x := x.keep test) answer]
    rfl
  | ok a =>
    rw [bind_of_ok answer, bind_of_ok (x := x.keep test) answer]
    simp only [keep, List.filter_append]

end Keep

end Stencil.Traced
