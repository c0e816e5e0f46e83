import Stencil.Data.Builtin
import Stencil.Proofs.Data.Scopes
import Stencil.Proofs.Traced
import Stencil.Render.Run

namespace Stencil

variable {φ : Type} {m : Type → Type} [Monad m]

/-- The same obstacle, at the same segment, on another path. -/
def Unresolved.on (path : Path) (e : Unresolved) : Unresolved := { e with path }

/-- What a path resolves to, with or without a call at the end, where `call` tells what it is to call a function and
may do anything besides. -/
def Context.resolve (call : φ → Value φ → m (Value φ)) (c : Context φ) (path : Path) (invoke : Bool) :
    m (Except Unresolved (Value φ)) :=
  match c.find path, invoke with
  | .ok (.func f), true => .ok <$> call f (.mapping c.root)
  | found, _ => pure found

section Following

variable {path : Path} {v : Value φ}

theorem Value.follow_append (p q : Path) : v.follow path (p ++ q) = v.follow path p >>= fun w => w.follow path q := by
  induction p generalizing v with
  | nil => rfl
  | cons segment p ih =>
    cases v with
    | mapping entries =>
      simp only [List.cons_append, Value.follow]
      cases Entries.get? entries segment with
      | none => rfl
      | some next => exact ih
    | _ => rfl

/-- The whole path only shows in the error. -/
theorem Value.follow_on (whole rest : Path) :
    v.follow whole rest = (v.follow path rest).mapError (Unresolved.on whole) := by
  induction rest generalizing v with
  | nil => rfl
  | cons segment rest ih =>
    cases v with
    | mapping entries =>
      simp only [Value.follow]
      cases Entries.get? entries segment with
      | none => rfl
      | some next => exact ih
    | _ => rfl

theorem Value.follow_of_kind {q : Path} (goesOn : q ≠ []) (other : v.kind ≠ .mapping) :
    v.follow path q = .error ⟨path, q.head goesOn, .notIndexable v.kind⟩ := by
  cases q with
  | nil => exact absurd rfl goesOn
  | cons segment q =>
    cases v with
    | mapping entries => exact absurd rfl other
    | _ => rfl

end Following

section Finding

variable {p q : Path} {c : Context φ}

theorem Context.find_append (begins : p ≠ []) :
    c.find (p ++ q) = (c.find p).mapError (Unresolved.on (p ++ q)) >>= fun v => v.follow (p ++ q) q := by
  cases p with
  | nil => exact absurd rfl begins
  | cons head p =>
    simp only [List.cons_append, find]
    cases c.lookup head with
    | none => rfl
    | some v =>
      exact (Value.follow_append p q).trans (congrArg (· >>= _) (Value.follow_on _ p))

/-- In a single scope a path is followed from the scope on. -/
theorem Context.find_of_scope (entries : Entries φ) (goesOn : q ≠ []) :
    Context.find ⟨[], entries⟩ q = (Value.mapping entries).follow q q := by
  cases q with
  | nil => exact absurd rfl goesOn
  | cons head q => rw [find, Value.follow, lookup_of_scope]

end Finding

section Resolving

variable (call : φ → Value φ → m (Value φ)) (c : Context φ) {path : Path} {invoke : Bool}

theorem Context.resolve_of_error {e : Unresolved} (none : c.find path = .error e) :
    c.resolve call path invoke = pure (.error e) := by
  unfold resolve
  rw [none]

theorem Context.resolve_of_ok {v : Value φ} (found : c.find path = .ok v)
    (silent : invoke = false ∨ v.kind ≠ .callable) : c.resolve call path invoke = pure (.ok v) := by
  unfold resolve
  rw [found]
  cases v with
  | func f =>
    rcases silent with rfl | other
    · rfl
    · exact absurd rfl other
  | _ => rfl

theorem Context.resolve_of_func {f : φ} (found : c.find path = .ok (.func f)) :
    c.resolve call path true = .ok <$> call f (.mapping c.root) := by
  unfold resolve
  rw [found]

theorem Context.resolve_false : c.resolve call path false = pure (c.find path) := by
  cases found : c.find path with
  | error e => exact c.resolve_of_error call found
  | ok v => exact c.resolve_of_ok call found (.inl rfl)

/-- In a run a call has no effect but its answer. -/
theorem valueAt_eq_resolve [Callable φ] :
    valueAt c path = c.resolve (fun f x => Outcome.ofCall (Callable.call f x)) path true := by
  unfold valueAt
  cases found : c.find path with
  | error e => rw [c.resolve_of_error _ found]
  | ok v =>
    cases v with
    | func f =>
      rw [c.resolve_of_func _ found, map_eq_pure_bind]
      rfl
    | _ =>
      rw [c.resolve_of_ok _ found (.inr nofun)]
      rfl

end Resolving

/-- A path in two parts. If the first part leads nowhere, the whole path ends at the same segment for the same reason.
If it leads to what is no mapping, it ends where the second part begins; a function there is not called. And if it
leads to a mapping, the whole path leads where the second part does with that mapping as the only scope: it ends
where that ends, and finds what that finds. A function that is found is called if it is to be, once and with the
outermost scope of all, and its answer is final. An error always has the whole path. A run resolves its paths in this
way, and where no function is to be called it goes by what is found. -/
theorem Context.resolve_append [Callable φ] (call : φ → Value φ → m (Value φ)) (c : Context φ) {p q : Path}
    (begins : p ≠ []) (goesOn : q ≠ []) :
    (∀ e, c.find p = .error e →
      ∀ invoke, c.resolve call (p ++ q) invoke = pure (.error ⟨p ++ q, e.segment, e.obstacle⟩)) ∧
    (∀ v, c.find p = .ok v → v.kind ≠ .mapping →
      ∀ invoke, c.resolve call (p ++ q) invoke = pure (.error ⟨p ++ q, q.head goesOn, .notIndexable v.kind⟩)) ∧
    (∀ v, c.find p = .ok v → v.kind = .mapping → ∃ inner, Context.ofScopes [v] = .ok inner ∧
      (∀ e, inner.find q = .error e →
        ∀ invoke, c.resolve call (p ++ q) invoke = pure (.error ⟨p ++ q, e.segment, e.obstacle⟩)) ∧
      (∀ w, inner.find q = .ok w →
        ∀ invoke, invoke = false ∨ w.kind ≠ .callable → c.resolve call (p ++ q) invoke = pure (.ok w)) ∧
      (∀ f, inner.find q = .ok (.func f) →
        c.resolve call (p ++ q) true = .ok <$> call f (.mapping c.root))) ∧
    (∀ path, c.resolve call path false = pure (c.find path) ∧
      valueAt c path = c.resolve (fun f x => Outcome.ofCall (Callable.call f x)) path true) := by
  have whole := c.find_append (q := q) begins
  refine ⟨fun e none invoke => ?_, fun v found other invoke => ?_, fun v found scope => ?_,
    fun path => ⟨c.resolve_false call, valueAt_eq_resolve c⟩⟩
  · rw [none] at whole
    exact c.resolve_of_error call whole
  · rw [found] at whole
    exact c.resolve_of_error call (whole.trans (Value.follow_of_kind goesOn other))
  · obtain ⟨entries, rfl⟩ : ∃ entries, v = .mapping entries := by
      cases v with
      | mapping entries => exact ⟨entries, rfl⟩
      | _ => cases scope
    refine ⟨⟨[], entries⟩, rfl, ?_⟩
    have inside : c.find (p ++ q) = (Context.find ⟨[], entries⟩ q).mapError (Unresolved.on (p ++ q)) := by
      rw [whole, found, find_of_scope entries goesOn]
      exact Value.follow_on (p ++ q) q
    refine ⟨fun e none invoke => ?_, fun w behind invoke silent => ?_, fun f behind => ?_⟩
    · rw [none] at inside
      exact c.resolve_of_error call inside
    · rw [behind] at inside
      exact c.resolve_of_ok call inside silent
    · rw [behind] at inside
      exact c.resolve_of_func call inside

/-- With a record of all calls: a function in a mapping that an inner scope holds is called once, with the outermost
scope, and the function that it answers with is not called. -/
theorem Context.resolve_append_of_record :
    let call : Builtin → Value Builtin → Traced (Builtin × Value Builtin) Raised (Value Builtin) :=
      fun f x => ⟨[(f, x)], Callable.call f x⟩
    let f : Builtin := .const (.func .id)
    let c : Context Builtin := ⟨[[(.str "a", .mapping [(.str "f", .func f)])]], [(.str "a", .null)]⟩
    ["a"] ≠ [] ∧ ["f"] ≠ [] ∧ c.find ["a"] = .ok (.mapping [(.str "f", .func f)]) ∧
      c.resolve call (["a"] ++ ["f"]) true = ⟨[(f, .mapping c.root)], .ok (.ok (.func .id))⟩ := by
  intro call f c
  have begins : ["a"] ≠ [] := List.cons_ne_nil _ _
  have goesOn : ["f"] ≠ [] := List.cons_ne_nil _ _
  obtain ⟨-, -, scope, -⟩ := resolve_append call c begins goesOn
  obtain ⟨inner, own, -, -, called⟩ := scope _ rfl rfl
  cases own
  exact ⟨begins, goesOn, rfl, (called f rfl).trans rfl⟩

end Stencil
