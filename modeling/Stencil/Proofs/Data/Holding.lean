import Stencil.Data.Display
import Stencil.Data.Resolve

namespace Stencil

variable {φ : Type}

mutual

/-- All functions in the value, also those inside lists and mappings, have the property. -/
def Value.HoldsOnly (P : φ → Prop) : Value φ → Prop
  | .func f => P f
  | .list items | .tuple items => Value.AllHoldOnly P items
  | .mapping entries => Entries.HoldOnly P entries
  | .null | .bool _ | .int _ | .float _ | .str _ | .moment _ | .template _ => True

def Value.AllHoldOnly (P : φ → Prop) : List (Value φ) → Prop
  | [] => True
  | v :: vs => v.HoldsOnly P ∧ Value.AllHoldOnly P vs

def Entries.HoldOnly (P : φ → Prop) : List (Value φ × Value φ) → Prop
  | [] => True
  | e :: es => Entry.HoldsOnly P e ∧ Entries.HoldOnly P es

def Entry.HoldsOnly (P : φ → Prop) : Value φ × Value φ → Prop
  | (key, v) => key.HoldsOnly P ∧ v.HoldsOnly P

end

/-- A property of values that is handed on to the values that stand in them. -/
structure Inherited (V : Value φ → Prop) : Prop where
  entry {entries : Entries φ} {key v : Value φ} : V (.mapping entries) → (key, v) ∈ entries → V v
  item {items : List (Value φ)} {v : Value φ} : V (.list items) → v ∈ items → V v
  part {items : List (Value φ)} {v : Value φ} : V (.tuple items) → v ∈ items → V v

/-- The property is handed on to what functions answer, too. -/
structure Closed [Callable φ] (V : Value φ → Prop) : Prop extends Inherited V where
  answer {f : φ} {x v : Value φ} : V (.func f) → V x → Callable.call f x = .ok v → V v

theorem Closed.all [Callable φ] : Closed fun _ : Value φ => True := by
  constructor
  · constructor <;> intros <;> trivial
  · intros
    trivial

section Parts

variable {P : φ → Prop}

theorem Value.AllHoldOnly.mem {vs : List (Value φ)} (all : Value.AllHoldOnly P vs) {v : Value φ}
    (member : v ∈ vs) : v.HoldsOnly P := by
  induction vs with
  | nil => cases member
  | cons w ws ih =>
    rw [Value.AllHoldOnly] at all
    rcases List.mem_cons.mp member with rfl | later
    · exact all.1
    · exact ih all.2 later

theorem Entries.HoldOnly.mem {entries : Entries φ} (all : Entries.HoldOnly P entries)
    {e : Value φ × Value φ} (member : e ∈ entries) : e.2.HoldsOnly P := by
  induction entries with
  | nil => cases member
  | cons d ds ih =>
    rw [Entries.HoldOnly] at all
    rcases List.mem_cons.mp member with rfl | later
    · obtain ⟨key, v⟩ := e
      rw [Entry.HoldsOnly] at all
      exact all.1.2
    · exact ih all.2 later

theorem Inherited.holdsOnly (P : φ → Prop) : Inherited (Value.HoldsOnly P) where
  entry held member := by
    rw [Value.HoldsOnly] at held
    exact held.mem member
  item held member := by
    rw [Value.HoldsOnly] at held
    exact held.mem member
  part held member := by
    rw [Value.HoldsOnly] at held
    exact held.mem member

theorem Value.areWritable_iff {vs : List (Value φ)} :
    Value.areWritable vs = true ↔ ∀ v ∈ vs, v.isWritable = true := by
  induction vs with
  | nil => simp [Value.areWritable]
  | cons v vs ih => simp [Value.areWritable, ih]

theorem Entries.areWritable_iff {entries : Entries φ} :
    Entries.areWritable entries = true ↔ ∀ e ∈ entries, e.1.isWritable = true ∧ e.2.isWritable = true := by
  induction entries with
  | nil => simp [Entries.areWritable]
  | cons e es ih =>
    obtain ⟨key, v⟩ := e
    simp [Entries.areWritable, Entry.isWritable, ih]

theorem Inherited.isWritable : Inherited fun v : Value φ => v.isWritable = true where
  entry writable member := by
    rw [Value.isWritable, Entries.areWritable_iff] at writable
    exact (writable _ member).2
  item writable member := by
    rw [Value.isWritable, Value.areWritable_iff] at writable
    exact writable _ member
  part writable member := by
    rw [Value.isWritable, Value.areWritable_iff] at writable
    exact writable _ member

end Parts

section Combined

variable {V W : Value φ → Prop}

theorem Inherited.and (first : Inherited V) (second : Inherited W) : Inherited fun v => V v ∧ W v where
  entry held member := ⟨first.entry held.1 member, second.entry held.2 member⟩
  item held member := ⟨first.item held.1 member, second.item held.2 member⟩
  part held member := ⟨first.part held.1 member, second.part held.2 member⟩

theorem Inherited.under (condition : Prop) (inherited : Inherited V) : Inherited fun v => condition → V v where
  entry held member holds := inherited.entry (held holds) member
  item held member holds := inherited.item (held holds) member
  part held member holds := inherited.part (held holds) member

/-- Where there is no function there is no answer of one. -/
theorem Inherited.closed [Callable φ] (inherited : Inherited V) (none : ∀ f, ¬V (.func f)) : Closed V where
  toInherited := inherited
  answer known := absurd known (none _)

end Combined

/-- All scopes have the property. -/
def Context.All (V : Value φ → Prop) (ctx : Context φ) : Prop :=
  ∀ scope ∈ ctx.scopes, V (.mapping scope)

variable {V : Value φ → Prop} (inherited : Inherited V)

include inherited

theorem Inherited.get? {entries : Entries φ} (mapping : V (.mapping entries)) {name : String} {v : Value φ}
    (found : Entries.get? entries name = some v) : V v := by
  obtain ⟨e, atName, rfl⟩ := Option.map_eq_some_iff.mp found
  exact inherited.entry mapping (List.mem_of_find?_eq_some atName)

theorem Inherited.follow {path rest : Path} {v w : Value φ} (held : V v) (found : v.follow path rest = .ok w) :
    V w := by
  induction rest generalizing v with
  | nil =>
    cases found
    exact held
  | cons segment rest ih =>
    unfold Value.follow at found
    split at found
    · split at found
      · rename_i atSegment
        exact ih (inherited.get? held atSegment) found
      · cases found
    · cases found

omit inherited in
/-- A chain of one scope. -/
theorem Context.All.single {scope : Entries φ} (held : V (.mapping scope)) : Context.All V ⟨[], scope⟩ := by
  intro only member
  cases List.mem_singleton.mp member
  exact held

namespace Context.All

variable {ctx : Context φ} (data : ctx.All V)

include data

omit inherited in
theorem push {scope : Entries φ} (held : V (.mapping scope)) : (ctx.push scope).All V := by
  intro inner member
  rcases List.mem_cons.mp member with rfl | outer
  · exact held
  · exact data inner outer

omit inherited in
theorem root : V (.mapping ctx.root) :=
  data ctx.root (List.mem_append_right _ (List.mem_singleton_self _))

theorem find {path : Path} {v : Value φ} (found : ctx.find path = .ok v) : V v := by
  unfold Context.find at found
  split at found
  · cases found
  · split at found
    · rename_i head rest w atHead
      obtain ⟨scope, member, inScope⟩ := List.exists_of_findSome?_eq_some atHead
      exact inherited.follow (inherited.get? (data scope member) inScope) found
    · cases found

end Context.All

omit inherited in
theorem Context.All.settle [Callable φ] {ctx : Context φ} (data : ctx.All V) (closed : Closed V) {v w : Value φ}
    (held : V v) (settled : ctx.settle v = .ok w) : V w := by
  unfold Context.settle at settled
  split at settled
  · exact closed.answer held data.root settled
  · cases settled
    exact held

end Stencil
