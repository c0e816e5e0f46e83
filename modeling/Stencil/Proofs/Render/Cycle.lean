import Stencil.Data.Builtin
import Stencil.Proofs.Render.Nesting
import Stencil.Proofs.Render.Yield
import Stencil.Proofs.Template.Written

namespace Stencil

theorem lookup_of_only {α β : Type} [BEq α] [LawfulBEq α] {l : List (α × β)} {a : α} {b : β} (known : (a, b) ∈ l)
    (only : ∀ b', (a, b') ∈ l → b' = b) : l.lookup a = some b := by
  induction l with
  | nil => cases known
  | cons e rest ih =>
    obtain ⟨k, v⟩ := e
    rw [List.lookup_cons]
    split
    · rename_i same
      obtain rfl := eq_of_beq same
      rw [only v List.mem_cons_self]
    · rename_i other
      refine ih ?_ fun b' member => only b' (List.mem_cons_of_mem _ member)
      refine (List.mem_cons.mp known).resolve_left ?_
      rintro ⟨⟩
      simp at other

/-- Templates that include one another in turn, each behind a text of its own, and the last one the first. -/
structure IncludeCycle where
  length : Nat
  filled : 0 < length
  name : Fin length → String
  text : Fin length → String
  readable : ∀ i, IsReadable (name i)
  distinct : ∀ i j, name i = name j → i = j
  plain : ∀ i, '$' ∉ (text i).toList
  literal : ∀ i, '\\' ∉ (text i).toList

namespace IncludeCycle

variable (c : IncludeCycle)

/-- Where one is after so many steps. -/
def place (i : Nat) : Fin c.length := ⟨i % c.length, Nat.mod_lt i c.filled⟩

def nameAt (i : Nat) : String := c.name (c.place i)

def textAt (i : Nat) : String := c.text (c.place i)

def sourceAt (i : Nat) : String := c.textAt i ++ "$include " ++ c.nameAt (i + 1) ++ "$"

/-- The registry with all templates of the circle. -/
def entries : List (String × Registered) := List.ofFn fun i => (c.name i, .source (c.sourceAt i))

theorem nameAt_eq_iff {i j : Nat} : c.nameAt i = c.nameAt j ↔ i % c.length = j % c.length := by
  constructor
  · intro same
    exact Fin.mk.inj (c.distinct _ _ same)
  · intro same
    exact congrArg c.name (Fin.ext same)

/-- Once around. -/
theorem nameAt_add_length (i : Nat) : c.nameAt (i + c.length) = c.nameAt i :=
  c.nameAt_eq_iff.mpr (Nat.add_mod_right i c.length)

theorem sourceAt_mod (i : Nat) : c.sourceAt (i % c.length) = c.sourceAt i := by
  have text : c.textAt (i % c.length) = c.textAt i := congrArg c.text (Fin.ext (Nat.mod_mod i c.length))
  have name : c.nameAt (i % c.length + 1) = c.nameAt (i + 1) := c.nameAt_eq_iff.mpr (Nat.mod_add_mod i c.length 1)
  rw [sourceAt, sourceAt, text, name]

theorem load_nameAt (i : Nat) :
    loadRegistered c.entries (c.nameAt i) = compileNamed (c.sourceAt i) (c.nameAt i) := by
  have known : (c.nameAt i, Registered.source (c.sourceAt i)) ∈ c.entries.reverse := by
    rw [List.mem_reverse, entries, List.mem_ofFn]
    exact ⟨c.place i, by rw [← c.sourceAt_mod i]; rfl⟩
  have only : ∀ r, (c.nameAt i, r) ∈ c.entries.reverse → r = .source (c.sourceAt i) := by
    intro r member
    rw [List.mem_reverse, entries, List.mem_ofFn] at member
    obtain ⟨j, same⟩ := member
    obtain ⟨names, rfl⟩ := Prod.mk.inj same
    rw [c.distinct _ _ names, ← c.sourceAt_mod i]
    rfl
  have found := lookup_of_only known only
  rw [loadRegistered, found]

/-- The template that is entered there: its own text, and on to the next. -/
theorem exists_load (i : Nat) : ∃ mark, loadRegistered c.entries (c.nameAt i) =
    .ok ⟨Node.verbatim (c.textAt i) ++ [.include mark (c.nameAt (i + 1))], c.nameAt i⟩ := by
  obtain ⟨mark, compiled⟩ := compile_textAndInclude (c.plain (c.place i)) (c.literal (c.place i))
    (c.readable (c.place (i + 1))) (c.nameAt i)
  refine ⟨mark, ?_⟩
  rw [load_nameAt, compileNamed]
  exact congrArg (Except.mapError LoadError.invalid) compiled

section Run

variable {φ : Type} [Callable φ] {s : Setting} (present : s.loader = some (loadRegistered c.entries))
  (ctx : Context φ)

include present

/-- Each level writes its text and adds its name to the open templates, and at the last one it is reported what would
be next. The induction is on the levels that are left. -/
theorem yields (levels i : Nat) (st : Standing) (mark : Mark) :
    ∃ last, Yields (renderAt s levels st ctx [.include mark (c.nameAt i)])
      (String.join ((List.range' i levels).map c.textAt))
      (s.shown [⟨.tooDeep (st.chain ++ (List.range' i levels).map c.nameAt) (c.nameAt (i + levels)), last⟩]) := by
  induction levels generalizing i st mark with
  | zero =>
    refine ⟨mark, .node ?_⟩
    simp only [List.range'_zero, List.map_nil, List.append_nil]
    exact .reportInstead mark _
  | succ levels ih =>
    obtain ⟨next, loads⟩ := c.exists_load i
    obtain ⟨last, deeper⟩ := ih (i + 1) (st.enter (some (c.nameAt i))) next
    have chain : (st.enter (some (c.nameAt i))).chain ++ (List.range' (i + 1) levels).map c.nameAt =
        st.chain ++ (List.range' i (levels + 1)).map c.nameAt := by
      simp [Standing.enter, List.range'_succ]
    have texts : String.join ((List.range' i (levels + 1)).map c.textAt) =
        c.textAt i ++ String.join ((List.range' (i + 1) levels).map c.textAt) := by
      rw [List.range'_succ, List.map_cons, String.join_cons]
    rw [chain, Nat.add_right_comm i 1 levels] at deeper
    rw [texts]
    exact ⟨last, .node (.after (.findTemplate present loads ctx mark) ((Yields.verbatim levels _).append deeper))⟩

end Run

/-- A name does not come up again before one is once around. -/
theorem nameAt_ne {m i : Nat} (before : i + 1 < c.length) : c.nameAt (m + (i + 1)) ≠ c.nameAt m := by
  intro same
  have whole := Nat.sub_mod_eq_zero_of_mod_eq (c.nameAt_eq_iff.mp same)
  rw [Nat.add_sub_cancel_left, Nat.mod_eq_of_lt before] at whole
  cases whole

/-- One time around, from a name to the same name again. -/
theorem nestingNames_around (n : Nat) (around : c.length ≤ n) :
    nestingNames ((List.range (n + 1)).map c.nameAt) = (List.range (c.length + 1)).map fun i => c.nameAt (n + i) := by
  obtain ⟨m, rfl⟩ := Nat.exists_eq_add_of_le around
  obtain ⟨j, length⟩ := Nat.exists_eq_add_of_lt c.filled
  rw [Nat.zero_add] at length
  let between := (List.range j).map fun i => c.nameAt (m + (i + 1))
  have again (i : Nat) : c.nameAt (c.length + m + i) = c.nameAt (m + i) := by
    rw [Nat.add_assoc, Nat.add_comm, c.nameAt_add_length]
  have loop : (List.range (c.length + 1)).map (fun i => c.nameAt (m + i)) =
      c.nameAt m :: between ++ [c.nameAt m] := by
    have last : c.nameAt (m + (j + 1)) = c.nameAt m := by rw [← length, c.nameAt_add_length]
    rw [length, List.range_succ, List.range_succ_eq_map, List.map_append, List.map_cons, List.map_map,
      List.map_singleton, last]
    rfl
  have apart : c.nameAt m ∉ between := by
    intro member
    obtain ⟨i, inside, same⟩ := List.mem_map.mp member
    have before := List.mem_range.mp inside
    exact c.nameAt_ne (by omega) same
  calc nestingNames ((List.range (c.length + m + 1)).map c.nameAt)
      = nestingNames ((List.range m).map c.nameAt ++ c.nameAt m :: between ++ [c.nameAt m]) := by
        rw [Nat.add_comm c.length, Nat.add_assoc, List.range_add, List.map_append, List.map_map, List.append_assoc,
          ← loop]
        rfl
    _ = (List.range (c.length + 1)).map fun i => c.nameAt (m + i) := by rw [nestingNames_of_repeated apart, loop]
    _ = (List.range (c.length + 1)).map fun i => c.nameAt (c.length + m + i) := by simp only [again]

/-- Not yet around. -/
theorem nestingNames_started (n : Nat) (started : n < c.length) :
    nestingNames ((List.range (n + 1)).map c.nameAt) = (List.range (n + 1)).map c.nameAt := by
  rw [List.range_succ, List.map_append, List.map_singleton]
  refine nestingNames_of_new fun member => ?_
  obtain ⟨i, inside, same⟩ := List.mem_map.mp member
  have before := List.mem_range.mp inside
  have equal := c.nameAt_eq_iff.mp same
  rw [Nat.mod_eq_of_lt started, Nat.mod_eq_of_lt (before.trans started)] at equal
  omega

/-- A template that includes the first of some templates that include one another in a circle, whatever the data. A
hundred of their texts are written, in turn, and unless the run is quiet there is exactly one report. It is about the
template that would be next, and it shows once around from that one to itself, or all the templates that have been
entered if the circle is longer than there are levels. -/
theorem render_includeCycle : ∃ t, compile ("$include " ++ c.nameAt 0 ++ "$") "" = .ok t ∧
    ∀ (φ : Type) [Callable φ] (s : Setting) (ctx : Context φ), s.loader = some (loadRegistered c.entries) →
      (render s t ctx).answer = .ok (String.join ((List.range 100).map c.textAt)) ∧
      ∃ d names, reportsOf (render s t ctx).events = (if s.options.quiet then [] else [d]) ∧
        d.kind = .include ∧ d.target = c.nameAt 100 ∧
        d.message = "Template nesting exceeds 100 levels: " ++ " → ".intercalate names ∧
        (c.length ≤ 100 → names = ((List.range (c.length + 1)).map fun i => c.nameAt (100 + i)) ∧
          names.head? = some d.target ∧ names.getLast? = some d.target) ∧
        (100 < c.length → names = (List.range 101).map c.nameAt) := by
  obtain ⟨mark, compiled⟩ : ∃ mark, compile ("" ++ "$include " ++ c.nameAt 0 ++ "$") "" =
      .ok ⟨Node.verbatim "" ++ [.include mark (c.nameAt 0)], ""⟩ :=
    compile_textAndInclude List.not_mem_nil List.not_mem_nil (c.readable (c.place 0)) ""
  rw [String.empty_append] at compiled
  refine ⟨_, compiled, fun φ _ s ctx present => ?_⟩
  obtain ⟨last, answer, reports⟩ := c.yields present ctx maxLevels 0 ⟨0, []⟩ mark
  rw [← List.range_eq_range'] at answer reports
  rw [Nat.zero_add] at reports
  let opened := (List.range maxLevels).map c.nameAt
  have entered : (List.range (maxLevels + 1)).map c.nameAt = opened ++ [c.nameAt maxLevels] := by
    rw [List.range_succ, List.map_append, List.map_singleton]
  refine ⟨answer, ⟨.tooDeep opened (c.nameAt maxLevels), last⟩, nestingNames (opened ++ [c.nameAt maxLevels]),
    reports, rfl, rfl, ?_, fun around => ?_, fun started => ?_⟩
  · rw [← nestingText_some]
    rfl
  · rw [← entered, c.nestingNames_around maxLevels around]
    refine ⟨rfl, ?_, ?_⟩
    · rw [List.range_succ_eq_map, List.map_cons]
      rfl
    · rw [List.range_succ, List.map_append, List.map_singleton, c.nameAt_add_length, List.getLast?_concat]
      rfl
  · rw [← entered]
    exact c.nestingNames_started maxLevels started

/-- Two templates in a circle, one of them with no text of its own. -/
def pair : IncludeCycle where
  length := 2
  filled := by decide
  name i := if i = 0 then "left" else "right"
  text i := if i = 0 then "a" else ""
  readable i := .of_isTemplateName (by
    match i with
    | 0 => decide
    | 1 => decide)
  distinct := by decide
  plain := by decide
  literal := by decide

theorem render_includeCycle_of_pair :
    let entries := [("left", .source "a$include right$"), ("right", .source "$include left$")]
    let s : Setting := ⟨some (loadRegistered entries), none, "en", {}⟩
    let ctx : Context Builtin := ⟨[], []⟩
    ∃ t d, compile "$include left$" "" = .ok t ∧
      (render s t ctx).answer = .ok (String.join ((List.range 100).map pair.textAt)) ∧
      reportsOf (render s t ctx).events = [d] ∧ d.target = "left" ∧
      d.message = "Template nesting exceeds 100 levels: left → right → left" := by
  intro entries s ctx
  obtain ⟨t, compiled, runs⟩ := pair.render_includeCycle
  obtain ⟨answer, d, names, reports, -, target, message, around, -⟩ := runs Builtin s ctx rfl
  rw [(around (by decide)).1] at message
  exact ⟨t, d, compiled, answer, reports, target, message⟩

end IncludeCycle
end Stencil
