import Mathlib.Data.List.Basic
import Mathlib.Data.List.TakeWhile
import Stencil.Render.Diagnostic

namespace Stencil

section Names

variable {x : String} {front between : List String}

/-- The innermost name has come up before: all up to the last time is left out. -/
theorem nestingNames_of_repeated (apart : x ∉ between) :
    nestingNames (front ++ x :: between ++ [x]) = x :: between ++ [x] := by
  have others : ∀ y ∈ between.reverse, (y != x) = true := fun y member =>
    bne_iff_ne.mpr fun same => apart (same ▸ List.mem_reverse.mp member)
  have backwards : (front ++ x :: between ++ [x]).reverse = x :: (between.reverse ++ x :: front.reverse) := by simp
  have here : (x != x) = false := bne_self_eq_false x
  rw [nestingNames, backwards]
  dsimp only
  rw [List.dropWhile_append_of_pos others, List.takeWhile_append_of_pos others, List.dropWhile_cons,
    List.takeWhile_cons, here]
  simp

/-- The innermost name has not come up before: nothing is left out. -/
theorem nestingNames_of_new (apart : x ∉ front) : nestingNames (front ++ [x]) = front ++ [x] := by
  have others : ∀ y ∈ front.reverse, (y != x) = true := fun y member =>
    bne_iff_ne.mpr fun same => apart (same ▸ List.mem_reverse.mp member)
  rw [nestingNames, List.reverse_concat]
  dsimp only
  rw [List.dropWhile_eq_nil_iff.mpr others]

theorem nestingNames_ne_nil (front : List String) (x : String) : nestingNames (front ++ [x]) ≠ [] := by
  rw [nestingNames, List.reverse_concat]
  dsimp only
  split
  · exact List.concat_ne_nil x front
  · exact List.cons_ne_nil _ _

/-- The last time that a name comes up in a list. -/
theorem exists_last_split (member : x ∈ front) :
    ∃ left between, front = left ++ x :: between ∧ x ∉ between := by
  obtain ⟨back, left, split, apart⟩ := List.eq_append_cons_of_mem (List.mem_reverse.mpr member)
  refine ⟨left.reverse, back.reverse, ?_, fun later => apart (List.mem_reverse.mp later)⟩
  rw [List.reverse_eq_iff.mp split]
  simp

end Names

section Texts

variable {chain : List String} {name : Option String} {front : List String} {x : String}

theorem nestingText_of_concat (names : chain ++ name.toList = front ++ [x]) :
    nestingText chain name = " → ".intercalate (nestingNames (front ++ [x])) := by
  have filled := nestingNames_ne_nil front x
  rw [nestingText, names]
  split
  · contradiction
  · rfl

theorem nestingText_some (chain : List String) (name : String) :
    nestingText chain (some name) = " → ".intercalate (nestingNames (chain ++ [name])) :=
  nestingText_of_concat rfl

/-- Without a name anywhere there is only a word for the template in place. Otherwise the report shows the end of the
names: where the innermost one has come up before, from the last such time on, so that it stands at both ends of what
is shown and nowhere between them; and all names where it has not. -/
theorem nestingText_from_repeat (chain : List String) (name : Option String) :
    let names := chain ++ name.toList
    (names = [] → nestingText chain name = "<inline map>") ∧
      ∀ x, names.getLast? = some x → ∃ left shown, names = left ++ shown ∧ shown.getLast? = some x ∧
        nestingText chain name = " → ".intercalate shown ∧
        (x ∈ names.dropLast → ∃ between, shown = x :: between ++ [x] ∧ x ∉ between) ∧
        (x ∉ names.dropLast → shown = names) := by
  intro names
  refine ⟨fun none => ?_, fun x last => ?_⟩
  · change chain ++ name.toList = [] at none
    rw [nestingText, none]
    rfl
  · have whole : names = names.dropLast ++ [x] := (List.dropLast_append_getLast? x last).symm
    have text := nestingText_of_concat whole
    by_cases before : x ∈ names.dropLast
    · obtain ⟨left, between, split, apart⟩ := exists_last_split before
      rw [split, nestingNames_of_repeated apart] at text
      refine ⟨left, x :: between ++ [x], ?_, List.getLast?_concat, text, fun _ => ⟨between, rfl, apart⟩, absurd before⟩
      rw [whole, split, List.append_assoc]
    · rw [nestingNames_of_new before, ← whole] at text
      exact ⟨[], names, rfl, last, text, fun member => absurd member before, fun _ => rfl⟩

end Texts

/-- The innermost name has come up twice before, and another one once before and once between the two times. -/
theorem nestingText_from_repeat_of_circles :
    let names := ["b", "a", "b", "a", "c", "b", "a"]
    nestingText ["b", "a", "b", "a", "c", "b"] (some "a") = "a → c → b → a" ∧
      nestingText names none = "a → c → b → a" ∧ names.getLast? = some "a" ∧ "a" ∈ names.dropLast ∧
      ∃ left between, names = left ++ ("a" :: between ++ ["a"]) ∧ "a" ∉ between ∧
        nestingText names none = " → ".intercalate ("a" :: between ++ ["a"]) := by
  intro names
  have last : names.getLast? = some "a" := rfl
  have before : "a" ∈ names.dropLast := by decide
  obtain ⟨left, shown, split, -, text, repeated, -⟩ := (nestingText_from_repeat names none).2 "a" last
  obtain ⟨between, rfl, apart⟩ := repeated before
  exact ⟨by decide, by decide, last, before, left, between, split, apart, text⟩

end Stencil
