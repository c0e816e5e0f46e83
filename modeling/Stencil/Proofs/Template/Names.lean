import Stencil.Proofs.Template.Cutout
import Stencil.Proofs.Template.Occurrences
import Mathlib.Data.List.TakeWhile

namespace Stencil

/-- A name that can be read: something is there, it does not begin with a blank, and nothing in it ends a word. -/
structure IsReadable (name : String) : Prop where
  filled : name ≠ ""
  begins : ∀ c ∈ name.toList.head?, isBlank c = false
  chars : ∀ c ∈ name.toList, endsWord c = false

/-- The template that a node names. -/
def Node.name? : Node → Option String
  | .include _ name | .mapNamed _ name _ => some name
  | .text _ | .attr _ _ | .apply _ _ _ | .cond _ _ _ _ | .mapInline _ _ _ | .join _ _ _ | .txt _ _ => none

section Reading

variable {inline : Inline} {c c' : Cursor} {t : Token} {n : Node} {name : String}

theorem readName_ok {what : String} {mark : Mark} (read : readName what mark c = .ok name c') : IsReadable name := by
  obtain ⟨w, mid, word, rest⟩ := Scan.bind_ok read
  obtain ⟨letters, -⟩ := nextWord_ok word
  split at rest
  · cases rest
  · rename_i filled
    cases rest
    have spelled : w.text.toList = w.letters := String.toList_ofList
    refine ⟨fun none => filled ?_, ?_, ?_⟩
    · rw [← spelled, none]
      rfl
    · intro b first
      have stops := List.head?_dropWhile_not isBlank c.rest
      rw [spelled, letters] at first
      cases left : c.rest.dropWhile isBlank with
      | nil =>
        rw [left] at first
        cases first
      | cons d ds =>
        rw [left, List.takeWhile_cons] at first
        rw [left] at stops
        split at first <;> cases first
        simpa using stops
    · intro b member
      rw [spelled, letters] at member
      simpa using List.mem_takeWhile_imp (p := (!endsWord ·)) member

theorem readOperands_name {mark : Mark} {k : Keyword} (read : readOperands inline mark k c = .ok (.node n) c')
    (named : n.name? = some name) : IsReadable name := by
  cases k with
  | «include» =>
    obtain ⟨own, _, word, done⟩ := Scan.bind_ok read
    cases done
    cases named
    exact readName_ok word
  | map =>
    obtain ⟨_, -, ⟨-, _, _, _, _, _, -, -, -, same⟩ | ⟨-, own, _, _, _, word, -, same⟩⟩ := readOperands_map_ok read
    · cases same
      cases named
    · cases same
      cases named
      exact readName_ok word
  | apply =>
    obtain ⟨_, _, -, rest⟩ := Scan.bind_ok read
    obtain ⟨_, _, -, done⟩ := Scan.bind_ok rest
    cases done
    cases named
  | cond =>
    obtain ⟨_, _, -, done⟩ := Scan.bind_ok read
    cases done
  | join =>
    obtain ⟨_, _, -, rest⟩ := Scan.bind_ok read
    obtain ⟨_, _, -, done⟩ := Scan.bind_ok rest
    cases done
    cases named
  | txt =>
    obtain ⟨_, _, -, rest⟩ := Scan.bind_ok read
    split at rest <;> cases rest
    cases named

theorem Token.item_name (read : t.item inline = .ok (.node n)) (named : n.name? = some name) : IsReadable name := by
  rcases Token.item_ok read with ⟨-, same⟩ | ⟨-, ⟨-, same⟩ | ⟨-, same⟩ | ⟨-, -, c', item⟩⟩
  · cases same
    cases named
  · cases same
  · cases same
  · obtain ⟨w, mid, -, ⟨k, last, -, operands⟩ | ⟨p, -, -, -, same⟩⟩ := readItem_ok item
    · exact readOperands_name operands named
    · cases same
      cases named

end Reading

section Trees

variable {m n : Node} {ns : List Node}

theorem Node.items_subset (member : n ∈ ns) : n.items ⊆ Node.itemsIn ns := by
  induction ns with
  | nil => cases member
  | cons m ns ih =>
    rw [itemsIn]
    rcases List.mem_cons.mp member with rfl | later
    · exact List.subset_append_left _ _
    · exact List.Subset.trans (ih later) (List.subset_append_right _ _)

theorem Node.bodies_subset (member : n ∈ ns) : n.bodies ⊆ Node.bodiesIn ns := by
  induction ns with
  | nil => cases member
  | cons m ns ih =>
    rw [bodiesIn]
    rcases List.mem_cons.mp member with rfl | later
    · exact List.subset_append_left _ _
    · exact List.Subset.trans (ih later) (List.subset_append_right _ _)

/-- A node that is no conditional is an item of the nodes it stands among, or of a template that is written inside
them. -/
theorem Node.Inside.item (inside : n.Inside ns) (single : n.items = [.node n]) :
    .node n ∈ Node.itemsIn ns ∨ ∃ body ∈ Node.bodiesIn ns, .node n ∈ Node.itemsIn body := by
  induction inside with
  | here member =>
    refine .inl (Node.items_subset member ?_)
    rw [single]
    exact List.mem_singleton.mpr rfl
  | body member _ ih =>
    rcases ih with own | ⟨body', found, own⟩
    · exact .inl (Node.items_subset member (by simp [Node.items, own]))
    · exact .inr ⟨body', Node.bodies_subset member (by simp [Node.bodies, found]), own⟩
  | elseBody member _ ih =>
    rcases ih with own | ⟨body', found, own⟩
    · exact .inl (Node.items_subset member (by simp [Node.items, Node.itemsElse, own]))
    · exact .inr ⟨body', Node.bodies_subset member (by simp [Node.bodies, Node.bodiesElse, found]), own⟩
  | @inline _ body _ _ member _ ih =>
    rcases ih with own | ⟨body', found, own⟩
    · exact .inr ⟨body, Node.bodies_subset member (by simp [Node.bodies]), own⟩
    · exact .inr ⟨body', Node.bodies_subset member (by simp [Node.bodies, found]), own⟩

/-- Every name in what a stretch compiles to can be read. -/
theorem compileStretch_names {r : Region} {c : Cursor} {name : String} (compiled : compileStretch r c = .ok ns)
    (inside : n.Inside ns) (named : n.name? = some name) : IsReadable name := by
  have single : n.items = [.node n] := by cases n <;> first | rfl | cases named
  have own {r : Region} {c : Cursor} {ms : List Node} (compiled : compileStretch r c = .ok ms)
      (member : .node n ∈ Node.itemsIn ms) : IsReadable name := by
    obtain ⟨ts, -, derives⟩ := compileStretch_eq_ok_iff.mp compiled
    have item : (.ok (.node n) : Except SyntaxError Item) ∈ (Node.itemsIn ms).map .ok := List.mem_map_of_mem member
    rw [← derives.items] at item
    obtain ⟨t, -, read⟩ := List.mem_map.mp item
    exact Token.item_name read named
  rcases inside.item single with direct | ⟨body, member, inner⟩
  · exact own compiled direct
  · obtain ⟨block, -, done⟩ := compileStretch_bodies compiled member
    exact own done inner

end Trees

end Stencil
