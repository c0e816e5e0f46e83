import Stencil.Proofs.Template.Items
import Stencil.Proofs.Template.Place

namespace Stencil

mutual

/-- The places of the directives of a node: its own comes before those of its bodies. -/
def Node.marks : Node → List Mark
  | .text _ => []
  | .cond mark _ body elseBody => mark :: (Node.marksIn body ++ Node.marksElse elseBody)
  | .mapInline mark body _ => mark :: Node.marksIn body
  | .attr mark _ | .include mark _ | .apply mark _ _ | .mapNamed mark _ _ | .join mark _ _
  | .txt mark _ => [mark]

def Node.marksIn : List Node → List Mark
  | [] => []
  | n :: ns => n.marks ++ Node.marksIn ns

def Node.marksElse : Option (List Node) → List Mark
  | none => []
  | some body => Node.marksIn body

end

/-- The places of the directives that an item opens. -/
def Item.marks : Item → List Mark
  | .node n => n.marks
  | .openIf mark _ => [mark]
  | .otherwise | .endIf => []

mutual

theorem Node.marks_items (n : Node) : n.items.flatMap Item.marks = n.marks := by
  cases n with
  | cond mark condition body elseBody =>
    have first := Node.marks_itemsIn body
    have second := Node.marks_itemsElse elseBody
    simp only [Node.items, Node.marks, List.flatMap_cons, List.flatMap_append, List.flatMap_nil,
      Item.marks, first, second, List.append_nil, List.singleton_append]
  | text | attr | «include» | apply | mapNamed | mapInline | join | txt =>
    simp only [Node.items, List.flatMap_cons, List.flatMap_nil, List.append_nil, Item.marks]

/-- The order of the items is the order of the tree. -/
theorem Node.marks_itemsIn (ns : List Node) : (Node.itemsIn ns).flatMap Item.marks = Node.marksIn ns := by
  cases ns with
  | nil => rfl
  | cons n ns =>
    rw [Node.itemsIn, Node.marksIn, List.flatMap_append, Node.marks_items n, Node.marks_itemsIn ns]

theorem Node.marks_itemsElse (elseBody : Option (List Node)) :
    (Node.itemsElse elseBody).flatMap Item.marks = Node.marksElse elseBody := by
  cases elseBody with
  | none => rfl
  | some body =>
    rw [Node.itemsElse, Node.marksElse, List.flatMap_cons, Node.marks_itemsIn body]
    rfl

end

theorem Item.marks_items (i : Item) : i.items.flatMap Item.marks = i.marks := by
  cases i with
  | node n => exact n.marks_items
  | openIf | otherwise | endIf => simp [Item.items]

/-- The places, in this order, are those of delimiters in the text from `lo` up to `hi`, each of them
behind the one before. -/
def Spread (text : List Char) (lo hi : Nat) (marks : List Mark) : Prop :=
  ∃ ps : List Nat, ps.Pairwise (· < ·) ∧ (∀ p ∈ ps, lo ≤ p ∧ p < hi ∧ text[p]? = some '$') ∧
    marks = ps.map (placeAt text)

namespace Spread

variable {text : List Char} {lo mid hi : Nat} {ms ns : List Mark}

theorem nil : Spread text lo hi [] :=
  ⟨[], .nil, by simp, rfl⟩

theorem append (front : Spread text lo mid ms) (back : Spread text mid hi ns) (low : lo ≤ mid)
    (high : mid ≤ hi) : Spread text lo hi (ms ++ ns) := by
  obtain ⟨ps, rising, inside, rfl⟩ := front
  obtain ⟨qs, risingToo, insideToo, rfl⟩ := back
  refine ⟨ps ++ qs, ?_, ?_, List.map_append.symm⟩
  · rw [List.pairwise_append]
    refine ⟨rising, risingToo, fun p inFront q inBack => ?_⟩
    have below := (inside p inFront).2.1
    have above := (insideToo q inBack).1
    omega
  · intro p found
    rcases List.mem_append.mp found with found | found
    · have := inside p found
      exact ⟨this.1, by omega, this.2.2⟩
    · have := insideToo p found
      exact ⟨by omega, this.2⟩

theorem single {p : Nat} (low : lo ≤ p) (high : p < hi) (delimiter : text[p]? = some '$') :
    Spread text lo hi [placeAt text p] :=
  ⟨[p], List.pairwise_singleton _ _, by simpa using ⟨low, high, delimiter⟩, rfl⟩

theorem mono {lo' hi' : Nat} (spread : Spread text lo hi ms) (low : lo' ≤ lo) (high : hi ≤ hi') :
    Spread text lo' hi' ms := by
  obtain ⟨ps, rising, inside, same⟩ := spread
  refine ⟨ps, rising, fun p found => ?_, same⟩
  have := inside p found
  exact ⟨by omega, by omega, this.2.2⟩

theorem isPlace {m : Mark} (spread : Spread text lo hi ms) (found : m ∈ ms) : IsPlace text m := by
  obtain ⟨ps, -, inside, rfl⟩ := spread
  obtain ⟨p, there, rfl⟩ := List.mem_map.mp found
  have delimiter := (inside p there).2.2
  obtain ⟨bound, -⟩ := List.getElem?_eq_some_iff.mp delimiter
  exact ⟨p, Nat.le_of_lt bound, rfl⟩

end Spread

end Stencil
