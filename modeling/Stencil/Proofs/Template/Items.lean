import Stencil.Template.Nesting

namespace Stencil

mutual

/-- The items of a node: those of a conditional stand around the items of its bodies. -/
def Node.items : Node → List Item
  | .cond mark condition body elseBody =>
    .openIf mark condition :: (Node.itemsIn body ++ Node.itemsElse elseBody ++ [.endIf])
  | .text value => [.node (.text value)]
  | .attr mark path => [.node (.attr mark path)]
  | .include mark name => [.node (.include mark name)]
  | .apply mark func arg => [.node (.apply mark func arg)]
  | .mapNamed mark name items => [.node (.mapNamed mark name items)]
  | .mapInline mark body items => [.node (.mapInline mark body items)]
  | .join mark separator items => [.node (.join mark separator items)]
  | .txt mark key => [.node (.txt mark key)]

def Node.itemsIn : List Node → List Item
  | [] => []
  | n :: ns => n.items ++ Node.itemsIn ns

def Node.itemsElse : Option (List Node) → List Item
  | none => []
  | some body => .otherwise :: Node.itemsIn body

end

theorem Node.itemsIn_append (ms ns : List Node) :
    Node.itemsIn (ms ++ ns) = Node.itemsIn ms ++ Node.itemsIn ns := by
  induction ms with
  | nil => rfl
  | cons m ms ih => rw [List.cons_append, itemsIn, itemsIn, ih, List.append_assoc]

theorem Node.itemsIn_concat (ns : List Node) (n : Node) :
    Node.itemsIn (ns ++ [n]) = Node.itemsIn ns ++ n.items := by
  rw [itemsIn_append, itemsIn, itemsIn, List.append_nil]

/-- An item, taken apart if it is a whole conditional. -/
def Item.items : Item → List Item
  | .node n => n.items
  | i => [i]

/-- The items of an open conditional and of what stands before it on its level, up to the body that is
under construction. -/
def OpenIf.items (o : OpenIf) : List Item :=
  Node.itemsIn o.before.reverse ++
    .openIf o.mark o.condition :: (o.body.map fun body => Node.itemsIn body ++ [.otherwise]).getD []

/-- The items of a template under construction, from the outermost level inwards. -/
def Draft.items (d : Draft) : List Item :=
  d.opened.reverse.flatMap OpenIf.items ++ Node.itemsIn d.nodes.reverse

/-- One more item is one more item at the end. -/
theorem Draft.items_add {d d' : Draft} {mark : Mark} {i : Item} (added : d.add mark i = .ok d') :
    d'.items = d.items ++ i.items := by
  obtain ⟨nodes, opened⟩ := d
  cases i with
  | node n =>
    cases added
    simp only [Draft.items, Item.items, List.reverse_cons, Node.itemsIn_concat, List.append_assoc]
  | openIf mark condition =>
    cases added
    simp [Draft.items, Item.items, OpenIf.items, Node.itemsIn]
  | otherwise =>
    cases opened with
    | nil => cases added
    | cons top rest =>
      obtain ⟨before, mark, condition, _ | body⟩ := top
      · cases added
        simp [Draft.items, Item.items, OpenIf.items, Node.itemsIn]
      · cases added
  | endIf =>
    cases opened with
    | nil => cases added
    | cons top rest =>
      obtain ⟨before, mark, condition, _ | body⟩ := top <;> cases added <;>
        simp [Draft.items, Item.items, OpenIf.items, Node.itemsIn_append, Node.itemsIn, Node.items,
          Node.itemsElse]

theorem Draft.items_finish {d : Draft} {nodes : List Node} (finished : d.finish = .ok nodes) :
    Node.itemsIn nodes = d.items := by
  obtain ⟨rest, _ | ⟨top, opened⟩⟩ := d
  · cases finished
    rfl
  · cases finished

/-- A conditional part in the wrong position is reported where that part stands. -/
theorem Draft.mark_of_add {d : Draft} {mark : Mark} {i : Item} {e : SyntaxError}
    (failed : d.add mark i = .error e) : e.mark = mark := by
  obtain ⟨nodes, opened⟩ := d
  cases i with
  | node n => cases failed
  | openIf mark condition => cases failed
  | otherwise =>
    cases opened with
    | nil => cases failed; rfl
    | cons top rest =>
      obtain ⟨before, at_, condition, _ | body⟩ := top <;> cases failed
      rfl
  | endIf =>
    cases opened with
    | nil => cases failed; rfl
    | cons top rest =>
      obtain ⟨before, at_, condition, _ | body⟩ := top <;> cases failed

/-- A conditional that is never closed is reported where it was opened. -/
theorem Draft.openIf_of_finish {d : Draft} {e : SyntaxError} (failed : d.finish = .error e) :
    ∃ condition, Item.openIf e.mark condition ∈ d.items := by
  obtain ⟨rest, _ | ⟨top, opened⟩⟩ := d
  · cases failed
  · cases failed
    exact ⟨top.condition, by simp [Draft.items, OpenIf.items]⟩

end Stencil
