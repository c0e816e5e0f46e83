import Stencil.Proofs.Template.Positions
import Stencil.Proofs.Template.Roles
import Stencil.Template.Occurrence

namespace Stencil

namespace Mark

/-- The order of places in a text. -/
def Before (m n : Mark) : Prop :=
  m.line < n.line ∨ m.line = n.line ∧ m.column < n.column

variable {m n k : Mark}

theorem Before.trans (first : m.Before n) (second : n.Before k) : m.Before k := by
  unfold Before at *
  omega

theorem Before.line_le (before : m.Before n) : m.line ≤ n.line := by
  unfold Before at before
  omega

theorem before_next (m : Mark) (c : Char) : m.Before (m.next c) := by
  unfold Before next
  split
  · exact .inl (Nat.lt_succ_self _)
  · exact .inr ⟨rfl, Nat.lt_succ_self _⟩

theorem before_past {cs : List Char} (some : cs ≠ []) (m : Mark) : m.Before (m.past cs) := by
  induction cs generalizing m with
  | nil => contradiction
  | cons c cs ih =>
    rw [past_cons]
    by_cases last : cs = []
    · subst last
      exact m.before_next c
    · exact (m.before_next c).trans (ih last _)

end Mark

/-- Places follow one another as their offsets do. -/
theorem placeAt_before {text : List Char} {p q : Nat} (before : p < q) (bound : q ≤ text.length) :
    (placeAt text p).Before (placeAt text q) := by
  have split : text.take q = text.take p ++ (text.take q).drop p := by
    rw [← List.take_append_drop p (text.take q), List.take_take, Nat.min_eq_left (Nat.le_of_lt before),
      List.drop_append_of_le_length (by rw [List.length_take]; omega), List.drop_take_self, List.nil_append]
  have some : (text.take q).drop p ≠ [] := by
    rw [Ne, List.drop_eq_nil_iff, List.length_take]
    omega
  rw [← past_take (by omega), ← past_take bound, split, Mark.past_append]
  exact Mark.before_past some _

mutual

/-- A node and all nodes inside it, each of them before those that are inside it. -/
def Node.preorder : Node → List Node
  | .cond mark condition body elseBody =>
    .cond mark condition body elseBody :: (Node.preorderIn body ++ Node.preorderElse elseBody)
  | .mapInline mark body items => .mapInline mark body items :: Node.preorderIn body
  | .text value => [.text value]
  | .attr mark path => [.attr mark path]
  | .include mark name => [.include mark name]
  | .apply mark func arg => [.apply mark func arg]
  | .mapNamed mark name items => [.mapNamed mark name items]
  | .join mark separator items => [.join mark separator items]
  | .txt mark key => [.txt mark key]

def Node.preorderIn : List Node → List Node
  | [] => []
  | n :: ns => n.preorder ++ Node.preorderIn ns

def Node.preorderElse : Option (List Node) → List Node
  | none => []
  | some body => Node.preorderIn body

end

/-- A node stands among some nodes or, at any depth, in a body of one of them. -/
inductive Node.Inside (n : Node) : List Node → Prop
  | here {ns : List Node} (member : n ∈ ns) : Inside n ns
  | body {ns body : List Node} {mark : Mark} {condition : Path} {elseBody : Option (List Node)}
      (member : .cond mark condition body elseBody ∈ ns) (inside : Inside n body) : Inside n ns
  | elseBody {ns body second : List Node} {mark : Mark} {condition : Path}
      (member : .cond mark condition body (some second) ∈ ns) (inside : Inside n second) : Inside n ns
  | inline {ns body : List Node} {mark : Mark} {items : Path}
      (member : .mapInline mark body items ∈ ns) (inside : Inside n body) : Inside n ns

namespace Node

variable {n m : Node} {ns : List Node}

theorem Inside.mono {ms : List Node} (inside : n.Inside ns) (among : ns ⊆ ms) : n.Inside ms := by
  cases inside with
  | here member => exact .here (among member)
  | body member inside => exact .body (among member) inside
  | elseBody member inside => exact .elseBody (among member) inside
  | inline member inside => exact .inline (among member) inside

theorem mem_preorderIn_of_mem (member : m ∈ ns) (inside : n ∈ m.preorder) : n ∈ Node.preorderIn ns := by
  induction ns with
  | nil => cases member
  | cons k ns ih =>
    rw [preorderIn, List.mem_append]
    rcases List.mem_cons.mp member with rfl | later
    · exact .inl inside
    · exact .inr (ih later)

theorem mem_preorder_self (n : Node) : n ∈ n.preorder := by
  cases n <;> exact List.mem_cons_self

mutual

theorem inside_of_mem_preorder : ∀ m : Node, n ∈ m.preorder → n.Inside [m]
  | .cond mark condition body elseBody, member => by
    rcases List.mem_cons.mp member with rfl | deeper
    · exact .here List.mem_cons_self
    · rcases List.mem_append.mp deeper with first | second
      · exact .body List.mem_cons_self (inside_of_mem_preorderIn body first)
      · cases elseBody with
        | none => cases second
        | some other => exact .elseBody List.mem_cons_self (inside_of_mem_preorderIn other second)
  | .mapInline mark body items, member => by
    rcases List.mem_cons.mp member with rfl | deeper
    · exact .here List.mem_cons_self
    · exact .inline List.mem_cons_self (inside_of_mem_preorderIn body deeper)
  | .text _, member | .attr _ _, member | .include _ _, member | .apply _ _ _, member | .mapNamed _ _ _, member
  | .join _ _ _, member | .txt _ _, member => .here member

theorem inside_of_mem_preorderIn : ∀ ns : List Node, n ∈ Node.preorderIn ns → n.Inside ns
  | [], member => nomatch member
  | m :: ns, member => by
    rcases List.mem_append.mp member with first | later
    · exact (inside_of_mem_preorder m first).mono (List.cons_subset.mpr ⟨List.mem_cons_self, List.nil_subset _⟩)
    · exact (inside_of_mem_preorderIn ns later).mono (List.subset_cons_self m ns)

end

/-- The nodes that are listed are those that stand in the tree. -/
theorem mem_preorderIn : n ∈ Node.preorderIn ns ↔ n.Inside ns := by
  refine ⟨inside_of_mem_preorderIn ns, fun inside => ?_⟩
  induction inside with
  | here member => exact mem_preorderIn_of_mem member n.mem_preorder_self
  | body member _ ih =>
    exact mem_preorderIn_of_mem member (List.mem_cons_of_mem _ (List.mem_append_left _ ih))
  | elseBody member _ ih =>
    exact mem_preorderIn_of_mem member (List.mem_cons_of_mem _ (List.mem_append_right _ ih))
  | inline member _ ih => exact mem_preorderIn_of_mem member (List.mem_cons_of_mem _ ih)

/-- The place and the text of a directive that stands for a text to be translated. -/
def txt? : Node → Option (Mark × String)
  | .txt mark key => some (mark, key)
  | .text _ | .attr _ _ | .include _ _ | .apply _ _ _ | .cond _ _ _ _ | .mapNamed _ _ _ | .mapInline _ _ _
  | .join _ _ _ => none

theorem txt?_eq_some_iff {mark : Mark} {key : String} : n.txt? = some (mark, key) ↔ n = .txt mark key := by
  cases n <;> simp [txt?]

/-- All texts to be translated in a tree, with the places of their directives. -/
def txtsIn (ns : List Node) : List (Mark × String) :=
  (Node.preorderIn ns).filterMap txt?

theorem mem_txtsIn {mark : Mark} {key : String} : (mark, key) ∈ txtsIn ns ↔ (Node.txt mark key).Inside ns := by
  rw [txtsIn, List.mem_filterMap, ← mem_preorderIn]
  constructor
  · rintro ⟨n, member, same⟩
    rwa [← txt?_eq_some_iff.mp same]
  · exact fun member => ⟨_, member, rfl⟩

/-- What is told of a text and its place. -/
def occurrenceOf (x : Mark × String) : Occurrence := ⟨x.2, x.1.line⟩

mutual

theorem occurrences_eq (n : Node) : n.occurrences = (n.preorder.filterMap txt?).map occurrenceOf := by
  cases n with
  | cond mark condition body elseBody =>
    rw [occurrences, preorder, List.filterMap_cons_none rfl, List.filterMap_append, List.map_append,
      occurrencesIn_eq body, occurrencesElse_eq elseBody]
  | mapInline mark body items =>
    rw [occurrences, preorder, List.filterMap_cons_none rfl, occurrencesIn_eq body]
  | text | attr | «include» | apply | mapNamed | join | txt => rfl

theorem occurrencesIn_eq (ns : List Node) :
    occurrencesIn ns = ((preorderIn ns).filterMap txt?).map occurrenceOf := by
  cases ns with
  | nil => rfl
  | cons n ns =>
    rw [occurrencesIn, preorderIn, List.filterMap_append, List.map_append, occurrences_eq n, occurrencesIn_eq ns]

theorem occurrencesElse_eq (elseBody : Option (List Node)) :
    occurrencesElse elseBody = ((preorderElse elseBody).filterMap txt?).map occurrenceOf := by
  cases elseBody with
  | none => rfl
  | some body => exact occurrencesIn_eq body

end

mutual

theorem marks_eq (n : Node) : n.marks = n.preorder.filterMap mark? := by
  cases n with
  | cond mark condition body elseBody =>
    rw [marks, preorder, List.filterMap_cons, mark?, List.filterMap_append, marksIn_eq body, marksElse_eq elseBody]
  | mapInline mark body items =>
    rw [marks, preorder, List.filterMap_cons, mark?, marksIn_eq body]
  | text | attr | «include» | apply | mapNamed | join | txt => rfl

theorem marksIn_eq (ns : List Node) : marksIn ns = (preorderIn ns).filterMap mark? := by
  cases ns with
  | nil => rfl
  | cons n ns => rw [marksIn, preorderIn, List.filterMap_append, marks_eq n, marksIn_eq ns]

theorem marksElse_eq (elseBody : Option (List Node)) :
    marksElse elseBody = (preorderElse elseBody).filterMap mark? := by
  cases elseBody with
  | none => rfl
  | some body => exact marksIn_eq body

end

/-- The texts to be translated stand at some of the directives, in the same order. -/
theorem txtsIn_sublist (ns : List Node) : ((txtsIn ns).map Prod.fst).Sublist (marksIn ns) := by
  rw [txtsIn, marksIn_eq]
  induction preorderIn ns with
  | nil => exact .slnil
  | cons n ns ih =>
    cases n with
    | text => exact ih
    | txt mark key => exact ih.cons_cons mark
    | attr mark | «include» mark | apply mark | cond mark | mapNamed mark | mapInline mark | join mark =>
      exact ih.cons mark

end Node

/-- The texts to be translated of a source that compiles are told once for each directive that stands for one, at any
depth, with its text and its line. They are told in the order of the source: their places are those of strictly
increasing offsets at which delimiters stand, so each place comes behind the one before, and no line is told
after a later one. -/
theorem occurrences_in_order (source name : String) :
    match compile source name with
    | .error e => occurrencesOfSource source = .error e
    | .ok t =>
      occurrencesOfSource source = .ok ((Node.txtsIn t.nodes).map fun x => ⟨x.2, x.1.line⟩) ∧
      (∀ mark key, (mark, key) ∈ Node.txtsIn t.nodes ↔ (Node.txt mark key).Inside t.nodes) ∧
      (∃ ps : List Nat, ps.Pairwise (· < ·) ∧ (∀ p ∈ ps, source.toList[p]? = some '$') ∧
        (Node.txtsIn t.nodes).map Prod.fst = ps.map (placeAt source.toList)) ∧
      ((Node.txtsIn t.nodes).map Prod.fst).Pairwise Mark.Before ∧
      ((Node.txtsIn t.nodes).map fun x => x.1.line).Pairwise (· ≤ ·) := by
  have placed := compileStretch_placed .page _ (Cursor.Within.ofText source.toList)
  rw [occurrencesOfSource, compile, compile]
  cases ran : compileStretch .page (.ofText source.toList) with
  | error e => rfl
  | ok nodes =>
    rw [ran] at placed
    obtain ⟨all, rising, inside, same⟩ := placed
    obtain ⟨ps, chosen, places⟩ := List.sublist_map_iff.mp (same ▸ Node.txtsIn_sublist nodes)
    have delimiters : ∀ p ∈ ps, source.toList[p]? = some '$' :=
      fun p member => (inside p (chosen.subset member)).2.2
    have order : ((Node.txtsIn nodes).map Prod.fst).Pairwise Mark.Before := by
      rw [places, List.pairwise_map]
      refine (rising.sublist chosen).imp_of_mem fun {p q} _ member before => placeAt_before before ?_
      obtain ⟨bound, -⟩ := List.getElem?_eq_some_iff.mp (delimiters q member)
      exact Nat.le_of_lt bound
    have lines : ((Node.txtsIn nodes).map fun x => x.1.line).Pairwise (· ≤ ·) := by
      rw [List.pairwise_map] at order ⊢
      exact order.imp Mark.Before.line_le
    refine ⟨?_, fun mark key => Node.mem_txtsIn, ⟨ps, rising.sublist chosen, delimiters, places⟩, order, lines⟩
    exact congrArg Except.ok (Node.occurrencesIn_eq nodes)

end Stencil
