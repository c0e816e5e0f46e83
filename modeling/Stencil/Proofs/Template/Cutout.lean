import Stencil.Proofs.Template.Window

namespace Stencil

variable {α : Type} {inline : Inline} {r : Region} {c c' : Cursor} {l : List Char} {t : Token}

mutual

/-- The templates that are written inside a node, at any depth, outermost first. -/
def Node.bodies : Node → List (List Node)
  | .mapInline _ body _ => body :: Node.bodiesIn body
  | .cond _ _ body elseBody => Node.bodiesIn body ++ Node.bodiesElse elseBody
  | .text _ | .attr _ _ | .include _ _ | .apply _ _ _ | .mapNamed _ _ _ | .join _ _ _ | .txt _ _ => []

def Node.bodiesIn : List Node → List (List Node)
  | [] => []
  | n :: ns => n.bodies ++ Node.bodiesIn ns

def Node.bodiesElse : Option (List Node) → List (List Node)
  | none => []
  | some ns => Node.bodiesIn ns

end

/-- A reading that goes through a piece of `l` stays in it. -/
theorem Abreast.stays {x : Scan α} {R : α → α → Prop} {a : α} (abreast : Abreast Eq l R x x)
    (inside : c.rest <:+: l) (read : x c = .ok a c') : R a a ∧ c'.rest <:+: l := by
  have step := abreast c c ⟨rfl, inside, rfl⟩
  rw [read] at step
  exact ⟨step.1, step.2.inside⟩

/-- The templates inside the node are one, compiled from a block of the text `l`, and those inside that one;
or there are none. -/
def Node.Local (inline : Inline) (l : List Char) (n : Node) : Prop :=
  n.bodies = [] ∨ ∃ block body, block.rest <:+: l ∧ block.rest.length < l.length ∧
    inline block = .ok body ∧ n.bodies = body :: Node.bodiesIn body

theorem readOperands_local {mark : Mark} {k : Keyword} {n : Node} (inside : c.rest <:+: l)
    (read : readOperands inline mark k c = .ok (.node n) c') : n.Local inline l := by
  cases k with
  | map =>
    obtain ⟨begun, blanks, which⟩ := readOperands_map_ok read
    obtain ⟨-, later⟩ := (Abreast.skipBlanks .eq).stays inside blanks
    rcases which with ⟨-, block, _, body, _, _, braces, compiled, -, same⟩ | ⟨-, _, _, _, _, -, -, same⟩
    · cases same
      obtain ⟨⟨like, shorter⟩, -⟩ := (Abreast.readColonBlock .eq _).stays later braces
      exact .inr ⟨block, body, like.inside, shorter, compiled, rfl⟩
    · cases same
      exact .inl rfl
  | «include» =>
    obtain ⟨name, _, -, done⟩ := Scan.bind_ok read
    cases done
    exact .inl rfl
  | apply =>
    obtain ⟨func, _, -, rest⟩ := Scan.bind_ok read
    obtain ⟨arg, _, -, done⟩ := Scan.bind_ok rest
    cases done
    exact .inl rfl
  | cond =>
    obtain ⟨condition, _, -, done⟩ := Scan.bind_ok read
    cases done
  | join =>
    obtain ⟨separator, _, -, rest⟩ := Scan.bind_ok read
    obtain ⟨items, _, -, done⟩ := Scan.bind_ok rest
    cases done
    exact .inl rfl
  | txt =>
    obtain ⟨key, _, -, rest⟩ := Scan.bind_ok read
    split at rest <;> cases rest
    exact .inl rfl

theorem Token.item_local {n : Node} (read : t.item inline = .ok (.node n)) :
    t.kind = .text ∧ n.bodies = [] ∨ t.kind = .directive ∧ n.Local inline t.value := by
  rcases Token.item_ok read with
    ⟨text, same⟩ | ⟨directive, ⟨-, same⟩ | ⟨-, same⟩ | ⟨-, -, c', item⟩⟩
  · cases same
    exact .inl ⟨text, rfl⟩
  · cases same
  · cases same
  · refine .inr ⟨directive, ?_⟩
    obtain ⟨w, mid, word, ⟨k, last, -, operands⟩ | ⟨p, -, -, -, same⟩⟩ := readItem_ok item
    · have whole : t.content.rest <:+: t.value := List.infix_rfl
      obtain ⟨-, inside⟩ := (Abreast.nextWord .eq).stays whole word
      exact readOperands_local inside operands
    · cases same
      exact .inl rfl

/-- Every template inside derived nodes comes from the content of one of the directives, or is inside one
that does. -/
theorem Derives.bodies {ts : List Token} {ns body : List Node} (derives : Derives inline ts ns)
    (member : body ∈ Node.bodiesIn ns) :
    ∃ t ∈ ts, t.kind = .directive ∧ ∃ block outer, block.rest <:+: t.value ∧
      block.rest.length < t.value.length ∧ inline block = .ok outer ∧
      (body = outer ∨ body ∈ Node.bodiesIn outer) := by
  induction derives with
  | nil => cases member
  | @single t n ts ns read _ ih =>
    rw [Node.bodiesIn] at member
    rcases List.mem_append.mp member with own | later
    · rcases Token.item_local read with ⟨-, none⟩ | ⟨directive, none | one⟩
      · rw [none] at own
        cases own
      · rw [none] at own
        cases own
      · obtain ⟨block, outer, inside, shorter, compiled, all⟩ := one
        rw [all] at own
        exact ⟨t, List.mem_cons_self, directive, block, outer, inside, shorter, compiled,
          List.mem_cons.mp own⟩
    · obtain ⟨u, there, found⟩ := ih later
      exact ⟨u, List.mem_cons_of_mem _ there, found⟩
  | cond _ _ _ _ ihBody ihAfter =>
    simp only [Node.bodiesIn, Node.bodies, Node.bodiesElse, List.append_nil, List.mem_append] at member
    rcases member with first | later
    · obtain ⟨u, there, found⟩ := ihBody first
      exact ⟨u, by simp [there], found⟩
    · obtain ⟨u, there, found⟩ := ihAfter later
      exact ⟨u, by simp [there], found⟩
  | condElse _ _ _ _ _ _ ihBody ihSecond ihAfter =>
    simp only [Node.bodiesIn, Node.bodies, Node.bodiesElse, List.mem_append] at member
    rcases member with (first | second) | later
    · obtain ⟨u, there, found⟩ := ihBody first
      exact ⟨u, by simp [there], found⟩
    · obtain ⟨u, there, found⟩ := ihSecond second
      exact ⟨u, by simp [there], found⟩
    · obtain ⟨u, there, found⟩ := ihAfter later
      exact ⟨u, by simp [there], found⟩

/-- Every template inside a stretch is what a shorter stretch of it compiles to. -/
theorem compileStretch_bodies {nodes body : List Node} (compiled : compileStretch r c = .ok nodes)
    (member : body ∈ Node.bodiesIn nodes) :
    ∃ block, block.rest <:+: c.rest ∧ compileStretch .block block = .ok body := by
  -- A template inside another one is shorter than the directive that it stands in.
  induction size : c.rest.length using Nat.strongRecOn generalizing r c nodes with
  | ind size ih =>
    obtain ⟨ts, read, derives⟩ := compileStretch_eq_ok_iff.mp compiled
    obtain ⟨t, there, directive, block, outer, inside, shorter, done, which⟩ := derives.bodies member
    obtain ⟨within, short⟩ := value_inside read (List.mem_filter.mp there).1 directive
    rcases which with rfl | deeper
    · exact ⟨block, inside.trans within, done⟩
    · have less : block.rest.length < c.rest.length := by omega
      obtain ⟨deepest, further, doneToo⟩ := ih _ (size ▸ less) done deeper rfl
      exact ⟨deepest, further.trans (inside.trans within), doneToo⟩

/-- A piece of a stretch is a stretch of the same text. -/
theorem slice_of_infix {text : List Char} {start stop : Nat} (inside : l <:+: (text.take stop).drop start)
    (ordered : start ≤ stop) (within : stop ≤ text.length) :
    ∃ low high, start ≤ low ∧ low ≤ high ∧ high ≤ stop ∧ (text.take high).drop low = l := by
  obtain ⟨front, back, whole⟩ := inside
  have length := congrArg List.length whole
  simp only [List.length_append, List.length_drop, List.length_take] at length
  have split : text.drop start = front ++ (l ++ (back ++ (text.drop start).drop (stop - start))) := by
    rw [List.drop_take] at whole
    simp only [← List.append_assoc, whole, List.take_append_drop]
  refine ⟨start + front.length, start + front.length + l.length, by omega, by omega, by omega, ?_⟩
  rw [List.drop_take, Nat.add_sub_cancel_left, ← List.drop_drop, split, List.drop_left, List.take_left]

/-- Neither the offset of a stretch nor the text around it matters. -/
theorem compileStretch_same {d : Cursor} (rest : c.rest = d.rest) (mark : c.mark = d.mark) :
    compileStretch r c = compileStretch r d := by
  have like : c.Like Eq c.rest d := ⟨rest, List.infix_rfl, mark⟩
  exact Alike.eq (fun _ _ => Node.LikeAll.eq) (like.compile_alike .eq fun _ _ => rfl)

theorem slice_cut_rest {text : List Char} {start stop : Nat} (within : stop ≤ text.length) (mark : Mark) :
    (Cursor.slice ((text.take stop).drop start) 0 (stop - start) mark).rest =
      (text.take stop).drop start := by
  have length : ((text.take stop).drop start).length = stop - start := by
    rw [List.length_drop, List.length_take, Nat.min_eq_left within]
  rw [Cursor.slice, List.drop_zero, ← length, List.take_length]

/-- A stretch of a text compiles to what it compiles to when it is cut out. What is written inside an inline map in it
is a stretch of its own, which compiles to the body when it is cut out in turn. -/
theorem compileBlock_slice {text : List Char} {start stop : Nat} (ordered : start ≤ stop)
    (within : stop ≤ text.length) (mark : Mark) :
    compileBlock (.slice text start stop mark) =
        compileBlock (.slice ((text.take stop).drop start) 0 (stop - start) mark) ∧
      ∀ inner, compileBlock (.slice text start stop mark) = .ok inner →
        ∀ body ∈ Node.bodiesIn inner.nodes, ∃ low high place, start ≤ low ∧ low ≤ high ∧ high ≤ stop ∧
          compileBlock (.slice ((text.take high).drop low) 0 (high - low) place) = .ok ⟨body, ""⟩ := by
  refine ⟨?_, ?_⟩
  · have same := compileStretch_same (r := .block) (c := .slice text start stop mark)
      (slice_cut_rest within mark).symm rfl
    rw [compileBlock, compileBlock, same]
  · intro inner compiled body member
    cases ran : compileStretch .block (.slice text start stop mark) with
    | error e =>
      rw [compileBlock, ran] at compiled
      cases compiled
    | ok nodes =>
      rw [compileBlock, ran] at compiled
      cases compiled
      obtain ⟨block, inside, done⟩ := compileStretch_bodies ran member
      obtain ⟨low, high, below, between, above, cut⟩ := slice_of_infix inside ordered within
      refine ⟨low, high, block.mark, below, between, above, ?_⟩
      have same : compileStretch .block (.slice ((text.take high).drop low) 0 (high - low) block.mark) =
          compileStretch .block block :=
        compileStretch_same ((slice_cut_rest (Nat.le_trans above within) _).trans cut) rfl
      rw [compileBlock, same, done]
      rfl

/-- The text of a window alone. -/
def Window.cutOut (w : Window) : Window :=
  ⟨(w.text.take w.stop).drop w.position, 0, w.stop - w.position, w.mark⟩

theorem Window.compileRange_of_cutOut {w : Window} (ordered : w.position ≤ w.stop) (within : w.stop ≤ w.text.length) :
    compileRange w = compileRange w.cutOut := by
  have bound : w.cutOut.stop ≤ w.cutOut.text.length := by
    simp only [cutOut, List.length_drop, List.length_take]
    omega
  rw [compileRange_eq w within, compileRange_eq w.cutOut bound]
  exact (compileBlock_slice ordered within w.mark).1

/-- A range that is compiled where it stands gives what the text in it alone gives, in all nodes and all places, or it
fails with the same fault at the same place. What is written inside an inline map in it is a range of the same text,
which compiles to the body, where it stands as well as cut out. Nothing that is asked of a window on the way depends
on anything but the stretch that is seen through it. -/
theorem compileRange_cutOut (w : Window) (ordered : w.position ≤ w.stop) (within : w.stop ≤ w.text.length) :
    compileRange w = compileRange w.cutOut ∧ compileRange w = compileBlock w.view ∧
      (∀ o : Operation, Refines w.text w.stop Eq o.performIn o.perform) ∧
      ∀ inner, compileRange w = .ok inner → ∀ body ∈ Node.bodiesIn inner.nodes, ∃ block : Window,
        block.text = w.text ∧ w.position ≤ block.position ∧ block.position ≤ block.stop ∧ block.stop ≤ w.stop ∧
          compileRange block = .ok ⟨body, ""⟩ ∧ compileRange block.cutOut = .ok ⟨body, ""⟩ := by
  have seen := compileRange_eq w within
  refine ⟨w.compileRange_of_cutOut ordered within, seen, .perform within, fun inner compiled body member => ?_⟩
  rw [seen] at compiled
  obtain ⟨low, high, place, below, between, above, alone⟩ :=
    (compileBlock_slice ordered within w.mark).2 inner compiled body member
  let block : Window := ⟨w.text, low, high, place⟩
  have bound : block.stop ≤ block.text.length := Nat.le_trans above within
  have there : compileRange block = .ok ⟨body, ""⟩ := by
    rw [compileRange_eq block bound]
    exact (compileBlock_slice between bound place).1.trans alone
  exact ⟨block, rfl, below, between, above, there, (block.compileRange_of_cutOut between bound).symm.trans there⟩

/-- An inline map with another one in it, between characters that would matter if they could be seen. -/
def nestedMaps : Window :=
  ⟨"\\$map:\x7b\\$$map:\x7b$v$\x7d a$\x7d b$\\".toList, 1, 26, ⟨1, 2⟩⟩

theorem compileRange_cutOut_of_nested :
    nestedMaps.position ≤ nestedMaps.stop ∧ nestedMaps.stop ≤ nestedMaps.text.length ∧
    ((compileRange nestedMaps).toOption.map fun t => (Node.bodiesIn t.nodes).length) = some 2 ∧
    compileRange nestedMaps = compileRange nestedMaps.cutOut ∧
    ∀ inner, compileRange nestedMaps = .ok inner → ∀ body ∈ Node.bodiesIn inner.nodes, ∃ block : Window,
      block.text = nestedMaps.text ∧ 1 ≤ block.position ∧ block.position ≤ block.stop ∧ block.stop ≤ 26 ∧
        compileRange block = .ok ⟨body, ""⟩ ∧ compileRange block.cutOut = .ok ⟨body, ""⟩ := by
  have ordered : nestedMaps.position ≤ nestedMaps.stop := by decide
  have within : nestedMaps.stop ≤ nestedMaps.text.length := by decide
  have two : ((compileRange nestedMaps).toOption.map fun t => (Node.bodiesIn t.nodes).length) = some 2 := by
    decide +kernel
  obtain ⟨same, -, -, bodies⟩ := compileRange_cutOut nestedMaps ordered within
  exact ⟨ordered, within, two, same, bodies⟩

end Stencil
