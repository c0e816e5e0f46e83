import Stencil.Proofs.Template.Builds

namespace Stencil

mutual

/-- What a printer writes into a block does not end the block. -/
theorem Node.transparent (n : Node) (ok : n.isPrintable = true) : Transparent (n.print .block) := by
  cases n with
  | text value =>
    rw [Node.isPrintable, Bool.and_eq_true] at ok
    exact .escape (not_mem_of_isPlain ok.2)
  | attr mark path =>
    rw [Node.isPrintable, Bool.and_eq_true] at ok
    exact (isWord_path ok.1).isSimple.transparent
  | «include» mark name =>
    rw [Node.isPrintable] at ok
    exact (isSimple_include ok).transparent
  | apply mark func arg =>
    rw [Node.isPrintable, Bool.and_eq_true] at ok
    exact (isSimple_apply ok.1 ok.2).transparent
  | cond mark condition body elseBody =>
    rw [Node.isPrintable, Bool.and_eq_true, Bool.and_eq_true] at ok
    obtain ⟨⟨conditionOk, bodyOk⟩, elseOk⟩ := ok
    have head := (isSimple_cond conditionOk).transparent
    have first := Node.transparentAll body bodyOk
    have second := Node.transparentElse elseBody elseOk
    have last : Transparent (delimited "end if".toList) := IsSimple.transparent (by decide)
    exact ((head.append first).append second).append last
  | mapNamed mark name items =>
    rw [Node.isPrintable, Bool.and_eq_true] at ok
    exact (isSimple_mapNamed ok.1 ok.2).transparent
  | mapInline mark body items =>
    rw [Node.isPrintable, Bool.and_eq_true] at ok
    have inside := Node.transparentAll body ok.1
    exact .block isSmooth_map inside (.path ok.2)
  | join mark separator items =>
    rw [Node.isPrintable, Bool.and_eq_true] at ok
    have inside := Transparent.escape (not_mem_of_isPlain ok.1)
    exact .block isSmooth_join inside (.path ok.2)
  | txt mark key =>
    rw [Node.isPrintable, Bool.and_eq_true] at ok
    have inside := Transparent.escape (not_mem_of_isPlain ok.2)
    have alone := Transparent.block isSmooth_txt inside .nil
    rw [List.append_nil] at alone
    exact alone

theorem Node.transparentAll (ns : List Node) (ok : Node.arePrintable ns = true) :
    Transparent (Node.printAll .block ns) := by
  cases ns with
  | nil => exact .nil
  | cons n ns =>
    rw [Node.arePrintable, Bool.and_eq_true, Bool.and_eq_true] at ok
    exact (Node.transparent n ok.1.1).append (Node.transparentAll ns ok.1.2)

theorem Node.transparentElse (elseBody : Option (List Node))
    (ok : Node.isPrintableElse elseBody = true) : Transparent (Node.printElse .block elseBody) := by
  cases elseBody with
  | none => exact .nil
  | some body =>
    have word : Transparent (delimited "else".toList) := IsSimple.transparent (by decide)
    exact word.append (Node.transparentAll body ok)

end

/-- The source of a sequence whose first node is no text stops a text in front of it. -/
theorem stopsText_printAll {r : Region} {ns : List Node} {tail : List Char}
    (stops : StopsText tail) (start : ns.head?.any Node.isText = false) :
    StopsText (Node.printAll r ns ++ tail) := by
  cases ns with
  | nil => exact stops
  | cons n ns =>
    cases n with
    | text value => cases start
    | attr | «include» | apply | cond | mapNamed | mapInline | join | txt => exact .inr ⟨_, rfl⟩

theorem stopsText_printElse {r : Region} (elseBody : Option (List Node)) {tail : List Char}
    (stops : StopsText tail) : StopsText (Node.printElse r elseBody ++ tail) := by
  cases elseBody with
  | none => exact stops
  | some body => exact .inr ⟨_, rfl⟩

mutual

/-- Reading a printed node adds that node. Blocks inside it are shorter than its source, so a bound
on the length of the source is enough for them to be compiled. -/
theorem Node.print_builds (n : Node) (ok : n.isPrintable = true) {inline : Inline} {bound : Nat}
    (below : inline.CompilesBelow bound) {r : Region} (short : (n.print r).length ≤ bound)
    {tail : List Char} (stops : n.isText = true → StopsText tail) (d : Draft) :
    Builds inline r (n.print r) tail d (d.Extends [n]) := by
  cases n with
  | text value =>
    rw [Node.isPrintable, Bool.and_eq_true, bne_iff_ne] at ok
    exact .text ok.1 ok.2 (stops rfl)
  | attr mark path =>
    rw [Node.isPrintable, Bool.and_eq_true] at ok
    exact .node (isWord_path ok.1).isSimple.crossable fun t kind value =>
      t.item_attr kind value ok.1 ok.2
  | «include» mark name =>
    rw [Node.isPrintable] at ok
    exact .node (isSimple_include ok).crossable fun t kind value =>
      t.item_keyword kind value (.cons rfl _) (.includeOperands ok)
  | apply mark func arg =>
    rw [Node.isPrintable, Bool.and_eq_true] at ok
    exact .node (isSimple_apply ok.1 ok.2).crossable fun t kind value =>
      t.item_keyword kind value (.cons rfl _) (.applyOperands ok.1 ok.2)
  | cond mark condition body elseBody =>
    rw [Node.isPrintable, Bool.and_eq_true, Bool.and_eq_true] at ok
    obtain ⟨⟨conditionOk, bodyOk⟩, elseOk⟩ := ok
    rw [Node.print, List.length_append, List.length_append, List.length_append] at short
    have last : StopsText (delimited "end if".toList ++ tail) := .inr ⟨_, rfl⟩
    have untilElse : Builds inline r
        (delimited ("if ".toList ++ condition.letters) ++ Node.printAll r body)
        (Node.printElse r elseBody ++ (delimited "end if".toList ++ tail)) d
        (d.InBody condition body) := by
      refine .append (.openIf conditionOk) fun d' opens => ?_
      refine .weaken ?_ fun d'' grows => opens.inBody grows
      exact Node.printAll_builds body bodyOk below (by omega) (stopsText_printElse elseBody last) d'
    refine .append (.append untilElse fun d' inBody => ?_) fun d' closes => .endIf closes
    exact Node.printElse_builds elseBody elseOk below (by omega) last inBody
  | mapNamed mark name items =>
    rw [Node.isPrintable, Bool.and_eq_true] at ok
    exact .node (isSimple_mapNamed ok.1 ok.2).crossable fun t kind value =>
      t.item_keyword kind value (.cons rfl _) (.mapNamedOperands ok.1 ok.2)
  | mapInline mark body items =>
    rw [Node.isPrintable, Bool.and_eq_true] at ok
    have inside := Node.transparentAll body ok.1
    refine .node (.block isSmooth_map inside (.path ok.2)) fun t kind value =>
      t.item_keyword kind value (.cons rfl _) (.mapInlineOperands inside ?_ ok.2)
    intro block content
    have shorter : block.rest.length < bound := by
      rw [content]
      simp only [Node.print, delimited, braced, List.length_append, List.length_cons] at short
      omega
    rw [below block shorter]
    refine compileStretch_of_builds fun inline below => ?_
    rw [content] at below ⊢
    exact Node.printAll_builds body ok.1 below (Nat.le_refl _) (.inl rfl) .empty
  | join mark separator items =>
    rw [Node.isPrintable, Bool.and_eq_true] at ok
    have inside := Transparent.escape (not_mem_of_isPlain ok.1)
    exact .node (.block isSmooth_join inside (.path ok.2)) fun t kind value =>
      t.item_keyword kind value (.cons rfl _) (.joinOperands ok.1 ok.2)
  | txt mark key =>
    rw [Node.isPrintable, Bool.and_eq_true, bne_iff_ne] at ok
    have inside := Transparent.escape (not_mem_of_isPlain ok.2)
    have alone := Crossable.block isSmooth_txt inside .nil
    rw [List.append_nil] at alone
    exact .node alone fun t kind value =>
      t.item_keyword kind value (.cons rfl _) (.txtOperands ok.1 ok.2)

theorem Node.printAll_builds (ns : List Node) (ok : Node.arePrintable ns = true) {inline : Inline}
    {bound : Nat} (below : inline.CompilesBelow bound) {r : Region}
    (short : (Node.printAll r ns).length ≤ bound) {tail : List Char} (stops : StopsText tail)
    (d : Draft) : Builds inline r (Node.printAll r ns) tail d (d.Extends ns) := by
  cases ns with
  | nil => exact .nothing (.nil d)
  | cons n ns =>
    rw [Node.arePrintable, Bool.and_eq_true, Bool.and_eq_true] at ok
    obtain ⟨⟨firstOk, restOk⟩, apart⟩ := ok
    rw [Node.printAll, List.length_append] at short
    refine .append (Node.print_builds n firstOk below (by omega) (fun text => ?_) d) fun d' front => ?_
    · rw [text] at apart
      exact stopsText_printAll stops (by simpa using apart)
    · refine .weaken ?_ fun d'' back => front.append back
      exact Node.printAll_builds ns restOk below (by omega) stops d'

theorem Node.printElse_builds (elseBody : Option (List Node))
    (ok : Node.isPrintableElse elseBody = true) {inline : Inline} {bound : Nat}
    (below : inline.CompilesBelow bound) {r : Region}
    (short : (Node.printElse r elseBody).length ≤ bound) {tail : List Char} (stops : StopsText tail)
    {d d' : Draft} {condition : Path} {body : List Node} {mark : Mark}
    (inBody : d.InBody condition body d') :
    Builds inline r (Node.printElse r elseBody) tail d'
      (d.ClosesTo (.cond mark condition body elseBody)) := by
  cases elseBody with
  | none => exact .nothing inBody.closes
  | some second =>
    rw [Node.printElse, List.length_append] at short
    refine .append (.otherwise inBody) fun start inElse => ?_
    refine .weaken ?_ fun last grows => inElse.closes grows
    exact Node.printAll_builds second ok below (by omega) stops start

end

/-- Parsing undoes printing, for every well-formed sequence of nodes: its source compiles, and to the
same nodes up to their places. -/
theorem compile_print (nodes : List Node) (name : String) (ok : Node.arePrintable nodes = true) :
    ∃ t, compile (String.ofList (Node.printAll .page nodes)) name = .ok t ∧
      Node.agreeAll t.nodes nodes = true := by
  obtain ⟨nodes', compiled, agrees⟩ :
      ∃ nodes', compileStretch .page (.ofText (Node.printAll .page nodes)) = .ok nodes' ∧
        Node.agreeAll nodes' nodes = true :=
    compileStretch_of_builds fun inline below =>
      Node.printAll_builds nodes ok below (Nat.le_refl _) (.inl rfl) .empty
  refine ⟨⟨nodes', name⟩, ?_, agrees⟩
  rw [compile, String.toList_ofList, compiled]
  rfl

/-- A conditional in a block in a conditional, with text that needs escapes of both kinds. -/
theorem compile_print_of_nested :
    Node.arePrintable nestedNodes = true ∧
      ∃ t, compile (String.ofList (Node.printAll .page nestedNodes)) "page" = .ok t ∧
        Node.agreeAll t.nodes nestedNodes = true :=
  ⟨by decide, compile_print nestedNodes "page" (by decide)⟩

end Stencil
