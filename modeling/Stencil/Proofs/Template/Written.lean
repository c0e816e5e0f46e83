import Stencil.Proofs.Render.Verbatim
import Stencil.Proofs.Template.Names
import Stencil.Proofs.Template.RoundTrip
import Stencil.Proofs.Template.Stretch

namespace Stencil

section Shapes

variable {n m : Node} {ns ms : List Node} {mark : Mark}

theorem Node.eq_nil_of_agreeAll (agree : Node.agreeAll ns [] = true) : ns = [] := by
  cases ns with
  | nil => rfl
  | cons => cases agree

theorem Node.exists_cons_of_agreeAll (agree : Node.agreeAll ns (m :: ms) = true) :
    ∃ n rest, ns = n :: rest ∧ n.agrees m = true ∧ Node.agreeAll rest ms = true := by
  cases ns with
  | nil => cases agree
  | cons n rest =>
    obtain ⟨first, others⟩ := Bool.and_eq_true_iff.mp agree
    exact ⟨n, rest, rfl, first, others⟩

theorem Node.eq_text_of_agrees {value : String} (agree : n.agrees (.text value) = true) : n = .text value := by
  cases n with
  | text other => rw [eq_of_beq agree]
  | _ => cases agree

theorem Node.eq_attr_of_agrees {path : Path} (agree : n.agrees (.attr mark path) = true) :
    ∃ place, n = .attr place path := by
  cases n with
  | attr place other => exact ⟨place, by rw [eq_of_beq agree]⟩
  | _ => cases agree

theorem Node.eq_include_of_agrees {name : String} (agree : n.agrees (.include mark name) = true) :
    ∃ place, n = .include place name := by
  cases n with
  | «include» place other => exact ⟨place, by rw [eq_of_beq agree]⟩
  | _ => cases agree

theorem Node.eq_mapNamed_of_agrees {name : String} {items : Path}
    (agree : n.agrees (.mapNamed mark name items) = true) : ∃ place, n = .mapNamed place name items := by
  cases n with
  | mapNamed place other path =>
    obtain ⟨names, paths⟩ := Bool.and_eq_true_iff.mp agree
    exact ⟨place, by rw [eq_of_beq names, eq_of_beq paths]⟩
  | _ => cases agree

/-- A text, which may be empty, and an include behind it. -/
theorem Node.eq_textAndInclude_of_agreeAll {text name : String}
    (agree : Node.agreeAll ns (Node.verbatim text ++ [.include mark name]) = true) :
    ∃ place, ns = Node.verbatim text ++ [.include place name] := by
  unfold Node.verbatim at agree ⊢
  split at agree
  · rename_i empty
    obtain ⟨i, rest, rfl, included, none⟩ := Node.exists_cons_of_agreeAll agree
    obtain ⟨place, rfl⟩ := Node.eq_include_of_agrees included
    exact ⟨place, by rw [if_pos empty, Node.eq_nil_of_agreeAll none, List.nil_append]⟩
  · rename_i filled
    obtain ⟨w, rest, rfl, written, agree⟩ := Node.exists_cons_of_agreeAll agree
    obtain ⟨i, rest, rfl, included, none⟩ := Node.exists_cons_of_agreeAll agree
    obtain ⟨place, rfl⟩ := Node.eq_include_of_agrees included
    refine ⟨place, ?_⟩
    rw [if_neg filled, Node.eq_text_of_agrees written, Node.eq_nil_of_agreeAll none]
    rfl

end Shapes

/-- A source that is spelled as printable nodes are printed compiles to these nodes. -/
theorem compile_of_printable {nodes : List Node} (printable : Node.arePrintable nodes = true) {source : String}
    (spelled : source.toList = Node.printAll .page nodes) (name : String) :
    ∃ ns, compile source name = .ok ⟨ns, name⟩ ∧ Node.agreeAll ns nodes = true := by
  obtain ⟨ns, compiled, agree⟩ :
      ∃ ns, compileStretch .page (.ofText (Node.printAll .page nodes)) = .ok ns ∧ Node.agreeAll ns nodes = true :=
    compileStretch_of_builds fun inline below =>
      Node.printAll_builds nodes printable below (Nat.le_refl _) (.inl rfl) .empty
  rw [← spelled] at compiled
  exact ⟨ns, compile_eq_ok_iff.mpr ⟨ns, compiled, rfl⟩, agree⟩

section Includes

variable {inline : Inline} {r : Region} {mark m : Mark} {n text : String} {d : Draft} {tail : List Char}

theorem IsReadable.of_isTemplateName (ok : isTemplateName n) : IsReadable n := by
  have word := isWord_name ok
  refine ⟨fun empty => word.filled (String.toList_eq_nil_iff.mpr empty), fun c first => ?_, fun c member => ?_⟩
  · exact (word.chars c (List.mem_of_mem_head? first)).1
  · exact (word.chars c member).2

/-- Every name that can be read at all is read back by an include, also one with a blank in it that ends no word. -/
theorem Passes.readableOperands (readable : IsReadable n) :
    Passes (readOperands inline mark .include) (' ' :: n.toList) (Item.IsNode (.include m n)) [] := by
  have filled : n.toList ≠ [] := fun none => readable.filled (String.toList_eq_nil_iff.mp none)
  have skipped : (' ' :: n.toList).dropWhile isBlank = n.toList ++ [] := by
    rw [List.append_nil]
    change n.toList.dropWhile isBlank = n.toList
    cases letters : n.toList with
    | nil => rfl
    | cons c cs =>
      have bright := readable.begins c (by rw [letters]; rfl)
      rw [List.dropWhile_cons, bright]
      rfl
  have stops : (n.toList ++ []).takeWhile (!endsWord ·) = n.toList := by
    rw [List.append_nil, List.takeWhile_eq_self_iff]
    intro c member
    rw [readable.chars c member]
    rfl
  have read : Passes (Stencil.readName Keyword.include.word mark) (' ' :: n.toList) (· = n) [] := by
    refine .bind (.upToEnd stops skipped) fun w spelled => ?_
    rw [if_neg (spelled ▸ filled)]
    refine .pure ?_
    rw [Word.text, spelled, String.ofList_toList]
  exact .bind read fun _ same => .pure ⟨_, rfl, beq_iff_eq.mpr same⟩

theorem Builds.include (readable : IsReadable n) :
    Builds inline r (delimited ("include ".toList ++ n.toList)) tail d (d.Extends [.include m n]) := by
  have simple : IsSimple n.toList := by
    intro c member
    have inside := readable.chars c member
    refine ⟨?_, ?_, ?_⟩ <;> rintro rfl <;> exact absurd inside (by decide)
  refine .node (IsSimple.append (by decide) simple).crossable fun t kind value => ?_
  exact t.item_keyword kind value (.cons rfl _) (.readableOperands readable)

/-- Text without delimiters is its own escaped form. -/
theorem Region.escape_page {l : List Char} (plain : '$' ∉ l) : Region.page.escape l = l := by
  induction l with
  | nil => rfl
  | cons c cs ih =>
    rw [List.mem_cons, not_or] at plain
    obtain ⟨own, others⟩ := plain
    have kept : Region.page.escapes c = false := beq_eq_false_iff_ne.mpr (Ne.symm own)
    rw [escape_cons, ih others, kept]
    rfl

theorem Builds.verbatim (plain : '$' ∉ text.toList) (literal : '\\' ∉ text.toList) (stops : StopsText tail) :
    Builds inline .page text.toList tail d (d.Extends (Node.verbatim text)) := by
  unfold Node.verbatim
  split
  · rename_i empty
    rw [empty]
    exact .nothing (.nil d)
  · rename_i filled
    have unescaped : isPlain text := by simpa [isPlain] using literal
    have built : Builds inline .page (Region.page.escape text.toList) tail d (d.Extends [.text text]) :=
      .text filled unescaped stops
    rwa [Region.escape_page plain] at built

/-- A text and an include behind it. -/
theorem compile_textAndInclude (plain : '$' ∉ text.toList) (literal : '\\' ∉ text.toList) (readable : IsReadable n)
    (name : String) :
    ∃ place, compile (text ++ "$include " ++ n ++ "$") name =
      .ok ⟨Node.verbatim text ++ [.include place n], name⟩ := by
  have spelled : (text ++ "$include " ++ n ++ "$").toList =
      text.toList ++ delimited ("include ".toList ++ n.toList) := by
    simp [delimited]
  obtain ⟨ns, compiled, agree⟩ :
      ∃ ns, compileStretch .page (.ofText (text ++ "$include " ++ n ++ "$").toList) = .ok ns ∧
        Node.agreeAll ns (Node.verbatim text ++ [.include .origin n]) = true := by
    refine compileStretch_of_builds fun inline _ => ?_
    change Builds inline .page (text ++ "$include " ++ n ++ "$").toList [] .empty _
    rw [spelled]
    refine .append (.verbatim plain literal ?_) fun d first => ?_
    · exact .inr ⟨_, rfl⟩
    · exact (Builds.include readable).weaken fun d' second => first.append second
  obtain ⟨place, rfl⟩ := Node.eq_textAndInclude_of_agreeAll agree
  exact ⟨place, compile_eq_ok_iff.mpr ⟨_, compiled, rfl⟩⟩

end Includes

end Stencil
