import Stencil.Proofs.Template.Names
import Stencil.Proofs.Template.Seam
import Stencil.Proofs.Template.Tiling
import Mathlib.Data.List.Chain

namespace Stencil

mutual

/-- What is sure of a compiled node, and of all nodes inside it. -/
def Node.IsProper : Node → Prop
  | .text value => value ≠ ""
  | .attr _ path => path.isSpellable ∧ ∀ w ∈ reservedWords, path ≠ [w]
  | .include _ name => IsReadable name
  | .apply _ func arg => func.isSpellable ∧ arg.isSpellable
  | .cond _ condition body elseBody =>
    condition.isSpellable ∧ Node.AreProper body ∧ Node.IsProperElse elseBody
  | .mapNamed _ name items => IsReadable name ∧ items.isSpellable
  | .mapInline _ body items => Node.AreProper body ∧ items.isSpellable
  | .join _ _ items => items.isSpellable
  | .txt _ key => key ≠ ""

/-- Proper nodes in a row, no two texts side by side. -/
def Node.AreProper : List Node → Prop
  | [] => True
  | n :: ns => n.IsProper ∧ Node.AreProper ns ∧ ¬(n.isText ∧ ns.head?.any Node.isText)

def Node.IsProperElse : Option (List Node) → Prop
  | none => True
  | some body => Node.AreProper body

end

/-- Two tokens that are not both texts. -/
def Token.Apart (t u : Token) : Prop :=
  t.kind = .text → u.kind ≠ .text

/-- What is sure of an item from which a proper tree is built. -/
def Item.IsProper : Item → Prop
  | .node n => n.IsProper
  | .openIf _ condition => condition.isSpellable
  | .otherwise | .endIf => True

section Paths

theorem segments_ne_nil (cs : List Char) : segments cs ≠ [] := by
  cases cs with
  | nil => exact List.cons_ne_nil _ _
  | cons c cs =>
    rw [segments]
    split
    · exact List.cons_ne_nil _ _
    · split <;> exact List.cons_ne_nil _ _

/-- A word without a dot is its only segment, and one with a dot has more than one. -/
theorem eq_of_segments {cs s : List Char} (single : segments cs = [s]) : cs = s := by
  induction cs generalizing s with
  | nil => exact (List.cons.inj single).1
  | cons c cs ih =>
    rw [segments] at single
    split at single
    · exact absurd (List.cons.inj single).2 (segments_ne_nil cs)
    · cases rest : segments cs with
      | nil => exact absurd rest (segments_ne_nil cs)
      | cons t ts =>
        rw [rest] at single
        obtain ⟨rfl, none⟩ := List.cons.inj single
        rw [ih (none ▸ rest)]

theorem Word.segment_ok {w : Word} {s : List Char} {name : String} (read : w.segment s = .ok name) :
    s = name.toList ∧ name ≠ "" := by
  unfold Word.segment at read
  split at read
  · cases read
  · rename_i filled
    split at read <;> cases read
    refine ⟨String.toList_ofList.symm, fun none => filled ?_⟩
    rw [← String.toList_ofList (l := s), none]
    rfl

/-- The path that a word spells can be spelled, and if it has a single segment the word is that one. -/
theorem Word.path_ok {w : Word} {p : Path} (read : w.path = .ok p) :
    p.isSpellable ∧ ∀ s, p = [s] → w.letters = s.toList := by
  have parts := map_of_mapM_ok read
  refine ⟨Path.isSpellable_iff.mpr ⟨?_, fun name member => ?_⟩, ?_⟩
  · rintro rfl
    exact segments_ne_nil _ (List.map_eq_nil_iff.mp parts)
  · have own : (.ok name : Except SyntaxError String) ∈ p.map .ok := List.mem_map_of_mem member
    rw [← parts] at own
    obtain ⟨s, -, spelled⟩ := List.mem_map.mp own
    obtain ⟨same, filled⟩ := Word.segment_ok spelled
    exact ⟨filled, same ▸ Word.segment_chars spelled⟩
  · rintro name rfl
    obtain ⟨s, none, split, spelled, done⟩ := List.map_eq_cons_iff.mp parts
    rw [List.map_eq_nil_iff.mp done] at split
    rw [eq_of_segments split]
    exact (Word.segment_ok spelled).1

/-- A word that is neither a keyword nor a part of a conditional spells no reserved word. -/
theorem Word.path_unreserved {w : Word} {p : Path} (noKeyword : Keyword.ofWord? w.letters = none)
    (noPart : isPartWord w.letters = false) (read : w.path = .ok p) : ∀ v ∈ reservedWords, p ≠ [v] := by
  intro v reserved single
  rw [(Word.path_ok read).2 v single] at noKeyword noPart
  have found : ∀ v ∈ reservedWords, (Keyword.ofWord? v.toList).isSome ∨ isPartWord v.toList := by decide
  rcases found v reserved with keyword | part
  · rw [noKeyword] at keyword
    cases keyword
  · rw [noPart] at part
    cases part

end Paths

section Reading

variable {inline : Inline} {t : Token} {c c' : Cursor} {i : Item} {n : Node} {ns : List Node} {ts : List Token}

theorem readPath_isSpellable {what : String} {mark : Mark} {p : Path} (read : readPath what mark c = .ok p c') :
    p.isSpellable := by
  obtain ⟨w, mid, -, rest⟩ := Scan.bind_ok read
  split at rest
  · cases rest
  · exact (Word.path_ok (Scan.lift_ok rest).1).1

variable (bodies : ∀ block body, inline block = .ok body → Node.AreProper body)

include bodies

theorem readOperands_isProper {mark : Mark} {k : Keyword} (read : readOperands inline mark k c = .ok i c') :
    i.IsProper := by
  cases k with
  | «include» =>
    obtain ⟨name, _, word, done⟩ := Scan.bind_ok read
    cases done
    exact readName_ok word
  | apply =>
    obtain ⟨func, _, first, rest⟩ := Scan.bind_ok read
    obtain ⟨arg, _, second, done⟩ := Scan.bind_ok rest
    cases done
    exact ⟨readPath_isSpellable first, readPath_isSpellable second⟩
  | cond =>
    obtain ⟨condition, _, path, done⟩ := Scan.bind_ok read
    cases done
    exact readPath_isSpellable path
  | map =>
    obtain ⟨_, -, ⟨-, block, _, body, _, _, -, compiled, path, rfl⟩ | ⟨-, _, _, _, _, word, path, rfl⟩⟩ :=
      readOperands_map_ok read
    · exact ⟨bodies block body compiled, readPath_isSpellable path⟩
    · exact ⟨readName_ok word, readPath_isSpellable path⟩
  | join =>
    obtain ⟨separator, _, -, rest⟩ := Scan.bind_ok read
    obtain ⟨items, _, path, done⟩ := Scan.bind_ok rest
    cases done
    exact readPath_isSpellable path
  | txt =>
    obtain ⟨key, _, -, rest⟩ := Scan.bind_ok read
    split at rest
    · cases rest
    · rename_i filled
      cases rest
      exact filled

/-- The item of a token is proper, if a text is there where the token is one. -/
theorem Token.item_isProper (filled : t.kind = .text → t.value ≠ []) (read : t.item inline = .ok i) : i.IsProper := by
  rcases Token.item_ok read with ⟨text, rfl⟩ | ⟨-, ⟨-, rfl⟩ | ⟨-, rfl⟩ | ⟨-, -, c', item⟩⟩
  · intro none
    refine filled text ?_
    rw [← String.toList_ofList (l := t.value), none]
    rfl
  · trivial
  · trivial
  · obtain ⟨w, mid, -, ⟨k, last, -, operands⟩ | ⟨p, noKeyword, noPart, spelled, rfl⟩⟩ := readItem_ok item
    · exact readOperands_isProper bodies operands
    · exact ⟨(Word.path_ok spelled).1, Word.path_unreserved noKeyword noPart spelled⟩

omit bodies in
/-- Only a token that is a text gives a text. -/
theorem Token.kind_of_isText (text : n.isText) (read : t.item inline = .ok (.node n)) : t.kind = .text := by
  rcases Token.item_ok read with ⟨own, -⟩ | ⟨directive, -⟩
  · exact own
  · rw [Node.isText_of_directive directive read] at text
    cases text

omit bodies in
/-- Tokens that give a text first begin with a text. -/
theorem Derives.head_kind (derives : Derives inline ts ns) (text : ns.head?.any Node.isText) :
    ∃ t ∈ ts.head?, t.kind = .text := by
  cases derives with
  | nil => cases text
  | single read => exact ⟨_, rfl, Token.kind_of_isText text read⟩
  | cond => cases text
  | condElse => cases text

/-- What is derived from filled texts and directives, with a directive between two texts, is proper. -/
theorem Derives.areProper (derives : Derives inline ts ns) (filled : ∀ t ∈ ts, t.kind = .text → t.value ≠ [])
    (apart : ts.IsChain Token.Apart) : Node.AreProper ns := by
  induction derives with
  | nil => trivial
  | @single t n ts ns read after ih =>
    obtain ⟨alone, later⟩ := List.isChain_cons.mp apart
    have own : n.IsProper := Token.item_isProper bodies (filled t List.mem_cons_self) read
    have rest := ih (fun u member => filled u (List.mem_cons_of_mem t member)) later
    refine ⟨own, rest, fun ⟨text, textToo⟩ => ?_⟩
    obtain ⟨u, first, kind⟩ := after.head_kind textToo
    exact alone u first (Token.kind_of_isText text read) kind
  | @cond t e mark condition bs ts body ns opens _ _ _ ihBody ihAfter =>
    have inBody : bs.IsChain Token.Apart := List.IsChain.infix apart ⟨[t], e :: ts, by simp⟩
    have behind : ts.IsChain Token.Apart := List.IsChain.infix apart ⟨t :: bs ++ [e], [], by simp⟩
    have path : condition.isSpellable := Token.item_isProper bodies (filled t (by simp)) opens
    have first := ihBody (fun u member => filled u (by simp [member])) inBody
    have rest := ihAfter (fun u member => filled u (by simp [member])) behind
    exact ⟨⟨path, first, trivial⟩, rest, fun ⟨text, _⟩ => Bool.false_ne_true text⟩
  | @condElse t o e mark condition bs ss ts body second ns opens _ _ _ _ _ ihBody ihSecond ihAfter =>
    have inBody : bs.IsChain Token.Apart := List.IsChain.infix apart ⟨[t], o :: ss ++ e :: ts, by simp⟩
    have inSecond : ss.IsChain Token.Apart := List.IsChain.infix apart ⟨t :: bs ++ [o], e :: ts, by simp⟩
    have behind : ts.IsChain Token.Apart := List.IsChain.infix apart ⟨t :: bs ++ o :: ss ++ [e], [], by simp⟩
    have path : condition.isSpellable := Token.item_isProper bodies (filled t (by simp)) opens
    have first := ihBody (fun u member => filled u (by simp [member])) inBody
    have other := ihSecond (fun u member => filled u (by simp [member])) inSecond
    have rest := ihAfter (fun u member => filled u (by simp [member])) behind
    exact ⟨⟨path, first, other⟩, rest, fun ⟨text, _⟩ => Bool.false_ne_true text⟩

end Reading

section Compiled

theorem Tiles.filled {r : Region} {text : List Char} {low high : Nat} {ts : List Token}
    (tiles : Tiles r text low high ts) : ∀ t ∈ ts, t.kind = .text → t.value ≠ [] := by
  induction tiles with
  | last kind => simp [kind]
  | text kind _ _ _ filled _ _ _ ih => simpa [filled] using ih
  | directive kind _ _ _ _ _ _ _ ih => simpa [kind] using ih

theorem Tiles.isChain {r : Region} {text : List Char} {low high : Nat} {ts : List Token}
    (tiles : Tiles r text low high ts) : ts.IsChain Token.Apart := by
  induction tiles with
  | last => exact List.isChain_singleton _
  | text _ _ _ _ _ _ alone _ ih => exact List.isChain_cons.mpr ⟨fun u first _ => alone u first, ih⟩
  | directive kind _ _ _ _ _ _ _ ih =>
    refine List.isChain_cons.mpr ⟨fun u _ text => ?_, ih⟩
    rw [kind] at text
    cases text

/-- A stretch compiles to a proper tree. -/
theorem compileStretch_areProper {r : Region} {c : Cursor} {ns : List Node} (compiled : compileStretch r c = .ok ns) :
    Node.AreProper ns := by
  fun_induction compileStretch r c generalizing ns with
  | case1 r c ih =>
    obtain ⟨ts, read, parsed⟩ := exists_of_bind_ok compiled
    obtain ⟨text, spans⟩ := c.exists_spans
    have tiles := spans.tiles read
    obtain ⟨e, -, split⟩ := tokenize_inner read
    have front : Token.inner ts <+: ts := ⟨[e], split.symm⟩
    have filled : ∀ t ∈ Token.inner ts, t.kind = .text → t.value ≠ [] :=
      fun t member => tiles.filled t (front.subset member)
    have apart : (Token.inner ts).IsChain Token.Apart := List.IsChain.prefix tiles.isChain front
    refine Derives.areProper (fun block body done => ?_) ((parse_eq_ok_iff read).mp parsed) filled apart
    -- The block is shorter than the stretch, or it would have been refused.
    split at done
    · rename_i shorter
      exact ih block shorter done
    · cases done

end Compiled

/-- A tree that a source compiles to is proper at every depth: paths can be spelled, and none that stands alone is a
reserved word; names can be read; keys and texts are filled; and among the nodes of a template, of a body
or of a template in place no two texts stand side by side. -/
theorem compile_areProper {source name : String} {t : Template} (compiled : compile source name = .ok t) :
    Node.AreProper t.nodes := by
  obtain ⟨ns, read, rfl⟩ := compile_eq_ok_iff.mp compiled
  exact compileStretch_areProper read

/-- Bodies of every kind inside one another, and texts on both sides of what looks like nothing. -/
theorem compile_areProper_of_nested :
    let source := "a$if x-1.y$b$map:\x7b$include n.1$c$txt:\x7bk\x7d$d\x7d xs$$else$$join:\x7b\x7d xs$e$end if$f"
    ∃ t, compile source "page" = .ok t ∧ Node.AreProper t.nodes := by
  intro source
  have compiles : (compile source "page").isOk := by decide +kernel
  obtain ⟨t, compiled⟩ := compile_of_isOk compiles
  exact ⟨t, compiled, compile_areProper compiled⟩

end Stencil
