import Stencil.Proofs.Template.Stretch
import Stencil.Render.Run

namespace Stencil

/-- The one node, or none, that a text of its own makes up. -/
def Node.verbatim (text : String) : List Node :=
  if text = "" then [] else [.text text]

/-- Escaped text is a single token, if it is one at all, in either region and wherever it stands. -/
theorem compileStretch_of_escape {r : Region} {s : String} {c : Cursor} (left : c.rest = r.escape s.toList) :
    compileStretch r c = .ok (Node.verbatim s) := by
  by_cases empty : s = ""
  · subst empty
    exact compileStretch_eq_ok_iff.mpr ⟨_, tokenize_nil left, .nil⟩
  · have nonempty : s.toList ≠ [] := fun none => empty (String.toList_eq_nil_iff.mp none)
    have more : c.rest ≠ [] := fun none => nonempty (Region.escape_eq_nil (left.symm.trans none))
    have begins : c.rest = r.escape s.toList ++ [] := left.trans (List.append_nil _).symm
    obtain ⟨t, after, first, kind, value, done⟩ := Region.next_escape nonempty (.inl rfl) (.inl rfl) begins
    have tokens := tokenize_ok more first (tokenize_nil done)
    have inner : Token.inner [t, .eof after] = [t] := Token.inner_cons (Token.next_inner more first)
    have item : t.item (compileStretch .block) = .ok (.node (.text s)) := by
      simp only [Token.item, kind, value, String.ofList_toList]
    rw [Node.verbatim, if_neg empty]
    refine compileStretch_eq_ok_iff.mpr ⟨_, tokens, ?_⟩
    rw [inner]
    exact .single item .nil

section Run

variable {φ : Type} [Callable φ] (s : Setting)

theorem nodesText_verbatim (below : Option (Below φ)) (st : Standing) (ctx : Context φ) (text : String) :
    (nodesText s below st ctx (Node.verbatim text)).answer = .ok text ∧
      reportsOf (nodesText s below st ctx (Node.verbatim text)).events = [] := by
  unfold Node.verbatim
  split
  · rename_i empty
    subst empty
    exact ⟨rfl, rfl⟩
  · exact ⟨congrArg Except.ok (String.append_empty), rfl⟩

theorem render_of_verbatim {t : Template} {text : String} (nodes : t.nodes = Node.verbatim text) (ctx : Context φ) :
    (render s t ctx).answer = .ok text ∧ reportsOf (render s t ctx).events = [] := by
  rw [render, nodes]
  exact nodesText_verbatim s _ _ ctx text

end Run

/-- Every text can be rendered as it is: with its delimiters escaped it compiles, to one text node that holds it or to
no node if it is empty, and whatever the data, the options, the loader and the translator, rendering gives the
text and reports nothing. -/
theorem render_escaped (text name : String) :
    ∃ t, compile (String.ofList (Region.page.escape text.toList)) name = .ok t ∧
      t.nodes = (if text = "" then [] else [.text text]) ∧
      ∀ (φ : Type) [Callable φ] (s : Setting) (ctx : Context φ),
        (render s t ctx).answer = .ok text ∧ reportsOf (render s t ctx).events = [] := by
  refine ⟨⟨Node.verbatim text, name⟩, ?_, rfl, fun φ _ s ctx => render_of_verbatim s rfl ctx⟩
  refine compile_eq_ok_iff.mpr ⟨_, ?_, rfl⟩
  rw [String.toList_ofList]
  exact compileStretch_of_escape rfl

/-- Two backslashes before a delimiter, and one at the end. -/
example : String.ofList (Region.page.escape "a\\\\$\x7b\\".toList) = "a\\\\\\$\x7b\\" := by
  decide

end Stencil
