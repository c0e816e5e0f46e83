import Stencil.Proofs.Render.Answer
import Stencil.Proofs.Template.Seam

namespace Stencil

/-- One text behind the other, or the first failure. -/
def bothTexts (first second : Except Failure String) : Except Failure String := do
  return (← first) ++ (← second)

section Texts

variable (p q r : Except Failure String)

theorem bothTexts_empty : bothTexts (.ok "") q = q := by
  cases q with
  | error e => rfl
  | ok text => exact congrArg Except.ok (String.empty_append)

theorem bothTexts_assoc : bothTexts (bothTexts p q) r = bothTexts p (bothTexts q r) := by
  cases p with
  | error e => rfl
  | ok a =>
    cases q with
    | error e => rfl
    | ok b =>
      cases r with
      | error e => rfl
      | ok c => exact congrArg Except.ok (String.append_assoc)

end Texts

section Nodes

variable {φ : Type} [Callable φ] {s : Setting} {below : Option (Below φ)} {st : Standing} {ctx : Context φ}

theorem answer_nodesText_cons (n : Node) (ns : List Node) :
    (nodesText s below st ctx (n :: ns)).answer =
      bothTexts (nodeText s below st ctx n).answer (nodesText s below st ctx ns).answer := by
  rw [nodesText]
  simp only [Traced.answer_bind, Traced.answer_pure]
  rfl

/-- Merging two texts changes nothing in what is written. -/
theorem answer_nodesText_seam (ms ns : List Node) :
    (nodesText s below st ctx (seam Node.merge? ms ns)).answer =
      bothTexts (nodesText s below st ctx ms).answer (nodesText s below st ctx ns).answer := by
  have nothing : (nodesText s below st ctx []).answer = .ok "" := by rw [nodesText]; rfl
  induction ms with
  | nil => rw [seam_nil, nothing, bothTexts_empty]
  | cons m ms ih =>
    by_cases last : ms = []
    · subst last
      rw [answer_nodesText_cons, nothing, bothTexts_assoc, bothTexts_empty]
      cases ns with
      | nil => exact answer_nodesText_cons m []
      | cons n ns =>
        cases merged : Node.merge? m n with
        | none => rw [seam_apart merged, answer_nodesText_cons m]
        | some k =>
          -- Only two texts merge, and a text writes itself.
          cases m <;> cases n <;> cases merged
          rename_i v w
          rw [seam, Node.merge?, answer_nodesText_cons, answer_nodesText_cons, ← bothTexts_assoc]
          rfl
    · rw [seam_cons last, answer_nodesText_cons, answer_nodesText_cons, ih, bothTexts_assoc]

theorem answer_renderAt_seam (levels : Nat) (ms ns : List Node) :
    (renderAt s levels st ctx (seam Node.merge? ms ns)).answer =
      bothTexts (renderAt s levels st ctx ms).answer (renderAt s levels st ctx ns).answer := by
  cases levels <;> exact answer_nodesText_seam ms ns

end Nodes

/-- Two sources that compile do so also one behind the other, unless a backslash ends the first and
a delimiter begins the second. The nodes are those of both, with one text at the seam instead of two, and what
is rendered is what both render, one behind the other. -/
theorem compile_append (a b : String) {s t : Template} (aName bName name : String)
    (first : compile a aName = .ok s) (second : compile b bName = .ok t)
    (parts : ¬(a.toList.getLast? = some '\\' ∧ b.toList.head? = some '$')) :
    ∃ u, compile (a ++ b) name = .ok u ∧
      Node.agreeAll u.nodes (seam Node.merge? s.nodes t.nodes) = true ∧
      ∀ (φ : Type) [Callable φ] (setting : Setting) (ctx : Context φ),
        (render setting u ctx).answer =
          bothTexts (render setting s ctx).answer (render setting t ctx).answer := by
  obtain ⟨ms, read, rfl⟩ := compile_eq_ok_iff.mp first
  obtain ⟨ns, readToo, rfl⟩ := compile_eq_ok_iff.mp second
  have apart : Region.page.Parts a.toList b.toList := by
    intro last d begins
    rw [Region.escapes, beq_eq_false_iff_ne]
    rintro rfl
    exact parts ⟨last, begins⟩
  obtain ⟨ks, goesOn, like⟩ := compileStretch_extend apart read readToo
  have whole : (Cursor.ofText a.toList).extend (Cursor.ofText b.toList).rest = .ofText (a ++ b).toList := by
    rw [String.toList_append]
    rfl
  rw [whole] at goesOn
  refine ⟨⟨ks, name⟩, compile_eq_ok_iff.mpr ⟨ks, goesOn, rfl⟩, like.agrees, fun φ _ setting ctx => ?_⟩
  let st : Standing := ⟨0, []⟩
  calc (render setting ⟨ks, name⟩ ctx).answer
      = (renderAt setting maxLevels st ctx ks).answer := render_alike ⟨ks, name⟩ ctx st
    _ = (renderAt setting maxLevels st ctx (seam Node.merge? ms ns)).answer :=
      renderAt_alike maxLevels st st ctx like
    _ = bothTexts (renderAt setting maxLevels st ctx ms).answer
          (renderAt setting maxLevels st ctx ns).answer := answer_renderAt_seam maxLevels ms ns
    _ = bothTexts (render setting ⟨ms, aName⟩ ctx).answer (render setting ⟨ns, bName⟩ ctx).answer := by
      rw [render_alike ⟨ms, aName⟩ ctx st, render_alike ⟨ns, bName⟩ ctx st]

/-- Texts meet at the seam, and the first of them ends with a backslash. -/
theorem compile_append_of_texts :
    ∃ s t, compile "$if x$a$end if$ b\\" "left" = .ok s ∧ compile "\\$ $c.d$" "right" = .ok t ∧
      ¬("$if x$a$end if$ b\\".toList.getLast? = some '\\' ∧ "\\$ $c.d$".toList.head? = some '$') ∧
      ∃ u, compile ("$if x$a$end if$ b\\" ++ "\\$ $c.d$") "both" = .ok u ∧
        Node.agreeAll u.nodes (seam Node.merge? s.nodes t.nodes) = true ∧
        ∀ (φ : Type) [Callable φ] (setting : Setting) (ctx : Context φ),
          (render setting u ctx).answer =
            bothTexts (render setting s ctx).answer (render setting t ctx).answer := by
  have left : (compile "$if x$a$end if$ b\\" "left").isOk := by decide +kernel
  have right : (compile "\\$ $c.d$" "right").isOk := by decide +kernel
  obtain ⟨s, first⟩ := compile_of_isOk left
  obtain ⟨t, second⟩ := compile_of_isOk right
  have parts : ¬("$if x$a$end if$ b\\".toList.getLast? = some '\\' ∧
      "\\$ $c.d$".toList.head? = some '$') := by
    decide +kernel
  exact ⟨s, t, first, second, parts, compile_append _ _ _ _ _ first second parts⟩

end Stencil
