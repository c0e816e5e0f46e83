import Stencil.Data.Builtin
import Stencil.Proofs.Render.Answer
import Stencil.Proofs.Template.Inplace

namespace Stencil

variable {φ : Type} {s : Setting} {below : Option (Below φ)} {ctx : Context φ} {name : String} {u : Template}

theorem answer_findTemplate {loader : Loader} (present : s.loader = some loader)
    (loads : loader name = .ok u) (mark : Mark) : (findTemplate s ctx mark name).answer = .ok (some u) := by
  rw [findTemplate, present]
  simp only [loads]
  rfl

variable [Callable φ]

/-- A named template and one in place are entered on the same level, and so both are turned away or none. -/
theorem mapNamedText_extracted (alike : BelowAlike below below) {loader : Loader}
    (present : s.loader = some loader) (loads : loader name = .ok u) {body : List Node}
    (bodies : Node.LikeAll (fun _ _ => True) u.nodes body) (st st' : Standing) {m n : Mark} (items : Path) :
    EndAlike (mapNamedText s below st ctx m name items) (mapInlineText s below st' ctx n body items) := by
  refine .bind (.listAt m n items) fun elements => ?_
  -- An empty list, or none, enters nothing; that comes before the question whether a level is left.
  split
  · rfl
  · rfl
  · refine alike.enter st st' fun x y related => ?_
    rw [EndAlike, Traced.answer_bind, answer_findTemplate present loads]
    exact EndAlike.itemsText (fun scope => related _ _ _ bodies) 0 _

theorem renderAt_extracted {loader : Loader} (present : s.loader = some loader) (loads : loader name = .ok u)
    {body : List Node} (bodies : Node.LikeAll (fun _ _ => True) u.nodes body) (levels : Nat)
    (st st' : Standing) (m n : Mark) (items : Path) :
    EndAlike (renderAt s levels st ctx [.mapNamed m name items])
      (renderAt s levels st' ctx [.mapInline n body items]) := by
  have step (below : Option (Below φ)) (alike : BelowAlike below below) :
      EndAlike (nodesText s below st ctx [.mapNamed m name items])
        (nodesText s below st' ctx [.mapInline n body items]) := by
    refine .bind rfl fun _ => ?_
    refine .bind (mapNamedText_extracted alike present loads bodies st st' items) fun _ => ?_
    exact .bind rfl fun _ => rfl
  cases levels with
  | zero => exact step none .none
  | succ levels => exact step _ (.some fun st st' ctx ms ns like => renderAt_alike levels st st' ctx like)

/-- The source of a template in place, if it has no escaped braces and just fills the block, is the source of
a template with the same nodes. Where a loader gives that one for a name, the map with the name writes what
the map with the block writes: on every level, the last one too, from wherever the run stands, and in
a whole run. -/
theorem render_extracted (b : String) (block : ∃ content after,
      readBraced (.ofText (braced b.toList)) = .ok content after ∧ content.rest = b.toList)
    (opens : ¬['\\', '\x7b'] <:+: b.toList) (closes : ¬['\\', '\x7d'] <:+: b.toList) {p : Path}
    (path : p.isSpellable) {n : String} (named : isTemplateName n) {inName : String} {t : Template}
    (compiled : compile ("$map:\x7b" ++ b ++ "\x7d " ++ p.dotted ++ "$") inName = .ok t)
    (bodyName outName : String) :
    ∃ mark body u v, t.nodes = [.mapInline mark body p] ∧ compile b bodyName = .ok u ∧
      Node.agreeAll u.nodes body = true ∧
      compile ("$map " ++ n ++ " " ++ p.dotted ++ "$") outName = .ok v ∧
      ∀ (φ : Type) [Callable φ] (s : Setting) (loader : Loader), s.loader = some loader →
        loader n = .ok u → ∀ ctx : Context φ,
          (render s v ctx).answer = (render s t ctx).answer ∧
          ∀ levels st, (renderAt s levels st ctx v.nodes).answer =
            (renderAt s levels st ctx t.nodes).answer := by
  obtain ⟨content, after, read, fills⟩ := block
  have inside := Transparent.of_readBraced read fills
  obtain ⟨mark, stretch, body, same, done, rfl⟩ := compile_mapInline inside path compiled
  obtain ⟨u, page, like⟩ := compile_of_block bodyName same opens closes done
  obtain ⟨place, out⟩ := compile_mapNamed named path outName
  refine ⟨mark, body, u, _, rfl, page, like.agrees, out, fun φ _ s loader present loads ctx => ?_⟩
  have extracted (levels : Nat) (st st' : Standing) :
      EndAlike (renderAt s levels st ctx [.mapNamed place n p])
        (renderAt s levels st' ctx [.mapInline mark body p]) :=
    renderAt_extracted present loads like levels st st' place mark p
  exact ⟨extracted maxLevels _ _, fun levels st => extracted levels st st⟩

/-- The template has a block of its own and includes itself, as deep as there are levels. -/
def nestedBody : String := "$x$ \\$$map:\x7b\\$$y$\x7d z$$include n$"

theorem render_extracted_of_nested :
    (∃ content after, readBraced (.ofText (braced nestedBody.toList)) = .ok content after ∧
      content.rest = nestedBody.toList) ∧
    ¬['\\', '\x7b'] <:+: nestedBody.toList ∧ ¬['\\', '\x7d'] <:+: nestedBody.toList ∧
    Path.isSpellable ["d", "xs"] = true ∧ isTemplateName "n" = true ∧
    ∃ t u v, compile ("$map:\x7b" ++ nestedBody ++ "\x7d " ++ Path.dotted ["d", "xs"] ++ "$") "in" = .ok t ∧
      compile nestedBody "n" = .ok u ∧
      compile ("$map " ++ "n" ++ " " ++ Path.dotted ["d", "xs"] ++ "$") "out" = .ok v ∧
      ∀ ctx : Context Builtin,
        (render ⟨some fun _ => .ok u, none, "en", {}⟩ v ctx).answer =
          (render ⟨some fun _ => .ok u, none, "en", {}⟩ t ctx).answer := by
  have block : ∃ content after, readBraced (.ofText (braced nestedBody.toList)) = .ok content after ∧
      content.rest = nestedBody.toList := ⟨_, _, rfl, rfl⟩
  have opens : ¬['\\', '\x7b'] <:+: nestedBody.toList := by decide +kernel
  have closes : ¬['\\', '\x7d'] <:+: nestedBody.toList := by decide +kernel
  have compiles : (compile ("$map:\x7b" ++ nestedBody ++ "\x7d " ++ Path.dotted ["d", "xs"] ++ "$")
      "in").isOk := by
    decide +kernel
  refine ⟨block, opens, closes, by decide, by decide, ?_⟩
  obtain ⟨t, compiled⟩ := compile_of_isOk compiles
  obtain ⟨mark, body, u, v, -, page, -, out, same⟩ :=
    render_extracted nestedBody block opens closes (by decide : Path.isSpellable ["d", "xs"])
      (by decide : isTemplateName "n") compiled "n" "out"
  exact ⟨t, u, v, compiled, page, out, fun ctx => (same Builtin _ _ rfl rfl ctx).1⟩

end Stencil
