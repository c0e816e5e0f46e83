import Stencil.Proofs.Data.Scopes
import Stencil.Proofs.Template.Likeness
import Stencil.Proofs.Traced
import Stencil.Render.Run
import Stencil.Template.Occurrence

namespace Stencil

variable {φ γ α β : Type}

namespace Context.Alike

variable [Callable φ] {ctx ctx' : Context φ} (alike : ctx.Alike ctx')

include alike

theorem valueAt (path : Path) : valueAt ctx path = valueAt ctx' path := by
  unfold Stencil.valueAt
  rw [alike.find]
  split
  · rfl
  · rw [alike.settle]

theorem holds (condition : Path) : holds ctx condition = holds ctx' condition := by
  rw [Stencil.holds, Stencil.holds, alike.valueAt]

theorem elementText : elementText ctx = elementText ctx' := by
  funext v
  cases v with
  | func f => rw [Stencil.elementText, Stencil.elementText, alike.root]
  | _ => rfl

end Context.Alike

/-- That no level is left for a template. -/
def Diagnostic.Cause.isTooDeep : Diagnostic.Cause → Bool
  | .tooDeep _ _ | .tooDeepInPlace _ _ => true
  | _ => false

/-- A way to compare two runs. -/
structure Comparison (γ : Type) where
  /-- What may happen in the first run. -/
  allowed : Event → Prop
  /-- What is seen of an event, if anything. -/
  view : Event → Option γ
  /-- The keys for which both have the same text. -/
  keys : String → Prop
  /-- The places that the same directive may have. -/
  marks : Mark → Mark → Prop
  /-- Where the runs may stand at the same directive. -/
  standings : Standing → Standing → Prop
  marks_refl (m : Mark) : marks m m
  enter {st st' : Standing} (name : Option String) :
    standings st st' → standings (st.enter name) (st'.enter name)
  began {st st' : Standing} {n n' : Node} :
    standings st st' → n.Like marks n' → view (.began st n) = view (.began st' n')
  reported {m n : Mark} (cause : Diagnostic.Cause) :
    marks m n → view (.reported ⟨cause, m⟩) = view (.reported ⟨cause, n⟩)
  tooDeep {st st' : Standing} {m n : Mark} (name : String) : standings st st' → marks m n →
    allowed (.reported ⟨.tooDeep st.chain name, m⟩) →
    view (.reported ⟨.tooDeep st.chain name, m⟩) = view (.reported ⟨.tooDeep st'.chain name, n⟩)
  tooDeepInPlace {st st' : Standing} {m n : Mark} (items : Path) : standings st st' → marks m n →
    allowed (.reported ⟨.tooDeepInPlace st.chain items, m⟩) →
    view (.reported ⟨.tooDeepInPlace st.chain items, m⟩) =
      view (.reported ⟨.tooDeepInPlace st'.chain items, n⟩)
  /-- The keys of a template that is found are among those for which both have the same text. -/
  found {e : Event} {t : Template} : allowed e → e.template? = some t → ∀ o ∈ t.occurrences, keys o.key

namespace Comparison

variable (k : Comparison γ)

/-- Two parts of a run that end with the same answer and in which the same is seen, if nothing happens in
the first but what may. -/
def Same (x y : Outcome α) : Prop :=
  (∀ e ∈ x.events, k.allowed e) →
    x.answer = y.answer ∧ x.events.filterMap k.view = y.events.filterMap k.view

/-- Two settings that differ in nothing but the texts for keys that do not matter. -/
structure SettingsAlike (s s' : Setting) : Prop where
  loader : s.loader = s'.loader
  quiet : s.options.quiet = s'.options.quiet
  texts : ∀ key, k.keys key → localizedText s key = localizedText s' key

theorem SettingsAlike.refl (s : Setting) : k.SettingsAlike s s := ⟨rfl, rfl, fun _ _ => rfl⟩

/-- No level ever lacks in the first run, since that would be reported. -/
def Unlimited (s : Setting) : Prop :=
  s.options.quiet = false ∧ ∀ d, d.cause.isTooDeep = true → ¬k.allowed (.reported d)

variable {k}

namespace Same

theorem refl (x : Outcome α) : k.Same x x := fun _ => ⟨rfl, rfl⟩

theorem bind {x y : Outcome α} {f g : α → Outcome β} (first : k.Same x y)
    (second : ∀ a, x.answer = .ok a → (∀ e ∈ x.events, k.allowed e) → k.Same (f a) (g a)) :
    k.Same (x >>= f) (y >>= g) := by
  intro allowed
  cases answer : x.answer with
  | error e =>
    rw [Traced.bind_of_error answer] at allowed ⊢
    obtain ⟨answers, seen⟩ := first allowed
    rw [Traced.bind_of_error (answers.symm.trans answer)]
    exact ⟨rfl, seen⟩
  | ok a =>
    rw [Traced.bind_of_ok answer] at allowed ⊢
    obtain ⟨early, late⟩ := List.forall_mem_append.mp allowed
    obtain ⟨answers, seen⟩ := first early
    obtain ⟨answers', seen'⟩ := second a answer early late
    rw [Traced.bind_of_ok (answers.symm.trans answer), List.filterMap_append, List.filterMap_append, seen, seen']
    exact ⟨answers', rfl⟩

theorem tell {d e : Event} (same : k.allowed d → k.view d = k.view e) :
    k.Same (Traced.tell d) (Traced.tell e) := by
  intro allowed
  refine ⟨rfl, ?_⟩
  simp only [Traced.tell, List.filterMap_cons, same (allowed d (List.mem_singleton_self d))]

variable {s s' : Setting} (settings : k.SettingsAlike s s')

include settings

theorem report {m n : Mark} {cause other : Diagnostic.Cause}
    (same : k.allowed (.reported ⟨cause, m⟩) →
      k.view (.reported ⟨cause, m⟩) = k.view (.reported ⟨other, n⟩)) :
    k.Same (report s m cause) (report s' n other) := by
  unfold Stencil.report
  rw [settings.quiet]
  split
  · exact refl _
  · exact tell same

theorem reportInstead {m n : Mark} {cause other : Diagnostic.Cause}
    (same : k.allowed (.reported ⟨cause, m⟩) →
      k.view (.reported ⟨cause, m⟩) = k.view (.reported ⟨other, n⟩)) :
    k.Same (reportInstead s m cause) (reportInstead s' n other) :=
  .bind (.report settings same) fun _ _ _ => .refl _

variable {m n : Mark} (places : k.marks m n)

include places

theorem itemsText (items : Path) {each other : Entries φ → Outcome String}
    (same : ∀ entries, k.Same (each entries) (other entries)) (index : Nat) (elements : List (Value φ)) :
    k.Same (itemsText s m items each index elements) (itemsText s' n items other index elements) := by
  induction elements generalizing index with
  | nil => exact refl _
  | cons v rest ih =>
    refine .bind ?_ fun _ _ _ => .bind (ih (index + 1)) fun _ _ _ => .refl _
    cases v with
    | mapping entries => exact same entries
    | _ => exact .reportInstead settings fun _ => k.reported _ places

variable {ctx ctx' : Context φ} (scopes : ctx.Alike ctx')

include scopes

theorem boundTemplate (name : String) (missed : Option String) :
    k.Same (boundTemplate s ctx m name missed) (boundTemplate s' ctx' n name missed) := by
  unfold Stencil.boundTemplate
  rw [scopes.lookup name]
  split
  · exact refl _
  · split
    · exact refl _
    · exact .bind (.report settings fun _ => k.reported _ places) fun _ _ _ => .refl _
  · exact .bind (.report settings fun _ => k.reported _ places) fun _ _ _ => .refl _

theorem findTemplate (name : String) :
    k.Same (findTemplate s ctx m name) (findTemplate s' ctx' n name) := by
  unfold Stencil.findTemplate
  rw [settings.loader]
  split
  · exact .boundTemplate settings places scopes name none
  · refine .bind (.refl _) fun _ _ _ => ?_
    split
    · exact refl _
    · exact .boundTemplate settings places scopes name _
    · exact .bind (.report settings fun _ => k.reported _ places) fun _ _ _ => .refl _
    · exact refl _
    · exact refl _

variable [Callable φ]

theorem attrText (path : Path) : k.Same (attrText s ctx m path) (attrText s' ctx' n path) := by
  rw [Stencil.attrText, Stencil.attrText, scopes.valueAt]
  refine .bind (.refl _) fun found _ _ => ?_
  cases found with
  | error e => exact .reportInstead settings fun _ => k.reported _ places
  | ok v => exact refl _

theorem applyText (func arg : Path) :
    k.Same (applyText s ctx m func arg) (applyText s' ctx' n func arg) := by
  unfold Stencil.applyText
  rw [scopes.find func]
  split
  · exact .reportInstead settings fun _ => k.reported _ places
  · rw [scopes.valueAt]
    refine .bind (.refl _) fun found _ _ => ?_
    cases found with
    | error e => exact .reportInstead settings fun _ => k.reported _ places
    | ok v => exact refl _
  · exact refl _

theorem listAt (items : Path) : k.Same (listAt s ctx m items) (listAt s' ctx' n items) := by
  rw [Stencil.listAt, Stencil.listAt, scopes.valueAt]
  refine .bind (.refl _) fun found _ _ => ?_
  split
  · exact .bind (.report settings fun _ => k.reported _ places) fun _ _ _ => .refl _
  · exact refl _
  · exact refl _
  · exact .bind (.report settings fun _ => k.reported _ places) fun _ _ _ => .refl _

theorem joinText (separator : String) (items : Path) :
    k.Same (joinText s ctx m separator items) (joinText s' ctx' n separator items) := by
  rw [Stencil.joinText, Stencil.joinText, scopes.elementText]
  exact .bind (.listAt settings places scopes items) fun _ _ _ => .refl _

end Same
end Comparison

section Lookup

variable {s : Setting} {ctx : Context φ} {mark : Mark} {name : String} {t : Template}

theorem reported_mem {cause : Diagnostic.Cause} (loud : s.options.quiet = false) :
    .reported ⟨cause, mark⟩ ∈ (reportInstead s mark cause).events := by
  unfold reportInstead report
  rw [loud]
  exact List.mem_singleton_self _

theorem answer_report_none (cause : Diagnostic.Cause) :
    (do report s mark cause; return none : Outcome (Option Template)).answer = .ok none := by
  unfold report
  split <;> rfl

theorem boundTemplate_found {missed : Option String}
    (answer : (boundTemplate s ctx mark name missed).answer = .ok (some t)) :
    ∃ e, e.template? = some t ∧ (boundTemplate s ctx mark name missed).events = [e] := by
  unfold boundTemplate at answer ⊢
  split at answer
  · cases answer
    exact ⟨_, rfl, rfl⟩
  · split at answer
    · cases answer
      exact ⟨_, rfl, rfl⟩
    · cases (answer_report_none _).symm.trans answer
  · cases (answer_report_none _).symm.trans answer

/-- A template that is found is told of, and nothing else is but that the loader was asked. -/
theorem findTemplate_found (answer : (findTemplate s ctx mark name).answer = .ok (some t)) :
    ∃ e, e.template? = some t ∧ ((findTemplate s ctx mark name).events = [e] ∨
      (findTemplate s ctx mark name).events = [.asked name, e]) := by
  unfold findTemplate at answer ⊢
  split at answer
  · obtain ⟨e, told, events⟩ := boundTemplate_found answer
    exact ⟨e, told, .inl events⟩
  · rw [Traced.bind_of_ok rfl] at answer ⊢
    dsimp only at answer ⊢
    split at answer
    · cases answer
      exact ⟨_, rfl, .inr rfl⟩
    · obtain ⟨e, told, events⟩ := boundTemplate_found answer
      exact ⟨e, told, .inr (congrArg (Event.asked name :: ·) events)⟩
    · cases (answer_report_none _).symm.trans answer
    · cases answer
    · cases answer

theorem reportsOf_findTemplate (answer : (findTemplate s ctx mark name).answer = .ok (some t)) :
    reportsOf (findTemplate s ctx mark name).events = [] := by
  obtain ⟨e, told, events⟩ := findTemplate_found answer
  have silent : e.diagnostic? = none := by
    cases e with
    | reported d => cases told
    | _ => rfl
  rcases events with events | events
  · rw [events]
    exact List.filterMap_cons_none silent
  · rw [events]
    exact List.filterMap_cons_none silent

/-- If nothing happens but what may, the keys of a template that is found are among those that matter. -/
theorem Comparison.keys_of_findTemplate {k : Comparison γ}
    (answer : (findTemplate s ctx mark name).answer = .ok (some t))
    (allowed : ∀ e ∈ (findTemplate s ctx mark name).events, k.allowed e) :
    ∀ o ∈ Node.occurrencesIn t.nodes, k.keys o.key := by
  obtain ⟨e, told, events⟩ := findTemplate_found answer
  have member : e ∈ (findTemplate s ctx mark name).events := by
    rcases events with events | events <;> simp [events]
  exact k.found (allowed e member) told

end Lookup

namespace Comparison

variable (k : Comparison γ)

/-- What both runs go on with one level deeper. -/
inductive Levels (s : Setting) : Option (Below φ) → Option (Below φ) → Prop
  | last : Levels s none none
  /-- The second run has more levels than the first one needs. -/
  | spare {deeper : Below φ} (unlimited : k.Unlimited s) : Levels s none (some deeper)
  | left {deeper deeper' : Below φ}
      (same : ∀ {st st' ctx ctx' ms ns}, k.standings st st' → ctx.Alike ctx' → Node.LikeAll k.marks ms ns →
        (∀ o ∈ Node.occurrencesIn ms, k.keys o.key) → k.Same (deeper st ctx ms) (deeper' st' ctx' ns)) :
      Levels s (some deeper) (some deeper')

/-- Two runs that are about to evaluate the same node. -/
structure Beside (s s' : Setting) (below below' : Option (Below φ)) (st st' : Standing)
    (ctx ctx' : Context φ) : Prop where
  settings : k.SettingsAlike s s'
  levels : k.Levels s below below'
  standings : k.standings st st'
  scopes : ctx.Alike ctx'

namespace Beside

variable {k} {s s' : Setting} {below below' : Option (Below φ)} {st st' : Standing} {ctx ctx' : Context φ}
  (beside : k.Beside s s' below below' st st' ctx ctx') {m n : Mark} (places : k.marks m n)

include beside

/-- Both runs enter a template or are turned away, unless only the first one would be. -/
theorem enter (name : Option String) {cause other : Diagnostic.Cause} (deep : cause.isTooDeep = true)
    (turned : k.allowed (.reported ⟨cause, m⟩) →
      k.view (.reported ⟨cause, m⟩) = k.view (.reported ⟨other, n⟩))
    {inside inside' : (Context φ → List Node → Outcome String) → Outcome String}
    (same : ∀ x y, (∀ {ctx ctx' ms ns}, ctx.Alike ctx' → Node.LikeAll k.marks ms ns →
        (∀ o ∈ Node.occurrencesIn ms, k.keys o.key) → k.Same (x ctx ms) (y ctx' ns)) →
      k.Same (inside x) (inside' y)) :
    k.Same (Stencil.enter s below st m name cause inside)
      (Stencil.enter s' below' st' n name other inside') := by
  cases beside.levels with
  | last => exact .reportInstead beside.settings turned
  | spare unlimited =>
    -- The first run has a report here that it may not have.
    exact fun allowed => absurd (allowed _ (reported_mem unlimited.1)) (unlimited.2 ⟨cause, m⟩ deep)
  | left related => exact same _ _ (related (k.enter name beside.standings))

include places

theorem includeText (name : String) :
    k.Same (includeText s below st ctx m name) (includeText s' below' st' ctx' n name) := by
  refine beside.enter _ rfl (k.tooDeep name beside.standings places) ?_
  intro x y related
  refine .bind (.findTemplate beside.settings places beside.scopes name) fun found answer allowed => ?_
  cases found with
  | none => exact .refl _
  | some t =>
    exact related beside.scopes (Node.LikeAll.refl k.marks_refl t.nodes) (k.keys_of_findTemplate answer allowed)

variable [Callable φ]

theorem mapNamedText (name : String) (items : Path) :
    k.Same (mapNamedText s below st ctx m name items) (mapNamedText s' below' st' ctx' n name items) := by
  refine .bind (.listAt beside.settings places beside.scopes items) fun elements _ _ => ?_
  split
  · exact .refl _
  · exact .refl _
  · refine beside.enter _ rfl (k.tooDeep name beside.standings places) ?_
    intro x y related
    refine .bind (.findTemplate beside.settings places beside.scopes name) fun found answer allowed => ?_
    cases found with
    | none => exact .refl _
    | some t =>
      have keys := k.keys_of_findTemplate answer allowed
      exact .itemsText beside.settings places items (fun scope =>
        related (beside.scopes.push scope) (Node.LikeAll.refl k.marks_refl t.nodes) keys) 0 _

theorem mapInlineText {body body' : List Node} (bodies : Node.LikeAll k.marks body body')
    (keys : ∀ o ∈ Node.occurrencesIn body, k.keys o.key) (items : Path) :
    k.Same (mapInlineText s below st ctx m body items) (mapInlineText s' below' st' ctx' n body' items) := by
  refine .bind (.listAt beside.settings places beside.scopes items) fun elements _ _ => ?_
  split
  · exact .refl _
  · exact .refl _
  · refine beside.enter _ rfl (k.tooDeepInPlace items beside.standings places) ?_
    intro x y related
    exact .itemsText beside.settings places items (fun scope =>
      related (beside.scopes.push scope) bodies keys) 0 _

end Beside

section Run

variable {k} [Callable φ] {s s' : Setting}

mutual

theorem Beside.nodeText {below below' : Option (Below φ)} {st st' : Standing} {ctx ctx' : Context φ}
    (beside : k.Beside s s' below below' st st' ctx ctx') {m n : Node} (like : m.Like k.marks n)
    (keys : ∀ o ∈ m.occurrences, k.keys o.key) :
    k.Same (nodeText s below st ctx m) (nodeText s' below' st' ctx' n) := by
  cases m <;> cases n <;> simp only [Node.Like] at like
  case text.text =>
    rw [Stencil.nodeText, Stencil.nodeText, like]
    exact .refl _
  case attr.attr =>
    rw [like.2]
    exact .attrText beside.settings like.1 beside.scopes _
  case «include».«include» =>
    rw [like.2]
    exact beside.includeText like.1 _
  case apply.apply =>
    rw [like.2.1, like.2.2]
    exact .applyText beside.settings like.1 beside.scopes _ _
  case cond.cond =>
    obtain ⟨inBody, inElse⟩ := List.forall_mem_append.mp keys
    rw [Stencil.nodeText, Stencil.nodeText, like.2.1, beside.scopes.holds]
    refine .bind (.refl _) fun truthy _ _ => ?_
    cases truthy with
    | true => exact Beside.nodesText beside like.2.2.1 inBody
    | false => exact Beside.elseText beside like.2.2.2 inElse
  case mapNamed.mapNamed =>
    rw [like.2.1, like.2.2]
    exact beside.mapNamedText like.1 _ _
  case mapInline.mapInline =>
    rw [like.2.2]
    exact beside.mapInlineText like.1 like.2.1 keys _
  case join.join =>
    rw [like.2.1, like.2.2]
    exact .joinText beside.settings like.1 beside.scopes _ _
  case txt.txt =>
    rw [Stencil.nodeText, Stencil.nodeText, ← like.2,
      beside.settings.texts _ (keys _ (List.mem_singleton_self _))]
    exact .refl _

theorem Beside.nodesText {below below' : Option (Below φ)} {st st' : Standing} {ctx ctx' : Context φ}
    (beside : k.Beside s s' below below' st st' ctx ctx') {ms ns : List Node}
    (like : Node.LikeAll k.marks ms ns) (keys : ∀ o ∈ Node.occurrencesIn ms, k.keys o.key) :
    k.Same (nodesText s below st ctx ms) (nodesText s' below' st' ctx' ns) := by
  cases ms <;> cases ns <;> simp only [Node.LikeAll] at like
  case nil.nil => exact .refl _
  case cons.cons =>
    obtain ⟨first, rest⟩ := List.forall_mem_append.mp keys
    refine .bind (.tell fun _ => k.began beside.standings like.1) fun _ _ _ => ?_
    refine .bind (Beside.nodeText beside like.1 first) fun _ _ _ => ?_
    refine .bind (.refl _) fun _ _ _ => ?_
    exact .bind (Beside.nodesText beside like.2 rest) fun _ _ _ => .refl _

theorem Beside.elseText {below below' : Option (Below φ)} {st st' : Standing} {ctx ctx' : Context φ}
    (beside : k.Beside s s' below below' st st' ctx ctx') {x y : Option (List Node)}
    (like : Node.LikeElse k.marks x y) (keys : ∀ o ∈ Node.occurrencesElse x, k.keys o.key) :
    k.Same (elseText s below st ctx x) (elseText s' below' st' ctx' y) := by
  cases x <;> cases y <;> simp only [Node.LikeElse] at like
  case none.none => exact .refl _
  case some.some => exact Beside.nodesText beside like keys

end

/-- Two runs show the same if they have as many levels left, or if the second one has more and the first one
enough. -/
theorem renderAt (settings : k.SettingsAlike s s') {levels levels' : Nat}
    (left : levels = levels' ∨ levels ≤ levels' ∧ k.Unlimited s) {st st' : Standing}
    (standings : k.standings st st') {ctx ctx' : Context φ} (scopes : ctx.Alike ctx') {ms ns : List Node}
    (like : Node.LikeAll k.marks ms ns) (keys : ∀ o ∈ Node.occurrencesIn ms, k.keys o.key) :
    k.Same (renderAt s levels st ctx ms) (renderAt s' levels' st' ctx' ns) := by
  -- The levels of the second run follow those of the first one down, and may end later.
  induction levels generalizing levels' st st' ctx ctx' ms ns with
  | zero =>
    cases levels' with
    | zero => exact Beside.nodesText ⟨settings, .last, standings, scopes⟩ like keys
    | succ levels' =>
      have unlimited := (left.resolve_left (by omega)).2
      exact Beside.nodesText ⟨settings, .spare unlimited, standings, scopes⟩ like keys
  | succ levels ih =>
    cases levels' with
    | zero => omega
    | succ levels' =>
      have fewer : levels = levels' ∨ levels ≤ levels' ∧ k.Unlimited s :=
        left.imp Nat.succ.inj fun more => ⟨Nat.le_of_succ_le_succ more.1, more.2⟩
      refine Beside.nodesText ⟨settings, .left ?_, standings, scopes⟩ like keys
      exact fun standings scopes like keys => ih fewer standings scopes like keys

end Run
end Comparison
end Stencil
