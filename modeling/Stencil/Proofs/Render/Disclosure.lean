import Stencil.Proofs.Data.Scopes
import Stencil.Proofs.Render.Levels
import Stencil.Proofs.Template.Names

namespace Stencil

variable {φ α β : Type}

/-- The paths of a node itself, without those of its bodies. -/
def Node.paths : Node → List Path
  | .text _ | .include _ _ | .txt _ _ => []
  | .attr _ path | .cond _ path _ _ | .mapNamed _ _ path | .mapInline _ _ path | .join _ _ path => [path]
  | .apply _ func arg => [func, arg]

/-- The names with which the paths of a template begin, at any depth. -/
def Template.heads (t : Template) : List String :=
  ((Node.preorderIn t.nodes).flatMap Node.paths).filterMap List.head?

/-- A node that asks for no template, and whose own paths begin with none but the given names. -/
structure Node.Asks (heads : String → Prop) (n : Node) : Prop where
  unnamed : n.name? = none
  heads : ∀ p ∈ n.paths, ∀ h ∈ p.head?, heads h

section Scopes

/-- Values without functions. -/
def Value.IsPlain (v : Value φ) : Prop := v.HoldsOnly fun _ => False

theorem Value.not_isPlain_func (f : φ) : ¬(Value.func f).IsPlain := by
  rw [IsPlain, HoldsOnly]
  exact id

theorem Inherited.isPlain : Inherited fun v : Value φ => v.IsPlain := .holdsOnly _

/-- Scopes without functions in the first chain, and the same value, or none, under each of the names in both. -/
structure Context.AgreeOn (heads : String → Prop) (c d : Context φ) : Prop where
  plain : c.All Value.IsPlain
  lookup : ∀ h, heads h → c.lookup h = d.lookup h

theorem Context.All.find_ne_func {c : Context φ} (plain : c.All Value.IsPlain) {path : Path} {f : φ} :
    c.find path ≠ .ok (.func f) :=
  fun found => Value.not_isPlain_func f (plain.find .isPlain found)

/-- A value without functions has the same text in any scopes. -/
theorem elementText_of_plain [Callable φ] (c d : Context φ) {v : Value φ} (plain : v.IsPlain) :
    elementText c v = elementText d v := by
  cases v with
  | func f => exact absurd plain (Value.not_isPlain_func f)
  | _ => rfl

theorem elementTexts_of_plain [Callable φ] (c d : Context φ) {vs : List (Value φ)} (plain : ∀ v ∈ vs, v.IsPlain) :
    vs.mapM (elementText c) = vs.mapM (elementText d) := by
  induction vs with
  | nil => rfl
  | cons v vs ih =>
    rw [List.forall_mem_cons] at plain
    rw [List.mapM_cons, List.mapM_cons, elementText_of_plain c d plain.1, ih plain.2]

namespace Context.AgreeOn

variable {heads : String → Prop} {c d : Context φ}

theorem refl (plain : c.All Value.IsPlain) : c.AgreeOn heads c := ⟨plain, fun _ _ => rfl⟩

variable (agree : c.AgreeOn heads d)

include agree

/-- What one more scope hides is hidden in both. -/
theorem push {scope : Entries φ} (plain : (Value.mapping scope).IsPlain) :
    (c.push scope).AgreeOn heads (d.push scope) where
  plain := agree.plain.push plain
  lookup h known := by rw [lookup_push, lookup_push, agree.lookup h known]

theorem find {path : Path} (begins : ∀ h ∈ path.head?, heads h) : c.find path = d.find path := by
  cases path with
  | nil => rfl
  | cons head rest => rw [Context.find, Context.find, agree.lookup head (begins head rfl)]

variable [Callable φ]

/-- There is nothing to be called. -/
theorem valueAt {path : Path} (begins : ∀ h ∈ path.head?, heads h) : valueAt c path = valueAt d path := by
  unfold Stencil.valueAt
  rw [← agree.find begins]
  cases found : c.find path with
  | error e => rfl
  | ok v =>
    cases v with
    | func f => exact absurd found agree.plain.find_ne_func
    | _ => rfl

variable {s : Setting} {mark : Mark}

theorem attrText {path : Path} (begins : ∀ h ∈ path.head?, heads h) :
    attrText s c mark path = attrText s d mark path := by
  rw [Stencil.attrText, Stencil.attrText, agree.valueAt begins]

theorem applyText {func arg : Path} (begins : ∀ h ∈ func.head?, heads h) :
    applyText s c mark func arg = applyText s d mark func arg := by
  unfold Stencil.applyText
  rw [← agree.find begins]
  cases found : c.find func with
  | error e => rfl
  | ok v =>
    cases v with
    | func f => exact absurd found agree.plain.find_ne_func
    | _ => rfl

theorem holds {condition : Path} (begins : ∀ h ∈ condition.head?, heads h) :
    holds c condition = holds d condition := by
  rw [Stencil.holds, Stencil.holds, agree.valueAt begins]

theorem listAt {items : Path} (begins : ∀ h ∈ items.head?, heads h) :
    listAt s c mark items = listAt s d mark items := by
  rw [Stencil.listAt, Stencil.listAt, agree.valueAt begins]

/-- The elements that are found hold no function either. -/
theorem listAt_plain {items : Path} {elements : List (Value φ)}
    (answer : (Stencil.listAt s c mark items).answer = .ok (some elements)) : ∀ v ∈ elements, v.IsPlain :=
  (Inherited.isPlain.closed Value.not_isPlain_func).listAt agree.plain answer

theorem joinText {separator : String} {items : Path} (begins : ∀ h ∈ items.head?, heads h) :
    joinText s c mark separator items = joinText s d mark separator items := by
  unfold Stencil.joinText
  rw [← agree.listAt begins]
  refine Traced.bind_congr fun found answer => ?_
  cases found with
  | none => rfl
  | some elements =>
    dsimp only
    rw [elementTexts_of_plain c d (agree.listAt_plain answer)]

end Context.AgreeOn
end Scopes

section Levels

variable {s : Setting} {mark : Mark} {heads : String → Prop} (loader : Option Loader)

theorem itemsText_congr {items : Path} {each other : Entries φ → Outcome String}
    (same : ∀ entries : Entries φ, (Value.mapping entries).IsPlain → each entries = other entries) (index : Nat)
    {elements : List (Value φ)} (plain : ∀ v ∈ elements, v.IsPlain) :
    itemsText s mark items each index elements = itemsText { s with loader } mark items other index elements := by
  induction elements generalizing index with
  | nil => rfl
  | cons v rest ih =>
    rw [List.forall_mem_cons] at plain
    have first : itemText s mark items each index v = itemText { s with loader } mark items other index v := by
      cases v with
      | mapping entries => exact same entries plain.1
      | _ => rfl
    rw [itemsText, itemsText, first, ih (index + 1) plain.2]

/-- Two ways to go one level deeper that do the same in scopes that agree on the names that are asked for. -/
def BelowAgree (heads : String → Prop) : Option (Below φ) → Option (Below φ) → Prop :=
  Option.Rel fun x y => ∀ st c d ns, c.AgreeOn heads d → (∀ n ∈ Node.preorderIn ns, n.Asks heads) →
    x st c ns = y st d ns

variable [Callable φ] {below below' : Option (Below φ)} {c d : Context φ}

theorem BelowAgree.mapInlineText (levels : BelowAgree heads below below') (agree : c.AgreeOn heads d)
    (st : Standing) {body : List Node} {items : Path} (begins : ∀ h ∈ items.head?, heads h)
    (asks : ∀ n ∈ Node.preorderIn body, n.Asks heads) :
    mapInlineText s below st c mark body items = mapInlineText { s with loader } below' st d mark body items := by
  have list : listAt s c mark items = listAt { s with loader } d mark items := agree.listAt begins
  unfold Stencil.mapInlineText
  rw [← list]
  refine Traced.bind_congr fun found answer => ?_
  rcases found with _ | _ | ⟨v, rest⟩
  · rfl
  · rfl
  · cases levels with
    | none => rfl
    | some same =>
      refine itemsText_congr loader (fun scope plain => ?_) 0 (agree.listAt_plain answer)
      -- Whatever the element hides, it hides the same in both chains, and it comes from the part on which they agree.
      exact same _ _ _ body (agree.push plain) asks

end Levels

section Nodes

variable [Callable φ] {s : Setting} {heads : String → Prop} {below below' : Option (Below φ)}

mutual

/-- The loader is of no account, since no node asks for a template. -/
theorem BelowAgree.nodeText (levels : BelowAgree heads below below') {c d : Context φ} (agree : c.AgreeOn heads d)
    (loader : Option Loader) (st : Standing) {n : Node} (asks : ∀ k ∈ n.preorder, k.Asks heads) :
    nodeText s below st c n = nodeText { s with loader } below' st d n := by
  obtain ⟨unnamed, begins⟩ := asks n n.mem_preorder_self
  cases n with
  | text value => rfl
  | txt mark key => rfl
  | attr mark path => exact agree.attrText (begins path List.mem_cons_self)
  | apply mark func arg => exact agree.applyText (begins func List.mem_cons_self)
  | join mark separator items => exact agree.joinText (begins items List.mem_cons_self)
  | «include» mark name => cases unnamed
  | mapNamed mark name items => cases unnamed
  | mapInline mark body items =>
    obtain ⟨-, inBody⟩ := List.forall_mem_cons.mp asks
    exact levels.mapInlineText loader agree st (begins items List.mem_cons_self) inBody
  | cond mark condition body elseBody =>
    obtain ⟨-, inside⟩ := List.forall_mem_cons.mp asks
    obtain ⟨inBody, inElse⟩ := List.forall_mem_append.mp inside
    rw [Stencil.nodeText, Stencil.nodeText, agree.holds (begins condition List.mem_cons_self),
      BelowAgree.nodesText levels agree loader st inBody, BelowAgree.elseText levels agree loader st inElse]

theorem BelowAgree.nodesText (levels : BelowAgree heads below below') {c d : Context φ} (agree : c.AgreeOn heads d)
    (loader : Option Loader) (st : Standing) {ns : List Node} (asks : ∀ k ∈ Node.preorderIn ns, k.Asks heads) :
    nodesText s below st c ns = nodesText { s with loader } below' st d ns := by
  cases ns with
  | nil => rfl
  | cons n ns =>
    obtain ⟨first, rest⟩ := List.forall_mem_append.mp asks
    rw [Stencil.nodesText, Stencil.nodesText, BelowAgree.nodeText levels agree loader st first,
      BelowAgree.nodesText levels agree loader st rest]

theorem BelowAgree.elseText (levels : BelowAgree heads below below') {c d : Context φ} (agree : c.AgreeOn heads d)
    (loader : Option Loader) (st : Standing) {elseBody : Option (List Node)}
    (asks : ∀ k ∈ Node.preorderElse elseBody, k.Asks heads) :
    elseText s below st c elseBody = elseText { s with loader } below' st d elseBody := by
  cases elseBody with
  | none => rfl
  | some body => exact BelowAgree.nodesText levels agree loader st asks

end

/-- A run at some level depends on no more of its scopes than the names that its nodes ask for. -/
theorem renderAt_agree {c d : Context φ} (agree : c.AgreeOn heads d) (loader : Option Loader) (levels : Nat)
    (st : Standing) {ns : List Node} (asks : ∀ k ∈ Node.preorderIn ns, k.Asks heads) :
    renderAt s levels st c ns = renderAt { s with loader } levels st d ns := by
  induction levels generalizing st c d ns with
  | zero => exact BelowAgree.nodesText .none agree loader st asks
  | succ levels ih =>
    have deeper : BelowAgree heads (some (renderAt s levels)) (some (renderAt { s with loader } levels)) :=
      .some fun st c d ns agree asks => ih agree st asks
    exact BelowAgree.nodesText deeper agree loader st asks

/-- What a run over data without functions can fail at: a value in the data that cannot be written out. -/
theorem renderAt_of_plain {data : Entries φ} (plain : (Value.mapping data).IsPlain) {s : Setting}
    (alone : s.loader = none) (levels : Nat) (st : Standing) (ns : List Node) :
    (∃ text, (renderAt s levels st ⟨[], data⟩ ns).answer = .ok text) ∨ Entries.areWritable data = false ∧
      (renderAt s levels st ⟨[], data⟩ ns).answer = .error (.raised .tooManyDigits) := by
  have closed : Closed fun v : Value φ => v.IsPlain ∧ (Entries.areWritable data = true → v.isWritable = true) :=
    (Inherited.isPlain.and (Inherited.isWritable.under (Entries.areWritable data = true))).closed
      fun f known => Value.not_isPlain_func f known.1
  have whole : (⟨[], data⟩ : Context φ).All fun v =>
      v.IsPlain ∧ (Entries.areWritable data = true → v.isWritable = true) :=
    .single ⟨plain, fun writable => by rwa [Value.isWritable]⟩
  cases answer : (renderAt s levels st ⟨[], data⟩ ns).answer with
  | ok text => exact .inl ⟨text, rfl⟩
  | error f =>
    cases renderAt_accounted closed levels st whole ns f answer with
    | call known => exact absurd known.1 (Value.not_isPlain_func _)
    | unwritable known long =>
      refine .inr ⟨Bool.eq_false_iff.mpr fun writable => ?_, rfl⟩
      cases long.symm.trans (known.2 writable)
    | loader present => cases alone.symm.trans present

/-- A template that names no other one discloses no more of the data than what is under the names with which its paths
begin. If there are no functions in the data, its run gives a text, unless a value in the data cannot be written out;
and any other data that has the same value, or none, under each of these names gives the same text and the same
reports, since all that happens is the same. -/
theorem render_heads (s : Setting) {t : Template} (unnamed : ∀ n ∈ Node.preorderIn t.nodes, n.name? = none)
    {data other : Entries φ} (plain : Entries.HoldOnly (fun _ => False) data)
    (same : ∀ h ∈ t.heads, Entries.get? data h = Entries.get? other h) :
    ((∃ text, (render s t ⟨[], data⟩).answer = .ok text) ∨ Entries.areWritable data = false ∧
        (render s t ⟨[], data⟩).answer = .error (.raised .tooManyDigits)) ∧
      render s t ⟨[], data⟩ = render s t ⟨[], other⟩ := by
  have asks : ∀ n ∈ Node.preorderIn t.nodes, n.Asks (· ∈ t.heads) := by
    refine fun n inside => ⟨unnamed n inside, fun p own h first => ?_⟩
    exact List.mem_filterMap.mpr ⟨p, List.mem_flatMap.mpr ⟨n, inside, own⟩, first⟩
  have mapping : (Value.mapping data).IsPlain := by rwa [Value.IsPlain, Value.HoldsOnly]
  have whole : (⟨[], data⟩ : Context φ).All Value.IsPlain := .single mapping
  constructor
  · -- The loader is never asked, so there might as well be none.
    have ends := renderAt_of_plain mapping (s := { s with loader := none }) rfl maxLevels
      ⟨0, if t.name = "" then [] else [t.name]⟩ t.nodes
    rwa [← renderAt_agree (.refl whole) none maxLevels _ asks] at ends
  · refine renderAt_agree ⟨whole, fun h known => ?_⟩ s.loader maxLevels _ asks
    rw [Context.lookup_of_scope, Context.lookup_of_scope, same h known]

/-- An element of a list that hides a name, a name that is in neither data, and a secret under a name that the template
does not begin a path with, though a key of that name is asked for. -/
theorem render_heads_of_shadowed :
    let s : Setting := ⟨none, none, "en", {}⟩
    let t : Template := ⟨[.attr ⟨1, 1⟩ ["page", "secret"], .mapInline ⟨2, 1⟩ [.attr ⟨2, 6⟩ ["page"]] ["people"],
      .cond ⟨3, 1⟩ ["shown"] [] (some [.join ⟨3, 20⟩ ", " ["people"]])], ""⟩
    let page : Value Builtin := .mapping [(.str "secret", .str "no")]
    let people : Value Builtin := .list [.mapping [(.str "page", .int 1)], .mapping []]
    let data : Entries Builtin := [(.str "page", page), (.str "people", people), (.str "secret", .int 42)]
    let other : Entries Builtin := [(.str "people", people), (.str "secret", .null), (.str "page", page)]
    (∀ n ∈ Node.preorderIn t.nodes, n.name? = none) ∧ Entries.HoldOnly (fun _ => False) data ∧
      (∀ h ∈ t.heads, Entries.get? data h = Entries.get? other h) ∧
      ((∃ text, (render s t ⟨[], data⟩).answer = .ok text) ∨ Entries.areWritable data = false ∧
        (render s t ⟨[], data⟩).answer = .error (.raised .tooManyDigits)) ∧
      render s t ⟨[], data⟩ = render s t ⟨[], other⟩ := by
  intro s t page people data other
  have unnamed : ∀ n ∈ Node.preorderIn t.nodes, n.name? = none := by decide
  have plain : Entries.HoldOnly (fun _ : Builtin => False) data := by
    simp [data, page, people, Entries.HoldOnly, Entry.HoldsOnly, Value.HoldsOnly, Value.AllHoldOnly]
  have same : ∀ h ∈ t.heads, Entries.get? data h = Entries.get? other h := by
    have heads : t.heads = ["page", "people", "page", "shown", "people"] := rfl
    rw [heads]
    simp only [List.forall_mem_cons]
    exact ⟨rfl, rfl, rfl, rfl, rfl, List.forall_mem_nil _⟩
  exact ⟨unnamed, plain, same, render_heads s unnamed plain same⟩

end Nodes
end Stencil
