import Mathlib.Data.List.Forall2
import Stencil.Data.Builtin
import Stencil.Proofs.Data.Scopes
import Stencil.Proofs.Render.Yield
import Stencil.Proofs.Template.Inplace

namespace Stencil

variable {φ : Type}

/-- A record: a name, and the records below it. -/
structure Branch where
  name : String
  kids : List Branch

namespace Branch

mutual

/-- How many levels of records there are in a list. -/
def levels : List Branch → Nat
  | [] => 0
  | b :: bs => max b.height (levels bs)

def height : Branch → Nat
  | ⟨_, kids⟩ => levels kids + 1

end

mutual

/-- The records one after the other, each with those below it inside. -/
def serial : List Branch → String
  | [] => ""
  | b :: bs => b.text ++ serial bs

def text : Branch → String
  | ⟨name, kids⟩ => "<li>" ++ name ++ serial kids ++ "</li>"

end

/-- The first levels of records, so many of them. -/
def upTo : Nat → List Branch → List Branch
  | 0, _ => []
  | n + 1, bs => bs.map fun b => ⟨b.name, upTo n b.kids⟩

/-- The lists with records in them that come after those levels. -/
def behind : Nat → List Branch → List (List Branch)
  | 0, [] => []
  | 0, b :: bs => [b :: bs]
  | n + 1, bs => bs.flatMap fun b => behind n b.kids

section Levels

variable {n : Nat} {bs : List Branch}

theorem height_eq (b : Branch) : b.height = levels b.kids + 1 := by
  cases b
  rw [height]

theorem serial_eq (bs : List Branch) : serial bs = String.join (bs.map text) := by
  induction bs with
  | nil => rfl
  | cons b bs ih => rw [serial, ih, List.map_cons, String.join_cons]

theorem levels_le_iff : levels bs ≤ n ↔ ∀ b ∈ bs, levels b.kids < n := by
  induction bs with
  | nil => simp [levels]
  | cons b bs ih => rw [levels, Nat.max_le, List.forall_mem_cons, ih, height_eq, Nat.add_one_le_iff]

theorem upTo_of_levels (enough : levels bs ≤ n) : upTo n bs = bs := by
  induction n generalizing bs with
  | zero =>
    cases bs with
    | nil => rfl
    | cons b bs => cases levels_le_iff.mp enough b List.mem_cons_self
  | succ n ih =>
    have same : ∀ b ∈ bs, ⟨b.name, upTo n b.kids⟩ = b := by
      intro b member
      rw [ih (Nat.le_of_lt_succ (levels_le_iff.mp enough b member))]
      cases b
      rfl
    exact (List.map_congr_left same).trans (List.map_id bs)

theorem behind_eq_nil_iff : behind n bs = [] ↔ levels bs ≤ n := by
  induction n generalizing bs with
  | zero =>
    cases bs with
    | nil => simp [behind, levels]
    | cons b bs =>
      refine ⟨nofun, fun none => ?_⟩
      cases levels_le_iff.mp none b List.mem_cons_self
  | succ n ih =>
    rw [behind, List.flatMap_eq_nil_iff, levels_le_iff]
    exact forall₂_congr fun b _ => ih.trans Nat.lt_succ_iff.symm

end Levels
end Branch

/-- The elements of a list, which may be a tuple. -/
def Value.list? : Value φ → Option (List (Value φ))
  | .list vs | .tuple vs => some vs
  | _ => none

/-- The value is a mapping with the name of the record and a list with those below it; whatever else there is in it
does not matter. -/
inductive Branch.StoredAs : Branch → Value φ → Prop
  | mapping {name : String} {kids : List Branch} {entries : Entries φ} {held : Value φ} {vs : List (Value φ)}
      (named : entries.get? "name" = some (.str name)) (below : entries.get? "kids" = some held)
      (list : held.list? = some vs) (each : List.Forall₂ Branch.StoredAs kids vs) :
      StoredAs ⟨name, kids⟩ (.mapping entries)

section Parts

variable {s : Setting} {ctx : Context φ}

theorem Yields.listAt [Callable φ] {items : Path} {v : Value φ} {vs : List (Value φ)} (found : ctx.find items = .ok v)
    (list : v.list? = some vs) (mark : Mark) : Yields (listAt s ctx mark items) (some vs) [] := by
  have value : valueAt ctx items = (do return .ok v) := by
    unfold valueAt
    rw [found]
    cases v <;> first | rfl | cases list
  unfold Stencil.listAt
  rw [value, pure_bind]
  cases v <;> cases list <;> exact .after (.tell rfl) (.pure _)

theorem Yields.attrText [Callable φ] {path : Path} {text : String} (found : ctx.find path = .ok (.str text))
    (mark : Mark) : Yields (attrText s ctx mark path) text [] := by
  unfold Stencil.attrText valueAt
  rw [found]
  exact ⟨rfl, rfl⟩

/-- Records that write their own texts and make their own reports, one after the other. -/
theorem Yields.itemsText {mark : Mark} {items : Path} {each : Entries φ → Outcome String} {text : Branch → String}
    {ds : Branch → List Diagnostic}
    (element : ∀ (b : Branch) v, b.StoredAs v → ∃ entries, v = .mapping entries ∧
      Yields (each entries) (text b) (s.shown (ds b)))
    {bs : List Branch} {vs : List (Value φ)} (stored : List.Forall₂ Branch.StoredAs bs vs) (index : Nat) :
    Yields (itemsText s mark items each index vs) (String.join (bs.map text)) (s.shown (bs.flatMap ds)) := by
  induction stored generalizing index with
  | nil =>
    rw [List.flatMap_nil, s.shown_nil]
    exact .pure ""
  | @cons b v bs vs own _ ih =>
    obtain ⟨entries, rfl, first⟩ := element b v own
    rw [List.map_cons, String.join_cons, List.flatMap_cons, s.shown_append]
    exact .both first (ih (index + 1))

end Parts

/-- The template of a record: its name and, once more, those below it. -/
def rowNodes (value row : Mark) : List Node :=
  [.text "<li>", .attr value ["name"], .mapNamed row "node" ["kids"], .text "</li>"]

theorem compile_row (name : String) :
    ∃ value row, compile "<li>$name$$map node kids$</li>" name = .ok ⟨rowNodes value row, name⟩ := by
  have printable : Node.arePrintable (rowNodes .origin .origin) = true := by decide +kernel
  have spelled : "<li>$name$$map node kids$</li>".toList = Node.printAll .page (rowNodes .origin .origin) := by
    decide +kernel
  obtain ⟨ns, compiled, agree⟩ := compile_of_printable printable spelled name
  obtain ⟨opening, ns, rfl, first, agree⟩ := Node.exists_cons_of_agreeAll agree
  obtain ⟨named, ns, rfl, second, agree⟩ := Node.exists_cons_of_agreeAll agree
  obtain ⟨below, ns, rfl, third, agree⟩ := Node.exists_cons_of_agreeAll agree
  obtain ⟨closing, ns, rfl, fourth, none⟩ := Node.exists_cons_of_agreeAll agree
  obtain ⟨value, rfl⟩ := Node.eq_attr_of_agrees second
  obtain ⟨row, rfl⟩ := Node.eq_mapNamed_of_agrees third
  rw [Node.eq_text_of_agrees first, Node.eq_text_of_agrees fourth, Node.eq_nil_of_agreeAll none] at compiled
  exact ⟨value, row, compiled⟩

section Run

/-- With `n` levels left, a list is written down to the last level, and `d` is reported for each list that comes after
that. -/
def WritesRecords (φ : Type) [Callable φ] (s : Setting) (n : Nat) (st : Standing) (mark : Mark) (d : Diagnostic) :
    Prop :=
  ∀ (ctx : Context φ) {bs : List Branch} {v : Value φ} {vs : List (Value φ)}, ctx.find ["kids"] = .ok v →
    v.list? = some vs → List.Forall₂ Branch.StoredAs bs vs →
      Yields (renderAt s n st ctx [.mapNamed mark "node" ["kids"]]) (Branch.serial (Branch.upTo n bs))
        (s.shown ((Branch.behind n bs).map fun _ => d))

variable [Callable φ] {s : Setting} {st : Standing} {n : Nat} {value row mark : Mark} {d : Diagnostic}

/-- A record as the innermost scope. The list that is found is its own, never that of a record around it. -/
theorem WritesRecords.single (deeper : WritesRecords φ s n st row d) (ctx : Context φ) {b : Branch} {v : Value φ}
    (stored : b.StoredAs v) : ∃ entries, v = .mapping entries ∧
      Yields (renderAt s n st (ctx.push entries) (rowNodes value row))
        (Branch.text ⟨b.name, Branch.upTo n b.kids⟩) (s.shown ((Branch.behind n b.kids).map fun _ => d)) := by
  obtain @⟨name, kids, entries, held, vs, named, below, list, each⟩ := stored
  have atName : (ctx.push entries).find ["name"] = .ok (.str name) := by
    rw [Context.find, Context.lookup_push, named]
    rfl
  have atKids : (ctx.push entries).find ["kids"] = .ok held := by
    rw [Context.find, Context.lookup_push, below]
    rfl
  have written : Yields (renderAt s n st (ctx.push entries) [.attr value ["name"]]) name [] := by
    cases n <;> exact .node (.attrText atName value)
  have opening : Yields (renderAt s n st (ctx.push entries) [.text "<li>"]) "<li>" [] := .verbatim n "<li>"
  have closing : Yields (renderAt s n st (ctx.push entries) [.text "</li>"]) "</li>" [] := .verbatim n "</li>"
  have whole := ((opening.append written).append (deeper _ atKids list each)).append closing
  rw [List.append_nil, List.append_nil, List.nil_append] at whole
  refine ⟨entries, rfl, ?_⟩
  rw [Branch.text]
  exact whole

theorem WritesRecords.last : WritesRecords φ s 0 st mark ⟨.tooDeep st.chain "node", mark⟩ := by
  intro ctx bs v vs found list each
  refine .node (.after (.listAt found list mark) ?_)
  cases each with
  | nil =>
    rw [Branch.behind, List.map_nil, s.shown_nil]
    exact .pure ""
  | cons => exact .reportInstead mark _

/-- An empty list enters nothing, and a list with elements is gone over one level deeper. -/
theorem WritesRecords.step {loader : Loader} (present : s.loader = some loader)
    (loads : loader "node" = .ok ⟨rowNodes value row, "node"⟩)
    (deeper : WritesRecords φ s n (st.enter (some "node")) row d) : WritesRecords φ s (n + 1) st mark d := by
  intro ctx bs v vs found list each
  refine .node (.after (.listAt found list mark) ?_)
  have texts : Branch.serial (Branch.upTo (n + 1) bs) =
      String.join (bs.map fun b => Branch.text ⟨b.name, Branch.upTo n b.kids⟩) := by
    rw [Branch.serial_eq, Branch.upTo, List.map_map]
    rfl
  rw [texts, Branch.behind, List.map_flatMap]
  cases each with
  | nil =>
    rw [List.flatMap_nil, s.shown_nil]
    exact .pure ""
  | cons first others =>
    refine .after (.findTemplate present loads ctx mark) ?_
    exact .itemsText (fun _ _ => deeper.single ctx) (.cons first others) 0

theorem WritesRecords.exists {loader : Loader} (present : s.loader = some loader)
    (loads : loader "node" = .ok ⟨rowNodes value row, "node"⟩) (n : Nat) (st : Standing) (mark : Mark) :
    ∃ d : Diagnostic, d.kind = .include ∧ d.target = "node" ∧ WritesRecords φ s n st mark d := by
  induction n generalizing st mark with
  | zero => exact ⟨_, rfl, rfl, .last⟩
  | succ n ih =>
    obtain ⟨d, kind, target, deeper⟩ := ih (st.enter (some "node")) row
    exact ⟨d, kind, target, deeper.step present loads⟩

/-- A template that maps itself over the list of each record writes all of them, depth first, and reports nothing, as
long as the records do not nest deeper than there are levels. If they do, it writes those down to the last level and,
unless the run is quiet, reports each list that comes after that. -/
theorem render_records {loader : Loader} (present : s.loader = some loader)
    (binds : loader "node" = compileNamed "<li>$name$$map node kids$</li>" "node") {ctx : Context φ} {v : Value φ}
    {vs : List (Value φ)} (found : ctx.find ["kids"] = .ok v) (list : v.list? = some vs) {bs : List Branch}
    (stored : List.Forall₂ Branch.StoredAs bs vs) :
    ∃ t d, compile "$map node kids$" "" = .ok t ∧
      (render s t ctx).answer = .ok (Branch.serial (Branch.upTo 100 bs)) ∧
      reportsOf (render s t ctx).events = s.shown ((Branch.behind 100 bs).map fun _ => d) ∧
      d.kind = .include ∧ d.target = "node" ∧
      (Branch.levels bs ≤ 100 → (render s t ctx).answer = .ok (Branch.serial bs) ∧
        reportsOf (render s t ctx).events = []) ∧
      (100 < Branch.levels bs → s.options.quiet = false → reportsOf (render s t ctx).events ≠ []) := by
  obtain ⟨mark, compiled⟩ : ∃ mark, compile "$map node kids$" "" = .ok ⟨[.mapNamed mark "node" ["kids"]], ""⟩ :=
    compile_mapNamed (by decide : isTemplateName "node") (by decide : Path.isSpellable ["kids"]) ""
  obtain ⟨value, row, compiledRow⟩ := compile_row "node"
  have loads : loader "node" = .ok ⟨rowNodes value row, "node"⟩ :=
    binds.trans (congrArg (Except.mapError LoadError.invalid) compiledRow)
  obtain ⟨d, kind, target, writes⟩ :
      ∃ d : Diagnostic, d.kind = .include ∧ d.target = "node" ∧ WritesRecords φ s maxLevels ⟨0, []⟩ mark d :=
    WritesRecords.exists present loads maxLevels ⟨0, []⟩ mark
  obtain ⟨answer, reports⟩ := writes ctx found list stored
  refine ⟨_, d, compiled, answer, reports, kind, target, fun enough => ⟨?_, ?_⟩, fun deeper loud none => ?_⟩
  · rw [← Branch.upTo_of_levels enough]
    exact answer
  · have nothing : Branch.behind maxLevels bs = [] := Branch.behind_eq_nil_iff.mpr enough
    rw [nothing, List.map_nil, s.shown_nil] at reports
    exact reports
  · rw [Setting.shown_loud loud] at reports
    have nothing := List.map_eq_nil_iff.mp (reports.symm.trans none)
    exact absurd (Branch.behind_eq_nil_iff.mp nothing) (Nat.not_le_of_lt deeper)

/-- A record with one below it, beside a record with a tuple for its list and with something else in it. -/
theorem render_records_of_nested :
    let loader := loadRegistered [("node", .source "<li>$name$$map node kids$</li>")]
    let s : Setting := ⟨some loader, none, "en", {}⟩
    let leaf (name : String) : Value Builtin :=
      .mapping [(.str "kids", .tuple []), (.str "id", .int 7), (.str "name", .str name)]
    let vs : List (Value Builtin) := [.mapping [(.str "name", .str "a"), (.str "kids", .list [leaf "b"])], leaf "$c$"]
    let ctx : Context Builtin := ⟨[], [(.str "kids", .list vs)]⟩
    let bs : List Branch := [⟨"a", [⟨"b", []⟩]⟩, ⟨"$c$", []⟩]
    s.loader = some loader ∧ loader "node" = compileNamed "<li>$name$$map node kids$</li>" "node" ∧
      ctx.find ["kids"] = .ok (.list vs) ∧ List.Forall₂ Branch.StoredAs bs vs ∧
      ∃ t, compile "$map node kids$" "" = .ok t ∧
        (render s t ctx).answer = .ok "<li>a<li>b</li></li><li>$c$</li>" ∧
        reportsOf (render s t ctx).events = [] := by
  intro loader s leaf vs ctx bs
  have alone (name : String) : Branch.StoredAs ⟨name, []⟩ (leaf name) := .mapping rfl rfl rfl .nil
  have stored : List.Forall₂ Branch.StoredAs bs vs :=
    .cons (.mapping rfl rfl rfl (.cons (alone "b") .nil)) (.cons (alone "$c$") .nil)
  have present : s.loader = some loader := rfl
  have binds : loader "node" = compileNamed "<li>$name$$map node kids$</li>" "node" := rfl
  have found : ctx.find ["kids"] = .ok (.list vs) := rfl
  obtain ⟨t, -, compiled, -, -, -, -, complete, -⟩ := render_records present binds found rfl stored
  obtain ⟨answer, reports⟩ := complete (by decide)
  exact ⟨present, binds, found, stored, t, compiled, answer, reports⟩

end Run
end Stencil
