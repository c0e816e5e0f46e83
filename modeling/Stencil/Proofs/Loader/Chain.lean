import Stencil.Data.Builtin
import Stencil.Render.Run

namespace Stencil

/-- Whether an answer leaves the question to the next loader of a chain. -/
def isMiss : Except LoadError Template → Bool
  | .error (.missing _) => true
  | _ => false

/-- What is said when all loaders of a chain miss a template. -/
def missed (name : String) : Except LoadError Template :=
  .error (.missing ("Template not found: " ++ name))

@[simp] theorem isMiss_missed (name : String) : isMiss (missed name) = true := rfl

section Chains

variable (name : String)

@[simp] theorem loadFirst_nil : loadFirst [] name = missed name := rfl

theorem loadFirst_cons (l : Loader) (ls : List Loader) :
    loadFirst (l :: ls) name = if isMiss (l name) then loadFirst ls name else l name := by
  rw [loadFirst]
  split
  · rename_i words answer
    rw [answer]
    rfl
  · rename_i answer
    rw [if_neg]
    rw [isMiss.eq_def]
    split
    · rename_i words missing
      exact absurd missing (answer words)
    · exact Bool.false_ne_true

theorem loadFirst_append (ls ms : List Loader) :
    loadFirst (ls ++ ms) name = if isMiss (loadFirst ls name) then loadFirst ms name else loadFirst ls name := by
  induction ls with
  | nil => rfl
  | cons l ls ih =>
    rw [List.cons_append, loadFirst_cons, loadFirst_cons, ih]
    cases answer : isMiss (l name) <;> simp [answer]

/-- A chain of chains asks the same loaders in the same order as one chain does. -/
theorem loadFirst_map_loadFirst (chains : List (List Loader)) :
    loadFirst (chains.map loadFirst) name = loadFirst chains.flatten name := by
  induction chains with
  | nil => rfl
  | cons ls chains ih => rw [List.map_cons, List.flatten_cons, loadFirst_cons, loadFirst_append, ih]

/-- A loader that refuses a source ends the search, unless an earlier loader has ended it. -/
theorem loadFirst_refused {l : Loader} {e : SyntaxError} (refused : l name = .error (.invalid e))
    (before after : List Loader) :
    loadFirst (before ++ l :: after) name =
      if isMiss (loadFirst before name) then .error (.invalid e) else loadFirst before name := by
  rw [loadFirst_append, loadFirst_cons, refused]
  rfl

end Chains

/-- Templates by name; of two entries for one name the later counts. -/
abbrev Registry := List (String × Registered)

namespace Registry

def get? (r : Registry) (name : String) : Option Registered := r.reverse.lookup name

/-- The registry with an entry in place of those for the same name, or else behind all others. -/
def set (r : Registry) (name : String) (entry : Registered) : Registry :=
  if r.any (·.1 == name) then r.map fun e => if e.1 = name then (name, entry) else e
  else r ++ [(name, entry)]

/-- The registry with every entry of the upper one set in the lower one. -/
def overlay (upper lower : Registry) : Registry :=
  upper.foldl (fun r e => r.set e.1 e.2) lower

theorem lookup_cons (e : String × Registered) (r : Registry) (name : String) :
    List.lookup name (e :: r) = if e.1 = name then some e.2 else List.lookup name r := by
  rw [List.lookup_cons]
  by_cases same : e.1 = name
  · simp [same]
  · rw [beq_eq_false_iff_ne.mpr (Ne.symm same), if_neg same]

theorem lookup_map_set (r : Registry) (name other : String) (entry : Registered) :
    List.lookup other (r.map fun e => if e.1 = name then (name, entry) else e) =
      if name = other then (if r.any (·.1 == name) then some entry else none) else List.lookup other r := by
  induction r with
  | nil => simp
  | cons e r ih =>
    rw [List.map_cons, lookup_cons, ih, List.any_cons, lookup_cons]
    by_cases same : e.1 = name
    · by_cases asked : name = other <;> simp [same, asked]
    · have apart : (e.1 == name) = false := beq_eq_false_iff_ne.mpr same
      by_cases asked : name = other
      · rw [if_neg same, if_pos asked, if_pos asked, apart, Bool.false_or, if_neg (asked ▸ same)]
      · rw [if_neg same, if_neg asked, if_neg asked]

theorem get?_set (r : Registry) (name other : String) (entry : Registered) :
    (r.set name entry).get? other = if name = other then some entry else r.get? other := by
  unfold set get?
  split
  · rename_i present
    rw [← List.map_reverse, lookup_map_set, List.any_reverse, if_pos present]
  · rw [List.reverse_append, List.reverse_singleton, List.singleton_append, lookup_cons]

theorem get?_cons (e : String × Registered) (r : Registry) (name : String) :
    get? (e :: r) name = (get? r name).or (if e.1 = name then some e.2 else none) := by
  rw [get?, List.reverse_cons, List.lookup_append, lookup_cons]
  rfl

theorem get?_overlay (upper lower : Registry) (name : String) :
    (overlay upper lower).get? name = (get? upper name).or (get? lower name) := by
  -- The entries of the upper registry are set one after the other, so the lower one grows meanwhile.
  induction upper generalizing lower with
  | nil => rfl
  | cons e upper ih =>
    calc get? (overlay (e :: upper) lower) name
        = get? (overlay upper (lower.set e.1 e.2)) name := rfl
      _ = (get? upper name).or (if e.1 = name then some e.2 else get? lower name) := by rw [ih, get?_set]
      _ = (get? (e :: upper) name).or (get? lower name) := by
        rw [get?_cons, Option.or_assoc]
        split <;> rfl

end Registry

/-- The answer that an entry of a registry gives. -/
def Registered.load (name : String) : Registered → Except LoadError Template
  | .ready t => .ok t
  | .source text => compileNamed text name

theorem Registered.isMiss_load (name : String) (entry : Registered) : isMiss (entry.load name) = false := by
  cases entry with
  | ready t => rfl
  | source text =>
    rw [load, compileNamed]
    cases compile text name <;> rfl

theorem loadRegistered_eq (r : Registry) (name : String) :
    loadRegistered r name = (r.get? name).elim (missed name) (Registered.load name) := by
  rw [loadRegistered, ← Registry.get?]
  cases r.get? name with
  | none => rfl
  | some entry => cases entry <;> rfl

/-- A chain of two registries is the registry that has the entries of the first one over those of the second. -/
theorem loadFirst_registries (upper lower : Registry) :
    loadFirst [loadRegistered upper, loadRegistered lower] = loadRegistered (Registry.overlay upper lower) := by
  funext name
  rw [loadFirst_cons, loadFirst_cons, loadFirst_nil, loadRegistered_eq, loadRegistered_eq, loadRegistered_eq,
    Registry.get?_overlay]
  cases Registry.get? upper name with
  | some entry => simp [entry.isMiss_load name]
  | none =>
    cases Registry.get? lower name with
    | some entry => simp [entry.isMiss_load name]
    | none => rfl

/-- Chains flatten: asking two chains one after the other is asking all their loaders in a row, and a source that
is refused is the answer unless an earlier loader has given one, whatever comes later. Registries merge: runs with
two of them in a chain are runs with the first one over the second. -/
theorem loadFirst_flattens_merges :
    (∀ ls ms : List Loader, loadFirst [loadFirst ls, loadFirst ms] = loadFirst (ls ++ ms)) ∧
    (∀ (before after : List Loader) (l : Loader) (name : String) (e : SyntaxError),
      l name = .error (.invalid e) →
        loadFirst (before ++ l :: after) name =
          if isMiss (loadFirst before name) then .error (.invalid e) else loadFirst before name) ∧
    ∀ (upper lower : Registry) (φ : Type) [Callable φ] (s : Setting) (t : Template) (ctx : Context φ),
      render { s with loader := some (loadFirst [loadRegistered upper, loadRegistered lower]) } t ctx =
        render { s with loader := some (loadRegistered (Registry.overlay upper lower)) } t ctx := by
  refine ⟨fun ls ms => ?_, fun before after l name e refused => loadFirst_refused name refused before after, ?_⟩
  · funext name
    have flat := loadFirst_map_loadFirst name [ls, ms]
    rwa [List.flatten_cons, List.flatten_singleton] at flat
  · intro upper lower φ _ s t ctx
    rw [loadFirst_registries]

/-- A name that the first loader misses, the second one refuses and the third one would give, in a run too. -/
theorem loadFirst_flattens_merges_of_refused :
    let empty : Loader := loadRegistered []
    let broken : Registry := [("a", .source "$if x$")]
    let sound : Registry := [("a", .source "x"), ("b", .source "y")]
    ∃ e, loadRegistered broken "a" = .error (.invalid e) ∧ isMiss (loadFirst [empty] "a") = true ∧
      loadFirst ([empty] ++ loadRegistered broken :: [loadRegistered sound]) "a" = .error (.invalid e) ∧
      loadFirst [loadFirst [empty, loadRegistered broken], loadFirst [loadRegistered sound]] =
        loadFirst [empty, loadRegistered broken, loadRegistered sound] ∧
      ∀ (s : Setting) (t : Template) (ctx : Context Builtin),
        render { s with loader := some (loadFirst [loadRegistered broken, loadRegistered sound]) } t ctx =
          render { s with loader := some (loadRegistered [("a", .source "$if x$"), ("b", .source "y")]) } t ctx := by
  intro empty broken sound
  obtain ⟨flat, refuses, merged⟩ := loadFirst_flattens_merges
  have unclosed : (compile "$if x$" "a").isOk = false := by decide +kernel
  cases compiled : compile "$if x$" "a" with
  | ok t => simp [compiled, Except.isOk, Except.toBool] at unclosed
  | error e =>
    have refused : loadRegistered broken "a" = .error (.invalid e) := by
      rw [loadRegistered_eq]
      change compileNamed "$if x$" "a" = _
      rw [compileNamed, compiled]
      rfl
    exact ⟨e, refused, rfl, refuses [empty] _ _ _ _ refused, flat _ _, fun s t ctx => merged broken sound Builtin s t ctx⟩

end Stencil
