import Stencil.Proofs.Storage.Faults
import Mathlib.Data.List.Induction
import Mathlib.Logic.Relation

namespace Stencil

/-- The name of something that stands in a directory. -/
def LeadsDown (name : String) : Prop :=
  name ≠ "" ∧ name ≠ "." ∧ name ≠ ".."

/-- What stands between the slashes of a text, empty parts and dots included. -/
def components (text : String) : List String :=
  (text.toList.splitOn '/').map String.ofList

/-- The components of the path that a text names for someone at the path of `here`: an absolute path has only its
own. -/
def pathComponents (here : List String) (text : String) : List String :=
  if text.toList.head? = some '/' then components text else here ++ components text

/-- One step of normalisation of a path from the root. -/
inductive Shortens : List String → List String → Prop
  | empty (above below : List String) : Shortens (above ++ "" :: below) (above ++ below)
  | dot (above below : List String) : Shortens (above ++ "." :: below) (above ++ below)
  | up (above below : List String) {name : String} (down : LeadsDown name) :
      Shortens (above ++ name :: ".." :: below) (above ++ below)
  | top (below : List String) : Shortens (".." :: below) below

/-- The place is where normalisation of the components ends. -/
structure Normalizes (parts : List String) (place : Place) : Prop where
  shortened : Relation.ReflTransGen Shortens parts place
  plain : ∀ name ∈ place, LeadsDown name

/-- The components that are names, two dots among them. -/
def namesAmong (parts : List String) : List String :=
  parts.filter fun part => isName part.toList

/-- The place that the components lead to from the root. -/
def normalForm (parts : List String) : Place :=
  Place.follow [] (namesAmong parts)

variable {place : Place} {parts parts' : List String} {name text : String}

section Names

theorem isName_iff : isName name.toList = true ↔ name ≠ "" ∧ name ≠ "." := by
  have empty : name.toList = [] ↔ name = "" := String.toList_eq_nil_iff
  have dot : name.toList = ['.'] ↔ name = "." := by
    rw [← String.toList_inj]
    rfl
  rw [isName, Bool.and_eq_true, bne_iff_ne, bne_iff_ne, Ne, Ne, empty, dot]

theorem LeadsDown.isName (down : LeadsDown name) : Stencil.isName name.toList = true :=
  isName_iff.mpr ⟨down.1, down.2.1⟩

theorem namesAmong_append (first second : List String) :
    namesAmong (first ++ second) = namesAmong first ++ namesAmong second :=
  List.filter_append first second

theorem namesAmong_cons (named : isName name.toList = true) (rest : List String) :
    namesAmong (name :: rest) = name :: namesAmong rest := by
  rw [namesAmong, List.filter_cons, if_pos named, ← namesAmong]

theorem namesAmong_skip (nameless : isName name.toList ≠ true) (rest : List String) :
    namesAmong (name :: rest) = namesAmong rest := by
  rw [namesAmong, List.filter_cons, if_neg nameless, ← namesAmong]

theorem namesAmong_plain (plain : ∀ name ∈ parts, LeadsDown name) : namesAmong parts = parts :=
  List.filter_eq_self.mpr fun name member => (plain name member).isName

end Names

section Steps

theorem Place.follow_append (place : Place) (first second : List String) :
    place.follow (first ++ second) = (place.follow first).follow second :=
  List.foldl_append

/-- Names that lead down are put behind the place. -/
theorem Place.follow_plain (place : Place) {names : List String} (plain : ∀ name ∈ names, LeadsDown name) :
    place.follow names = place ++ names := by
  induction names generalizing place with
  | nil => rw [follow, List.foldl_nil, List.append_nil]
  | cons name names ih =>
    have down := plain name List.mem_cons_self
    have step : place.follow (name :: names) = (place ++ [name]).follow names := by
      rw [follow, List.foldl_cons, if_neg down.2.2]
      rfl
    rw [step, ih _ fun other member => plain other (List.mem_cons_of_mem name member), List.append_assoc,
      List.singleton_append]

theorem Place.follow_up (place : Place) (down : LeadsDown name) (rest : List String) :
    place.follow (name :: ".." :: rest) = place.follow rest := by
  rw [follow, List.foldl_cons, List.foldl_cons, if_neg down.2.2, if_pos rfl, List.dropLast_concat]
  rfl

theorem normalForm_append (first second : List String) :
    normalForm (first ++ second) = (normalForm first).follow (namesAmong second) := by
  rw [normalForm, namesAmong_append, Place.follow_append, normalForm]

theorem normalForm_plain (plain : ∀ name ∈ parts, LeadsDown name) : normalForm parts = parts := by
  rw [normalForm, namesAmong_plain plain, Place.follow_plain [] plain, List.nil_append]

/-- No step of normalisation changes where the components lead. -/
theorem Shortens.normalForm_eq (step : Shortens parts parts') : normalForm parts = normalForm parts' := by
  cases step with
  | empty above below => rw [normalForm_append, normalForm_append, namesAmong_skip (by decide)]
  | dot above below => rw [normalForm_append, normalForm_append, namesAmong_skip (by decide)]
  | up above below down =>
    rw [normalForm_append, normalForm_append, namesAmong_cons down.isName, namesAmong_cons (by decide),
      Place.follow_up _ down]
  | top =>
    rw [normalForm, namesAmong_cons (by decide)]
    rfl

theorem normalForm_eq_of_shortened (shortened : Relation.ReflTransGen Shortens parts parts') :
    normalForm parts = normalForm parts' := by
  induction shortened with
  | refl => rfl
  | tail _ step ih => exact ih.trans step.normalForm_eq

/-- A step can be taken with anything behind the path. -/
theorem Shortens.append (step : Shortens parts parts') (behind : List String) :
    Shortens (parts ++ behind) (parts' ++ behind) := by
  cases step with
  | empty above below => simpa using Shortens.empty above (below ++ behind)
  | dot above below => simpa using Shortens.dot above (below ++ behind)
  | up above below down => simpa using Shortens.up above (below ++ behind) down
  | top => exact .top _

/-- One more component is taken up by a place: it is dropped, it leads up, or it leads down. -/
theorem Normalizes.step (plain : ∀ name ∈ place, LeadsDown name) (name : String) :
    Normalizes (place ++ [name]) (place.follow (namesAmong [name])) := by
  by_cases named : isName name.toList = true
  · rw [namesAmong_cons named]
    by_cases up : name = ".."
    · subst up
      refine ⟨?_, fun other member => plain other (List.dropLast_subset _ member)⟩
      rcases List.eq_nil_or_concat place with rfl | ⟨above, last, rfl⟩
      · exact .single (.top [])
      · have down : LeadsDown last := plain last (by simp)
        have back : Place.follow (above.concat last) [".."] = above := by
          rw [List.concat_eq_append]
          exact List.dropLast_concat
        have shorter := Shortens.up above [] down
        rw [List.append_nil] at shorter
        rw [namesAmong, List.filter_nil, back, List.concat_eq_append, List.append_assoc]
        exact .single shorter
    · have down : LeadsDown name := ⟨(isName_iff.mp named).1, (isName_iff.mp named).2, up⟩
      rw [namesAmong, List.filter_nil, Place.follow_plain place (by simpa using down)]
      refine ⟨.refl, fun other member => ?_⟩
      rcases List.mem_append.mp member with before | last
      · exact plain other before
      · rw [List.mem_singleton.mp last]
        exact down
  · have dropped : place.follow (namesAmong [name]) = place := by
      rw [namesAmong_skip named]
      rfl
    rw [dropped]
    refine ⟨.single ?_, plain⟩
    rw [isName_iff, not_and_or, not_not, not_not] at named
    rcases named with rfl | rfl
    · simpa using Shortens.empty place []
    · simpa using Shortens.dot place []

/-- Normalisation can be carried to its end, component by component. -/
theorem normalizes_normalForm (parts : List String) : Normalizes parts (normalForm parts) := by
  induction parts using List.reverseRecOn with
  | nil => exact ⟨.refl, nofun⟩
  | append_singleton parts name ih =>
    have front : Relation.ReflTransGen Shortens (parts ++ [name]) (normalForm parts ++ [name]) :=
      ih.shortened.lift (· ++ [name]) fun _ _ step => step.append [name]
    have last := Normalizes.step ih.plain name
    rw [normalForm_append]
    exact ⟨front.trans last.shortened, last.plain⟩

/-- However it is carried out, normalisation ends at the same place. -/
theorem normalizes_iff : Normalizes parts place ↔ place = normalForm parts := by
  constructor
  · rintro ⟨shortened, plain⟩
    rw [normalForm_eq_of_shortened shortened, normalForm_plain plain]
  · rintro rfl
    exact normalizes_normalForm parts

theorem normalizes_unique (parts : List String) : ∃! place, Normalizes parts place :=
  ⟨normalForm parts, normalizes_normalForm parts, fun _ normal => normalizes_iff.mp normal⟩

end Steps

section Texts

theorem splitSlashes_eq_splitOn (cs : List Char) : splitSlashes cs = cs.splitOn '/' := by
  induction cs with
  | nil => rfl
  | cons c cs ih =>
    rw [splitSlashes, ih, List.splitOn, List.splitOn, List.splitOnP_cons_eq_if_modifyHead]
    by_cases slash : c = '/'
    · rw [if_pos slash, if_pos (beq_iff_eq.mpr slash)]
    · rw [if_neg slash, if_neg (by simpa using slash)]
      cases split : cs.splitOnP (· == '/') with
      | nil => exact absurd split (List.splitOnP_ne_nil _ cs)
      | cons part parts => rfl

/-- Splitting at slashes loses no other character. -/
theorem mem_splitSlashes {c : Char} (other : c ≠ '/') (cs : List Char) :
    (∃ part ∈ splitSlashes cs, c ∈ part) ↔ c ∈ cs := by
  induction cs with
  | nil => simp [splitSlashes]
  | cons first cs ih =>
    rw [splitSlashes, List.mem_cons, ← ih]
    by_cases slash : first = '/'
    · rw [if_pos slash]
      simp [slash, other]
    · rw [if_neg slash]
      cases splitSlashes cs with
      | nil => simp
      | cons part parts => simp [or_assoc]

theorem FilePath.names_ofText (text : String) : (ofText text).names = namesAmong (components text) := by
  have same : (fun part => isName part.toList) ∘ String.ofList = isName := by
    funext part
    rw [Function.comp, String.toList_ofList]
  rw [namesAmong, components, List.filter_map, same, ← splitSlashes_eq_splitOn]
  rfl

theorem FilePath.isAbsolute_ofText (text : String) :
    (ofText text).isAbsolute = true ↔ text.toList.head? = some '/' := by
  have counted (n : Nat) : (PathStart.ofSlashes n != .here) = true ↔ n ≠ 0 := by
    match n with
    | 0 => simp [PathStart.ofSlashes]
    | 1 => simp [PathStart.ofSlashes]
    | 2 => simp [PathStart.ofSlashes]
    | n + 3 => simp [PathStart.ofSlashes]
  rw [isAbsolute, ofText, counted]
  cases text.toList with
  | nil => simp
  | cons c cs => by_cases slash : c = '/' <;> simp [slash]

/-- A text's path has a zero character if the text has one: such a part is always a name. -/
theorem FilePath.hasZero_ofText (text : String) : (ofText text).hasZero = true ↔ '\x00' ∈ text.toList := by
  rw [← mem_splitSlashes (by decide), hasZero, ofText, List.any_eq_true]
  constructor
  · rintro ⟨name, member, zero⟩
    obtain ⟨part, kept, rfl⟩ := List.mem_map.mp member
    rw [String.toList_ofList, List.contains_iff_mem] at zero
    exact ⟨part, (List.mem_filter.mp kept).1, zero⟩
  · rintro ⟨part, member, zero⟩
    have named : isName part = true := by
      rw [isName, Bool.and_eq_true, bne_iff_ne, bne_iff_ne]
      constructor
      · rintro rfl
        cases zero
      · rintro rfl
        exact absurd zero (by decide)
    refine ⟨String.ofList part, List.mem_map_of_mem (List.mem_filter.mpr ⟨member, named⟩), ?_⟩
    rw [String.toList_ofList, List.contains_iff_mem]
    exact zero

/-- A path leads to the place at which normalisation of its components ends. -/
theorem FilePath.resolve_ofText (parts : List String) (text : String) :
    (ofText text).resolve (normalForm parts) = normalForm (pathComponents parts text) := by
  rw [resolve, names_ofText, pathComponents]
  by_cases absolute : text.toList.head? = some '/'
  · rw [if_pos ((isAbsolute_ofText text).mpr absolute), if_pos absolute, normalForm]
  · rw [if_neg (mt (isAbsolute_ofText text).mp absolute), if_neg absolute, normalForm_append]

end Texts
end Stencil
