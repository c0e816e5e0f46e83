import Stencil.Proofs.Localization.History
import Mathlib.Data.List.TakeWhile

namespace Stencil.Catalog

variable {φ : Type} [Handle φ]

/-- What stands in a locale before its first underscore or hyphen. -/
def language (locale : String) : String :=
  String.ofList (locale.toList.takeWhile fun c => c != '_' && c != '-')

/-- There is an underscore in the locale, and in front of the first one a hyphen. -/
def HyphenFirst (locale : String) : Prop :=
  ∃ front back, locale.toList = front ++ '_' :: back ∧ '_' ∉ front ∧ '-' ∈ front

/-- The text that some steps leave for a key in just this locale. -/
def stored? (steps : List (Step φ)) (key locale domain : String) : Option String :=
  lastText? (added locale domain steps) key

section Separators

variable {locale : String} {front back : List Char} {c : Char}

theorem takeWhile_ne_of_first (first : c ∉ front) : (front ++ c :: back).takeWhile (· != c) = front := by
  have passes : ∀ x ∈ front, (x != c) = true :=
    fun x member => bne_iff_ne.mpr fun same => first (same ▸ member)
  rw [List.takeWhile_append_of_pos passes, List.takeWhile_cons_of_neg (by simp), List.append_nil]

theorem baseLocale?_underscore (split : locale.toList = front ++ '_' :: back) (first : '_' ∉ front) :
    baseLocale? locale = some (String.ofList front) := by
  have there : locale.toList.contains '_' = true := by simp [split]
  rw [baseLocale?, if_pos there, split, takeWhile_ne_of_first first]

theorem baseLocale?_hyphen (split : locale.toList = front ++ '-' :: back) (first : '-' ∉ front)
    (noUnderscore : '_' ∉ locale.toList) : baseLocale? locale = some (String.ofList front) := by
  have there : locale.toList.contains '-' = true := by simp [split]
  rw [baseLocale?, if_neg (by simpa using noUnderscore), if_pos there, split, takeWhile_ne_of_first first]

theorem language_of_split (split : locale.toList = front ++ c :: back) (separates : c = '_' ∨ c = '-')
    (noUnderscore : '_' ∉ front) (noHyphen : '-' ∉ front) : language locale = String.ofList front := by
  have passes : ∀ x ∈ front, (x != '_' && x != '-') = true := by
    intro x member
    rw [Bool.and_eq_true, bne_iff_ne, bne_iff_ne]
    exact ⟨fun same => noUnderscore (same ▸ member), fun same => noHyphen (same ▸ member)⟩
  rw [language, split, List.takeWhile_append_of_pos passes, List.takeWhile_cons_of_neg, List.append_nil]
  rcases separates with rfl | rfl <;> decide

theorem hyphen_not_mem_language (locale : String) : '-' ∉ (language locale).toList := by
  rw [language, String.toList_ofList]
  intro member
  have passes := List.mem_takeWhile_imp member
  contradiction

/-- What is cut off begins at the first separator of either kind, unless a hyphen stands in front of the first
underscore. -/
theorem baseLocale?_eq_language (regional : '_' ∈ locale.toList ∨ '-' ∈ locale.toList)
    (ordinary : ¬HyphenFirst locale) : baseLocale? locale = some (language locale) := by
  by_cases underscore : '_' ∈ locale.toList
  · obtain ⟨front, back, split, first⟩ := List.eq_append_cons_of_mem underscore
    have noHyphen : '-' ∉ front := fun hyphen => ordinary ⟨front, back, split, first, hyphen⟩
    rw [baseLocale?_underscore split first, language_of_split split (.inl rfl) first noHyphen]
  · obtain ⟨front, back, split, first⟩ := List.eq_append_cons_of_mem (regional.resolve_left underscore)
    have noUnderscore : '_' ∉ front := fun member => underscore (split ▸ List.mem_append_left _ member)
    rw [baseLocale?_hyphen split first underscore, language_of_split split (.inr rfl) noUnderscore first]

end Separators

section Answers

variable (steps : List (Step φ)) {locale base : String} (key domain : String)

theorem translate_of_baseLocale? (cut : baseLocale? locale = some base) :
    (ofSteps steps).translate key locale domain =
      (stored? steps key locale domain).or (stored? steps key base domain) := by
  have found (locale : String) : (ofSteps steps).find? key locale domain = stored? steps key locale domain := by
    rw [ofSteps, find?_foldl _ _ rfl]
    exact Option.or_none
  rw [translate, found, cut, Option.bind_some, found]
  cases stored? steps key locale domain <;> rfl

/-- What has been added for one locale only is stored for no other. -/
theorem stored?_of_single {locale other : String} (apart : locale ≠ other) (entries : Entries φ) :
    stored? [.add locale domain entries] key other domain = none := by
  rw [stored?, added, if_neg fun same => apart same.1.1]
  rfl

end Answers

/-- Translating in a regional locale, whatever has been added. The text for just that locale comes first; without one,
it is the text for what stands before the first underscore, or, in a locale that has none, before the first
hyphen. This is the language of the locale, in every catalog, just if no hyphen is in front of the first
underscore. -/
theorem ofSteps_regional {locale : String} (regional : '_' ∈ locale.toList ∨ '-' ∈ locale.toList) :
    (∀ front back, locale.toList = front ++ '_' :: back → '_' ∉ front →
      ∀ (steps : List (Step φ)) key domain, (ofSteps steps).translate key locale domain =
        (stored? steps key locale domain).or (stored? steps key (String.ofList front) domain)) ∧
    (∀ front back, locale.toList = front ++ '-' :: back → '-' ∉ front → '_' ∉ locale.toList →
      ∀ (steps : List (Step φ)) key domain, (ofSteps steps).translate key locale domain =
        (stored? steps key locale domain).or (stored? steps key (String.ofList front) domain)) ∧
    ((∀ (steps : List (Step φ)) key domain, (ofSteps steps).translate key locale domain =
        (stored? steps key locale domain).or (stored? steps key (language locale) domain)) ↔
      ¬HyphenFirst locale) := by
  refine ⟨fun front back split first steps key domain => ?_, fun front back split first none steps key domain => ?_,
    fun agrees => ?_, fun ordinary steps key domain => ?_⟩
  · exact translate_of_baseLocale? steps key domain (baseLocale?_underscore split first)
  · exact translate_of_baseLocale? steps key domain (baseLocale?_hyphen split first none)
  · rintro ⟨front, back, split, first, hyphen⟩
    -- A text for the language alone is not found: neither the locale nor what is looked up next is the language.
    have whole : language locale ≠ locale := by
      intro same
      refine hyphen_not_mem_language locale ?_
      rw [same, split]
      exact List.mem_append_left _ hyphen
    have cut : language locale ≠ String.ofList front := by
      intro same
      refine hyphen_not_mem_language locale ?_
      rwa [same, String.toList_ofList]
    let steps : List (Step φ) := [.add (language locale) "messages" [(.str "key", .str "text")]]
    have there : stored? steps "key" (language locale) "messages" = some "text" := by
      rw [stored?, added, if_pos ⟨⟨rfl, rfl⟩, rfl⟩]
      rfl
    have missed := translate_of_baseLocale? steps "key" "messages" (baseLocale?_underscore split first)
    rw [agrees, stored?_of_single _ _ whole, stored?_of_single _ _ cut, there] at missed
    cases missed
  · exact translate_of_baseLocale? steps key domain (baseLocale?_eq_language regional ordinary)

/-- A catalog with texts for a language, for the language in one script, and for a region. -/
def scripts : List (Step Builtin) :=
  [.add "zh" "messages" [(.str "Hello", .str "Ni hao"), (.str "Bye", .str "Zaijian")],
    .add "zh-Hant" "messages" [(.str "Bye", .str "Zoigin")], .add "zh-Hant_TW" "errors" [(.str "Hello", .null)]]

theorem ofSteps_regional_of_script :
    ('_' ∈ "zh-Hant_TW".toList ∨ '-' ∈ "zh-Hant_TW".toList) ∧
      (ofSteps scripts).translate "Bye" "zh-Hant_TW" "messages" = some "Zoigin" := by
  have regional : '_' ∈ "zh-Hant_TW".toList ∨ '-' ∈ "zh-Hant_TW".toList := by decide
  obtain ⟨underscored, -, -⟩ := ofSteps_regional (φ := Builtin) regional
  have inScript := underscored "zh-Hant".toList "TW".toList (by decide) (by decide) scripts "Bye" "messages"
  exact ⟨regional, inScript.trans (by decide +kernel)⟩

/-- A hyphen in front of the first underscore: the text for the language is there, and it is not found. -/
theorem ofSteps_regional_apart :
    language "zh-Hant_TW" = "zh" ∧ stored? scripts "Hello" "zh-Hant_TW" "messages" = none ∧
      stored? scripts "Hello" "zh" "messages" = some "Ni hao" ∧
      (ofSteps scripts).translate "Hello" "zh-Hant_TW" "messages" = none := by
  decide +kernel

end Stencil.Catalog
