import DesignMarkup.LayerName
import DesignMarkup.Proofs.Tag.Properties
import Mathlib.Data.List.TakeWhile

/-!
Layer names.  A name is read as the text before its first slash and the text after it, each trimmed,
so that blanks around either of them make no difference; and what a name tells is clean, so that
nothing of it is lost when it is given to an element.
-/

namespace DesignMarkup.LayerName

/-- The name with a category, and with a variant after a slash if there is one. -/
def spell (category : String) : Option String → String
  | none => category
  | some variant => category ++ "/" ++ variant

/-- The text before the first slash of a name. -/
def beforeSlash (name : String) : String :=
  String.ofList (name.toList.takeWhile (· ≠ '/'))

/-- The text after the first slash of a name. -/
def afterSlash? (name : String) : Option String :=
  if '/' ∈ name.toList then some (String.ofList ((name.toList.dropWhile (· ≠ '/')).drop 1))
  else none

theorem toList_spell_some (category variant : String) :
    (spell category (some variant)).toList = category.toList ++ '/' :: variant.toList := by
  simp [spell]

/-- Every name is spelled in one way with a category that has no slash. -/
theorem exists_spell_eq (name : String) :
    ∃ category variant, '/' ∉ category.toList ∧ spell category variant = name := by
  by_cases hslash : '/' ∈ name.toList
  · obtain ⟨front, rest, hchars, hfront⟩ := List.eq_append_cons_of_mem hslash
    refine ⟨String.ofList front, some (String.ofList rest), by simpa using hfront, ?_⟩
    apply String.toList_injective
    rw [toList_spell_some, String.toList_ofList, String.toList_ofList, hchars]
  · exact ⟨name, none, hslash, rfl⟩

section Spell

variable {category : String} (h : '/' ∉ category.toList) (variant : Option String)
include h

theorem beforeSlash_spell : beforeSlash (spell category variant) = category := by
  have hall : ∀ c ∈ category.toList, decide (c ≠ '/') = true := fun c hc =>
    decide_eq_true (ne_of_mem_of_not_mem hc h)
  cases variant with
  | none => rw [spell, beforeSlash, List.takeWhile_eq_self_iff.mpr hall, String.ofList_toList]
  | some variant =>
      rw [beforeSlash, toList_spell_some, List.takeWhile_append_of_pos hall]
      simp

theorem afterSlash?_spell : afterSlash? (spell category variant) = variant := by
  have hall : ∀ c ∈ category.toList, decide (c ≠ '/') = true := fun c hc =>
    decide_eq_true (ne_of_mem_of_not_mem hc h)
  cases variant with
  | none => rw [spell, afterSlash?, if_neg h]
  | some variant =>
      rw [afterSlash?, toList_spell_some, List.dropWhile_append_of_pos hall]
      simp

end Spell

theorem slash_not_mem_beforeSlash (name : String) : '/' ∉ (beforeSlash name).toList := by
  obtain ⟨category, variant, hslash, rfl⟩ := exists_spell_eq name
  rwa [beforeSlash_spell hslash]

/-- The two texts and the slash between them make up the name. -/
theorem spell_beforeSlash (name : String) : spell (beforeSlash name) (afterSlash? name) = name := by
  obtain ⟨category, variant, hslash, rfl⟩ := exists_spell_eq name
  rw [beforeSlash_spell hslash, afterSlash?_spell hslash]

theorem splitSlash_of_not_mem {cs : List Char} (h : '/' ∉ cs) : splitSlash cs = (cs, none) := by
  induction cs with
  | nil => rfl
  | cons c rest ih =>
      rw [List.mem_cons, not_or] at h
      rw [splitSlash, if_neg (Ne.symm h.1), ih h.2]

theorem splitSlash_append {front : List Char} (h : '/' ∉ front) (rest : List Char) :
    splitSlash (front ++ '/' :: rest) = (front, some rest) := by
  induction front with
  | nil => rfl
  | cons c cs ih =>
      rw [List.mem_cons, not_or] at h
      rw [List.cons_append, splitSlash, if_neg (Ne.symm h.1), ih h.2]

theorem splitSlash_spell {category : String} (h : '/' ∉ category.toList)
    (variant : Option String) :
    splitSlash (spell category variant).toList =
      (category.toList, variant.map String.toList) := by
  cases variant with
  | none => exact splitSlash_of_not_mem h
  | some variant => rw [toList_spell_some, splitSlash_append h, Option.map_some]

theorem isEmpty_trimChars (s : String) :
    (Text.trimChars s.toList).isEmpty = Text.isBlankText s := by
  rw [Bool.eq_iff_iff, List.isEmpty_iff, Text.trimChars_eq_nil_iff, Text.isBlankText,
    List.all_eq_true]

/-- What is read from a category and a variant. -/
theorem parse?_spell {category : String} (h : '/' ∉ category.toList) (variant : Option String) :
    parse? (spell category variant) =
      if Text.isBlankText category then none
      else some ⟨Text.trim category, (variant.map Text.trim).filter (· ≠ "")⟩ := by
  have hvariant : (((variant.map String.toList).map Text.trimChars).filter
      fun cs => !cs.isEmpty).map String.ofList = (variant.map Text.trim).filter (· ≠ "") := by
    cases variant with
    | none => rfl
    | some variant =>
        have hblank := Text.isBlankText_iff_trim_eq_empty variant
        cases hempty : Text.isBlankText variant <;>
          simp_all [Option.filter_some, isEmpty_trimChars, Text.trim]
  rw [parse?, splitSlash_spell h, ← hvariant, Text.trim, ← isEmpty_trimChars]

theorem parse?_eq (name : String) :
    parse? name =
      if Text.isBlankText (beforeSlash name) then none
      else some ⟨Text.trim (beforeSlash name),
        ((afterSlash? name).map Text.trim).filter (· ≠ "")⟩ := by
  rw [← parse?_spell (slash_not_mem_beforeSlash name), spell_beforeSlash]

/-- What is read does not depend on blanks around the category and the variant. -/
theorem parse?_spell_around {category : String} (h : '/' ∉ category.toList)
    (variant : Option String) (left right : Text.Padding) :
    parse? (spell (left.around category) (variant.map right.around)) =
      parse? (spell category variant) := by
  have haround := left.not_mem_around (by decide) h
  rw [parse?_spell haround, parse?_spell h, left.isBlankText_around, left.trim_around,
    Option.map_map]
  simp only [Function.comp_def, Text.Padding.trim_around]

/-- What is told by a name depends only on what is read from it. -/
theorem infer?_congr {name other : String} (h : parse? name = parse? other) :
    infer? name = infer? other := by
  rw [infer?, infer?, h]

/-- A layer name whose parts are trimmed, with no slash in its category. -/
structure IsTrimmed (parsed : LayerName) : Prop where
  category_tight : Text.IsTight parsed.category
  slash_not_mem : '/' ∉ parsed.category.toList
  variant_tight : ∀ variant ∈ parsed.variant, Text.IsTight variant

theorem IsTrimmed.parse?_spell {parsed : LayerName} (h : parsed.IsTrimmed) :
    parse? (spell parsed.category parsed.variant) = some parsed := by
  obtain ⟨category, variant⟩ := parsed
  obtain ⟨hcategory, hslash, hvariant⟩ := h
  obtain ⟨hblank, htrim⟩ := Text.isTight_iff.mp hcategory
  rw [LayerName.parse?_spell hslash, hblank, htrim]
  cases variant with
  | none => rfl
  | some variant =>
      have htight := hvariant variant rfl
      simp [htight.trim_eq, htight.ne_empty]

theorem isTrimmed_of_parse? {name : String} {parsed : LayerName} (h : parse? name = some parsed) :
    parsed.IsTrimmed := by
  rw [parse?_eq] at h
  split at h
  · cases h
  · rename_i hblank
    rw [← Option.some.inj h]
    constructor
    case category_tight => exact Text.isTight_trim (by simpa using hblank)
    case slash_not_mem =>
      exact fun hmem => slash_not_mem_beforeSlash name (Text.mem_of_mem_trim hmem)
    case variant_tight =>
      intro variant hvariant
      obtain ⟨hsome, hne⟩ := Option.filter_eq_some_iff.mp hvariant
      obtain ⟨source, -, rfl⟩ := Option.map_eq_some_iff.mp hsome
      apply Text.isTight_trim
      rw [← Bool.not_eq_true, Text.isBlankText_iff_trim_eq_empty]
      simpa using hne

section Suggestions

open Properties (IsTightEntry)

variable (category tag : String) (variant : Option String)

/-- No attribute is suggested twice. -/
theorem nodup_keys_suggestions : ((suggestions category tag variant).map Prod.fst).Nodup := by
  rw [suggestions.eq_def]
  split
  · split
    · split <;> simp
    · simp
  · split
    · split <;> cases variant <;> simp [dataVariant]
    · split <;> cases variant <;> simp [dataVariant]

/-- The variant is one of the values suggested. -/
theorem variant_mem_suggestions (variant : String) :
    ("type", variant) ∈ suggestions category tag (some variant) ∨
      ("data-variant", variant) ∈ suggestions category tag (some variant) := by
  rw [suggestions.eq_def]
  split
  · by_cases htype : variant ∈ buttonTypes <;> simp [htype]
  · split
    · split <;> simp [dataVariant]
    · split <;> simp [dataVariant]

variable {category variant}

/-- Whatever is suggested has no blanks at its ends. -/
theorem isTightEntry_of_mem_suggestions (hcategory : Text.IsTight category)
    (hvariant : ∀ text ∈ variant, Text.IsTight text) :
    ∀ entry ∈ suggestions category tag variant, IsTightEntry entry := by
  have hfixed : ∀ text ∈ ["type", "button", "data-variant", "text", "required", "true", "target",
      "_blank"], Text.IsTight text := by
    intro text htext
    rw [Text.isTight_iff]
    revert text
    decide
  simp only [List.forall_mem_cons] at hfixed
  obtain ⟨htype, hbutton, hdata, htext, hrequired, htrue, htarget, hblank, -⟩ := hfixed
  have hdataVariant : ∀ entry ∈ dataVariant variant, IsTightEntry entry := by
    simpa [dataVariant, IsTightEntry, hdata] using hvariant
  rw [suggestions.eq_def]
  split
  · split
    · split <;> simp_all [IsTightEntry]
    · simp [IsTightEntry, htype, hbutton]
  · split
    · split
      · exact List.forall_mem_cons.mpr ⟨⟨htype, hcategory⟩, hdataVariant⟩
      · cases variant <;> simp_all [IsTightEntry]
    · split
      · exact List.forall_mem_cons.mpr ⟨⟨htarget, hblank⟩, hdataVariant⟩
      · exact hdataVariant

end Suggestions

theorem entries_suggestedProperties (category tag : String) (variant : Option String) :
    (suggestedProperties category tag variant).entries = suggestions category tag variant :=
  OrderedMap.entries_ofList (nodup_keys_suggestions category tag variant)

section Inference

variable {name : String} {inference : Inference}

theorem infer?_eq_some_iff :
    infer? name = some inference ↔ ∃ parsed tag, parse? name = some parsed ∧
      tag? parsed.category = some tag ∧
      inference = ⟨tag, suggestedProperties parsed.category tag parsed.variant⟩ := by
  simp only [infer?, Option.bind_eq_bind, Option.bind_eq_some_iff, Option.pure_def,
    Option.some.injEq]
  constructor
  · rintro ⟨parsed, hparsed, tag, htag, rfl⟩
    exact ⟨parsed, tag, hparsed, htag, rfl⟩
  · rintro ⟨parsed, tag, hparsed, htag, rfl⟩
    exact ⟨parsed, hparsed, tag, htag, rfl⟩

/-- Cleaning takes nothing away from what a name tells. -/
theorem clean_of_infer? (h : infer? name = some inference) :
    inference.properties.clean = inference.properties := by
  obtain ⟨parsed, tag, hparsed, -, rfl⟩ := infer?_eq_some_iff.mp h
  have htrimmed := isTrimmed_of_parse? hparsed
  apply Properties.clean_eq_self
  rw [entries_suggestedProperties]
  exact isTightEntry_of_mem_suggestions tag htrimmed.category_tight htrimmed.variant_tight

/-- The variant of a name is told as a type or as data. -/
theorem variant_of_infer? (h : infer? name = some inference) {parsed : LayerName}
    (hparsed : parse? name = some parsed) {variant : String}
    (hvariant : parsed.variant = some variant) :
    inference.properties.find? "type" = some variant ∨
      inference.properties.find? "data-variant" = some variant := by
  obtain ⟨found, tag, hfound, -, rfl⟩ := infer?_eq_some_iff.mp h
  obtain rfl : parsed = found := Option.some.inj (hparsed.symm.trans hfound)
  rw [← OrderedMap.mem_entries_iff, ← OrderedMap.mem_entries_iff, entries_suggestedProperties,
    hvariant]
  exact variant_mem_suggestions parsed.category tag variant

end Inference

/-- How a name is read, told by the texts before and after its first slash. -/
structure ReadsParts (name : String) : Prop where
  /-- The two texts make up the name, and no slash comes before the first one. -/
  spelled : spell (beforeSlash name) (afterSlash? name) = name ∧
    '/' ∉ (beforeSlash name).toList
  none_iff : parse? name = none ↔ Text.isBlankText (beforeSlash name) = true
  parts : ∀ parsed, parse? name = some parsed →
    parsed.category = Text.trim (beforeSlash name) ∧ '/' ∉ parsed.category.toList ∧
      parsed.variant = ((afterSlash? name).map Text.trim).filter (· ≠ "")
  /-- Blanks that are put around the texts are not told apart from none. -/
  around : ∀ left right : Text.Padding,
    let padded := spell (left.around (beforeSlash name)) ((afterSlash? name).map right.around)
    parse? padded = parse? name ∧ infer? padded = infer? name
  /-- What was read is read again from its own parts, with blanks around them or without. -/
  again : ∀ parsed, parse? name = some parsed → ∀ left right : Text.Padding,
    let respelled := spell (left.around parsed.category) (parsed.variant.map right.around)
    parse? respelled = some parsed ∧ infer? respelled = infer? name ∧
      parse? (left.around parsed.category) = some ⟨parsed.category, none⟩

theorem readsParts (name : String) : ReadsParts name := by
  have hslash := slash_not_mem_beforeSlash name
  have hread := parse?_eq name
  constructor
  case spelled => exact ⟨spell_beforeSlash name, hslash⟩
  case none_iff =>
    rw [hread]
    split <;> simp_all
  case parts =>
    intro parsed hparsed
    have htrimmed := isTrimmed_of_parse? hparsed
    rw [hread] at hparsed
    split at hparsed
    · cases hparsed
    · rw [← Option.some.inj hparsed] at htrimmed ⊢
      exact ⟨rfl, htrimmed.slash_not_mem, rfl⟩
  case around =>
    intro left right padded
    have hpadded : parse? padded = parse? name := by
      rw [parse?_spell_around hslash, spell_beforeSlash]
    exact ⟨hpadded, infer?_congr hpadded⟩
  case again =>
    intro parsed hparsed left right respelled
    have htrimmed := isTrimmed_of_parse? hparsed
    have hagain : parse? respelled = some parsed := by
      rw [parse?_spell_around htrimmed.slash_not_mem, htrimmed.parse?_spell]
    have hcategory : (⟨parsed.category, none⟩ : LayerName).IsTrimmed :=
      ⟨htrimmed.category_tight, htrimmed.slash_not_mem, by simp⟩
    have halone := parse?_spell_around htrimmed.slash_not_mem none left right
    exact ⟨hagain, infer?_congr (hagain.trans hparsed.symm), halone.trans hcategory.parse?_spell⟩

example : parse? " nav / main /top " = some ⟨"nav", some "main /top"⟩ := by
  decide

/-- Nothing of what a name tells is lost: it is clean, and the variant is in it. -/
structure TellsWhole (name : String) : Prop where
  clean_eq : ∀ inference, infer? name = some inference →
    inference.properties.clean = inference.properties
  variant : ∀ inference parsed variant, infer? name = some inference →
    parse? name = some parsed → parsed.variant = some variant →
      inference.properties.find? "type" = some variant ∨
        inference.properties.find? "data-variant" = some variant

theorem tellsWhole (name : String) : TellsWhole name where
  clean_eq _ := clean_of_infer?
  variant _ _ _ hinfer hparsed hvariant := variant_of_infer? hinfer hparsed hvariant

end DesignMarkup.LayerName
