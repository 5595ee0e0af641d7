import DesignMarkup.Proofs.Markup.Cursor
import DesignMarkup.Proofs.Markup.StyleSheet

/-!
Selectors without escapes.  A class is written into its selector as it is, and a browser keeps the
rule only if the class is an identifier as it stands.  All characters of a class are allowed in one,
whatever a node is called.  What a class begins with depends on the name of its node, and a class
that begins with a digit spoils its rule.
-/

namespace DesignMarkup.StyledNode

/-- A class that is an identifier of a style sheet as it stands. -/
structure IsIdentifier (className : String) : Prop extends IsClassName className where
  not_digit : ∀ c rest, className.toList = c :: rest → c.isDigit = false
  not_hyphen_digit : ∀ c rest, className.toList = '-' :: c :: rest → c.isDigit = false

/-- The first ASCII letter or digit of a name is a digit. -/
def isDigitLed (name : String) : Bool :=
  (name.toList.find? Text.isSlugChar).any Char.isDigit

/-- A number after a name leaves its beginning as it is. -/
theorem head?_numbered {base : String} (h : base ≠ "") (n : Nat) :
    (numbered base n).toList.head? = base.toList.head? := by
  obtain ⟨c, rest, hchars⟩ := List.exists_cons_of_ne_nil (mt String.toList_eq_nil_iff.mp h)
  simp [numbered, hchars]

theorem head?_uniqueName {base : String} (h : base ≠ "") (taken : List String) :
    (uniqueName base taken).toList.head? = base.toList.head? := by
  rw [uniqueName]
  split
  · obtain ⟨n, heq, -⟩ := exists_firstFree_eq base taken taken.length 2
    rw [heq, head?_numbered h]
  · rfl

/-- A tag begins with a letter. -/
theorem find?_of_isTag {tag : String} (h : Markup.isTag tag = true) :
    ∃ c, tag.toList.find? Text.isSlugChar = some c ∧ c.isAlpha = true := by
  obtain ⟨first, rest, heq, halpha, -⟩ := (Markup.isTag_iff tag).mp h
  have hslug : Text.isSlugChar first = true := by
    simp [Text.isSlugChar, Char.isAlphanum, halpha]
  rw [heq]
  exact ⟨first, List.find?_cons_of_pos hslug, halpha⟩

/-- The base of a class begins with the first letter or digit of the name, or else of the tag. -/
theorem head?_baseName (name : String) {tag : String} (h : Markup.isTag tag = true) :
    (baseName name tag).toList.head? =
      ((name.toList ++ tag.toList).find? Text.isSlugChar).map Char.toLower := by
  obtain ⟨c, hc, -⟩ := find?_of_isTag h
  have htag : Text.slug tag ≠ "" := by
    intro hempty
    rw [Text.slug_eq_empty_iff, hc] at hempty
    cases hempty
  rw [List.find?_append]
  by_cases hname : Text.slug name = ""
  · rw [baseName, if_neg (not_not_intro hname), if_pos htag, Text.head?_slug,
      (Text.slug_eq_empty_iff name).mp hname, Option.none_or]
  · obtain ⟨first, hfirst⟩ := Option.ne_none_iff_exists'.mp
      (mt (Text.slug_eq_empty_iff name).mpr hname)
    rw [baseName, if_pos hname, Text.head?_slug, hfirst, Option.some_or]

/-- Then its first character is a digit exactly if that of the name is, and never a hyphen. -/
theorem exists_head?_baseName (name : String) {tag : String} (h : Markup.isTag tag = true) :
    ∃ c, (baseName name tag).toList.head? = some c ∧ c ≠ '-' ∧ c.isDigit = isDigitLed name := by
  obtain ⟨letter, hletter, halpha⟩ := find?_of_isTag h
  rw [head?_baseName name h, List.find?_append, isDigitLed]
  cases hname : name.toList.find? Text.isSlugChar with
  | none =>
      have hslug := List.find?_some hletter
      rw [hletter, Option.none_or]
      refine ⟨letter.toLower, rfl, Text.toLower_ne_hyphen hslug, ?_⟩
      rw [Text.isDigit_toLower hslug, Text.isDigit_of_isAlpha halpha]
      rfl
  | some c =>
      have hslug := List.find?_some hname
      exact ⟨c.toLower, rfl, Text.toLower_ne_hyphen hslug, Text.isDigit_toLower hslug⟩

section Named

variable (name : String) {tag : String} (h : Markup.isTag tag = true) (taken : List String)
include h

theorem exists_head?_uniqueName :
    ∃ c, (uniqueName (baseName name tag) taken).toList.head? = some c ∧ c ≠ '-' ∧
      c.isDigit = isDigitLed name := by
  rw [head?_uniqueName (isClassName_baseName name tag).ne_empty]
  exact exists_head?_baseName name h

/-- The name of a node decides whether its class is an identifier as it stands. -/
theorem isIdentifier_uniqueName_iff :
    IsIdentifier (uniqueName (baseName name tag) taken) ↔ isDigitLed name = false := by
  obtain ⟨c, hhead, hhyphen, hdigit⟩ := exists_head?_uniqueName name h taken
  obtain ⟨rest, hchars⟩ := List.head?_eq_some_iff.mp hhead
  rw [← hdigit]
  constructor
  · intro hidentifier
    exact hidentifier.not_digit c rest hchars
  · intro hletter
    refine ⟨isClassName_uniqueName (isClassName_baseName name tag) taken, ?_, ?_⟩
    · intro first others heq
      rw [hchars] at heq
      rw [← (List.cons.inj heq).1]
      exact hletter
    · intro first others heq
      rw [hchars] at heq
      exact absurd (List.cons.inj heq).1 hhyphen

end Named

/-- A node is named for a placed one: if it has a class, that one has a tag, and the class is a name
for its base. -/
def NamedFor (node : StyledNode) (place : MarkupNode × Bool) : Prop :=
  ∀ className, node.className = some className → Markup.isTag place.1.tag = true ∧
    ∃ taken, className = uniqueName (baseName place.1.elementName place.1.tag) taken

theorem relatesOwn_namedFor : RelatesOwn NamedFor where
  unwritten := by
    intro node children className hclass
    cases hclass
  own := by
    intro taken node children className hclass
    obtain ⟨htag, heq⟩ := eq_uniqueName_of_classFor? hclass
    exact ⟨htag, taken, heq⟩

end DesignMarkup.StyledNode

namespace DesignMarkup

namespace MarkupNode

open StyledNode (IsIdentifier IsClassName isDigitLed uniqueName baseName)

variable (nodes : List MarkupNode)

/-- The classes that are listed for the nodes are those of the nodes in their places. -/
theorem map_className_places :
    (places nodes).map Place.className = (nameClassesOfList [] nodes).2 := by
  rw [places_eq, StyledNode.map_className_placesBy (StyledNode.standsFor_ofNodes nodes),
    nameClassesOfList_eq]
  rfl

/-- The class of a node is a name for its base. -/
theorem exists_eq_uniqueName_places : ∀ place ∈ places nodes, ∀ className,
    place.className = some className → Markup.isTag place.node.tag = true ∧
      ∃ taken, className = uniqueName (baseName place.node.elementName place.node.tag) taken :=
  StyledNode.forall_placesBy (StyledNode.relatesOwn_namedFor.assignList [] nodes)
    fun _ _ hnamed => hnamed

variable {nodes}

theorem head?_ne_hyphen_of_mem_places {place : Place} (hplace : place ∈ places nodes)
    {className : String} (hclass : place.className = some className) :
    className.toList.head? ≠ some '-' := by
  obtain ⟨htag, taken, rfl⟩ := exists_eq_uniqueName_places nodes place hplace className hclass
  obtain ⟨c, hhead, hhyphen, -⟩ := StyledNode.exists_head?_uniqueName _ htag taken
  rw [hhead]
  exact fun heq => hhyphen (Option.some.inj heq)

theorem isIdentifier_iff_of_mem_places {place : Place} (hplace : place ∈ places nodes)
    {className : String} (hclass : place.className = some className) :
    IsIdentifier className ↔ isDigitLed place.node.elementName = false := by
  obtain ⟨htag, taken, rfl⟩ := exists_eq_uniqueName_places nodes place hplace className hclass
  exact StyledNode.isIdentifier_uniqueName_iff _ htag taken

/-- All rules are for identifiers exactly if the names of the nodes that have rules let them. -/
theorem forall_isIdentifier_rules_iff :
    (∀ rule ∈ rules nodes, IsIdentifier rule.className) ↔
      ∀ place ∈ places nodes, place.isWritten = true →
        Markup.declarations place.node.styles ≠ [] →
          isDigitLed place.node.elementName = false := by
  constructor
  · intro hrules place hplace hwritten hdeclares
    have hsome := (isSome_className_places nodes place hplace).mpr ⟨hwritten, hdeclares⟩
    obtain ⟨className, hclass⟩ := Option.isSome_iff_exists.mp hsome
    rw [← isIdentifier_iff_of_mem_places hplace hclass]
    exact hrules ⟨className, _⟩ (mem_rules_iff.mpr ⟨place, hplace, hclass, rfl⟩)
  · intro hnames rule hrule
    obtain ⟨place, hplace, hclass, -⟩ := mem_rules_iff.mp hrule
    have hsome := (isSome_className_places nodes place hplace).mp (Option.isSome_of_eq_some hclass)
    rw [isIdentifier_iff_of_mem_places hplace hclass]
    exact hnames place hplace hsome.1 hsome.2

end MarkupNode

namespace GeneratedCode

open MarkupNode (places rules)

/-- What the selectors of a style sheet are, read from its text. -/
structure SelectorsByName (nodes : List MarkupNode) : Prop where
  /-- The classes in the places are those that are given to the nodes, one after the other. -/
  classes : (places nodes).map Place.className = (MarkupNode.nameClassesOfList [] nodes).2
  /-- The rules that the text holds are for these classes. -/
  read : (StyleRule.read? (ofNodes nodes).css).map (List.map StyleRule.className) =
    some ((places nodes).filterMap Place.className)
  /-- Whatever the nodes are called, no class is empty, and none holds another character or begins
  with a hyphen. -/
  characters : ∀ place ∈ places nodes, ∀ className, place.className = some className →
    StyledNode.IsClassName className ∧ className.toList.head? ≠ some '-'
  /-- A class is an identifier exactly if the name of its node does not begin with a digit, once
  all but its ASCII letters and digits are left out. -/
  identifier_iff : ∀ place ∈ places nodes, ∀ className, place.className = some className →
    (StyledNode.IsIdentifier className ↔
      StyledNode.isDigitLed place.node.elementName = false)
  /-- So a browser keeps all rules exactly if this holds of every node that has one. -/
  all_iff : (∀ rule ∈ rules nodes, StyledNode.IsIdentifier rule.className) ↔
    ∀ place ∈ places nodes, place.isWritten = true →
      Markup.declarations place.node.styles ≠ [] →
        StyledNode.isDigitLed place.node.elementName = false

/-- The names of the nodes decide which selectors are valid. -/
theorem selectors_by_name (nodes : List MarkupNode) : SelectorsByName nodes := by
  constructor
  case classes => exact MarkupNode.map_className_places nodes
  case read =>
    rw [read?_css, Option.map_some, rules, Place.map_className_filterMap_rule?]
  case characters =>
    intro place hplace className hclass
    exact ⟨MarkupNode.isClassName_places nodes place hplace className hclass,
      MarkupNode.head?_ne_hyphen_of_mem_places hplace hclass⟩
  case identifier_iff =>
    intro place hplace className hclass
    exact MarkupNode.isIdentifier_iff_of_mem_places hplace hclass
  case all_iff => exact MarkupNode.forall_isIdentifier_rules_iff

/-- The page for what is not found, named by its number. -/
def notFoundPage : MarkupNode where
  tag := "section"
  elementName := "404"
  styles := .ofList [("color", "red")]

/-- The rule for the page is for a class that begins with a digit. -/
theorem not_isIdentifier_notFoundPage :
    ¬ ∀ rule ∈ rules [notFoundPage], StyledNode.IsIdentifier rule.className := by
  intro hall
  have hrule : (⟨"404", [("color", "red")]⟩ : StyleRule) ∈ rules [notFoundPage] := by
    decide +kernel
  have hdigit := (hall _ hrule).not_digit '4' ['0', '4'] (by decide)
  exact absurd hdigit (by decide)

end GeneratedCode
end DesignMarkup
