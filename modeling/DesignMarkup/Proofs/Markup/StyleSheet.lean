import DesignMarkup.Proofs.Markup.Classes
import DesignMarkup.Proofs.Markup.Declarations
import DesignMarkup.Proofs.Markup.StyleReader

/-!
What a style sheet says.  The characters that end a declaration or a rule are kept out of every
property and value, so a reader that looks for these characters alone finds the rules that the
nodes asked for, and finds under each class what its own node declares.
-/

namespace DesignMarkup.Markup

theorem isKeyBreak_of_isSlugText {c : Char} (h : Text.isSlugText c = true) :
    isKeyBreak c = false :=
  Text.forall_ascii (p := fun c => Text.isSlugText c = true → isKeyBreak c = false) (by decide)
    (Text.toNat_lt_of_isSlugText h) h

/-- Hyphenating a character brings in hyphens and lower-case letters only. -/
theorem isKeyBreak_of_mem_hyphenate {c : Char} (h : isKeyBreak c = false) :
    ∀ d ∈ hyphenate c, isKeyBreak d = false := by
  rw [hyphenate]
  split
  · rename_i hupper
    have halpha : c.isAlpha = true := Bool.or_eq_true_iff.mpr (.inl hupper)
    have hslug : Text.isSlugChar c = true := by
      simp [Text.isSlugChar, Char.isAlphanum, halpha]
    have hlower := isKeyBreak_of_isSlugText (Text.isSlugText_toLower hslug)
    have hhyphen : isKeyBreak '-' = false := by decide
    simp [hhyphen, hlower]
  · simpa using h

/-- The properties of the schema end no declaration. -/
theorem isKeyBreak_of_mem_properties : ∀ entry ∈ Style.properties, ∀ c ∈ entry.2.toList,
    isKeyBreak c = false := by
  have hall : (Style.properties.all fun entry =>
      entry.2.toList.all fun c => !isKeyBreak c) = true := by
    decide +kernel
  simpa using hall

/-- The property of a key that can be declared ends no declaration. -/
theorem isKeyBreak_of_mem_cssProperty {key : String}
    (h : ∀ c ∈ key.toList, isKeyBreak c = false) :
    ∀ c ∈ (cssProperty key).toList, isKeyBreak c = false := by
  rw [cssProperty]
  split
  · rename_i property hproperty
    rw [Style.property?, ← OrderedMap.lookup_eq] at hproperty
    exact isKeyBreak_of_mem_properties _ (OrderedMap.mem_of_lookup hproperty)
  · have hwords : ∀ c ∈ key.toList.flatMap hyphenate, isKeyBreak c = false := by
      intro c hc
      obtain ⟨source, hsource, hc⟩ := List.mem_flatMap.mp hc
      exact isKeyBreak_of_mem_hyphenate (h source hsource) c hc
    simp only [String.toList_ofList]
    split
    · exact List.forall_mem_cons.mpr ⟨by decide, hwords⟩
    · exact hwords

/-- A style that is kept has neither a key nor a value that could end its declaration. -/
theorem not_break_of_mem_declarable {styles : OrderedMap String String} {style : String × String}
    (h : style ∈ declarable styles) :
    (∀ c ∈ style.1.toList, isKeyBreak c = false) ∧
      ∀ c ∈ style.2.toList, isValueBreak c = false := by
  obtain ⟨source, -, hkept⟩ := List.mem_filterMap.mp h
  rw [declarable?] at hkept
  split at hkept
  · cases hkept
  · rename_i hsafe
    rw [Option.some.injEq] at hkept
    simp only [not_or, Bool.not_eq_true, List.any_eq_false] at hsafe
    rw [← hkept]
    exact ⟨hsafe.2.2, hsafe.2.1⟩

/-- Every declaration is that of a style that is kept, under the property of its key. -/
theorem exists_style_of_mem_declarations {styles : OrderedMap String String}
    {declaration : String × String} (h : declaration ∈ declarations styles) :
    ∃ style ∈ declarable styles, declaration = (cssProperty style.1, style.2) := by
  rcases List.mem_append.mp h with hknown | hother
  · obtain ⟨⟨key, property⟩, hentry, hvalue⟩ := List.mem_filterMap.mp hknown
    obtain ⟨value, hlookup, rfl⟩ := Option.map_eq_some_iff.mp hvalue
    rw [← OrderedMap.lookup_eq] at hlookup
    refine ⟨(key, value), OrderedMap.mem_of_lookup hlookup, ?_⟩
    rw [cssProperty_of_mem_properties hentry]
  · obtain ⟨style, hstyle, rfl⟩ := List.mem_map.mp hother
    rw [List.mem_mergeSort] at hstyle
    exact ⟨style, List.mem_of_mem_filter hstyle, rfl⟩

/-- No declaration contains a character that ends it too early. -/
theorem not_break_of_mem_declarations {styles : OrderedMap String String}
    {declaration : String × String} (h : declaration ∈ declarations styles) :
    (∀ c ∈ declaration.1.toList, isKeyBreak c = false) ∧
      ∀ c ∈ declaration.2.toList, isValueBreak c = false := by
  obtain ⟨style, hstyle, rfl⟩ := exists_style_of_mem_declarations h
  have hsafe := not_break_of_mem_declarable hstyle
  exact ⟨isKeyBreak_of_mem_cssProperty hsafe.1, hsafe.2⟩

end DesignMarkup.Markup

namespace DesignMarkup

/-- A rule is confined when neither its class nor what it declares could open or close a rule, or
end a part of it too early. -/
structure StyleRule.IsConfined (rule : StyleRule) : Prop where
  class_ok : ∀ c ∈ rule.className.toList, Text.isSlugText c = true
  properties_ok : ∀ declaration ∈ rule.declarations, ∀ c ∈ declaration.1.toList,
    Markup.isKeyBreak c = false
  values_ok : ∀ declaration ∈ rule.declarations, ∀ c ∈ declaration.2.toList,
    Markup.isValueBreak c = false

theorem StyleRule.IsConfined.isReadable {rule : StyleRule} (h : rule.IsConfined) :
    rule.IsReadable := by
  constructor
  case class_ok =>
    rintro c hc rfl
    exact absurd (h.class_ok _ hc) (by decide)
  case properties_ok =>
    rintro declaration hdeclaration c hc rfl
    exact absurd (h.properties_ok declaration hdeclaration _ hc) (by decide)
  case values_ok =>
    rintro declaration hdeclaration c hc rfl
    exact absurd (h.values_ok declaration hdeclaration _ hc) (by decide)

namespace MarkupNode

/-- The rules that nodes ask for: one for each node with a class, parents first. -/
def rules (nodes : List MarkupNode) : List StyleRule :=
  (places nodes).filterMap Place.rule?

variable {nodes : List MarkupNode}

/-- A rule has the class of a node and declares what its styles do. -/
theorem mem_rules_iff {rule : StyleRule} :
    rule ∈ rules nodes ↔
      ∃ place ∈ places nodes, place.className = some rule.className ∧
        rule.declarations = Markup.declarations place.node.styles := by
  obtain ⟨className, declarations⟩ := rule
  simp only [rules, List.mem_filterMap, Place.rule?, Option.map_eq_some_iff, StyleRule.mk.injEq]
  constructor
  · rintro ⟨place, hplace, given, hgiven, rfl, rfl⟩
    exact ⟨place, hplace, hgiven, rfl⟩
  · rintro ⟨place, hplace, hgiven, rfl⟩
    exact ⟨place, hplace, className, hgiven, rfl, rfl⟩

theorem isConfined_of_mem_rules {rule : StyleRule} (h : rule ∈ rules nodes) :
    rule.IsConfined := by
  obtain ⟨place, hplace, hclass, hdeclarations⟩ := mem_rules_iff.mp h
  constructor
  case class_ok => exact (isClassName_places nodes place hplace _ hclass).isSlugText
  case properties_ok =>
    intro declaration hmem
    rw [hdeclarations] at hmem
    exact (Markup.not_break_of_mem_declarations hmem).1
  case values_ok =>
    intro declaration hmem
    rw [hdeclarations] at hmem
    exact (Markup.not_break_of_mem_declarations hmem).2

/-- Only a node that declares something has a rule. -/
theorem declarations_ne_nil_of_mem_rules {rule : StyleRule} (h : rule ∈ rules nodes) :
    rule.declarations ≠ [] := by
  obtain ⟨place, hplace, hclass, hdeclarations⟩ := mem_rules_iff.mp h
  have hsome : place.className.isSome = true := Option.isSome_of_eq_some hclass
  rw [hdeclarations]
  exact ((isSome_className_places nodes place hplace).mp hsome).2

theorem rules_eq_writtenPlaces : rules nodes = (writtenPlaces nodes).filterMap Place.rule? := by
  rw [rules, filterMap_writtenPlaces]
  intro place hnone
  rw [Place.rule?, hnone, Option.map_none]

/-- The rules under a class are those of the places with the class. -/
theorem filter_filterMap_rule? (places : List Place) (className : String) :
    (places.filterMap Place.rule?).filter (·.className = className) =
      (places.filter (·.className = some className)).filterMap Place.rule? := by
  rw [List.filter_filterMap, List.filterMap_filter]
  apply List.filterMap_congr
  intro place _
  cases hclass : place.className with
  | none => simp [Place.rule?, hclass]
  | some given => simp [Place.rule?, hclass, Option.filter_some]

/-- Under the class of a node there is one rule, with what the node declares. -/
theorem filter_rules_eq {place : Place} (hplace : place ∈ places nodes) {className : String}
    (hclass : place.className = some className) :
    (rules nodes).filter (·.className = className) =
      [⟨className, Markup.declarations place.node.styles⟩] := by
  have hwritten : place.isWritten = true :=
    ((isSome_className_places nodes place hplace).mp (Option.isSome_of_eq_some hclass)).1
  have hmem : place ∈ writtenPlaces nodes := List.mem_filter.mpr ⟨hplace, hwritten⟩
  have hone := Place.filter_className_eq (nodup_filterMap_className_writtenPlaces nodes) hmem hclass
  rw [rules_eq_writtenPlaces, filter_filterMap_rule?, hone]
  simp [Place.rule?, hclass]

end MarkupNode

namespace GeneratedCode

/-- The style sheet of nodes, as a reader sees it that knows nothing about the nodes. -/
structure RulesReadBack (nodes : List MarkupNode) : Prop where
  /-- Every node has one place, parents first. -/
  map_node : (MarkupNode.places nodes).map Place.node = MarkupNode.preorderList nodes
  /-- What is read are the rules of the places with a class, in their order. -/
  read : StyleRule.read? (ofNodes nodes).css = some (MarkupNode.rules nodes)
  /-- Every rule declares something. -/
  declares : ∀ rule ∈ MarkupNode.rules nodes, rule.declarations ≠ []
  /-- No class, property or value opens or closes anything. -/
  confined : ∀ rule ∈ MarkupNode.rules nodes, rule.IsConfined
  /-- Under the class of a node its own declarations are read, whatever other nodes hold. -/
  own : ∀ place ∈ MarkupNode.places nodes, ∀ className, place.className = some className →
    (StyleRule.read? (ofNodes nodes).css).map (List.filter (·.className = className)) =
      some [⟨className, Markup.declarations place.node.styles⟩]

theorem css_eq_sheet (nodes : List MarkupNode) :
    (ofNodes nodes).css = StyleRule.sheet (MarkupNode.rules nodes) := by
  rw [MarkupNode.rules_eq_writtenPlaces, MarkupNode.filterMap_rule?_writtenPlaces]
  rfl

/-- The rules of nodes are read back from their style sheet. -/
theorem read?_css (nodes : List MarkupNode) :
    StyleRule.read? (ofNodes nodes).css = some (MarkupNode.rules nodes) := by
  rw [css_eq_sheet]
  apply StyleRule.read?_sheet
  intro rule hrule
  exact (MarkupNode.isConfined_of_mem_rules hrule).isReadable

/-- The style sheet of any nodes is read back without loss. -/
theorem rulesReadBack (nodes : List MarkupNode) : RulesReadBack nodes := by
  constructor
  case map_node => exact MarkupNode.map_node_places nodes
  case read => exact read?_css nodes
  case declares => exact fun _ => MarkupNode.declarations_ne_nil_of_mem_rules
  case confined => exact fun _ => MarkupNode.isConfined_of_mem_rules
  case own =>
    intro place hplace className hclass
    rw [read?_css, Option.map_some, MarkupNode.filter_rules_eq hplace hclass]

/-- A node whose styles try to end their declarations and to open a rule of their own. -/
def hostileCard : MarkupNode where
  tag := "div"
  elementName := "Card"
  styles := .ofList [("color", " red:\n.note "), ("width", "1px; \x7d .note \x7b"),
    ("top\x7d", "0"), ("", "9")]

example : StyleRule.read? (ofNodes [hostileCard]).css =
    some [⟨"card", [("color", "red:\n.note"), ("", "9")]⟩] := by
  decide +kernel

end GeneratedCode
end DesignMarkup
