import DesignMarkup.Markup.Code
import DesignMarkup.Proofs.OrderedMap
import DesignMarkup.Proofs.Style.Bag

/-!
What is declared for styles.  Every style that can be declared is, once, in an order that depends on
the keys alone; so the order in which styles were set makes no difference to the code.
-/

namespace DesignMarkup

namespace Markup

/-- None of some characters is in a text. -/
def IsFreeOf (breaks : List Char) (text : String) : Prop :=
  ∀ c ∈ text.toList, c ∉ breaks

instance (breaks : List Char) (text : String) : Decidable (IsFreeOf breaks text) :=
  List.decidableBAll (fun c => c ∉ breaks) text.toList

/-- A style can be declared: its value is not blank, and neither the trimmed value nor the key has a
character that would end the declaration. -/
def CanBeDeclared (style : String × String) : Prop :=
  Text.trim style.2 ≠ "" ∧ IsFreeOf ['\x7b', '\x7d', ';'] (Text.trim style.2) ∧
    IsFreeOf ['\x7b', '\x7d', ';', ':'] style.1

instance : DecidablePred CanBeDeclared :=
  fun _ => inferInstanceAs (Decidable (_ ∧ _))

/-- The property and the value that are declared for a style. -/
def declaration (style : String × String) : String × String :=
  (cssProperty style.1, Text.trim style.2)

/-- The styles that can be declared: the known ones in the order of the schema, and the others in
the order of their keys. -/
structure DeclaredInOrder (styles : OrderedMap String String)
    (known others : List (String × String)) : Prop where
  /-- They are the entries that can be declared, each of them once. -/
  perm : (known ++ others).Perm (styles.entries.filter CanBeDeclared)
  isSome_index? : ∀ style ∈ known, (Style.index? style.1).isSome = true
  known_sorted : known.Pairwise fun style next => Style.index? style.1 < Style.index? next.1
  index?_eq_none : ∀ style ∈ others, Style.index? style.1 = none
  others_sorted : others.Pairwise fun style next => style.1 < next.1

/-- The styles of a map that can be declared. -/
def declaredStyles (styles : OrderedMap String String) : OrderedMap String String :=
  styles.filter fun key text => CanBeDeclared (key, text)

section Declared

variable (styles : OrderedMap String String)

theorem isValueBreak_iff {c : Char} : isValueBreak c = true ↔ c ∈ ['\x7b', '\x7d', ';'] := by
  simp [isValueBreak, or_assoc]

theorem isKeyBreak_iff {c : Char} : isKeyBreak c = true ↔ c ∈ ['\x7b', '\x7d', ';', ':'] := by
  simp [isKeyBreak, isValueBreak, or_assoc]

theorem declarable?_eq (style : String × String) :
    declarable? style =
      if CanBeDeclared style then some (style.1, Text.trim style.2) else none := by
  have hiff : (Text.trim style.2 = "" ∨ (Text.trim style.2).toList.any isValueBreak = true ∨
      style.1.toList.any isKeyBreak = true) ↔ ¬ CanBeDeclared style := by
    simp only [CanBeDeclared, IsFreeOf, List.any_eq_true, isValueBreak_iff, isKeyBreak_iff]
    grind
  simp only [declarable?, hiff]
  by_cases h : CanBeDeclared style <;> simp [h]

theorem declarable_eq : declarable styles =
    (declaredStyles styles).entries.map fun style => (style.1, Text.trim style.2) := by
  rw [declarable, declaredStyles, OrderedMap.filter, ← List.filterMap_eq_map, List.filterMap_filter]
  apply List.filterMap_congr
  intro style _
  simpa using declarable?_eq style

theorem lookup_declarable (key : String) :
    (declarable styles).lookup key = ((declaredStyles styles).find? key).map Text.trim := by
  rw [declarable_eq, ← OrderedMap.lookup_eq, OrderedMap.lookup_map_snd]
  rfl

/-- The known styles that are declared, in the order of the schema. -/
def knownStyles : List (String × String) :=
  Style.keys.filterMap fun key => ((declaredStyles styles).find? key).map (key, ·)

/-- The other styles that are declared, in the order of their keys. -/
def otherStyles : List (String × String) :=
  ((declaredStyles styles).entries.filter (·.1 ∉ Style.keys)).mergeSort fun style next =>
    decide (style.1 ≤ next.1)

theorem cssProperty_of_mem_properties {entry : String × String} (h : entry ∈ Style.properties) :
    cssProperty entry.1 = entry.2 := by
  have hproperty : Style.property? entry.1 = some entry.2 := by
    rw [Style.property?, ← OrderedMap.lookup_eq]
    exact OrderedMap.lookup_of_mem Style.keys_nodup h
  rw [cssProperty, hproperty]

theorem knownDeclarations_eq :
    knownDeclarations (declarable styles) = (knownStyles styles).map declaration := by
  rw [knownDeclarations, knownStyles, Style.keys, List.filterMap_map, List.map_filterMap]
  apply List.filterMap_congr
  intro entry hentry
  simp [lookup_declarable, declaration, Function.comp_def, cssProperty_of_mem_properties hentry]

theorem otherDeclarations_eq :
    otherDeclarations (declarable styles) = (otherStyles styles).map declaration := by
  have hsort : (otherStyles styles).map (fun style => (style.1, Text.trim style.2)) =
      ((declarable styles).filter fun style => style.1 ∉ Style.keys).mergeSort fun style next =>
        decide (style.1 ≤ next.1) := by
    rw [declarable_eq, List.filter_map]
    exact List.map_mergeSort fun _ _ _ _ => rfl
  rw [otherDeclarations, ← hsort, List.map_map]
  rfl

theorem declarations_eq :
    declarations styles = (knownStyles styles ++ otherStyles styles).map declaration := by
  rw [declarations, knownDeclarations_eq, otherDeclarations_eq, List.map_append]

theorem map_fst_knownStyles_sublist : ((knownStyles styles).map Prod.fst).Sublist Style.keys := by
  have hkeys : (knownStyles styles).map Prod.fst =
      Style.keys.filter (declaredStyles styles).contains := by
    rw [knownStyles, List.map_filterMap, ← List.filterMap_eq_filter]
    apply List.filterMap_congr
    intro key _
    cases hfind : (declaredStyles styles).find? key <;> simp [OrderedMap.contains, Option.guard, hfind]
  rw [hkeys]
  exact List.filter_sublist

theorem mem_keys_of_mem_knownStyles {style : String × String} (h : style ∈ knownStyles styles) :
    style.1 ∈ Style.keys :=
  (map_fst_knownStyles_sublist styles).subset (List.mem_map_of_mem h)

/-- The known styles are those entries whose keys the schema has, sorted by the schema. -/
theorem knownStyles_perm :
    (knownStyles styles).Perm ((declaredStyles styles).entries.filter (·.1 ∈ Style.keys)) := by
  have hnodup : (knownStyles styles).Nodup :=
    .of_map _ (Style.keys_nodup.sublist (map_fst_knownStyles_sublist styles))
  have hentries : (declaredStyles styles).entries.Nodup :=
    .of_map _ (declaredStyles styles).keys_nodup
  rw [List.perm_ext_iff_of_nodup hnodup (hentries.filter _)]
  rintro ⟨key, text⟩
  simp [knownStyles, OrderedMap.mem_entries_iff, and_comm]

theorem declaredInOrder : DeclaredInOrder styles (knownStyles styles) (otherStyles styles) := by
  have hothers : ∀ style ∈ otherStyles styles, style.1 ∉ Style.keys := by
    intro style hstyle
    simpa using (List.mem_filter.mp (List.mem_mergeSort.mp hstyle)).2
  constructor
  case perm =>
    have hparts := List.filter_append_perm (·.1 ∈ Style.keys) (declaredStyles styles).entries
    have hnot : (fun style : String × String => !decide (style.1 ∈ Style.keys)) =
        fun style => decide (style.1 ∉ Style.keys) := by
      funext style
      exact (decide_not (p := style.1 ∈ Style.keys)).symm
    rw [hnot] at hparts
    exact ((knownStyles_perm styles).append (List.mergeSort_perm _ _)).trans hparts
  case isSome_index? =>
    intro style hstyle
    exact Style.isSome_index?_iff.mpr (mem_keys_of_mem_knownStyles styles hstyle)
  case known_sorted =>
    have hkeys := Style.pairwise_index?_keys.sublist (map_fst_knownStyles_sublist styles)
    rwa [List.pairwise_map] at hkeys
  case index?_eq_none =>
    intro style hstyle
    rw [← Option.not_isSome_iff_eq_none, Style.isSome_index?_iff]
    exact hothers style hstyle
  case others_sorted =>
    have hsorted : (otherStyles styles).Pairwise fun style next => style.1 ≤ next.1 := by
      refine (List.pairwise_mergeSort ?_ ?_ _).imp of_decide_eq_true
      · intro style middle next hfirst hsecond
        exact decide_eq_true
          (String.le_trans (of_decide_eq_true hfirst) (of_decide_eq_true hsecond))
      · intro style next
        simpa using String.le_total style.1 next.1
    have hnodup : ((otherStyles styles).map Prod.fst).Nodup :=
      ((List.mergeSort_perm _ _).map Prod.fst).nodup_iff.mpr
        ((declaredStyles styles).keys_nodup.sublist (List.filter_sublist.map Prod.fst))
    have hdistinct : (otherStyles styles).Pairwise fun style next => style.1 ≠ next.1 :=
      List.pairwise_map.mp hnodup
    refine (hsorted.and hdistinct).imp fun ⟨hle, hne⟩ => ?_
    exact String.not_le.mp fun hge => hne (String.le_antisymm hle hge)

end Declared

section Reordered

variable {styles left right : OrderedMap String String}
  {known others known' others' : List (String × String)}

/-- The known styles and the others are told apart by their keys. -/
theorem DeclaredInOrder.filter_eq (h : DeclaredInOrder styles known others) :
    (known ++ others).filter (fun style => (Style.index? style.1).isSome) = known ∧
      (known ++ others).filter (fun style => !(Style.index? style.1).isSome) = others := by
  have hothers : ∀ style ∈ others, (Style.index? style.1).isSome = false := by
    intro style hstyle
    rw [h.index?_eq_none style hstyle, Option.isSome_none]
  constructor
  · have hnone : others.filter (fun style => (Style.index? style.1).isSome) = [] := by
      simpa using hothers
    rw [List.filter_append, List.filter_eq_self.mpr h.isSome_index?, hnone, List.append_nil]
  · have hnone : known.filter (fun style => !(Style.index? style.1).isSome) = [] := by
      rw [List.filter_eq_nil_iff]
      intro style hstyle
      simp [h.isSome_index? style hstyle]
    rw [List.filter_append, hnone, List.nil_append, List.filter_eq_self]
    simpa using hothers

/-- Which styles are declared, and in which order, does not depend on the order of the entries. -/
theorem DeclaredInOrder.unique (hleft : DeclaredInOrder left known others)
    (hright : DeclaredInOrder right known' others') (h : left.entries.Perm right.entries) :
    known = known' ∧ others = others' := by
  have hall : (known ++ others).Perm (known' ++ others') :=
    hleft.perm.trans ((h.filter _).trans hright.perm.symm)
  constructor
  · have hperm := hall.filter fun style => (Style.index? style.1).isSome
    rw [hleft.filter_eq.1, hright.filter_eq.1] at hperm
    refine hperm.eq_of_pairwise ?_ hleft.known_sorted hright.known_sorted
    intro style next hstyle hnext hlt hgt
    obtain ⟨place, hplace⟩ := Option.isSome_iff_exists.mp (hleft.isSome_index? style hstyle)
    obtain ⟨later, hlater⟩ := Option.isSome_iff_exists.mp (hright.isSome_index? next hnext)
    rw [hplace, hlater, Option.some_lt_some] at hlt hgt
    exact absurd hgt (Nat.lt_asymm hlt)
  · have hperm := hall.filter fun style => !(Style.index? style.1).isSome
    rw [hleft.filter_eq.2, hright.filter_eq.2] at hperm
    refine hperm.eq_of_pairwise ?_ hleft.others_sorted hright.others_sorted
    intro style next _ _ hlt hgt
    exact absurd hgt (String.lt_asymm hlt)

theorem declarations_eq_of_perm (h : left.entries.Perm right.entries) :
    declarations left = declarations right := by
  obtain ⟨hknown, hothers⟩ := (declaredInOrder left).unique (declaredInOrder right) h
  rw [declarations_eq, declarations_eq, hknown, hothers]

end Reordered
end Markup

namespace MarkupNode

mutual

/-- Two nodes differ, at all depths, in nothing but the order of their styles. -/
inductive Reordered : MarkupNode → MarkupNode → Prop
  | node {tag name : String} {attributes : Properties} {styles styles' : OrderedMap String String}
      {content : Option String} {children children' : List MarkupNode}
      (perm : styles.entries.Perm styles'.entries) (below : ReorderedList children children') :
      Reordered ⟨tag, name, attributes, styles, content, children⟩
        ⟨tag, name, attributes, styles', content, children'⟩

inductive ReorderedList : List MarkupNode → List MarkupNode → Prop
  | nil : ReorderedList [] []
  | cons {node node' : MarkupNode} {rest rest' : List MarkupNode} (first : Reordered node node')
      (others : ReorderedList rest rest') : ReorderedList (node :: rest) (node' :: rest')

end

end MarkupNode

namespace StyledNode

open MarkupNode (Reordered ReorderedList)

mutual

theorem plain_eq_of_reordered {node node' : MarkupNode} (h : Reordered node node') :
    plain node = plain node' := by
  match h with
  | .node perm below =>
      rw [plain, plain, Markup.declarations_eq_of_perm perm, plainList_eq_of_reordered below]

theorem plainList_eq_of_reordered {nodes nodes' : List MarkupNode} (h : ReorderedList nodes nodes') :
    plainList nodes = plainList nodes' := by
  match h with
  | .nil => rfl
  | .cons first others =>
      rw [plainList, plainList, plain_eq_of_reordered first, plainList_eq_of_reordered others]

end

mutual

/-- Classes are given out for declarations, so they go to the same nodes. -/
theorem assign_eq_of_reordered (taken : List String) {node node' : MarkupNode}
    (h : Reordered node node') : assign taken node = assign taken node' := by
  match h with
  | .node perm below =>
      simp only [assign, Markup.declarations_eq_of_perm perm, plainList_eq_of_reordered below,
        assignList_eq_of_reordered _ below]

theorem assignList_eq_of_reordered (taken : List String) {nodes nodes' : List MarkupNode}
    (h : ReorderedList nodes nodes') : assignList taken nodes = assignList taken nodes' := by
  match h with
  | .nil => rfl
  | .cons first others =>
      simp only [assignList, assign_eq_of_reordered _ first, assignList_eq_of_reordered _ others]

end

end StyledNode

namespace GeneratedCode

open Markup (CanBeDeclared DeclaredInOrder declarations declaration)

/-- Of the styles of a node those that can be declared are, each once, first the known ones by their
places in the schema and then the others by their keys.  Nodes whose styles differ in their order
declare the same, and trees of such nodes have the same code. -/
theorem declares_in_order :
    (∀ node : MarkupNode, ∃ known others, DeclaredInOrder node.styles known others ∧
      declarations node.styles = (known ++ others).map declaration) ∧
    (∀ node node' : MarkupNode, node.styles.entries.Perm node'.styles.entries →
      declarations node.styles = declarations node'.styles) ∧
    ∀ nodes nodes' : List MarkupNode, MarkupNode.ReorderedList nodes nodes' →
      ofNodes nodes = ofNodes nodes' := by
  refine ⟨fun node => ?_, fun _ _ => Markup.declarations_eq_of_perm, fun nodes nodes' h => ?_⟩
  · exact ⟨_, _, Markup.declaredInOrder node.styles, Markup.declarations_eq node.styles⟩
  · simp only [ofNodes, StyledNode.ofNodes, StyledNode.assignList_eq_of_reordered [] h]

/-- A card with known and other styles, a blank one and one that would end its declaration. -/
def styledCard (styles : OrderedMap String String) : MarkupNode where
  tag := "p"
  elementName := "Card"
  styles := styles

def mixedStyles : OrderedMap String String :=
  .ofList [("zCustom", "1"), ("color", " #fff "), ("top", " "), ("cursor", "pointer"),
    ("left", "1px;"), ("width", "10px")]

/-- The same styles in another order. -/
def remixedStyles : OrderedMap String String :=
  .ofList [("width", "10px"), ("cursor", "pointer"), ("left", "1px;"), ("zCustom", "1"),
    ("top", " "), ("color", " #fff ")]

theorem declares_in_order_styledCard :
    mixedStyles.entries.Perm remixedStyles.entries ∧
      declarations (styledCard mixedStyles).styles =
        declarations (styledCard remixedStyles).styles ∧
      ofNodes [{ tag := "div", elementName := "Box", children := [styledCard mixedStyles] }] =
        ofNodes [{ tag := "div", elementName := "Box", children := [styledCard remixedStyles] }] ∧
      declarations (styledCard mixedStyles).styles =
        [("width", "10px"), ("color", "#fff"), ("cursor", "pointer"), ("z-custom", "1")] := by
  have hperm : mixedStyles.entries.Perm remixedStyles.entries := by decide
  have hknown : DeclaredInOrder mixedStyles [("width", "10px"), ("color", " #fff ")]
      [("cursor", "pointer"), ("zCustom", "1")] := by
    have hwidth : Style.index? "width" = some 0 := by decide
    have hcolor : Style.index? "color" = some 39 := by decide +kernel
    constructor
    case known_sorted => simp [hwidth, hcolor]
    all_goals decide +kernel
  obtain ⟨hdeclared, hdeclarations, hcode⟩ := declares_in_order
  obtain ⟨known, others, hstyles, hmixed⟩ := hdeclared (styledCard mixedStyles)
  obtain ⟨rfl, rfl⟩ := hstyles.unique hknown .rfl
  refine ⟨hperm, hdeclarations _ _ hperm, hcode _ _ ?_, hmixed.trans (by decide +kernel)⟩
  exact .cons (.node .rfl (.cons (.node hperm .nil) .nil)) .nil

end GeneratedCode
end DesignMarkup
