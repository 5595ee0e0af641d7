import DesignMarkup.Proofs.Forest.Tree
import DesignMarkup.Proofs.Markup.Declarations
import DesignMarkup.Proofs.Markup.Reading
import DesignMarkup.Proofs.Markup.StyleSheet
import DesignMarkup.Proofs.Tag.Encoding

/-!
What exported elements declare.  The layout of an element fills in what its styles leave open, and
nothing else: its texts go in where the styles have none, and from there to the places that the
schema gives them.
-/

namespace DesignMarkup

open OrderedMap (lookup)

namespace ForestNode

/-- The text that the styles of a node have under a key. -/
def ownText? (node : ForestNode) (key : String) : Option String :=
  node.styles.bind (·.get? key)

/-- The text that the layout of a node has under a key. -/
def layoutText? (node : ForestNode) (key : String) : Option String :=
  node.layout.bind (·.get? key)

/-- The text that counts under a key: that of the styles, blank or not, and that of the layout only
where the styles have none. -/
def styleText? (node : ForestNode) (key : String) : Option String :=
  (node.ownText? key).or (node.layoutText? key)

theorem mem_keys_of_styleText? {node : ForestNode} {key text : String}
    (h : node.styleText? key = some text) : key ∈ Style.keys := by
  rcases Option.or_eq_some_iff.mp h with hown | ⟨-, hlayout⟩
  · obtain ⟨bag, -, hbag⟩ := Option.bind_eq_some_iff.mp hown
    exact Bag.mem_keys_of_get? hbag
  · obtain ⟨bag, -, hbag⟩ := Option.bind_eq_some_iff.mp hlayout
    exact Style.layoutKeys_subset_keys (Bag.mem_keys_of_get? hbag)

end ForestNode

namespace Markup

/-- A text is put down under a property: trimmed, unless it is blank or would end its declaration. -/
def emitted? (property text : String) : Option (String × String) :=
  if Text.trim text ≠ "" ∧ IsFreeOf ['\x7b', '\x7d', ';'] (Text.trim text) then
    some (property, Text.trim text)
  else none

theorem eq_of_emitted? {property text : String} {declaration : String × String}
    (h : emitted? property text = some declaration) : declaration = (property, Text.trim text) := by
  rw [emitted?, Option.ite_none_right_eq_some] at h
  exact (Option.some.inj h.2).symm

/-- The keys of the schema end no declaration. -/
theorem isFreeOf_of_mem_keys : ∀ key ∈ Style.keys, IsFreeOf ['\x7b', '\x7d', ';', ':'] key := by
  decide +kernel

theorem nodup_map_snd_properties : (Style.properties.map Prod.snd).Nodup := by
  decide +kernel

theorem emitted?_eq {entry : String × String} (h : entry ∈ Style.properties) (text : String) :
    emitted? entry.2 text =
      if CanBeDeclared (entry.1, text) then some (declaration (entry.1, text)) else none := by
  have hkey := isFreeOf_of_mem_keys entry.1 (List.mem_map_of_mem h)
  have hiff : CanBeDeclared (entry.1, text) ↔
      Text.trim text ≠ "" ∧ IsFreeOf ['\x7b', '\x7d', ';'] (Text.trim text) :=
    and_congr_right fun _ => and_iff_left hkey
  simp only [emitted?, hiff, declaration, cssProperty_of_mem_properties h]

/-- Where all keys are known, what is declared follows the schema. -/
theorem declarations_of_known {styles : OrderedMap String String}
    (h : ∀ key ∈ styles.keys, key ∈ Style.keys) :
    declarations styles = Style.properties.filterMap fun entry =>
      (styles.find? entry.1).bind (emitted? entry.2) := by
  have hothers : otherStyles styles = [] := by
    have hnone : (declaredStyles styles).entries.filter (·.1 ∉ Style.keys) = [] := by
      rw [List.filter_eq_nil_iff]
      intro style hstyle
      have hkey := h style.1 (List.mem_map_of_mem (List.mem_of_mem_filter hstyle))
      simpa using hkey
    rw [otherStyles, hnone, List.mergeSort_nil]
  rw [declarations_eq, hothers, List.append_nil, knownStyles, Style.keys, List.filterMap_map,
    List.map_filterMap]
  apply List.filterMap_congr
  intro entry hentry
  rw [Function.comp_apply, declaredStyles, OrderedMap.find?_filter]
  rcases hfind : styles.find? entry.1 with _ | text
  · rfl
  · by_cases hdeclared : CanBeDeclared (entry.1, text) <;>
      simp [emitted?_eq hentry, hdeclared, Option.filter_some]

end Markup

/-- What a node declares: the keys of the schema in their order, each with the text that counts
under it. -/
def ForestNode.declared (node : ForestNode) : List (String × String) :=
  Style.properties.filterMap fun entry =>
    (node.styleText? entry.1).bind (Markup.emitted? entry.2)

namespace MarkupNode

open Markup (declarations)

theorem find?_fillStyles (styles : OrderedMap String String) (layout : List (String × String))
    (key : String) :
    (fillStyles styles layout).find? key = (styles.find? key).or (lookup key layout) := by
  induction layout generalizing styles with
  | nil => simp [fillStyles, lookup]
  | cons entry rest ih =>
      have hrest := ih (styles.insertIfNew entry.1 entry.2)
      rw [OrderedMap.find?_insertIfNew, Option.or_assoc] at hrest
      rw [fillStyles, List.foldl_cons, ← fillStyles, hrest]
      by_cases hkey : entry.1 = key <;> simp [lookup, hkey]

theorem lookup_bagEntries {keys : List String} (hnodup : keys.Nodup) (bag : Option (Bag keys))
    (key : String) : lookup key (bagEntries bag) = bag.bind (·.get? key) := by
  cases bag with
  | none => rfl
  | some bag => exact bag.lookup_entries hnodup key

/-- The styles of the markup node are those of the exported element, filled in from its layout. -/
theorem find?_styles_ofForestNode (node : ForestNode) (key : String) :
    (ofForestNode node).styles.find? key = node.styleText? key := by
  cases node
  rw [ofForestNode, find?_fillStyles, OrderedMap.find?,
    entries_ofList_bagEntries Style.keys_nodup, lookup_bagEntries Style.keys_nodup,
    lookup_bagEntries Style.layoutKeys_nodup]
  rfl

theorem mem_keys_of_ofForestNode (node : ForestNode) :
    ∀ key ∈ (ofForestNode node).styles.keys, key ∈ Style.keys := by
  intro key hkey
  obtain ⟨text, htext⟩ := Option.isSome_iff_exists.mp (OrderedMap.contains_iff.mpr hkey)
  rw [find?_styles_ofForestNode] at htext
  exact ForestNode.mem_keys_of_styleText? htext

theorem declarations_ofForestNode (node : ForestNode) :
    declarations (ofForestNode node).styles = node.declared := by
  simp only [Markup.declarations_of_known (mem_keys_of_ofForestNode node),
    find?_styles_ofForestNode]
  rfl

mutual

theorem preorder_ofForestNode (node : ForestNode) :
    (ofForestNode node).preorder = node.nodes.map ofForestNode := by
  match node with
  | ⟨tag, id, name, type, attributes, content, styles, layout, children⟩ =>
      rw [ForestNode.nodes, List.map_cons, ← preorderList_ofForestNodes children]
      rfl

theorem preorderList_ofForestNodes (trees : List ForestNode) :
    preorderList (ofForestNodes trees) = (ForestNode.nodesOfList trees).map ofForestNode := by
  match trees with
  | [] => rfl
  | node :: rest =>
      rw [ofForestNodes, preorderList, ForestNode.nodesOfList, List.map_append,
        preorder_ofForestNode node, preorderList_ofForestNodes rest]

end

/-- Every rule of an exported forest declares what one of its nodes does. -/
theorem exists_node_of_mem_rules {forest : Forest} {rule : StyleRule}
    (h : rule ∈ rules (ofForest forest)) :
    ∃ node ∈ forest.nodes, rule.declarations = node.declared := by
  obtain ⟨place, hplace, -, hrule⟩ := mem_rules_iff.mp h
  have hnode := List.mem_map_of_mem (f := Place.node) hplace
  rw [map_node_places, ofForest, preorderList_ofForestNodes] at hnode
  obtain ⟨node, hmem, heq⟩ := List.mem_map.mp hnode
  refine ⟨node, hmem, ?_⟩
  rw [hrule, ← heq, declarations_ofForestNode]

end MarkupNode

namespace ForestNode

/-- Under the property of a key that the styles set, no other text is declared than theirs. -/
theorem eq_of_mem_declared {node : ForestNode} {entry : String × String} {text value : String}
    (hentry : entry ∈ Style.properties) (hown : node.ownText? entry.1 = some text)
    (h : (entry.2, value) ∈ node.declared) : value = Text.trim text := by
  obtain ⟨other, hother, hemitted⟩ := List.mem_filterMap.mp h
  obtain ⟨counted, hcounted, hdeclaration⟩ := Option.bind_eq_some_iff.mp hemitted
  obtain ⟨hproperty, rfl⟩ := Prod.mk.inj (Markup.eq_of_emitted? hdeclaration)
  have hsame : entry = other :=
    List.inj_on_of_nodup_map Markup.nodup_map_snd_properties hentry hother hproperty
  rw [← hsame, styleText?, hown, Option.some_or] at hcounted
  rw [Option.some.inj hcounted]

/-- What the layout has under keys that the styles set makes no difference. -/
theorem declared_congr {node : ForestNode} {layout : Option LayoutBag}
    (h : ∀ key, node.ownText? key = none → node.layoutText? key = layout.bind (·.get? key)) :
    { node with layout := layout }.declared = node.declared := by
  have htext : ∀ key, { node with layout := layout }.styleText? key = node.styleText? key := by
    intro key
    change (node.ownText? key).or (layout.bind (·.get? key)) = node.styleText? key
    rw [styleText?]
    rcases hown : node.ownText? key with _ | text
    · rw [h key hown]
    · rfl
  simp only [declared, htext]

end ForestNode

namespace GeneratedCode

open MarkupNode (ofForest ofForestNode rules)
open Markup (declarations)

/-- The layout of an exported element fills in what its styles leave open and nothing else.  What is
declared follows the schema; a text of the layout never stands where the styles have one, nor does
it make a difference there; and what a forest declares in its style sheet comes from its nodes. -/
theorem layout_fills_styles :
    (∀ node : ForestNode, declarations (ofForestNode node).styles = node.declared) ∧
    (∀ node : ForestNode, ∀ entry ∈ Style.properties, ∀ text,
      node.ownText? entry.1 = some text → ∀ value,
        (entry.2, value) ∈ declarations (ofForestNode node).styles → value = Text.trim text) ∧
    (∀ (node : ForestNode) (layout : Option LayoutBag),
      (∀ key, node.ownText? key = none → node.layoutText? key = layout.bind (·.get? key)) →
        declarations (ofForestNode { node with layout := layout }).styles =
          declarations (ofForestNode node).styles) ∧
    ∀ forest : Forest, (ofNodes (ofForest forest)).css = StyleRule.sheet (rules (ofForest forest)) ∧
      ∀ rule ∈ rules (ofForest forest), ∃ node ∈ forest.nodes,
        rule.declarations = node.declared := by
  simp only [MarkupNode.declarations_ofForestNode, true_and, implies_true]
  refine ⟨fun node entry hentry text hown value hmem => ?_, fun node layout h => ?_,
    fun forest => ⟨css_eq_sheet _, fun rule => MarkupNode.exists_node_of_mem_rules⟩⟩
  · exact ForestNode.eq_of_mem_declared hentry hown hmem
  · exact ForestNode.declared_congr h

/-- A panel whose layout sets keys that its styles set too, one of them to a blank text. -/
def filledPanel (gap : String) : ForestNode where
  tag := "div"
  elementId := ⟨"panel", rfl⟩
  elementName := "Panel"
  elementType := none
  attributes := .empty
  content := none
  styles := some (.ofFn (OrderedMap.ofList
    [("color", " red "), ("gap", "4px"), ("display", " ")]).find?)
  layout := some (.ofFn fun key => if key = "gap" then some gap else
    (OrderedMap.ofList
      [("display", "flex"), ("flexDirection", "column"), ("alignItems", "center;")]).find? key)
  children := []

theorem layout_fills_styles_filledPanel :
    (filledPanel "8px").layoutText? "gap" = some "8px" ∧
      declarations (ofForestNode (filledPanel "8px")).styles =
        [("flex-direction", "column"), ("gap", "4px"), ("color", "red")] ∧
      ("gap", "8px") ∉ declarations (ofForestNode (filledPanel "8px")).styles ∧
      declarations (ofForestNode (filledPanel "9px")).styles =
        declarations (ofForestNode (filledPanel "8px")).styles := by
  obtain ⟨-, hown, hlayout, -⟩ := layout_fills_styles
  have hgap : (filledPanel "8px").ownText? "gap" = some "4px" := by decide +kernel
  refine ⟨by decide +kernel, by decide +kernel, fun hmem => ?_, ?_⟩
  · have hvalue := hown _ ("gap", "gap") (by decide +kernel) _ hgap _ hmem
    exact absurd hvalue (by decide +kernel)
  · refine hlayout (filledPanel "8px") (filledPanel "9px").layout fun key hnone => ?_
    have hkey : key ≠ "gap" := by
      rintro rfl
      cases hgap.symm.trans hnone
    have htext : ∀ gap, (filledPanel gap).layoutText? key = if key ∈ Style.layoutKeys then
        (OrderedMap.ofList
          [("display", "flex"), ("flexDirection", "column"), ("alignItems", "center;")]).find? key
        else none := by
      intro gap
      exact (Bag.get?_ofFn _ key).trans (by rw [if_neg hkey])
    exact (htext "8px").trans (htext "9px").symm

end GeneratedCode
end DesignMarkup
