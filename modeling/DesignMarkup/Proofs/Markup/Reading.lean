import DesignMarkup.Markup.Code
import DesignMarkup.Proofs.Forest.Encoding
import DesignMarkup.Proofs.Markup.Entries

/-!
Lenient reading of written forests.  What reading without care makes of the text of a forest is what
the forest itself is turned into: the same nodes with the same texts in the same order.
-/

namespace DesignMarkup

open OrderedMap (lookup lookup_filter)

namespace MarkupNode

/-- A node is read from written fields as they were written, with `null` for those that are absent.
-/
theorem exists_record?_ofFields {fields : List (String × Option Json)}
    (hnodup : (fields.map Prod.fst).Nodup) :
    ∃ r, (Json.ofFields fields).record? fieldNames = some r ∧
      ∀ name ∈ fieldNames, field r name = (lookup name fields).join.getD .null := by
  refine ⟨_, Json.record?_ofFields_of_nodup fieldNames hnodup, ?_⟩
  intro name hname
  rw [field, lookup_filter (fun key => decide (key ∈ fieldNames)),
    if_pos (decide_eq_true hname), Json.lookup_present name hnodup]

theorem looseTexts_textObject (texts : List (String × String)) :
    looseTexts (Json.textObject texts) = .ofList texts := by
  rw [Json.textObject, looseTexts]
  congr 1
  induction texts with
  | nil => rfl
  | cons entry rest ih =>
      rw [List.map_cons, List.filterMap_cons, ih]
      rfl

theorem looseTexts_ofTexts (texts : OrderedMap String String) :
    looseTexts (.ofTexts texts) = texts := by
  have h := looseTexts_textObject texts.entries
  rwa [OrderedMap.ofList_entries] at h

theorem looseTexts_bag {keys : List String} (bag : Option (Bag keys)) :
    looseTexts ((bag.map Bag.toJson).getD .null) = .ofList (bagEntries bag) := by
  cases bag with
  | none => rfl
  | some bag => exact looseTexts_textObject bag.entries

theorem entries_ofList_bagEntries {keys : List String} (hnodup : keys.Nodup)
    (bag : Option (Bag keys)) :
    (OrderedMap.ofList (bagEntries bag)).entries = bagEntries bag := by
  cases bag with
  | none => rfl
  | some bag => exact OrderedMap.entries_ofList (Bag.nodup_keys_entries hnodup bag)

theorem looseText?_content (content : Option String) :
    looseText? ((content.map Json.string).getD .null) = content := by
  cases content <;> rfl

/-- A written node is read as the markup node that it stands for when its children are. -/
theorem ofValue?_forestNode_of_children (node : ForestNode)
    (hchildren : ofItems (ForestNode.listToJson node.children) = ofForestNodes node.children) :
    ofValue? node.toJson = some (ofForestNode node) := by
  obtain ⟨r, hrecord, hfield⟩ := exists_record?_ofFields node.distinct_fields.nodup_fields
  have htag : field r "tag" = .string node.tag := hfield "tag" (by decide)
  have hname : field r "elementName" = .string node.elementName :=
    hfield "elementName" (by decide)
  have hattributes : field r "attributes" = .ofTexts node.attributes :=
    hfield "attributes" (by decide)
  have hstyles : field r "styles" = (node.styles.map Bag.toJson).getD .null :=
    hfield "styles" (by decide)
  have hlayout : field r "layout" = (node.layout.map Bag.toJson).getD .null :=
    hfield "layout" (by decide)
  have hcontent : field r "content" = (node.content.map Json.string).getD .null :=
    hfield "content" (by decide)
  have hbelow : field r "children" =
      (if node.children.isEmpty then none
        else some (Json.array (ForestNode.listToJson node.children))).getD .null :=
    hfield "children" (by decide)
  rw [ofValue?_eq, ForestNode.toJson_eq, hrecord, Option.map_some, ofFields, htag, hname,
    hattributes, hstyles, hlayout, hcontent, hbelow, looseTexts_ofTexts, looseTexts_bag,
    looseTexts_bag, entries_ofList_bagEntries Style.layoutKeys_nodup, looseText?_content]
  rw [ofItems] at hchildren
  obtain ⟨tag, id, name, kind, attributes, content, styles, layout, children⟩ := node
  cases children with
  | nil => rfl
  | cons child rest =>
      rw [ofForestNode, ← hchildren]
      rfl

mutual

/-- A written node is read as the markup node that it stands for. -/
theorem ofValue?_forestNode (node : ForestNode) :
    ofValue? node.toJson = some (ofForestNode node) := by
  match node with
  | ⟨tag, id, name, kind, attributes, content, styles, layout, children⟩ =>
      apply ofValue?_forestNode_of_children
      exact ofItems_forestNodes children

theorem ofItems_forestNodes (nodes : List ForestNode) :
    ofItems (ForestNode.listToJson nodes) = ofForestNodes nodes := by
  match nodes with
  | [] => rfl
  | node :: rest =>
      have hrest := ofItems_forestNodes rest
      rw [ofItems] at hrest
      rw [ForestNode.listToJson, ofItems, List.filterMap_cons_some (ofValue?_forestNode node),
        hrest, ofForestNodes]

end

/-- Any text of a forest's tree holds the nodes of the forest. -/
theorem nodesOfText_of_read? {contents : String} {forest : Forest}
    (h : Json.read? contents = some forest.toJson) :
    nodesOfText contents = .ok (ofForest forest) := by
  have hplain : Json.readValue? contents = some forest.toJson := by
    rw [Json.readValue?, h, Option.bind_some]
    exact forest.faithful_toJson.plain
  have hvalue : nodesOfValue forest.toJson = .ok (ofForest forest) :=
    congrArg Except.ok (ofItems_forestNodes forest.tree)
  rw [nodesOfText, hplain]
  exact hvalue

theorem nodesOfText_toText {forest : Forest} (h : forest.toJson.nesting ≤ Json.maxNesting) :
    nodesOfText forest.toText = .ok (ofForest forest) :=
  nodesOfText_of_read? (Json.read?_compact forest.faithful_toJson.exact h)

end MarkupNode

namespace GeneratedCode

/-- The text of a forest gives the nodes of the forest, each with its texts in their order, and so
the same code. -/
theorem nodes_and_code_of_forest_text (forest : Forest)
    (h : forest.toJson.nesting ≤ Json.maxNesting) :
    MarkupNode.nodesOfText forest.toText = .ok (MarkupNode.ofForest forest) ∧
      ofInput forest.toText = .ok (ofNodes (MarkupNode.ofForest forest)) := by
  have hnodes := MarkupNode.nodesOfText_toText h
  constructor
  · exact hnodes
  · rw [ofInput, hnodes]
    rfl

/-- A card whose styles and layout both set the gap, with a title below it. -/
def cardForest : Forest where
  tree :=
    [{ tag := "section"
       elementId := ⟨"1", rfl⟩
       elementName := "Card"
       elementType := some .frame
       attributes := .ofList [("role", "group"), ("id", "card")]
       content := none
       styles := some (.ofFn fun key => if key = "gap" then some "4px" else none)
       layout := some (.ofFn fun key =>
         if key = "gap" then some "8px" else if key = "display" then some "flex" else none)
       children :=
         [{ tag := "h2"
            elementId := ⟨"2", rfl⟩
            elementName := "Title"
            elementType := none
            attributes := .empty
            content := some "Welcome"
            styles := none
            layout := none
            children := [] }] }]

theorem nodes_and_code_of_card_text :
    cardForest.toJson.nesting ≤ Json.maxNesting ∧
      MarkupNode.nodesOfText cardForest.toText = .ok
        [{ tag := "section"
           elementName := "Card"
           attributes := .ofList [("role", "group"), ("id", "card")]
           styles := .ofList [("gap", "4px"), ("display", "flex")]
           children := [{ tag := "h2", elementName := "Title", content := some "Welcome" }] }] ∧
      ofInput cardForest.toText = .ok
        ⟨"<section class=\"card\" role=\"group\" id=\"card\">\n  <h2>Welcome</h2>\n</section>",
          ".card \x7b\n  display: flex;\n  gap: 4px;\n\x7d"⟩ := by
  have hnesting : cardForest.toJson.nesting ≤ Json.maxNesting := by decide
  obtain ⟨hnodes, hcode⟩ := nodes_and_code_of_forest_text cardForest hnesting
  refine ⟨hnesting, ?_, ?_⟩
  · rw [hnodes]
    rfl
  · rw [hcode]
    exact congrArg Except.ok (by decide +kernel)

end GeneratedCode
end DesignMarkup
