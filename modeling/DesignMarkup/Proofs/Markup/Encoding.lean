import DesignMarkup.Proofs.Markup.Reading

/-!
Written markup nodes.  The tree that is written for a node has only fields that reading without care
takes as they are, so that nodes are read back with all of their texts in order, in each of the
shapes that an input may have.
-/

namespace DesignMarkup

open OrderedMap (lookup)

namespace MarkupNode

/-- The fields of a node in the order in which they are written. -/
def fields (node : MarkupNode) : List (String × Option Json) :=
  [("tag", some (.string node.tag)), ("elementName", some (.string node.elementName)),
    ("attributes", some (.ofTexts node.attributes)), ("styles", some (.ofTexts node.styles)),
    ("content", node.content.map .string),
    ("children",
      if node.children.isEmpty then none else some (.array (listToJson node.children)))]

theorem toJson_eq (node : MarkupNode) : node.toJson = .ofFields node.fields := by
  cases node
  rw [toJson]
  rfl

theorem nodup_fields (node : MarkupNode) : (node.fields.map Prod.fst).Nodup :=
  show ["tag", "elementName", "attributes", "styles", "content", "children"].Nodup by decide

/-- What holds of texts, of objects of texts and of the children holds of every written field. -/
theorem forall_fields {P : Json → Prop} (node : MarkupNode) (hstring : ∀ s, P (.string s))
    (hobject : ∀ texts, (texts.map Prod.fst).Nodup → P (Json.textObject texts))
    (hchildren : P (.array (listToJson node.children))) :
    ∀ field ∈ node.fields, ∀ j ∈ field.2, P j := by
  intro field hfield j hj
  simp only [fields, List.mem_cons, List.not_mem_nil, or_false] at hfield
  rcases hfield with rfl | rfl | rfl | rfl | rfl | rfl
  all_goals simp only [Option.mem_def, Option.some.injEq, Option.map_eq_some_iff] at hj
  · exact hj ▸ hstring node.tag
  · exact hj ▸ hstring node.elementName
  · exact hj ▸ hobject _ node.attributes.keys_nodup
  · exact hj ▸ hobject _ node.styles.keys_nodup
  · obtain ⟨text, -, rfl⟩ := hj
    exact hstring text
  · split at hj
    · cases hj
    · exact Option.some.inj hj ▸ hchildren

mutual

theorem faithful_toJson (node : MarkupNode) : node.toJson.Faithful := by
  match node with
  | ⟨tag, name, attributes, styles, content, children⟩ =>
      rw [toJson_eq]
      apply Json.faithful_ofFields (nodup_fields _)
      apply forall_fields
      · exact Json.faithful_string
      · intro texts hnodup
        exact Json.faithful_textObject hnodup
      · exact Json.faithful_array (faithful_listToJson children)

theorem faithful_listToJson (nodes : List MarkupNode) :
    ∀ item ∈ listToJson nodes, item.Faithful := by
  match nodes with
  | [] => exact List.forall_mem_nil _
  | node :: rest =>
      rw [listToJson, List.forall_mem_cons]
      exact ⟨faithful_toJson node, faithful_listToJson rest⟩

end

/-- A written node is read back when its children are. -/
theorem ofValue?_toJson_of_children (node : MarkupNode)
    (hchildren : ofItems (listToJson node.children) = node.children) :
    ofValue? node.toJson = some node := by
  obtain ⟨r, hrecord, hfield⟩ := exists_record?_ofFields node.nodup_fields
  have htag : field r "tag" = .string node.tag := hfield "tag" (by decide)
  have hname : field r "elementName" = .string node.elementName :=
    hfield "elementName" (by decide)
  have hattributes : field r "attributes" = .ofTexts node.attributes :=
    hfield "attributes" (by decide)
  have hstyles : field r "styles" = .ofTexts node.styles := hfield "styles" (by decide)
  have hlayout : field r "layout" = .null := hfield "layout" (by decide)
  have hcontent : field r "content" = (node.content.map Json.string).getD .null :=
    hfield "content" (by decide)
  have hbelow : field r "children" =
      (if node.children.isEmpty then none
        else some (Json.array (listToJson node.children))).getD .null :=
    hfield "children" (by decide)
  rw [ofValue?_eq, toJson_eq, hrecord, Option.map_some, ofFields, htag, hname, hattributes,
    hstyles, hlayout, hcontent, hbelow, looseTexts_ofTexts, looseTexts_ofTexts,
    looseText?_content]
  have hself : some (⟨node.tag, node.elementName, node.attributes, node.styles, node.content,
      ofItems (listToJson node.children)⟩ : MarkupNode) = some node := by
    rw [hchildren]
    cases node
    rfl
  rw [← hself]
  cases node.children <;> rfl

mutual

/-- A written node is read back with all below it. -/
theorem ofValue?_toJson (node : MarkupNode) : ofValue? node.toJson = some node := by
  match node with
  | ⟨tag, name, attributes, styles, content, children⟩ =>
      apply ofValue?_toJson_of_children
      exact ofItems_listToJson children

theorem ofItems_listToJson (nodes : List MarkupNode) : ofItems (listToJson nodes) = nodes := by
  match nodes with
  | [] => rfl
  | node :: rest =>
      have hrest := ofItems_listToJson rest
      rw [ofItems] at hrest
      rw [listToJson, ofItems, List.filterMap_cons_some (ofValue?_toJson node), hrest]

end

/-- The shapes in which nodes may be written: as a list, as the tree of a forest, and one node as
itself. -/
inductive WrittenAs : List MarkupNode → Json → Prop
  | list (nodes : List MarkupNode) : WrittenAs nodes (.array (listToJson nodes))
  | forest (nodes : List MarkupNode) :
      WrittenAs nodes (.object [("tree", .array (listToJson nodes))])
  | single (node : MarkupNode) : WrittenAs [node] node.toJson

theorem WrittenAs.faithful {nodes : List MarkupNode} {j : Json} (h : WrittenAs nodes j) :
    j.Faithful := by
  cases h with
  | list => exact Json.faithful_array (faithful_listToJson nodes)
  | forest =>
      show (Json.ofFields [("tree", some (.array (listToJson nodes)))]).Faithful
      apply Json.faithful_ofFields
      · exact List.nodup_singleton "tree"
      · intro field hfield j hj
        cases List.mem_singleton.mp hfield
        cases hj
        exact Json.faithful_array (faithful_listToJson nodes)
  | single node => exact faithful_toJson node

theorem nodeItems?_toJson (node : MarkupNode) : nodeItems? node.toJson = some [node.toJson] := by
  rw [toJson_eq]
  exact nodeItems?_of_no_tree (Json.lookup_present "tree" node.nodup_fields)

/-- In whatever shape nodes are written, they are what its items are read as. -/
theorem WrittenAs.exists_items {nodes : List MarkupNode} {j : Json} (h : WrittenAs nodes j) :
    ∃ items, nodeItems? j = some items ∧ ofItems items = nodes := by
  cases h with
  | list => exact ⟨_, rfl, ofItems_listToJson nodes⟩
  | forest => exact ⟨_, rfl, ofItems_listToJson nodes⟩
  | single node => exact ⟨_, nodeItems?_toJson node, ofItems_listToJson [node]⟩

end MarkupNode

namespace GeneratedCode

open MarkupNode (WrittenAs nodesOfText)

/-- Nodes are read back from their text in every shape that an input may have, each with its texts
in their order and its children, and so the code is the same whatever the shape. -/
theorem survive_every_shape {nodes : List MarkupNode} {j : Json} (h : WrittenAs nodes j)
    (hnesting : j.nesting ≤ Json.maxNesting) :
    nodesOfText j.compact = .ok nodes ∧ ofInput j.compact = .ok (ofNodes nodes) := by
  obtain ⟨items, hitems, hread⟩ := h.exists_items
  have hnodes : nodesOfText j.compact = .ok nodes := by
    rw [MarkupNode.nodesOfText_of_readValue? (h.faithful.readValue?_compact hnesting),
      (MarkupNode.nodesOfValue_eq_ok h.faithful.plain hitems).1, hread]
  constructor
  · exact hnodes
  · rw [ofInput, hnodes]
    rfl

/-- A card whose texts need escapes and whose content is empty, with a note below it. -/
def quotedCard : MarkupNode where
  tag := "div"
  elementName := "\"A\\B\"\n"
  attributes := .ofList [("title", "é\t"), ("data-\"x\"", "")]
  styles := .ofList [("gap", "4px"), ("color", "red")]
  content := some ""
  children := [{ tag := "p", elementName := "Note" }]

/-- The forest of the card. -/
def quotedForest : Json :=
  .object [("tree", .array [quotedCard.toJson])]

theorem survive_every_shape_quotedForest :
    WrittenAs [quotedCard] quotedForest ∧ quotedForest.nesting ≤ Json.maxNesting ∧
      nodesOfText quotedForest.compact = .ok [quotedCard] ∧
      ofInput quotedForest.compact = .ok
        ⟨"<div class=\"a-b\" title=\"é\t\">\n  <p>Note</p>\n</div>",
          ".a-b \x7b\n  gap: 4px;\n  color: red;\n\x7d"⟩ := by
  have hwritten : WrittenAs [quotedCard] quotedForest := .forest [quotedCard]
  have hnesting : quotedForest.nesting ≤ Json.maxNesting := by decide
  have hcode : ofNodes [quotedCard] =
      ⟨"<div class=\"a-b\" title=\"é\t\">\n  <p>Note</p>\n</div>",
        ".a-b \x7b\n  gap: 4px;\n  color: red;\n\x7d"⟩ := by
    decide +kernel
  rw [← hcode]
  exact ⟨hwritten, hnesting, survive_every_shape hwritten hnesting⟩

end GeneratedCode
end DesignMarkup
