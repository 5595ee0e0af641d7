import DesignMarkup.Forest.Encoding
import DesignMarkup.Proofs.Json.Plain
import DesignMarkup.Proofs.Tag.Encoding

/-!
Written forests.  The tree that is written for a forest is made of texts, objects of texts and the
nodes below each node, so that all of its parts have values and no object in it repeats a name.
The forest is read back from it, with all of its nodes in their places.
-/

namespace DesignMarkup

namespace ForestNode

/-- The fields of a node in the order in which they are written. -/
def fields (node : ForestNode) : List (String × Option Json) :=
  [("tag", some (.string node.tag)), ("elementId", some node.elementId.toJson),
    ("elementName", some (.string node.elementName)),
    ("elementType", node.elementType.map ElementKind.toJson),
    ("attributes", some (.ofTexts node.attributes)), ("content", node.content.map .string),
    ("styles", node.styles.map Bag.toJson), ("layout", node.layout.map Bag.toJson),
    ("children",
      if node.children.isEmpty then none else some (.array (listToJson node.children)))]

theorem toJson_eq (node : ForestNode) : node.toJson = .ofFields node.fields := by
  cases node
  rw [toJson]
  rfl

theorem distinct_fields (node : ForestNode) : Json.Distinct fieldNames node.fields :=
  ⟨rfl, by decide⟩

/-- What holds of texts, of objects of texts and of the children holds of every written field. -/
theorem forall_fields {P : Json → Prop} (node : ForestNode) (hstring : ∀ s, P (.string s))
    (hobject : ∀ texts, (texts.map Prod.fst).Nodup → P (Json.textObject texts))
    (hchildren : P (.array (listToJson node.children))) :
    ∀ field ∈ node.fields, ∀ j ∈ field.2, P j := by
  intro field hfield j hj
  simp only [fields, List.mem_cons, List.not_mem_nil, or_false] at hfield
  rcases hfield with rfl | rfl | rfl | rfl | rfl | rfl | rfl | rfl | rfl
  all_goals simp only [Option.mem_def, Option.some.injEq, Option.map_eq_some_iff] at hj
  · exact hj ▸ hstring node.tag
  · exact hj ▸ hstring node.elementId.text
  · exact hj ▸ hstring node.elementName
  · obtain ⟨kind, -, rfl⟩ := hj
    exact hstring kind.name
  · exact hj ▸ hobject _ node.attributes.keys_nodup
  · obtain ⟨text, -, rfl⟩ := hj
    exact hstring text
  · obtain ⟨bag, -, rfl⟩ := hj
    exact hobject _ (Bag.nodup_keys_entries Style.keys_nodup bag)
  · obtain ⟨bag, -, rfl⟩ := hj
    exact hobject _ (Bag.nodup_keys_entries Style.layoutKeys_nodup bag)
  · split at hj
    · cases hj
    · exact Option.some.inj hj ▸ hchildren

mutual

theorem faithful_toJson (node : ForestNode) : node.toJson.Faithful := by
  match node with
  | ⟨tag, id, name, kind, attributes, content, styles, layout, children⟩ =>
      rw [toJson_eq]
      apply Json.faithful_ofFields (distinct_fields _).nodup_fields
      apply forall_fields
      · exact Json.faithful_string
      · intro texts hnodup
        exact Json.faithful_textObject hnodup
      · exact Json.faithful_array (faithful_listToJson children)

theorem faithful_listToJson (nodes : List ForestNode) :
    ∀ item ∈ listToJson nodes, item.Faithful := by
  match nodes with
  | [] => exact List.forall_mem_nil _
  | node :: rest =>
      rw [listToJson, List.forall_mem_cons]
      exact ⟨faithful_toJson node, faithful_listToJson rest⟩

end

/-- A written node is read back when those below it are. -/
theorem ofJsonWithin?_toJson_of_children (payload : Json.NoPayload) (node : ForestNode)
    {depth : Nat} (hchildren :
      (listToJson node.children).mapM (ofJsonWithin? payload depth) = some node.children) :
    ofJsonWithin? payload (depth + 1) node.toJson = some node := by
  have h := node.distinct_fields
  have htag := h.required_eq "tag" rfl Json.text?
  have hid := h.required_eq "elementId" rfl ElementId.ofJson?
  have hname := h.withDefault_eq "elementName" rfl "" Json.text?
  have hkind := h.optional_eq "elementType" rfl (ElementKind.ofJson?_toJson payload)
    (fun _ => Json.noConfusion)
  have hattributes := h.withDefault_eq "attributes" rfl .empty Json.texts?
  have hcontent := h.optional_eq "content" rfl Json.text?_string (fun _ => Json.noConfusion)
  have hstyles := h.optional_eq "styles" rfl StyleBag.ofJson?_toJson (fun _ => Json.noConfusion)
  have hlayout := h.optional_eq "layout" rfl LayoutBag.ofJson?_toJson
    (fun _ => Json.noConfusion)
  have hbelow : (Json.Record.written node.fields).withDefault "children" []
      (Json.list? (ofJsonWithin? payload depth)) = some node.children := by
    rw [Json.Record.withDefault, Json.Record.written, Json.lookup_present _ h.nodup_fields]
    cases hempty : node.children.isEmpty with
    | true => simp [fields, OrderedMap.lookup, List.isEmpty_iff.mp hempty]
    | false => simpa [fields, OrderedMap.lookup, hempty, Json.list?] using hchildren
  rw [toJson_eq, ofJsonWithin?, Json.record?_ofFields h]
  simp only [Option.bind_eq_bind, Option.bind_some, htag, hid, hname, hkind, hattributes,
    hcontent, hstyles, hlayout, hbelow, Json.text?_string, Json.texts?_ofTexts,
    ElementId.ofJson?_toJson]
  cases node
  rfl

/-- The children of a node lie two levels deeper than the node: in their array and in its object. -/
theorem nesting_children_lt (node : ForestNode) :
    Json.nestingItems (listToJson node.children) < node.toJson.nesting := by
  rw [toJson_eq, Json.ofFields, Json.nesting]
  apply Nat.lt_succ_of_le
  cases hchildren : node.children with
  | nil => exact Nat.zero_le _
  | cons child rest =>
      have hfield : ("children", some (Json.array (listToJson (child :: rest)))) ∈
          node.fields := by
        simp [fields, hchildren]
      have hbound := Json.nesting_le_of_mem (Json.mem_present.mpr hfield)
      rw [Json.nesting] at hbound
      exact Nat.le_of_succ_le hbound

mutual

/-- A written node is read back with all below it. -/
theorem ofJsonWithin?_toJson (payload : Json.NoPayload) (node : ForestNode) {depth : Nat}
    (hdepth : node.toJson.nesting ≤ depth) :
    ofJsonWithin? payload depth node.toJson = some node := by
  match node with
  | ⟨tag, id, name, kind, attributes, content, styles, layout, children⟩ =>
      have hbelow := Nat.lt_of_lt_of_le (nesting_children_lt _) hdepth
      obtain ⟨depth, rfl⟩ := Nat.exists_eq_add_one.mpr (Nat.zero_lt_of_lt hbelow)
      apply ofJsonWithin?_toJson_of_children
      exact mapM_ofJsonWithin? payload children (Nat.le_of_lt_succ hbelow)

theorem mapM_ofJsonWithin? (payload : Json.NoPayload) (nodes : List ForestNode) {depth : Nat}
    (hdepth : Json.nestingItems (listToJson nodes) ≤ depth) :
    (listToJson nodes).mapM (ofJsonWithin? payload depth) = some nodes := by
  match nodes with
  | [] => rfl
  | node :: rest =>
      rw [listToJson, Json.nestingItems, Nat.max_le] at hdepth
      rw [listToJson, List.mapM_cons, ofJsonWithin?_toJson payload node hdepth.1,
        mapM_ofJsonWithin? payload rest hdepth.2]
      rfl

end

theorem list?_ofJson? (payload : Json.NoPayload) (nodes : List ForestNode) :
    Json.list? (ofJson? payload) (.array (listToJson nodes)) = some nodes := by
  induction nodes with
  | nil => rfl
  | cons node rest ih =>
      have hnode : ofJson? payload node.toJson = some node :=
        ofJsonWithin?_toJson payload node (Nat.le_refl _)
      rw [Json.list?] at ih
      rw [listToJson, Json.list?, List.mapM_cons, hnode, ih]
      rfl

end ForestNode

theorem ForestMetadata.ofJson?_toJson (m : ForestMetadata) : ofJson? m.toJson = some m := by
  have hnodup : fieldNames.Nodup := by decide
  rw [ofJson?, toJson, Json.record?_of_names hnodup rfl]
  simp [Json.Record.withDefault, OrderedMap.lookup]

namespace Forest

/-- A forest is read back from the tree that is written for it. -/
theorem ofJson?_toJson (payload : Json.NoPayload) (forest : Forest) :
    ofJson? payload forest.toJson = some forest := by
  have hmetadata := forest.metadata.ofJson?_toJson
  have htree := ForestNode.list?_ofJson? payload forest.tree
  have hnodup : fieldNames.Nodup := by decide
  rw [ofJson?, toJson, Json.record?_of_names hnodup rfl]
  simp [Json.Record.withDefault, OrderedMap.lookup, hmetadata, htree]

theorem faithful_toJson (forest : Forest) : forest.toJson.Faithful := by
  have htree := Json.faithful_array (ForestNode.faithful_listToJson forest.tree)
  constructor
  · exact ⟨⟨trivial, trivial, trivial, trivial, trivial, trivial⟩, htree.exact, trivial⟩
  · apply Json.isPlain_object
    · exact (by decide : ["metadata", "tree"].Nodup)
    · intro member hmem
      simp only [List.mem_cons, List.not_mem_nil, or_false] at hmem
      rcases hmem with rfl | rfl
      · rfl
      · exact htree.plain

/-- The text of a forest that does not nest too deep holds the forest. -/
theorem ofText?_toText {forest : Forest} (h : forest.toJson.nesting ≤ Json.maxNesting) :
    ofText? forest.toText = some forest :=
  (Json.bind_read?_compact forest.faithful_toJson.exact h (ofJson? .null)).trans
    (forest.ofJson?_toJson .null)

end Forest
end DesignMarkup
