import DesignMarkup.Proofs.Forest.Tree
import DesignMarkup.Proofs.Forest.Walk
import DesignMarkup.Proofs.Tag.Store

/-!
The forest of a store is the one that the tagged elements induce in the document: it has these
elements and no others, in the order of the document, and one of them lies above another exactly
where it does in the document.
-/

namespace DesignMarkup

/-- A node tells of its element what the record tells. -/
structure ForestNode.Carries (node : ForestNode) (r : TagRecord) : Prop where
  tag : node.tag = r.tag
  elementId : node.elementId = r.elementId
  elementName : node.elementName = r.elementName
  elementType : node.elementType = r.elementType
  attributes : node.attributes = r.properties
  content : node.content = r.content
  styles : node.styles = r.styles
  layout : node.layout = r.layout

namespace Forest

/-- The forest that the records of a store induce in a document. -/
structure Induced (d : Document) (store : TagStore) (forest : Forest) : Prop where
  ids_eq : forest.ids = d.allElements.filter store.contains
  ids_nodup : forest.ids.Nodup
  above_iff : ∀ x ∈ forest.ids, ∀ y ∈ forest.ids, forest.Above x y ↔ d.Above x y
  /-- A root has no tagged element above it. -/
  root_top : ∀ root ∈ forest.tree, ∀ x ∈ forest.ids, ¬ d.Above x root.elementId
  /-- A node is the nearest tagged element above its children. -/
  parent_nearest : ∀ parent ∈ forest.nodes, ∀ child ∈ parent.children,
    d.Above parent.elementId child.elementId ∧
      ∀ x ∈ forest.ids, d.Above x child.elementId →
        x = parent.elementId ∨ d.Above x parent.elementId
  carries : ∀ node ∈ forest.nodes, ∃ r, store.find? node.elementId = some r ∧ node.Carries r

theorem carries_ofRecord (r : TagRecord) (below : List ForestNode) :
    (ForestNode.ofRecord r below).Carries r :=
  ⟨rfl, rfl, rfl, rfl, rfl, rfl, rfl, rfl⟩

section Keep

variable {store : TagStore} {id : ElementId}

theorem keep_of_find? {r : TagRecord} (h : store.find? id = some r) (below : List ForestNode) :
    keep store id below = [ForestNode.ofRecord r below] := by
  rw [keep, h]

theorem keep_of_not_contains (h : ¬ store.contains id = true) (below : List ForestNode) :
    keep store id below = below := by
  have hnone : store.find? id = none := Option.not_isSome_iff_eq_none.mp h
  rw [keep, hnone]

end Keep

theorem exists_find?_of_contains {store : TagStore} {id : ElementId}
    (h : store.contains id = true) : ∃ r, store.find? id = some r :=
  Option.isSome_iff_exists.mp h

section Kept

variable {store : TagStore}

mutual

/-- The elements that are kept of a layer are those with a record, in their order. -/
theorem ids_kept (hfiled : store.Filed) (layer : Layer) :
    ForestNode.idsOfList (kept store layer) = layer.ids.filter store.contains := by
  match layer with
  | ⟨element, data, children⟩ =>
      have hbelow := ids_keptOfList hfiled children
      rw [kept, Layer.ids]
      by_cases hcontains : store.contains element.id = true
      · obtain ⟨r, hr⟩ := exists_find?_of_contains hcontains
        rw [keep_of_find? hr, List.filter_cons_of_pos hcontains, ← hbelow, ← hfiled _ _ hr]
        simp [ForestNode.idsOfList, ForestNode.ids, ForestNode.ofRecord]
      · rw [keep_of_not_contains hcontains, List.filter_cons_of_neg hcontains, hbelow]

theorem ids_keptOfList (hfiled : store.Filed) (layers : List Layer) :
    ForestNode.idsOfList (keptOfList store layers) =
      (Layer.idsOfList layers).filter store.contains := by
  match layers with
  | [] => rfl
  | layer :: rest =>
      rw [keptOfList, ForestNode.idsOfList_append, Layer.idsOfList, List.filter_append,
        ids_kept hfiled layer, ids_keptOfList hfiled rest]

end

mutual

theorem carries_kept (hfiled : store.Filed) (layer : Layer) {node : ForestNode}
    (hnode : node ∈ ForestNode.nodesOfList (kept store layer)) :
    ∃ r, store.find? node.elementId = some r ∧ node.Carries r := by
  match layer with
  | ⟨element, data, children⟩ =>
      rw [kept] at hnode
      by_cases hcontains : store.contains element.id = true
      · obtain ⟨r, hr⟩ := exists_find?_of_contains hcontains
        rw [keep_of_find? hr, ForestNode.nodesOfList, ForestNode.nodes_eq, ForestNode.nodesOfList,
          List.append_nil] at hnode
        rcases List.mem_cons.mp hnode with rfl | hbelow
        · refine ⟨r, ?_, carries_ofRecord r _⟩
          rw [ForestNode.ofRecord, hfiled _ _ hr]
          exact hr
        · exact carries_keptOfList hfiled children hbelow
      · rw [keep_of_not_contains hcontains] at hnode
        exact carries_keptOfList hfiled children hnode

theorem carries_keptOfList (hfiled : store.Filed) (layers : List Layer) {node : ForestNode}
    (hnode : node ∈ ForestNode.nodesOfList (keptOfList store layers)) :
    ∃ r, store.find? node.elementId = some r ∧ node.Carries r := by
  match layers with
  | [] => cases hnode
  | layer :: rest =>
      rw [keptOfList, ForestNode.nodesOfList_append] at hnode
      rcases List.mem_append.mp hnode with hlayer | hrest
      · exact carries_kept hfiled layer hlayer
      · exact carries_keptOfList hfiled rest hrest

end

mutual

/-- Of two elements with records, one lies above the other in what is kept of a layer exactly where
it does in the layer. -/
theorem over_kept_iff (hfiled : store.Filed) {x y : ElementId} (hx : store.contains x = true)
    (hy : store.contains y = true) (layer : Layer) :
    ForestNode.Over (kept store layer) x y ↔
      (layer.id = x ∧ y ∈ Layer.idsOfList layer.children) ∨ Layer.Over layer.children x y := by
  match layer with
  | ⟨element, data, children⟩ =>
      have hbelow := over_keptOfList_iff hfiled hx hy children
      rw [kept]
      by_cases hcontains : store.contains element.id = true
      · obtain ⟨r, hr⟩ := exists_find?_of_contains hcontains
        rw [keep_of_find? hr, ForestNode.over_cons_iff]
        simp only [ForestNode.ofRecord, hfiled _ _ hr, ids_keptOfList hfiled, List.mem_filter, hy,
          hbelow, ForestNode.not_over_nil, and_true, or_false, Layer.id]
      · have hne : element.id ≠ x := by
          rintro rfl
          exact hcontains hx
        rw [keep_of_not_contains hcontains, hbelow]
        simp only [Layer.id, hne, false_and, false_or]

theorem over_keptOfList_iff (hfiled : store.Filed) {x y : ElementId}
    (hx : store.contains x = true) (hy : store.contains y = true) (layers : List Layer) :
    ForestNode.Over (keptOfList store layers) x y ↔ Layer.Over layers x y := by
  match layers with
  | [] => simp only [keptOfList, ForestNode.not_over_nil, Layer.not_over_nil]
  | layer :: rest =>
      rw [keptOfList, ForestNode.over_append_iff, Layer.over_cons_iff,
        over_kept_iff hfiled hx hy layer, over_keptOfList_iff hfiled hx hy rest, or_assoc]

end

end Kept

section Build

variable {d : Document} {store : TagStore} {metadata : ForestMetadata}

theorem ids_build (hfiled : store.Filed) :
    (build store d.outline metadata).ids = d.allElements.filter store.contains := by
  rw [ids, tree_build, ids_keptOfList hfiled, Document.allElements]

theorem ids_build_nodup (hfiled : store.Filed) :
    (build store d.outline metadata).ids.Nodup := by
  rw [ids_build hfiled]
  exact d.ids_nodup.filter _

theorem above_build_iff (hfiled : store.Filed) {x y : ElementId}
    (hx : x ∈ (build store d.outline metadata).ids)
    (hy : y ∈ (build store d.outline metadata).ids) :
    (build store d.outline metadata).Above x y ↔ d.Above x y := by
  rw [ids_build hfiled, List.mem_filter] at hx hy
  rw [Above, tree_build, over_keptOfList_iff hfiled hx.2 hy.2, Document.above_iff]

end Build

/-- The forest of a store is the induced one, and stores that agree as maps have the same. -/
theorem induced_build (d : Document) (store : TagStore) (metadata : ForestMetadata)
    (hfiled : store.Filed) :
    Induced d store (build store d.outline metadata) ∧
      ∀ other : TagStore, (∀ id, other.find? id = store.find? id) →
        build other d.outline metadata = build store d.outline metadata := by
  have hnodup : (build store d.outline metadata).ids.Nodup := ids_build_nodup hfiled
  constructor
  case right =>
      intro other hother
      exact build_congr hother d.outline metadata
  constructor
  case ids_eq => exact ids_build hfiled
  case ids_nodup => exact hnodup
  case above_iff =>
      intro x hx y hy
      exact above_build_iff hfiled hx hy
  case root_top =>
      intro root hroot x hx habove
      have hforest := (above_build_iff hfiled hx (root_mem_ids hroot)).mpr habove
      exact not_above_root hnodup hroot x hforest
  case parent_nearest =>
      intro parent hparent child hchild
      have hparentId := elementId_mem_ids hparent
      have hchildId := child_mem_ids hparent hchild
      constructor
      · exact (above_build_iff hfiled hparentId hchildId).mp (above_child hparent hchild)
      · intro x hx habove
        have hforest := (above_build_iff hfiled hx hchildId).mpr habove
        rcases above_parent hparent hchild hnodup hforest with heq | hover
        · exact .inl heq
        · exact .inr ((above_build_iff hfiled hx hparentId).mp hover)
  case carries =>
      intro node hnode
      rw [nodes, tree_build] at hnode
      exact carries_keptOfList hfiled d.layers hnode

/-- A page with a title in a wrapper. -/
def titlePage : Document where
  fileName := "Landing"
  pageName := "Home"
  selection := []
  layers :=
    [⟨⟨⟨"page", rfl⟩, "Page", .frame, none, none, none⟩, .empty,
      [⟨⟨⟨"wrapper", rfl⟩, "Wrapper", .group, none, none, none⟩, .empty,
        [.leaf ⟨⟨"title", rfl⟩, "Title", .text, some "Welcome", none, none⟩]⟩]⟩]
  ids_nodup := by decide

/-- Records of the page and of its title, the later element first; the wrapper has none. -/
def titleStore : TagStore :=
  (TagStore.empty.insert (.ofElement "h1" .empty
    ⟨⟨"title", rfl⟩, "Title", .text, some "Welcome", none, none⟩)).insert
      (.ofElement "main" .empty ⟨⟨"page", rfl⟩, "Page", .frame, none, none, none⟩)

theorem induced_build_titlePage :
    titleStore.Filed ∧ Induced titlePage titleStore (build titleStore titlePage.outline {}) ∧
      (build titleStore titlePage.outline {}).ids = [⟨"page", rfl⟩, ⟨"title", rfl⟩] := by
  have hfiled : titleStore.Filed := (TagStore.filed_empty.insert _).insert _
  have hinduced := (induced_build titlePage titleStore {} hfiled).1
  refine ⟨hfiled, hinduced, ?_⟩
  rw [hinduced.ids_eq]
  decide

end Forest
end DesignMarkup
