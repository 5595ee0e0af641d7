import DesignMarkup.Forest.Basic

/-!
The tree of a forest: its nodes, and which of them lie above which.
-/

namespace DesignMarkup

namespace ForestNode

mutual

/-- A node and all below it, parents first. -/
def nodes : ForestNode → List ForestNode
  | ⟨tag, id, name, type, attributes, content, styles, layout, children⟩ =>
      ⟨tag, id, name, type, attributes, content, styles, layout, children⟩ :: nodesOfList children

def nodesOfList : List ForestNode → List ForestNode
  | [] => []
  | node :: rest => node.nodes ++ nodesOfList rest

end

theorem nodes_eq (node : ForestNode) : node.nodes = node :: nodesOfList node.children := by
  cases node
  rfl

theorem ids_eq (node : ForestNode) : node.ids = node.elementId :: idsOfList node.children := by
  cases node
  rfl

theorem idsOfList_append (left right : List ForestNode) :
    idsOfList (left ++ right) = idsOfList left ++ idsOfList right := by
  induction left with
  | nil => rfl
  | cons node rest ih => simp [idsOfList, ih]

theorem nodesOfList_append (left right : List ForestNode) :
    nodesOfList (left ++ right) = nodesOfList left ++ nodesOfList right := by
  induction left with
  | nil => rfl
  | cons node rest ih => simp [nodesOfList, ih]

mutual

theorem map_elementId_nodes (node : ForestNode) : node.nodes.map elementId = node.ids := by
  match node with
  | ⟨_, _, _, _, _, _, _, _, children⟩ => simp [nodes, ids, map_elementId_nodesOfList children]

theorem map_elementId_nodesOfList (trees : List ForestNode) :
    (nodesOfList trees).map elementId = idsOfList trees := by
  match trees with
  | [] => rfl
  | node :: rest =>
      simp [nodesOfList, idsOfList, map_elementId_nodes node, map_elementId_nodesOfList rest]

end

theorem elementId_mem_idsOfList {trees : List ForestNode} {node : ForestNode}
    (h : node ∈ nodesOfList trees) : node.elementId ∈ idsOfList trees := by
  rw [← map_elementId_nodesOfList]
  exact List.mem_map_of_mem h

theorem mem_nodesOfList_of_mem {trees : List ForestNode} {node : ForestNode} (h : node ∈ trees) :
    node ∈ nodesOfList trees := by
  induction trees with
  | nil => cases h
  | cons first rest ih =>
      rw [nodesOfList, nodes_eq]
      rcases List.mem_cons.mp h with rfl | hrest
      · exact List.mem_append_left _ List.mem_cons_self
      · exact List.mem_append_right _ (ih hrest)

mutual

/-- What lies below a node lies below the tree that the node is in. -/
theorem idsOfList_children_subset {tree node : ForestNode} (h : node ∈ tree.nodes) :
    idsOfList node.children ⊆ idsOfList tree.children := by
  match tree with
  | ⟨_, _, _, _, _, _, _, _, children⟩ =>
      rcases List.mem_cons.mp h with rfl | hbelow
      · exact List.Subset.refl _
      · exact idsOfList_children_subset_of_list hbelow

theorem idsOfList_children_subset_of_list {trees : List ForestNode} {node : ForestNode}
    (h : node ∈ nodesOfList trees) : idsOfList node.children ⊆ idsOfList trees := by
  match trees with
  | [] => cases h
  | tree :: rest =>
      rcases List.mem_append.mp h with htree | hrest
      · intro id hid
        rw [idsOfList, ids_eq]
        have hbelow := idsOfList_children_subset htree hid
        exact List.mem_append_left _ (List.mem_cons_of_mem _ hbelow)
      · exact List.subset_append_of_subset_right _ (idsOfList_children_subset_of_list hrest)

end

theorem idsOfList_children_subset_ids {tree node : ForestNode} (h : node ∈ tree.nodes) :
    idsOfList node.children ⊆ tree.ids := by
  rw [ids_eq]
  exact List.subset_cons_of_subset _ (idsOfList_children_subset h)

/-- Where identifiers are distinct, nothing lies above the roots. -/
theorem root_not_below {trees : List ForestNode} (hnodup : (idsOfList trees).Nodup)
    {root node : ForestNode} (hroot : root ∈ trees) (hnode : node ∈ nodesOfList trees) :
    root.elementId ∉ idsOfList node.children := by
  induction trees with
  | nil => cases hroot
  | cons tree rest ih =>
      rw [idsOfList, List.nodup_append] at hnodup
      obtain ⟨htree, hrest, hdisjoint⟩ := hnodup
      intro hbelow
      rcases List.mem_append.mp hnode with hnodeTree | hnodeRest
      · rcases List.mem_cons.mp hroot with rfl | hrootRest
        · rw [ids_eq, List.nodup_cons] at htree
          exact htree.1 (idsOfList_children_subset hnodeTree hbelow)
        · have hroot := elementId_mem_idsOfList (mem_nodesOfList_of_mem hrootRest)
          exact hdisjoint _ (idsOfList_children_subset_ids hnodeTree hbelow) _ hroot rfl
      · rcases List.mem_cons.mp hroot with rfl | hrootRest
        · have hroot : root.elementId ∈ root.ids := by
            rw [ids_eq]
            exact List.mem_cons_self
          exact hdisjoint _ hroot _ (idsOfList_children_subset_of_list hnodeRest hbelow) rfl
        · exact ih hrest hrootRest hnodeRest hbelow

mutual

/-- Where identifiers are distinct, a node that lies above a child lies above the parent, unless it
is the parent. -/
theorem above_parent {tree : ForestNode} (hnodup : tree.ids.Nodup) {parent child node : ForestNode}
    (hparent : parent ∈ tree.nodes) (hchild : child ∈ parent.children) (hnode : node ∈ tree.nodes)
    (hbelow : child.elementId ∈ idsOfList node.children) :
    node = parent ∨ parent.elementId ∈ idsOfList node.children := by
  match tree with
  | ⟨_, _, _, _, _, _, _, _, children⟩ =>
      rw [ids, List.nodup_cons] at hnodup
      rcases List.mem_cons.mp hnode with rfl | hnodeBelow
      · rcases List.mem_cons.mp hparent with rfl | hparentBelow
        · exact .inl rfl
        · exact .inr (elementId_mem_idsOfList hparentBelow)
      · rcases List.mem_cons.mp hparent with rfl | hparentBelow
        · exact absurd hbelow (root_not_below hnodup.2 hchild hnodeBelow)
        · exact above_parent_of_list hnodup.2 hparentBelow hchild hnodeBelow hbelow

theorem above_parent_of_list {trees : List ForestNode} (hnodup : (idsOfList trees).Nodup)
    {parent child node : ForestNode} (hparent : parent ∈ nodesOfList trees)
    (hchild : child ∈ parent.children) (hnode : node ∈ nodesOfList trees)
    (hbelow : child.elementId ∈ idsOfList node.children) :
    node = parent ∨ parent.elementId ∈ idsOfList node.children := by
  match trees with
  | [] => cases hparent
  | tree :: rest =>
      rw [idsOfList, List.nodup_append] at hnodup
      obtain ⟨htree, hrest, hdisjoint⟩ := hnodup
      have hchildId := elementId_mem_idsOfList (mem_nodesOfList_of_mem hchild)
      rcases List.mem_append.mp hparent with hparentTree | hparentRest
      · rcases List.mem_append.mp hnode with hnodeTree | hnodeRest
        · exact above_parent htree hparentTree hchild hnodeTree hbelow
        · have hinTree := idsOfList_children_subset_ids hparentTree hchildId
          have hinRest := idsOfList_children_subset_of_list hnodeRest hbelow
          exact absurd rfl (hdisjoint _ hinTree _ hinRest)
      · rcases List.mem_append.mp hnode with hnodeTree | hnodeRest
        · have hinTree := idsOfList_children_subset_ids hnodeTree hbelow
          have hinRest := idsOfList_children_subset_of_list hparentRest hchildId
          exact absurd rfl (hdisjoint _ hinTree _ hinRest)
        · exact above_parent_of_list hrest hparentRest hchild hnodeRest hbelow

end

/-- The identifier `x` is that of a node that has `y` somewhere below it. -/
def Over (trees : List ForestNode) (x y : ElementId) : Prop :=
  ∃ node ∈ nodesOfList trees, node.elementId = x ∧ y ∈ idsOfList node.children

theorem not_over_nil {x y : ElementId} : ¬ Over [] x y := by
  rintro ⟨node, hnode, -⟩
  cases hnode

theorem over_cons_iff {node : ForestNode} {rest : List ForestNode} {x y : ElementId} :
    Over (node :: rest) x y ↔
      (node.elementId = x ∧ y ∈ idsOfList node.children) ∨
        Over node.children x y ∨ Over rest x y := by
  simp only [Over, nodesOfList, nodes_eq, List.cons_append, List.mem_cons, List.mem_append,
    or_and_right, exists_or, exists_eq_left]

theorem over_append_iff {left right : List ForestNode} {x y : ElementId} :
    Over (left ++ right) x y ↔ Over left x y ∨ Over right x y := by
  simp only [Over, nodesOfList_append, List.mem_append, or_and_right, exists_or]

end ForestNode

namespace Forest

/-- The nodes of a forest, parents first. -/
def nodes (forest : Forest) : List ForestNode :=
  ForestNode.nodesOfList forest.tree

/-- The element `x` lies above the element `y` in a forest, any number of levels. -/
def Above (forest : Forest) (x y : ElementId) : Prop :=
  ForestNode.Over forest.tree x y

variable {forest : Forest}

theorem root_mem_ids {root : ForestNode} (h : root ∈ forest.tree) :
    root.elementId ∈ forest.ids :=
  ForestNode.elementId_mem_idsOfList (ForestNode.mem_nodesOfList_of_mem h)

theorem elementId_mem_ids {node : ForestNode} (h : node ∈ forest.nodes) :
    node.elementId ∈ forest.ids :=
  ForestNode.elementId_mem_idsOfList h

theorem not_above_root (hnodup : forest.ids.Nodup) {root : ForestNode} (hroot : root ∈ forest.tree)
    (x : ElementId) : ¬ forest.Above x root.elementId := by
  rintro ⟨node, hnode, -, hbelow⟩
  exact ForestNode.root_not_below hnodup hroot hnode hbelow

section Child

variable {parent child : ForestNode} (hparent : parent ∈ forest.nodes)
  (hchild : child ∈ parent.children)
include hparent hchild

theorem above_child : forest.Above parent.elementId child.elementId :=
  ⟨parent, hparent, rfl,
    ForestNode.elementId_mem_idsOfList (ForestNode.mem_nodesOfList_of_mem hchild)⟩

theorem child_mem_ids : child.elementId ∈ forest.ids := by
  obtain ⟨node, hnode, -, hbelow⟩ := above_child hparent hchild
  exact ForestNode.idsOfList_children_subset_of_list hnode hbelow

/-- Whatever lies above a child is its parent or lies above the parent. -/
theorem above_parent (hnodup : forest.ids.Nodup) {x : ElementId}
    (habove : forest.Above x child.elementId) :
    x = parent.elementId ∨ forest.Above x parent.elementId := by
  obtain ⟨node, hnode, rfl, hbelow⟩ := habove
  rcases ForestNode.above_parent_of_list hnodup hparent hchild hnode hbelow with rfl | hover
  · exact .inl rfl
  · exact .inr ⟨node, hnode, rfl, hover⟩

end Child
end Forest
end DesignMarkup
