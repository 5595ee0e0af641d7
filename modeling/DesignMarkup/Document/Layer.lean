import DesignMarkup.Element.Basic

/-!
Layers: elements with the data stored on them and the layers below them.  The operations on a list
of layers are stated through the identifiers in it, parents first.
-/

namespace DesignMarkup

/-- An element with its stored data and the layers below it. -/
structure Layer where
  element : Element
  data : OrderedMap String String
  children : List Layer

namespace Layer

/-- The layer of a new element. -/
def leaf (element : Element) : Layer :=
  ⟨element, .empty, []⟩

/-- The identifier of a layer's element. -/
def id (layer : Layer) : ElementId :=
  layer.element.id

mutual

/-- The identifiers of a layer and of all below it, parents first. -/
def ids : Layer → List ElementId
  | ⟨element, _, children⟩ => element.id :: idsOfList children

def idsOfList : List Layer → List ElementId
  | [] => []
  | layer :: rest => layer.ids ++ idsOfList rest

end

mutual

/-- The layer with an identifier, among a layer and all below it. -/
def find? (id : ElementId) : Layer → Option Layer
  | ⟨element, data, children⟩ =>
      if element.id = id then some ⟨element, data, children⟩ else findInList? id children

def findInList? (id : ElementId) : List Layer → Option Layer
  | [] => none
  | layer :: rest =>
      match layer.find? id with
      | some found => some found
      | none => findInList? id rest

end

mutual

/-- The identifier of the layer that has a given one right below it. -/
def parentOf? (id : ElementId) : Layer → Option ElementId
  | ⟨element, _, children⟩ =>
      if id ∈ children.map Layer.id then some element.id else parentInList? id children

def parentInList? (id : ElementId) : List Layer → Option ElementId
  | [] => none
  | layer :: rest =>
      match layer.parentOf? id with
      | some found => some found
      | none => parentInList? id rest

end

mutual

/-- The layer with its part at an identifier changed. -/
def modify (id : ElementId) (change : Layer → Layer) : Layer → Layer
  | ⟨element, data, children⟩ =>
      if element.id = id then change ⟨element, data, children⟩
      else ⟨element, data, modifyInList id change children⟩

def modifyInList (id : ElementId) (change : Layer → Layer) : List Layer → List Layer
  | [] => []
  | layer :: rest => layer.modify id change :: modifyInList id change rest

end

mutual

/-- The layer without what lies below it at an identifier. -/
def prune (id : ElementId) : Layer → Layer
  | ⟨element, data, children⟩ => ⟨element, data, pruneList id children⟩

/-- The layers without the one at an identifier and all below it. -/
def pruneList (id : ElementId) : List Layer → List Layer
  | [] => []
  | layer :: rest =>
      if layer.id = id then pruneList id rest else layer.prune id :: pruneList id rest

end

mutual

/-- The layer without the empty texts among its data and the data below it. -/
def dropEmptyData : Layer → Layer
  | ⟨element, data, children⟩ =>
      ⟨element, data.filter fun _ value => value ≠ "", dropEmptyDataInList children⟩

def dropEmptyDataInList : List Layer → List Layer
  | [] => []
  | layer :: rest => layer.dropEmptyData :: dropEmptyDataInList rest

end

mutual

/-- The identifiers of a layer and of all below it, each with those right below it. -/
def branches : Layer → List (ElementId × List ElementId)
  | ⟨element, _, children⟩ => (element.id, children.map Layer.id) :: branchesOfList children

def branchesOfList : List Layer → List (ElementId × List ElementId)
  | [] => []
  | layer :: rest => layer.branches ++ branchesOfList rest

end

/-- A layer with another one put last below it. -/
def append (child layer : Layer) : Layer :=
  { layer with children := layer.children ++ [child] }

/-- A layer with a text stored under a key. -/
def store (key value : String) (layer : Layer) : Layer :=
  { layer with data := layer.data.insert key value }

theorem ids_eq (layer : Layer) : layer.ids = layer.id :: idsOfList layer.children := by
  cases layer
  rfl

theorem idsOfList_append (left right : List Layer) :
    idsOfList (left ++ right) = idsOfList left ++ idsOfList right := by
  induction left with
  | nil => rfl
  | cons layer rest ih => simp [idsOfList, ih]

@[simp] theorem ids_leaf (element : Element) : (leaf element).ids = [element.id] :=
  rfl

@[simp] theorem ids_store (key value : String) (layer : Layer) :
    (store key value layer).ids = layer.ids := by
  cases layer
  rfl

mutual

theorem map_fst_branches (layer : Layer) : layer.branches.map Prod.fst = layer.ids := by
  match layer with
  | ⟨element, _, children⟩ => simp [branches, ids, map_fst_branchesOfList children]

theorem map_fst_branchesOfList (layers : List Layer) :
    (branchesOfList layers).map Prod.fst = idsOfList layers := by
  match layers with
  | [] => rfl
  | layer :: rest =>
      simp [branchesOfList, idsOfList, map_fst_branches layer, map_fst_branchesOfList rest]

end

mutual

/-- A change that keeps the identifiers of each layer keeps those of the whole. -/
theorem ids_modify {change : Layer → Layer} (h : ∀ layer, (change layer).ids = layer.ids)
    (id : ElementId) (layer : Layer) : (layer.modify id change).ids = layer.ids := by
  match layer with
  | ⟨element, data, children⟩ =>
      rw [modify]
      split
      · exact h _
      · simp [ids, ids_modifyInList h id children]

theorem ids_modifyInList {change : Layer → Layer} (h : ∀ layer, (change layer).ids = layer.ids)
    (id : ElementId) (layers : List Layer) :
    idsOfList (modifyInList id change layers) = idsOfList layers := by
  match layers with
  | [] => rfl
  | layer :: rest =>
      simp [modifyInList, idsOfList, ids_modify h id layer, ids_modifyInList h id rest]

end

mutual

/-- Nothing changes where the identifier does not occur. -/
theorem modify_of_not_mem {id : ElementId} {layer : Layer} (change : Layer → Layer)
    (h : id ∉ layer.ids) : layer.modify id change = layer := by
  match layer with
  | ⟨element, data, children⟩ =>
      rw [ids, List.mem_cons, not_or] at h
      rw [modify, if_neg (fun e => h.1 e.symm), modifyInList_of_not_mem change h.2]

theorem modifyInList_of_not_mem {id : ElementId} {layers : List Layer} (change : Layer → Layer)
    (h : id ∉ idsOfList layers) : modifyInList id change layers = layers := by
  match layers with
  | [] => rfl
  | layer :: rest =>
      rw [idsOfList, List.mem_append, not_or] at h
      rw [modifyInList, modify_of_not_mem change h.1, modifyInList_of_not_mem change h.2]

end

mutual

/-- Where the identifiers are distinct and one of them is `parent`, putting a layer below it adds
the layer's identifiers and no others. -/
theorem ids_modify_append_perm {parent : ElementId} (child : Layer) {layer : Layer}
    (hparent : parent ∈ layer.ids) (hnodup : layer.ids.Nodup) :
    (layer.modify parent (append child)).ids.Perm (layer.ids ++ child.ids) := by
  match layer with
  | ⟨element, data, children⟩ =>
      rw [modify]
      split
      · simp [append, ids, idsOfList_append, idsOfList]
      · rename_i hne
        rw [ids, List.mem_cons] at hparent
        have hmem := hparent.resolve_left fun e => hne e.symm
        rw [ids, List.nodup_cons] at hnodup
        simpa [ids] using ids_modifyInList_append_perm child hmem hnodup.2

theorem ids_modifyInList_append_perm {parent : ElementId} (child : Layer) {layers : List Layer}
    (hparent : parent ∈ idsOfList layers) (hnodup : (idsOfList layers).Nodup) :
    (idsOfList (modifyInList parent (append child) layers)).Perm
      (idsOfList layers ++ child.ids) := by
  match layers with
  | [] => simp [idsOfList] at hparent
  | layer :: rest =>
      rw [idsOfList, List.nodup_append] at hnodup
      rw [modifyInList, idsOfList, idsOfList]
      by_cases hmem : parent ∈ layer.ids
      · have hrest : parent ∉ idsOfList rest := fun h => hnodup.2.2 _ hmem _ h rfl
        rw [modifyInList_of_not_mem _ hrest]
        have hp := (ids_modify_append_perm child hmem hnodup.1).append_right
          (idsOfList rest)
        refine hp.trans ?_
        rw [List.append_assoc, List.append_assoc]
        exact List.perm_append_comm.append_left layer.ids
      · have hrest : parent ∈ idsOfList rest := by
          rw [idsOfList, List.mem_append] at hparent
          exact hparent.resolve_left hmem
        rw [modify_of_not_mem _ hmem, List.append_assoc]
        exact (ids_modifyInList_append_perm child hrest hnodup.2.1).append_left layer.ids

end

mutual

theorem ids_prune_sublist (id : ElementId) (layer : Layer) :
    (layer.prune id).ids.Sublist layer.ids := by
  match layer with
  | ⟨element, data, children⟩ =>
      simpa [prune, ids] using ids_pruneList_sublist id children

theorem ids_pruneList_sublist (id : ElementId) (layers : List Layer) :
    (idsOfList (pruneList id layers)).Sublist (idsOfList layers) := by
  match layers with
  | [] => simp [pruneList, idsOfList]
  | layer :: rest =>
      rw [pruneList]
      split
      · exact (ids_pruneList_sublist id rest).trans (List.sublist_append_right _ _)
      · exact (ids_prune_sublist id layer).append (ids_pruneList_sublist id rest)

end

mutual

theorem find?_isSome_iff (id : ElementId) (layer : Layer) :
    (layer.find? id).isSome = true ↔ id ∈ layer.ids := by
  match layer with
  | ⟨element, data, children⟩ =>
      rw [find?, ids, List.mem_cons]
      split
      · rename_i h
        simp [h]
      · rename_i h
        rw [findInList?_isSome_iff id children]
        exact ⟨Or.inr, fun o => o.resolve_left fun e => h e.symm⟩

theorem findInList?_isSome_iff (id : ElementId) (layers : List Layer) :
    (findInList? id layers).isSome = true ↔ id ∈ idsOfList layers := by
  match layers with
  | [] => simp [findInList?, idsOfList]
  | layer :: rest =>
      rw [findInList?, idsOfList, List.mem_append, ← find?_isSome_iff id layer,
        ← findInList?_isSome_iff id rest]
      split
      · rename_i h
        simp [h]
      · rename_i h
        simp [h]

end

end Layer
end DesignMarkup
