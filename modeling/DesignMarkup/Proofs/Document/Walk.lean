import DesignMarkup.Proofs.Document.Tree
import DesignMarkup.Proofs.Outline
import Mathlib.Data.List.Perm.Subperm

/-!
Walks over the outline of a document.  An outline that tells the same of each element as the layers
do is walked through as the layers are listed, and the walk is never cut off.
-/

namespace DesignMarkup

namespace Layer

theorem branches_eq (layer : Layer) :
    layer.branches = (layer.id, layer.children.map id) :: branchesOfList layer.children := by
  cases layer
  rfl

mutual

theorem branches_eq_map_parts (layer : Layer) :
    layer.branches = layer.parts.map fun part => (part.id, part.children.map id) := by
  match layer with
  | ⟨element, data, children⟩ =>
      rw [branches_eq, parts_eq, List.map_cons, branchesOfList_eq_map_parts]

theorem branchesOfList_eq_map_parts (layers : List Layer) :
    branchesOfList layers =
      (partsOfList layers).map fun part => (part.id, part.children.map id) := by
  match layers with
  | [] => rfl
  | layer :: rest =>
      rw [branchesOfList, partsOfList, List.map_append, branches_eq_map_parts layer,
        branchesOfList_eq_map_parts rest]

end

section Walks

variable {o : Outline}

mutual

/-- From a layer whose branches an outline tells, the walk lists the layer and all below it. -/
theorem walks_ids {layer : Layer} (h : ∀ b ∈ layer.branches, o.children b.1 = b.2) :
    o.Walks [layer.id] layer.ids := by
  match layer with
  | ⟨element, data, children⟩ =>
      rw [branches_eq, List.forall_mem_cons] at h
      rw [ids_eq]
      apply Outline.Walks.step
      rw [h.1, List.append_nil]
      exact walks_idsOfList h.2

theorem walks_idsOfList {layers : List Layer}
    (h : ∀ b ∈ branchesOfList layers, o.children b.1 = b.2) :
    o.Walks (layers.map id) (idsOfList layers) := by
  match layers with
  | [] => exact Outline.Walks.done
  | layer :: rest =>
      rw [branchesOfList, List.forall_mem_append] at h
      exact (walks_ids h.1).append (walks_idsOfList h.2)

end

end Walks
end Layer

namespace Document

theorem not_above_self (d : Document) (id : ElementId) : ¬ d.Above id id := by
  rw [above_iff]
  rintro ⟨part, hpart, rfl, hbelow⟩
  have hnodup := d.ids_nodup.sublist (Layer.ids_sublist_of_mem_partsOfList hpart)
  rw [Layer.ids_eq, List.nodup_cons] at hnodup
  exact hnodup.1 hbelow

theorem descendants_sublist (d : Document) (id : ElementId) :
    (d.descendants id).Sublist d.allElements := by
  rw [descendants]
  cases hlayer : d.layer? id with
  | none => exact List.nil_sublist _
  | some layer =>
      have hids := Layer.ids_sublist_of_mem_partsOfList (layer?_eq_some_iff.mp hlayer).1
      rw [Layer.ids_eq] at hids
      exact (List.sublist_cons_self _ _).trans hids

/-- An outline tells what a document does: the same elements at the top and right below each one. -/
structure Tells (d : Document) (o : Outline) : Prop where
  roots : o.roots = d.roots
  children : ∀ id, o.children id = d.children id
  size : o.branches.size = d.size

theorem tells_outline (d : Document) : d.Tells d.outline := by
  constructor
  case roots => rfl
  case size =>
    show (Layer.branchesOfList d.layers).length = (Layer.idsOfList d.layers).length
    rw [← Layer.map_fst_branchesOfList, List.length_map]
  case children =>
    intro id
    rw [children]
    cases hlayer : d.layer? id with
    | some layer =>
        obtain ⟨hmem, rfl⟩ := layer?_eq_some_iff.mp hlayer
        have hbranch : (layer.id, layer.children.map Layer.id) ∈ Layer.branchesOfList d.layers := by
          rw [Layer.branchesOfList_eq_map_parts]
          exact List.mem_map_of_mem hmem
        exact children_outline hbranch
    | none =>
        have hnone : d.outline.branches.find? id = none := by
          rw [OrderedMap.find?_eq_none_iff]
          show id ∉ (Layer.branchesOfList d.layers).map Prod.fst
          rw [Layer.map_fst_branchesOfList, ← Layer.findInList?_isSome_iff, ← layer?, hlayer]
          exact Bool.false_ne_true
        rw [Outline.children, hnone, Option.getD_none]

namespace Tells

variable {d : Document} {o : Outline} (h : d.Tells o)
include h

theorem walks (id : ElementId) : o.Walks (o.children id) (d.descendants id) := by
  rw [h.children, Document.children, descendants]
  cases hlayer : d.layer? id with
  | none => exact Outline.Walks.done
  | some layer =>
      apply Layer.walks_idsOfList
      intro branch hbranch
      rw [Layer.branchesOfList_eq_map_parts] at hbranch
      obtain ⟨part, hpart, rfl⟩ := List.mem_map.mp hbranch
      have hmem := Layer.partsOfList_children_subset_of_list (layer?_eq_some_iff.mp hlayer).1 hpart
      rw [h.children, Document.children, layer?_eq_some_iff.mpr ⟨hmem, rfl⟩]

theorem descendants_eq (id : ElementId) : o.descendants id = d.descendants id := by
  apply Outline.descendants_eq (h.walks id)
  rw [h.size]
  exact (d.descendants_sublist id).length_le

theorem flatMap_eq {layers : List Layer} (hlayers : layers ⊆ Layer.partsOfList d.layers) :
    (layers.map Layer.id).flatMap (fun root => root :: o.descendants root) =
      Layer.idsOfList layers := by
  induction layers with
  | nil => rfl
  | cons layer rest ih =>
      rw [List.cons_subset] at hlayers
      have hlayer := layer?_eq_some_iff.mpr ⟨hlayers.1, rfl⟩
      rw [List.map_cons, List.flatMap_cons, ih hlayers.2, h.descendants_eq, descendants, hlayer,
        Layer.idsOfList, Layer.ids_eq]

/-- The elements are listed as the layers are. -/
theorem allElements_eq : o.allElements = d.allElements := by
  rw [Outline.allElements, h.roots]
  apply h.flatMap_eq
  intro layer hlayer
  exact Layer.mem_partsOfList_of_mem hlayer

end Tells
end Document
end DesignMarkup
