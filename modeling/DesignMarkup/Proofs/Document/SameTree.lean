import DesignMarkup.Proofs.Document.Nesting
import DesignMarkup.Proofs.Document.Walk

/-!
Documents with the same tree.  Storing texts changes neither the elements of a document nor their
places, and neither does opening its snapshot; what is told by the tree alone stays as it was.
-/

namespace DesignMarkup

namespace Layer

theorem map_id_modifyInList_store (id : ElementId) (key value : String) (layers : List Layer) :
    (modifyInList id (store key value) layers).map Layer.id = layers.map Layer.id := by
  induction layers with
  | nil => rfl
  | cons layer rest ih =>
      obtain ⟨element, data, children⟩ := layer
      rw [modifyInList, List.map_cons, List.map_cons, ih, modify]
      split <;> rfl

mutual

/-- Storing a text leaves right below each element what was there. -/
theorem branches_modify_store (id : ElementId) (key value : String) (layer : Layer) :
    (layer.modify id (store key value)).branches = layer.branches := by
  match layer with
  | ⟨element, data, children⟩ =>
      by_cases hid : element.id = id
      · simp [modify, store, hid, branches]
      · simp [modify, hid, branches, map_id_modifyInList_store,
          branchesOfList_modifyInList_store id key value children]

theorem branchesOfList_modifyInList_store (id : ElementId) (key value : String)
    (layers : List Layer) :
    branchesOfList (modifyInList id (store key value) layers) = branchesOfList layers := by
  match layers with
  | [] => rfl
  | layer :: rest =>
      simp [modifyInList, branchesOfList, branches_modify_store id key value layer,
        branchesOfList_modifyInList_store id key value rest]

end

end Layer

namespace Document

theorem outline_write {d d' : Document} {id : ElementId} {key value : String}
    (h : d.write id key value = .ok d') : d'.outline = d.outline := by
  have hlayers := (layers_of_write h).2
  have hroots : d'.roots = d.roots := by
    rw [roots, roots, hlayers, Layer.map_id_modifyInList_store]
  have hbranches : d'.outline.branches = d.outline.branches := by
    apply OrderedMap.ext_entries
    show Layer.branchesOfList d'.layers = Layer.branchesOfList d.layers
    rw [hlayers, Layer.branchesOfList_modifyInList_store]
  rw [outline, Outline.mk.injEq]
  exact ⟨hroots, hbranches⟩

theorem selection_write {d d' : Document} {id : ElementId} {key value : String}
    (h : d.write id key value = .ok d') : d'.selection = d.selection := by
  rw [write] at h
  split at h
  · cases h
    rfl
  · cases h

/-- Documents that show the same elements in the same places and the same selection, whatever is
stored on the elements. -/
structure SameTree (d d' : Document) : Prop where
  selection_eq : d'.selection = d.selection
  outline_eq : d'.outline = d.outline
  element?_eq : ∀ id, d'.element? id = d.element? id
  levels_eq : d'.levels = d.levels

namespace SameTree

variable {d d' : Document}

theorem refl (d : Document) : d.SameTree d :=
  ⟨rfl, rfl, fun _ => rfl, rfl⟩

theorem trans {d'' : Document} (h : d.SameTree d') (h' : d'.SameTree d'') : d.SameTree d'' where
  selection_eq := h'.selection_eq.trans h.selection_eq
  outline_eq := h'.outline_eq.trans h.outline_eq
  element?_eq id := (h'.element?_eq id).trans (h.element?_eq id)
  levels_eq := h'.levels_eq.trans h.levels_eq

theorem symm (h : d.SameTree d') : d'.SameTree d where
  selection_eq := h.selection_eq.symm
  outline_eq := h.outline_eq.symm
  element?_eq id := (h.element?_eq id).symm
  levels_eq := h.levels_eq.symm

theorem allElements_eq (h : d.SameTree d') : d'.allElements = d.allElements := by
  rw [← d'.tells_outline.allElements_eq, h.outline_eq, d.tells_outline.allElements_eq]

theorem contains_eq (h : d.SameTree d') (id : ElementId) : d'.contains id = d.contains id := by
  rw [Bool.eq_iff_iff, contains_iff, contains_iff, h.allElements_eq]

theorem children_eq (h : d.SameTree d') (id : ElementId) : d'.children id = d.children id := by
  rw [← d'.tells_outline.children, h.outline_eq, d.tells_outline.children]

theorem descendants_eq (h : d.SameTree d') (id : ElementId) :
    d'.descendants id = d.descendants id := by
  rw [← d'.tells_outline.descendants_eq, h.outline_eq, d.tells_outline.descendants_eq]

end SameTree

theorem sameTree_write {d d' : Document} {id : ElementId} {key value : String}
    (h : d.write id key value = .ok d') : d.SameTree d' :=
  ⟨selection_write h, outline_write h, element?_write h, levels_write h⟩

/-- A document that selects none but its own elements is opened again with the same tree. -/
theorem sameTree_reopened {d : Document} (h : ∀ id ∈ d.selection, id ∈ d.allElements) :
    d.SameTree d.reopened where
  selection_eq := List.filter_eq_self.mpr fun id hid => decide_eq_true (h id hid)
  outline_eq := d.outline_reopened
  element?_eq := d.element?_reopened
  levels_eq := d.levels_reopened

/-- An opened document selects none but its own elements. -/
theorem mem_allElements_of_ofSnapshot {s : Snapshot} {d : Document} (h : ofSnapshot s = .ok d)
    {id : ElementId} (hid : id ∈ d.selection) : id ∈ d.allElements := by
  have hcontents := toSnapshot_of_ofSnapshot h
  rw [hcontents] at hid
  rw [allElements, hcontents]
  exact of_decide_eq_true (List.mem_filter.mp hid).2

end Document
end DesignMarkup
