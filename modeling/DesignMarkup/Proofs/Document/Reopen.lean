import DesignMarkup.Document.Basic
import DesignMarkup.Proofs.OrderedMap

/-!
Documents and their snapshots.  The snapshot of a document can always be opened again, and the
document that is opened shows the same elements in the same places with the same texts.
-/

namespace DesignMarkup

theorem firstRepeat?_eq_none {α : Type} [DecidableEq α] {seen xs : List α} (hnodup : xs.Nodup)
    (hfresh : ∀ x ∈ xs, x ∉ seen) : firstRepeat? seen xs = none := by
  induction xs generalizing seen with
  | nil => rfl
  | cons x rest ih =>
      obtain ⟨hx, hrest⟩ := List.nodup_cons.mp hnodup
      obtain ⟨hnew, hfresh⟩ := List.forall_mem_cons.mp hfresh
      rw [firstRepeat?, if_neg hnew]
      apply ih hrest
      intro y hy hseen
      rcases List.mem_cons.mp hseen with rfl | hseen
      · exact hx hy
      · exact hfresh y hy hseen

namespace Layer

section DropEmptyData

@[simp] theorem element_dropEmptyData (layer : Layer) :
    layer.dropEmptyData.element = layer.element := by
  cases layer
  rfl

@[simp] theorem data_dropEmptyData (layer : Layer) :
    layer.dropEmptyData.data = layer.data.filter fun _ value => value ≠ "" := by
  cases layer
  rfl

mutual

theorem ids_dropEmptyData (layer : Layer) : layer.dropEmptyData.ids = layer.ids := by
  match layer with
  | ⟨element, data, children⟩ => simp [dropEmptyData, ids, ids_dropEmptyDataInList children]

theorem ids_dropEmptyDataInList (layers : List Layer) :
    idsOfList (dropEmptyDataInList layers) = idsOfList layers := by
  match layers with
  | [] => rfl
  | layer :: rest =>
      simp [dropEmptyDataInList, idsOfList, ids_dropEmptyData layer, ids_dropEmptyDataInList rest]

end

theorem map_id_dropEmptyDataInList (layers : List Layer) :
    (dropEmptyDataInList layers).map id = layers.map id := by
  induction layers with
  | nil => rfl
  | cons layer rest ih => simp [dropEmptyDataInList, id, ih]

mutual

theorem branches_dropEmptyData (layer : Layer) :
    layer.dropEmptyData.branches = layer.branches := by
  match layer with
  | ⟨element, data, children⟩ =>
      simp [dropEmptyData, branches, map_id_dropEmptyDataInList,
        branches_dropEmptyDataInList children]

theorem branches_dropEmptyDataInList (layers : List Layer) :
    branchesOfList (dropEmptyDataInList layers) = branchesOfList layers := by
  match layers with
  | [] => rfl
  | layer :: rest =>
      simp [dropEmptyDataInList, branchesOfList, branches_dropEmptyData layer,
        branches_dropEmptyDataInList rest]

end

mutual

theorem find?_dropEmptyData (id : ElementId) (layer : Layer) :
    layer.dropEmptyData.find? id = (layer.find? id).map dropEmptyData := by
  match layer with
  | ⟨element, data, children⟩ =>
      by_cases hid : element.id = id
      · simp [dropEmptyData, find?, hid]
      · simp [dropEmptyData, find?, hid, findInList?_dropEmptyDataInList id children]

theorem findInList?_dropEmptyDataInList (id : ElementId) (layers : List Layer) :
    findInList? id (dropEmptyDataInList layers) = (findInList? id layers).map dropEmptyData := by
  match layers with
  | [] => rfl
  | layer :: rest =>
      rw [dropEmptyDataInList, findInList?, findInList?, find?_dropEmptyData id layer,
        findInList?_dropEmptyDataInList id rest]
      cases layer.find? id <;> rfl

end

mutual

theorem dropEmptyData_idem (layer : Layer) :
    layer.dropEmptyData.dropEmptyData = layer.dropEmptyData := by
  match layer with
  | ⟨element, data, children⟩ =>
      simp [dropEmptyData, OrderedMap.filter, dropEmptyDataInList_idem children]

theorem dropEmptyDataInList_idem (layers : List Layer) :
    dropEmptyDataInList (dropEmptyDataInList layers) = dropEmptyDataInList layers := by
  match layers with
  | [] => rfl
  | layer :: rest =>
      simp [dropEmptyDataInList, dropEmptyData_idem layer, dropEmptyDataInList_idem rest]

end

end DropEmptyData
end Layer

namespace Document

/-- A snapshot without repeated identifiers is opened as it is, less the selected identifiers that
do not occur in it. -/
theorem ofSnapshot_eq_ok {s : Snapshot} (h : (Layer.idsOfList s.layers).Nodup) :
    ofSnapshot s = .ok { s with
      selection := s.selection.filter fun id => id ∈ Layer.idsOfList s.layers
      ids_nodup := h } := by
  have hnone := firstRepeat?_eq_none h fun x _ => List.not_mem_nil (a := x)
  rw [ofSnapshot]
  split
  case h_1 id hsome =>
    rw [hnone] at hsome
    cases hsome
  case h_2 => rfl

/-- The document that is opened from the snapshot of another one. -/
def reopened (d : Document) : Document where
  toSnapshot := { d.snapshot with selection := d.selection.filter (· ∈ d.allElements) }
  ids_nodup := by
    show (Layer.idsOfList (Layer.dropEmptyDataInList d.layers)).Nodup
    rw [Layer.ids_dropEmptyDataInList]
    exact d.ids_nodup

section Reopened

variable (d : Document)

theorem ofSnapshot_snapshot : ofSnapshot d.snapshot = .ok d.reopened := by
  have hselection : d.snapshot.selection.filter (· ∈ Layer.idsOfList d.snapshot.layers) =
      d.reopened.selection := by
    apply List.filter_congr
    intro id _
    rw [decide_eq_decide]
    exact iff_of_eq (congrArg (id ∈ ·) (Layer.ids_dropEmptyDataInList d.layers))
  rw [ofSnapshot_eq_ok (s := d.snapshot) d.reopened.ids_nodup]
  simp only [hselection]
  rfl

theorem allElements_reopened : d.reopened.allElements = d.allElements :=
  Layer.ids_dropEmptyDataInList d.layers

theorem outline_reopened : d.reopened.outline = d.outline := by
  have hroots : d.reopened.roots = d.roots := Layer.map_id_dropEmptyDataInList d.layers
  have hbranches : d.reopened.outline.branches = d.outline.branches :=
    OrderedMap.ext_entries (Layer.branches_dropEmptyDataInList d.layers)
  rw [outline, Outline.mk.injEq]
  exact ⟨hroots, hbranches⟩

theorem layer?_reopened (id : ElementId) :
    d.reopened.layer? id = (d.layer? id).map Layer.dropEmptyData :=
  Layer.findInList?_dropEmptyDataInList id d.layers

theorem element?_reopened (id : ElementId) : d.reopened.element? id = d.element? id := by
  rw [element?, element?, layer?_reopened, Option.map_map]
  simp [Function.comp_def]

theorem read_reopened (id : ElementId) (key : String) :
    d.reopened.read id key = d.read id key := by
  rw [read, read, layer?_reopened]
  cases d.layer? id with
  | none => rfl
  | some layer => simp [OrderedMap.find?_filter]

theorem selection_reopened : d.reopened.selection = d.selection.filter (· ∈ d.allElements) :=
  rfl

theorem snapshot_reopened :
    d.reopened.snapshot =
      { d.snapshot with selection := d.selection.filter (· ∈ d.allElements) } := by
  simp only [snapshot, reopened, Layer.dropEmptyDataInList_idem]

end Reopened
end Document
end DesignMarkup
