import DesignMarkup.Document.Table
import DesignMarkup.Proofs.Document.Tree

/-!
The rows of a document: one entry for each layer, which tells its parent and its children.  What an
operation does to the layers is seen in the rows as a change of single entries.
-/

namespace DesignMarkup
namespace Layer

mutual

/-- The rows of a layer below a given element and of all that lie below it, parents first. -/
def rows (parent? : Option ElementId) : Layer → List (ElementId × Entry)
  | ⟨element, data, children⟩ =>
      (element.id, ⟨element, parent?, children.map Layer.id, data⟩) ::
        rowsOfList (some element.id) children

def rowsOfList (parent? : Option ElementId) : List Layer → List (ElementId × Entry)
  | [] => []
  | layer :: rest => layer.rows parent? ++ rowsOfList parent? rest

end

mutual

theorem map_fst_rows (parent? : Option ElementId) (layer : Layer) :
    (layer.rows parent?).map Prod.fst = layer.ids := by
  match layer with
  | ⟨element, data, children⟩ =>
      rw [rows, ids, List.map_cons, map_fst_rowsOfList]

theorem map_fst_rowsOfList (parent? : Option ElementId) (layers : List Layer) :
    (rowsOfList parent? layers).map Prod.fst = idsOfList layers := by
  match layers with
  | [] => rfl
  | layer :: rest =>
      rw [rowsOfList, idsOfList, List.map_append, map_fst_rows _ layer, map_fst_rowsOfList _ rest]

end

mutual

theorem map_children_rows (parent? : Option ElementId) (layer : Layer) :
    (layer.rows parent?).map (fun row => (row.1, row.2.children)) = layer.branches := by
  match layer with
  | ⟨element, data, children⟩ =>
      rw [rows, branches, List.map_cons, map_children_rowsOfList]

/-- The rows tell the branches. -/
theorem map_children_rowsOfList (parent? : Option ElementId) (layers : List Layer) :
    (rowsOfList parent? layers).map (fun row => (row.1, row.2.children)) =
      branchesOfList layers := by
  match layers with
  | [] => rfl
  | layer :: rest =>
      rw [rowsOfList, branchesOfList, List.map_append, map_children_rows _ layer,
        map_children_rowsOfList _ rest]

end

mutual

theorem flatMap_children_rows_perm (parent? : Option ElementId) (layer : Layer) :
    ((layer.rows parent?).flatMap (·.2.children)).Perm (idsOfList layer.children) := by
  match layer with
  | ⟨element, data, children⟩ =>
      rw [rows, List.flatMap_cons]
      exact map_id_append_flatMap_children_perm (some element.id) children

/-- The identifiers at the top and those among the children of the rows are all identifiers. -/
theorem map_id_append_flatMap_children_perm (parent? : Option ElementId) (layers : List Layer) :
    (layers.map Layer.id ++ (rowsOfList parent? layers).flatMap (·.2.children)).Perm
      (idsOfList layers) := by
  match layers with
  | [] => exact List.Perm.refl _
  | layer :: rest =>
      have hlayer := flatMap_children_rows_perm parent? layer
      have hrest := map_id_append_flatMap_children_perm parent? rest
      rw [List.map_cons, rowsOfList, List.flatMap_append, List.cons_append, idsOfList, ids_eq,
        List.cons_append]
      exact (List.perm_append_comm_assoc _ _ _).trans (hlayer.append hrest) |>.cons _

end

theorem rowsOfList_append (parent? : Option ElementId) (left right : List Layer) :
    rowsOfList parent? (left ++ right) = rowsOfList parent? left ++ rowsOfList parent? right := by
  induction left with
  | nil => rfl
  | cons layer rest ih => simp [rowsOfList, ih]

theorem fst_mem_ids {parent? : Option ElementId} {layer : Layer} {row : ElementId × Entry}
    (h : row ∈ layer.rows parent?) : row.1 ∈ layer.ids := by
  rw [← map_fst_rows parent?]
  exact List.mem_map_of_mem h

theorem fst_mem_idsOfList {parent? : Option ElementId} {layers : List Layer}
    {row : ElementId × Entry} (h : row ∈ rowsOfList parent? layers) :
    row.1 ∈ idsOfList layers := by
  rw [← map_fst_rowsOfList parent?]
  exact List.mem_map_of_mem h

end Layer

/-- Rows with the entry of one element changed. -/
def changeRow (id : ElementId) (change : Entry → Entry) (rows : List (ElementId × Entry)) :
    List (ElementId × Entry) :=
  rows.map fun row => if row.1 = id then (row.1, change row.2) else row

theorem changeRow_append (id : ElementId) (change : Entry → Entry)
    (left right : List (ElementId × Entry)) :
    changeRow id change (left ++ right) = changeRow id change left ++ changeRow id change right :=
  List.map_append

theorem changeRow_of_not_mem {id : ElementId} (change : Entry → Entry)
    {rows : List (ElementId × Entry)} (h : id ∉ rows.map Prod.fst) :
    changeRow id change rows = rows := by
  refine (List.map_congr_left ?_).trans (List.map_id rows)
  intro row hrow
  rw [if_neg]
  · rfl
  · rintro rfl
    exact h (List.mem_map_of_mem hrow)

theorem put_eq_changeRow {id : ElementId} {entry : Entry} (change : Entry → Entry)
    {rows : List (ElementId × Entry)} (hnodup : (rows.map Prod.fst).Nodup)
    (h : OrderedMap.lookup id rows = some entry) :
    OrderedMap.put id (change entry) rows = changeRow id change rows := by
  induction rows with
  | nil => cases h
  | cons row rest ih =>
      rw [List.map_cons, List.nodup_cons] at hnodup
      rw [OrderedMap.lookup] at h
      by_cases hid : row.1 = id
      · rw [if_pos hid, Option.some.injEq] at h
        rw [OrderedMap.put, if_pos hid, changeRow, List.map_cons, if_pos hid, ← changeRow,
          changeRow_of_not_mem change (hid ▸ hnodup.1), hid, h]
      · rw [if_neg hid] at h
        rw [OrderedMap.put, if_neg hid, changeRow, List.map_cons, if_neg hid, ← changeRow,
          ih hnodup.2 h]

/-- To set an entry that is there is to change its row in its place. -/
theorem entries_insert_eq_changeRow {entries : OrderedMap ElementId Entry} {id : ElementId}
    {entry : Entry} (h : entries.find? id = some entry) (change : Entry → Entry) :
    (entries.insert id (change entry)).entries = changeRow id change entries.entries :=
  put_eq_changeRow change entries.keys_nodup h

namespace Layer

theorem changeRow_rowsOfList {id : ElementId} {layers : List Layer} (h : id ∉ idsOfList layers)
    (parent? : Option ElementId) (change : Entry → Entry) :
    changeRow id change (rowsOfList parent? layers) = rowsOfList parent? layers := by
  apply changeRow_of_not_mem
  rw [map_fst_rowsOfList]
  exact h

theorem changeRow_rows {id : ElementId} {layer : Layer} (h : id ∉ layer.ids)
    (parent? : Option ElementId) (change : Entry → Entry) :
    changeRow id change (layer.rows parent?) = layer.rows parent? := by
  apply changeRow_of_not_mem
  rw [map_fst_rows]
  exact h

section Modify

variable {id : ElementId} {change : Layer → Layer}

mutual

theorem id_modify (hid : ∀ layer, (change layer).id = layer.id) (layer : Layer) :
    (layer.modify id change).id = layer.id := by
  match layer with
  | ⟨element, data, children⟩ =>
      rw [modify]
      split
      · exact hid _
      · rfl

theorem map_id_modifyInList (hid : ∀ layer, (change layer).id = layer.id) (layers : List Layer) :
    (modifyInList id change layers).map Layer.id = layers.map Layer.id := by
  match layers with
  | [] => rfl
  | layer :: rest =>
      rw [modifyInList, List.map_cons, List.map_cons, id_modify hid layer,
        map_id_modifyInList hid rest]

end

variable {changeEntry : Entry → Entry} {added : List (ElementId × Entry)}

-- The change of a layer is given by what becomes of its rows, so that one induction serves both for
-- storing a text and for putting a layer below another one.
mutual

theorem rows_modify_perm (hid : ∀ layer, (change layer).id = layer.id)
    (hrows : ∀ parent? layer, layer.id = id → id ∉ idsOfList layer.children →
      ((change layer).rows parent?).Perm (changeRow id changeEntry (layer.rows parent?) ++ added))
    (parent? : Option ElementId) {layer : Layer} (hmem : id ∈ layer.ids)
    (hnodup : layer.ids.Nodup) :
    ((layer.modify id change).rows parent?).Perm
      (changeRow id changeEntry (layer.rows parent?) ++ added) := by
  match layer with
  | ⟨element, data, children⟩ =>
      rw [ids, List.nodup_cons] at hnodup
      rw [modify]
      split
      · rename_i hsame
        exact hrows parent? _ hsame (hsame ▸ hnodup.1)
      · rename_i hne
        rw [ids, List.mem_cons] at hmem
        have hbelow := hmem.resolve_left fun heq => hne heq.symm
        have hperm := rows_modifyInList_perm hid hrows (some element.id) hbelow hnodup.2
        rw [rows, rows, changeRow, List.map_cons, if_neg hne, ← changeRow, map_id_modifyInList hid]
        exact hperm.cons _

theorem rows_modifyInList_perm (hid : ∀ layer, (change layer).id = layer.id)
    (hrows : ∀ parent? layer, layer.id = id → id ∉ idsOfList layer.children →
      ((change layer).rows parent?).Perm (changeRow id changeEntry (layer.rows parent?) ++ added))
    (parent? : Option ElementId) {layers : List Layer} (hmem : id ∈ idsOfList layers)
    (hnodup : (idsOfList layers).Nodup) :
    (rowsOfList parent? (modifyInList id change layers)).Perm
      (changeRow id changeEntry (rowsOfList parent? layers) ++ added) := by
  match layers with
  | [] => cases hmem
  | layer :: rest =>
      rw [idsOfList, List.nodup_append] at hnodup
      rw [modifyInList, rowsOfList, rowsOfList, changeRow_append]
      by_cases hlayer : id ∈ layer.ids
      · have hrest : id ∉ idsOfList rest := fun h => hnodup.2.2 _ hlayer _ h rfl
        have hperm := rows_modify_perm hid hrows parent? hlayer hnodup.1
        rw [modifyInList_of_not_mem change hrest, changeRow_rowsOfList hrest]
        refine (hperm.append_right _).trans ?_
        rw [List.append_assoc, List.append_assoc]
        exact List.perm_append_comm.append_left _
      · have hrest : id ∈ idsOfList rest := by
          rw [idsOfList, List.mem_append] at hmem
          exact hmem.resolve_left hlayer
        have hperm := rows_modifyInList_perm hid hrows parent? hrest hnodup.2.1
        rw [modify_of_not_mem change hlayer, changeRow_rows hlayer, List.append_assoc]
        exact hperm.append_left _

end

end Modify

/-- The first row of a layer, for its own element. -/
def ownEntry (parent? : Option ElementId) (layer : Layer) : Entry :=
  ⟨layer.element, parent?, layer.children.map Layer.id, layer.data⟩

theorem rows_eq (parent? : Option ElementId) (layer : Layer) :
    layer.rows parent? =
      (layer.id, layer.ownEntry parent?) :: rowsOfList (some layer.id) layer.children := by
  cases layer
  rfl

/-- A change of the row of a layer itself leaves the rows below it alone. -/
theorem changeRow_rows_self {layer : Layer} (h : layer.id ∉ idsOfList layer.children)
    (parent? : Option ElementId) (change : Entry → Entry) :
    changeRow layer.id change (layer.rows parent?) =
      (layer.id, change (layer.ownEntry parent?)) ::
        rowsOfList (some layer.id) layer.children := by
  rw [rows_eq, changeRow, List.map_cons, if_pos rfl, ← changeRow, changeRow_rowsOfList h]

theorem id_append (child layer : Layer) : (append child layer).id = layer.id :=
  rfl

theorem id_store (key value : String) (layer : Layer) : (store key value layer).id = layer.id :=
  rfl

section Changes

variable {id : ElementId} {layers : List Layer} (parent? : Option ElementId)
  (hmem : id ∈ idsOfList layers) (hnodup : (idsOfList layers).Nodup)
include hmem hnodup

/-- Storing a text changes the data in one row. -/
theorem rowsOfList_store_perm (key value : String) :
    (rowsOfList parent? (modifyInList id (store key value) layers)).Perm
      (changeRow id (Entry.store key value) (rowsOfList parent? layers)) := by
  rw [← List.append_nil (changeRow id _ _)]
  apply rows_modifyInList_perm (id_store key value) _ parent? hmem hnodup
  · rintro parent? layer rfl hbelow
    rw [List.append_nil, changeRow_rows_self hbelow, rows_eq]
    exact List.Perm.refl _

/-- Putting a layer below another one lists it among that one's children and adds its rows. -/
theorem rowsOfList_append_perm (child : Layer) :
    (rowsOfList parent? (modifyInList id (append child) layers)).Perm
      (changeRow id (Entry.addChildren [child.id]) (rowsOfList parent? layers) ++
        child.rows (some id)) := by
  apply rows_modifyInList_perm (id_append child) _ parent? hmem hnodup
  · rintro parent? layer rfl hbelow
    have hchild : rowsOfList (some (append child layer).id) (append child layer).children =
        rowsOfList (some layer.id) layer.children ++ child.rows (some layer.id) := by
      show rowsOfList (some layer.id) (layer.children ++ [child]) = _
      rw [rowsOfList_append, rowsOfList, rowsOfList, List.append_nil]
    have hown : (append child layer).ownEntry parent? =
        (layer.ownEntry parent?).addChildren [child.id] := by
      simp [ownEntry, append, Entry.addChildren]
    rw [changeRow_rows_self hbelow, rows_eq, hown, hchild]
    exact List.Perm.refl _

end Changes

section Prune

variable {id : ElementId}

mutual

/-- Nothing is taken out where the identifier does not occur. -/
theorem prune_of_not_mem {layer : Layer} (h : id ∉ idsOfList layer.children) :
    layer.prune id = layer := by
  match layer with
  | ⟨element, data, children⟩ => rw [prune, pruneList_of_not_mem h]

theorem pruneList_of_not_mem {layers : List Layer} (h : id ∉ idsOfList layers) :
    pruneList id layers = layers := by
  match layers with
  | [] => rfl
  | layer :: rest =>
      rw [idsOfList, ids_eq, List.cons_append, List.mem_cons, List.mem_append, not_or,
        not_or] at h
      rw [pruneList, if_neg (Ne.symm h.1), prune_of_not_mem h.2.1, pruneList_of_not_mem h.2.2]

end

theorem id_prune (id : ElementId) (layer : Layer) : (layer.prune id).id = layer.id := by
  cases layer
  rfl

theorem map_id_pruneList (id : ElementId) (layers : List Layer) :
    (pruneList id layers).map Layer.id = (layers.map Layer.id).filter (· ≠ id) := by
  induction layers with
  | nil => rfl
  | cons layer rest ih =>
      rw [pruneList, List.map_cons, List.filter_cons]
      by_cases hid : layer.id = id
      · rw [if_pos hid, if_neg (by simpa using hid), ih]
      · rw [if_neg hid, if_pos (by simpa using hid), List.map_cons, id_prune, ih]

end Prune

section Members

-- A row is told by its layer and by the layer right above, if there is one.
mutual

theorem mem_rows_iff {parent? : Option ElementId} {layer : Layer} {row : ElementId × Entry} :
    row ∈ layer.rows parent? ↔
      row = (layer.id, layer.ownEntry parent?) ∨
        ∃ upper ∈ layer.parts, ∃ below ∈ upper.children,
          row = (below.id, below.ownEntry (some upper.id)) := by
  match layer with
  | ⟨element, data, children⟩ =>
      rw [rows_eq, List.mem_cons, mem_rowsOfList_iff, parts_eq]
      simp only [List.mem_cons, exists_eq_or_imp]

theorem mem_rowsOfList_iff {parent? : Option ElementId} {layers : List Layer}
    {row : ElementId × Entry} :
    row ∈ rowsOfList parent? layers ↔
      (∃ layer ∈ layers, row = (layer.id, layer.ownEntry parent?)) ∨
        ∃ upper ∈ partsOfList layers, ∃ below ∈ upper.children,
          row = (below.id, below.ownEntry (some upper.id)) := by
  match layers with
  | [] => simp [rowsOfList, partsOfList]
  | layer :: rest =>
      rw [rowsOfList, List.mem_append, mem_rows_iff, mem_rowsOfList_iff, partsOfList]
      simp only [List.mem_cons, List.mem_append, exists_eq_left, or_and_right, exists_or]
      exact or_or_or_comm

end

variable {parent? : Option ElementId} {layers : List Layer}

theorem exists_part_of_mem_rowsOfList {row : ElementId × Entry}
    (h : row ∈ rowsOfList parent? layers) :
    ∃ part ∈ partsOfList layers, ∃ above?, row = (part.id, part.ownEntry above?) := by
  rcases mem_rowsOfList_iff.mp h with ⟨layer, hlayer, rfl⟩ | ⟨upper, hupper, below, hbelow, rfl⟩
  · exact ⟨layer, mem_partsOfList_of_mem hlayer, _, rfl⟩
  · exact ⟨below, mem_partsOfList_of_mem_children hupper hbelow, _, rfl⟩

theorem exists_row_of_mem_partsOfList (hnodup : (idsOfList layers).Nodup) {part : Layer}
    (h : part ∈ partsOfList layers) :
    ∃ above?, (part.id, part.ownEntry above?) ∈ rowsOfList parent? layers := by
  have hid : part.id ∈ (rowsOfList parent? layers).map Prod.fst := by
    rw [map_fst_rowsOfList]
    exact mem_idsOfList.mpr ⟨part, h, rfl⟩
  obtain ⟨row, hrow, hsame⟩ := List.mem_map.mp hid
  obtain ⟨other, hother, above?, rfl⟩ := exists_part_of_mem_rowsOfList hrow
  rw [part_unique hnodup hother h hsame] at hrow
  exact ⟨above?, hrow⟩

/-- The children in a row lie below the layers. -/
theorem children_subset_of_mem_rowsOfList {row : ElementId × Entry}
    (h : row ∈ rowsOfList parent? layers) : row.2.children ⊆ idsOfList layers := by
  obtain ⟨part, hpart, above?, rfl⟩ := exists_part_of_mem_rowsOfList h
  intro x hx
  obtain ⟨child, hchild, rfl⟩ := List.mem_map.mp hx
  exact mem_idsOfList.mpr ⟨child, mem_partsOfList_of_mem_children hpart hchild, rfl⟩

end Members

end Layer

theorem Entry.dropChild_of_not_mem {id : ElementId} {entry : Entry} (h : id ∉ entry.children) :
    entry.dropChild id = entry := by
  have hchildren : entry.children.filter (· ≠ id) = entry.children := by
    rw [List.filter_eq_self]
    intro child hchild
    simpa using ne_of_mem_of_not_mem hchild h
  rw [Entry.dropChild, hchildren]

/-- Rows without those of some elements, and without one element among the children in the others.
-/
def withoutRows (doomed : List ElementId) (id : ElementId) (rows : List (ElementId × Entry)) :
    List (ElementId × Entry) :=
  (rows.filter (·.1 ∉ doomed)).map fun row => (row.1, row.2.dropChild id)

theorem withoutRows_append (doomed : List ElementId) (id : ElementId)
    (left right : List (ElementId × Entry)) :
    withoutRows doomed id (left ++ right) =
      withoutRows doomed id left ++ withoutRows doomed id right := by
  rw [withoutRows, List.filter_append, List.map_append, withoutRows, withoutRows]

namespace Layer

variable {doomed : List ElementId} {id : ElementId} {parent? : Option ElementId}

theorem withoutRows_of_disjoint {layers : List Layer} (hid : id ∉ idsOfList layers)
    (hdoomed : ∀ x ∈ idsOfList layers, x ∉ doomed) :
    withoutRows doomed id (rowsOfList parent? layers) = rowsOfList parent? layers := by
  rw [withoutRows, List.filter_eq_self.mpr]
  · refine (List.map_congr_left ?_).trans (List.map_id _)
    intro row hrow
    rw [Entry.dropChild_of_not_mem fun hmem => hid (children_subset_of_mem_rowsOfList hrow hmem)]
    rfl
  · intro row hrow
    simpa using hdoomed row.1 (fst_mem_idsOfList hrow)

theorem withoutRows_rows_of_disjoint {layer : Layer} (hid : id ∉ layer.ids)
    (hdoomed : ∀ x ∈ layer.ids, x ∉ doomed) :
    withoutRows doomed id (layer.rows parent?) = layer.rows parent? := by
  have hids : idsOfList [layer] = layer.ids := List.append_nil _
  have hrows : rowsOfList parent? [layer] = layer.rows parent? := List.append_nil _
  rw [← hids] at hid hdoomed
  rw [← hrows]
  exact withoutRows_of_disjoint hid hdoomed

theorem withoutRows_rows_self {layer : Layer} :
    withoutRows layer.ids id (layer.rows parent?) = [] := by
  rw [withoutRows, List.filter_eq_nil_iff.mpr]
  · rfl
  · intro row hrow
    simpa using fst_mem_ids hrow

theorem find?_of_id_eq {layer : Layer} (h : layer.id = id) : layer.find? id = some layer := by
  cases layer
  exact if_pos h

theorem find?_of_id_ne {layer : Layer} (h : layer.id ≠ id) :
    layer.find? id = findInList? id layer.children := by
  cases layer
  exact if_neg h

theorem withoutRows_cons_of_not_mem {row : ElementId × Entry} (h : row.1 ∉ doomed)
    (rows : List (ElementId × Entry)) :
    withoutRows doomed id (row :: rows) =
      (row.1, row.2.dropChild id) :: withoutRows doomed id rows := by
  rw [withoutRows, List.filter_cons_of_pos (by simpa using h), List.map_cons, withoutRows]

section Disjoint

variable (hid : id ∈ doomed)
include hid

/-- Where nothing is doomed, nothing is taken out. -/
theorem rows_prune_of_disjoint {layer : Layer} (hdoomed : ∀ x ∈ layer.ids, x ∉ doomed) :
    (layer.prune id).rows parent? = withoutRows doomed id (layer.rows parent?) := by
  have hnot : id ∉ layer.ids := fun hmem => hdoomed id hmem hid
  rw [withoutRows_rows_of_disjoint hnot hdoomed, prune_of_not_mem]
  intro hbelow
  apply hnot
  rw [ids_eq]
  exact List.mem_cons_of_mem _ hbelow

theorem rowsOfList_pruneList_of_disjoint {layers : List Layer}
    (hdoomed : ∀ x ∈ idsOfList layers, x ∉ doomed) :
    rowsOfList parent? (pruneList id layers) =
      withoutRows doomed id (rowsOfList parent? layers) := by
  have hnot : id ∉ idsOfList layers := fun hmem => hdoomed id hmem hid
  rw [withoutRows_of_disjoint hnot hdoomed, pruneList_of_not_mem hnot]

end Disjoint

section Found

variable {layers : List Layer} {found : Layer} (h : findInList? id layers = some found)
include h

theorem mem_ids_of_findInList? : id ∈ found.ids := by
  rw [ids_eq, id_of_findInList? h]
  exact List.mem_cons_self

theorem ids_subset_of_findInList? : found.ids ⊆ idsOfList layers :=
  (ids_sublist_of_mem_partsOfList (mem_partsOfList_of_findInList? h)).subset

end Found

mutual

/-- The rows after a layer was taken out from among those below. -/
theorem rows_prune (parent? : Option ElementId) {layer found : Layer} (hnodup : layer.ids.Nodup)
    (hfound : findInList? id layer.children = some found) :
    (layer.prune id).rows parent? = withoutRows found.ids id (layer.rows parent?) := by
  match layer with
  | ⟨element, data, children⟩ =>
      rw [ids, List.nodup_cons] at hnodup
      have hkept : element.id ∉ found.ids := fun hmem =>
        hnodup.1 (ids_subset_of_findInList? hfound hmem)
      rw [prune, rows, rows, withoutRows_cons_of_not_mem hkept, map_id_pruneList,
        rowsOfList_pruneList (some element.id) hnodup.2 hfound]
      rfl

theorem rowsOfList_pruneList (parent? : Option ElementId) {layers : List Layer} {found : Layer}
    (hnodup : (idsOfList layers).Nodup) (hfound : findInList? id layers = some found) :
    rowsOfList parent? (pruneList id layers) =
      withoutRows found.ids id (rowsOfList parent? layers) := by
  match layers with
  | [] => cases hfound
  | layer :: rest =>
      rw [idsOfList, List.nodup_append] at hnodup
      obtain ⟨hlayer, hrest, hdisjoint⟩ := hnodup
      have hmem := mem_ids_of_findInList? hfound
      rw [findInList?] at hfound
      rw [rowsOfList, withoutRows_append, pruneList]
      -- The layer that is taken out is the first one, lies below it, or lies among the others.
      by_cases hid : layer.id = id
      · rw [find?_of_id_eq hid] at hfound
        cases hfound
        rw [if_pos hid, withoutRows_rows_self, List.nil_append]
        apply rowsOfList_pruneList_of_disjoint hmem
        intro x hx hlayerMem
        exact hdisjoint _ hlayerMem _ hx rfl
      · rw [find?_of_id_ne hid] at hfound
        rw [if_neg hid, rowsOfList]
        cases hbelow : findInList? id layer.children with
        | some inner =>
            rw [hbelow] at hfound
            cases hfound
            have hsubset : found.ids ⊆ layer.ids := by
              rw [ids_eq layer]
              exact List.subset_cons_of_subset _ (ids_subset_of_findInList? hbelow)
            rw [rows_prune parent? hlayer hbelow, rowsOfList_pruneList_of_disjoint hmem]
            intro x hx hfoundMem
            exact hdisjoint _ (hsubset hfoundMem) _ hx rfl
        | none =>
            rw [hbelow] at hfound
            have hsubset := ids_subset_of_findInList? hfound
            rw [rowsOfList_pruneList parent? hrest hfound, rows_prune_of_disjoint hmem]
            intro x hx hfoundMem
            exact hdisjoint _ hx _ (hsubset hfoundMem) rfl

end

end Layer
end DesignMarkup
