import DesignMarkup.Proofs.Document.Storage
import DesignMarkup.Tag.Store

/-!
The tag store as a map.  A store that is loaded from a host holds, under each element, the record
that can be read from it.
-/

namespace DesignMarkup

namespace TagStore

/-- Every record lies under the element that it names. -/
def Filed (store : TagStore) : Prop :=
  ∀ id r, store.find? id = some r → r.elementId = id

@[simp] theorem find?_insert (store : TagStore) (r : TagRecord) (id : ElementId) :
    (store.insert r).find? id = if r.elementId = id then some r else store.find? id :=
  OrderedMap.find?_insert store.records r.elementId id r

@[simp] theorem find?_erase (store : TagStore) (erased id : ElementId) :
    (store.erase erased).find? id = if erased = id then none else store.find? id :=
  OrderedMap.find?_erase store.records erased id

theorem contains_eq (store : TagStore) (id : ElementId) :
    store.contains id = (store.find? id).isSome :=
  rfl

theorem filed_empty : Filed empty := by
  intro id r h
  cases h

theorem Filed.insert {store : TagStore} (h : store.Filed) (r : TagRecord) :
    (store.insert r).Filed := by
  intro id other hother
  rw [find?_insert] at hother
  split at hother
  · rename_i hid
    rw [← Option.some.inj hother]
    exact hid
  · exact h id other hother

theorem Filed.erase {store : TagStore} (h : store.Filed) (erased : ElementId) :
    (store.erase erased).Filed := by
  intro id r hr
  rw [find?_erase] at hr
  split at hr
  · cases hr
  · exact h id r hr

theorem Filed.insertAll {store : TagStore} (h : store.Filed) (records : List TagRecord) :
    (records.foldl TagStore.insert store).Filed := by
  induction records generalizing store with
  | nil => exact h
  | cons r rest ih => exact ih (h.insert r)

/-- A loaded store is filed, whatever is stored in the document. -/
theorem filed_load (host : Host) : (load host).Filed :=
  filed_empty.insertAll _

theorem elementId_of_stored? {host : Host} {id : ElementId} {r : TagRecord}
    (h : stored? host id = some r) : r.elementId = id := by
  rw [stored?] at h
  split at h
  · exact of_decide_eq_true (Option.filter_eq_some_iff.mp h).2
  · cases h

theorem stored?_of_not_contains {host : Host} {id : ElementId}
    (h : id ∉ host.document.allElements) : stored? host id = none := by
  rw [stored?, Host.read]
  cases host.readFault id with
  | some fault => rfl
  | none => rw [Document.read_of_not_contains h dataKey]

/-- Records that name the elements they come from are found under these after inserting them. -/
theorem find?_foldl_insert {ids : List ElementId} {record? : ElementId → Option TagRecord}
    (hown : ∀ id r, record? id = some r → r.elementId = id) (store : TagStore) (id : ElementId) :
    ((ids.filterMap record?).foldl insert store).find? id =
      if id ∈ ids then (record? id).or (store.find? id) else store.find? id := by
  induction ids generalizing store with
  | nil => rfl
  | cons other rest ih =>
      cases hother : record? other with
      | none =>
          rw [List.filterMap_cons_none hother, ih store]
          by_cases hid : id = other
          · subst hid
            simp [hother]
          · simp [hid]
      | some r =>
          rw [List.filterMap_cons_some hother, List.foldl_cons, ih (store.insert r), find?_insert,
            hown other r hother]
          by_cases hid : id = other
          · subst hid
            simp [hother]
          · simp [hid, Ne.symm hid]

/-- A loaded store holds what can be read from the elements of the document. -/
theorem find?_load (host : Host) (id : ElementId) : (load host).find? id = stored? host id := by
  rw [load, find?_foldl_insert (fun _ _ => elementId_of_stored?)]
  split
  · cases stored? host id <;> rfl
  · rename_i hid
    rw [stored?_of_not_contains hid]
    rfl

/-- Data is stored on every element that has a record in a loaded store. -/
theorem isEmpty_data_of_contains_load {host : Host} {id : ElementId} {layer : Layer}
    (hlayer : host.document.layer? id = some layer) (hcontains : (load host).contains id = true) :
    layer.data.isEmpty = false := by
  rw [contains_eq, find?_load, stored?, Host.read] at hcontains
  cases hfault : host.readFault id with
  | some fault => simp [hfault] at hcontains
  | none =>
      rw [hfault, Document.read_of_layer? hlayer] at hcontains
      cases hempty : layer.data.isEmpty with
      | false => rfl
      | true => simp [OrderedMap.eq_empty_of_isEmpty hempty] at hcontains

/-- Inserting records one after the other is building a map of them. -/
theorem records_foldl_insert (records : List TagRecord) (store : TagStore) :
    (records.foldl insert store).records =
      store.records.insertAll (records.map fun r => (r.elementId, r)) := by
  induction records generalizing store with
  | nil => rfl
  | cons r rest ih => exact ih (store.insert r)

/-- Erasing records one after the other keeps the others in their order. -/
theorem entries_foldl_erase (store : TagStore) (ids : List ElementId) :
    (ids.foldl erase store).records.entries = store.records.entries.filter (·.1 ∉ ids) := by
  have hrecords : (ids.foldl erase store).records = ids.foldl OrderedMap.erase store.records := by
    induction ids generalizing store with
    | nil => rfl
    | cons id rest ih => exact ih (store.erase id)
  rw [hrecords, OrderedMap.entries_foldl_erase]

/-- The elements whose records are read are among those asked for, in their order. -/
theorem map_elementId_stored_sublist (host : Host) (ids : List ElementId) :
    ((ids.filterMap (stored? host)).map TagRecord.elementId).Sublist ids := by
  induction ids with
  | nil => exact List.Sublist.refl _
  | cons id rest ih =>
      cases hstored : stored? host id with
      | none => simpa [hstored] using ih.cons id
      | some r => simpa [hstored, elementId_of_stored? hstored] using ih.cons_cons id

/-- A loaded store lists the records in the order of the document. -/
theorem toList_load (host : Host) :
    (load host).toList = host.document.allElements.filterMap (stored? host) := by
  have hnodup := host.document.ids_nodup.sublist
    (map_elementId_stored_sublist host host.document.allElements)
  have hkeys : (((host.document.allElements.filterMap (stored? host)).map
      fun r => (r.elementId, r)).map Prod.fst).Nodup := by
    rw [List.map_map]
    exact hnodup
  rw [toList, OrderedMap.values, load, records_foldl_insert]
  show (OrderedMap.ofList _).entries.map Prod.snd = _
  rw [OrderedMap.entries_ofList hkeys, List.map_map]
  exact List.map_id _

end TagStore

end DesignMarkup
