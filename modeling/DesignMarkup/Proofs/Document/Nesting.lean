import DesignMarkup.Proofs.Document.Encoding
import DesignMarkup.Proofs.Document.Reopen
import DesignMarkup.Proofs.Document.Tree
import DesignMarkup.Proofs.Json.Depth

/-!
How deep documents nest.  A layer that is read from a tree needs no deeper tree to be written
again: each of its parts was read from a part of the tree.
-/

namespace DesignMarkup

open OrderedMap (lookup mem_of_lookup)

namespace Json

variable {α : Type} {names : List String} {j : Json} {r : Record}

/-- The fields of a record lie inside the tree that it was read from. -/
theorem nesting_lt_of_record? (h : j.record? names = some r) {member : String × Json}
    (hmem : member ∈ r.fields) : member.2.nesting < j.nesting := by
  match j with
  | .object members =>
      simp only [record?, Option.ite_none_right_eq_some, Option.some.injEq] at h
      obtain ⟨-, rfl⟩ := h
      exact Nat.lt_succ_of_le (nesting_le_of_mem (List.mem_filter.mp hmem).1)
  | .array items =>
      simp only [record?, Option.ite_none_right_eq_some, Option.some.injEq] at h
      obtain ⟨-, rfl⟩ := h
      exact Nat.lt_succ_of_le (nesting_le_of_mem_items (List.of_mem_zip hmem).2)

theorem nesting_pos_of_record? (h : j.record? names = some r) : 0 < j.nesting := by
  match j with
  | .object members => exact Nat.succ_pos _
  | .array items => exact Nat.succ_pos _

theorem nesting_filter_le (keep : String × Json → Bool) (members : List (String × Json)) :
    (object (members.filter keep)).nesting ≤ (object members).nesting := by
  apply Nat.succ_le_succ
  apply nestingMembers_le
  intro member hmem
  exact nesting_le_of_mem (List.mem_filter.mp hmem).1

theorem Record.withDefault_eq_some {name : String} {default a : α} {read : Json → Option α}
    (h : r.withDefault name default read = some a) :
    a = default ∨ ∃ member ∈ r.fields, read member.2 = some a := by
  rw [withDefault] at h
  split at h
  · exact .inl (Option.some.inj h).symm
  · rename_i item hitem
    exact .inr ⟨(name, item), mem_of_lookup hitem, h⟩

theorem Record.optional_eq_some {name : String} {a : α} {read : Json → Option α}
    (h : r.optional name read = some (some a)) : ∃ member ∈ r.fields, read member.2 = some a := by
  rw [optional] at h
  split at h
  · cases h
  · cases h
  · rename_i item _ hitem
    obtain ⟨b, hread, heq⟩ := Option.map_eq_some_iff.mp h
    cases heq
    exact ⟨(name, item), mem_of_lookup hitem, hread⟩

theorem nesting_pos_of_texts? {texts : OrderedMap String String} (h : j.texts? = some texts) :
    0 < j.nesting := by
  match j with
  | .object members => exact Nat.succ_pos _

/-- The items of a read list lie inside the tree that it was read from. -/
theorem exists_items_of_list? {read : Json → Option α} {values : List α}
    (h : j.list? read = some values) :
    ∃ items, items.mapM read = some values ∧ nestingItems items + 1 = j.nesting := by
  match j with
  | .array items => exact ⟨items, h, rfl⟩

end Json

theorem Bag.nesting_pos_of_ofJson? {keys : List String} {j : Json} {bag : Bag keys}
    (h : ofJson? j = some bag) : 0 < j.nesting := by
  rw [ofJson?] at h
  obtain ⟨r, hr, -⟩ := Option.bind_eq_some_iff.mp h
  exact Json.nesting_pos_of_record? hr

/-- The styles and the layout of an element are read from arrays or objects. -/
theorem Element.exists_nesting_pos {payload : Json.NoPayload} {r : Json.Record} {e : Element}
    (h : ofRecord? payload r = some e) (hbags : ¬ (e.styles = none ∧ e.layout = none)) :
    ∃ member ∈ r.fields, 0 < member.2.nesting := by
  rw [ofRecord?] at h
  simp only [Option.bind_eq_bind, Option.bind_eq_some_iff] at h
  obtain ⟨id, -, name, -, kind, -, content, -, styles, hstyles, layout, hlayout, heq⟩ := h
  cases heq
  cases styles with
  | some bag =>
      obtain ⟨member, hmem, hread⟩ := Json.Record.optional_eq_some hstyles
      exact ⟨member, hmem, Bag.nesting_pos_of_ofJson? hread⟩
  | none =>
      cases layout with
      | some bag =>
          obtain ⟨member, hmem, hread⟩ := Json.Record.optional_eq_some hlayout
          exact ⟨member, hmem, Bag.nesting_pos_of_ofJson? hread⟩
      | none => exact absurd ⟨rfl, rfl⟩ hbags

namespace Layer

/-- What a layer is read from: a tree that has room for what the layer holds itself, and items in
it, two levels further in, for the layers below it. -/
theorem ofJsonWithin?_eq_some {depth : Nat} {j : Json} {layer : Layer}
    (h : ofJsonWithin? depth j = some layer) :
    layer.ownNesting ≤ j.nesting ∧
      ∃ below items, depth = below + 1 ∧ items.mapM (ofJsonWithin? below) = some layer.children ∧
        (items = [] ∨ Json.nestingItems items + 2 ≤ j.nesting) := by
  match depth, j with
  | depth + 1, .object members =>
      rw [ofJsonWithin?] at h
      simp only [Option.bind_eq_bind, Option.bind_eq_some_iff] at h
      obtain ⟨r, hr, h⟩ := h
      split at h
      · simp only [Option.bind_eq_some_iff] at h
        obtain ⟨other, hother, element, helement, data, hdata, children, hchildren, heq⟩ := h
        cases heq
        constructor
        · rw [ownNesting]
          split
          · exact Nat.succ_pos _
          · rename_i hown
            rcases Decidable.not_and_iff_or_not.mp hown with hdata' | hbags
            · rcases Json.Record.withDefault_eq_some hdata with rfl | ⟨member, hmem, hread⟩
              · exact absurd rfl hdata'
              · have hlt := Json.nesting_lt_of_record? hr hmem
                have hpos := Json.nesting_pos_of_texts? hread
                omega
            · obtain ⟨member, hmem, hpos⟩ := Element.exists_nesting_pos helement hbags
              have hlt := Json.nesting_lt_of_record? hother hmem
              have hle := Json.nesting_filter_le (fun member => member.1 ∉ fieldNames) members
              omega
        · rcases Json.Record.withDefault_eq_some hchildren with rfl | ⟨member, hmem, hread⟩
          · exact ⟨depth, [], rfl, rfl, .inl rfl⟩
          · obtain ⟨items, hitems, hnesting⟩ := Json.exists_items_of_list? hread
            have hlt := Json.nesting_lt_of_record? hr hmem
            refine ⟨depth, items, rfl, hitems, .inr ?_⟩
            omega
      · cases h

/-- Read layers need no deeper trees to be written again when each of them does not. -/
theorem nesting_listToJson_le {read : Json → Option Layer} {items : List Json}
    {layers : List Layer} (h : items.mapM read = some layers)
    (hread : ∀ item layer, read item = some layer → layer.toJson.nesting ≤ item.nesting) :
    Json.nestingItems (listToJson layers) ≤ Json.nestingItems items := by
  have hbound : ∀ layer ∈ layers, layer.toJson.nesting ≤ Json.nestingItems items := by
    intro layer hmem
    obtain ⟨item, hitem, hlayer⟩ := Json.exists_of_mem_mapM h hmem
    exact Nat.le_trans (hread item layer hlayer) (Json.nesting_le_of_mem_items hitem)
  clear h
  induction layers with
  | nil => exact Nat.zero_le _
  | cons layer rest ih =>
      rw [List.forall_mem_cons] at hbound
      rw [listToJson, Json.nestingItems, Nat.max_le]
      exact ⟨hbound.1, ih hbound.2⟩

/-- A read layer needs no deeper tree to be written again. -/
theorem nesting_toJson_le {depth : Nat} {j : Json} {layer : Layer}
    (h : ofJsonWithin? depth j = some layer) : layer.toJson.nesting ≤ j.nesting := by
  induction depth generalizing j layer with
  | zero =>
      rw [ofJsonWithin?] at h
      cases h
  | succ depth ih =>
      obtain ⟨hown, below, items, hdepth, hitems, hroom⟩ := ofJsonWithin?_eq_some h
      cases hdepth
      rw [nesting_toJson_le_iff]
      refine ⟨hown, ?_⟩
      rcases hroom with rfl | hroom
      · exact .inl (Option.some.inj hitems).symm
      · have hbelow := nesting_listToJson_le hitems fun item layer => ih
        exact .inr (by omega)

mutual

/-- A layer and all below it, each with the number of layers around it. -/
def leveled (above : Nat) : Layer → List (Layer × Nat)
  | ⟨element, data, children⟩ =>
      (⟨element, data, children⟩, above) :: leveledOfList (above + 1) children

def leveledOfList (above : Nat) : List Layer → List (Layer × Nat)
  | [] => []
  | layer :: rest => layer.leveled above ++ leveledOfList above rest

end

mutual

theorem map_fst_leveled (above : Nat) (layer : Layer) :
    (layer.leveled above).map Prod.fst = layer.parts := by
  match layer with
  | ⟨element, data, children⟩ => simp [leveled, parts, map_fst_leveledOfList _ children]

theorem map_fst_leveledOfList (above : Nat) (layers : List Layer) :
    (leveledOfList above layers).map Prod.fst = partsOfList layers := by
  match layers with
  | [] => rfl
  | layer :: rest =>
      simp [leveledOfList, partsOfList, map_fst_leveled above layer,
        map_fst_leveledOfList above rest]

end

mutual

/-- A layer nests two levels of arrays and objects for each layer around the deepest of its
parts, next to what the part takes itself. -/
theorem nesting_le_iff_leveled (depth above : Nat) (layer : Layer) :
    2 * above + layer.toJson.nesting ≤ depth ↔
      ∀ place ∈ layer.leveled above, 2 * place.2 + place.1.ownNesting ≤ depth := by
  match layer with
  | ⟨element, data, children⟩ =>
      have hlayer := nesting_toJson_le_iff ⟨element, data, children⟩ (depth - 2 * above)
      have hown := ownNesting_pos ⟨element, data, children⟩
      rw [leveled, List.forall_mem_cons, ← nesting_le_iff_leveledOfList depth (above + 1) children]
      by_cases hchildren : children = []
      · simp only [hchildren, true_or, and_true] at hlayer hown ⊢
        omega
      · simp only [hchildren, false_or] at hlayer hown ⊢
        omega

theorem nesting_le_iff_leveledOfList (depth above : Nat) (layers : List Layer) :
    layers = [] ∨ 2 * above + Json.nestingItems (listToJson layers) ≤ depth ↔
      ∀ place ∈ leveledOfList above layers, 2 * place.2 + place.1.ownNesting ≤ depth := by
  match layers with
  | [] => simp [leveledOfList]
  | layer :: rest =>
      rw [leveledOfList, List.forall_mem_append, ← nesting_le_iff_leveled depth above layer,
        ← nesting_le_iff_leveledOfList depth above rest, listToJson, Json.nestingItems]
      cases rest with
      | nil => simp [listToJson, Json.nestingItems]
      | cons next more =>
          simp only [reduceCtorEq, false_or]
          omega

end

/-- The identifier of a layer with the number of layers around it. -/
def named (place : Layer × Nat) : ElementId × Nat :=
  (place.1.id, place.2)

mutual

/-- Storing a text leaves every layer where it is. -/
theorem map_leveled_store (id : ElementId) (key value : String) (above : Nat) (layer : Layer) :
    ((layer.modify id (store key value)).leveled above).map named =
      (layer.leveled above).map named := by
  match layer with
  | ⟨element, data, children⟩ =>
      by_cases hid : element.id = id
      · simp [modify, store, hid, leveled, named, Layer.id]
      · simpa [modify, hid, leveled, named, Layer.id] using
          map_leveledOfList_store id key value (above + 1) children

theorem map_leveledOfList_store (id : ElementId) (key value : String) (above : Nat)
    (layers : List Layer) :
    (leveledOfList above (modifyInList id (store key value) layers)).map named =
      (leveledOfList above layers).map named := by
  match layers with
  | [] => rfl
  | layer :: rest =>
      simp [modifyInList, leveledOfList, map_leveled_store id key value above layer,
        map_leveledOfList_store id key value above rest]

end

mutual

theorem map_leveled_dropEmptyData (above : Nat) (layer : Layer) :
    (layer.dropEmptyData.leveled above).map named =
      (layer.leveled above).map named := by
  match layer with
  | ⟨element, data, children⟩ =>
      simpa [dropEmptyData, leveled, named, Layer.id] using
        map_leveledOfList_dropEmptyData (above + 1) children

theorem map_leveledOfList_dropEmptyData (above : Nat) (layers : List Layer) :
    (leveledOfList above (dropEmptyDataInList layers)).map named =
      (leveledOfList above layers).map named := by
  match layers with
  | [] => rfl
  | layer :: rest =>
      simp [dropEmptyDataInList, leveledOfList, map_leveled_dropEmptyData above layer,
        map_leveledOfList_dropEmptyData above rest]

end

end Layer

namespace Snapshot

theorem nesting_layers_le {j : Json} {s : Snapshot} (h : ofJson? j = some s) :
    s.layers = [] ∨ Json.nestingItems (Layer.listToJson s.layers) + 2 ≤ j.nesting := by
  rw [ofJson?] at h
  simp only [Option.bind_eq_bind, Option.bind_eq_some_iff] at h
  obtain ⟨r, hr, fileName, -, pageName, -, selection, -, layers, hlayers, heq⟩ := h
  cases heq
  rcases Json.Record.withDefault_eq_some hlayers with rfl | ⟨member, hmem, hread⟩
  · exact .inl rfl
  · obtain ⟨items, hitems, hnesting⟩ := Json.exists_items_of_list? hread
    have hlt := Json.nesting_lt_of_record? hr hmem
    have hbelow := Layer.nesting_listToJson_le hitems fun _ _ => Layer.nesting_toJson_le
    right
    show Json.nestingItems (Layer.listToJson layers) + 2 ≤ j.nesting
    omega

end Snapshot

namespace Document

/-- The contents of an opened document are those of the snapshot, with no selected identifier that
does not occur. -/
theorem toSnapshot_of_ofSnapshot {s : Snapshot} {d : Document} (h : ofSnapshot s = .ok d) :
    d.toSnapshot =
      { s with selection := s.selection.filter fun id => id ∈ Layer.idsOfList s.layers } := by
  rw [ofSnapshot] at h
  split at h
  · cases h
  · cases h
    rfl

/-- A document that is opened from a text can be written again without nesting deeper than a text
may. -/
theorem nesting_toJson_le {contents : String} {s : Snapshot} {d : Document}
    (htext : Snapshot.ofText? contents = some s) (hopen : ofSnapshot s = .ok d) :
    d.toSnapshot.toJson.nesting ≤ Json.maxNesting := by
  obtain ⟨j, hread, hj⟩ := Option.bind_eq_some_iff.mp htext
  have hdepth := Json.nesting_read?_le hread
  have hlayers : d.layers = s.layers := by rw [toSnapshot_of_ofSnapshot hopen]
  rw [Snapshot.nesting_toJson, hlayers]
  rcases Snapshot.nesting_layers_le hj with hnone | hle
  · rw [hnone]
    decide
  · exact Nat.le_trans hle hdepth

/-- The elements, each with the number of elements around it. -/
def levels (d : Document) : List (ElementId × Nat) :=
  (Layer.leveledOfList 0 d.layers).map Layer.named

theorem map_fst_levels (d : Document) : d.levels.map Prod.fst = d.allElements := by
  rw [allElements, ← Layer.map_id_partsOfList, ← Layer.map_fst_leveledOfList 0]
  simp [levels, Layer.named]

theorem levels_write {d d' : Document} {id : ElementId} {key value : String}
    (h : d.write id key value = .ok d') : d'.levels = d.levels := by
  rw [levels, levels, (layers_of_write h).2]
  exact Layer.map_leveledOfList_store id key value 0 d.layers

theorem levels_reopened (d : Document) : d.reopened.levels = d.levels :=
  Layer.map_leveledOfList_dropEmptyData 0 d.layers

/-- A document fits into a depth when each element does at its level. -/
theorem nesting_layers_le_iff (d : Document) (depth : Nat) :
    d.layers = [] ∨ Json.nestingItems (Layer.listToJson d.layers) ≤ depth ↔
      ∀ id level layer, (id, level) ∈ d.levels → d.layer? id = some layer →
        2 * level + layer.ownNesting ≤ depth := by
  have h := Layer.nesting_le_iff_leveledOfList depth 0 d.layers
  rw [Nat.mul_zero, Nat.zero_add] at h
  rw [h]
  constructor
  · intro hplaces id level layer hlevel hlayer
    obtain ⟨place, hplace, heq⟩ := List.mem_map.mp hlevel
    cases heq
    have hpart : place.1 ∈ Layer.partsOfList d.layers := by
      rw [← Layer.map_fst_leveledOfList 0]
      exact List.mem_map_of_mem hplace
    obtain ⟨hlayer, hid⟩ := layer?_eq_some_iff.mp hlayer
    rw [Layer.part_unique d.ids_nodup hlayer hpart hid]
    exact hplaces place hplace
  · rintro hlevels ⟨part, level⟩ hplace
    have hpart : part ∈ Layer.partsOfList d.layers := by
      rw [← Layer.map_fst_leveledOfList 0]
      exact List.mem_map_of_mem hplace
    exact hlevels part.id level part (List.mem_map_of_mem hplace)
      (layer?_eq_some_iff.mpr ⟨hpart, rfl⟩)

/-- A document fits into a text when each element does, at two levels of arrays and objects for
each element around it and two for the document itself. -/
theorem nesting_toJson_le_iff (d : Document) :
    d.toSnapshot.toJson.nesting ≤ Json.maxNesting ↔
      ∀ id level layer, (id, level) ∈ d.levels → d.layer? id = some layer →
        2 * level + layer.ownNesting + 2 ≤ Json.maxNesting := by
  have hdepth : Json.maxNesting = 125 + 2 := rfl
  rw [Snapshot.nesting_toJson, hdepth]
  simp only [Nat.add_le_add_iff_right, ← d.nesting_layers_le_iff 125]
  by_cases hlayers : d.layers = []
  · simp [hlayers, Layer.listToJson, Json.nestingItems]
  · simp [hlayers]

end Document
end DesignMarkup
