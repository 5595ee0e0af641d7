import DesignMarkup.Proofs.Document.ProperForest

/-!
Edits of the tree as splices of the document order.  An element and all that lie below it stand
together in the list of all elements.  A new element goes right behind those of its parent, or to
the end; an element that is deleted takes its own with it.  Nothing else is moved or changed.
-/

namespace DesignMarkup

/-- What is left of a list without a stretch of it. -/
theorem filter_not_mem_append {α : Type} [DecidableEq α] {before block after : List α}
    (h : (before ++ block ++ after).Nodup) :
    (before ++ block ++ after).filter (· ∉ block) = before ++ after := by
  rw [List.nodup_append, List.nodup_append] at h
  obtain ⟨⟨-, -, hbefore⟩, -, hafter⟩ := h
  have hblock : block.filter (· ∉ block) = [] :=
    List.filter_eq_nil_iff.mpr fun x hx => by simpa using hx
  have hkeptBefore : before.filter (· ∉ block) = before :=
    List.filter_eq_self.mpr fun x hx => decide_eq_true fun hmem => hbefore x hx x hmem rfl
  have hkeptAfter : after.filter (· ∉ block) = after :=
    List.filter_eq_self.mpr fun x hx =>
      decide_eq_true fun hmem => hafter x (List.mem_append_right _ hmem) x hx rfl
  rw [List.filter_append, List.filter_append, hblock, hkeptBefore, hkeptAfter, List.append_nil]

theorem map_fst_withoutRows (doomed : List ElementId) (id : ElementId)
    (rows : List (ElementId × Entry)) :
    (withoutRows doomed id rows).map Prod.fst = (rows.map Prod.fst).filter (· ∉ doomed) := by
  rw [withoutRows, List.map_map, List.filter_map]
  rfl

/-- What is found among the rows that are left. -/
theorem lookup_withoutRows (doomed : List ElementId) (id x : ElementId)
    (rows : List (ElementId × Entry)) :
    OrderedMap.lookup x (withoutRows doomed id rows) =
      if x ∈ doomed then none else (OrderedMap.lookup x rows).map (Entry.dropChild id) := by
  have hfilter := OrderedMap.lookup_filter (fun key => decide (key ∉ doomed)) x rows
  rw [withoutRows, OrderedMap.lookup_map_snd (Entry.dropChild id), hfilter]
  by_cases hx : x ∈ doomed <;> simp [hx]

namespace Layer

variable {id : ElementId} (change : Layer → Layer)

-- Below the layer that is looked for nothing is looked at any more, so that the induction follows
-- the way that leads to it.
mutual

theorem exists_ids_modify {layer found : Layer} (hnodup : layer.ids.Nodup)
    (h : layer.find? id = some found) :
    ∃ before after, layer.ids = before ++ found.ids ++ after ∧
      (layer.modify id change).ids = before ++ (change found).ids ++ after := by
  match layer with
  | ⟨element, data, children⟩ =>
      rw [find?] at h
      rw [modify]
      split at h
      · rename_i hid
        obtain rfl := Option.some.inj h
        exact ⟨[], [], by simp, by simp [hid]⟩
      · rename_i hid
        rw [ids, List.nodup_cons] at hnodup
        obtain ⟨before, after, hids, hchanged⟩ := exists_idsOfList_modifyInList hnodup.2 h
        refine ⟨element.id :: before, after, ?_, ?_⟩
        · rw [ids, hids]
          rfl
        · rw [if_neg hid, ids, hchanged]
          rfl

/-- The identifiers of a layer and of those below it stand together, and a change of the layer is
seen there alone. -/
theorem exists_idsOfList_modifyInList {layers : List Layer} {found : Layer}
    (hnodup : (idsOfList layers).Nodup) (h : findInList? id layers = some found) :
    ∃ before after, idsOfList layers = before ++ found.ids ++ after ∧
      idsOfList (modifyInList id change layers) = before ++ (change found).ids ++ after := by
  match layers with
  | [] => cases h
  | layer :: rest =>
      rw [idsOfList, List.nodup_append] at hnodup
      rw [findInList?] at h
      rw [modifyInList, idsOfList, idsOfList]
      split at h
      · rename_i other hother
        obtain rfl := Option.some.inj h
        have hmem : id ∈ layer.ids :=
          (find?_isSome_iff id layer).mp (Option.isSome_of_eq_some hother)
        have hrest : id ∉ idsOfList rest := fun hid => hnodup.2.2 _ hmem _ hid rfl
        obtain ⟨before, after, hids, hchanged⟩ := exists_ids_modify hnodup.1 hother
        refine ⟨before, after ++ idsOfList rest, ?_, ?_⟩
        · rw [hids, List.append_assoc _ after]
        · rw [hchanged, modifyInList_of_not_mem change hrest, List.append_assoc _ after]
      · rename_i hnone
        have hmissing : id ∉ layer.ids := by
          rw [← find?_isSome_iff, hnone]
          exact Bool.false_ne_true
        obtain ⟨before, after, hids, hchanged⟩ := exists_idsOfList_modifyInList hnodup.2.1 h
        refine ⟨layer.ids ++ before, after, ?_, ?_⟩
        · simp only [hids, List.append_assoc]
        · simp only [modify_of_not_mem change hmissing, hchanged, List.append_assoc]

end

end Layer

namespace Document

variable {d d' : Document} {id parent : ElementId} {element : Element}

theorem allElements_insertRoot (h : d.insertRoot element = .ok d') :
    d'.allElements = d.allElements ++ [element.id] := by
  rw [insertRoot] at h
  split at h
  · cases h
  · cases h
    exact Layer.idsOfList_append d.layers [.leaf element]

theorem exists_allElements_insertBelow (h : d.insertBelow parent element = .ok d') :
    ∃ layer before after, d.layer? parent = some layer ∧
      d.allElements = before ++ layer.ids ++ after ∧
      d'.allElements = before ++ layer.ids ++ element.id :: after := by
  rw [insertBelow] at h
  split at h
  · cases h
  · split at h
    · rename_i hparent
      cases h
      obtain ⟨layer, hlayer⟩ := Option.isSome_iff_exists.mp ((d.contains_iff parent).mpr hparent)
      obtain ⟨before, after, hids, hchanged⟩ := Layer.exists_idsOfList_modifyInList
        (Layer.append (.leaf element)) d.ids_nodup hlayer
      refine ⟨layer, before, after, hlayer, hids, hchanged.trans ?_⟩
      have hlast : (Layer.append (.leaf element) layer).ids = layer.ids ++ [element.id] := by
        rw [Layer.ids_eq, Layer.ids_eq, Layer.append, Layer.idsOfList_append]
        rfl
      rw [hlast]
      simp
    · cases h

theorem exists_allElements_remove (h : d.remove id = .ok d') :
    ∃ layer before after, d.layer? id = some layer ∧
      d.allElements = before ++ layer.ids ++ after ∧ d'.allElements = before ++ after := by
  rw [remove] at h
  split at h
  · cases h
  · rename_i layer hlayer
    cases h
    obtain ⟨before, after, hids, -⟩ :=
      Layer.exists_idsOfList_modifyInList (fun layer => layer) d.ids_nodup hlayer
    refine ⟨layer, before, after, hlayer, hids, ?_⟩
    have hrows := congrArg (List.map Prod.fst)
      (Layer.rowsOfList_pruneList none d.ids_nodup hlayer)
    rw [Layer.map_fst_rowsOfList, map_fst_withoutRows, Layer.map_fst_rowsOfList] at hrows
    have hnodup := d.ids_nodup
    rw [hids] at hrows hnodup
    exact hrows.trans (filter_not_mem_append hnodup)

end Document

namespace Table

/-- The texts stored on an element. -/
def data? (t : Table) (id : ElementId) : Option (OrderedMap String String) :=
  (t.entries.find? id).map Entry.data

/-- An element and all that lie below it, parents first. -/
def block (t : Table) (id : ElementId) : List ElementId :=
  id :: t.descendants id

theorem edit_eq_ok_iff {t t' : Table} {e : Edit} :
    t.edit e = (.ok (), t') ↔ e.onTable t = .ok () t' := by
  rw [edit]
  cases e.onTable t with
  | ok value next => simp
  | error refusal next => simp

theorem edit_eq_of_fst {t : Table} {e : Edit} (h : (t.edit e).1 = .ok ()) :
    t.edit e = (.ok (), (t.edit e).2) :=
  Prod.ext h rfl

theorem parent?_eq_join (t : Table) (id : ElementId) :
    t.parent? id = ((t.entries.find? id).map Entry.parent?).join := by
  rw [parent?]
  cases t.entries.find? id <;> rfl

theorem children_eq_getD (t : Table) (id : ElementId) :
    t.children id = ((t.entries.find? id).map Entry.children).getD [] := by
  rw [children]
  cases t.entries.find? id <;> rfl

/-- The identifiers of a layer are the block of its element. -/
theorem Holds.block_eq {t : Table} {d : Document} (h : t.Holds d) {id : ElementId} {layer : Layer}
    (hlayer : d.layer? id = some layer) : t.block id = layer.ids := by
  rw [block, h.shows.descendants, Document.descendants, hlayer, Layer.ids_eq,
    Layer.id_of_findInList? hlayer]

/-- What the insertion of an element does. -/
structure InsertSplices (t : Table) (parent? : Option ElementId) (element : Element) (t' : Table) :
    Prop where
  /-- The element goes right behind its parent and all that lie below the parent. -/
  order_below : ∀ parent, parent? = some parent → ∃ before after,
    t.allElements = before ++ t.block parent ++ after ∧
      t'.allElements = before ++ t.block parent ++ element.id :: after
  order_root : parent? = none → t'.allElements = t.allElements ++ [element.id]
  element?_eq : ∀ id, t'.element? id = if id = element.id then some element else t.element? id
  parent?_eq : ∀ id, t'.parent? id = if id = element.id then parent? else t.parent? id
  children_eq : ∀ id, t'.children id =
    if parent? = some id then t.children id ++ [element.id] else t.children id
  roots_eq : t'.roots = if parent? = none then t.roots ++ [element.id] else t.roots
  data?_eq : ∀ id, t'.data? id = if id = element.id then some .empty else t.data? id
  selection_eq : t'.selection = t.selection
  fileName_eq : t'.fileName = t.fileName
  pageName_eq : t'.pageName = t.pageName

/-- What the deletion of an element does. -/
structure RemoveSplices (t : Table) (id : ElementId) (t' : Table) : Prop where
  /-- The element and all that lie below it are cut out of the order. -/
  order : ∃ before after, t.allElements = before ++ t.block id ++ after ∧
    t'.allElements = before ++ after
  selection_eq : t'.selection = t.selection.filter (· ∉ t.block id)
  gone : ∀ x ∈ t.block id, t'.contains x = false
  element?_eq : ∀ x, x ∉ t.block id → t'.element? x = t.element? x
  parent?_eq : ∀ x, x ∉ t.block id → t'.parent? x = t.parent? x
  children_eq : ∀ x, x ∉ t.block id → t'.children x = (t.children x).filter (· ≠ id)
  roots_eq : t'.roots = t.roots.filter (· ≠ id)
  data?_eq : ∀ x, x ∉ t.block id → t'.data? x = t.data? x
  fileName_eq : t'.fileName = t.fileName
  pageName_eq : t'.pageName = t.pageName

section Insert

variable {t t' : Table} {parent? : Option ElementId} {element : Element}

theorem insert_cases (h : insert parent? element t = .ok () t') :
    ¬ t.contains element.id = true ∧
      ((parent? = none ∧
          t' = { t with roots := t.roots ++ [element.id] }.setEntry element.id
            (.leaf parent? element)) ∨
        ∃ parent entry, parent? = some parent ∧ t.entries.find? parent = some entry ∧
          t' = (t.setEntry parent (entry.addChildren [element.id])).setEntry element.id
            (.leaf parent? element)) := by
  by_cases hnew : t.contains element.id = true
  · rw [insert_eq_of_contains hnew] at h
    cases h
  · refine ⟨hnew, ?_⟩
    cases parent? with
    | none =>
        have hlist : list none element.id t = .ok () { t with roots := t.roots ++ [element.id] } :=
          rfl
        rw [insert_eq_of_list hnew hlist] at h
        cases h
        exact .inl ⟨rfl, rfl⟩
    | some parent =>
        cases hfind : t.entries.find? parent with
        | none =>
            rw [insert_eq_of_list_error hnew (list_some_eq_error hfind element.id)] at h
            cases h
        | some entry =>
            rw [insert_eq_of_list hnew (list_some_eq hfind element.id)] at h
            cases h
            exact .inr ⟨parent, entry, rfl, hfind, rfl⟩

variable (h : insert parent? element t = .ok () t')
include h

/-- The new element has an entry of its own, and of the others only that of its parent changes. -/
theorem find?_of_insert (id : ElementId) :
    t'.entries.find? id =
      if id = element.id then some (.leaf parent? element)
      else (t.entries.find? id).map fun entry =>
        if parent? = some id then entry.addChildren [element.id] else entry := by
  obtain ⟨hnew, ⟨rfl, rfl⟩ | ⟨parent, entry, rfl, hfind, rfl⟩⟩ := insert_cases h
  · by_cases hid : id = element.id
    · simp [setEntry, hid]
    · simp [setEntry, hid, Ne.symm hid]
  · by_cases hid : id = element.id
    · simp [setEntry, hid]
    · by_cases hparent : parent = id
      · subst hparent
        simp [setEntry, hid, Ne.symm hid, hfind]
      · simp [setEntry, hid, Ne.symm hid, hparent]

theorem roots_of_insert :
    t'.roots = if parent? = none then t.roots ++ [element.id] else t.roots := by
  obtain ⟨-, ⟨rfl, rfl⟩ | ⟨parent, entry, rfl, -, rfl⟩⟩ := insert_cases h <;> rfl

theorem frame_of_insert :
    t'.selection = t.selection ∧ t'.fileName = t.fileName ∧ t'.pageName = t.pageName := by
  obtain ⟨-, ⟨rfl, rfl⟩ | ⟨parent, entry, rfl, -, rfl⟩⟩ := insert_cases h <;> exact ⟨rfl, rfl, rfl⟩

/-- What entries tell apart from their children is as before, but for the new element. -/
theorem map_find?_of_insert {α : Type} (view : Entry → α)
    (hview : ∀ ids entry, view (entry.addChildren ids) = view entry) (id : ElementId) :
    (t'.entries.find? id).map view =
      if id = element.id then some (view (.leaf parent? element))
      else (t.entries.find? id).map view := by
  rw [find?_of_insert h]
  split
  · rfl
  · rw [Option.map_map]
    refine Option.map_congr fun entry _ => ?_
    rw [Function.comp_apply]
    split
    · exact hview _ entry
    · rfl

theorem children_of_insert (id : ElementId) :
    t'.children id =
      if parent? = some id then t.children id ++ [element.id] else t.children id := by
  obtain ⟨hnew, hcases⟩ := insert_cases h
  have hmissing : t.entries.find? element.id = none := Option.not_isSome_iff_eq_none.mp hnew
  rw [children_eq_getD, children_eq_getD, find?_of_insert h]
  by_cases hid : id = element.id
  · -- the parent was there before, so it is not the new element
    have hparent : parent? ≠ some id := by
      rintro rfl
      obtain ⟨hnone, -⟩ | ⟨parent, entry, hsome, hfind, -⟩ := hcases
      · cases hnone
      · rw [← Option.some.inj hsome, hid, hmissing] at hfind
        cases hfind
    rw [if_pos hid, if_neg hparent, hid, hmissing]
    rfl
  · rw [if_neg hid]
    by_cases hparent : parent? = some id
    · obtain ⟨hnone, -⟩ | ⟨parent, entry, hsome, hfind, -⟩ := hcases
      · rw [hnone] at hparent
        cases hparent
      · rw [hsome] at hparent
        rw [Option.some.inj hparent] at hfind
        simp [hsome, hparent, hfind, Entry.addChildren]
    · simp [hparent]

theorem order_of_insert {d : Document} (hholds : t.Holds d) :
    (∀ parent, parent? = some parent → ∃ before after,
      t.allElements = before ++ t.block parent ++ after ∧
        t'.allElements = before ++ t.block parent ++ element.id :: after) ∧
      (parent? = none → t'.allElements = t.allElements ++ [element.id]) := by
  have hfollows := hholds.follows_insert parent? element
  rw [h] at hfollows
  cases hdocument : d.insert parent? element with
  | error refusal =>
      rw [hdocument] at hfollows
      cases hfollows
  | ok d' =>
      rw [hdocument] at hfollows
      cases hfollows with
      | ok holds =>
          rw [hholds.allElements_eq, holds.allElements_eq]
          constructor
          · rintro parent rfl
            obtain ⟨layer, before, after, hlayer, horder, horder'⟩ :=
              Document.exists_allElements_insertBelow hdocument
            rw [hholds.block_eq hlayer]
            exact ⟨before, after, horder, horder'⟩
          · rintro rfl
            exact Document.allElements_insertRoot hdocument

theorem insertSplices {d : Document} (hholds : t.Holds d) :
    InsertSplices t parent? element t' where
  order_below := (order_of_insert h hholds).1
  order_root := (order_of_insert h hholds).2
  element?_eq := map_find?_of_insert h Entry.element fun _ _ => rfl
  parent?_eq id := by
    rw [parent?_eq_join, map_find?_of_insert h Entry.parent? (fun _ _ => rfl), parent?_eq_join]
    split <;> rfl
  children_eq := children_of_insert h
  roots_eq := roots_of_insert h
  data?_eq := map_find?_of_insert h Entry.data fun _ _ => rfl
  selection_eq := (frame_of_insert h).1
  fileName_eq := (frame_of_insert h).2.1
  pageName_eq := (frame_of_insert h).2.2

end Insert

section Remove

variable {t t' : Table} {d : Document} {id : ElementId} (hholds : t.Holds d)
  (h : remove id t = .ok () t')
include hholds h

theorem remove_cases :
    ∃ layer next, d.layer? id = some layer ∧ Detached id t next ∧ t' = next.discard id := by
  cases hlayer : d.layer? id with
  | none =>
      rw [remove, bind_error (entryOf_eq_error (hholds.find?_of_layer?_eq_none hlayer))] at h
      cases h
  | some layer =>
      obtain ⟨above?, hfind⟩ := hholds.find?_of_layer? hlayer
      rw [remove_eq hfind] at h
      cases h
      exact ⟨layer, _, rfl, hholds.detached hfind, rfl⟩

/-- No entry of the block is left, and in the others nothing changes but the children. -/
theorem find?_of_remove (x : ElementId) :
    t'.entries.find? x =
      if x ∈ t.block id then none else (t.entries.find? x).map (Entry.dropChild id) := by
  obtain ⟨layer, next, hlayer, hdetached, rfl⟩ := remove_cases hholds h
  rw [OrderedMap.find?, hholds.entries_discard hlayer hdetached, lookup_withoutRows,
    hholds.block_eq hlayer]
  rfl

/-- What entries tell apart from their children is as before. -/
theorem map_find?_of_remove {α : Type} (view : Entry → α)
    (hview : ∀ id entry, view (Entry.dropChild id entry) = view entry) {x : ElementId}
    (hx : x ∉ t.block id) : (t'.entries.find? x).map view = (t.entries.find? x).map view := by
  rw [find?_of_remove hholds h, if_neg hx, Option.map_map]
  exact Option.map_congr fun entry _ => hview id entry

theorem children_of_remove {x : ElementId} (hx : x ∉ t.block id) :
    t'.children x = (t.children x).filter (· ≠ id) := by
  rw [children_eq_getD, children_eq_getD, find?_of_remove hholds h, if_neg hx]
  cases t.entries.find? x <;> rfl

theorem selection_of_remove : t'.selection = t.selection.filter (· ∉ t.block id) := by
  obtain ⟨layer, next, hlayer, hdetached, rfl⟩ := remove_cases hholds h
  rw [hholds.block_eq hlayer]
  show next.selection.filter _ = t.selection.filter _
  rw [hdetached.selection]
  refine List.filter_congr fun x _ => ?_
  exact decide_eq_decide.mpr (not_congr (hholds.mem_doomed hlayer hdetached x))

theorem order_of_remove :
    ∃ before after, t.allElements = before ++ t.block id ++ after ∧
      t'.allElements = before ++ after := by
  have hfollows := hholds.follows_remove id
  rw [h] at hfollows
  cases hdocument : d.remove id with
  | error refusal =>
      rw [hdocument] at hfollows
      cases hfollows
  | ok d' =>
      rw [hdocument] at hfollows
      cases hfollows with
      | ok holds =>
          obtain ⟨layer, before, after, hlayer, horder, horder'⟩ :=
            Document.exists_allElements_remove hdocument
          rw [hholds.allElements_eq, holds.allElements_eq, hholds.block_eq hlayer]
          exact ⟨before, after, horder, horder'⟩

theorem removeSplices : RemoveSplices t id t' where
  order := order_of_remove hholds h
  selection_eq := selection_of_remove hholds h
  gone x hx := by
    rw [contains, OrderedMap.contains, find?_of_remove hholds h, if_pos hx]
    rfl
  element?_eq x hx := map_find?_of_remove hholds h Entry.element (fun _ _ => rfl) hx
  parent?_eq x hx := by
    rw [parent?_eq_join, map_find?_of_remove hholds h Entry.parent? (fun _ _ => rfl) hx,
      parent?_eq_join]
  children_eq x hx := children_of_remove hholds h hx
  roots_eq := by
    obtain ⟨layer, next, -, hdetached, rfl⟩ := remove_cases hholds h
    exact hdetached.roots
  data?_eq x hx := map_find?_of_remove hholds h Entry.data (fun _ _ => rfl) hx
  fileName_eq := by
    obtain ⟨layer, next, -, hdetached, rfl⟩ := remove_cases hholds h
    exact hdetached.fileName
  pageName_eq := by
    obtain ⟨layer, next, -, hdetached, rfl⟩ := remove_cases hholds h
    exact hdetached.pageName

end Remove

/-- However a table begins and whatever edits are made of it, inserting an element puts it into the
document order at its place and changes nothing else, and deleting one cuts it out together with all
that lie below it. -/
theorem edits_splice {start : Start} {begun : Table} (h : start.table = .ok begun)
    (edits : List Edit) :
    let t := (begun.editAll edits).2
    (∀ parent? element t', t.edit (.insert parent? element) = (.ok (), t') →
      InsertSplices t parent? element t') ∧
      ∀ id t', t.edit (.remove id) = (.ok (), t') → RemoveSplices t id t' := by
  intro t
  obtain ⟨d, -, hbegun⟩ := start.exists_holds h
  have hholds : t.Holds (d.editAll edits).2 := (hbegun.editAll edits).2
  constructor
  · intro parent? element t' hedit
    exact insertSplices (edit_eq_ok_iff.mp hedit) hholds
  · intro id t' hedit
    exact removeSplices hholds (edit_eq_ok_iff.mp hedit)

/-- In the edited card page a tag is put below the price, behind the label that lies there, and then
the price is deleted with both. -/
theorem edits_splice_cardPage :
    let card : ElementId := ⟨"card", rfl⟩
    let price : ElementId := ⟨"price", rfl⟩
    let label : ElementId := ⟨"label", rfl⟩
    let note : ElementId := ⟨"note", rfl⟩
    let tag : Element := ⟨⟨"tag", rfl⟩, "Tag", .text, none, none, none⟩
    ∃ begun t t', (Start.snapshot cardPage).table = .ok begun ∧
      (begun.editAll cardEdits).2.edit (.insert (some price) tag) = (.ok (), t) ∧
      InsertSplices (begun.editAll cardEdits).2 (some price) tag t ∧
      t.allElements = [card, price, label, tag.id, note] ∧
      (begun.editAll cardEdits).2.edit (.remove price) = (.ok (), t') ∧
      RemoveSplices (begun.editAll cardEdits).2 price t' ∧
      t'.allElements = [card, note] ∧ t'.selection = [] := by
  intro card price label note tag
  obtain ⟨begun, htable⟩ : ∃ begun, (Start.snapshot cardPage).table = .ok begun := ⟨_, rfl⟩
  obtain ⟨d, hdocument, hbegun⟩ := (Start.snapshot cardPage).exists_holds htable
  cases hdocument
  obtain ⟨hinserts, hremoves⟩ := edits_splice htable cardEdits
  have hholds := (hbegun.editAll cardEdits).2
  obtain ⟨hanswer, hinserted⟩ := hholds.edit (.insert (some price) tag)
  obtain ⟨hanswer', hremoved⟩ := hholds.edit (.remove price)
  have hinsert := edit_eq_of_fst (hanswer.trans (by rfl))
  have hremove := edit_eq_of_fst (hanswer'.trans (by rfl))
  refine ⟨begun, _, _, htable, hinsert, hinserts _ _ _ hinsert, ?_, hremove,
    hremoves _ _ hremove, ?_, ?_⟩
  · rw [hinserted.allElements_eq]
    rfl
  · rw [hremoved.allElements_eq]
    rfl
  · rw [hremoved.selection]
    rfl

end Table
end DesignMarkup
