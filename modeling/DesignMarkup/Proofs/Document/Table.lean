import DesignMarkup.Proofs.Document.Rows
import DesignMarkup.Proofs.Document.Walk

/-!
Tables hold documents.  What is held is told by the rows: the entries of the table are those of the
layers, in any order.  Each operation on a table answers as the operation on the document does; if
it is refused, the table is as before, and otherwise it holds the document that results.
-/

namespace DesignMarkup
namespace Table

/-- A table holds a document: it lists the same elements at the top and has a row for each layer. -/
structure Holds (t : Table) (d : Document) : Prop where
  fileName : t.fileName = d.fileName
  pageName : t.pageName = d.pageName
  roots : t.roots = d.roots
  selection : t.selection = d.selection
  rows : t.entries.entries.Perm (Layer.rowsOfList none d.layers)

theorem children_outline (t : Table) (id : ElementId) : t.outline.children id = t.children id := by
  have hlookup := OrderedMap.lookup_map_snd Entry.children id t.entries.entries
  rw [Outline.children, children]
  show (OrderedMap.lookup id (t.entries.entries.map fun row => (row.1, row.2.children))).getD [] = _
  rw [hlookup]
  show ((t.entries.find? id).map Entry.children).getD [] = _
  cases t.entries.find? id <;> rfl

namespace Holds

variable {t : Table} {d : Document} (h : t.Holds d)
include h

theorem find?_eq_some_iff {id : ElementId} {entry : Entry} :
    t.entries.find? id = some entry ↔ (id, entry) ∈ Layer.rowsOfList none d.layers := by
  rw [← OrderedMap.mem_entries_iff, h.rows.mem_iff]

theorem contains_iff {id : ElementId} : t.contains id = true ↔ id ∈ d.allElements := by
  rw [Table.contains, OrderedMap.contains_iff, OrderedMap.keys, (h.rows.map Prod.fst).mem_iff,
    Layer.map_fst_rowsOfList]
  rfl

theorem size_eq : t.size = d.size := by
  rw [Table.size, OrderedMap.size, h.rows.length_eq, ← List.length_map Prod.fst,
    Layer.map_fst_rowsOfList]
  rfl

/-- The entry of an element is that of its layer. -/
theorem find?_of_layer? {id : ElementId} {layer : Layer} (hlayer : d.layer? id = some layer) :
    ∃ above?, t.entries.find? id = some (layer.ownEntry above?) := by
  obtain ⟨hmem, rfl⟩ := Document.layer?_eq_some_iff.mp hlayer
  obtain ⟨above?, hrow⟩ := Layer.exists_row_of_mem_partsOfList d.ids_nodup hmem
  exact ⟨above?, h.find?_eq_some_iff.mpr hrow⟩

theorem find?_of_layer?_eq_none {id : ElementId} (hlayer : d.layer? id = none) :
    t.entries.find? id = none := by
  have hmissing : ¬ t.contains id = true := by
    rw [h.contains_iff, ← Document.contains_iff, Document.contains, hlayer]
    exact Bool.false_ne_true
  exact Option.not_isSome_iff_eq_none.mp hmissing

theorem exists_find?_eq (id : ElementId) :
    ∃ above?, t.entries.find? id = (d.layer? id).map (Layer.ownEntry above?) := by
  cases hlayer : d.layer? id with
  | none => exact ⟨none, h.find?_of_layer?_eq_none hlayer⟩
  | some layer => exact h.find?_of_layer? hlayer

theorem tells : d.Tells t.outline := by
  have hbranches : t.outline.branches.entries.Perm d.outline.branches.entries := by
    have hrows := h.rows.map fun row => (row.1, row.2.children)
    rw [Layer.map_children_rowsOfList] at hrows
    exact hrows
  have hdocument := d.tells_outline
  constructor
  case roots => exact h.roots
  case size =>
    rw [← hdocument.size]
    exact hbranches.length_eq
  case children =>
    intro id
    rw [← hdocument.children, Outline.children, Outline.children,
      OrderedMap.find?_of_perm hbranches]

theorem children_eq (id : ElementId) : t.children id = d.children id := by
  rw [← children_outline]
  exact h.tells.children id

/-- The parent of an element is the one that has it among its children. -/
theorem parent?_eq_some_iff {parent child : ElementId} :
    t.parent? child = some parent ↔ child ∈ t.children parent := by
  rw [h.children_eq, Document.mem_children_iff, Table.parent?, Option.bind_eq_some_iff]
  constructor
  · rintro ⟨entry, hfind, hparent⟩
    rw [h.find?_eq_some_iff, Layer.mem_rowsOfList_iff] at hfind
    rcases hfind with ⟨layer, hlayer, hrow⟩ | ⟨upper, hupper, below, hbelow, hrow⟩
    · cases hrow
      cases hparent
    · cases hrow
      cases hparent
      exact ⟨upper, hupper, rfl, List.mem_map_of_mem hbelow⟩
  · rintro ⟨upper, hupper, rfl, hchild⟩
    obtain ⟨below, hbelow, rfl⟩ := List.mem_map.mp hchild
    refine ⟨below.ownEntry (some upper.id), ?_, rfl⟩
    rw [h.find?_eq_some_iff, Layer.mem_rowsOfList_iff]
    exact .inr ⟨upper, hupper, below, hbelow, rfl⟩

/-- The elements without a parent are those at the top. -/
theorem parent?_eq_none_iff {id : ElementId} (hid : t.contains id = true) :
    t.parent? id = none ↔ id ∈ t.roots := by
  rw [h.roots, Document.roots]
  obtain ⟨entry, hfind⟩ := Option.isSome_iff_exists.mp hid
  rw [Table.parent?, hfind, Option.bind_some]
  rw [h.find?_eq_some_iff] at hfind
  constructor
  · intro hparent
    rw [Layer.mem_rowsOfList_iff] at hfind
    rcases hfind with ⟨layer, hlayer, hrow⟩ | ⟨upper, hupper, below, -, hrow⟩
    · cases hrow
      exact List.mem_map_of_mem hlayer
    · cases hrow
      cases hparent
  · intro hroot
    obtain ⟨layer, hlayer, rfl⟩ := List.mem_map.mp hroot
    have hrow : (layer.id, layer.ownEntry none) ∈ Layer.rowsOfList none d.layers :=
      Layer.mem_rowsOfList_iff.mpr (.inl ⟨layer, hlayer, rfl⟩)
    rw [← h.find?_eq_some_iff] at hfind hrow
    rw [hfind] at hrow
    cases hrow
    rfl

end Holds

section Steps

variable {α β : Type} {x : EStateM HostError Table α} {next : α → EStateM HostError Table β}
  {t t' : Table} {a : α} {refusal : HostError}

theorem bind_ok (h : x t = .ok a t') : (x >>= next) t = next a t' := by
  show EStateM.bind x next t = _
  rw [EStateM.bind, h]

theorem bind_error (h : x t = .error refusal t') : (x >>= next) t = .error refusal t' := by
  show EStateM.bind x next t = _
  rw [EStateM.bind, h]

theorem get_eq (t : Table) : (get : EStateM HostError Table Table) t = .ok t t :=
  rfl

end Steps

section Entries

variable {t : Table} {id : ElementId} {entry : Entry}

theorem entryOf_eq (h : t.entries.find? id = some entry) : entryOf id t = .ok entry t := by
  rw [entryOf, bind_ok (get_eq t), h]
  rfl

theorem entryOf_eq_error (h : t.entries.find? id = none) :
    entryOf id t = .error (.elementNotFound id) t := by
  rw [entryOf, bind_ok (get_eq t), h]
  rfl

theorem list_some_eq (h : t.entries.find? id = some entry) (child : ElementId) :
    list (some id) child t = .ok () (t.setEntry id (entry.addChildren [child])) := by
  rw [list, bind_ok (entryOf_eq h)]
  rfl

theorem list_some_eq_error (h : t.entries.find? id = none) (child : ElementId) :
    list (some id) child t = .error (.elementNotFound id) t := by
  rw [list, bind_error (entryOf_eq_error h)]

/-- Setting an entry that is there makes no other element known. -/
theorem not_contains_setEntry (hid : t.contains id = true) {other : ElementId}
    (hother : ¬ t.contains other = true) (entry : Entry) :
    ¬ (t.setEntry id entry).contains other = true := by
  have hne : id ≠ other := by
    rintro rfl
    exact hother hid
  rw [contains, setEntry, OrderedMap.contains, OrderedMap.find?_insert, if_neg hne]
  exact hother

end Entries

/-- The answer to an operation on a table follows that to one on a document: both refuse for the
same reason and the table is left alone, or the table holds the resulting document. -/
inductive Follows (t : Table) :
    EStateM.Result HostError Table Unit → Except HostError Document → Prop
  | ok {t' : Table} {d' : Document} (holds : t'.Holds d') : Follows t (.ok () t') (.ok d')
  | error (refusal : HostError) : Follows t (.error refusal t) (.error refusal)

section Insert

variable {t t' : Table} {parent? : Option ElementId} {element : Element}

theorem insert_eq_of_contains (h : t.contains element.id = true) :
    insert parent? element t = .error (.duplicateElement element.id) t := by
  rw [insert, bind_ok (get_eq t), if_pos h]
  rfl

theorem insert_eq_of_list (h : ¬ t.contains element.id = true)
    (hlist : list parent? element.id t = .ok () t') :
    insert parent? element t = .ok () (t'.setEntry element.id (.leaf parent? element)) := by
  rw [insert, bind_ok (get_eq t), if_neg h, bind_ok hlist]
  rfl

theorem insert_eq_of_list_error {refusal : HostError} (h : ¬ t.contains element.id = true)
    (hlist : list parent? element.id t = .error refusal t') :
    insert parent? element t = .error refusal t' := by
  rw [insert, bind_ok (get_eq t), if_neg h, bind_error hlist]

end Insert

namespace Holds

variable {t : Table} {d : Document} (h : t.Holds d)
include h

/-- Where only entries change and layers below each other, the rows are all there is to compare. -/
theorem of_rows {entries : OrderedMap ElementId Entry} {id : ElementId} {change : Layer → Layer}
    (hid : ∀ layer, (change layer).id = layer.id)
    (hnodup : (Layer.idsOfList (Layer.modifyInList id change d.layers)).Nodup)
    (hrows : entries.entries.Perm (Layer.rowsOfList none (Layer.modifyInList id change d.layers))) :
    Holds { t with entries }
      { d with layers := Layer.modifyInList id change d.layers, ids_nodup := hnodup } := by
  constructor
  case fileName => exact h.fileName
  case pageName => exact h.pageName
  case selection => exact h.selection
  case rows => exact hrows
  case roots =>
    show t.roots = (Layer.modifyInList _ _ _).map Layer.id
    rw [h.roots, Layer.map_id_modifyInList hid]
    rfl

theorem follows_insertRoot (element : Element) :
    Follows t (Table.insert none element t) (d.insertRoot element) := by
  rw [Document.insertRoot]
  by_cases hmem : element.id ∈ d.allElements
  · rw [dif_pos hmem, insert_eq_of_contains (h.contains_iff.mpr hmem)]
    exact Follows.error _
  · have hnew : ¬ t.contains element.id = true := fun hc => hmem (h.contains_iff.mp hc)
    have hlist : Table.list none element.id t =
        .ok () { t with roots := t.roots ++ [element.id] } := rfl
    rw [dif_neg hmem, insert_eq_of_list hnew hlist]
    apply Follows.ok
    constructor
    case fileName => exact h.fileName
    case pageName => exact h.pageName
    case selection => exact h.selection
    case roots =>
      show t.roots ++ [element.id] = (d.layers ++ [Layer.leaf element]).map Layer.id
      rw [h.roots, Document.roots, List.map_append]
      rfl
    case rows =>
      show (t.entries.insert element.id _).entries.Perm (Layer.rowsOfList none (_ ++ _))
      rw [OrderedMap.entries_insert_of_not_contains hnew, Layer.rowsOfList_append]
      exact h.rows.append_right _

theorem follows_insertBelow (parent : ElementId) (element : Element) :
    Follows t (Table.insert (some parent) element t) (d.insertBelow parent element) := by
  rw [Document.insertBelow]
  by_cases hmem : element.id ∈ d.allElements
  · rw [dif_pos hmem, insert_eq_of_contains (h.contains_iff.mpr hmem)]
    exact Follows.error _
  · have hnew : ¬ t.contains element.id = true := fun hc => hmem (h.contains_iff.mp hc)
    rw [dif_neg hmem]
    by_cases hparent : parent ∈ d.allElements
    · have hcontains := h.contains_iff.mpr hparent
      obtain ⟨entry, hfind⟩ := Option.isSome_iff_exists.mp hcontains
      rw [dif_pos hparent, insert_eq_of_list hnew (list_some_eq hfind element.id)]
      apply Follows.ok
      have hstillNew := not_contains_setEntry hcontains hnew (entry.addChildren [element.id])
      have hrows := Layer.rowsOfList_append_perm none hparent d.ids_nodup (Layer.leaf element)
      apply h.of_rows (Layer.id_append (Layer.leaf element))
      rw [OrderedMap.entries_insert_of_not_contains hstillNew, setEntry,
        entries_insert_eq_changeRow hfind]
      exact ((h.rows.map _).append_right _).trans hrows.symm
    · have hfind : t.entries.find? parent = none :=
        Option.not_isSome_iff_eq_none.mp fun hc => hparent (h.contains_iff.mp hc)
      rw [dif_neg hparent, insert_eq_of_list_error hnew (list_some_eq_error hfind element.id)]
      exact Follows.error _

theorem follows_insert (parent? : Option ElementId) (element : Element) :
    Follows t (Table.insert parent? element t) (d.insert parent? element) := by
  cases parent? with
  | some parent => exact h.follows_insertBelow parent element
  | none => exact h.follows_insertRoot element

theorem follows_select (ids : List ElementId) :
    Follows t (Table.select ids t) (.ok (d.select ids)) :=
  Follows.ok ⟨h.fileName, h.pageName, h.roots, rfl, h.rows⟩

theorem follows_write (id : ElementId) (key value : String) :
    Follows t (Table.write id key value t) (d.write id key value) := by
  rw [Document.write, Table.write]
  cases hlayer : d.layer? id with
  | none =>
      have hcontains : ¬ d.contains id = true := by
        rw [Document.contains, hlayer]
        exact Bool.false_ne_true
      rw [if_neg hcontains, bind_error (entryOf_eq_error (h.find?_of_layer?_eq_none hlayer))]
      exact Follows.error _
  | some layer =>
      have hcontains : d.contains id = true := by
        rw [Document.contains, hlayer]
        rfl
      have hmem := (d.contains_iff id).mp hcontains
      obtain ⟨above?, hfind⟩ := h.find?_of_layer? hlayer
      rw [if_pos hcontains, bind_ok (entryOf_eq hfind)]
      apply Follows.ok
      have hrows := Layer.rowsOfList_store_perm none hmem d.ids_nodup key value
      apply h.of_rows (Layer.id_store key value)
      rw [entries_insert_eq_changeRow hfind]
      exact (h.rows.map _).trans hrows.symm

end Holds

theorem children_eq_of_mem {t : Table} {row : ElementId × Entry} (h : row ∈ t.entries.entries) :
    t.children row.1 = row.2.children := by
  rw [children, OrderedMap.mem_entries_iff.mp h]

section Remove

variable {t : Table} {d : Document} {id : ElementId} {entry : Entry}

theorem detach_of_parent {parent : ElementId} {upper : Entry}
    (h : t.entries.find? parent = some upper) :
    t.detach id (some parent) = t.setEntry parent (upper.dropChild id) := by
  rw [detach, Option.bind_some, h]
  rfl

/-- An element is among the children of no other element than its parent. -/
theorem Holds.dropChild_eq (h : t.Holds d) {row : ElementId × Entry}
    (hrow : row ∈ t.entries.entries) (hparent : t.parent? id ≠ some row.1) :
    row.2.dropChild id = row.2 := by
  apply Entry.dropChild_of_not_mem
  rw [← children_eq_of_mem hrow, ← h.parent?_eq_some_iff]
  exact hparent

theorem Holds.exists_find?_of_mem_children (h : t.Holds d) {parent : ElementId}
    (hchild : id ∈ t.children parent) : ∃ upper, t.entries.find? parent = some upper := by
  rw [h.children_eq, Document.children] at hchild
  cases hlayer : d.layer? parent with
  | none =>
      rw [hlayer] at hchild
      cases hchild
  | some layer =>
      obtain ⟨above?, hfind⟩ := h.find?_of_layer? hlayer
      exact ⟨_, hfind⟩

/-- An element has been taken out of all lists of a table, and nothing else was done to it. -/
structure Detached (id : ElementId) (t t' : Table) : Prop where
  fileName : t'.fileName = t.fileName
  pageName : t'.pageName = t.pageName
  selection : t'.selection = t.selection
  roots : t'.roots = t.roots.filter (· ≠ id)
  rows : t'.entries.entries = t.entries.entries.map fun row => (row.1, row.2.dropChild id)

/-- An element at the top is among no children. -/
theorem Holds.detached_of_no_parent (h : t.Holds d) (habove : t.parent? id = none) :
    Detached id t (t.detach id none) := by
  refine ⟨rfl, rfl, rfl, rfl, ?_⟩
  refine ((List.map_congr_left ?_).trans (List.map_id _)).symm
  intro row hrow
  have hother : t.parent? id ≠ some row.1 := by
    rw [habove]
    exact (Option.some_ne_none _).symm
  rw [h.dropChild_eq hrow hother]
  rfl

/-- An element with a parent is not at the top and among no other children. -/
theorem Holds.detached_of_parent (h : t.Holds d) {parent : ElementId}
    (hcontains : t.contains id = true) (habove : t.parent? id = some parent) :
    Detached id t (t.detach id (some parent)) := by
  obtain ⟨upper, hupper⟩ := h.exists_find?_of_mem_children (h.parent?_eq_some_iff.mp habove)
  have hnotRoot : id ∉ t.roots := by
    rw [← h.parent?_eq_none_iff hcontains, habove]
    exact Option.some_ne_none parent
  rw [detach_of_parent hupper]
  refine ⟨rfl, rfl, rfl, ?_, ?_⟩
  · apply (List.filter_eq_self.mpr _).symm
    intro root hroot
    simpa using ne_of_mem_of_not_mem hroot hnotRoot
  · rw [setEntry, entries_insert_eq_changeRow hupper]
    apply List.map_congr_left
    intro row hrow
    by_cases hrowParent : row.1 = parent
    · rw [if_pos hrowParent]
    · rw [if_neg hrowParent, h.dropChild_eq hrow]
      rw [habove]
      intro hsame
      exact hrowParent (Option.some.inj hsame).symm

/-- An element is listed where its entry says and nowhere else, so that taking it out from there is
taking it out everywhere. -/
theorem Holds.detached (h : t.Holds d) (hfind : t.entries.find? id = some entry) :
    Detached id t (t.detach id entry.parent?) := by
  have hcontains : t.contains id = true := Option.isSome_iff_exists.mpr ⟨entry, hfind⟩
  have habove : t.parent? id = entry.parent? := by
    rw [parent?, hfind, Option.bind_some]
  cases hparent : entry.parent? with
  | none => exact h.detached_of_no_parent (habove.trans hparent)
  | some parent => exact h.detached_of_parent hcontains (habove.trans hparent)

section Below

variable {t' : Table} {layer : Layer} (h : t.Holds d) (hlayer : d.layer? id = some layer)
  (hdetached : Detached id t t')
include h hlayer hdetached

/-- Once an element is listed nowhere, the table still tells what lies right below it and below
those. -/
theorem Holds.children_of_branch {branch : ElementId × List ElementId}
    (hbranch : branch ∈ layer.branches) : t'.outline.children branch.1 = branch.2 := by
  obtain ⟨hmem, rfl⟩ := Document.layer?_eq_some_iff.mp hlayer
  have hnodup := d.ids_nodup.sublist (Layer.ids_sublist_of_mem_partsOfList hmem)
  rw [Layer.ids_eq, List.nodup_cons] at hnodup
  rw [Layer.branches_eq_map_parts] at hbranch
  obtain ⟨part, hpart, rfl⟩ := List.mem_map.mp hbranch
  have hpartMem : part ∈ Layer.partsOfList d.layers := by
    rw [Layer.parts_eq] at hpart
    rcases List.mem_cons.mp hpart with rfl | hbelow
    · exact hmem
    · exact Layer.partsOfList_children_subset_of_list hmem hbelow
  obtain ⟨above?, hfind⟩ := h.find?_of_layer? (Document.layer?_eq_some_iff.mpr ⟨hpartMem, rfl⟩)
  have hrow : (part.id, (part.ownEntry above?).dropChild layer.id) ∈ t'.entries.entries := by
    rw [hdetached.rows]
    exact List.mem_map_of_mem (OrderedMap.mem_entries_iff.mpr hfind)
  have hnotChild : layer.id ∉ (part.ownEntry above?).children := by
    intro hchild
    obtain ⟨child, hchildMem, hid⟩ := List.mem_map.mp hchild
    have hbelow := Layer.partsOfList_children_subset hpart (Layer.mem_partsOfList_of_mem hchildMem)
    exact hnodup.1 (Layer.mem_idsOfList.mpr ⟨child, hbelow, hid⟩)
  rw [Entry.dropChild_of_not_mem hnotChild] at hrow
  rw [children_outline]
  exact children_eq_of_mem hrow

/-- What is doomed is found although the element is listed nowhere any more. -/
theorem Holds.descendants_eq : t'.descendants id = Layer.idsOfList layer.children := by
  have hbranches := fun branch (hbranch : branch ∈ layer.branches) =>
    h.children_of_branch hlayer hdetached hbranch
  have hid := (Document.layer?_eq_some_iff.mp hlayer).2
  rw [Layer.branches_eq, List.forall_mem_cons, hid] at hbranches
  have hlisted : d.descendants id = Layer.idsOfList layer.children := by
    rw [Document.descendants, hlayer]
  apply Outline.descendants_eq
  · rw [hbranches.1]
    exact Layer.walks_idsOfList hbranches.2
  · have hsize : t'.outline.branches.size = d.size := by
      rw [← h.size_eq]
      show (t'.entries.entries.map _).length = t.entries.entries.length
      rw [hdetached.rows, List.length_map, List.length_map]
    rw [hsize, ← hlisted]
    exact (d.descendants_sublist id).length_le

theorem Holds.mem_doomed (x : ElementId) : x ∈ t'.descendants id ++ [id] ↔ x ∈ layer.ids := by
  rw [h.descendants_eq hlayer hdetached, Layer.ids_eq, (Document.layer?_eq_some_iff.mp hlayer).2,
    List.mem_append, List.mem_singleton, List.mem_cons, or_comm]

theorem Holds.entries_discard :
    (t'.discard id).entries.entries = withoutRows layer.ids id t.entries.entries := by
  show ((t'.descendants id ++ [id]).foldl OrderedMap.erase t'.entries).entries = _
  rw [OrderedMap.entries_foldl_erase, hdetached.rows, List.filter_map, withoutRows]
  apply congrArg
  apply List.filter_congr
  intro row _
  exact decide_eq_decide.mpr (not_congr (h.mem_doomed hlayer hdetached row.1))

end Below

theorem remove_eq (h : t.entries.find? id = some entry) :
    remove id t = .ok () ((t.detach id entry.parent?).discard id) := by
  rw [remove, bind_ok (entryOf_eq h)]
  rfl

theorem Holds.follows_remove (h : t.Holds d) (id : ElementId) :
    Follows t (Table.remove id t) (d.remove id) := by
  rw [Document.remove]
  cases hlayer : d.layer? id with
  | none =>
      rw [Table.remove, bind_error (entryOf_eq_error (h.find?_of_layer?_eq_none hlayer))]
      exact Follows.error _
  | some layer =>
      obtain ⟨above?, hfind⟩ := h.find?_of_layer? hlayer
      have hdetached := h.detached hfind
      rw [remove_eq hfind]
      apply Follows.ok
      constructor
      case fileName => exact hdetached.fileName.trans h.fileName
      case pageName => exact hdetached.pageName.trans h.pageName
      case roots =>
        show (t.detach id _).roots = (Layer.pruneList id d.layers).map Layer.id
        rw [hdetached.roots, h.roots, Layer.map_id_pruneList]
        rfl
      case selection =>
        show (t.detach id _).selection.filter _ = d.selection.filter _
        rw [hdetached.selection, h.selection]
        apply List.filter_congr
        intro x _
        exact decide_eq_decide.mpr (not_congr (h.mem_doomed hlayer hdetached x))
      case rows =>
        rw [h.entries_discard hlayer hdetached, Layer.rowsOfList_pruneList none d.ids_nodup hlayer]
        exact (h.rows.filter _).map _

/-- Every edit of a table is answered as the same edit of the document that it holds. -/
theorem Holds.follows (h : t.Holds d) (edit : Edit) :
    Follows t (edit.onTable t) (edit.onDocument d) := by
  cases edit with
  | insert parent? element => exact h.follows_insert parent? element
  | remove id => exact h.follows_remove id
  | select ids => exact h.follows_select ids
  | write id key value => exact h.follows_write id key value

end Remove
end Table
end DesignMarkup
