import DesignMarkup.Proofs.Document.Table

/-!
Tables of snapshots.  Inserting the layers of a snapshot one by one, parents first, succeeds exactly
if no identifier is repeated, and otherwise stops at the first one that is.  What has been inserted
under an element by then is told by the rows.
-/

namespace DesignMarkup

section FirstRepeat

variable {α : Type} [DecidableEq α]

/-- What was seen counts only by its members. -/
theorem firstRepeat?_congr {seen seen' : List α} (h : ∀ x, x ∈ seen ↔ x ∈ seen') (xs : List α) :
    firstRepeat? seen xs = firstRepeat? seen' xs := by
  induction xs generalizing seen seen' with
  | nil => rfl
  | cons x rest ih =>
      have hcons : ∀ y, y ∈ x :: seen ↔ y ∈ x :: seen' := by
        intro y
        rw [List.mem_cons, List.mem_cons, h y]
      simp only [firstRepeat?, h x, ih hcons]

theorem firstRepeat?_append_of_some {seen xs : List α} {x : α} (h : firstRepeat? seen xs = some x)
    (ys : List α) : firstRepeat? seen (xs ++ ys) = some x := by
  induction xs generalizing seen with
  | nil => cases h
  | cons y rest ih =>
      rw [firstRepeat?] at h
      rw [List.cons_append, firstRepeat?]
      split at h
      · rename_i hseen
        rw [if_pos hseen]
        exact h
      · rename_i hseen
        rw [if_neg hseen]
        exact ih h

theorem firstRepeat?_append_of_none {seen xs : List α} (h : firstRepeat? seen xs = none)
    (ys : List α) : firstRepeat? seen (xs ++ ys) = firstRepeat? (seen ++ xs) ys := by
  induction xs generalizing seen with
  | nil => rw [List.nil_append, List.append_nil]
  | cons y rest ih =>
      rw [firstRepeat?] at h
      rw [List.cons_append, firstRepeat?]
      split at h
      · cases h
      · rename_i hseen
        rw [if_neg hseen, ih h]
        apply firstRepeat?_congr
        intro x
        simp only [List.mem_append, List.mem_cons]
        tauto

end FirstRepeat

/-- Rows with further elements last below a given one. -/
def listRows (parent? : Option ElementId) (ids : List ElementId)
    (rows : List (ElementId × Entry)) : List (ElementId × Entry) :=
  match parent? with
  | some parent => changeRow parent (Entry.addChildren ids) rows
  | none => rows

/-- Elements at the top with further ones last, unless these are listed below another one. -/
def listRoots (parent? : Option ElementId) (ids roots : List ElementId) : List ElementId :=
  match parent? with
  | some _ => roots
  | none => roots ++ ids

section ListRows

variable (parent? : Option ElementId) (ids : List ElementId)

theorem map_fst_changeRow (id : ElementId) (change : Entry → Entry)
    (rows : List (ElementId × Entry)) :
    (changeRow id change rows).map Prod.fst = rows.map Prod.fst := by
  rw [changeRow, List.map_map]
  apply List.map_congr_left
  intro row _
  show (if row.1 = id then (row.1, change row.2) else row).1 = row.1
  split <;> rfl

theorem map_fst_listRows (rows : List (ElementId × Entry)) :
    (listRows parent? ids rows).map Prod.fst = rows.map Prod.fst := by
  cases parent? with
  | none => rfl
  | some parent => exact map_fst_changeRow parent _ rows

theorem listRows_nil (rows : List (ElementId × Entry)) : listRows parent? [] rows = rows := by
  cases parent? with
  | none => rfl
  | some parent =>
      refine (List.map_congr_left ?_).trans (List.map_id rows)
      intro row _
      rw [Entry.addChildren, List.append_nil]
      split <;> rfl

theorem listRows_listRows (more : List ElementId) (rows : List (ElementId × Entry)) :
    listRows parent? more (listRows parent? ids rows) = listRows parent? (ids ++ more) rows := by
  cases parent? with
  | none => rfl
  | some parent =>
      rw [listRows, listRows, listRows, changeRow, changeRow, List.map_map]
      apply List.map_congr_left
      intro row _
      by_cases hrow : row.1 = parent
      · simp [hrow, Entry.addChildren]
      · simp [hrow]

theorem listRows_append (left right : List (ElementId × Entry)) :
    listRows parent? ids (left ++ right) =
      listRows parent? ids left ++ listRows parent? ids right := by
  cases parent? with
  | none => rfl
  | some parent => exact changeRow_append parent _ left right

theorem listRows_of_not_mem {rows : List (ElementId × Entry)}
    (h : ∀ parent, parent? = some parent → parent ∉ rows.map Prod.fst) :
    listRows parent? ids rows = rows := by
  cases parent? with
  | none => rfl
  | some parent => exact changeRow_of_not_mem _ (h parent rfl)

end ListRows
namespace Table

/-- Layers have been inserted one by one, last below a given element or last at the top. -/
structure Grown (parent? : Option ElementId) (layers : List Layer) (t t' : Table) : Prop where
  fileName : t'.fileName = t.fileName
  pageName : t'.pageName = t.pageName
  roots : t'.roots = listRoots parent? (layers.map Layer.id) t.roots
  rows : t'.entries.entries =
    listRows parent? (layers.map Layer.id) t.entries.entries ++ Layer.rowsOfList parent? layers

theorem Grown.keys_eq {parent? : Option ElementId} {layers : List Layer} {t t' : Table}
    (h : Grown parent? layers t t') :
    t'.entries.keys = t.entries.keys ++ Layer.idsOfList layers := by
  rw [OrderedMap.keys, h.rows, List.map_append, map_fst_listRows, Layer.map_fst_rowsOfList]
  rfl

theorem grown_nil (parent? : Option ElementId) (t : Table) : Grown parent? [] t t := by
  constructor
  case fileName => rfl
  case pageName => rfl
  case roots => cases parent? <;> simp [listRoots]
  case rows => rw [List.map_nil, listRows_nil, Layer.rowsOfList, List.append_nil]

section Grown

variable {parent? : Option ElementId} {t t₁ t₂ : Table}

theorem Grown.append {left right : List Layer} (hleft : Grown parent? left t t₁)
    (hright : Grown parent? right t₁ t₂)
    (hparent : ∀ parent, parent? = some parent → parent ∉ Layer.idsOfList left) :
    Grown parent? (left ++ right) t t₂ := by
  constructor
  case fileName => exact hright.fileName.trans hleft.fileName
  case pageName => exact hright.pageName.trans hleft.pageName
  case roots =>
    rw [hright.roots, hleft.roots, List.map_append]
    cases parent? with
    | none => exact List.append_assoc _ _ _
    | some parent => rfl
  case rows =>
    have hkept : listRows parent? (right.map Layer.id) (Layer.rowsOfList parent? left) =
        Layer.rowsOfList parent? left := by
      apply listRows_of_not_mem
      rw [Layer.map_fst_rowsOfList]
      exact hparent
    rw [hright.rows, hleft.rows, listRows_append, listRows_listRows, hkept, List.append_assoc,
      ← Layer.rowsOfList_append, List.map_append]

/-- A layer that has been inserted without what lies below it, and then that. -/
theorem Grown.below {element : Element} {data : OrderedMap String String} {children : List Layer}
    (hleaf : Grown parent? [⟨element, data, []⟩] t t₁)
    (hbelow : Grown (some element.id) children t₁ t₂) (hnew : element.id ∉ t.entries.keys) :
    Grown parent? [⟨element, data, children⟩] t t₂ := by
  constructor
  case fileName => exact hbelow.fileName.trans hleaf.fileName
  case pageName => exact hbelow.pageName.trans hleaf.pageName
  case roots => exact hbelow.roots.trans hleaf.roots
  case rows =>
    have hkept : listRows (some element.id) (children.map Layer.id)
          (listRows parent? [element.id] t.entries.entries) =
        listRows parent? [element.id] t.entries.entries := by
      apply listRows_of_not_mem
      rintro parent ⟨⟩
      rw [map_fst_listRows]
      exact hnew
    have hown : listRows (some element.id) (children.map Layer.id)
          (Layer.rowsOfList parent? [⟨element, data, []⟩]) =
        [(element.id, ⟨element, parent?, children.map Layer.id, data⟩)] := by
      simp [listRows, changeRow, Layer.rowsOfList, Layer.rows, Entry.addChildren]
    rw [hbelow.rows, hleaf.rows, listRows_append, hown, List.map_singleton]
    show listRows _ _ (listRows parent? [element.id] _) ++ _ ++ _ = _
    rw [hkept, List.append_assoc, Layer.rowsOfList, Layer.rowsOfList, Layer.rows, List.append_nil]
    rfl

end Grown

/-- The answer to the insertion of layers: the first repeated identifier is refused. -/
def Inserts (parent? : Option ElementId) (layers : List Layer) (t : Table)
    (answer : EStateM.Result HostError Table Unit) : Prop :=
  match firstRepeat? t.entries.keys (Layer.idsOfList layers) with
  | none => ∃ t', answer = .ok () t' ∧ Grown parent? layers t t'
  | some id => ∃ t', answer = .error (.duplicateElement id) t'

section Insert

variable {parent? : Option ElementId} {t : Table}
  (hparent : ∀ parent, parent? = some parent → parent ∈ t.entries.keys)
include hparent

/-- An element is listed below an element that is there, or at the top. -/
theorem exists_list_eq (id : ElementId) :
    ∃ t', list parent? id t = .ok () t' ∧ t'.fileName = t.fileName ∧ t'.pageName = t.pageName ∧
      t'.roots = listRoots parent? [id] t.roots ∧
      t'.entries.entries = listRows parent? [id] t.entries.entries := by
  cases parent? with
  | none => exact ⟨_, rfl, rfl, rfl, rfl, rfl⟩
  | some parent =>
      have hcontains := OrderedMap.contains_iff.mpr (hparent parent rfl)
      obtain ⟨entry, hfind⟩ := Option.isSome_iff_exists.mp hcontains
      exact ⟨_, list_some_eq hfind id, rfl, rfl, rfl, entries_insert_eq_changeRow hfind _⟩

/-- A new element is inserted as a layer with nothing below it. -/
theorem exists_insert_eq {element : Element} (hnew : element.id ∉ t.entries.keys)
    (data : OrderedMap String String) :
    ∃ t', insert parent? element t = .ok () t' ∧
      Grown parent? [⟨element, data, []⟩] t (t'.setData element.id data) := by
  obtain ⟨t', hlist, hfileName, hpageName, hroots, hrows⟩ := exists_list_eq hparent element.id
  have hmissing : ¬ t.contains element.id = true := by
    rw [contains, OrderedMap.contains_iff]
    exact hnew
  refine ⟨_, insert_eq_of_list hmissing hlist, ?_⟩
  have hstillNew : element.id ∉ t'.entries.entries.map Prod.fst := by
    rw [hrows, map_fst_listRows]
    exact hnew
  have hstillMissing : ¬ t'.entries.contains element.id = true := by
    rw [OrderedMap.contains_iff]
    exact hstillNew
  have hfind : (t'.setEntry element.id (.leaf parent? element)).entries.find? element.id =
      some (.leaf parent? element) := by
    rw [setEntry, OrderedMap.find?_insert, if_pos rfl]
  rw [setData, hfind]
  constructor
  case fileName => exact hfileName
  case pageName => exact hpageName
  case roots => exact hroots
  case rows =>
    have hchanged := entries_insert_eq_changeRow hfind fun entry => { entry with data }
    refine hchanged.trans ?_
    rw [setEntry, OrderedMap.entries_insert_of_not_contains hstillMissing, changeRow_append,
      changeRow_of_not_mem _ hstillNew, hrows]
    simp [changeRow, Entry.leaf, Layer.rowsOfList, Layer.rows, Layer.id]

end Insert

mutual

theorem inserts_insertLayer {parent? : Option ElementId} {t : Table}
    (hparent : ∀ parent, parent? = some parent → parent ∈ t.entries.keys) (layer : Layer) :
    Inserts parent? [layer] t (insertLayer parent? layer t) := by
  match layer with
  | ⟨element, data, children⟩ =>
      rw [insertLayer, Inserts, Layer.idsOfList, Layer.idsOfList, List.append_nil, Layer.ids,
        firstRepeat?]
      by_cases hmem : element.id ∈ t.entries.keys
      · have hcontains : t.contains element.id = true := OrderedMap.contains_iff.mpr hmem
        rw [if_pos hmem]
        exact ⟨t, bind_error (insert_eq_of_contains hcontains)⟩
      · obtain ⟨t', hinsert, hleaf⟩ := exists_insert_eq hparent hmem data
        have hself : ∀ parent, some element.id = some parent →
            parent ∈ (t'.setData element.id data).entries.keys := by
          rintro parent ⟨⟩
          rw [hleaf.keys_eq]
          exact List.mem_append_right _ List.mem_cons_self
        have hbelow := inserts_insertLayers hself children
        have hseen : ∀ x, x ∈ (t'.setData element.id data).entries.keys ↔
            x ∈ element.id :: t.entries.keys := by
          intro x
          rw [hleaf.keys_eq, List.mem_append, List.mem_cons, or_comm]
          exact or_congr_left List.mem_singleton
        rw [Inserts, firstRepeat?_congr hseen] at hbelow
        rw [if_neg hmem, bind_ok hinsert]
        cases hrepeat : firstRepeat? (element.id :: t.entries.keys) (Layer.idsOfList children) with
        | some id =>
            rw [hrepeat] at hbelow
            exact hbelow
        | none =>
            rw [hrepeat] at hbelow
            obtain ⟨t₂, hanswer, hgrown⟩ := hbelow
            exact ⟨t₂, hanswer, hleaf.below hgrown hmem⟩

theorem inserts_insertLayers {parent? : Option ElementId} {t : Table}
    (hparent : ∀ parent, parent? = some parent → parent ∈ t.entries.keys) (layers : List Layer) :
    Inserts parent? layers t (insertLayers parent? layers t) := by
  match layers with
  | [] => exact ⟨t, rfl, grown_nil parent? t⟩
  | layer :: rest =>
      have hlayer := inserts_insertLayer hparent layer
      rw [insertLayers, Inserts, Layer.idsOfList]
      rw [Inserts, Layer.idsOfList, Layer.idsOfList, List.append_nil] at hlayer
      cases hrepeat : firstRepeat? t.entries.keys layer.ids with
      | some id =>
          rw [hrepeat] at hlayer
          obtain ⟨t', hanswer⟩ := hlayer
          rw [firstRepeat?_append_of_some hrepeat]
          exact ⟨t', bind_error hanswer⟩
      | none =>
          rw [hrepeat] at hlayer
          obtain ⟨t', hanswer, hgrown⟩ := hlayer
          have hkeys : t'.entries.keys = t.entries.keys ++ layer.ids := by
            rw [hgrown.keys_eq, Layer.idsOfList, Layer.idsOfList, List.append_nil]
          have hstill : ∀ parent, parent? = some parent → parent ∈ t'.entries.keys := by
            intro parent heq
            rw [hkeys]
            exact List.mem_append_left _ (hparent parent heq)
          have hrest := inserts_insertLayers hstill rest
          rw [Inserts, hkeys, ← firstRepeat?_append_of_none hrepeat] at hrest
          rw [bind_ok hanswer]
          cases hrestRepeat : firstRepeat? t.entries.keys (layer.ids ++ Layer.idsOfList rest) with
          | some id =>
              rw [hrestRepeat] at hrest
              exact hrest
          | none =>
              rw [hrestRepeat] at hrest
              obtain ⟨t₂, hrestAnswer, hrestGrown⟩ := hrest
              refine ⟨t₂, hrestAnswer, hgrown.append hrestGrown ?_⟩
              intro parent heq hmem
              rw [Layer.idsOfList, Layer.idsOfList, List.append_nil] at hmem
              exact (nodup_of_firstRepeat?_eq_none hrepeat).2 _ hmem (hparent parent heq)

end

theorem holds_empty (fileName pageName : String) :
    (empty fileName pageName).Holds (Document.empty fileName pageName) :=
  ⟨rfl, rfl, rfl, rfl, List.Perm.refl _⟩

end Table

/-- What a table and a document begin with: both are refused for the same reason, or the table holds
the document. -/
inductive Begins : Except HostError Table → Except HostError Document → Prop
  | ok {t : Table} {d : Document} (holds : t.Holds d) : Begins (.ok t) (.ok d)
  | error (refusal : HostError) : Begins (.error refusal) (.error refusal)

theorem begins_ofSnapshot (s : Snapshot) : Begins (Table.ofSnapshot s) (Document.ofSnapshot s) := by
  have hnoParent : ∀ parent, (none : Option ElementId) = some parent →
      parent ∈ (Table.empty s.fileName s.pageName).entries.keys := by
    rintro parent ⟨⟩
  have hinserts := Table.inserts_insertLayers hnoParent s.layers
  have hnoKeys : (Table.empty s.fileName s.pageName).entries.keys = [] := rfl
  rw [Table.Inserts, hnoKeys] at hinserts
  rw [Document.ofSnapshot]
  split
  case h_1 id hrepeat =>
    rw [hrepeat] at hinserts
    obtain ⟨t, hanswer⟩ := hinserts
    rw [Table.ofSnapshot, hanswer]
    exact Begins.error _
  case h_2 hrepeat =>
    rw [hrepeat] at hinserts
    obtain ⟨t, hanswer, hgrown⟩ := hinserts
    rw [Table.ofSnapshot, hanswer]
    apply Begins.ok
    constructor
    case fileName => exact hgrown.fileName
    case pageName => exact hgrown.pageName
    case roots => exact hgrown.roots
    case rows =>
      show t.entries.entries.Perm _
      rw [hgrown.rows]
      exact List.Perm.refl _
    case selection =>
      apply List.filter_congr
      intro id _
      have hkeys : t.entries.keys = Layer.idsOfList s.layers := hgrown.keys_eq
      rw [Bool.eq_iff_iff, Table.contains, OrderedMap.contains_iff, hkeys, decide_eq_true_iff]

/-- A table begins as the document does. -/
theorem Start.begins (start : Start) : Begins start.table start.document := by
  cases start with
  | empty fileName pageName => exact Begins.ok (Table.holds_empty fileName pageName)
  | snapshot s => exact begins_ofSnapshot s

end DesignMarkup
