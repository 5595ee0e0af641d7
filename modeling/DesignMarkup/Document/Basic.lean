import DesignMarkup.Document.Layer
import DesignMarkup.Outline

/-!
Documents: layers with distinct identifiers, and a selection.  A snapshot is the same without the
promise that identifiers are distinct, as a file may hold it.
-/

namespace DesignMarkup

/-- The contents of a document as they are exchanged. -/
structure Snapshot where
  fileName : String
  pageName : String
  selection : List ElementId
  layers : List Layer

/-- A document, whose identifiers are distinct.  The selection may hold identifiers that do not
occur in it. -/
structure Document extends Snapshot where
  ids_nodup : (Layer.idsOfList layers).Nodup

/-- Why an operation on a document was refused. -/
inductive HostError where
  | elementNotFound (id : ElementId)
  | duplicateElement (id : ElementId)
  | backend (reason : String)
deriving DecidableEq

def HostError.message : HostError → String
  | elementNotFound id => "Element not found: " ++ id.text
  | duplicateElement id => "Duplicate element: " ++ id.text
  | backend reason => "Storage error: " ++ reason

/-- The first entry of a list that repeats an earlier one. -/
def firstRepeat? {α : Type} [DecidableEq α] : (seen : List α) → List α → Option α
  | _, [] => none
  | seen, x :: rest => if x ∈ seen then some x else firstRepeat? (x :: seen) rest

theorem nodup_of_firstRepeat?_eq_none {α : Type} [DecidableEq α] {seen xs : List α}
    (h : firstRepeat? seen xs = none) : xs.Nodup ∧ ∀ x ∈ xs, x ∉ seen := by
  induction xs generalizing seen with
  | nil => simp
  | cons x rest ih =>
      rw [firstRepeat?] at h
      split at h
      · simp at h
      · rename_i hx
        obtain ⟨hrest, hfresh⟩ := ih h
        refine ⟨List.nodup_cons.2 ⟨fun hm => hfresh x hm List.mem_cons_self, hrest⟩, ?_⟩
        intro y hy
        rcases List.mem_cons.1 hy with rfl | hy
        · exact hx
        · exact fun hs => hfresh y hy (List.mem_cons_of_mem x hs)

namespace Document

/-- The document without elements. -/
def empty (fileName pageName : String) : Document where
  fileName := fileName
  pageName := pageName
  selection := []
  layers := []
  ids_nodup := by simp [Layer.idsOfList]

/-- Every element, parents first. -/
def allElements (d : Document) : List ElementId :=
  Layer.idsOfList d.layers

def size (d : Document) : Nat :=
  d.allElements.length

def isEmpty (d : Document) : Bool :=
  d.layers.isEmpty

/-- The layer of an element. -/
def layer? (d : Document) (id : ElementId) : Option Layer :=
  Layer.findInList? id d.layers

def element? (d : Document) (id : ElementId) : Option Element :=
  (d.layer? id).map Layer.element

def contains (d : Document) (id : ElementId) : Bool :=
  (d.layer? id).isSome

/-- The elements at the top. -/
def roots (d : Document) : List ElementId :=
  d.layers.map Layer.id

/-- The elements right below an element. -/
def children (d : Document) (id : ElementId) : List ElementId :=
  match d.layer? id with
  | some layer => layer.children.map Layer.id
  | none => []

/-- The element right above an element. -/
def parent? (d : Document) (id : ElementId) : Option ElementId :=
  Layer.parentInList? id d.layers

/-- The elements below an element, parents first. -/
def descendants (d : Document) (id : ElementId) : List ElementId :=
  match d.layer? id with
  | some layer => Layer.idsOfList layer.children
  | none => []

/-- The outline of a document. -/
def outline (d : Document) : Outline where
  roots := d.roots
  branches := ⟨Layer.branchesOfList d.layers, by
    rw [Layer.map_fst_branchesOfList]
    exact d.ids_nodup⟩

theorem contains_iff (d : Document) (id : ElementId) :
    d.contains id = true ↔ id ∈ d.allElements :=
  Layer.findInList?_isSome_iff id d.layers

/-- Put a new element last at the top. -/
def insertRoot (d : Document) (element : Element) : Except HostError Document :=
  if h : element.id ∈ d.allElements then .error (.duplicateElement element.id)
  else .ok { d with
    layers := d.layers ++ [Layer.leaf element]
    ids_nodup := by
      rw [Layer.idsOfList_append, List.nodup_append]
      refine ⟨d.ids_nodup, by simp [Layer.idsOfList], ?_⟩
      intro a ha b hb
      simp only [Layer.idsOfList, Layer.ids_leaf, List.append_nil, List.mem_singleton] at hb
      rintro rfl
      exact h (hb ▸ ha) }

/-- Put a new element last below another one. -/
def insertBelow (d : Document) (parent : ElementId) (element : Element) :
    Except HostError Document :=
  if h : element.id ∈ d.allElements then .error (.duplicateElement element.id)
  else if hparent : parent ∈ d.allElements then
    .ok { d with
      layers := Layer.modifyInList parent (Layer.append (Layer.leaf element)) d.layers
      ids_nodup := by
        rw [(Layer.ids_modifyInList_append_perm (Layer.leaf element) hparent d.ids_nodup).nodup_iff,
          List.nodup_append]
        refine ⟨d.ids_nodup, by simp, ?_⟩
        intro a ha b hb
        simp only [Layer.ids_leaf, List.mem_singleton] at hb
        rintro rfl
        exact h (hb ▸ ha) }
  else .error (.elementNotFound parent)

/-- Put a new element last below a given one, or last at the top. -/
def insert (d : Document) (parent? : Option ElementId) (element : Element) :
    Except HostError Document :=
  match parent? with
  | some parent => d.insertBelow parent element
  | none => d.insertRoot element

/-- Delete an element with all below it; none of them stays selected. -/
def remove (d : Document) (id : ElementId) : Except HostError Document :=
  match d.layer? id with
  | none => .error (.elementNotFound id)
  | some layer => .ok { d with
      layers := Layer.pruneList id d.layers
      selection := d.selection.filter fun s => s ∉ layer.ids
      ids_nodup := d.ids_nodup.sublist (Layer.ids_pruneList_sublist id d.layers) }

/-- Select elements, whether they occur or not. -/
def select (d : Document) (ids : List ElementId) : Document :=
  { d with selection := ids }

/-- The text stored on an element under a key.  An empty text counts as none. -/
def read (d : Document) (id : ElementId) (key : String) : Except HostError (Option String) :=
  match d.layer? id with
  | none => .error (.elementNotFound id)
  | some layer => .ok ((layer.data.find? key).filter (· ≠ ""))

/-- Store a text on an element under a key. -/
def write (d : Document) (id : ElementId) (key value : String) : Except HostError Document :=
  if d.contains id then
    .ok { d with
      layers := Layer.modifyInList id (Layer.store key value) d.layers
      ids_nodup := by
        rw [Layer.ids_modifyInList (Layer.ids_store key value)]
        exact d.ids_nodup }
  else .error (.elementNotFound id)

/-- The document of a snapshot, unless an identifier is repeated.  Selected identifiers that do
not occur are dropped. -/
def ofSnapshot (s : Snapshot) : Except HostError Document :=
  match h : firstRepeat? [] (Layer.idsOfList s.layers) with
  | some id => .error (.duplicateElement id)
  | none => .ok { s with
      selection := s.selection.filter fun id => id ∈ Layer.idsOfList s.layers
      ids_nodup := (nodup_of_firstRepeat?_eq_none h).1 }

/-- The snapshot of a document.  Empty texts are left out. -/
def snapshot (d : Document) : Snapshot :=
  { d.toSnapshot with layers := Layer.dropEmptyDataInList d.layers }

end Document
end DesignMarkup
