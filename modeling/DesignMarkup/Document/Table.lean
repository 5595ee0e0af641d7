import DesignMarkup.Document.Basic

/-!
Documents as tables.  A table holds the tree of a document three times over: the elements at the
top, the elements right below each one, and the element right above each one.  An operation edits
these one after the other.  Where it is refused, what it has edited by then stays edited.
-/

namespace DesignMarkup

/-- What a table holds of an element. -/
structure Entry where
  element : Element
  parent? : Option ElementId
  children : List ElementId
  data : OrderedMap String String

namespace Entry

/-- The entry of a new element. -/
def leaf (parent? : Option ElementId) (element : Element) : Entry :=
  ⟨element, parent?, [], .empty⟩

/-- An entry with further elements last below it. -/
def addChildren (ids : List ElementId) (entry : Entry) : Entry :=
  { entry with children := entry.children ++ ids }

/-- An entry without an element right below it. -/
def dropChild (id : ElementId) (entry : Entry) : Entry :=
  { entry with children := entry.children.filter (· ≠ id) }

/-- An entry with a text stored under a key. -/
def store (key value : String) (entry : Entry) : Entry :=
  { entry with data := entry.data.insert key value }

end Entry

/-- A document as a table of its elements.  The selection may hold identifiers that do not occur. -/
structure Table where
  fileName : String
  pageName : String
  roots : List ElementId
  entries : OrderedMap ElementId Entry
  selection : List ElementId

namespace Table

/-- The table without elements. -/
def empty (fileName pageName : String) : Table :=
  ⟨fileName, pageName, [], .empty, []⟩

def size (t : Table) : Nat :=
  t.entries.size

def contains (t : Table) (id : ElementId) : Bool :=
  t.entries.contains id

def element? (t : Table) (id : ElementId) : Option Element :=
  (t.entries.find? id).map Entry.element

/-- The elements right below an element. -/
def children (t : Table) (id : ElementId) : List ElementId :=
  match t.entries.find? id with
  | some entry => entry.children
  | none => []

/-- The element right above an element. -/
def parent? (t : Table) (id : ElementId) : Option ElementId :=
  (t.entries.find? id).bind Entry.parent?

/-- The text stored on an element under a key.  An empty text counts as none. -/
def read (t : Table) (id : ElementId) (key : String) : Except HostError (Option String) :=
  match t.entries.find? id with
  | some entry => .ok ((entry.data.find? key).filter (· ≠ ""))
  | none => .error (.elementNotFound id)

/-- The outline that a table gives of its document. -/
def outline (t : Table) : Outline where
  roots := t.roots
  branches := ⟨t.entries.entries.map fun row => (row.1, row.2.children), by
    rw [List.map_map]
    exact t.entries.keys_nodup⟩

/-- The elements below an element, parents first. -/
def descendants (t : Table) (id : ElementId) : List ElementId :=
  t.outline.descendants id

/-- Every element, parents first. -/
def allElements (t : Table) : List ElementId :=
  t.outline.allElements

/-- The table with the entry of an element set. -/
def setEntry (t : Table) (id : ElementId) (entry : Entry) : Table :=
  { t with entries := t.entries.insert id entry }

/-- The table with all the data of an element replaced, if it has an entry. -/
def setData (t : Table) (id : ElementId) (data : OrderedMap String String) : Table :=
  match t.entries.find? id with
  | some entry => t.setEntry id { entry with data }
  | none => t

/-- The table with an element taken out from below its parent, or from the top if no parent has an
entry. -/
def detach (t : Table) (id : ElementId) (parent? : Option ElementId) : Table :=
  match parent?.bind fun parent => (t.entries.find? parent).map (parent, ·) with
  | some (parent, entry) => t.setEntry parent (entry.dropChild id)
  | none => { t with roots := t.roots.filter (· ≠ id) }

/-- The table without the entries of an element and of all that lie below it as the table stands. -/
def discard (t : Table) (id : ElementId) : Table :=
  let doomed := t.descendants id ++ [id]
  { t with
    entries := doomed.foldl OrderedMap.erase t.entries
    selection := t.selection.filter (· ∉ doomed) }

section Operations

/-- The entry of an element, which must have one. -/
def entryOf (id : ElementId) : EStateM HostError Table Entry := do
  match (← get).entries.find? id with
  | some entry => return entry
  | none => throw (.elementNotFound id)

/-- List an element last below a given one, or last at the top. -/
def list (parent? : Option ElementId) (id : ElementId) : EStateM HostError Table Unit :=
  match parent? with
  | some parent => do
      let entry ← entryOf parent
      modify (·.setEntry parent (entry.addChildren [id]))
  | none => modify fun t => { t with roots := t.roots ++ [id] }

/-- Put a new element last below a given one, or last at the top. -/
def insert (parent? : Option ElementId) (element : Element) : EStateM HostError Table Unit := do
  if (← get).contains element.id then throw (.duplicateElement element.id)
  else
    list parent? element.id
    modify (·.setEntry element.id (.leaf parent? element))

/-- Delete an element with all below it; none of them stays selected. -/
def remove (id : ElementId) : EStateM HostError Table Unit := do
  let entry ← entryOf id
  modify (·.detach id entry.parent?)
  modify (·.discard id)

/-- Select elements, whether they occur or not. -/
def select (ids : List ElementId) : EStateM HostError Table Unit :=
  modify ({ · with selection := ids })

/-- Store a text on an element under a key. -/
def write (id : ElementId) (key value : String) : EStateM HostError Table Unit := do
  let entry ← entryOf id
  modify (·.setEntry id (entry.store key value))

mutual

/-- Put a layer with all below it last below a given element, or last at the top. -/
def insertLayer (parent? : Option ElementId) : Layer → EStateM HostError Table Unit
  | ⟨element, data, children⟩ => do
      insert parent? element
      modify (·.setData element.id data)
      insertLayers (some element.id) children

def insertLayers (parent? : Option ElementId) : List Layer → EStateM HostError Table Unit
  | [] => return
  | layer :: rest => do
      insertLayer parent? layer
      insertLayers parent? rest

end

end Operations

/-- The table of a snapshot, unless an identifier is repeated.  Selected identifiers that do not
occur are dropped. -/
def ofSnapshot (s : Snapshot) : Except HostError Table :=
  match insertLayers none s.layers (empty s.fileName s.pageName) with
  | .ok _ t => .ok { t with selection := s.selection.filter t.contains }
  | .error e _ => .error e

/-- The layer of an element with what lies below it, at most `depth` levels of layers.  Empty texts
are left out. -/
def layerWithin? (t : Table) : (depth : Nat) → ElementId → Option Layer
  | 0, _ => none
  | depth + 1, id =>
      (t.entries.find? id).map fun entry =>
        { element := entry.element
          data := entry.data.filter fun _ value => value ≠ ""
          children := entry.children.filterMap (t.layerWithin? depth) }

/-- The snapshot of a table.  Layers lie in each other no deeper than there are entries. -/
def snapshot (t : Table) : Snapshot where
  fileName := t.fileName
  pageName := t.pageName
  selection := t.selection
  layers := t.roots.filterMap (t.layerWithin? t.size)

end Table

/-- An edit of a document. -/
inductive Edit where
  | insert (parent? : Option ElementId) (element : Element)
  | remove (id : ElementId)
  | select (ids : List ElementId)
  | write (id : ElementId) (key value : String)

namespace Edit

/-- Edit a table. -/
def onTable : Edit → EStateM HostError Table Unit
  | insert parent? element => Table.insert parent? element
  | remove id => Table.remove id
  | select ids => Table.select ids
  | write id key value => Table.write id key value

/-- The document after an edit, unless it is refused. -/
def onDocument (d : Document) : Edit → Except HostError Document
  | insert parent? element => d.insert parent? element
  | remove id => d.remove id
  | select ids => .ok (d.select ids)
  | write id key value => d.write id key value

end Edit

/-- What a document begins with: nothing, or a snapshot. -/
inductive Start where
  | empty (fileName pageName : String)
  | snapshot (s : Snapshot)

namespace Start

def table : Start → Except HostError Table
  | empty fileName pageName => .ok (Table.empty fileName pageName)
  | snapshot s => Table.ofSnapshot s

def document : Start → Except HostError Document
  | empty fileName pageName => .ok (Document.empty fileName pageName)
  | snapshot s => Document.ofSnapshot s

end Start

/-- The answers to edits made one after the other, and what has become of the edited thing. -/
def Edit.runAll {σ : Type} (edit : σ → Edit → Except HostError Unit × σ) (s : σ) :
    List Edit → List (Except HostError Unit) × σ
  | [] => ([], s)
  | e :: rest =>
      let (answer, s) := edit s e
      let (answers, s) := runAll edit s rest
      (answer :: answers, s)

/-- The answer to an edit of a table, and the table afterwards, even if it was refused. -/
def Table.edit (t : Table) (e : Edit) : Except HostError Unit × Table :=
  match e.onTable t with
  | .ok _ t' => (.ok (), t')
  | .error refusal t' => (.error refusal, t')

/-- The answer to an edit of a document, and the document afterwards, the same one if it was
refused. -/
def Document.edit (d : Document) (e : Edit) : Except HostError Unit × Document :=
  match e.onDocument d with
  | .ok d' => (.ok (), d')
  | .error refusal => (.error refusal, d)

/-- The answers to edits of a table, and the table after all of them. -/
def Table.editAll : Table → List Edit → List (Except HostError Unit) × Table :=
  Edit.runAll Table.edit

/-- The answers to edits of a document, and the document after all of them. -/
def Document.editAll : Document → List Edit → List (Except HostError Unit) × Document :=
  Edit.runAll Document.edit

end DesignMarkup
