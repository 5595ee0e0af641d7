import DesignMarkup.Host
import DesignMarkup.Tag.Record

/-!
The tag store: the records of the tagged elements, in the order in which they came.  The store and
the document are changed together: a record is written to the document first, and only if that
succeeds does the store follow.
-/

namespace DesignMarkup

/-- The records of the tagged elements. -/
structure TagStore where
  records : OrderedMap ElementId TagRecord
deriving DecidableEq, Inhabited

namespace TagStore

/-- The key under which an element's record is stored. -/
def dataKey : String :=
  "semantic-tag"

def empty : TagStore :=
  ⟨.empty⟩

def find? (store : TagStore) (id : ElementId) : Option TagRecord :=
  store.records.find? id

def contains (store : TagStore) (id : ElementId) : Bool :=
  store.records.contains id

def ids (store : TagStore) : List ElementId :=
  store.records.keys

def toList (store : TagStore) : List TagRecord :=
  store.records.values

def size (store : TagStore) : Nat :=
  store.records.size

def isEmpty (store : TagStore) : Bool :=
  store.records.isEmpty

/-- Set the record of an element. -/
def insert (store : TagStore) (r : TagRecord) : TagStore :=
  ⟨store.records.insert r.elementId r⟩

def erase (store : TagStore) (id : ElementId) : TagStore :=
  ⟨store.records.erase id⟩

/-- The record stored on an element, if it can be read and is its own. -/
def stored? (host : Host) (id : ElementId) : Option TagRecord :=
  match host.read id dataKey with
  | .ok (some text) => (TagRecord.ofText? text).filter fun r => r.elementId = id
  | _ => none

/-- The records stored in a document, in its order.  What cannot be read is left out. -/
def load (host : Host) : TagStore :=
  (host.document.allElements.filterMap (stored? host)).foldl insert empty

end TagStore

/-- Why a request to tag was refused as a whole. -/
inductive TagRequestError where
  | emptyTag
  | noElements
deriving DecidableEq, Repr

def TagRequestError.message : TagRequestError → String
  | emptyTag => "Select or enter a tag"
  | noElements => "No elements selected"

/-- What became of a request to tag: the records made and the elements refused, in the order of
the request. -/
structure TagOutcome where
  applied : List TagRecord := []
  rejected : List (ElementId × HostError) := []

/-- A host with the store of its tags. -/
structure Tagging where
  host : Host
  store : TagStore

namespace Tagging

/-- A host with the tags that are stored in it. -/
def load (host : Host) : Tagging :=
  ⟨host, TagStore.load host⟩

/-- Write a record to its element and then to the store. -/
def commit (t : Tagging) (r : TagRecord) : Except HostError Tagging :=
  (t.host.write r.elementId TagStore.dataKey r.toText).map fun host => ⟨host, t.store.insert r⟩

/-- The record that a tag gives an element: a new one, or its old one retagged. -/
def recordFor (t : Tagging) (tag : String) (properties : Properties) (element : Element) :
    TagRecord :=
  match t.store.find? element.id with
  | some old => old.retag tag properties element
  | none => .ofElement tag properties element

/-- Tag one element. -/
def tagElement (t : Tagging) (tag : String) (properties : Properties) (id : ElementId) :
    Except HostError (TagRecord × Tagging) :=
  match t.host.document.element? id with
  | none => .error (.elementNotFound id)
  | some element =>
      let r := t.recordFor tag properties element
      (t.commit r).map (r, ·)

/-- Tag elements one after the other, each on its own. -/
def tagElements (t : Tagging) (tag : String) (properties : Properties) :
    List ElementId → TagOutcome × Tagging
  | [] => ({}, t)
  | id :: rest =>
      match t.tagElement tag properties id with
      | .ok (r, t) =>
          let (outcome, t) := t.tagElements tag properties rest
          ({ outcome with applied := r :: outcome.applied }, t)
      | .error e =>
          let (outcome, t) := t.tagElements tag properties rest
          ({ outcome with rejected := (id, e) :: outcome.rejected }, t)

/-- Tag the requested elements.  A tag is needed first, then an element. -/
def apply (t : Tagging) (tag : String) (properties : Properties) (ids : List ElementId) :
    Except TagRequestError (TagOutcome × Tagging) :=
  let tag := Text.trim tag
  if tag = "" then .error .emptyTag
  else if ids.isEmpty then .error .noElements
  else .ok (t.tagElements tag properties ids)

/-- Remove the record of an element that has one.  When the element is gone, nothing is stored on
it that could disagree. -/
def removeOne? (t : Tagging) (id : ElementId) : Option Tagging :=
  if t.store.contains id then
    match t.host.write id TagStore.dataKey "" with
    | .ok host => some ⟨host, t.store.erase id⟩
    | .error (.elementNotFound _) => some { t with store := t.store.erase id }
    | .error _ => none
  else none

/-- Remove the records of elements; those removed are told. -/
def remove (t : Tagging) : List ElementId → List ElementId × Tagging
  | [] => ([], t)
  | id :: rest =>
      match t.removeOne? id with
      | some t =>
          let (removed, t) := t.remove rest
          (id :: removed, t)
      | none => t.remove rest

end Tagging
end DesignMarkup
