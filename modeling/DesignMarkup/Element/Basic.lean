import DesignMarkup.Element.Id
import DesignMarkup.Style.Bag

/-!
Elements of a design document: what kind of shape they are, how they are called and what they
look like.
-/

namespace DesignMarkup

/-- The kind of an element. -/
inductive ElementKind where
  | frame | group | rect | ellipse | text | image | path | bool | svgRaw | other
deriving DecidableEq, Repr, Inhabited

namespace ElementKind

def name : ElementKind → String
  | frame => "frame"
  | group => "group"
  | rect => "rect"
  | ellipse => "ellipse"
  | text => "text"
  | image => "image"
  | path => "path"
  | bool => "bool"
  | svgRaw => "svg-raw"
  | other => "other"

def all : List ElementKind :=
  [frame, group, rect, ellipse, text, image, path, bool, svgRaw, other]

/-- The kind with a given name; an unknown name means another kind. -/
def ofName (s : String) : ElementKind :=
  (all.find? fun kind => kind.name = s).getD other

/-- The kinds that arrange children, so that a layout has a meaning for them. -/
def isContainer : ElementKind → Bool
  | frame | group | bool => true
  | _ => false

def toJson (kind : ElementKind) : Json :=
  .string kind.name

/-- A kind is its name, or an object with the name and no payload. -/
def ofJson? (payload : Json.NoPayload) : Json → Option ElementKind
  | .string s => some (ofName s)
  | .object [(s, j)] => if payload.accepts j then some (ofName s) else none
  | _ => none

@[simp] theorem ofName_name (kind : ElementKind) : ofName kind.name = kind := by
  cases kind <;> decide

@[simp] theorem ofJson?_toJson (payload : Json.NoPayload) (kind : ElementKind) :
    ofJson? payload kind.toJson = some kind := by
  simp [ofJson?, toJson]

end ElementKind

/-- An element as the document shows it.  Its content, styles and layout are the look that it had
when it was read. -/
structure Element where
  id : ElementId
  name : String
  kind : ElementKind
  content : Option String := none
  styles : Option StyleBag := none
  layout : Option LayoutBag := none
deriving DecidableEq

namespace Element

/-- The name to show: the trimmed one, or a stand-in for a blank one. -/
def displayName (e : Element) : String :=
  let name := Text.trim e.name
  if name = "" then "Unnamed" else name

/-- The names of an element's fields. -/
def fieldNames : List String :=
  ["id", "name", "type", "content", "styles", "layout"]

/-- The fields of an element, absent ones marked so. -/
def fields (e : Element) : List (String × Option Json) :=
  [("id", some e.id.toJson), ("name", some (.string e.name)), ("type", some e.kind.toJson),
    ("content", e.content.map .string), ("styles", e.styles.map Bag.toJson),
    ("layout", e.layout.map Bag.toJson)]

def toJson (e : Element) : Json :=
  .ofFields e.fields

/-- The element of a record's fields. -/
def ofRecord? (payload : Json.NoPayload) (r : Json.Record) : Option Element := do
  return {
    id := ← r.required "id" ElementId.ofJson?
    name := ← r.withDefault "name" "" Json.text?
    kind := ← r.withDefault "type" .other (ElementKind.ofJson? payload)
    content := ← r.optional "content" Json.text?
    styles := ← r.optional "styles" Bag.ofJson?
    layout := ← r.optional "layout" Bag.ofJson? }

def ofJson? (j : Json) : Option Element :=
  (j.record? fieldNames).bind (ofRecord? .null)

def toText (e : Element) : String :=
  e.toJson.compact

def ofText? (s : String) : Option Element :=
  (Json.read? s).bind ofJson?

end Element
end DesignMarkup
