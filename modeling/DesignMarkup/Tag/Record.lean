import DesignMarkup.Element.Basic
import DesignMarkup.Tag.Properties

/-!
Tag records: what is stored for a tagged element.  The tag and its properties belong to the person
who tags, the rest is the look of the element when it was first tagged.
-/

namespace DesignMarkup

/-- The tag of one element. -/
structure TagRecord where
  tag : String
  properties : Properties
  elementId : ElementId
  elementName : String
  elementType : Option ElementKind
  content : Option String
  styles : Option StyleBag
  layout : Option LayoutBag
deriving DecidableEq

namespace TagRecord

/-- The first record of an element.  Blank content and empty bags are left out, and so is the
layout of an element that is no container. -/
def ofElement (tag : String) (properties : Properties) (element : Element) : TagRecord where
  tag := tag
  properties := properties.clean
  elementId := element.id
  elementName := element.displayName
  elementType := some element.kind
  content := element.content.filter fun text => !Text.isBlankText text
  styles := element.styles.filter fun bag => !bag.isEmpty
  layout := element.layout.filter fun bag => element.kind.isContainer && !bag.isEmpty

/-- Another tag on the same element, whose name and kind may have changed since; its look stays
as it was recorded. -/
def retag (r : TagRecord) (tag : String) (properties : Properties) (element : Element) :
    TagRecord :=
  { r with
    tag := tag
    properties := properties.clean
    elementName := element.displayName
    elementType := some element.kind }

def toJson (r : TagRecord) : Json :=
  .ofFields [("tag", some (.string r.tag)), ("properties", some (.ofTexts r.properties)),
    ("elementId", some r.elementId.toJson), ("elementName", some (.string r.elementName)),
    ("elementType", r.elementType.map ElementKind.toJson), ("content", r.content.map .string),
    ("styles", r.styles.map Bag.toJson), ("layout", r.layout.map Bag.toJson)]

def fieldNames : List String :=
  ["tag", "properties", "elementId", "elementName", "elementType", "content", "styles", "layout"]

def ofJson? (payload : Json.NoPayload) (j : Json) : Option TagRecord := do
  let r ← j.record? fieldNames
  return {
    tag := ← r.required "tag" Json.text?
    properties := ← r.withDefault "properties" .empty Json.texts?
    elementId := ← r.required "elementId" ElementId.ofJson?
    elementName := ← r.withDefault "elementName" "" Json.text?
    elementType := ← r.optional "elementType" (ElementKind.ofJson? payload)
    content := ← r.optional "content" Json.text?
    styles := ← r.optional "styles" Bag.ofJson?
    layout := ← r.optional "layout" Bag.ofJson? }

/-- The text that is stored for a record. -/
def toText (r : TagRecord) : String :=
  r.toJson.compact

/-- The record that a stored text holds. -/
def ofText? (s : String) : Option TagRecord :=
  (Json.read? s).bind (ofJson? .null)

end TagRecord
end DesignMarkup
