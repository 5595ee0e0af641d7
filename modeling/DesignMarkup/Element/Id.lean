import DesignMarkup.Json.Record
import DesignMarkup.Text.Blank

/-!
Identifiers of elements: texts that are not blank, kept as they are.
-/

namespace DesignMarkup

/-- The identifier of an element in its document. -/
structure ElementId where
  text : String
  not_blank : Text.isBlankText text = false
deriving DecidableEq

/-- Why a text is no identifier. -/
inductive ElementIdError where
  | blank
deriving DecidableEq, Repr

def ElementIdError.message : ElementIdError → String
  | .blank => "Invalid element id: Element ID cannot be empty"

namespace ElementId

/-- The identifier with a given text. -/
def ofText (s : String) : Except ElementIdError ElementId :=
  if h : Text.isBlankText s = false then .ok ⟨s, h⟩ else .error .blank

/-- The identifier with a given text, if the text is not blank. -/
def ofText? (s : String) : Option ElementId :=
  (ofText s).toOption

def toJson (id : ElementId) : Json :=
  .string id.text

def ofJson? (j : Json) : Option ElementId :=
  j.text?.bind ofText?

@[simp] theorem ofText_text (id : ElementId) : ofText id.text = .ok id := by
  simp [ofText, id.not_blank]

@[simp] theorem ofText?_text (id : ElementId) : ofText? id.text = some id := by
  simp [ofText?, Except.toOption]

@[simp] theorem ofJson?_toJson (id : ElementId) : ofJson? id.toJson = some id := by
  simp [ofJson?, toJson, Json.text?]

end ElementId
end DesignMarkup
