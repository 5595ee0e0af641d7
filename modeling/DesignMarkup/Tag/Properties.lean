import DesignMarkup.OrderedMap
import DesignMarkup.Text.Blank

/-!
The properties of a tag: its attributes by name, in the order in which they were first given.
-/

namespace DesignMarkup

/-- The attributes of a tag. -/
abbrev Properties := OrderedMap String String

namespace Properties

/-- An entry with its key and value trimmed, unless one of them is blank. -/
def cleanEntry? (entry : String × String) : Option (String × String) :=
  let key := Text.trim entry.1
  let value := Text.trim entry.2
  if key = "" ∨ value = "" then none else some (key, value)

/-- The properties with keys and values trimmed and blank entries dropped.  Of the entries whose
keys become equal the first gives the place and the last the value. -/
def clean (properties : Properties) : Properties :=
  .ofList (properties.entries.filterMap cleanEntry?)

end Properties
end DesignMarkup
