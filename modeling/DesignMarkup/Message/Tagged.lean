import DesignMarkup.Json.Record

/-!
Values that name their own kind: an object with a member `type` among its fields, or an array that
begins with the kind and goes on with the fields.  Every part of such a value must be readable,
also the parts that no field takes up.
-/

namespace DesignMarkup.Json

/-- The kind of a value and the tree of its fields. -/
def tagged? (j : Json) : Option (String × Json) :=
  if !j.isReadable then none
  else
    match j with
    | .object members =>
        match members.filter fun member => member.1 = "type" with
        | [(_, .string kind)] =>
            some (kind, .object (members.filter fun member => member.1 ≠ "type"))
        | _ => none
    | .array (.string kind :: items) => some (kind, .array items)
    | _ => none

/-- A value of a kind with the given fields. -/
def ofTagged (kind : String) (fields : List (String × Json)) : Json :=
  .object (("type", .string kind) :: fields)

/-- The fields of a kind that has none: any object, or an array without items. -/
def noFields? : Json → Option Unit
  | .object _ => some ()
  | .array [] => some ()
  | _ => none

end DesignMarkup.Json
