import DesignMarkup.LayerName
import DesignMarkup.Tag.Store

/-!
Tagging from layer names.  An element that has a record keeps it, so that a second run adds
nothing.
-/

namespace DesignMarkup

/-- What became of a run: the records made and every element looked at. -/
structure AutoTagOutcome where
  applied : List TagRecord
  processed : List ElementId

namespace AutoTagOutcome

def toJson (outcome : AutoTagOutcome) : Json :=
  .object [("appliedTags", .array (outcome.applied.map TagRecord.toJson)),
    ("taggedCount", .number (.integer outcome.applied.length)),
    ("processedElements", .array (outcome.processed.map ElementId.toJson))]

end AutoTagOutcome

namespace Tagging

/-- The elements to look at: the given ones, each followed by those below it if that is asked for,
and each one once. -/
def candidates (t : Tagging) (ids : List ElementId) (descendants : Bool) : List ElementId :=
  (ids.flatMap fun id =>
    id :: if descendants then t.host.document.descendants id else []).eraseDups

/-- Tag an element from its name, if it has no record, has a name of the convention and can be
written. -/
def autoTagElement? (t : Tagging) (id : ElementId) : Option (TagRecord × Tagging) :=
  if t.store.contains id then none
  else do
    let element ← t.host.document.element? id
    let inference ← LayerName.infer? element.name
    let r := TagRecord.ofElement inference.tag inference.properties element
    let t ← (t.commit r).toOption
    return (r, t)

/-- Tag elements from their names one after the other. -/
def autoTagElements (t : Tagging) : List ElementId → List TagRecord × Tagging
  | [] => ([], t)
  | id :: rest =>
      match t.autoTagElement? id with
      | some (r, t) =>
          let (applied, t) := t.autoTagElements rest
          (r :: applied, t)
      | none => t.autoTagElements rest

/-- Tag elements from their names. -/
def autoTag (t : Tagging) (ids : List ElementId) (descendants : Bool) :
    AutoTagOutcome × Tagging :=
  let processed := t.candidates ids descendants
  let (applied, t) := t.autoTagElements processed
  (⟨applied, processed⟩, t)

end Tagging
end DesignMarkup
