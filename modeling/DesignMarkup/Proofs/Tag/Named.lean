import DesignMarkup.Proofs.LayerName
import DesignMarkup.Proofs.Tag.Additions

/-!
Records made from layer names.  An element that is tagged from its name has all that the name tells
in its record: records are cleaned, and what a name tells is clean.
-/

namespace DesignMarkup.Tagging

/-- A record has the tag and all properties that the name of its element tells. -/
def TellsName (t : Tagging) (r : TagRecord) : Prop :=
  ∃ element inference, t.host.document.element? r.elementId = some element ∧
    LayerName.infer? element.name = some inference ∧
    r.tag = inference.tag ∧ r.properties = inference.properties

/-- What becomes of the names of elements when they are tagged from them. -/
structure RecordsNames (t : Tagging) (outcome : AutoTagOutcome) (t' : Tagging) : Prop where
  /-- The records are committed one after the other, and nothing else is done. -/
  commits : t.Commits outcome.applied t'
  found : ∀ r ∈ outcome.applied, t'.store.find? r.elementId = some r
  /-- An element that is looked at gets a record if it has none, can be written and has a name that
  tells something. -/
  made : ∀ id ∈ outcome.processed, t.store.contains id = false → t.host.refusal? id = none →
    ∀ element inference, t.host.document.element? id = some element →
      LayerName.infer? element.name = some inference →
        ∃ r ∈ outcome.applied, r.elementId = id
  whole : ∀ r ∈ outcome.applied, t.TellsName r
  variant : ∀ r ∈ outcome.applied, ∀ element parsed variant,
    t.host.document.element? r.elementId = some element →
      LayerName.parse? element.name = some parsed → parsed.variant = some variant →
        r.properties.find? "type" = some variant ∨
          r.properties.find? "data-variant" = some variant

theorem tellsName_of_suggested? {t : Tagging} {id : ElementId} {r : TagRecord}
    (h : t.suggested? id = some r) : t.TellsName r := by
  have hid := elementId_of_suggested? h
  obtain ⟨-, -, element, inference, helement, hinfer, rfl⟩ := suggested?_eq_some_iff.mp h
  exact ⟨element, inference, hid ▸ helement, hinfer, rfl, LayerName.clean_of_infer? hinfer⟩

theorem recordsNames_autoTag (t : Tagging) (ids : List ElementId) (descendants : Bool) :
    RecordsNames t (t.autoTag ids descendants).1 (t.autoTag ids descendants).2 := by
  have honly := t.onlyAdds ids descendants
  have hwhole : ∀ r ∈ (t.autoTag ids descendants).1.applied, t.TellsName r := by
    intro r hr
    rw [honly.applied_eq] at hr
    obtain ⟨id, -, hsuggested⟩ := List.mem_filterMap.mp hr
    exact tellsName_of_suggested? hsuggested
  constructor
  case commits => exact t.commits_autoTagElements (t.candidates ids descendants)
  case found =>
    intro r hr
    apply OrderedMap.mem_entries_iff.mp
    rw [honly.entries_eq, List.mem_append]
    exact .inr (List.mem_map_of_mem hr)
  case made =>
    intro id hid hfresh hrefusal element inference helement hinfer
    have hsuggested := suggested?_eq_some_iff.mpr
      ⟨hfresh, hrefusal, element, inference, helement, hinfer, rfl⟩
    refine ⟨_, ?_, elementId_of_suggested? hsuggested⟩
    rw [honly.applied_eq]
    exact List.mem_filterMap.mpr ⟨id, hid, hsuggested⟩
  case whole => exact hwhole
  case variant =>
    intro r hr element parsed variant helement hparsed hvariant
    obtain ⟨found, inference, hfound, hinfer, -, hproperties⟩ := hwhole r hr
    obtain rfl : element = found := Option.some.inj (helement.symm.trans hfound)
    rw [hproperties]
    exact LayerName.variant_of_infer? hinfer hparsed hvariant

/-- Names are read without regard to blanks, and nothing that a name tells is lost, neither when it
is cleaned nor on the way into the record of an element. -/
theorem names_read_and_recorded (name : String) (t : Tagging) (ids : List ElementId)
    (descendants : Bool) :
    LayerName.ReadsParts name ∧ LayerName.TellsWhole name ∧
      RecordsNames t (t.autoTag ids descendants).1 (t.autoTag ids descendants).2 :=
  ⟨LayerName.readsParts name, LayerName.tellsWhole name, t.recordsNames_autoTag ids descendants⟩

end DesignMarkup.Tagging
