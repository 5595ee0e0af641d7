import DesignMarkup.Proofs.Session.Restart
import DesignMarkup.Proofs.Tag.Auto

/-!
How deep tagging nests.  Data that is stored on an element takes a level of its own inside the
object of the element, which matters only for the elements that had no data and lie deepest: the
document that a run of commits leaves behind still fits into a text exactly if there is room for the
data of each element that was given a record.
-/

namespace DesignMarkup

namespace Layer

/-- Dropping empty texts takes no further level. -/
theorem ownNesting_dropEmptyData_le {layer other : Layer} (h : layer.own = other.own) :
    layer.dropEmptyData.ownNesting ≤ other.ownNesting := by
  have helement : layer.element = other.element := congrArg Prod.fst h
  have hdata : layer.data = other.data := congrArg Prod.snd h
  by_cases hempty : other.data.isEmpty = true
  · have hnone : other.data = .empty := OrderedMap.eq_empty_of_isEmpty hempty
    have hdropped : layer.dropEmptyData.data = .empty := by
      rw [data_dropEmptyData, hdata, hnone]
      rfl
    have hsame : layer.dropEmptyData.ownNesting = other.ownNesting := by
      rw [ownNesting, ownNesting, hdropped, element_dropEmptyData, helement, hnone]
    exact Nat.le_of_eq hsame
  · have htwo : other.ownNesting = 2 := ownNesting_of_data (Bool.eq_false_iff.mpr hempty)
    rw [htwo]
    exact ownNesting_le_two _

end Layer

namespace Tagging

variable {t t' : Tagging} {records : List TagRecord}

/-- What is stored on an element with a record is there when the document is opened again. -/
theorem WrittenThrough.isEmpty_data_reopened (h : t.WrittenThrough) {id : ElementId}
    {layer : Layer} (hlayer : t.host.document.reopened.layer? id = some layer)
    (hcontains : t.store.contains id = true) : layer.data.isEmpty = false := by
  have hload : (TagStore.load { document := t.host.document.reopened }).contains id = true := by
    rw [(Host.sameTexts_reopened h.steady.readable).load_eq, TagStore.contains_eq,
      TagStore.find?_load, h.stored]
    exact hcontains
  exact TagStore.isEmpty_data_of_contains_load hlayer hload

/-- Where a document fits into a text, the document after a run of commits does exactly if each
element that was given a record lies where its data has room. -/
theorem Commits.nesting_snapshot_le_iff (h : t.Commits records t') (hthrough : t'.WrittenThrough)
    (hfits : t.host.document.toSnapshot.toJson.nesting ≤ Json.maxNesting) :
    t'.host.document.snapshot.toJson.nesting ≤ Json.maxNesting ↔
      ∀ r ∈ records, ∀ level, (r.elementId, level) ∈ t.host.document.levels →
        2 * level + 4 ≤ Json.maxNesting := by
  have hlevels : t'.host.document.reopened.levels = t.host.document.levels :=
    t'.host.document.levels_reopened.trans h.sameTree.levels_eq
  have hsnapshot : t'.host.document.snapshot.toJson.nesting =
      t'.host.document.reopened.toSnapshot.toJson.nesting := by
    rw [Snapshot.nesting_toJson, Snapshot.nesting_toJson]
    rfl
  rw [hsnapshot, Document.nesting_toJson_le_iff, hlevels]
  rw [Document.nesting_toJson_le_iff] at hfits
  constructor
  · intro hroom r hr level hlevel
    have hmem : r.elementId ∈ t'.host.document.reopened.allElements := by
      rw [← Document.map_fst_levels, hlevels]
      exact List.mem_map_of_mem hlevel
    obtain ⟨layer, hlayer⟩ := Option.isSome_iff_exists.mp
      ((t'.host.document.reopened.contains_iff r.elementId).mpr hmem)
    have hcontains := (h.contains_iff r.elementId).mpr (.inl (List.mem_map_of_mem hr))
    have hown := Layer.ownNesting_of_data (hthrough.isEmpty_data_reopened hlayer hcontains)
    have hle := hroom r.elementId level layer hlevel hlayer
    omega
  · intro hroom id level layer hlevel hlayer
    by_cases hid : id ∈ records.map TagRecord.elementId
    · obtain ⟨r, hr, rfl⟩ := List.mem_map.mp hid
      have hle := hroom r hr level hlevel
      have hown := layer.ownNesting_le_two
      omega
    · rw [Document.layer?_reopened, Option.map_eq_some_iff] at hlayer
      obtain ⟨stored, hstored, rfl⟩ := hlayer
      have hown := h.own_layer?_eq hid
      rw [hstored, Option.map_some, eq_comm, Option.map_eq_some_iff] at hown
      obtain ⟨before, hbefore, hsame⟩ := hown
      have hle := hfits id level before hlevel hbefore
      have hdropped := Layer.ownNesting_dropEmptyData_le hsame.symm
      omega

end Tagging
end DesignMarkup
