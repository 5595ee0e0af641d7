import DesignMarkup.Proofs.Document.Contents
import DesignMarkup.Proofs.Session.WriteThrough

/-!
Tagging from layer names.  A run commits one record after the other, each to an element of its own,
and leaves all else in the document as it was.
-/

namespace DesignMarkup

namespace Tagging

section Commit

variable {t t' : Tagging} {r : TagRecord}

theorem exists_write_of_commit (h : t.commit r = .ok t') :
    t.host.document.write r.elementId TagStore.dataKey r.toText = .ok t'.host.document ∧
      t'.host.writeFault = t.host.writeFault ∧ t'.store = t.store.insert r := by
  obtain ⟨host, hwrite, rfl⟩ := commit_eq_ok_iff.mp h
  obtain ⟨-, d', hdocument, rfl⟩ := Host.write_eq_ok_iff.mp hwrite
  exact ⟨hdocument, rfl, rfl⟩

theorem sameFrame_commit (h : t.commit r = .ok t') : t.host.SameFrame t'.host := by
  obtain ⟨host, hwrite, rfl⟩ := commit_eq_ok_iff.mp h
  exact Host.sameFrame_write hwrite

theorem contains_store_commit (h : t.commit r = .ok t') (id : ElementId) :
    t'.store.contains id = true ↔ id = r.elementId ∨ t.store.contains id = true := by
  rw [(exists_write_of_commit h).2.2, TagStore.contains_eq, TagStore.contains_eq,
    TagStore.find?_insert]
  by_cases hid : r.elementId = id
  · simp [hid]
  · simp [hid, Ne.symm hid]

end Commit

namespace Commits

variable {t t' : Tagging} {records : List TagRecord} (h : t.Commits records t')
include h

theorem sameFrame : t.host.SameFrame t'.host := by
  induction h with
  | nil => exact .refl _
  | cons first _ ih => exact (sameFrame_commit first).trans ih

theorem sameTree : t.host.document.SameTree t'.host.document :=
  h.sameFrame.sameTree

/-- The elements with a record are those that had one and those that were given one. -/
theorem contains_iff (id : ElementId) :
    t'.store.contains id = true ↔
      id ∈ records.map TagRecord.elementId ∨ t.store.contains id = true := by
  induction h with
  | nil => simp
  | cons first _ ih =>
      rw [ih, contains_store_commit first, List.map_cons, List.mem_cons]
      tauto

/-- What is stored on an element that no record was committed to is as it was. -/
theorem own_layer?_eq {id : ElementId} (hid : id ∉ records.map TagRecord.elementId) :
    (t'.host.document.layer? id).map Layer.own = (t.host.document.layer? id).map Layer.own := by
  induction h with
  | nil => rfl
  | cons first _ ih =>
      rw [List.map_cons, List.mem_cons, not_or] at hid
      rw [ih hid.2, Document.own_layer?_write (exists_write_of_commit first).1]
      simp only [if_neg hid.1]
      rfl

end Commits

/-- An element that tagging from names leaves alone, because it has a record or a name that tells no
tag. -/
def Settled (t : Tagging) (id : ElementId) : Prop :=
  t.store.contains id = true ∨
    ∀ element, t.host.document.element? id = some element → LayerName.infer? element.name = none

section Settled

variable {t t' : Tagging} {id : ElementId}

/-- An element stays settled where records are only added and its name is kept. -/
theorem Settled.mono (h : t.Settled id)
    (hstore : t.store.contains id = true → t'.store.contains id = true)
    (helement : t'.host.document.element? id = t.host.document.element? id) : t'.Settled id := by
  rcases h with hcontains | hname
  · exact .inl (hstore hcontains)
  · exact .inr fun element heq => hname element (helement ▸ heq)

/-- The record made for an element is filed under the element. -/
theorem elementId_of_autoTagElement? {r : TagRecord} (h : t.autoTagElement? id = some (r, t')) :
    r.elementId = id := by
  rw [autoTagElement?] at h
  split at h
  · cases h
  · simp only [Option.bind_eq_bind, Option.bind_eq_some_iff, Option.pure_def, Option.some.injEq,
      Prod.mk.injEq] at h
    obtain ⟨element, helement, inference, -, next, -, rfl, -⟩ := h
    exact Document.id_of_element? helement

end Settled
end Tagging
end DesignMarkup
