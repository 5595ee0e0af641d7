import DesignMarkup.Proofs.Session.Slots

/-!
Refusals.  An element can be written unless it is missing or the storage refuses it, and no record
that is committed changes this for any element.
-/

namespace DesignMarkup

namespace Host

/-- Why no text can be stored on an element: it is missing, or the storage refuses it. -/
def refusal? (host : Host) (id : ElementId) : Option HostError :=
  if host.document.contains id then host.writeFault id else some (.elementNotFound id)

/-- The elements on which texts can be stored. -/
def writable (host : Host) (ids : List ElementId) : List ElementId :=
  ids.filter fun id => (host.refusal? id).isNone

/-- The other elements, each with the reason. -/
def refused (host : Host) (ids : List ElementId) : List (ElementId × HostError) :=
  ids.filterMap fun id => (host.refusal? id).map (id, ·)

/-- The same host where it refuses no write. -/
def allowing (host : Host) : Host :=
  { host with writeFault := fun _ => none }

section Write

variable {host host' : Host} {id : ElementId} {key value : String}

theorem exists_write_of_refusal? (h : host.refusal? id = none) (key value : String) :
    ∃ host', host.write id key value = .ok host' := by
  rw [refusal?] at h
  split at h
  · rename_i hcontains
    simp [write, h, Document.write, hcontains, Except.map]
  · cases h

theorem allowing_write (h : host.write id key value = .ok host') :
    host.allowing.write id key value = .ok host'.allowing := by
  obtain ⟨-, d', hdocument, rfl⟩ := write_eq_ok_iff.mp h
  exact write_eq_ok_iff.mpr ⟨rfl, d', hdocument, rfl⟩

end Write

section Cons

variable {host : Host} {id : ElementId} (rest : List ElementId)

theorem writable_cons (h : host.refusal? id = none) :
    host.writable (id :: rest) = id :: host.writable rest := by
  simp [writable, h]

theorem writable_cons_of_refused {e : HostError} (h : host.refusal? id = some e) :
    host.writable (id :: rest) = host.writable rest := by
  simp [writable, h]

theorem refused_cons (h : host.refusal? id = none) :
    host.refused (id :: rest) = host.refused rest := by
  simp [refused, h]

theorem refused_cons_of_refused {e : HostError} (h : host.refusal? id = some e) :
    host.refused (id :: rest) = (id, e) :: host.refused rest := by
  simp [refused, h]

end Cons

/-! What is stored on the elements makes no difference. -/

namespace SameFrame

variable {host host' : Host} (h : host.SameFrame host')
include h

theorem refusal?_eq : host'.refusal? = host.refusal? := by
  funext id
  rw [refusal?, refusal?, h.sameTree.contains_eq, h.writeFault_eq]

theorem writable_eq (ids : List ElementId) : host'.writable ids = host.writable ids := by
  rw [writable, writable, h.refusal?_eq]

theorem refused_eq (ids : List ElementId) : host'.refused ids = host.refused ids := by
  rw [refused, refused, h.refusal?_eq]

end SameFrame

/-- Every element is either written or refused. -/
theorem perm_writable_refused (host : Host) (ids : List ElementId) :
    (host.writable ids ++ (host.refused ids).map Prod.fst).Perm ids := by
  induction ids with
  | nil => exact .nil
  | cons id rest ih =>
      cases h : host.refusal? id with
      | none =>
          rw [writable_cons rest h, refused_cons rest h, List.cons_append]
          exact ih.cons id
      | some e =>
          simp only [writable_cons_of_refused rest h, refused_cons_of_refused rest h, List.map_cons]
          exact List.perm_middle.trans (ih.cons id)

end Host

namespace Tagging

/-- The same tags on a host that refuses no write. -/
def allowing (t : Tagging) : Tagging :=
  { t with host := t.host.allowing }

theorem eq_of_allowing {t t' : Tagging} (h : t'.allowing = t.allowing)
    (hfault : t'.host.writeFault = t.host.writeFault) : t' = t := by
  obtain ⟨⟨document, writeFault, readFault⟩, store⟩ := t
  obtain ⟨⟨document', writeFault', readFault'⟩, store'⟩ := t'
  simp_all [allowing, Host.allowing]

section Commit

variable {t t' : Tagging} {r : TagRecord}

theorem allowing_commit (h : t.commit r = .ok t') : t.allowing.commit r = .ok t'.allowing := by
  obtain ⟨host, hwrite, rfl⟩ := commit_eq_ok_iff.mp h
  exact commit_eq_ok_iff.mpr ⟨host.allowing, Host.allowing_write hwrite, rfl⟩

theorem filed_commit (hfiled : t.store.Filed) (h : t.commit r = .ok t') : t'.store.Filed := by
  rw [(exists_write_of_commit h).2.2]
  exact hfiled.insert r

theorem refusal?_of_commit (h : t.commit r = .ok t') : t.host.refusal? r.elementId = none := by
  obtain ⟨host, hwrite, -⟩ := commit_eq_ok_iff.mp h
  obtain ⟨hfault, d', hdocument, -⟩ := Host.write_eq_ok_iff.mp hwrite
  have hmem := (Document.layers_of_write hdocument).1
  rw [Host.refusal?, if_pos ((Document.contains_iff _ _).mpr hmem), hfault]

/-- Where the element can be written, its record is committed. -/
theorem exists_commit (h : t.host.refusal? r.elementId = none) : ∃ t', t.commit r = .ok t' := by
  obtain ⟨host, hwrite⟩ := Host.exists_write_of_refusal? h TagStore.dataKey r.toText
  exact ⟨_, commit_eq_ok_iff.mpr ⟨host, hwrite, rfl⟩⟩

end Commit

end Tagging
end DesignMarkup
