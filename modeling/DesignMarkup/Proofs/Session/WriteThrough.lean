import DesignMarkup.Proofs.Session.Run
import DesignMarkup.Proofs.Tag.Encoding
import DesignMarkup.Proofs.Tag.Store

/-!
The store and the storage of the document say the same.  Every record in the store can be read from
its element, and every record that can be read from its element is in the store.  Each step keeps
this as long as reads succeed and a refused write does not say that the element is missing.
-/

namespace DesignMarkup

namespace Host

/-- Reads succeed, and what is refused is refused by the storage behind the document. -/
structure Steady (host : Host) : Prop where
  readable : ∀ id, host.readFault id = none
  backend : ∀ id fault, host.writeFault id = some fault → ∃ reason, fault = .backend reason

/-- A document at hand can be read and written. -/
theorem steady_of_document (d : Document) : Steady { document := d } where
  readable _ := rfl
  backend _ _ hfault := by cases hfault

theorem Steady.write {host host' : Host} (h : host.Steady) {id : ElementId} {key value : String}
    (hwrite : host.write id key value = .ok host') : host'.Steady := by
  obtain ⟨-, d', -, rfl⟩ := write_eq_ok_iff.mp hwrite
  exact ⟨h.readable, h.backend⟩

/-- In a steady host a write is refused as one to a missing element only where the element is
missing. -/
theorem Steady.not_contains {host : Host} (h : host.Steady) {id missing : ElementId}
    {key value : String} (hwrite : host.write id key value = .error (.elementNotFound missing)) :
    id ∉ host.document.allElements := by
  rw [Host.write] at hwrite
  split at hwrite
  · rename_i fault hfault
    obtain ⟨reason, rfl⟩ := h.backend id fault hfault
    cases hwrite
  · intro hmem
    have hcontains := (Document.contains_iff host.document id).mpr hmem
    simp [Document.write, hcontains, Except.map] at hwrite

theorem Steady.read_write {host host' : Host} (h : host.Steady) {id : ElementId}
    {key value : String} (hwrite : host.write id key value = .ok host') (other : ElementId)
    (name : String) :
    host'.read other name =
      if other = id ∧ name = key then .ok (if value = "" then none else some value)
      else host.read other name := by
  obtain ⟨-, d', hdocument, rfl⟩ := write_eq_ok_iff.mp hwrite
  simp only [read, h.readable]
  exact Document.read_write hdocument other name

end Host

namespace TagStore

/-- Writing under another key leaves the stored record alone. -/
theorem stored?_write_of_ne {host host' : Host} (h : host.Steady) {id : ElementId}
    {key value : String} (hkey : key ≠ dataKey) (hwrite : host.write id key value = .ok host')
    (other : ElementId) : stored? host' other = stored? host other := by
  have hother : ¬ (other = id ∧ dataKey = key) := by
    rintro ⟨-, hsame⟩
    exact hkey hsame.symm
  rw [stored?, stored?, h.read_write hwrite, if_neg hother]

theorem toText_ne_empty (r : TagRecord) : r.toText ≠ "" :=
  Json.ne_empty_of_bind_read? r.ofText?_toText

/-- A text written for the record of an element decides what is stored there and nowhere else. -/
theorem stored?_write {host host' : Host} (h : host.Steady) {id : ElementId} {value : String}
    (hwrite : host.write id dataKey value = .ok host') (other : ElementId) :
    stored? host' other =
      if id = other then
        if value = "" then none else (TagRecord.ofText? value).filter fun r => r.elementId = id
      else stored? host other := by
  rw [stored?, h.read_write hwrite]
  by_cases hid : id = other
  · subst hid
    by_cases hvalue : value = "" <;> simp [hvalue]
  · have hother : ¬ (other = id ∧ dataKey = dataKey) := by
      rintro ⟨hsame, -⟩
      exact hid hsame.symm
    rw [if_neg hother, if_neg hid, stored?]

/-- A record written to its element is the one that is read from it. -/
theorem stored?_write_toText {host host' : Host} (h : host.Steady) {r : TagRecord}
    (hwrite : host.write r.elementId dataKey r.toText = .ok host') (other : ElementId) :
    stored? host' other = if r.elementId = other then some r else stored? host other := by
  rw [stored?_write h hwrite, if_neg (toText_ne_empty r), TagRecord.ofText?_toText,
    Option.filter_some, if_pos (decide_eq_true rfl)]

/-- Where the empty text is written no record is stored. -/
theorem stored?_write_empty {host host' : Host} (h : host.Steady) {id : ElementId}
    (hwrite : host.write id dataKey "" = .ok host') (other : ElementId) :
    stored? host' other = if id = other then none else stored? host other := by
  rw [stored?_write h hwrite, if_pos rfl]

end TagStore

namespace Tagging

@[simp] theorem host_load (host : Host) : (load host).host = host :=
  rfl

/-- A commit is a write to the element of the record, after which the store follows. -/
theorem commit_eq_ok_iff {t t' : Tagging} {r : TagRecord} :
    t.commit r = .ok t' ↔
      ∃ host, t.host.write r.elementId TagStore.dataKey r.toText = .ok host ∧
        t' = ⟨host, t.store.insert r⟩ := by
  rw [commit]
  cases t.host.write r.elementId TagStore.dataKey r.toText with
  | error e => simp [Except.map]
  | ok host => simp [Except.map, eq_comm]

/-- The store agrees with what is stored on the elements of a steady host. -/
structure WrittenThrough (t : Tagging) : Prop where
  steady : t.host.Steady
  filed : t.store.Filed
  stored : ∀ id, TagStore.stored? t.host id = t.store.find? id

theorem writtenThrough_load {host : Host} (h : host.Steady) : (load host).WrittenThrough where
  steady := h
  filed := TagStore.filed_load host
  stored id := (TagStore.find?_load host id).symm

theorem WrittenThrough.commit {t t' : Tagging} (h : t.WrittenThrough) {r : TagRecord}
    (hcommit : t.commit r = .ok t') : t'.WrittenThrough := by
  obtain ⟨host, hwrite, rfl⟩ := commit_eq_ok_iff.mp hcommit
  refine ⟨h.steady.write hwrite, h.filed.insert r, ?_⟩
  intro id
  rw [TagStore.stored?_write_toText h.steady hwrite, TagStore.find?_insert, h.stored]

theorem WrittenThrough.removeOne? {t t' : Tagging} (h : t.WrittenThrough) {id : ElementId}
    (hremove : t.removeOne? id = some t') : t'.WrittenThrough := by
  rw [Tagging.removeOne?] at hremove
  split at hremove
  · split at hremove
    · rename_i host hwrite
      cases hremove
      refine ⟨h.steady.write hwrite, h.filed.erase id, ?_⟩
      intro other
      rw [TagStore.stored?_write_empty h.steady hwrite, TagStore.find?_erase, h.stored]
    · rename_i missing hwrite
      cases hremove
      refine ⟨h.steady, h.filed.erase id, ?_⟩
      intro other
      -- the element is missing, so there was no record under it before either
      have hnone := TagStore.stored?_of_not_contains (h.steady.not_contains hwrite)
      rw [TagStore.find?_erase, h.stored]
      split
      · rename_i hid
        rw [← hid, ← h.stored, hnone]
      · rfl
    · cases hremove
  · cases hremove

theorem WrittenThrough.step {t t' : Tagging} (h : t.WrittenThrough) (hstep : Step t t') :
    t'.WrittenThrough := by
  cases hstep with
  | commit r hcommit => exact h.commit hcommit
  | remove id hremove => exact h.removeOne? hremove
  | artifact id key value hkey hwrite =>
      refine ⟨h.steady.write hwrite, h.filed, ?_⟩
      intro other
      rw [TagStore.stored?_write_of_ne h.steady hkey hwrite, h.stored]

theorem WrittenThrough.steps {t t' : Tagging} (h : t.WrittenThrough) (hsteps : Steps t t') :
    t'.WrittenThrough := by
  induction hsteps with
  | refl => exact h
  | tail _ hstep ih => exact ih.step hstep

end Tagging

/-- A request that comes while the storage refuses to write some elements, each for a reason. -/
structure RefusingTurn where
  refusal : ElementId → Option String
  now : Instant
  request : Inbound

/-- The refusals of a turn replace those of the last one. -/
def RefusingTurn.toTurn (t : RefusingTurn) : Turn where
  meanwhile host := { host with writeFault := fun id => (t.refusal id).map .backend }
  now := t.now
  request := t.request

namespace Session

/-- New refusals change nothing that is stored, and the request then takes its steps. -/
theorem writtenThrough_turn {s : Session} (h : s.toTagging.WrittenThrough) (t : RefusingTurn) :
    (s.turn t.toTurn).1.toTagging.WrittenThrough := by
  refine Tagging.WrittenThrough.steps ?_ (steps_handle _ t.now t.request)
  refine ⟨⟨h.steady.readable, ?_⟩, h.filed, h.stored⟩
  intro id fault hfault
  obtain ⟨reason, -, rfl⟩ := Option.map_eq_some_iff.mp hfault
  exact ⟨reason, rfl⟩

theorem writtenThrough_run {s : Session} (h : s.toTagging.WrittenThrough)
    (turns : List RefusingTurn) :
    (s.run (turns.map RefusingTurn.toTurn)).1.toTagging.WrittenThrough := by
  induction turns generalizing s with
  | nil => exact h
  | cons t rest ih => exact ih (writtenThrough_turn h t)

/-- However the storage refuses writes in the course of a run, every record of the store lies under
its own element, and a store loaded afresh holds the same record, or none, under each element. -/
theorem load_agrees_after_run (d : Document) (settings : Settings) (turns : List RefusingTurn) :
    let s := ((start { document := d } settings).run (turns.map RefusingTurn.toTurn)).1
    (∀ id r, s.store.find? id = some r → r.elementId = id) ∧
      ∀ id, (TagStore.load s.host).find? id = s.store.find? id := by
  intro s
  have hrun : s.toTagging.WrittenThrough :=
    writtenThrough_run (Tagging.writtenThrough_load (Host.steady_of_document d)) turns
  refine ⟨hrun.filed, ?_⟩
  intro id
  rw [TagStore.find?_load, hrun.stored]

end Session
end DesignMarkup
