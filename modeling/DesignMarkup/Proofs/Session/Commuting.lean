import DesignMarkup.Proofs.Session.ChangeLog
import DesignMarkup.Proofs.Tag.Changes

/-!
Requests about the tags of different elements.  What such a request reads and writes is confined to
the elements that it affects, so that two of them that affect no element together can be handled in
either order.  Only the order of the records in the store tells which one came first.
-/

namespace DesignMarkup

open TagChanges (given lost)

namespace Tagging

/-- The records stay filed under the elements that they name. -/
theorem filed_steps {t t' : Tagging} (h : t.store.Filed) (hsteps : Steps t t') :
    t'.store.Filed := by
  induction hsteps with
  | refl => exact h
  | tail _ hstep ih =>
      cases hstep with
      | commit r hcommit => exact filed_commit ih hcommit
      | remove id hremove =>
          rw [store_of_removeOne? hremove]
          exact ih.erase id
      | artifact => exact ih

section Local

variable {t t' : Tagging} (hframe : t.host.SameFrame t'.host) {id : ElementId}
  (hfind : t'.store.find? id = t.store.find? id)
include hframe hfind

theorem recordOn?_congr (tag : String) (properties : Properties) :
    t'.recordOn? tag properties id = t.recordOn? tag properties id := by
  rw [recordOn?, recordOn?, hframe.sameTree.element?_eq]
  refine Option.map_congr fun element helement => ?_
  rw [recordFor, recordFor, Document.id_of_element? helement, hfind]

theorem suggested?_congr : t'.suggested? id = t.suggested? id := by
  rw [suggested?, suggested?, TagStore.contains_eq, TagStore.contains_eq, hfind,
    hframe.refusal?_eq, hframe.sameTree.element?_eq]

end Local

section LocalTo

variable {t t' : Tagging} (hframe : t.host.SameFrame t'.host) {ids : List ElementId}
  (hfind : ∀ id ∈ ids, t'.store.find? id = t.store.find? id)
include hframe hfind

theorem outcome_tagElements_congr (hfiled : t.store.Filed) (hfiled' : t'.store.Filed)
    (tag : String) (properties : Properties) :
    (t'.tagElements tag properties ids).1 = (t.tagElements tag properties ids).1 := by
  rw [outcome_tagElements hfiled', outcome_tagElements hfiled, hframe.writable_eq,
    hframe.refused_eq]
  congr 1
  refine List.filterMap_congr fun id hid => ?_
  exact recordOn?_congr hframe (hfind id (List.mem_filter.mp hid).1) tag properties

theorem removable_congr : t'.removable ids = t.removable ids := by
  rw [removable, removable, hframe.writeFault_eq]
  congr 1
  refine List.filter_congr fun id hid => ?_
  rw [TagStore.contains_eq, TagStore.contains_eq, hfind id hid]

omit hfind in
theorem outcome_autoTag_congr {descendants : Bool}
    (hfind : ∀ id ∈ t.named ids descendants, t'.store.find? id = t.store.find? id) :
    (t'.autoTag ids descendants).1 = (t.autoTag ids descendants).1 := by
  have hcandidates := candidates_eq hframe.sameTree ids descendants
  have happlied : (t'.autoTagElements (t.candidates ids descendants)).1 =
      (t.autoTagElements (t.candidates ids descendants)).1 := by
    have hnodup : (t.candidates ids descendants).Nodup := nodup_eraseDups _
    rw [applied_autoTagElements t' hnodup, applied_autoTagElements t hnodup]
    refine List.filterMap_congr fun id hid => ?_
    exact suggested?_congr hframe (hfind id (List.mem_eraseDups.mp hid))
  simp only [autoTag, hcandidates, happlied]

end LocalTo

end Tagging

namespace Session

/-- The elements that a request about tags may affect. -/
def affected? (s : Session) : Inbound → Option (List ElementId)
  | .applyTag _ _ ids | .removeTag ids => some ids
  | .autoTagSelection ids => some (s.named ids s.settings.autoTag.includeDescendants)
  | _ => none

/-- What a request about tags changes. -/
def changes (s : Session) : Inbound → TagChanges
  | .applyTag tag properties ids =>
      if Text.trim tag = "" then fun _ => none
      else given (s.host.writable ids) (s.recordOn? (Text.trim tag) properties)
  | .removeTag ids => lost (s.removable ids)
  | .autoTagSelection ids =>
      given (s.candidates ids s.settings.autoTag.includeDescendants) s.suggested?
  | _ => fun _ => none

section Confined

variable {s : Session} {request : Inbound} {affected : List ElementId}
  (h : s.affected? request = some affected)
include h

theorem settings_handle (now : Instant) : (s.handle now request).1.settings = s.settings := by
  cases request with
  | applyTag tag properties requested =>
      rw [handle, applyTag_fst]
      split <;> rfl
  | removeTag requested => rfl
  | autoTagSelection requested =>
      rw [handle, autoTag_fst]
  | _ => cases h

theorem changed_handle (hfiled : s.store.Filed) (hfaultless : s.host.Faultless) (now : Instant) :
    s.toTagging.Changed (s.changes request) (s.handle now request).1.toTagging := by
  cases request with
  | applyTag tag properties ids =>
      rw [handle, applyTag_fst, changes]
      split
      · exact .refl _
      · exact Tagging.changed_tagElements hfiled _ properties ids
  | removeTag ids => exact s.toTagging.changed_remove hfaultless.steady.backend ids
  | autoTagSelection ids =>
      rw [handle, autoTag_fst]
      exact Tagging.changed_autoTagElements (nodup_eraseDups _)
  | _ => cases h

/-- No other element is changed. -/
theorem changes_eq_none {id : ElementId} (hid : id ∉ affected) : s.changes request id = none := by
  cases request with
  | applyTag tag properties ids =>
      rw [← Option.some.inj h] at hid
      have hwritable : id ∉ s.host.writable ids := fun hmem => hid (List.mem_filter.mp hmem).1
      rw [changes]
      split
      · rfl
      · exact if_neg hwritable
  | removeTag ids =>
      rw [← Option.some.inj h] at hid
      refine if_neg fun hmem => hid ?_
      exact (List.mem_filter.mp (List.mem_eraseDups.mp hmem)).1
  | autoTagSelection ids =>
      rw [← Option.some.inj h] at hid
      exact if_neg fun hmem => hid (List.mem_eraseDups.mp hmem)
  | _ => cases h

end Confined

/-- Sessions that a request about some elements cannot tell apart: their hosts differ in what is
stored at most, and their records in those of other elements. -/
structure AlikeOn (ids : List ElementId) (s s' : Session) : Prop where
  sameFrame : s.host.SameFrame s'.host
  settings_eq : s'.settings = s.settings
  find?_eq : ∀ id ∈ ids, s'.store.find? id = s.store.find? id

/-- A request leaves a session alike on the elements that it does not affect. -/
theorem alikeOn_handle {s : Session} {request : Inbound} {affected ids : List ElementId}
    (h : s.affected? request = some affected) (hfiled : s.store.Filed)
    (hfaultless : s.host.Faultless) (hdisjoint : affected.Disjoint ids) (now : Instant) :
    AlikeOn ids s (s.handle now request).1 := by
  have hchanged := changed_handle h hfiled hfaultless now
  refine ⟨hchanged.sameFrame, settings_handle h now, ?_⟩
  intro id hid
  rw [hchanged.find?_eq, changes_eq_none h fun hmem => hdisjoint hmem hid]
  rfl

namespace AlikeOn

variable {s s' : Session} {ids : List ElementId}

theorem affected?_eq (h : AlikeOn ids s s') (request : Inbound) :
    s'.affected? request = s.affected? request := by
  cases request with
  | autoTagSelection named =>
      simp only [affected?, Tagging.named, h.settings_eq, h.sameFrame.sameTree.descendants_eq]
  | _ => rfl

variable {request : Inbound} (h : AlikeOn ids s s') (haffected : s.affected? request = some ids)
include h haffected

theorem changes_eq : s'.changes request = s.changes request := by
  cases request with
  | applyTag tag properties ids =>
      cases haffected
      rw [changes, changes, h.sameFrame.writable_eq]
      split
      · rfl
      · refine TagChanges.given_congr fun id hid => ?_
        exact Tagging.recordOn?_congr h.sameFrame (h.find?_eq id (List.mem_filter.mp hid).1) _ _
  | removeTag ids =>
      cases haffected
      rw [changes, changes, Tagging.removable_congr h.sameFrame h.find?_eq]
  | autoTagSelection ids =>
      cases haffected
      rw [changes, changes, h.settings_eq, Tagging.candidates_eq h.sameFrame.sameTree]
      refine TagChanges.given_congr fun id hid => ?_
      exact Tagging.suggested?_congr h.sameFrame (h.find?_eq id (List.mem_eraseDups.mp hid))
  | _ => cases haffected

theorem replies_eq (hfiled : s.store.Filed) (hfiled' : s'.store.Filed)
    (hsteady : s.host.Steady) (hsteady' : s'.host.Steady) (now now' : Instant) :
    (s'.handle now' request).2 = (s.handle now request).2 := by
  cases request with
  | applyTag tag properties ids =>
      cases haffected
      have houtcome := Tagging.outcome_tagElements_congr h.sameFrame h.find?_eq hfiled hfiled'
        (Text.trim tag) properties
      simp only [handle, applyTag, Tagging.apply]
      by_cases htag : Text.trim tag = ""
      · simp only [htag, if_true]
      · cases ids with
        | nil => simp only [htag, if_false, List.isEmpty_nil, if_true]
        | cons id rest =>
            simp only [htag, if_false, List.isEmpty_cons, Bool.false_eq_true, houtcome]
  | removeTag ids =>
      cases haffected
      simp only [handle, removeTag, Tagging.remove_eq hsteady.backend,
        Tagging.remove_eq hsteady'.backend, Tagging.removable_congr h.sameFrame h.find?_eq]
  | autoTagSelection ids =>
      cases haffected
      have houtcome := Tagging.outcome_autoTag_congr h.sameFrame h.find?_eq
      simp only [handle, autoTag, h.settings_eq, houtcome]
      split <;> rfl
  | _ => cases haffected

end AlikeOn

/-- What two requests come to in either order, the earlier one at the instant `first` and the later
one at `second`. -/
structure Commute (s : Session) (request other : Inbound) (first second : Instant) : Prop where
  replies_eq :
    ((s.handle first other).1.handle second request).2 = (s.handle first request).2
  other_replies_eq :
    ((s.handle first request).1.handle second other).2 = (s.handle first other).2
  find?_eq : ∀ id, ((s.handle first other).1.handle second request).1.store.find? id =
    ((s.handle first request).1.handle second other).1.store.find? id
  /-- At most the order of the records differs. -/
  perm : ((s.handle first other).1.handle second request).1.store.records.entries.Perm
    ((s.handle first request).1.handle second other).1.store.records.entries
  /-- The documents are the same, and so are their snapshots. -/
  host_eq : ((s.handle first other).1.handle second request).1.host =
    ((s.handle first request).1.handle second other).1.host
  exported_eq : ∀ now, ((s.handle first other).1.handle second request).1.exported now =
    ((s.handle first request).1.handle second other).1.exported now

theorem commute_of_disjoint {s : Session} (hfiled : s.store.Filed) (hfaultless : s.host.Faultless)
    {request other : Inbound} {ids others : List ElementId}
    (h : s.affected? request = some ids) (hother : s.affected? other = some others)
    (hdisjoint : ids.Disjoint others) (first second : Instant) :
    Commute s request other first second := by
  have hsteps := s.steps_handle first request
  have hsteps' := s.steps_handle first other
  have hfiled₁ := Tagging.filed_steps hfiled hsteps
  have hfiled₂ := Tagging.filed_steps hfiled hsteps'
  have hfaultless₁ := Tagging.faultless_steps hfaultless hsteps
  have hfaultless₂ := Tagging.faultless_steps hfaultless hsteps'
  have halike₁ := alikeOn_handle h hfiled hfaultless hdisjoint first
  have halike₂ := alikeOn_handle hother hfiled hfaultless (List.disjoint_comm.mp hdisjoint) first
  have hlater : (s.handle first request).1.affected? other = some others :=
    (halike₁.affected?_eq other).trans hother
  have hlater' : (s.handle first other).1.affected? request = some ids :=
    (halike₂.affected?_eq request).trans h
  have hchanged := (changed_handle h hfiled hfaultless first).trans
    (changed_handle hlater hfiled₁ hfaultless₁ second)
  have hchanged' := (changed_handle hother hfiled hfaultless first).trans
    (changed_handle hlater' hfiled₂ hfaultless₂ second)
  have hapart : ∀ id, s.changes request id = none ∨ s.changes other id = none := by
    intro id
    by_cases hid : id ∈ ids
    · exact .inr (changes_eq_none hother fun hmem => hdisjoint hid hmem)
    · exact .inl (changes_eq_none h hid)
  rw [halike₁.changes_eq hother] at hchanged
  rw [halike₂.changes_eq h, ← TagChanges.followedBy_comm hapart] at hchanged'
  obtain ⟨hhost, hfind⟩ := hchanged.unique hchanged'
  have hsettings : ((s.handle first other).1.handle second request).1.settings =
      ((s.handle first request).1.handle second other).1.settings := by
    rw [settings_handle hlater', settings_handle hother, settings_handle hlater, settings_handle h]
  constructor
  case replies_eq =>
    exact halike₂.replies_eq h hfiled hfiled₂ hfaultless.steady hfaultless₂.steady first second
  case other_replies_eq =>
    exact halike₁.replies_eq hother hfiled hfiled₁ hfaultless.steady hfaultless₁.steady first second
  case find?_eq => exact hfind
  case perm => exact OrderedMap.perm_entries_of_find? hfind
  case host_eq => exact hhost
  case exported_eq =>
    intro now
    rw [exported, exported, hhost, hsettings, Forest.build_congr hfind]

theorem filed_run {s : Session} (h : s.store.Filed) (turns : List Turn) :
    (s.run turns).1.store.Filed := by
  induction turns generalizing s with
  | nil => exact h
  | cons t rest ih =>
      have hmeanwhile : ({ s with host := t.meanwhile s.host } : Session).store.Filed := h
      exact ih (Tagging.filed_steps hmeanwhile (steps_handle _ t.now t.request))

/-- At any time of a run, and whatever has become of the host by then, two requests about tags that
affect no element together can be handled in either order, as long as the storage refuses
nothing. -/
theorem requests_commute (host : Host) (settings : Settings) (turns : List Turn) :
    let s := ((start host settings).run turns).1
    s.host.Faultless → ∀ request other ids others, s.affected? request = some ids →
      s.affected? other = some others → ids.Disjoint others →
        ∀ first second, Commute s request other first second := by
  intro s hfaultless request other ids others h hother hdisjoint first second
  have hfiled : s.store.Filed := filed_run (TagStore.filed_load host) turns
  exact commute_of_disjoint hfiled hfaultless h hother hdisjoint first second

/-- The page may lose its tag before or after what lies below it is tagged from the names. -/
theorem requests_commute_titlePage :
    let page : ElementId := ⟨"page", rfl⟩
    let wrapper : ElementId := ⟨"wrapper", rfl⟩
    let title : ElementId := ⟨"title", rfl⟩
    let turns : List Turn := [⟨id, ⟨1, 0⟩, .applyTag "main" .empty [page]⟩]
    let s := ((start { document := Forest.titlePage } { autoTag := ⟨true⟩ }).run turns).1
    s.host.Faultless ∧ s.affected? (.removeTag [page]) = some [page] ∧
      s.affected? (.autoTagSelection [wrapper]) = some [wrapper, title] ∧
      Commute s (.removeTag [page]) (.autoTagSelection [wrapper]) ⟨2, 0⟩ ⟨3, 0⟩ := by
  intro page wrapper title turns s
  have hfaultless : s.host.Faultless :=
    Tagging.faultless_steps (Host.faultless_of_document Forest.titlePage)
      (steps_handle (start { document := Forest.titlePage } { autoTag := ⟨true⟩ }) ⟨1, 0⟩
        (.applyTag "main" .empty [page]))
  have haffected : s.affected? (.autoTagSelection [wrapper]) = some [wrapper, title] := by
    decide +kernel
  have hdisjoint : [page].Disjoint [wrapper, title] := List.singleton_disjoint.mpr (by decide)
  exact ⟨hfaultless, rfl, haffected, requests_commute _ _ turns hfaultless _ _ _ _ rfl haffected
    hdisjoint _ _⟩

end Session
end DesignMarkup
