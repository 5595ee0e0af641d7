import DesignMarkup.Proofs.Tag.Additions
import DesignMarkup.Proofs.Tag.Requests

/-!
What requests about tags change.  An element that is changed gets a record or loses the one that it
has, in the store and in what is stored on the element, and nothing else happens.  So what becomes
of a host and of the records is told by these changes; how and in which order they were made leaves
no trace but the order of the records.
-/

namespace DesignMarkup

/-- The elements that are changed, each with the record that it has from then on. -/
abbrev TagChanges := ElementId → Option (Option TagRecord)

namespace TagChanges

/-- Elements get the records that are meant for them; those without one stay as they are. -/
def given (ids : List ElementId) (record? : ElementId → Option TagRecord) : TagChanges :=
  fun id => if id ∈ ids then (record? id).map some else none

/-- Elements lose their records. -/
def lost (ids : List ElementId) : TagChanges :=
  fun id => if id ∈ ids then some none else none

/-- Changes followed by others. -/
def followedBy (changes later : TagChanges) : TagChanges :=
  fun id => (later id).or (changes id)

/-- What an element holds after a change: the text of its record, or an empty one when it has none
any more. -/
def noted (change : Option (Option TagRecord)) (own : Element × OrderedMap String String) :
    Element × OrderedMap String String :=
  match change with
  | none => own
  | some record? => (own.1, own.2.insert TagStore.dataKey (record?.elim "" TagRecord.toText))

theorem noted_or (change later : Option (Option TagRecord))
    (own : Element × OrderedMap String String) :
    noted later (noted change own) = noted (later.or change) own := by
  cases later with
  | none => rfl
  | some record? =>
      cases change with
      | none => rfl
      | some old? => simp [noted, OrderedMap.insert_insert]

theorem given_congr {record? other? : ElementId → Option TagRecord} {ids : List ElementId}
    (h : ∀ id ∈ ids, record? id = other? id) : given ids record? = given ids other? := by
  funext id
  by_cases hmem : id ∈ ids
  · simp [given, hmem, h id hmem]
  · simp [given, hmem]

theorem given_cons_of_none {record? : ElementId → Option TagRecord} {id : ElementId}
    (h : record? id = none) (rest : List ElementId) :
    given (id :: rest) record? = given rest record? := by
  funext other
  by_cases hid : other = id
  · subst hid
    simp [given, h]
  · simp [given, hid]

theorem given_cons (record? : ElementId → Option TagRecord) (id : ElementId)
    (rest : List ElementId) :
    given (id :: rest) record? = (given [id] record?).followedBy (given rest record?) := by
  funext other
  by_cases hid : other = id
  · subst hid
    by_cases hmem : other ∈ rest <;> cases hrecord : record? other <;>
      simp [given, followedBy, hmem, hrecord]
  · simp [given, followedBy, hid]

theorem lost_cons (id : ElementId) (rest : List ElementId) :
    lost (id :: rest) = (lost [id]).followedBy (lost rest) := by
  funext other
  by_cases hmem : other ∈ rest <;> simp [lost, followedBy, hmem]

/-- Changes to different elements can be made in either order. -/
theorem followedBy_comm {changes later : TagChanges}
    (h : ∀ id, changes id = none ∨ later id = none) :
    changes.followedBy later = later.followedBy changes := by
  funext id
  rcases h id with hid | hid <;> simp [followedBy, hid]

end TagChanges

namespace Tagging

open TagChanges (given lost noted)

/-- `t` becomes `t'` by changes to the elements. -/
structure Changed (t : Tagging) (changes : TagChanges) (t' : Tagging) : Prop where
  sameFrame : t.host.SameFrame t'.host
  find?_eq : ∀ id, t'.store.find? id = (changes id).getD (t.store.find? id)
  own_eq : ∀ id, (t'.host.document.layer? id).map Layer.own =
    ((t.host.document.layer? id).map Layer.own).map (noted (changes id))

namespace Changed

variable {t next t' : Tagging} {changes later : TagChanges}

theorem refl (t : Tagging) : t.Changed (fun _ => none) t where
  sameFrame := .refl t.host
  find?_eq _ := rfl
  own_eq id := by cases t.host.document.layer? id <;> rfl

theorem trans (h : t.Changed changes next) (h' : next.Changed later t') :
    t.Changed (changes.followedBy later) t' where
  sameFrame := h.sameFrame.trans h'.sameFrame
  find?_eq id := by
    rw [h'.find?_eq, h.find?_eq, TagChanges.followedBy]
    cases later id <;> rfl
  own_eq id := by
    rw [h'.own_eq, h.own_eq, Option.map_map, TagChanges.followedBy]
    exact Option.map_congr fun own _ => TagChanges.noted_or _ _ own

/-- The host and the records found are determined by the changes. -/
theorem unique {other : Tagging} (h : t.Changed changes t') (h' : t.Changed changes other) :
    other.host = t'.host ∧ ∀ id, other.store.find? id = t'.store.find? id := by
  constructor
  · apply (h.sameFrame.symm.trans h'.sameFrame).eq_of_own
    intro id
    rw [h'.own_eq, h.own_eq]
  · intro id
    rw [h'.find?_eq, h.find?_eq]

/-- Nothing but the order of the records is left open. -/
theorem eq_of_ids {other : Tagging} (h : t.Changed changes t') (h' : t.Changed changes other)
    (hids : other.store.ids = t'.store.ids) : other = t' := by
  obtain ⟨hhost, hfind⟩ := h.unique h'
  have hstore : other.store = t'.store :=
    congrArg TagStore.mk (OrderedMap.ext_find? hids hfind)
  rw [Tagging.mk.injEq]
  exact ⟨hhost, hstore⟩

end Changed

section Records

variable {t t' : Tagging}

theorem changed_commit {r : TagRecord} (h : t.commit r = .ok t') :
    t.Changed (given [r.elementId] fun _ => some r) t' := by
  obtain ⟨hdocument, -, hstore⟩ := exists_write_of_commit h
  constructor
  case sameFrame => exact sameFrame_commit h
  case find?_eq =>
    intro id
    rw [hstore, TagStore.find?_insert]
    by_cases hid : r.elementId = id
    · simp [given, hid]
    · simp [given, hid, Ne.symm hid]
  case own_eq =>
    intro id
    rw [Document.own_layer?_write hdocument, Option.map_map]
    refine Option.map_congr fun found _ => ?_
    by_cases hid : id = r.elementId <;> simp [given, noted, Layer.own, hid]

/-- Records that are committed for the elements they name are given to these. -/
theorem changed_commits {record? : ElementId → Option TagRecord}
    (hown : ∀ id r, record? id = some r → r.elementId = id) {ids : List ElementId}
    (h : t.Commits (ids.filterMap record?) t') : t.Changed (given ids record?) t' := by
  induction ids generalizing t with
  | nil =>
      cases h
      exact .refl _
  | cons id rest ih =>
      cases hrecord : record? id with
      | none =>
          rw [List.filterMap_cons_none hrecord] at h
          rw [TagChanges.given_cons_of_none hrecord]
          exact ih h
      | some r =>
          rw [List.filterMap_cons_some hrecord] at h
          cases h with
          | cons first later =>
              have hfirst : given [r.elementId] (fun _ => some r) = given [id] record? := by
                funext other
                rw [hown id r hrecord]
                by_cases hid : other = id <;> simp [given, hid, hrecord]
              have hchanged := changed_commit first
              rw [hfirst] at hchanged
              rw [TagChanges.given_cons]
              exact hchanged.trans (ih later)

/-- A request to tag elements gives those that can be written their records. -/
theorem changed_tagElements (h : t.store.Filed) (tag : String) (properties : Properties)
    (ids : List ElementId) :
    t.Changed (given (t.host.writable ids) (t.recordOn? tag properties))
      (t.tagElements tag properties ids).2 := by
  have hcommits := t.commits_tagElements tag properties ids
  rw [outcome_tagElements h] at hcommits
  exact changed_commits (fun _ _ => elementId_of_recordOn? h) hcommits

/-- Tagging from names gives elements the records that are suggested for them. -/
theorem changed_autoTagElements {ids : List ElementId} (hnodup : ids.Nodup) :
    t.Changed (given ids t.suggested?) (t.autoTagElements ids).2 := by
  have hcommits := t.commits_autoTagElements ids
  rw [t.applied_autoTagElements hnodup] at hcommits
  exact changed_commits (fun _ _ => elementId_of_suggested?) hcommits

end Records

section Remove

variable (t : Tagging)

theorem sameFrame_without (id : ElementId) : t.host.SameFrame (t.without id).host := by
  rw [without, Document.untag]
  split
  · rename_i d' hwrite
    exact Host.sameFrame_of_write hwrite
  · exact .refl t.host

theorem own_layer?_without (id other : ElementId) :
    ((t.without id).host.document.layer? other).map Layer.own =
      ((t.host.document.layer? other).map Layer.own).map (noted (lost [id] other)) := by
  rw [without, Document.untag]
  split
  · rename_i d' hwrite
    rw [Document.own_layer?_write hwrite, Option.map_map]
    refine Option.map_congr fun found _ => ?_
    by_cases hid : other = id <;> simp [lost, noted, Layer.own, hid]
  · rename_i e hwrite
    by_cases hid : other = id
    · -- the write failed because the element is missing
      have hmissing : t.host.document.layer? other = none := by
        rw [← Option.not_isSome_iff_eq_none]
        intro hsome
        subst hid
        simp [Document.write, Document.contains, hsome] at hwrite
      simp [hmissing]
    · cases t.host.document.layer? other <;> simp [lost, noted, hid]

theorem changed_without (id : ElementId) : t.Changed (lost [id]) (t.without id) where
  sameFrame := t.sameFrame_without id
  find?_eq other := by
    rw [without, TagStore.find?_erase]
    by_cases hid : id = other
    · simp [lost, hid]
    · simp [lost, hid, Ne.symm hid]
  own_eq := t.own_layer?_without id

theorem changed_foldl_without (ids : List ElementId) :
    t.Changed (lost ids) (ids.foldl without t) := by
  induction ids generalizing t with
  | nil =>
      have hnone : lost [] = fun _ => none := by
        funext id
        simp [lost]
      rw [hnone]
      exact .refl t
  | cons id rest ih =>
      rw [TagChanges.lost_cons]
      exact (t.changed_without id).trans (ih _)

/-- A request to remove tags takes the records of the elements that it tells. -/
theorem changed_remove (hbackend : ∀ id fault, t.host.writeFault id = some fault →
    ∃ reason, fault = .backend reason) (ids : List ElementId) :
    t.Changed (lost (t.removable ids)) (t.remove ids).2 := by
  rw [remove_eq hbackend]
  exact t.changed_foldl_without _

end Remove

end Tagging
end DesignMarkup
