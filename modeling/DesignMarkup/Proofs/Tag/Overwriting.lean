import DesignMarkup.Proofs.Session.ChangeLog
import DesignMarkup.Proofs.Tag.Changes

/-!
Tagging again.  A tag given to elements replaces the tag and the properties that they had and merges
nothing, so that of two requests for the same elements only the later one counts; the look of an
element is recorded with its first tag and kept from then on.
-/

namespace DesignMarkup

/-- What a record tells about the look of its element. -/
def TagRecord.look (r : TagRecord) : Option String × Option StyleBag × Option LayoutBag :=
  (r.content, r.styles, r.layout)

namespace Tagging

open TagChanges (given)

theorem apply_eq_ok (t : Tagging) {tag : String} (htag : Text.isBlankText tag = false)
    (properties : Properties) {ids : List ElementId} (hids : ids ≠ []) :
    t.apply tag properties ids = .ok (t.tagElements (Text.trim tag) properties ids) := by
  have hne : Text.trim tag ≠ "" := by
    simp [← Text.isBlankText_iff_trim_eq_empty, htag]
  rw [apply, if_neg hne, if_neg (by simpa using hids)]

/-- The look that is recorded for an element does not depend on the tag. -/
theorem look_recordFor (t : Tagging) (tag other : String) (properties others : Properties)
    (element : Element) :
    (t.recordFor tag properties element).look = (t.recordFor other others element).look := by
  rw [recordFor, recordFor]
  split <;> rfl

/-- A record keeps the look that it tells. -/
theorem look_of_recordOn? {t : Tagging} {tag : String} {properties : Properties} {id : ElementId}
    {old r : TagRecord} (hold : t.store.find? id = some old)
    (hrecord : t.recordOn? tag properties id = some r) : r.look = old.look := by
  obtain ⟨element, helement, rfl⟩ := Option.map_eq_some_iff.mp hrecord
  rw [recordFor, Document.id_of_element? helement, hold]
  rfl

/-- A request changes again all elements that one for the same elements has changed before. -/
theorem given_followedBy_given (t : Tagging) (tag later : String) (properties others : Properties)
    (ids : List ElementId) :
    (given ids (t.recordOn? tag properties)).followedBy (given ids (t.recordOn? later others)) =
      given ids (t.recordOn? later others) := by
  funext id
  by_cases hmem : id ∈ ids <;> cases helement : t.host.document.element? id <;>
    simp [TagChanges.followedBy, given, recordOn?, hmem, helement]

section Again

variable {t : Tagging} (h : t.store.Filed) (tag later : String) (properties others : Properties)
  (ids : List ElementId)
include h

/-- The records that a tag gives do not depend on the tags given before. -/
theorem recordOn?_tagElements :
    (t.tagElements tag properties ids).2.recordOn? later others = t.recordOn? later others := by
  have hchanged := changed_tagElements h tag properties ids
  funext id
  rw [recordOn?, recordOn?, hchanged.sameFrame.sameTree.element?_eq]
  refine Option.map_congr fun element helement => ?_
  have hid := Document.id_of_element? helement
  have hrecord : t.recordOn? tag properties id = some (t.recordFor tag properties element) :=
    congrArg (Option.map _) helement
  rw [recordFor, hchanged.find?_eq, hid]
  by_cases hmem : id ∈ t.host.writable ids
  · simp [given, hmem, hrecord, retag_recordFor]
  · simp [given, hmem, recordFor, hid]

/-- The elements with a record are those that had one, then those that can be written, in the order
of their first occurrences in the request. -/
theorem ids_tagElements :
    (t.tagElements tag properties ids).2.store.ids =
      t.store.ids ++ ((t.host.writable ids).filter (· ∉ t.store.ids)).eraseDups := by
  have hids := map_elementId_filterMap_recordOn? h tag properties ids
  rw [TagStore.ids, (t.commits_tagElements tag properties ids).store_eq,
    TagStore.records_foldl_insert, OrderedMap.keys_insertAll, List.map_map, outcome_tagElements h]
  simp only [Function.comp_def]
  rw [hids, TagStore.ids]

/-- What is told of a request and what it leaves behind does not depend on a request made before for
the same elements. -/
theorem tagElements_tagElements :
    (t.tagElements tag properties ids).2.tagElements later others ids =
      t.tagElements later others ids := by
  have hchanged := changed_tagElements h tag properties ids
  have hwritable := hchanged.sameFrame.writable_eq ids
  have hrefused := hchanged.sameFrame.refused_eq ids
  have hrecords := recordOn?_tagElements h tag later properties others
  have hfiled : (t.tagElements tag properties ids).2.store.Filed := by
    rw [(t.commits_tagElements tag properties ids).store_eq]
    exact h.insertAll _
  apply Prod.ext
  · rw [outcome_tagElements hfiled, outcome_tagElements h, hwritable, hrefused, hrecords]
  · apply (changed_tagElements h later others ids).eq_of_ids
    · have hagain := changed_tagElements hfiled later others ids
      rw [hwritable, hrecords] at hagain
      rw [← given_followedBy_given t tag later properties others (t.host.writable ids)]
      exact hchanged.trans hagain
    · rw [ids_tagElements hfiled, ids_tagElements h, ids_tagElements h, hwritable]
      have hnone : (t.host.writable ids).filter (· ∉ t.store.ids ++
          ((t.host.writable ids).filter (· ∉ t.store.ids)).eraseDups) = [] := by
        refine List.filter_eq_nil_iff.mpr fun id hid => ?_
        by_cases hold : id ∈ t.store.ids <;> simp [hid, hold]
      rw [hnone, List.eraseDups_nil, List.append_nil]

/-- An element with a record keeps the look that was recorded for it. -/
theorem look_tagElements {id : ElementId} {old : TagRecord} (hold : t.store.find? id = some old) :
    ((t.tagElements tag properties ids).2.store.find? id).map TagRecord.look = some old.look := by
  rw [(changed_tagElements h tag properties ids).find?_eq, hold]
  by_cases hmem : id ∈ t.host.writable ids
  · cases hrecord : t.recordOn? tag properties id with
    | none => simp [given, hrecord]
    | some r => simp [given, hmem, hrecord, look_of_recordOn? hold hrecord]
  · simp [given, hmem]

theorem look_tagElements_eq (id : ElementId) :
    ((t.tagElements tag properties ids).2.store.find? id).map TagRecord.look =
      ((t.tagElements later others ids).2.store.find? id).map TagRecord.look := by
  rw [(changed_tagElements h tag properties ids).find?_eq,
    (changed_tagElements h later others ids).find?_eq]
  by_cases hmem : id ∈ t.host.writable ids
  · cases helement : t.host.document.element? id with
    | none => simp [given, recordOn?, helement]
    | some element =>
        simpa [given, hmem, recordOn?, helement] using
          t.look_recordFor tag later properties others element
  · simp [given, hmem]

end Again

/-- Of two requests to tag the same elements only the later one counts: what it tells and what it
leaves behind, the order of the records included, is the same without the earlier one.  In
particular a request made twice comes to the same as made once.  The look that is recorded for an
element is the one of its first record, and does not depend on the tag that this was made for. -/
theorem apply_overwrites {t : Tagging} (hfiled : t.store.Filed) {tag later : String}
    (htag : Text.isBlankText tag = false) (hlater : Text.isBlankText later = false)
    (properties others : Properties) {ids : List ElementId} (hids : ids ≠ []) :
    ∃ first outcome next t',
      t.apply tag properties ids = .ok (first, next) ∧
        t.apply later others ids = .ok (outcome, t') ∧
        next.apply later others ids = .ok (outcome, t') ∧
        t'.apply later others ids = .ok (outcome, t') ∧
        (∀ id old, t.store.find? id = some old →
          (t'.store.find? id).map TagRecord.look = some old.look) ∧
        ∀ id, (next.store.find? id).map TagRecord.look =
          (t'.store.find? id).map TagRecord.look := by
  refine ⟨_, _, _, _, t.apply_eq_ok htag properties hids, t.apply_eq_ok hlater others hids,
    ?again, ?twice, ?kept, ?same⟩
  case again => rw [apply_eq_ok _ hlater others hids, tagElements_tagElements hfiled]
  case twice => rw [apply_eq_ok _ hlater others hids, tagElements_tagElements hfiled]
  case kept => exact fun id old => look_tagElements hfiled _ others ids
  case same => exact look_tagElements_eq hfiled _ _ properties others ids

/-- The page gets another tag, the wrapper its first one within the same request. -/
theorem apply_overwrites_guardedPage :
    let page : ElementId := ⟨"page", rfl⟩
    let wrapper : ElementId := ⟨"wrapper", rfl⟩
    let ids := [wrapper, ⟨"title", rfl⟩, page, ⟨"ghost", rfl⟩, wrapper]
    guardedPage.store.Filed ∧
      ∃ first outcome next t',
        guardedPage.apply " nav " .empty ids = .ok (first, next) ∧
          guardedPage.apply "aside" .empty ids = .ok (outcome, t') ∧
          next.apply "aside" .empty ids = .ok (outcome, t') ∧
          outcome.applied.map TagRecord.elementId = [wrapper, page, wrapper] := by
  intro page wrapper ids
  have hfiled : guardedPage.store.Filed :=
    ((TagStore.filed_empty.insert _).insert _).insert _
  have htag : Text.isBlankText " nav " = false := by decide
  have hlater : Text.isBlankText "aside" = false := by decide
  have hids : ids ≠ [] := List.cons_ne_nil _ _
  obtain ⟨first, outcome, next, t', hfirst, hsecond, hagain, -⟩ :=
    apply_overwrites hfiled htag hlater .empty .empty hids
  refine ⟨hfiled, first, outcome, next, t', hfirst, hsecond, hagain, ?_⟩
  rw [apply_eq_ok _ hlater .empty hids] at hsecond
  have houtcome := congrArg Prod.fst (Except.ok.inj hsecond)
  rw [← show _ = outcome from houtcome, outcome_tagElements hfiled,
    map_elementId_filterMap_recordOn? hfiled]
  decide

end Tagging
end DesignMarkup
