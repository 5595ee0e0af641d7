import DesignMarkup.Proofs.Forest.Induced
import DesignMarkup.Proofs.Tag.Refusal

/-!
Requests about tags on a storage that refuses some writes.  Each element of a request is dealt with
on its own: the elements that can be written end up as if the request had named no others and the
storage refused nothing, and the rest is told and left alone.
-/

namespace DesignMarkup

namespace Tagging

/-- The record that a tag gives an element of the document. -/
def recordOn? (t : Tagging) (tag : String) (properties : Properties) (id : ElementId) :
    Option TagRecord :=
  (t.host.document.element? id).map (t.recordFor tag properties)

section Apply

variable {t : Tagging} {tag : String} {properties : Properties} {id : ElementId}

theorem elementId_recordFor (h : t.store.Filed) (tag : String) (properties : Properties)
    (element : Element) : (t.recordFor tag properties element).elementId = element.id := by
  rw [recordFor]
  split
  · rename_i old hfind
    exact h _ old hfind
  · rfl

theorem elementId_of_recordOn? (h : t.store.Filed) {r : TagRecord}
    (hrecord : t.recordOn? tag properties id = some r) : r.elementId = id := by
  obtain ⟨element, helement, rfl⟩ := Option.map_eq_some_iff.mp hrecord
  rw [elementId_recordFor h]
  exact Document.id_of_element? helement

/-- A record that a tag gave an element is given by another tag what the element's former record
would have been given. -/
theorem retag_recordFor (t : Tagging) (tag later : String) (properties others : Properties)
    (element : Element) :
    (t.recordFor tag properties element).retag later others element =
      t.recordFor later others element := by
  rw [recordFor, recordFor]
  split <;> rfl

/-- The records that a tag gives do not depend on which of them were committed before. -/
theorem recordOn?_commit (h : t.store.Filed) {r : TagRecord} {t' : Tagging}
    (hrecord : t.recordOn? tag properties id = some r) (hcommit : t.commit r = .ok t') :
    t'.recordOn? tag properties = t.recordOn? tag properties := by
  obtain ⟨hwrite, -, hstore⟩ := exists_write_of_commit hcommit
  have hid := elementId_of_recordOn? h hrecord
  obtain ⟨element, helement, rfl⟩ := Option.map_eq_some_iff.mp hrecord
  funext other
  rw [recordOn?, recordOn?, Document.element?_write hwrite]
  refine Option.map_congr fun next hnext => ?_
  have hother := Document.id_of_element? hnext
  rw [recordFor, hstore, TagStore.find?_insert, hid, hother]
  by_cases hsame : id = other
  · subst hsame
    obtain rfl : element = next := by simpa [helement] using hnext
    simp [retag_recordFor]
  · simp [hsame, recordFor, hother]

theorem tagElement_of_refused (h : t.store.Filed) {e : HostError}
    (hrefusal : t.host.refusal? id = some e) : t.tagElement tag properties id = .error e := by
  rw [Host.refusal?] at hrefusal
  split at hrefusal
  · rename_i hcontains
    obtain ⟨element, helement⟩ := Document.exists_element? hcontains
    have hid : (t.recordFor tag properties element).elementId = id :=
      elementId_of_recordOn? h (by rw [recordOn?, helement]; rfl)
    simp [tagElement, helement, commit, hid, Host.write, hrefusal, Except.map]
  · rename_i hcontains
    cases hrefusal
    exact tagElement_of_missing (Bool.eq_false_iff.mpr hcontains) tag properties

theorem exists_tagElement (h : t.store.Filed) (tag : String) (properties : Properties)
    (hrefusal : t.host.refusal? id = none) :
    ∃ r t', t.recordOn? tag properties id = some r ∧ t.commit r = .ok t' ∧
      t.tagElement tag properties id = .ok (r, t') := by
  have hcontains : t.host.document.contains id = true := by
    by_contra hmissing
    simp [Host.refusal?, hmissing] at hrefusal
  obtain ⟨element, helement⟩ := Document.exists_element? hcontains
  have hrecord : t.recordOn? tag properties id = some (t.recordFor tag properties element) := by
    simp [recordOn?, helement]
  rw [← elementId_of_recordOn? h hrecord] at hrefusal
  obtain ⟨t', hcommit⟩ := exists_commit hrefusal
  exact ⟨_, t', hrecord, hcommit, by simp [tagElement, helement, hcommit, Except.map]⟩

end Apply

/-- What a request to tag elements comes to: the elements that can be written are tagged as by a
request for them alone where the storage refuses nothing, and all others are told in their order. -/
structure AppliesApart (t : Tagging) (tag : String) (properties : Properties)
    (ids : List ElementId) (outcome : TagOutcome) (t' : Tagging) : Prop where
  unchanged : t.host.writable ids = [] → t' = t
  as_alone : t.host.writable ids ≠ [] →
    t.allowing.apply tag properties (t.host.writable ids) =
      .ok ({ applied := outcome.applied }, t'.allowing)
  writeFault_eq : t'.host.writeFault = t.host.writeFault
  applied_eq : outcome.applied =
    (t.host.writable ids).filterMap (t.recordOn? (Text.trim tag) properties)
  /-- One record for each element that can be written. -/
  applied_ids : outcome.applied.map TagRecord.elementId = t.host.writable ids
  rejected_eq : outcome.rejected = t.host.refused ids
  /-- Each requested element is told once. -/
  perm : (outcome.applied.map TagRecord.elementId ++ outcome.rejected.map Prod.fst).Perm ids

section Run

variable {t : Tagging} (h : t.store.Filed) (tag : String) (properties : Properties)
include h

theorem tagElements_cons_of_refused {id : ElementId} {e : HostError}
    (hrefusal : t.host.refusal? id = some e) (rest : List ElementId) :
    t.tagElements tag properties (id :: rest) =
      ({ (t.tagElements tag properties rest).1 with
          rejected := (id, e) :: (t.tagElements tag properties rest).1.rejected },
        (t.tagElements tag properties rest).2) := by
  rw [tagElements, tagElement_of_refused h hrefusal]

omit h in
theorem tagElements_cons_of_ok {id : ElementId} {r : TagRecord} {t' : Tagging}
    (hok : t.tagElement tag properties id = .ok (r, t')) (rest : List ElementId) :
    t.tagElements tag properties (id :: rest) =
      ({ (t'.tagElements tag properties rest).1 with
          applied := r :: (t'.tagElements tag properties rest).1.applied },
        (t'.tagElements tag properties rest).2) := by
  rw [tagElements, hok]

theorem allowing_tagElements (ids : List ElementId) :
    t.allowing.tagElements tag properties (t.host.writable ids) =
      ({ applied := (t.tagElements tag properties ids).1.applied },
        (t.tagElements tag properties ids).2.allowing) := by
  induction ids generalizing t with
  | nil => rfl
  | cons id rest ih =>
      cases hrefusal : t.host.refusal? id with
      | some e =>
          rw [tagElements_cons_of_refused h tag properties hrefusal,
            Host.writable_cons_of_refused rest hrefusal]
          exact ih h
      | none =>
          obtain ⟨r, next, hrecord, hcommit, hok⟩ := exists_tagElement h tag properties hrefusal
          have hallowed : t.allowing.tagElement tag properties id = .ok (r, next.allowing) := by
            obtain ⟨element, helement, rfl⟩ := Option.map_eq_some_iff.mp hrecord
            have hcommit' := allowing_commit hcommit
            have helement' : t.allowing.host.document.element? id = some element := helement
            simp only [tagElement, helement']
            exact congrArg (Except.map _) hcommit'
          have hnext := ih (filed_commit h hcommit)
          rw [(sameFrame_commit hcommit).writable_eq] at hnext
          rw [tagElements_cons_of_ok tag properties hok, Host.writable_cons rest hrefusal,
            tagElements_cons_of_ok tag properties hallowed, hnext]

/-- What a request tells is settled before it begins: the records for the elements that can be
written, and the reasons for the others. -/
theorem outcome_tagElements (ids : List ElementId) :
    (t.tagElements tag properties ids).1 =
      { applied := (t.host.writable ids).filterMap (t.recordOn? tag properties)
        rejected := t.host.refused ids } := by
  induction ids generalizing t with
  | nil => rfl
  | cons id rest ih =>
      cases hrefusal : t.host.refusal? id with
      | some e =>
          rw [tagElements_cons_of_refused h tag properties hrefusal, ih h,
            Host.writable_cons_of_refused rest hrefusal, Host.refused_cons_of_refused rest hrefusal]
      | none =>
          obtain ⟨r, next, hrecord, hcommit, hok⟩ := exists_tagElement h tag properties hrefusal
          have hframe := sameFrame_commit hcommit
          have hnext := ih (filed_commit h hcommit)
          rw [hframe.writable_eq, hframe.refused_eq, recordOn?_commit h hrecord hcommit] at hnext
          rw [tagElements_cons_of_ok tag properties hok, hnext, Host.writable_cons rest hrefusal,
            Host.refused_cons rest hrefusal, List.filterMap_cons_some hrecord]

theorem map_elementId_filterMap_recordOn? (ids : List ElementId) :
    ((t.host.writable ids).filterMap (t.recordOn? tag properties)).map TagRecord.elementId =
      t.host.writable ids := by
  rw [List.map_filterMap]
  refine (List.filterMap_congr fun id hid => ?_).trans List.filterMap_some
  have hrefusal : t.host.refusal? id = none := by simpa using (List.mem_filter.mp hid).2
  obtain ⟨r, -, hrecord, -, -⟩ := exists_tagElement h tag properties hrefusal
  rw [hrecord, Option.map_some, elementId_of_recordOn? h hrecord]

end Run

theorem appliesApart {t : Tagging} (h : t.store.Filed) {tag : String}
    (htag : Text.trim tag ≠ "") (properties : Properties) (ids : List ElementId) :
    AppliesApart t tag properties ids (t.tagElements (Text.trim tag) properties ids).1
      (t.tagElements (Text.trim tag) properties ids).2 := by
  have hallowing := allowing_tagElements h (Text.trim tag) properties ids
  have hfault := (t.commits_tagElements (Text.trim tag) properties ids).sameFrame.writeFault_eq
  have houtcome := outcome_tagElements h (Text.trim tag) properties ids
  have hids := map_elementId_filterMap_recordOn? h (Text.trim tag) properties ids
  constructor
  case unchanged =>
    intro hnone
    rw [hnone] at hallowing
    exact eq_of_allowing (congrArg Prod.snd hallowing).symm hfault
  case as_alone =>
    intro hsome
    rw [apply, if_neg htag, if_neg (by simpa using hsome), hallowing]
  case writeFault_eq => exact hfault
  case applied_eq => rw [houtcome]
  case applied_ids => rw [houtcome, hids]
  case rejected_eq => rw [houtcome]
  case perm =>
    rw [houtcome, hids]
    exact t.host.perm_writable_refused ids

end Tagging

namespace Document

/-- A document without a tag on an element. -/
def untag (d : Document) (id : ElementId) : Document :=
  match d.write id TagStore.dataKey "" with
  | .ok d' => d'
  | .error _ => d

theorem sameTree_untag (d : Document) (id : ElementId) : d.SameTree (d.untag id) := by
  rw [untag]
  split
  · rename_i d' hwrite
    exact sameTree_write hwrite
  · exact .refl d

/-- Nothing is read under the key of the tags any more; all else is read as before. -/
theorem read_untag (d : Document) (id other : ElementId) (key : String) :
    (d.untag id).read other key =
      if other = id ∧ key = TagStore.dataKey ∧ other ∈ d.allElements then .ok none
      else d.read other key := by
  rw [untag]
  split
  · rename_i d' hwrite
    have hmem := (layers_of_write hwrite).1
    rw [read_write hwrite]
    by_cases hid : other = id
    · subst hid
      simp [hmem]
    · simp [hid]
  · rename_i e hwrite
    have hmissing : id ∉ d.allElements := by
      intro hmem
      simp [write, (contains_iff d id).mpr hmem] at hwrite
    have hother : ¬ (other = id ∧ key = TagStore.dataKey ∧ other ∈ d.allElements) := by
      rintro ⟨rfl, -, hmem⟩
      exact hmissing hmem
    rw [if_neg hother]

theorem sameTree_foldl_untag (d : Document) (ids : List ElementId) :
    d.SameTree (ids.foldl untag d) := by
  induction ids generalizing d with
  | nil => exact .refl d
  | cons id rest ih => exact (d.sameTree_untag id).trans (ih _)

theorem read_foldl_untag (d : Document) (ids : List ElementId) (other : ElementId) (key : String) :
    (ids.foldl untag d).read other key =
      if other ∈ ids ∧ key = TagStore.dataKey ∧ other ∈ d.allElements then .ok none
      else d.read other key := by
  induction ids generalizing d with
  | nil => simp
  | cons id rest ih =>
      rw [List.foldl_cons, ih, read_untag, (d.sameTree_untag id).allElements_eq]
      by_cases hkey : key = TagStore.dataKey ∧ other ∈ d.allElements
      · by_cases hid : other = id
        · subst hid
          simp [hkey]
        · simp [hkey, hid]
      · simp [hkey]

end Document

namespace Tagging

/-- Tags without the record of an element, in the store and on the element. -/
def without (t : Tagging) (id : ElementId) : Tagging :=
  ⟨{ t.host with document := t.host.document.untag id }, t.store.erase id⟩

/-- The elements whose records a request removes: each one once that has a record and is not
refused. -/
def removable (t : Tagging) (ids : List ElementId) : List ElementId :=
  (ids.filter fun id => t.store.contains id && (t.host.writeFault id).isNone).eraseDups

/-- What a request to remove tags comes to: the records of the told elements are gone and so is what
was stored for them; all else is as it was. -/
structure RemovesApart (t : Tagging) (ids removed : List ElementId) (t' : Tagging) : Prop where
  removed_eq : removed = t.removable ids
  entries_eq : t'.store.records.entries = t.store.records.entries.filter (·.1 ∉ removed)
  host_eq : t'.host = { t.host with document := removed.foldl Document.untag t.host.document }
  read_eq : ∀ id key, t'.host.document.read id key =
    if id ∈ removed ∧ key = TagStore.dataKey ∧ id ∈ t.host.document.allElements then .ok none
    else t.host.document.read id key
  sameTree : t.host.document.SameTree t'.host.document

section Remove

variable {t : Tagging}

theorem foldl_without (ids : List ElementId) (t : Tagging) :
    ids.foldl without t =
      ⟨{ t.host with document := ids.foldl Document.untag t.host.document },
        ids.foldl TagStore.erase t.store⟩ := by
  induction ids generalizing t with
  | nil => rfl
  | cons id rest ih => exact ih (t.without id)

/-- The first of the removable elements is followed by those that are removable without it. -/
theorem removable_cons {id : ElementId} (hcontains : t.store.contains id = true)
    (hfault : t.host.writeFault id = none) (rest : List ElementId) :
    t.removable (id :: rest) = id :: (t.without id).removable rest := by
  have hkept : ∀ other, (t.store.erase id).contains other =
      (t.store.contains other && !other == id) := by
    intro other
    rw [TagStore.contains_eq, TagStore.contains_eq, TagStore.find?_erase]
    by_cases hid : id = other
    · simp [hid]
    · simp [hid, Ne.symm hid]
  rw [removable, List.filter_cons_of_pos (by simp [hcontains, hfault]), List.eraseDups_cons,
    List.filter_filter, removable]
  simp only [without, hkept]
  congr 3
  funext other
  cases other == id <;> simp

theorem removable_cons_of_not {id : ElementId}
    (h : ¬ (t.store.contains id = true ∧ t.host.writeFault id = none)) (rest : List ElementId) :
    t.removable (id :: rest) = t.removable rest := by
  rw [removable, List.filter_cons_of_neg (by simpa using h), removable]

variable (hbackend : ∀ id fault, t.host.writeFault id = some fault →
  ∃ reason, fault = .backend reason)
include hbackend

theorem removeOne?_eq (id : ElementId) :
    t.removeOne? id =
      if t.store.contains id = true ∧ t.host.writeFault id = none then some (t.without id)
      else none := by
  rw [removeOne?]
  by_cases hcontains : t.store.contains id = true
  · cases hfault : t.host.writeFault id with
    | some fault =>
        obtain ⟨reason, rfl⟩ := hbackend id fault hfault
        simp [Host.write, hfault]
    | none =>
        by_cases hmem : t.host.document.contains id = true <;>
          simp [hcontains, Host.write, hfault, Document.write, hmem, Except.map, without,
            Document.untag]
  · simp [hcontains]

theorem remove_eq (ids : List ElementId) :
    t.remove ids = (t.removable ids, (t.removable ids).foldl without t) := by
  induction ids generalizing t with
  | nil => rfl
  | cons id rest ih =>
      rw [remove, removeOne?_eq hbackend]
      by_cases hremoved : t.store.contains id = true ∧ t.host.writeFault id = none
      · have hnext := ih (t := t.without id) hbackend
        simp only [if_pos hremoved, hnext, removable_cons hremoved.1 hremoved.2, List.foldl_cons]
      · simp only [if_neg hremoved, ih hbackend, removable_cons_of_not hremoved]

theorem removesApart (ids : List ElementId) :
    RemovesApart t ids (t.remove ids).1 (t.remove ids).2 := by
  rw [remove_eq hbackend, foldl_without]
  constructor
  case removed_eq => rfl
  case host_eq => rfl
  case entries_eq => exact t.store.entries_foldl_erase _
  case read_eq => exact t.host.document.read_foldl_untag _
  case sameTree => exact t.host.document.sameTree_foldl_untag _

end Remove

/-- Whatever a request about tags asks for and whatever the storage refuses, each element is dealt
with on its own. -/
theorem requests_apart (t : Tagging) (hfiled : t.store.Filed) (tag : String)
    (properties : Properties) (ids : List ElementId) :
    (Text.isBlankText tag = true → t.apply tag properties ids = .error .emptyTag) ∧
      (Text.isBlankText tag = false → ids = [] →
        t.apply tag properties ids = .error .noElements) ∧
      (∀ (s : Session) e, s.toTagging = t → t.apply tag properties ids = .error e →
        s.applyTag tag properties ids = (s, [.error e.message])) ∧
      (Text.isBlankText tag = false → ids ≠ [] →
        ∃ outcome t', t.apply tag properties ids = .ok (outcome, t') ∧
          AppliesApart t tag properties ids outcome t') ∧
      ((∀ id fault, t.host.writeFault id = some fault → ∃ reason, fault = .backend reason) →
        RemovesApart t ids (t.remove ids).1 (t.remove ids).2) := by
  have hblank := Text.isBlankText_iff_trim_eq_empty tag
  refine ⟨?blank, ?none, ?refused, ?some, fun hbackend => removesApart hbackend ids⟩
  case blank =>
    intro htag
    rw [apply, if_pos (hblank.mp htag)]
  case none =>
    rintro htag rfl
    have hne : Text.trim tag ≠ "" := by simp [← hblank, htag]
    rw [apply, if_neg hne]
    rfl
  case refused =>
    rintro s e rfl herror
    rw [Session.applyTag, herror]
  case some =>
    intro htag hids
    have hne : Text.trim tag ≠ "" := by simp [← hblank, htag]
    refine ⟨_, _, ?_, appliesApart hfiled hne properties ids⟩
    rw [apply, if_neg hne, if_neg (by simpa using hids)]

/-- A tagged page with a tagged title that cannot be written, and a record of an element that is
gone. -/
def guardedPage : Tagging where
  host :=
    { document := Forest.titlePage
      writeFault := fun id => if id.text = "title" then some (.backend "disk full") else none }
  store := Forest.titleStore.insert
    (.ofElement "p" .empty ⟨⟨"ghost", Eq.refl false⟩, "Ghost", .text, none, none, none⟩)

/-- The page is tagged twice and then loses its tag; the title keeps the one that it has. -/
theorem requests_apart_guardedPage :
    let page : ElementId := ⟨"page", rfl⟩
    let title : ElementId := ⟨"title", rfl⟩
    let wrapper : ElementId := ⟨"wrapper", rfl⟩
    let ghost : ElementId := ⟨"ghost", rfl⟩
    let ids := [page, title, ghost, page, wrapper]
    guardedPage.store.Filed ∧
      (∃ outcome t', guardedPage.apply " nav " .empty ids = .ok (outcome, t') ∧
        outcome.applied.map TagRecord.elementId = [page, page, wrapper] ∧
        outcome.rejected = [(title, .backend "disk full"), (ghost, .elementNotFound ghost)]) ∧
      (guardedPage.remove ids).1 = [page, ghost] := by
  intro page title wrapper ghost ids
  have hfiled : guardedPage.store.Filed :=
    ((TagStore.filed_empty.insert _).insert _).insert _
  obtain ⟨-, -, -, happlies, hremoves⟩ := requests_apart guardedPage hfiled " nav " .empty ids
  obtain ⟨outcome, t', happly, hapart⟩ := happlies (by decide) (List.cons_ne_nil _ _)
  have hbackend : ∀ id fault, guardedPage.host.writeFault id = some fault →
      ∃ reason, fault = .backend reason := by
    intro id fault hfault
    simp only [guardedPage] at hfault
    split at hfault
    · cases hfault
      exact ⟨_, rfl⟩
    · cases hfault
  refine ⟨hfiled, ⟨outcome, t', happly, ?_, ?_⟩, ?_⟩
  · rw [hapart.applied_ids]
    decide
  · rw [hapart.rejected_eq]
    decide
  · rw [(hremoves hbackend).removed_eq]
    decide

end Tagging
end DesignMarkup
