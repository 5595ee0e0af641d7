import DesignMarkup.Proofs.Tag.Refusal

/-!
Tagging from layer names adds records and changes none.  Which record an element gets is settled
before the run begins: no other element that is tagged in it makes a difference.  After the run no
element is left that would get one, so that a second run adds nothing, whatever the storage refuses.
-/

namespace DesignMarkup

namespace Tagging

/-- The record that an element gets from its name: one that has none yet, can be written and is
named by the convention. -/
def suggested? (t : Tagging) (id : ElementId) : Option TagRecord :=
  if t.store.contains id || (t.host.refusal? id).isSome then none
  else do
    let element ← t.host.document.element? id
    let inference ← LayerName.infer? element.name
    return .ofElement inference.tag inference.properties element

section Suggested

variable {t t' : Tagging} {id : ElementId} {r : TagRecord}

theorem suggested?_eq_some_iff :
    t.suggested? id = some r ↔ t.store.contains id = false ∧ t.host.refusal? id = none ∧
      ∃ element inference, t.host.document.element? id = some element ∧
        LayerName.infer? element.name = some inference ∧
        TagRecord.ofElement inference.tag inference.properties element = r := by
  rw [suggested?]
  cases t.store.contains id <;> cases t.host.refusal? id <;>
    simp [Option.bind_eq_some_iff]

theorem elementId_of_suggested? (h : t.suggested? id = some r) : r.elementId = id := by
  obtain ⟨-, -, element, inference, helement, -, rfl⟩ := suggested?_eq_some_iff.mp h
  exact Document.id_of_element? helement

/-- An element is given the record that is suggested for it. -/
theorem exists_autoTagElement? (h : t.suggested? id = some r) :
    ∃ t', t.commit r = .ok t' ∧ t.autoTagElement? id = some (r, t') := by
  have hid := elementId_of_suggested? h
  obtain ⟨hfresh, hrefusal, element, inference, helement, hinfer, rfl⟩ :=
    suggested?_eq_some_iff.mp h
  rw [← hid] at hrefusal
  obtain ⟨t', hcommit⟩ := exists_commit hrefusal
  exact ⟨t', hcommit, by simp [autoTagElement?, hfresh, helement, hinfer, hcommit, Except.toOption]⟩

theorem suggested?_of_autoTagElement? (h : t.autoTagElement? id = some (r, t')) :
    t.suggested? id = some r := by
  have hid := elementId_of_autoTagElement? h
  have hcommit := autoTagElement?_eq_some h
  rw [autoTagElement?] at h
  split at h
  · cases h
  · rename_i hfresh
    simp only [Option.bind_eq_bind, Option.bind_eq_some_iff, Option.pure_def, Option.some.injEq,
      Prod.mk.injEq] at h
    obtain ⟨element, helement, inference, hinfer, next, -, hr, -⟩ := h
    refine suggested?_eq_some_iff.mpr
      ⟨Bool.eq_false_iff.mpr hfresh, ?_, element, inference, helement, hinfer, hr⟩
    rw [← hid]
    exact refusal?_of_commit hcommit

theorem autoTagElement?_eq_none (h : t.suggested? id = none) : t.autoTagElement? id = none := by
  cases htagged : t.autoTagElement? id with
  | none => rfl
  | some made =>
      have hsome := suggested?_of_autoTagElement? htagged
      rw [h] at hsome
      cases hsome

/-- A committed record takes its element out of those that get one, and no other. -/
theorem suggested?_commit (h : t.commit r = .ok t') (id : ElementId) :
    t'.suggested? id = if id = r.elementId then none else t.suggested? id := by
  have hcontains := contains_store_commit h id
  have helement := Document.element?_write (exists_write_of_commit h).1 id
  by_cases hid : id = r.elementId
  · rw [if_pos hid, suggested?, hcontains.mpr (.inl hid)]
    rfl
  · have hsame : t'.store.contains id = t.store.contains id := by
      rw [Bool.eq_iff_iff, hcontains, or_iff_right hid]
    simp only [suggested?, hsame, helement, (sameFrame_commit h).refusal?_eq, if_neg hid]

/-- Where nothing is refused, a record is suggested for all elements but the settled ones. -/
theorem settled_iff (h : t.host.Faultless) : t.Settled id ↔ t.suggested? id = none := by
  rw [Settled, suggested?]
  by_cases hcontains : t.store.contains id = true
  · simp [hcontains]
  · cases helement : t.host.document.element? id with
    | none => simp
    | some element =>
        have hmem := (Document.contains_iff _ _).mpr (Document.mem_allElements_of_element? helement)
        have hrefusal : t.host.refusal? id = none := by
          rw [Host.refusal?, if_pos hmem, h.writable]
        cases hinfer : LayerName.infer? element.name <;> simp [hcontains, hrefusal, hinfer]

/-- Where nothing is suggested, nothing is suggested after further commits. -/
theorem Commits.suggested?_eq_none {records : List TagRecord} (h : t.Commits records t')
    (hnone : t.suggested? id = none) : t'.suggested? id = none := by
  induction h with
  | nil => exact hnone
  | cons first _ ih =>
      apply ih
      rw [suggested?_commit first, hnone, ite_self]

end Suggested

section Run

variable (t : Tagging) (ids : List ElementId)

theorem autoTagElements_cons_of_some {t t' : Tagging} {id : ElementId} {r : TagRecord}
    (h : t.autoTagElement? id = some (r, t')) (rest : List ElementId) :
    t.autoTagElements (id :: rest) =
      (r :: (t'.autoTagElements rest).1, (t'.autoTagElements rest).2) := by
  rw [autoTagElements, h]

theorem autoTagElements_cons_of_none {t : Tagging} {id : ElementId} (h : t.suggested? id = none)
    (rest : List ElementId) : t.autoTagElements (id :: rest) = t.autoTagElements rest := by
  rw [autoTagElements, autoTagElement?_eq_none h]

/-- A run makes the records that were suggested before it. -/
theorem applied_autoTagElements {ids : List ElementId} (hnodup : ids.Nodup) :
    (t.autoTagElements ids).1 = ids.filterMap t.suggested? := by
  induction ids generalizing t with
  | nil => rfl
  | cons id rest ih =>
      obtain ⟨hfresh, hrest⟩ := List.nodup_cons.mp hnodup
      cases hsuggested : t.suggested? id with
      | none =>
          rw [autoTagElements_cons_of_none hsuggested, List.filterMap_cons_none hsuggested,
            ih t hrest]
      | some r =>
          obtain ⟨next, hcommit, htagged⟩ := exists_autoTagElement? hsuggested
          have hothers : ∀ other ∈ rest, next.suggested? other = t.suggested? other := by
            intro other hother
            rw [suggested?_commit hcommit, elementId_of_suggested? hsuggested, if_neg]
            rintro rfl
            exact hfresh hother
          rw [autoTagElements_cons_of_some htagged, List.filterMap_cons_some hsuggested,
            ih next hrest, List.filterMap_congr hothers]

/-- A run leaves the records that were there in their places and puts its own behind them. -/
theorem entries_autoTagElements :
    (t.autoTagElements ids).2.store.records.entries =
      t.store.records.entries ++ (t.autoTagElements ids).1.map fun r => (r.elementId, r) := by
  induction ids generalizing t with
  | nil => simp [autoTagElements]
  | cons id rest ih =>
      cases hsuggested : t.suggested? id with
      | none => rw [autoTagElements_cons_of_none hsuggested, ih t]
      | some r =>
          obtain ⟨next, hcommit, htagged⟩ := exists_autoTagElement? hsuggested
          have hfresh : ¬ t.store.records.contains r.elementId = true := by
            rw [elementId_of_suggested? hsuggested]
            exact Bool.eq_false_iff.mp (suggested?_eq_some_iff.mp hsuggested).1
          have hentries : next.store.records.entries =
              t.store.records.entries ++ [(r.elementId, r)] := by
            rw [(exists_write_of_commit hcommit).2.2]
            exact OrderedMap.entries_insert_of_not_contains hfresh r
          rw [autoTagElements_cons_of_some htagged, ih next, hentries]
          simp

/-- After a run nothing is suggested for the elements that it came to. -/
theorem suggested?_autoTagElements :
    ∀ id ∈ ids, (t.autoTagElements ids).2.suggested? id = none := by
  induction ids generalizing t with
  | nil => simp
  | cons id rest ih =>
      rw [List.forall_mem_cons]
      cases hsuggested : t.suggested? id with
      | none =>
          rw [autoTagElements_cons_of_none hsuggested]
          exact ⟨(commits_autoTagElements t rest).suggested?_eq_none hsuggested, ih t⟩
      | some r =>
          obtain ⟨next, hcommit, htagged⟩ := exists_autoTagElement? hsuggested
          have hdone : next.suggested? id = none := by
            rw [suggested?_commit hcommit, if_pos (elementId_of_suggested? hsuggested).symm]
          rw [autoTagElements_cons_of_some htagged]
          exact ⟨(commits_autoTagElements next rest).suggested?_eq_none hdone, ih next⟩

/-- Elements for which nothing is suggested are passed over. -/
theorem autoTagElements_of_none {t : Tagging} {ids : List ElementId}
    (h : ∀ id ∈ ids, t.suggested? id = none) : t.autoTagElements ids = ([], t) := by
  induction ids with
  | nil => rfl
  | cons id rest ih =>
      rw [List.forall_mem_cons] at h
      rw [autoTagElements_cons_of_none h.1, ih h.2]

end Run

/-- The elements that get a record. -/
theorem map_elementId_filterMap_suggested? (t : Tagging) (ids : List ElementId) :
    (ids.filterMap t.suggested?).map TagRecord.elementId =
      ids.filter fun id => (t.suggested? id).isSome := by
  induction ids with
  | nil => rfl
  | cons id rest ih =>
      cases hsuggested : t.suggested? id with
      | none => simpa [hsuggested] using ih
      | some r => simpa [hsuggested, elementId_of_suggested? hsuggested] using ih

/-- The elements that a run is asked to look at, repeated ones included. -/
def named (t : Tagging) (ids : List ElementId) (descendants : Bool) : List ElementId :=
  ids.flatMap fun id => id :: if descendants then t.host.document.descendants id else []

/-- What tagging from names comes to: each element named is looked at once, and those that get a
record are put behind the ones that are there. -/
structure OnlyAdds (t : Tagging) (ids : List ElementId) (descendants : Bool)
    (outcome : AutoTagOutcome) (t' : Tagging) : Prop where
  entries_eq : t'.store.records.entries =
    t.store.records.entries ++ outcome.applied.map fun r => (r.elementId, r)
  applied_eq : outcome.applied = outcome.processed.filterMap t.suggested?
  applied_sublist : (outcome.applied.map TagRecord.elementId).Sublist outcome.processed
  mem_processed_iff : ∀ id, id ∈ outcome.processed ↔ id ∈ t.named ids descendants
  processed_nodup : outcome.processed.Nodup
  /-- First occurrences decide the order. -/
  processed_order : outcome.processed.Pairwise fun x y =>
    (t.named ids descendants).idxOf x < (t.named ids descendants).idxOf y
  /-- The elements below another one are listed in a walk of the tree, parents first. -/
  descendants_walk : ∀ id, t.host.document.outline.Walks (t.host.document.outline.children id)
    (t.host.document.descendants id)
  size_eq : t'.store.size = t.store.size + outcome.applied.length
  /-- The count that is told is the number of the records made. -/
  count_told : ∃ members, outcome.toJson = .object members ∧
    OrderedMap.lookup "taggedCount" members =
      some (.number (.integer outcome.applied.length))

theorem onlyAdds (t : Tagging) (ids : List ElementId) (descendants : Bool) :
    OnlyAdds t ids descendants (t.autoTag ids descendants).1 (t.autoTag ids descendants).2 := by
  have horder := pairwise_idxOf_eraseDups (t.named ids descendants)
  have hnodup : (t.candidates ids descendants).Nodup := nodup_eraseDups _
  have happlied := t.applied_autoTagElements hnodup
  have hentries := t.entries_autoTagElements (t.candidates ids descendants)
  constructor
  case entries_eq => exact hentries
  case applied_eq => exact happlied
  case applied_sublist =>
    show ((t.autoTagElements (t.candidates ids descendants)).1.map TagRecord.elementId).Sublist _
    rw [happlied, map_elementId_filterMap_suggested?]
    exact List.filter_sublist
  case mem_processed_iff =>
    intro id
    exact List.mem_eraseDups
  case processed_nodup => exact hnodup
  case processed_order => exact horder
  case descendants_walk => exact t.host.document.tells_outline.walks
  case size_eq =>
    have hlength := congrArg List.length hentries
    rwa [List.length_append, List.length_map] at hlength
  case count_told => exact ⟨_, rfl, rfl⟩

/-- The same elements are looked at as long as the tree stays as it is. -/
theorem candidates_eq {t t' : Tagging} (h : t.host.document.SameTree t'.host.document)
    (ids : List ElementId) (descendants : Bool) :
    t'.candidates ids descendants = t.candidates ids descendants := by
  simp only [candidates, h.descendants_eq]

/-- Tagging from names only adds records, and a second run adds none. -/
theorem autoTag_onlyAdds_once (t : Tagging) (ids : List ElementId) (descendants : Bool) :
    let run := t.autoTag ids descendants
    OnlyAdds t ids descendants run.1 run.2 ∧
      run.2.autoTag ids descendants = (⟨[], run.1.processed⟩, run.2) := by
  intro run
  have hcommits := t.commits_autoTagElements (t.candidates ids descendants)
  have hsame : run.2.candidates ids descendants = t.candidates ids descendants :=
    candidates_eq hcommits.sameTree ids descendants
  have hagain : run.2.autoTagElements (run.2.candidates ids descendants) = ([], run.2) := by
    rw [hsame]
    exact autoTagElements_of_none (t.suggested?_autoTagElements (t.candidates ids descendants))
  refine ⟨t.onlyAdds ids descendants, ?_⟩
  rw [autoTag, hagain, hsame]
  rfl

end Tagging
end DesignMarkup
