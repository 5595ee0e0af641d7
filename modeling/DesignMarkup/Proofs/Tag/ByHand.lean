import DesignMarkup.Proofs.Tag.Additions

/-!
Tagging from layer names as a series of requests.  Each element that has no record and a name of the
convention could as well be tagged by hand, with the tag and the properties that its name tells, in
a request of its own; a run comes to the same as all these requests in order, those included that
the storage refuses.
-/

namespace DesignMarkup

namespace LayerName

theorem trim_tag_of_mem_taxonomy :
    ∀ entry ∈ taxonomy, Text.trim entry.2 = entry.2 ∧ entry.2 ≠ "" := by
  decide +kernel

/-- The tags of the convention are requested as they stand. -/
theorem trim_tag_of_infer? {name : String} {inference : Inference}
    (h : infer? name = some inference) :
    Text.trim inference.tag = inference.tag ∧ inference.tag ≠ "" := by
  simp only [infer?, Option.bind_eq_bind, Option.bind_eq_some_iff, Option.pure_def,
    Option.some.injEq] at h
  obtain ⟨parsed, -, tag, htag, rfl⟩ := h
  rw [tag?, ← OrderedMap.lookup_eq] at htag
  exact trim_tag_of_mem_taxonomy (parsed.category, tag) (OrderedMap.mem_of_lookup htag)

end LayerName

namespace Tagging

/-- What the name of an element tells for it, if it is in the document and has no record. -/
def inferred? (t : Tagging) (id : ElementId) : Option Inference :=
  if t.store.contains id then none
  else (t.host.document.element? id).bind fun element => LayerName.infer? element.name

/-- Make requests for one element each, one after the other.  A request that is refused as a whole
ends them. -/
def applyEach (t : Tagging) :
    List (ElementId × Inference) → Except TagRequestError (List TagOutcome × Tagging)
  | [] => .ok ([], t)
  | (id, inference) :: rest => do
      let (outcome, t) ← t.apply inference.tag inference.properties [id]
      let (outcomes, t) ← t.applyEach rest
      return (outcome :: outcomes, t)

/-- Go through elements and make a request for each one whose name tells something for it by
then. -/
def applyInTurn (t : Tagging) :
    List ElementId → Except TagRequestError (List TagOutcome × Tagging)
  | [] => .ok ([], t)
  | id :: rest =>
      match t.inferred? id with
      | none => t.applyInTurn rest
      | some inference => do
          let (outcome, t) ← t.apply inference.tag inference.properties [id]
          let (outcomes, t) ← t.applyInTurn rest
          return (outcome :: outcomes, t)

section Inferred

variable {t t' : Tagging} {id : ElementId} {inference : Inference}

theorem inferred?_eq_some_iff :
    t.inferred? id = some inference ↔ t.store.contains id = false ∧
      ∃ element, t.host.document.element? id = some element ∧
        LayerName.infer? element.name = some inference := by
  rw [inferred?]
  cases t.store.contains id <;> simp [Option.bind_eq_some_iff]

theorem inferred?_commit {r : TagRecord} (h : t.commit r = .ok t') {id : ElementId}
    (hid : id ≠ r.elementId) : t'.inferred? id = t.inferred? id := by
  have hsame : t'.store.contains id = t.store.contains id := by
    rw [Bool.eq_iff_iff, contains_store_commit h, or_iff_right hid]
  simp only [inferred?, hsame, Document.element?_write (exists_write_of_commit h).1]

theorem autoTagElement?_of_inferred?_eq_none (h : t.inferred? id = none) :
    t.autoTagElement? id = none := by
  rw [inferred?] at h
  rw [autoTagElement?]
  split at h
  · rename_i hcontains
    rw [if_pos hcontains]
  · rename_i hfresh
    cases helement : t.host.document.element? id with
    | none => simp [hfresh]
    | some element =>
        rw [helement, Option.bind_some] at h
        simp [hfresh, h]

/-- A request for an element alone that has no record yet makes a record of the element or is
refused. -/
theorem apply_singleton {element : Element} (hfresh : t.store.contains id = false)
    (helement : t.host.document.element? id = some element) {tag : String}
    (htag : Text.trim tag = tag ∧ tag ≠ "") (properties : Properties) :
    t.apply tag properties [id] =
      .ok (match t.commit (.ofElement tag properties element) with
        | .ok t' => ({ applied := [.ofElement tag properties element] }, t')
        | .error e => ({ rejected := [(id, e)] }, t)) := by
  have hnone : t.store.find? element.id = none := by
    rw [Document.id_of_element? helement]
    exact Option.not_isSome_iff_eq_none.mp (Bool.eq_false_iff.mp hfresh)
  have hnew : t.recordFor tag properties element = .ofElement tag properties element := by
    rw [recordFor, hnone]
  have hnonempty : ¬ ([id].isEmpty = true) := Bool.false_ne_true
  rw [apply, htag.1, if_neg htag.2, if_neg hnonempty, tagElements, tagElement, helement]
  simp only [hnew]
  cases t.commit (.ofElement tag properties element) <;> rfl

/-- The request that stands for an element is not refused as a whole, makes no difference to what is
told for the others, and leaves to the run the rest. -/
theorem exists_apply_of_inferred? (h : t.inferred? id = some inference) :
    ∃ outcome next, t.apply inference.tag inference.properties [id] = .ok (outcome, next) ∧
      (∀ other, other ≠ id → next.inferred? other = t.inferred? other) ∧
      ∀ rest, t.autoTagElements (id :: rest) =
        (outcome.applied ++ (next.autoTagElements rest).1, (next.autoTagElements rest).2) := by
  obtain ⟨hfresh, element, helement, hinfer⟩ := inferred?_eq_some_iff.mp h
  have happly := apply_singleton hfresh helement (LayerName.trim_tag_of_infer? hinfer)
    inference.properties
  cases hcommit : t.commit (.ofElement inference.tag inference.properties element) with
  | ok next =>
      rw [hcommit] at happly
      refine ⟨_, _, happly, ?_, ?_⟩
      · intro other hother
        apply inferred?_commit hcommit
        rw [← Document.id_of_element? helement] at hother
        exact hother
      · intro rest
        have htagged : t.autoTagElement? id =
            some (.ofElement inference.tag inference.properties element, next) := by
          simp [autoTagElement?, hfresh, helement, hinfer, hcommit, Except.toOption]
        exact autoTagElements_cons_of_some htagged rest
  | error e =>
      rw [hcommit] at happly
      refine ⟨_, _, happly, fun _ _ => rfl, ?_⟩
      intro rest
      have hrefused : t.autoTagElement? id = none := by
        simp [autoTagElement?, hfresh, helement, hinfer, hcommit, Except.toOption]
      rw [autoTagElements, hrefused]
      rfl

end Inferred

section Requests

variable {t next : Tagging} {id : ElementId} {inference : Inference} {outcome : TagOutcome}
  (h : t.apply inference.tag inference.properties [id] = .ok (outcome, next))
include h

theorem applyEach_cons (rest : List (ElementId × Inference)) :
    t.applyEach ((id, inference) :: rest) =
      (next.applyEach rest).map fun made => (outcome :: made.1, made.2) := by
  simp only [applyEach, h, bind, Except.bind]
  cases next.applyEach rest <;> rfl

theorem applyInTurn_cons (hinferred : t.inferred? id = some inference) (rest : List ElementId) :
    t.applyInTurn (id :: rest) =
      (next.applyInTurn rest).map fun made => (outcome :: made.1, made.2) := by
  simp only [applyInTurn, hinferred, h, bind, Except.bind]
  cases next.applyInTurn rest <;> rfl

end Requests

theorem applyInTurn_cons_of_none {t : Tagging} {id : ElementId} (h : t.inferred? id = none)
    (rest : List ElementId) : t.applyInTurn (id :: rest) = t.applyInTurn rest := by
  rw [applyInTurn, h]

/-- A run tags as the requests in turn do. -/
theorem exists_applyInTurn_eq (t : Tagging) (ids : List ElementId) :
    ∃ outcomes, t.applyInTurn ids = .ok (outcomes, (t.autoTagElements ids).2) ∧
      (t.autoTagElements ids).1 = outcomes.flatMap TagOutcome.applied := by
  induction ids generalizing t with
  | nil => exact ⟨[], rfl, rfl⟩
  | cons id rest ih =>
      cases hinferred : t.inferred? id with
      | none =>
          rw [applyInTurn_cons_of_none hinferred, autoTagElements,
            autoTagElement?_of_inferred?_eq_none hinferred]
          exact ih t
      | some inference =>
          obtain ⟨outcome, next, happly, -, hrun⟩ := exists_apply_of_inferred? hinferred
          obtain ⟨outcomes, hturns, happlied⟩ := ih next
          refine ⟨outcome :: outcomes, ?_, ?_⟩
          · rw [applyInTurn_cons happly hinferred, hturns, hrun]
            rfl
          · rw [hrun, happlied, List.flatMap_cons]

/-- The requests for elements that do not repeat are known beforehand: none of them makes another
one needless or due. -/
theorem applyEach_eq_applyInTurn (t : Tagging) {ids : List ElementId} (hnodup : ids.Nodup) :
    t.applyEach (ids.filterMap fun id => (t.inferred? id).map (id, ·)) = t.applyInTurn ids := by
  induction ids generalizing t with
  | nil => rfl
  | cons id rest ih =>
      obtain ⟨hfresh, hrest⟩ := List.nodup_cons.mp hnodup
      cases hinferred : t.inferred? id with
      | none =>
          rw [applyInTurn_cons_of_none hinferred,
            List.filterMap_cons_none (by rw [hinferred, Option.map_none]), ih t hrest]
      | some inference =>
          obtain ⟨outcome, next, happly, hothers, -⟩ := exists_apply_of_inferred? hinferred
          have hlater : (rest.filterMap fun id => (t.inferred? id).map (id, ·)) =
              rest.filterMap fun id => (next.inferred? id).map (id, ·) :=
            List.filterMap_congr fun other hother => by
              rw [hothers other (ne_of_mem_of_not_mem hother hfresh)]
          rw [List.filterMap_cons_some (by rw [hinferred, Option.map_some]), hlater,
            applyEach_cons happly, applyInTurn_cons happly hinferred, ih next hrest]

/-- Tagging from names comes to the same as one request by hand for each of the elements looked at
that is in the document, has no record yet and has a name that tells its tag, whether these are
chosen in turn or beforehand; what is told are the records that the requests made. -/
theorem autoTag_by_hand (t : Tagging) (ids : List ElementId) (descendants : Bool) :
    let run := t.autoTag ids descendants
    let candidates := t.candidates ids descendants
    let requests := candidates.filterMap fun id => (t.inferred? id).map (id, ·)
    ∃ outcomes, t.applyEach requests = .ok (outcomes, run.2) ∧
      t.applyInTurn candidates = .ok (outcomes, run.2) ∧
      run.1.applied = outcomes.flatMap TagOutcome.applied := by
  intro run candidates requests
  have hsame : t.applyEach requests = t.applyInTurn candidates :=
    t.applyEach_eq_applyInTurn (nodup_eraseDups _)
  obtain ⟨outcomes, hturns, happlied⟩ := t.exists_applyInTurn_eq candidates
  exact ⟨outcomes, hsame.trans hturns, hturns, happlied⟩

end Tagging
end DesignMarkup
