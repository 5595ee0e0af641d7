import DesignMarkup.Proofs.Artifact
import DesignMarkup.Proofs.Document.SameTree
import DesignMarkup.Proofs.Session.Restart
import DesignMarkup.Proofs.Tag.Auto

/-!
What a request may change.  Each request about artifacts writes one slot, that of its kind on its
element; the requests about tags write under the key of the tags alone; and a request about elements
that are missing changes nothing.
-/

namespace DesignMarkup

/-- The first occurrences of what passes a test are the first occurrences that pass it. -/
theorem eraseDups_filter {α : Type} [BEq α] [LawfulBEq α] (p : α → Bool) (l : List α) :
    (l.filter p).eraseDups = l.eraseDups.filter p := by
  match l with
  | [] => rfl
  | a :: rest =>
      have hlength := List.length_filter_le (fun b => !b == a) rest
      have ih := eraseDups_filter p (rest.filter fun b => !b == a)
      rw [List.eraseDups_cons]
      cases hp : p a with
      | true =>
          rw [List.filter_cons_of_pos hp, List.filter_cons_of_pos hp, List.eraseDups_cons, ← ih,
            List.filter_comm]
      | false =>
          have hne : ∀ b ∈ rest.filter p, (!b == a) = true := by
            intro b hb
            have hpb := (List.mem_filter.mp hb).2
            have hba : b ≠ a := by
              rintro rfl
              rw [hp] at hpb
              cases hpb
            simp [hba]
          rw [List.filter_cons_of_neg (by simp [hp]), List.filter_cons_of_neg (by simp [hp]), ← ih,
            List.filter_comm, List.filter_eq_self.mpr hne]
termination_by l.length
decreasing_by simp only [List.length_cons]; omega

namespace Inbound

/-- The elements that a request is about. -/
def ids : Inbound → List ElementId
  | applyTag _ _ ids | removeTag ids | autoTagSelection ids => ids
  | saveAst _ id _ | clearAst id | saveComponent _ id | clearComponent id => [id]
  | getSelection | exportTags | generateRichJson => []

/-- A request about tags without the elements that are missing from a document. -/
def within (d : Document) : Inbound → Inbound
  | applyTag tag properties ids => applyTag tag properties (ids.filter d.contains)
  | removeTag ids => removeTag (ids.filter d.contains)
  | autoTagSelection ids => autoTagSelection (ids.filter d.contains)
  | request => request

/-- The element and the key that a request about artifacts writes under. -/
def slot? : Inbound → Option (ElementId × String)
  | saveAst _ id _ | clearAst id => some (id, AstArtifact.dataKey)
  | saveComponent _ id | clearComponent id => some (id, ComponentArtifact.dataKey)
  | _ => none

theorem key_ne_of_slot? {request : Inbound} {id : ElementId} {key : String}
    (h : request.slot? = some (id, key)) : key ≠ TagStore.dataKey := by
  cases request <;> cases h <;> decide

end Inbound

namespace Host

/-- The storage refuses nothing. -/
structure Faultless (host : Host) : Prop where
  readable : ∀ id, host.readFault id = none
  writable : ∀ id, host.writeFault id = none

theorem faultless_of_document (d : Document) : Faultless { document := d } :=
  ⟨fun _ => rfl, fun _ => rfl⟩

namespace Faultless

variable {host host' : Host} {id : ElementId} {key value : String} (h : host.Faultless)
include h

theorem steady : host.Steady where
  readable := h.readable
  backend id fault hfault := by
    rw [h.writable id] at hfault
    cases hfault

theorem write (hwrite : host.write id key value = .ok host') : host'.Faultless := by
  obtain ⟨-, d', -, rfl⟩ := write_eq_ok_iff.mp hwrite
  exact ⟨h.readable, h.writable⟩

/-- Every element of the document can be written. -/
theorem exists_write (hid : id ∈ host.document.allElements) (key value : String) :
    ∃ host', host.write id key value = .ok host' := by
  have hcontains := (host.document.contains_iff id).mpr hid
  simp [Host.write, h.writable id, Document.write, hcontains, Except.map]

/-- A write changes what is read under its own key on its own element only. -/
theorem read_write_of_ne (hwrite : host.write id key value = .ok host') {other : ElementId}
    {name : String} (hne : (other, name) ≠ (id, key)) :
    host'.read other name = host.read other name := by
  rw [h.steady.read_write hwrite, if_neg]
  rintro ⟨rfl, rfl⟩
  exact hne rfl

theorem stored?_write (hwrite : host.write id key value = .ok host') :
    host'.stored? id key = if value = "" then none else some value := by
  rw [stored?, h.steady.read_write hwrite, if_pos ⟨rfl, rfl⟩]

theorem ast?_write {a : AstArtifact}
    (hwrite : host.write id AstArtifact.dataKey a.toText = .ok host') : host'.ast? id = some a := by
  have hne : a.toText ≠ "" := Json.ne_empty_of_bind_read? a.ofText?_toText
  rw [ast?, h.stored?_write hwrite, if_neg hne, Option.bind_some,
    a.ofText?_toText]

theorem ast?_write_empty (hwrite : host.write id AstArtifact.dataKey "" = .ok host') :
    host'.ast? id = none := by
  rw [ast?, h.stored?_write hwrite]
  rfl

theorem component?_write {a : ComponentArtifact}
    (hwrite : host.write id ComponentArtifact.dataKey a.toText = .ok host') :
    host'.component? id = some a := by
  have hne : a.toText ≠ "" := Json.ne_empty_of_bind_read? a.ofText?_toText
  rw [component?, h.stored?_write hwrite, if_neg hne, Option.bind_some,
    a.ofText?_toText]

theorem component?_write_empty (hwrite : host.write id ComponentArtifact.dataKey "" = .ok host') :
    host'.component? id = none := by
  rw [component?, h.stored?_write hwrite]
  rfl

end Faultless

/-- The artifacts of an element are told by what is read under their keys. -/
theorem ast?_congr {host host' : Host} {id : ElementId}
    (h : host'.read id AstArtifact.dataKey = host.read id AstArtifact.dataKey) :
    host'.ast? id = host.ast? id := by
  rw [ast?, ast?, stored?, stored?, h]

theorem component?_congr {host host' : Host} {id : ElementId}
    (h : host'.read id ComponentArtifact.dataKey = host.read id ComponentArtifact.dataKey) :
    host'.component? id = host.component? id := by
  rw [component?, component?, stored?, stored?, h]

end Host

namespace Tagging

variable {t t' : Tagging}

/-- A step about tags writes at most one text, under the key of the tags. -/
theorem TagStep.host_cases (h : TagStep t t') :
    t'.host = t.host ∨ ∃ id value, t.host.write id TagStore.dataKey value = .ok t'.host := by
  cases h with
  | commit r hcommit =>
      obtain ⟨host, hwrite, rfl⟩ := commit_eq_ok_iff.mp hcommit
      exact .inr ⟨_, _, hwrite⟩
  | remove id hremove =>
      rw [removeOne?] at hremove
      split at hremove
      · split at hremove
        · rename_i host hwrite
          cases hremove
          exact .inr ⟨_, _, hwrite⟩
        · cases hremove
          exact .inl rfl
        · cases hremove
      · cases hremove

/-- Any step writes at most one text. -/
theorem Step.host_cases (h : Step t t') :
    t'.host = t.host ∨ ∃ id key value, t.host.write id key value = .ok t'.host := by
  have htag : TagStep t t' → t'.host = t.host ∨
      ∃ id key value, t.host.write id key value = .ok t'.host := by
    intro hstep
    rcases hstep.host_cases with hsame | ⟨id, value, hwrite⟩
    · exact .inl hsame
    · exact .inr ⟨id, _, value, hwrite⟩
  cases h with
  | commit r hcommit => exact htag (.commit r hcommit)
  | remove id hremove => exact htag (.remove id hremove)
  | artifact id key value _ hwrite => exact .inr ⟨id, key, value, hwrite⟩

theorem faultless_steps (h : t.host.Faultless) (hsteps : Steps t t') : t'.host.Faultless := by
  induction hsteps with
  | refl => exact h
  | tail _ hstep ih =>
      rcases hstep.host_cases with hsame | ⟨_, _, _, hwrite⟩
      · rw [hsame]
        exact ih
      · exact ih.write hwrite

theorem sameTree_steps (hsteps : Steps t t') :
    t.host.document.SameTree t'.host.document := by
  induction hsteps with
  | refl => exact .refl _
  | tail _ hstep ih =>
      rcases hstep.host_cases with hsame | ⟨_, _, _, hwrite⟩
      · rw [hsame]
        exact ih
      · obtain ⟨-, d', hdocument, heq⟩ := Host.write_eq_ok_iff.mp hwrite
        rw [heq]
        exact ih.trans (Document.sameTree_write hdocument)

/-- Changes of tags leave everything that is stored under other keys alone. -/
theorem read_tagSteps (h : t.host.Faultless) (hsteps : TagSteps t t') (id : ElementId)
    {key : String} (hkey : key ≠ TagStore.dataKey) :
    t'.host.read id key = t.host.read id key := by
  induction hsteps with
  | refl => rfl
  | tail hbefore hstep ih =>
      rcases hstep.host_cases with hsame | ⟨other, value, hwrite⟩
      · rw [hsame, ih]
      · have hfaultless := faultless_steps h (steps_of_tagSteps hbefore)
        have hne : (id, key) ≠ (other, TagStore.dataKey) := by
          rintro ⟨⟩
          exact hkey rfl
        rw [hfaultless.read_write_of_ne hwrite hne, ih]

/-! Missing elements cannot be tagged and have no tags to remove, so that it makes no difference
whether they are asked for. -/

theorem contains_tagSteps (h : TagSteps t t') :
    t'.host.document.contains = t.host.document.contains := by
  funext id
  rw [Bool.eq_iff_iff, Document.contains_iff, Document.contains_iff,
    (sameTree_steps (steps_of_tagSteps h)).allElements_eq]

section Missing

variable {id : ElementId} (hid : t.host.document.contains id = false)
include hid

theorem tagElement_of_missing (tag : String) (properties : Properties) :
    t.tagElement tag properties id = .error (.elementNotFound id) := by
  rw [tagElement, Document.element?_eq_none (Document.not_mem_of_contains hid)]

theorem removeOne?_of_missing (h : t.WrittenThrough) : t.removeOne? id = none := by
  have hnone : t.store.contains id = false := by
    rw [TagStore.contains_eq, ← h.stored,
      TagStore.stored?_of_not_contains (Document.not_mem_of_contains hid)]
    rfl
  simp [removeOne?, hnone]

theorem autoTagElement?_of_missing : t.autoTagElement? id = none := by
  simp [autoTagElement?, Document.element?_eq_none (Document.not_mem_of_contains hid)]

end Missing

theorem tagElements_filter (t : Tagging) (tag : String) (properties : Properties)
    (ids : List ElementId) :
    (t.tagElements tag properties (ids.filter t.host.document.contains)).2 =
      (t.tagElements tag properties ids).2 := by
  induction ids generalizing t with
  | nil => rfl
  | cons id rest ih =>
      cases hid : t.host.document.contains id with
      | true =>
          rw [List.filter_cons_of_pos hid, tagElements, tagElements]
          split
          · rename_i r next heq
            rw [← contains_tagSteps (.single (.commit r (tagElement_eq_ok heq)))]
            exact ih next
          · exact ih t
      | false =>
          rw [List.filter_cons_of_neg (by simp [hid]), tagElements, tagElement_of_missing hid]
          exact ih t

theorem remove_filter (h : t.WrittenThrough) (ids : List ElementId) :
    (t.remove (ids.filter t.host.document.contains)).2 = (t.remove ids).2 := by
  induction ids generalizing t with
  | nil => rfl
  | cons id rest ih =>
      cases hid : t.host.document.contains id with
      | true =>
          rw [List.filter_cons_of_pos hid, remove, remove]
          split
          · rename_i next heq
            rw [← contains_tagSteps (.single (.remove id heq))]
            exact ih (h.removeOne? heq)
          · exact ih h
      | false =>
          rw [List.filter_cons_of_neg (by simp [hid]), remove, removeOne?_of_missing hid h]
          exact ih h

theorem autoTagElements_filter (t : Tagging) (ids : List ElementId) :
    (t.autoTagElements (ids.filter t.host.document.contains)).2 = (t.autoTagElements ids).2 := by
  induction ids generalizing t with
  | nil => rfl
  | cons id rest ih =>
      cases hid : t.host.document.contains id with
      | true =>
          rw [List.filter_cons_of_pos hid, autoTagElements, autoTagElements]
          split
          · rename_i r next heq
            rw [← contains_tagSteps (.single (.commit r (autoTagElement?_eq_some heq)))]
            exact ih next
          · exact ih t
      | false =>
          rw [List.filter_cons_of_neg (by simp [hid]), autoTagElements,
            autoTagElement?_of_missing hid]
          exact ih t

/-- Below a missing element there is nothing, and below another one there is none missing. -/
theorem candidates_filter (t : Tagging) (ids : List ElementId) (descendants : Bool) :
    t.candidates (ids.filter t.host.document.contains) descendants =
      (t.candidates ids descendants).filter t.host.document.contains := by
  rw [candidates, candidates, ← eraseDups_filter]
  congr 1
  induction ids with
  | nil => rfl
  | cons id rest ih =>
      rw [List.flatMap_cons, List.filter_append, ← ih]
      cases hid : t.host.document.contains id with
      | true =>
          have hbelow : ∀ x ∈ t.host.document.descendants id,
              t.host.document.contains x = true := fun x hx =>
            (Document.contains_iff _ _).mpr ((t.host.document.descendants_sublist id).mem hx)
          rw [List.filter_cons_of_pos hid, List.flatMap_cons, List.filter_cons_of_pos hid]
          cases descendants with
          | false => rfl
          | true => rw [if_pos rfl, List.filter_eq_self.mpr hbelow]
      | false =>
          have hbelow : t.host.document.descendants id = [] := by
            rw [Document.descendants,
              Document.layer?_eq_none (Document.not_mem_of_contains hid)]
          simp [hid, hbelow]

theorem autoTag_filter (t : Tagging) (ids : List ElementId) (descendants : Bool) :
    (t.autoTag (ids.filter t.host.document.contains) descendants).2 =
      (t.autoTag ids descendants).2 := by
  rw [autoTag, autoTag, candidates_filter]
  exact t.autoTagElements_filter _

end Tagging

namespace Session

variable {s : Session} (now : Instant) {request : Inbound}

open Tagging (TagSteps Steps)

/-- What is no request about artifacts changes tags only. -/
theorem tagSteps_handle (h : request.slot? = none) :
    TagSteps s.toTagging (s.handle now request).1.toTagging := by
  cases request with
  | getSelection | exportTags | generateRichJson => exact .refl
  | applyTag tag properties ids => exact s.tagSteps_applyTag tag properties ids
  | removeTag ids => exact s.toTagging.tagSteps_remove ids
  | autoTagSelection ids => exact s.tagSteps_autoTag ids
  | saveAst | clearAst | saveComponent | clearComponent => cases h

theorem applyTag_fst (s : Session) (tag : String) (properties : Properties)
    (ids : List ElementId) :
    (s.applyTag tag properties ids).1 =
      if Text.trim tag = "" then s
      else { s with toTagging := (s.toTagging.tagElements (Text.trim tag) properties ids).2 } := by
  rw [applyTag, Tagging.apply]
  by_cases htag : Text.trim tag = ""
  · simp only [htag, if_true]
  · cases ids with
    | nil =>
        simp only [htag, if_false, List.isEmpty_nil, if_true]
        rfl
    | cons id rest => simp only [htag, if_false, List.isEmpty_cons, Bool.false_eq_true]

theorem autoTag_fst (s : Session) (ids : List ElementId) :
    (s.autoTag ids).1 =
      { s with toTagging :=
          (s.toTagging.autoTag ids s.settings.autoTag.includeDescendants).2 } := by
  cases ids <;> rfl

/-- It makes no difference to tags whether elements are asked for that are missing. -/
theorem handle_within (h : s.toTagging.WrittenThrough) (request : Inbound) :
    (s.handle now (request.within s.host.document)).1 = (s.handle now request).1 := by
  cases request with
  | applyTag tag properties ids =>
      rw [Inbound.within, handle, handle, applyTag_fst, applyTag_fst, Tagging.tagElements_filter]
  | removeTag ids =>
      show { s with toTagging := (s.toTagging.remove (ids.filter s.host.document.contains)).2 } =
        { s with toTagging := (s.toTagging.remove ids).2 }
      rw [Tagging.remove_filter h]
  | autoTagSelection ids =>
      rw [Inbound.within, handle, handle, autoTag_fst, autoTag_fst, Tagging.autoTag_filter]
  | getSelection | exportTags | generateRichJson | saveAst | clearAst | saveComponent
    | clearComponent => rfl

/-- A request about missing elements changes nothing. -/
theorem handle_of_missing (h : s.toTagging.WrittenThrough)
    (hmissing : ∀ id ∈ request.ids, id ∉ s.host.document.allElements) :
    (s.handle now request).1 = s := by
  have hnone : ∀ ids : List ElementId, (∀ id ∈ ids, id ∉ s.host.document.allElements) →
      ids.filter s.host.document.contains = [] := fun ids hids =>
    List.filter_eq_nil_iff.mpr fun id hid hcontains =>
      hids id hid ((s.host.document.contains_iff id).mp hcontains)
  cases request with
  | getSelection | exportTags | generateRichJson => rfl
  | applyTag tag properties ids =>
      rw [← handle_within now h, Inbound.within, hnone ids hmissing, handle, applyTag_fst]
      split <;> rfl
  | removeTag ids =>
      rw [← handle_within now h, Inbound.within, hnone ids hmissing]
      rfl
  | autoTagSelection ids =>
      rw [← handle_within now h, Inbound.within, hnone ids hmissing]
      rfl
  | saveAst ast id output =>
      have hgone := Document.element?_eq_none (hmissing id List.mem_cons_self)
      rw [handle, saveAst, hgone]
  | saveComponent code id =>
      have hgone := Document.element?_eq_none (hmissing id List.mem_cons_self)
      rw [handle, saveComponent, hgone]
  | clearAst id | clearComponent id =>
      have hgone : ¬ s.host.document.contains id = true := fun hcontains =>
        hmissing id List.mem_cons_self ((s.host.document.contains_iff id).mp hcontains)
      rw [handle, clear, if_neg hgone]

theorem host_cases_clear (s : Session) (key : String) (id : ElementId) :
    let s' := s.clear (fun host id => host.write id key "") id
    s'.store = s.store ∧
      (s'.host = s.host ∨ ∃ value, s.host.write id key value = .ok s'.host) := by
  rw [clear]
  split
  · split
    · rename_i host hwrite
      exact ⟨rfl, .inr ⟨_, hwrite⟩⟩
    · exact ⟨rfl, .inl rfl⟩
  · exact ⟨rfl, .inl rfl⟩

/-- A request about artifacts leaves the store alone and writes at most its own slot. -/
theorem host_cases_handle {id : ElementId} {key : String} (h : request.slot? = some (id, key)) :
    let s' := (s.handle now request).1
    s'.store = s.store ∧
      (s'.host = s.host ∨ ∃ value, s.host.write id key value = .ok s'.host) := by
  cases request with
  | saveAst ast other output =>
      cases h
      rw [handle, saveAst]
      split
      · exact ⟨rfl, .inl rfl⟩
      · dsimp only
        split
        · exact ⟨rfl, .inl rfl⟩
        · rename_i host hwrite
          exact ⟨rfl, .inr ⟨_, hwrite⟩⟩
  | saveComponent code other =>
      cases h
      rw [handle, saveComponent]
      split
      · exact ⟨rfl, .inl rfl⟩
      · dsimp only
        split
        · exact ⟨rfl, .inl rfl⟩
        · rename_i host hwrite
          exact ⟨rfl, .inr ⟨_, hwrite⟩⟩
  | clearAst other =>
      cases h
      exact s.host_cases_clear AstArtifact.dataKey id
  | clearComponent other =>
      cases h
      exact s.host_cases_clear ComponentArtifact.dataKey id
  | getSelection | exportTags | generateRichJson | applyTag | removeTag | autoTagSelection =>
      cases h

/-- A request about artifacts leaves everything but its slot as it was. -/
theorem read_handle_of_slot? (h : s.host.Faultless) {slot : ElementId × String}
    (hslot : request.slot? = some slot) {id : ElementId} {key : String} (hne : (id, key) ≠ slot) :
    (s.handle now request).1.host.read id key = s.host.read id key := by
  rcases (host_cases_handle now hslot).2 with hsame | ⟨value, hwrite⟩
  · rw [hsame]
  · exact h.read_write_of_ne hwrite hne

/-- A slot is changed by none but the requests that write it. -/
theorem read_handle_of_ne (h : s.host.Faultless) {id : ElementId} {key : String}
    (hkey : key ≠ TagStore.dataKey) (hne : request.slot? ≠ some (id, key)) :
    (s.handle now request).1.host.read id key = s.host.read id key := by
  cases hslot : request.slot? with
  | none => exact Tagging.read_tagSteps h (tagSteps_handle now hslot) id hkey
  | some slot =>
      apply read_handle_of_slot? now h hslot
      rintro rfl
      exact hne hslot

end Session
end DesignMarkup
