import DesignMarkup.Proofs.Forest.Induced
import DesignMarkup.Proofs.Session.Slots

/-!
Artifacts in the course of a session.  The last request that writes a slot decides what is in it,
and artifacts and tags do not meet.
-/

namespace DesignMarkup.Session

/-- The session after requests to a host that nothing else happens to. -/
def after (s : Session) (requests : List (Instant × Inbound)) : Session :=
  (s.run (requests.map Turn.quiet)).1

theorem after_cons (s : Session) (request : Instant × Inbound)
    (rest : List (Instant × Inbound)) :
    s.after (request :: rest) = (s.handle request.1 request.2).1.after rest :=
  rfl

theorem after_append (s : Session) (before rest : List (Instant × Inbound)) :
    s.after (before ++ rest) = (s.after before).after rest := by
  induction before generalizing s with
  | nil => rfl
  | cons request more ih => rw [List.cons_append, after_cons, ih, after_cons]

section After

variable {s : Session} (requests : List (Instant × Inbound))

theorem steps_after : Tagging.Steps s.toTagging (s.after requests).toTagging :=
  s.steps_run_quiet requests

theorem faultless_after (h : s.host.Faultless) : (s.after requests).host.Faultless :=
  Tagging.faultless_steps h (steps_after requests)

theorem sameTree_after : s.host.document.SameTree (s.after requests).host.document :=
  Tagging.sameTree_steps (steps_after requests)

theorem element?_after (id : ElementId) :
    (s.after requests).host.document.element? id = s.host.document.element? id :=
  (sameTree_after requests).element?_eq id

/-- A slot that no request writes keeps what is in it. -/
theorem read_after_of_ne (h : s.host.Faultless) {id : ElementId} {key : String}
    (hkey : key ≠ TagStore.dataKey) (hslots : ∀ r ∈ requests, r.2.slot? ≠ some (id, key)) :
    (s.after requests).host.read id key = s.host.read id key := by
  induction requests generalizing s with
  | nil => rfl
  | cons request rest ih =>
      rw [List.forall_mem_cons] at hslots
      have hhandled : (s.handle request.1 request.2).1.host.Faultless :=
        Tagging.faultless_steps h (s.steps_handle request.1 request.2)
      rw [after_cons, ih hhandled hslots.2, read_handle_of_ne request.1 h hkey hslots.1]

/-- A slot is as the last request that writes it leaves it. -/
theorem read_after_last (h : s.host.Faultless) {before later : List (Instant × Inbound)}
    (now : Instant) (request : Inbound) {id : ElementId} {key : String}
    (hkey : key ≠ TagStore.dataKey) (hlater : ∀ r ∈ later, r.2.slot? ≠ some (id, key)) :
    (s.after (before ++ (now, request) :: later)).host.read id key =
      ((s.after before).handle now request).1.host.read id key := by
  have hhandled := Tagging.faultless_steps (faultless_after before h)
    ((s.after before).steps_handle now request)
  rw [after_append, after_cons, read_after_of_ne later hhandled hkey hlater]

end After

section Handle

variable {s : Session} (h : s.host.Faultless) {id : ElementId} {element : Element}
  (helement : s.host.document.element? id = some element) (now : Instant)
include h helement

/-- Clearing writes the empty text, which stands for none. -/
theorem exists_write_clear (key : String) :
    ∃ host, s.host.write id key "" = .ok host ∧
      (s.clear (fun host id => host.write id key "") id).host = host := by
  have hmem := Document.mem_allElements_of_element? helement
  have hcontains := (s.host.document.contains_iff id).mpr hmem
  obtain ⟨host, hwrite⟩ := h.exists_write hmem key ""
  refine ⟨host, hwrite, ?_⟩
  simp only [clear, hcontains, hwrite, if_true]

theorem ast?_saveAst (ast : String) (output : GeneratedOutput) :
    (s.handle now (.saveAst ast id output)).1.host.ast? id =
      some (.make ast now.millis
        ⟨⟨id, element.displayName⟩, output.html, output.css, output.metaInfo⟩) := by
  obtain ⟨host, hwrite⟩ := h.exists_write (Document.mem_allElements_of_element? helement)
    AstArtifact.dataKey (AstArtifact.make ast now.millis
      ⟨⟨id, element.displayName⟩, output.html, output.css, output.metaInfo⟩).toText
  have hhandled : (s.handle now (.saveAst ast id output)).1.host = host := by
    simp only [handle, saveAst, helement, Host.saveAst, hwrite]
  rw [hhandled]
  exact h.ast?_write hwrite

theorem ast?_clearAst : (s.handle now (.clearAst id)).1.host.ast? id = none := by
  obtain ⟨host, hwrite, hhost⟩ := exists_write_clear h helement AstArtifact.dataKey
  have hcleared := h.ast?_write_empty hwrite
  rw [← hhost] at hcleared
  exact hcleared

/-- The component goes with the syntax tree that its element has by then. -/
theorem component?_saveComponent (code : String) :
    (s.handle now (.saveComponent code id)).1.host.component? id =
      some (.make code now.millis
        ⟨⟨id, element.displayName⟩, (s.host.ast? id).map AstArtifact.ast⟩) := by
  obtain ⟨host, hwrite⟩ := h.exists_write (Document.mem_allElements_of_element? helement)
    ComponentArtifact.dataKey (ComponentArtifact.make code now.millis
      ⟨⟨id, element.displayName⟩, (s.host.ast? id).map AstArtifact.ast⟩).toText
  have hhandled : (s.handle now (.saveComponent code id)).1.host = host := by
    simp only [handle, saveComponent, helement, Host.saveComponent, hwrite]
  rw [hhandled]
  exact h.component?_write hwrite

theorem component?_clearComponent :
    (s.handle now (.clearComponent id)).1.host.component? id = none := by
  obtain ⟨host, hwrite, hhost⟩ := exists_write_clear h helement ComponentArtifact.dataKey
  have hcleared := h.component?_write_empty hwrite
  rw [← hhost] at hcleared
  exact hcleared

end Handle

/-- How the artifacts of an element with a given name come out of requests to a session: each slot
holds what the last request that writes it put there, or else what was there at first. -/
structure LastWriteWins (s : Session) (requests : List (Instant × Inbound)) (id : ElementId)
    (name : String) : Prop where
  ast_kept : (∀ r ∈ requests, r.2.slot? ≠ some (id, AstArtifact.dataKey)) →
    (s.after requests).host.ast? id = s.host.ast? id
  ast_saved : ∀ before now ast output later,
    requests = before ++ (now, .saveAst ast id output) :: later →
    (∀ r ∈ later, r.2.slot? ≠ some (id, AstArtifact.dataKey)) →
    (s.after requests).host.ast? id =
      some ⟨ast, now.millis, artifactVersion,
        ⟨⟨id, name⟩, output.html, output.css, output.metaInfo⟩⟩
  ast_cleared : ∀ before now later, requests = before ++ (now, .clearAst id) :: later →
    (∀ r ∈ later, r.2.slot? ≠ some (id, AstArtifact.dataKey)) →
    (s.after requests).host.ast? id = none
  component_kept : (∀ r ∈ requests, r.2.slot? ≠ some (id, ComponentArtifact.dataKey)) →
    (s.after requests).host.component? id = s.host.component? id
  /-- A component goes with the syntax tree that there was when it was saved. -/
  component_saved : ∀ before now code later,
    requests = before ++ (now, .saveComponent code id) :: later →
    (∀ r ∈ later, r.2.slot? ≠ some (id, ComponentArtifact.dataKey)) →
    (s.after requests).host.component? id =
      some ⟨code, now.millis, artifactVersion,
        ⟨⟨id, name⟩, ((s.after before).host.ast? id).map AstArtifact.ast⟩⟩
  component_cleared : ∀ before now later, requests = before ++ (now, .clearComponent id) :: later →
    (∀ r ∈ later, r.2.slot? ≠ some (id, ComponentArtifact.dataKey)) →
    (s.after requests).host.component? id = none

theorem lastWriteWins {s : Session} (h : s.host.Faultless) (requests : List (Instant × Inbound))
    {id : ElementId} {element : Element}
    (helement : s.host.document.element? id = some element) :
    LastWriteWins s requests id element.displayName := by
  have hbefore : ∀ before, (s.after before).host.Faultless := fun before => faultless_after before h
  have hthere : ∀ before, (s.after before).host.document.element? id = some element :=
    fun before => (element?_after before id).trans helement
  constructor
  case ast_kept =>
    intro hslots
    exact Host.ast?_congr (read_after_of_ne requests h (by decide) hslots)
  case component_kept =>
    intro hslots
    exact Host.component?_congr (read_after_of_ne requests h (by decide) hslots)
  case ast_saved =>
    rintro before now ast output later rfl hlater
    rw [Host.ast?_congr (read_after_last h now _ (by decide) hlater),
      ast?_saveAst (hbefore before) (hthere before)]
    rfl
  case ast_cleared =>
    rintro before now later rfl hlater
    rw [Host.ast?_congr (read_after_last h now _ (by decide) hlater),
      ast?_clearAst (hbefore before) (hthere before)]
  case component_saved =>
    rintro before now code later rfl hlater
    rw [Host.component?_congr (read_after_last h now _ (by decide) hlater),
      component?_saveComponent (hbefore before) (hthere before)]
    rfl
  case component_cleared =>
    rintro before now later rfl hlater
    rw [Host.component?_congr (read_after_last h now _ (by decide) hlater),
      component?_clearComponent (hbefore before) (hthere before)]

/-- Tags and artifacts do not meet. -/
structure KeepsApart (s : Session) (now : Instant) (request : Inbound) : Prop where
  /-- A request about artifacts changes no tag. -/
  store_kept : request.slot? ≠ none → (s.handle now request).1.store = s.store
  tags_kept : request.slot? ≠ none → ∀ id,
    (s.handle now request).1.host.read id TagStore.dataKey = s.host.read id TagStore.dataKey
  /-- Any other request changes no artifact. -/
  asts_kept : request.slot? = none → ∀ id,
    (s.handle now request).1.host.ast? id = s.host.ast? id
  components_kept : request.slot? = none → ∀ id,
    (s.handle now request).1.host.component? id = s.host.component? id

theorem keepsApart {s : Session} (h : s.host.Faultless) (now : Instant) (request : Inbound) :
    KeepsApart s now request := by
  constructor
  case store_kept =>
    intro hslot
    obtain ⟨⟨id, key⟩, hslot⟩ := Option.ne_none_iff_exists'.mp hslot
    exact (host_cases_handle now hslot).1
  case tags_kept =>
    intro hslot id
    obtain ⟨⟨other, key⟩, hslot⟩ := Option.ne_none_iff_exists'.mp hslot
    apply read_handle_of_slot? now h hslot
    rintro ⟨⟩
    exact Inbound.key_ne_of_slot? hslot rfl
  case asts_kept =>
    intro hslot id
    exact Host.ast?_congr (Tagging.read_tagSteps h (tagSteps_handle now hslot) id (by decide))
  case components_kept =>
    intro hslot id
    exact Host.component?_congr (Tagging.read_tagSteps h (tagSteps_handle now hslot) id (by decide))

/-- Missing elements are passed over. -/
structure PassesOver (s : Session) (now : Instant) (request : Inbound) : Prop where
  missing : (∀ id ∈ request.ids, id ∉ s.host.document.allElements) →
    (s.handle now request).1 = s
  /-- Among others they make no difference. -/
  missing_among : (s.handle now (request.within s.host.document)).1 = (s.handle now request).1

/-- Sessions that were begun on a document and have changed by requests alone. -/
def IsBegun (s : Session) : Prop :=
  ∃ d settings prior, s = (start { document := d } settings).after prior

/-- A session has no record of a missing element, unless the document was changed under it. -/
theorem IsBegun.passesOver {s : Session} (h : s.IsBegun) (now : Instant) (request : Inbound) :
    PassesOver s now request := by
  obtain ⟨d, settings, prior, rfl⟩ := h
  have hloaded : (start { document := d } settings).toTagging.WrittenThrough :=
    Tagging.writtenThrough_load (Host.steady_of_document d)
  have hwritten := hloaded.steps (steps_after prior)
  exact ⟨handle_of_missing now hwritten, handle_within now hwritten request⟩

/-- Where the storage refuses nothing, artifacts are what was last made of them by requests, and no
request touches what it is not about. -/
theorem artifacts_of_requests (s : Session) (h : s.host.Faultless) :
    (∀ requests id element, s.host.document.element? id = some element →
      LastWriteWins s requests id element.displayName) ∧
      (∀ now request, KeepsApart s now request) ∧
      (s.IsBegun → ∀ now request, PassesOver s now request) :=
  ⟨fun requests _ _ helement => lastWriteWins h requests helement, keepsApart h,
    IsBegun.passesOver⟩

/-- The page loses its syntax tree and keeps the component that was saved while it had one. -/
theorem artifacts_of_requests_titlePage :
    let page : ElementId := ⟨"page", rfl⟩
    let ghost : ElementId := ⟨"ghost", rfl⟩
    let s := (start { document := Forest.titlePage } {}).after
      [(⟨1, 0⟩, .applyTag "main" .empty [page])]
    let requests : List (Instant × Inbound) :=
      [(⟨2, 0⟩, .saveAst "[1]" page {}), (⟨3, 0⟩, .saveComponent "Page" page),
        (⟨4, 0⟩, .removeTag [page, ghost]), (⟨5, 0⟩, .clearAst page),
        (⟨6, 0⟩, .saveComponent "Title" ⟨"title", rfl⟩)]
    (s.after requests).host.ast? page = none ∧
      (s.after requests).host.component? page =
        some ⟨"Page", (⟨3, 0⟩ : Instant).millis, artifactVersion, ⟨⟨page, "Page"⟩, some "[1]"⟩⟩ ∧
      (s.handle ⟨2, 0⟩ (.clearAst page)).1.store = s.store ∧
      (s.handle ⟨2, 0⟩ (.removeTag [ghost])).1 = s := by
  intro page ghost s requests
  have hpage : s.host.document.element? page = some ⟨page, "Page", .frame, none, none, none⟩ :=
    element?_after _ page
  have hname : Element.displayName ⟨page, "Page", .frame, none, none, none⟩ = "Page" := by decide
  have hfaultless : s.host.Faultless := faultless_after _ (Host.faultless_of_document _)
  obtain ⟨hlast, hapart, hover⟩ := artifacts_of_requests s hfaultless
  have hsaved := (hlast (requests.take 1) page _ hpage).ast_saved [] ⟨2, 0⟩ "[1]" {} [] rfl
    (by decide)
  have hcomponent := (hlast requests page _ hpage).component_saved (requests.take 1) ⟨3, 0⟩ "Page"
    (requests.drop 2) rfl (by decide)
  refine ⟨?_, ?_, (hapart ⟨2, 0⟩ (.clearAst page)).store_kept (by decide), ?_⟩
  · exact (hlast requests page _ hpage).ast_cleared (requests.take 3) ⟨5, 0⟩ (requests.drop 4) rfl
      (by decide)
  · rw [hcomponent, hsaved, hname]
    rfl
  · have hbegun : s.IsBegun := ⟨_, _, _, rfl⟩
    have hmissing : ghost ∉ s.host.document.allElements := by
      rw [(sameTree_after _).allElements_eq]
      decide
    exact (hover hbegun ⟨2, 0⟩ (.removeTag [ghost])).missing (List.forall_mem_singleton.mpr hmissing)

end DesignMarkup.Session
