import DesignMarkup.Proofs.Document.Reopen
import DesignMarkup.Proofs.Forest.Walk
import DesignMarkup.Proofs.Session.WriteThrough

/-!
Restarts.  The document that a run of requests leaves behind holds all that the session knew: a
session begun on what is opened from its snapshot has the same records, exports the same tree and
finds the same artifacts.
-/

namespace DesignMarkup

namespace Host

/-- Hosts that list the same elements and read the same texts. -/
structure SameTexts (host other : Host) : Prop where
  elements : other.document.allElements = host.document.allElements
  read_eq : ∀ id key, other.read id key = host.read id key

namespace SameTexts

variable {host other : Host} (h : host.SameTexts other)
include h

theorem stored?_eq (id : ElementId) : TagStore.stored? other id = TagStore.stored? host id := by
  rw [TagStore.stored?, TagStore.stored?, h.read_eq]

/-- The same records are loaded, in the same order. -/
theorem load_eq : TagStore.load other = TagStore.load host := by
  rw [TagStore.load, TagStore.load, h.elements, funext h.stored?_eq]

theorem ast?_eq (id : ElementId) : other.ast? id = host.ast? id := by
  rw [Host.ast?, Host.ast?, stored?, stored?, h.read_eq]

theorem component?_eq (id : ElementId) : other.component? id = host.component? id := by
  rw [Host.component?, Host.component?, stored?, stored?, h.read_eq]

end SameTexts

/-- What is opened from the snapshot of a document that could be read has the texts that were
read. -/
theorem sameTexts_reopened {host : Host} (h : ∀ id, host.readFault id = none) :
    host.SameTexts { document := host.document.reopened } := by
  constructor
  case elements => exact host.document.allElements_reopened
  case read_eq =>
    intro id key
    rw [read, read, h id]
    exact host.document.read_reopened id key

end Host

/-- A request to a host that nothing else happens to. -/
def Turn.quiet (request : Instant × Inbound) : Turn where
  meanwhile := id
  now := request.1
  request := request.2

namespace Session

theorem steps_run_quiet (s : Session) (requests : List (Instant × Inbound)) :
    Tagging.Steps s.toTagging (s.run (requests.map Turn.quiet)).1.toTagging := by
  induction requests generalizing s with
  | nil => exact .refl
  | cons request rest ih =>
      have hturn : Tagging.Steps s.toTagging (s.turn (.quiet request)).1.toTagging :=
        steps_handle s request.1 request.2
      exact hturn.trans (ih _)

/-- A session tells what another one told before. -/
structure Resumes (s s' : Session) : Prop where
  outline_eq : s'.host.document.outline = s.host.document.outline
  element?_eq : ∀ id, s'.host.document.element? id = s.host.document.element? id
  find?_eq : ∀ id, s'.store.find? id = s.store.find? id
  /-- The first answer lists the records in the order of the document. -/
  tagsLoaded_eq :
    s'.tagsLoaded = .tagsLoaded (s'.host.document.allElements.filterMap s.store.find?)
  /-- Both export the same tree, under headings of their own. -/
  export_eq : ∃ tree, ∀ now,
    (∃ metadata, (s.handle now .exportTags).2 = [.exportData ⟨metadata, tree⟩]) ∧
      ∃ metadata, (s'.handle now .exportTags).2 = [.exportData ⟨metadata, tree⟩]
  ast?_eq : ∀ id, s'.host.ast? id = s.host.ast? id
  component?_eq : ∀ id, s'.host.component? id = s.host.component? id
  selected_eq : s'.host.document.selection.filter s'.host.document.contains =
    s.host.document.selection.filter s.host.document.contains

/-- The forest is determined by the outline and by the records under the elements. -/
theorem tree_exported_eq {s s' : Session} (hfind : ∀ id, s'.store.find? id = s.store.find? id)
    (houtline : s'.host.document.outline = s.host.document.outline) (now now' : Instant) :
    (s'.exported now').tree = (s.exported now).tree := by
  rw [exported, exported, houtline, Forest.build_congr hfind]
  rfl

theorem resumes_start_reopened {s : Session} (h : s.toTagging.WrittenThrough)
    (settings : Settings) :
    s.Resumes (start { document := s.host.document.reopened } settings) := by
  have hsame := Host.sameTexts_reopened h.steady.readable
  have hfind : ∀ id, (TagStore.load { document := s.host.document.reopened }).find? id =
      s.store.find? id := by
    intro id
    rw [hsame.load_eq, TagStore.find?_load, h.stored]
  have htree : ∀ now now', ((start { document := s.host.document.reopened } settings).exported
      now').tree = (s.exported now).tree :=
    tree_exported_eq hfind s.host.document.outline_reopened
  constructor
  case outline_eq => exact s.host.document.outline_reopened
  case element?_eq => exact s.host.document.element?_reopened
  case find?_eq => exact hfind
  case tagsLoaded_eq =>
    have hrecords := TagStore.toList_load { document := s.host.document.reopened }
    rw [funext hsame.stored?_eq, funext h.stored] at hrecords
    exact congrArg Outbound.tagsLoaded hrecords
  case export_eq =>
    refine ⟨(s.exported default).tree, fun now => ⟨⟨(s.exported now).metadata, rfl⟩, ?_⟩⟩
    rw [← htree default now]
    exact ⟨_, rfl⟩
  case ast?_eq => exact hsame.ast?_eq
  case component?_eq => exact hsame.component?_eq
  case selected_eq =>
    have hcontains : s.host.document.reopened.contains = s.host.document.contains := by
      funext id
      rw [Bool.eq_iff_iff, Document.contains_iff, Document.contains_iff,
        Document.allElements_reopened]
    show s.host.document.reopened.selection.filter s.host.document.reopened.contains = _
    rw [hcontains, Document.selection_reopened, List.filter_filter]
    apply List.filter_congr
    intro id _
    rw [Bool.and_eq_left_iff_imp, decide_eq_true_iff]
    exact (s.host.document.contains_iff id).mp

/-- After any requests the document can be opened again from its snapshot, and a session begun on
it, under whatever settings, resumes the one that ended. -/
theorem resumes_after_restart (d : Document) (settings settings' : Settings)
    (requests : List (Instant × Inbound)) :
    let s := ((start { document := d } settings).run (requests.map Turn.quiet)).1
    ∃ d', Document.ofSnapshot s.host.document.snapshot = .ok d' ∧
      s.Resumes (start { document := d' } settings') := by
  intro s
  have hrun : s.toTagging.WrittenThrough :=
    (Tagging.writtenThrough_load (Host.steady_of_document d)).steps
      (steps_run_quiet (start { document := d } settings) requests)
  exact ⟨_, s.host.document.ofSnapshot_snapshot, resumes_start_reopened hrun settings'⟩

end Session
end DesignMarkup
