import DesignMarkup.Artifact
import DesignMarkup.Forest.Export
import DesignMarkup.Instant
import DesignMarkup.Message.Inbound
import DesignMarkup.Message.Outbound
import DesignMarkup.Settings.Basic
import DesignMarkup.Tag.Auto

/-!
Sessions: a host, its tags and the settings, driven by the requests of a client.  A session never
fails; what goes wrong is an answer.
-/

namespace DesignMarkup

/-- The heading of an export of a document at an instant. -/
def ForestMetadata.stamped (settings : ExportSettings) (d : Document) (now : Instant) :
    ForestMetadata where
  pluginName := settings.pluginName
  version := settings.version
  exportDate := now.text
  fileName := d.fileName
  pageName := d.pageName

/-- The tags of a host under given settings. -/
structure Session extends Tagging where
  settings : Settings

namespace Session

/-- Begin with the tags that are stored in the host. -/
def start (host : Host) (settings : Settings) : Session :=
  { Tagging.load host with settings }

/-- The answer that tells all records. -/
def tagsLoaded (s : Session) : Outbound :=
  .tagsLoaded s.store.toList

/-- Read the stored tags again. -/
def reload (s : Session) : Session :=
  { s with store := TagStore.load s.host }

/-- The forest of the tags at an instant. -/
def exported (s : Session) (now : Instant) : Forest :=
  Forest.build s.store s.host.document.outline
    (.stamped s.settings.exports s.host.document now)

/-- The selected elements that occur in the document. -/
def selectionUpdate (s : Session) : Outbound :=
  .selectionUpdate ((s.host.document.selection.filterMap s.host.document.element?).map
    fun element => ⟨element.id, element.displayName, element.kind⟩)

/-- The answers to a change of the selection: the selected elements and the artifacts of the first
one. -/
def selectionChanged (s : Session) : List Outbound :=
  let first := s.host.document.selection.head?
  [s.selectionUpdate,
    .astLoaded ((first.bind s.host.ast?).map fun a => ⟨a.ast, a.timestamp⟩),
    .componentLoaded ((first.bind s.host.component?).map fun a => ⟨a.code, a.timestamp⟩)]

/-- The text for an element that is not in the document. -/
def shapeNotFound (id : ElementId) : String :=
  "Shape not found: " ++ id.text

/-- The text that a client gets for an error of the host. -/
def hostErrorText : HostError → String
  | .elementNotFound id => shapeNotFound id
  | e => e.message

/-- The text for a request to remove tags when there was none to remove. -/
def noTagText : String :=
  "No tag on the selected elements"

/-- The text for a request without elements. -/
def noSelectionText : String :=
  "Please select at least one group or layer."

/-- Tag elements: the records made are answered first, then the refusals. -/
def applyTag (s : Session) (tag : String) (properties : Properties) (ids : List ElementId) :
    Session × List Outbound :=
  match s.toTagging.apply tag properties ids with
  | .error e => (s, [.error e.message])
  | .ok (outcome, t) =>
      ({ s with toTagging := t },
        outcome.applied.map .tagApplied
          ++ outcome.rejected.map fun refusal => .error (hostErrorText refusal.2))

/-- Remove the tags of elements. -/
def removeTag (s : Session) (ids : List ElementId) : Session × List Outbound :=
  let (removed, t) := s.toTagging.remove ids
  ({ s with toTagging := t },
    if removed.isEmpty then [.error noTagText] else removed.map .tagRemoved)

/-- Tag elements from their names. -/
def autoTag (s : Session) (ids : List ElementId) : Session × List Outbound :=
  if ids.isEmpty then (s, [.error noSelectionText])
  else
    let (outcome, t) := s.toTagging.autoTag ids s.settings.autoTag.includeDescendants
    ({ s with toTagging := t },
      outcome.applied.map .tagApplied
        ++ [.autoTagComplete (UInt64.ofNat outcome.applied.length) outcome.processed])

/-- The value that a text denotes, or the text itself. -/
def valueOrText (text : String) : Json :=
  (Json.readValue? text).getD (.string text)

/-- Store a syntax tree on an element. -/
def saveAst (s : Session) (now : Instant) (ast : String) (id : ElementId)
    (output : GeneratedOutput) : Session × List Outbound :=
  match s.host.document.element? id with
  | none => (s, [.astError (shapeNotFound id)])
  | some element =>
      let artifact := AstArtifact.make ast now.millis
        ⟨⟨id, element.displayName⟩, output.html, output.css, output.metaInfo⟩
      match s.host.saveAst id artifact with
      | .error e => (s, [.astError (hostErrorText e)])
      | .ok host => ({ s with host }, [.astGenerated (valueOrText ast) true])

/-- Store the code of a component on an element.  Only a failure is answered. -/
def saveComponent (s : Session) (now : Instant) (code : String) (id : ElementId) :
    Session × List Outbound :=
  match s.host.document.element? id with
  | none => (s, [.componentError (shapeNotFound id)])
  | some element =>
      let artifact := ComponentArtifact.make code now.millis
        ⟨⟨id, element.displayName⟩, (s.host.ast? id).map AstArtifact.ast⟩
      match s.host.saveComponent id artifact with
      | .error e => (s, [.componentError (hostErrorText e)])
      | .ok host => ({ s with host }, [])

/-- Clear an artifact of an element, without an answer even when that fails. -/
def clear (s : Session) (clearing : Host → ElementId → Except HostError Host) (id : ElementId) :
    Session :=
  if s.host.document.contains id then
    match clearing s.host id with
    | .ok host => { s with host }
    | .error _ => s
  else s

/-- Handle a request at an instant. -/
def handle (s : Session) (now : Instant) : Inbound → Session × List Outbound
  | .getSelection => (s, [s.selectionUpdate])
  | .applyTag tag properties ids => s.applyTag tag properties ids
  | .removeTag ids => s.removeTag ids
  | .exportTags => (s, [.exportData (s.exported now)])
  | .autoTagSelection ids => s.autoTag ids
  | .generateRichJson => (s, [.richJsonData (if s.store.isEmpty then {} else s.exported now)])
  | .saveAst ast id output => s.saveAst now ast id output
  | .clearAst id => (s.clear Host.clearAst id, [])
  | .saveComponent code id => s.saveComponent now code id
  | .clearComponent id => (s.clear Host.clearComponent id, [])

/-- Handle the text of a request; a text that is none is ignored. -/
def handleText (s : Session) (now : Instant) (text : String) : Session × List Outbound :=
  match Inbound.ofText? text with
  | some request => s.handle now request
  | none => (s, [])

end Session
end DesignMarkup
