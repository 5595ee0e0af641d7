import DesignMarkup.Proofs.Artifact
import DesignMarkup.Proofs.Document.Encoding
import DesignMarkup.Proofs.Document.ProperForest
import DesignMarkup.Proofs.Markup.Reading
import DesignMarkup.Proofs.Message.Inbound
import DesignMarkup.Proofs.Message.Outbound

/-!
Everything that is stored or exchanged is read back from its text as it was, the order of its maps
included.  Only documents, forests and the answers that carry them can nest too deep to be read.
-/

namespace DesignMarkup

/-- Each kind of value is read back from the text that is written for it: records and elements,
snapshots and forests, artifacts, and the messages of a session. -/
theorem texts_read_back :
    (∀ r : TagRecord, TagRecord.ofText? r.toText = some r) ∧
    (∀ e : Element, Element.ofText? e.toText = some e) ∧
    (∀ s : Snapshot, s.toJson.nesting ≤ Json.maxNesting → Snapshot.ofText? s.toText = some s) ∧
    (∀ forest : Forest, forest.toJson.nesting ≤ Json.maxNesting →
      Forest.ofText? forest.toText = some forest) ∧
    (∀ a : AstArtifact, AstArtifact.ofText? a.toText = some a) ∧
    (∀ a : ComponentArtifact, ComponentArtifact.ofText? a.toText = some a) ∧
    (∀ m : Inbound, Inbound.ofText? m.toText = some m) ∧
    (∀ m : Outbound, m.kind ≠ Outbound.freeKind → m.toJson.nesting ≤ Json.maxNesting →
      Outbound.ofText? m.toText = some m) :=
  ⟨TagRecord.ofText?_toText, Element.ofText?_toText, fun _ => Snapshot.ofText?_toText,
    fun _ => Forest.ofText?_toText, AstArtifact.ofText?_toText,
    ComponentArtifact.ofText?_toText, Inbound.ofText?_toText, fun _ => Outbound.ofText?_toText⟩

/-- A request whose texts need escapes and whose properties are not in alphabetical order, and the
answers and files of a card. -/
theorem texts_of_card_read_back :
    let request : Inbound :=
      .applyTag "a\"b\\c\n" (.ofList [("role", "\u007f"), ("aria-label", "é")]) [⟨" 1 ", rfl⟩]
    let answer : Outbound := .exportData GeneratedCode.cardForest
    Inbound.ofText? request.toText = some request ∧
    cardPage.toJson.nesting ≤ Json.maxNesting ∧
    Snapshot.ofText? cardPage.toText = some cardPage ∧
    GeneratedCode.cardForest.toJson.nesting ≤ Json.maxNesting ∧
    Forest.ofText? GeneratedCode.cardForest.toText = some GeneratedCode.cardForest ∧
    answer.kind ≠ Outbound.freeKind ∧
    answer.toJson.nesting ≤ Json.maxNesting ∧
    Outbound.ofText? answer.toText = some answer := by
  obtain ⟨-, -, hsnapshot, hforest, -, -, hrequest, hanswer⟩ := texts_read_back
  have hpage : cardPage.toJson.nesting ≤ Json.maxNesting := by decide
  have hcard : GeneratedCode.cardForest.toJson.nesting ≤ Json.maxNesting := by decide
  have hkind : (Outbound.exportData GeneratedCode.cardForest).kind ≠ Outbound.freeKind := by
    decide
  have hdata : (Outbound.exportData GeneratedCode.cardForest).toJson.nesting ≤ Json.maxNesting := by
    decide
  exact ⟨hrequest _, hpage, hsnapshot _ hpage, hcard, hforest _ hcard, hkind, hdata,
    hanswer _ hkind hdata⟩

end DesignMarkup
