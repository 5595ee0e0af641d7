import DesignMarkup.Proofs.Command.Page
import DesignMarkup.Proofs.Command.Run
import DesignMarkup.Proofs.Forest.Nesting
import DesignMarkup.Proofs.Markup.Reading

/-!
Generating code from exported files.  A forest that was exported to a file is one that code can be
generated from, whatever document it comes from, and the generated page and style sheet are those
of the forest itself.
-/

namespace DesignMarkup

namespace Command

/-- The path of the page of generated code. -/
def pagePath (path : String) (outDir : Option String) : String :=
  Path.join (outDir.getD (Path.parent path)) (Path.stem path ++ ".html")

/-- The path of the style sheet of generated code. -/
def sheetPath (path : String) (outDir : Option String) : String :=
  Path.join (outDir.getD (Path.parent path)) (Path.stem path ++ ".css")

theorem codeFiles_eq (path : String) (outDir : Option String) (code : GeneratedCode) :
    codeFiles path outDir code =
      (pagePath path outDir, (Page.ofCode (Path.stem path) code).text) ::
        if code.css = "" then [] else [(sheetPath path outDir, code.css ++ "\n")] := by
  rw [Page.text_ofCode]
  rfl

/-- The page and the style sheet do not come to lie at the same place. -/
theorem resolve_pagePath_ne {w : Workspace} {path : String} {outDir : Option String}
    (h : w.Takes (pagePath path outDir)) :
    w.resolve (pagePath path outDir) ≠ w.resolve (sheetPath path outDir) := by
  intro heq
  obtain ⟨place, hplace, -⟩ := h
  have hpage := Workspace.getLast?_resolve_join
    (Workspace.isProperName_stem_append path (by decide) (by decide)) hplace
  have hsheet := Workspace.getLast?_resolve_join
    (Workspace.isProperName_stem_append path (by decide) (by decide)) (heq ▸ hplace)
  rw [hpage, Option.some.injEq] at hsheet
  have hending := congrArg String.toList hsheet
  rw [String.toList_append, String.toList_append, List.append_cancel_left_eq] at hending
  exact absurd hending (by decide)

/-- What generating code from a file comes to: the file is accepted, the command succeeds where the
workspace takes the files of the code, and then the page shows the markup of the code, the style
sheet is there and linked when it is not empty, and nothing else has changed. -/
structure Generates (w : Workspace) (path : String) (code : GeneratedCode) : Prop where
  accepted : ∃ contents, w.read path = .text contents ∧ GeneratedCode.ofInput contents = .ok code
  exitCode_eq_zero_iff : ∀ outDir, (w.run (runGenerate path outDir)).1.exitCode = 0 ↔
    w.Takes (pagePath path outDir) ∧ (code.css ≠ "" → w.Takes (sheetPath path outDir))
  page_eq : ∀ outDir, (w.run (runGenerate path outDir)).1.exitCode = 0 →
    (w.run (runGenerate path outDir)).2.read (pagePath path outDir) =
      .text (Page.ofCode (Path.stem path) code).text
  sheet_eq : ∀ outDir, (w.run (runGenerate path outDir)).1.exitCode = 0 → code.css ≠ "" →
    (w.run (runGenerate path outDir)).2.read (sheetPath path outDir) = .text (code.css ++ "\n")
  others_eq : ∀ outDir other, w.resolve other ≠ w.resolve (pagePath path outDir) →
    (code.css ≠ "" → w.resolve other ≠ w.resolve (sheetPath path outDir)) →
    (w.run (runGenerate path outDir)).2.read other = w.read other

theorem forall_codeFiles {path : String} {outDir : Option String} {code : GeneratedCode}
    {P : String → Prop} :
    (∀ file ∈ codeFiles path outDir code, P file.1) ↔
      P (pagePath path outDir) ∧ (code.css ≠ "" → P (sheetPath path outDir)) := by
  rw [codeFiles_eq, List.forall_mem_cons]
  by_cases hcss : code.css = "" <;> simp [hcss]

/-- Code is generated from every file that holds an input for it. -/
theorem generates_of_ofInput {w : Workspace} {path contents : String} {code : GeneratedCode}
    (hread : w.read path = .text contents) (hcode : GeneratedCode.ofInput contents = .ok code) :
    Generates w path code := by
  have hrun : ∀ outDir, w.run (runGenerate path outDir) =
      ((w.writeAll (codeFiles path outDir code)).1.elim (built path outDir code)
          fun path => CommandResult.failed {} (.unwritable path),
        (w.writeAll (codeFiles path outDir code)).2) := by
    intro outDir
    rw [run_runGenerate, Workspace.source_eq_ok_iff.mpr hread, Except.bind, hcode, Except.mapError]
    exact run_finish _ _ _ w
  have hexit : ∀ outDir, (w.run (runGenerate path outDir)).1.exitCode = 0 ↔
      (w.writeAll (codeFiles path outDir code)).1 = none := by
    intro outDir
    rw [hrun]
    cases (w.writeAll (codeFiles path outDir code)).1 with
    | none => simp [built]
    | some refused => simp [CommandResult.failed]
  have htakes : ∀ outDir, (w.run (runGenerate path outDir)).1.exitCode = 0 ↔
      w.Takes (pagePath path outDir) ∧ (code.css ≠ "" → w.Takes (sheetPath path outDir)) := by
    intro outDir
    rw [hexit, Workspace.writeAll_eq_none_iff, forall_codeFiles]
  have hfiles : ∀ outDir, (w.run (runGenerate path outDir)).1.exitCode = 0 →
      ∀ file ∈ codeFiles path outDir code,
        (w.run (runGenerate path outDir)).2.read file.1 = .text file.2 := by
    intro outDir hzero
    have hne := resolve_pagePath_ne ((htakes outDir).mp hzero).1
    rw [hrun]
    apply Workspace.read_writeAll ((hexit outDir).mp hzero)
    rw [codeFiles_eq]
    by_cases hcss : code.css = ""
    · simp [hcss]
    · simpa [hcss] using hne
  constructor
  case accepted => exact ⟨contents, hread, hcode⟩
  case exitCode_eq_zero_iff => exact htakes
  case page_eq =>
    intro outDir hzero
    have hpage := hfiles outDir hzero
    rw [codeFiles_eq, List.forall_mem_cons] at hpage
    exact hpage.1
  case sheet_eq =>
    intro outDir hzero hcss
    have hsheet := hfiles outDir hzero
    rw [codeFiles_eq, List.forall_mem_cons, if_neg hcss, List.forall_mem_singleton] at hsheet
    exact hsheet.2
  case others_eq =>
    intro outDir other hpage hsheet
    rw [hrun]
    exact Workspace.read_writeAll_of_ne
      ((forall_codeFiles (P := fun path => w.resolve other ≠ w.resolve path)).mpr ⟨hpage, hsheet⟩)

/-- The text of the forest of an accepted document is an input that gives the code of the forest,
since the forest nests no deeper than the document. -/
theorem ofInput_fileText_forest {contents path : String} {d : Document}
    (h : documentOfText path contents = .ok d) (metadata : ForestMetadata) :
    let forest := Forest.build (TagStore.load { document := d }) d.outline metadata
    GeneratedCode.ofInput (fileText forest.toJson) =
      .ok (.ofNodes (MarkupNode.ofForest forest)) := by
  intro forest
  obtain ⟨s, htext, hopen⟩ := documentOfText_eq_ok_iff.mp h
  have hnesting : forest.toJson.nesting ≤ Json.maxNesting :=
    Nat.le_trans (Forest.nesting_build_load_le { document := d } metadata)
      (Document.nesting_toJson_le htext hopen)
  have hread : Json.read? (fileText forest.toJson) = some forest.toJson :=
    Json.read?_lines forest.faithful_toJson.exact hnesting
  rw [GeneratedCode.ofInput, MarkupNode.nodesOfText_of_read? hread]
  rfl

/-- Every forest that is exported to a file is one that code can be generated from, and the code is
that of the forest of the document and the tags stored in it, however deep the document nests. -/
theorem generates_exported {settings : Settings} {now : Instant} {source out : String}
    {w : Workspace}
    (hexit : (w.run (runExport settings now source (some out))).1.exitCode = 0) :
    ∃ contents d, w.read source = .text contents ∧ documentOfText source contents = .ok d ∧
      Generates (w.run (runExport settings now source (some out))).2 out
        (.ofNodes (MarkupNode.ofForest (Forest.build (TagStore.load { document := d }) d.outline
          (.stamped settings.exports d now)))) := by
  obtain ⟨d, hdocument, htakes⟩ := exitCode_runExport_eq_zero_iff.mp hexit
  obtain ⟨contents, hread, hopen⟩ := Workspace.document_eq_ok_iff.mp hdocument
  obtain ⟨w', hwrite⟩ :=
    (Workspace.takes_iff (fileText (forestOf settings now d).toJson)).mp htakes
  refine ⟨contents, d, hread, hopen, ?_⟩
  rw [run_runExport_eq hdocument hwrite]
  exact generates_of_ofInput (Workspace.read_write? hwrite) (ofInput_fileText_forest hopen _)

/-- A folder with a snapshot of one card, which is tagged, and of a title inside it, which is
not. -/
def cardWorkspace : Workspace where
  here := ["work"]
  folders := [[], ["work"]]
  files := .ofList [(["work", "card.json"], fileText (Snapshot.toJson
    { fileName := "cards"
      pageName := "home"
      selection := []
      layers :=
        [{ element := { id := ⟨"1", Eq.refl false⟩, name := "Card", kind := .frame }
           data := .ofList [(TagStore.dataKey,
             "\x7b\"tag\":\"section\",\"elementId\":\"1\",\"content\":\"Welcome\"\x7d")]
           children :=
             [{ element := { id := ⟨"2", Eq.refl false⟩, name := "Title", kind := .text }
                data := .empty
                children := [] }] }] }))]

theorem generates_exported_card :
    (cardWorkspace.run (runExport {} default "card.json" (some "forest.json"))).1.exitCode = 0 ∧
      ∃ contents d, cardWorkspace.read "card.json" = .text contents ∧
        documentOfText "card.json" contents = .ok d ∧
          Generates (cardWorkspace.run (runExport {} default "card.json" (some "forest.json"))).2
            "forest.json"
            (.ofNodes (MarkupNode.ofForest (Forest.build (TagStore.load { document := d })
              d.outline (.stamped {} d default)))) := by
  have hplace : cardWorkspace.resolve "card.json" = some ["work", "card.json"] := by
    decide +kernel
  have hread := Workspace.read_of_find? hplace (OrderedMap.find?_insert _ _ _ _)
  have hdocument := Workspace.document_eq_ok_iff.mpr ⟨_, hread, documentOfText_fileText "card.json"
    (by decide) (by decide)⟩
  have htakes : cardWorkspace.Takes "forest.json" :=
    ⟨["work", "forest.json"], by decide +kernel, by decide, by decide⟩
  have hexit : (cardWorkspace.run (runExport {} default "card.json"
      (some "forest.json"))).1.exitCode = 0 :=
    exitCode_runExport_eq_zero_iff.mpr ⟨_, hdocument, htakes⟩
  exact ⟨hexit, generates_exported hexit⟩

end Command
end DesignMarkup
