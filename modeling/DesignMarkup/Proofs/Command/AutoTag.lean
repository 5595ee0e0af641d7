import DesignMarkup.Proofs.Command.Run
import DesignMarkup.Proofs.Tag.Additions
import DesignMarkup.Proofs.Tag.Nesting

/-!
Saving tags.  The command that tags the elements of a file from their names writes the file anew
with the data of the tags in it.  The file is accepted again exactly if each element that was tagged
lies where its data has room; it then holds the same tags, and tagging it again changes nothing.
Otherwise the file has become one that no command accepts.
-/

namespace DesignMarkup

namespace Command

/-- The elements that the command is asked to tag. -/
def requested (d : Document) (all : Bool) : List ElementId :=
  if all then d.allElements else d.selection

/-- What tagging the elements of a document from their names comes to. -/
def autoTagged (settings : Settings) (d : Document) (all descendants : Bool) :
    AutoTagOutcome × Tagging :=
  (Tagging.load { document := d }).autoTag (requested d all)
    (settings.autoTag.includeDescendants || descendants)

/-- What the command that tags from names tells when it is done. -/
def report (outcome : AutoTagOutcome) : CommandResult :=
  { stdout := fileText outcome.toJson }

/-- The text of the file of a document. -/
def savedText (d : Document) : String :=
  fileText d.snapshot.toJson

theorem run_runAutoTag (settings : Settings) (path : String) (all descendants : Bool)
    (w : Workspace) :
    w.run (runAutoTag settings path all descendants true) =
      match w.document path with
      | .error e => (CommandResult.failed {} e, w)
      | .ok d =>
          if (requested d all).isEmpty then (CommandResult.failed {} .nothingSelected, w)
          else
            w.run (finish (report (autoTagged settings d all descendants).1)
              [(path, savedText (autoTagged settings d all descendants).2.host.document)]
              (report (autoTagged settings d all descendants).1)) := by
  rw [Workspace.run, runAutoTag, StateT.run_bind, run_readDocument]
  cases w.document path with
  | error e => rfl
  | ok d =>
      simp only
      by_cases hnone : (requested d all).isEmpty = true
      · rw [if_pos hnone]
        exact congrArg (StateT.run · w) (if_pos hnone)
      · rw [if_neg hnone]
        exact congrArg (StateT.run · w) (if_neg hnone)

/-- The file of a document is accepted exactly if it nests no deeper than a text may, and what is
opened from it is then the document without its empty texts. -/
theorem documentOfText_savedText (path : String) (d : Document) :
    documentOfText path (savedText d) =
      if d.snapshot.toJson.nesting ≤ Json.maxNesting then .ok d.reopened
      else .error (.notSnapshot path) := by
  rw [documentOfText, savedText, fileText, Snapshot.ofText?_lines]
  by_cases hnesting : d.snapshot.toJson.nesting ≤ Json.maxNesting
  · simp only [if_pos hnesting, Document.ofSnapshot_snapshot]
  · simp only [if_neg hnesting]

section AutoTagged

variable (settings : Settings) (d : Document) (all descendants : Bool)

theorem commits_autoTagged :
    (Tagging.load { document := d }).Commits (autoTagged settings d all descendants).1.applied
      (autoTagged settings d all descendants).2 :=
  Tagging.commits_autoTagElements _ _

theorem writtenThrough_autoTagged : (autoTagged settings d all descendants).2.WrittenThrough :=
  (Tagging.writtenThrough_load (Host.steady_of_document d)).steps
    (Tagging.steps_autoTagElements _ _)

theorem processed_autoTagged :
    (autoTagged settings d all descendants).1.processed =
      (Tagging.load { document := d }).candidates (requested d all)
        (settings.autoTag.includeDescendants || descendants) := by
  rw [autoTagged, Tagging.autoTag]

/-- Each requested element is looked at. -/
theorem mem_processed {id : ElementId} (h : id ∈ requested d all) :
    id ∈ (autoTagged settings d all descendants).1.processed := by
  rw [processed_autoTagged, Tagging.candidates, List.mem_eraseDups]
  exact List.mem_flatMap.mpr ⟨id, h, List.mem_cons_self⟩

/-- Of the elements that are looked at those without a record are tagged, if their names tell a
tag. -/
theorem mem_applied_iff (id : ElementId) :
    id ∈ (autoTagged settings d all descendants).1.applied.map TagRecord.elementId ↔
      id ∈ (autoTagged settings d all descendants).1.processed ∧
        ¬ (Tagging.load { document := d }).Settled id := by
  have hadds := (Tagging.load { document := d }).onlyAdds (requested d all)
    (settings.autoTag.includeDescendants || descendants)
  rw [autoTagged, hadds.applied_eq, Tagging.map_elementId_filterMap_suggested?, List.mem_filter,
    Tagging.settled_iff (Host.faultless_of_document d), Option.isSome_iff_ne_none]

/-- The document that is opened from the file of the tagged one. -/
def saved : Document :=
  (autoTagged settings d all descendants).2.host.document.reopened

/-- The tags of the file are those that the run left in the store. -/
theorem find?_load_saved (id : ElementId) :
    (TagStore.load { document := saved settings d all descendants }).find? id =
      (autoTagged settings d all descendants).2.store.find? id := by
  have hthrough := writtenThrough_autoTagged settings d all descendants
  rw [saved, (Host.sameTexts_reopened hthrough.steady.readable).load_eq, TagStore.find?_load,
    hthrough.stored]

variable {d} (hselection : ∀ id ∈ d.selection, id ∈ d.allElements)
include hselection

theorem selection_autoTagged :
    ∀ id ∈ (autoTagged settings d all descendants).2.host.document.selection,
      id ∈ (autoTagged settings d all descendants).2.host.document.allElements := by
  have hsame := (commits_autoTagged settings d all descendants).sameTree
  rw [hsame.selection_eq, hsame.allElements_eq]
  exact hselection

theorem sameTree_saved : d.SameTree (saved settings d all descendants) :=
  (commits_autoTagged settings d all descendants).sameTree.trans
    (Document.sameTree_reopened (selection_autoTagged settings all descendants hselection))

theorem savedText_saved :
    savedText (saved settings d all descendants) =
      savedText (autoTagged settings d all descendants).2.host.document := by
  have hkept := List.filter_eq_self.mpr fun id hid =>
    decide_eq_true (selection_autoTagged settings all descendants hselection id hid)
  rw [savedText, saved, Document.snapshot_reopened, hkept]
  rfl

theorem requested_saved :
    requested (saved settings d all descendants) all = requested d all := by
  have hsame := sameTree_saved settings all descendants hselection
  rw [requested, requested, hsame.allElements_eq, hsame.selection_eq]

/-- Tagging the saved document in the same way looks at the same elements and adds nothing. -/
theorem autoTagged_saved :
    autoTagged settings (saved settings d all descendants) all descendants =
      (⟨[], (autoTagged settings d all descendants).1.processed⟩,
        Tagging.load { document := saved settings d all descendants }) := by
  have hsame := sameTree_saved settings all descendants hselection
  have hprocessed : (Tagging.load { document := saved settings d all descendants }).candidates
      (requested d all) (settings.autoTag.includeDescendants || descendants) =
        (autoTagged settings d all descendants).1.processed := by
    simp only [processed_autoTagged, Tagging.candidates, Tagging.host_load, hsame.descendants_eq]
  have hfaultless : (autoTagged settings d all descendants).2.host.Faultless :=
    Tagging.faultless_steps (Host.faultless_of_document d) (Tagging.steps_autoTagElements _ _)
  have hnone : ∀ id ∈ (autoTagged settings d all descendants).1.processed,
      (Tagging.load { document := saved settings d all descendants }).suggested? id = none := by
    intro id hid
    have hafter : (autoTagged settings d all descendants).2.Settled id :=
      (Tagging.settled_iff hfaultless).mpr (Tagging.suggested?_autoTagElements _ _ id hid)
    have hcontains : (TagStore.load { document := saved settings d all descendants }).contains id =
        (autoTagged settings d all descendants).2.store.contains id := by
      rw [TagStore.contains_eq, TagStore.contains_eq, find?_load_saved]
    exact (Tagging.settled_iff (Host.faultless_of_document _)).mp
      (hafter.mono hcontains.trans (Document.element?_reopened _ id))
  rw [autoTagged, Tagging.autoTag, requested_saved settings all descendants hselection, hprocessed,
    Tagging.autoTagElements_of_none hnone]

end AutoTagged

section Run

variable {settings : Settings} {path : String} {all descendants : Bool} {w w' : Workspace}
  {d : Document}

/-- The command writes the tagged document to the file that it came from. -/
theorem run_runAutoTag_eq (hdocument : w.document path = .ok d) (hrequested : requested d all ≠ [])
    (hwrite : w.write? path (savedText (autoTagged settings d all descendants).2.host.document) =
      some w') :
    w.run (runAutoTag settings path all descendants true) =
      (report (autoTagged settings d all descendants).1, w') := by
  have hnone : ¬ (requested d all).isEmpty = true := by
    rwa [List.isEmpty_iff]
  simp only [run_runAutoTag, hdocument, if_neg hnone, run_finish, Workspace.writeAll, hwrite]
  rfl

theorem exitCode_runAutoTag_eq_zero_iff :
    (w.run (runAutoTag settings path all descendants true)).1.exitCode = 0 ↔
      ∃ d, w.document path = .ok d ∧ requested d all ≠ [] ∧ w.Takes path := by
  rw [run_runAutoTag]
  cases hdocument : w.document path with
  | error e => simp [CommandResult.failed]
  | ok d =>
      by_cases hnone : (requested d all).isEmpty = true
      · simp only [if_pos hnone, Except.ok.injEq, exists_eq_left']
        simp [CommandResult.failed, List.isEmpty_iff.mp hnone]
      · have hrequested : requested d all ≠ [] := by
          rwa [List.isEmpty_iff] at hnone
        simp only [if_neg hnone, Except.ok.injEq, exists_eq_left']
        rw [exitCode_finish_eq_zero_iff rfl]
        simp [hrequested]

/-- What becomes of a file whose elements are tagged from their names: it holds the tagged document,
and nothing else has changed.  Tagged are the elements that had no record and a name that tells a
tag.  The file is accepted again exactly if each of them lies where its data has room: two levels of
arrays and objects for each element around it, and four for the document, the element and its data.
It then holds the tags of the run, and the command adds none and leaves it as it is when it is given
again. -/
structure Saves (command : StateM Workspace CommandResult) (path : String) (d : Document)
    (outcome : AutoTagOutcome) (t : Tagging) (w w' : Workspace) : Prop where
  read_eq : w'.read path = .text (savedText t.host.document)
  others_eq : ∀ other, w.resolve other ≠ w.resolve path → w'.read other = w.read other
  tagged_iff : ∀ id, id ∈ outcome.applied.map TagRecord.elementId ↔
    id ∈ outcome.processed ∧ ¬ (Tagging.load { document := d }).Settled id
  reopens_iff : (∃ d', w'.document path = .ok d') ↔
    ∀ r ∈ outcome.applied, ∀ level, (r.elementId, level) ∈ d.levels →
      2 * level + 4 ≤ Json.maxNesting
  find?_eq : ∀ d', w'.document path = .ok d' →
    ∀ id, (TagStore.load { document := d' }).find? id = t.store.find? id
  again_eq : ∀ d', w'.document path = .ok d' →
    w'.run command = (report { outcome with applied := [] }, w')
  refused_eq : (∀ d', w'.document path ≠ .ok d') →
    w'.run command = (CommandResult.failed {} (.notSnapshot path), w')

theorem nesting_autoTagged_le_iff {contents : String} (h : documentOfText path contents = .ok d) :
    (autoTagged settings d all descendants).2.host.document.snapshot.toJson.nesting ≤
        Json.maxNesting ↔
      ∀ r ∈ (autoTagged settings d all descendants).1.applied, ∀ level,
        (r.elementId, level) ∈ d.levels → 2 * level + 4 ≤ Json.maxNesting := by
  obtain ⟨s, htext, hopen⟩ := documentOfText_eq_ok_iff.mp h
  exact (commits_autoTagged settings d all descendants).nesting_snapshot_le_iff
    (writtenThrough_autoTagged settings d all descendants) (Document.nesting_toJson_le htext hopen)

theorem document_of_write? {d' : Document} (hwrite : w.write? path (savedText d') = some w') :
    w'.document path = if d'.snapshot.toJson.nesting ≤ Json.maxNesting then .ok d'.reopened
      else .error (.notSnapshot path) := by
  have hsource : w'.source path = .ok (savedText d') :=
    Workspace.source_eq_ok_iff.mpr (Workspace.read_write? hwrite)
  rw [Workspace.document, hsource, Except.bind, documentOfText_savedText]

/-- Tagging the elements of a file from their names saves the tags, as long as there is room for
their data in the file. -/
theorem saves_autoTag
    (hexit : (w.run (runAutoTag settings path all descendants true)).1.exitCode = 0) :
    ∃ contents d, w.read path = .text contents ∧ documentOfText path contents = .ok d ∧
      (w.run (runAutoTag settings path all descendants true)).1 =
        report (autoTagged settings d all descendants).1 ∧
      Saves (runAutoTag settings path all descendants true) path d
        (autoTagged settings d all descendants).1 (autoTagged settings d all descendants).2 w
        (w.run (runAutoTag settings path all descendants true)).2 := by
  obtain ⟨d, hdocument, hrequested, htakes⟩ := exitCode_runAutoTag_eq_zero_iff.mp hexit
  obtain ⟨contents, hread, hopen⟩ := Workspace.document_eq_ok_iff.mp hdocument
  obtain ⟨w', hwrite⟩ := (Workspace.takes_iff
    (savedText (autoTagged settings d all descendants).2.host.document)).mp htakes
  obtain ⟨s, -, hsnapshot⟩ := documentOfText_eq_ok_iff.mp hopen
  have hselection : ∀ id ∈ d.selection, id ∈ d.allElements :=
    fun id => Document.mem_allElements_of_ofSnapshot hsnapshot
  have hafter := document_of_write? hwrite
  have hsaved : ∀ d', w'.document path = .ok d' → d' = saved settings d all descendants := by
    intro d' hreopened
    rw [hafter] at hreopened
    split at hreopened
    · exact (Except.ok.inj hreopened).symm
    · cases hreopened
  refine ⟨contents, d, hread, hopen, ?_⟩
  have hrun := run_runAutoTag_eq hdocument hrequested hwrite
  refine ⟨congrArg Prod.fst hrun, ?_⟩
  rw [hrun]
  constructor
  case read_eq => exact Workspace.read_write? hwrite
  case others_eq => exact fun other => Workspace.read_write?_of_ne hwrite
  case tagged_iff => exact mem_applied_iff settings d all descendants
  case reopens_iff =>
    rw [← nesting_autoTagged_le_iff hopen, hafter]
    split <;> simp [*]
  case find?_eq =>
    intro d' hreopened id
    rw [hsaved d' hreopened]
    exact find?_load_saved settings d all descendants id
  case again_eq =>
    intro d' hreopened
    have hsame := hsaved d' hreopened
    subst hsame
    have hagain := autoTagged_saved settings all descendants hselection
    have hstill : requested (saved settings d all descendants) all ≠ [] := by
      rwa [requested_saved settings all descendants hselection]
    have hsavedAgain : w'.write? path (savedText (autoTagged settings
        (saved settings d all descendants) all descendants).2.host.document) = some w' := by
      rw [hagain]
      apply Workspace.write?_of_read
      · rw [Workspace.read_write? hwrite]
        exact congrArg FileReading.text (savedText_saved settings all descendants hselection).symm
      · exact ((Workspace.samePlaces_write? hwrite).takes_iff path).mpr htakes
    rw [run_runAutoTag_eq hreopened hstill hsavedAgain, hagain]
  case refused_eq =>
    intro hrefused
    have hdeep : w'.document path = .error (.notSnapshot path) := by
      rw [hafter]
      apply if_neg
      intro hfits
      rw [if_pos hfits] at hafter
      exact hrefused _ hafter
    simp only [run_runAutoTag, hdeep]

end Run

/-- A card that lies inside a number of others. -/
def card (above : Nat) : Element where
  id := ⟨String.ofList (List.replicate (above + 1) 'i'), by
    simp [Text.isBlankText, List.replicate_succ, Text.isBlank]⟩
  name := "card"
  kind := .frame

/-- Cards that lie in each other, a number of them below the first. -/
def tower : (above below : Nat) → Layer
  | above, 0 => .leaf (card above)
  | above, below + 1 => ⟨card above, .empty, [tower (above + 1) below]⟩

theorem id_card_injective {above above' : Nat} (h : (card above).id = (card above').id) :
    above = above' := by
  have hlength := congrArg (fun id : ElementId => id.text.toList.length) h
  simpa [card] using hlength

theorem map_leveled_tower (above below : Nat) :
    ((tower above below).leveled above).map Layer.named =
      (List.range' above (below + 1)).map fun n => ((card n).id, n) := by
  induction below generalizing above with
  | zero => simp [tower, Layer.leaf, Layer.leveled, Layer.leveledOfList, Layer.named, Layer.id]
  | succ below ih =>
      rw [tower, Layer.leveled, Layer.leveledOfList, Layer.leveledOfList, List.append_nil,
        List.map_cons, ih, List.range'_succ, List.map_cons]
      rfl

theorem ids_tower (above below : Nat) :
    (tower above below).ids = (List.range' above (below + 1)).map fun n => (card n).id := by
  induction below generalizing above with
  | zero => rfl
  | succ below ih =>
      rw [tower, Layer.ids, Layer.idsOfList, Layer.idsOfList, List.append_nil, ih]
      rfl

theorem forall_parts_tower (above below : Nat) :
    ∀ part ∈ (tower above below).parts, part.data = .empty ∧ ∃ n, part.element = card n := by
  induction below generalizing above with
  | zero => simp [tower, Layer.leaf, Layer.parts, Layer.partsOfList]
  | succ below ih => simpa [tower, Layer.parts, Layer.partsOfList] using ih (above + 1)

/-- The document of such cards, of which none is tagged. -/
def towerDocument (below : Nat) : Document where
  fileName := "tower"
  pageName := "cards"
  selection := []
  layers := [tower 0 below]
  ids_nodup := by
    rw [Layer.idsOfList, Layer.idsOfList, List.append_nil, ids_tower]
    exact List.Nodup.map (fun _ _ => id_card_injective) List.nodup_range'

section Tower

variable (below : Nat)

theorem levels_towerDocument :
    (towerDocument below).levels = (List.range' 0 (below + 1)).map fun n => ((card n).id, n) := by
  rw [← map_leveled_tower]
  show ((tower 0 below).leveled 0 ++ []).map Layer.named = _
  rw [List.append_nil]

theorem layer?_towerDocument {id : ElementId} {layer : Layer}
    (h : (towerDocument below).layer? id = some layer) :
    layer.data = .empty ∧ ∃ n, layer.element = card n := by
  have hpart := (Document.layer?_eq_some_iff.mp h).1
  apply forall_parts_tower 0 below
  rwa [towerDocument, Layer.partsOfList, Layer.partsOfList, List.append_nil] at hpart

/-- A tower of 63 cards takes all the levels that a text may have. -/
theorem nesting_towerDocument_le (h : below ≤ 62) :
    (towerDocument below).toSnapshot.toJson.nesting ≤ Json.maxNesting := by
  rw [Document.nesting_toJson_le_iff]
  intro id level layer hlevel hlayer
  obtain ⟨hdata, n, helement⟩ := layer?_towerDocument below hlayer
  have hown : layer.ownNesting = 1 := by
    rw [Layer.ownNesting, hdata, helement]
    rfl
  rw [levels_towerDocument] at hlevel
  obtain ⟨m, hm, heq⟩ := List.mem_map.mp hlevel
  rw [← (Prod.mk.inj heq).2, hown, Json.maxNesting]
  rw [List.mem_range'_1] at hm
  omega

/-- A folder with the file of a tower. -/
def towerWorkspace : Workspace where
  here := ["work"]
  folders := [[], ["work"]]
  files := .ofList [(["work", "tower.json"], fileText (towerDocument below).toSnapshot.toJson)]

theorem resolve_towerWorkspace :
    (towerWorkspace below).resolve "tower.json" = some ["work", "tower.json"] := by
  have hempty : Workspace.SamePlaces ⟨["work"], [[], ["work"]], .empty⟩ (towerWorkspace below) :=
    ⟨rfl, rfl⟩
  rw [hempty.resolve_eq]
  decide +kernel

theorem document_towerWorkspace (h : below ≤ 62) :
    (towerWorkspace below).document "tower.json" = .ok (towerDocument below) := by
  have hread : (towerWorkspace below).read "tower.json" =
      .text (fileText (towerDocument below).toSnapshot.toJson) :=
    Workspace.read_of_find? (resolve_towerWorkspace below) (OrderedMap.find?_insert _ _ _ _)
  exact Workspace.document_eq_ok_iff.mpr ⟨_, hread, documentOfText_fileText "tower.json"
    (towerDocument below).ids_nodup (nesting_towerDocument_le below h)⟩

theorem takes_towerWorkspace : (towerWorkspace below).Takes "tower.json" :=
  ⟨["work", "tower.json"], resolve_towerWorkspace below, by simp [towerWorkspace],
    by simp [towerWorkspace]⟩

/-- Every card of a tower is found among its elements. -/
theorem id_card_mem_allElements {n : Nat} (h : n ≤ below) :
    (card n).id ∈ (towerDocument below).allElements := by
  rw [← Document.map_fst_levels, levels_towerDocument, List.map_map]
  exact List.mem_map_of_mem (List.mem_range'_1.mpr (by omega))

/-- No card of a tower is tagged, and all of their names tell a tag. -/
theorem not_settled_towerDocument {id : ElementId} (h : id ∈ (towerDocument below).allElements) :
    ¬ (Tagging.load { document := towerDocument below }).Settled id := by
  obtain ⟨layer, hlayer⟩ := Option.isSome_iff_exists.mp
    (((towerDocument below).contains_iff id).mpr h)
  obtain ⟨hdata, n, helement⟩ := layer?_towerDocument below hlayer
  have hread : (towerDocument below).read id TagStore.dataKey = .ok none := by
    rw [Document.read_of_layer? hlayer, hdata]
    rfl
  rintro (hcontains | hname)
  · have hstored : (TagStore.load { document := towerDocument below }).find? id = none := by
      rw [TagStore.find?_load, TagStore.stored?, Host.read]
      simp only [hread]
    have hsome : (TagStore.load { document := towerDocument below }).contains id = true := hcontains
    rw [TagStore.contains_eq, hstored] at hsome
    cases hsome
  · have hfound : (towerDocument below).element? id = some (card n) := by
      rw [Document.element?, hlayer, Option.map_some, helement]
    have hinfer : LayerName.infer? "card" ≠ none := by decide +kernel
    exact hinfer (hname (card n) hfound)

theorem requested_towerDocument : requested (towerDocument below) true ≠ [] :=
  List.ne_nil_of_mem (id_card_mem_allElements below (Nat.zero_le below))

theorem exitCode_towerWorkspace (h : below ≤ 62) :
    ((towerWorkspace below).run (runAutoTag {} "tower.json" true false true)).1.exitCode = 0 :=
  exitCode_runAutoTag_eq_zero_iff.mpr ⟨towerDocument below, document_towerWorkspace below h,
    requested_towerDocument below, takes_towerWorkspace below⟩

theorem id_card_mem_applied {n : Nat} (h : n ≤ below) :
    (card n).id ∈
      (autoTagged {} (towerDocument below) true false).1.applied.map TagRecord.elementId := by
  have hmem := id_card_mem_allElements below h
  exact (mem_applied_iff {} _ true false _).mpr
    ⟨mem_processed {} _ true false hmem, not_settled_towerDocument below hmem⟩

/-- The tag of the last card of a tower of 63 has no room. -/
theorem nesting_autoTagged_tower :
    ¬ (autoTagged {} (towerDocument 62) true false).2.host.document.snapshot.toJson.nesting ≤
      Json.maxNesting := by
  intro hfits
  obtain ⟨contents, -, hopen⟩ := Workspace.document_eq_ok_iff.mp
    (document_towerWorkspace 62 (Nat.le_refl 62))
  obtain ⟨r, hr, hid⟩ := List.mem_map.mp (id_card_mem_applied 62 (Nat.le_refl 62))
  have hlevel : (r.elementId, 62) ∈ (towerDocument 62).levels := by
    rw [levels_towerDocument, hid]
    exact List.mem_map.mpr ⟨62, by decide, rfl⟩
  exact absurd ((nesting_autoTagged_le_iff hopen).mp hfits r hr 62 hlevel) (by decide)

end Tower

/-- A tower of 62 cards has room for the tags of all of them. -/
theorem saves_autoTag_tower :
    ((towerWorkspace 61).run (runAutoTag {} "tower.json" true false true)).1.exitCode = 0 ∧
      ∃ contents d, (towerWorkspace 61).read "tower.json" = .text contents ∧
        documentOfText "tower.json" contents = .ok d ∧
        ((towerWorkspace 61).run (runAutoTag {} "tower.json" true false true)).1 =
          report (autoTagged {} d true false).1 ∧
        Saves (runAutoTag {} "tower.json" true false true) "tower.json" d
          (autoTagged {} d true false).1 (autoTagged {} d true false).2 (towerWorkspace 61)
          ((towerWorkspace 61).run (runAutoTag {} "tower.json" true false true)).2 := by
  have hexit := exitCode_towerWorkspace 61 (by decide)
  exact ⟨hexit, saves_autoTag hexit⟩

/-- A tower of 63 cards is saved with the tag of the last card, and cannot be opened again. -/
theorem not_reopened_tower :
    ((towerWorkspace 62).run (runAutoTag {} "tower.json" true false true)).1.exitCode = 0 ∧
      ((towerWorkspace 62).run (runAutoTag {} "tower.json" true false true)).2.document
        "tower.json" = .error (.notSnapshot "tower.json") := by
  obtain ⟨w', hwrite⟩ := (Workspace.takes_iff (savedText
    (autoTagged {} (towerDocument 62) true false).2.host.document)).mp (takes_towerWorkspace 62)
  refine ⟨exitCode_towerWorkspace 62 (Nat.le_refl 62), ?_⟩
  rw [run_runAutoTag_eq (document_towerWorkspace 62 (Nat.le_refl 62)) (requested_towerDocument 62)
    hwrite, document_of_write? hwrite, if_neg nesting_autoTagged_tower]

end Command
end DesignMarkup
