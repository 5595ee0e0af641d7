import DesignMarkup.Proofs.Document.ProperForest
import DesignMarkup.Proofs.Document.SameTree

/-!
Tables and snapshots turned into each other.  The layers that a table tells are those of the
document that it holds, so that a snapshot is told again as it was opened, less what does not count,
and a table that is opened from what another one tells answers as that one does.
-/

namespace DesignMarkup

section FirstRepeats

variable {α : Type}

/-- An entry of a list is the first one that repeats an earlier one. -/
def FirstRepeats (xs : List α) (x : α) : Prop :=
  ∃ before after, xs = before ++ x :: after ∧ before.Nodup ∧ x ∈ before

theorem FirstRepeats.not_nodup {xs : List α} {x : α} (h : FirstRepeats xs x) : ¬ xs.Nodup := by
  obtain ⟨before, after, rfl, -, hmem⟩ := h
  intro hnodup
  exact (List.nodup_append.mp hnodup).2.2 x hmem x List.mem_cons_self rfl

variable [DecidableEq α]

theorem exists_of_firstRepeat? {seen xs : List α} {x : α} (h : firstRepeat? seen xs = some x) :
    ∃ before after, xs = before ++ x :: after ∧ firstRepeat? seen before = none ∧
      (x ∈ before ∨ x ∈ seen) := by
  induction xs generalizing seen with
  | nil => cases h
  | cons y rest ih =>
      rw [firstRepeat?] at h
      split at h
      · rename_i hseen
        cases h
        exact ⟨[], rest, rfl, rfl, .inr hseen⟩
      · rename_i hseen
        obtain ⟨before, after, rfl, hnone, hearlier⟩ := ih h
        refine ⟨y :: before, after, rfl, ?_, ?_⟩
        · rw [firstRepeat?, if_neg hseen, hnone]
        · simp only [List.mem_cons] at hearlier ⊢
          tauto

/-- What is found is the first repetition. -/
theorem firstRepeat?_eq_some_iff {xs : List α} {x : α} :
    firstRepeat? [] xs = some x ↔ FirstRepeats xs x := by
  constructor
  · intro h
    obtain ⟨before, after, rfl, hnone, hearlier⟩ := exists_of_firstRepeat? h
    have hmem := hearlier.resolve_right List.not_mem_nil
    exact ⟨before, after, rfl, (nodup_of_firstRepeat?_eq_none hnone).1, hmem⟩
  · rintro ⟨before, after, rfl, hnodup, hmem⟩
    have hnone := firstRepeat?_eq_none hnodup fun y _ => List.not_mem_nil (a := y)
    rw [firstRepeat?_append_of_none hnone, List.nil_append, firstRepeat?, if_pos hmem]

end FirstRepeats

namespace Table
namespace Holds

variable {t : Table} {d : Document}

-- A layer has at least as many identifiers as levels, so their number serves as the depth.
mutual

theorem layerWithin?_eq (h : t.Holds d) {layer : Layer}
    (hlayer : layer.parts ⊆ Layer.partsOfList d.layers) {depth : Nat}
    (hdepth : layer.ids.length ≤ depth) :
    t.layerWithin? depth layer.id = some layer.dropEmptyData := by
  match layer with
  | ⟨element, data, children⟩ =>
      rw [Layer.parts_eq, List.cons_subset] at hlayer
      rw [Layer.ids, List.length_cons] at hdepth
      obtain ⟨depth, rfl⟩ := Nat.exists_eq_add_one.mpr (Nat.lt_of_lt_of_le (Nat.succ_pos _) hdepth)
      have hown := Document.layer?_eq_some_iff.mpr ⟨hlayer.1, rfl⟩
      obtain ⟨above?, hfind⟩ := h.find?_of_layer? hown
      have hbelow := filterMap_layerWithin? h hlayer.2 (Nat.le_of_succ_le_succ hdepth)
      rw [layerWithin?, hfind, Option.map_some, Layer.dropEmptyData, ← hbelow]
      rfl

/-- From the identifiers of layers of the document the table tells these layers, without the empty
texts. -/
theorem filterMap_layerWithin? (h : t.Holds d) {layers : List Layer}
    (hlayers : Layer.partsOfList layers ⊆ Layer.partsOfList d.layers) {depth : Nat}
    (hdepth : (Layer.idsOfList layers).length ≤ depth) :
    (layers.map Layer.id).filterMap (t.layerWithin? depth) =
      Layer.dropEmptyDataInList layers := by
  match layers with
  | [] => rfl
  | layer :: rest =>
      rw [Layer.partsOfList, List.append_subset] at hlayers
      rw [Layer.idsOfList, List.length_append] at hdepth
      have hlayer := layerWithin?_eq h hlayers.1 (Nat.le_trans (Nat.le_add_right _ _) hdepth)
      have hrest := filterMap_layerWithin? h hlayers.2 (Nat.le_trans (Nat.le_add_left _ _) hdepth)
      rw [List.map_cons, List.filterMap_cons_some hlayer, hrest, Layer.dropEmptyDataInList]

end

/-- A table tells the snapshot of the document that it holds. -/
theorem snapshot_eq (h : t.Holds d) : t.snapshot = d.snapshot := by
  have hsize : (Layer.idsOfList d.layers).length ≤ t.size := Nat.le_of_eq h.size_eq.symm
  have hlayers := h.filterMap_layerWithin? (List.Subset.refl _) hsize
  rw [snapshot, Document.snapshot, h.fileName, h.pageName, h.selection, h.roots, Document.roots,
    hlayers]

end Holds

/-- Tables that answer alike about their names, their elements and what is stored on these. -/
structure SameAnswers (t t' : Table) : Prop where
  fileName : t'.fileName = t.fileName
  pageName : t'.pageName = t.pageName
  roots : t'.roots = t.roots
  children : ∀ id, t'.children id = t.children id
  parent? : ∀ id, t'.parent? id = t.parent? id
  element? : ∀ id, t'.element? id = t.element? id
  read : ∀ id key, t'.read id key = t.read id key

/-- How the table of a snapshot begins and what it tells then. -/
structure Opens (s : Snapshot) : Prop where
  isOk_iff : (∃ t, ofSnapshot s = .ok t) ↔ (Layer.idsOfList s.layers).Nodup
  /-- What is refused is the first identifier, parents first, that repeats an earlier one. -/
  eq_error_iff : ∀ refusal, ofSnapshot s = .error refusal ↔
    ∃ id, FirstRepeats (Layer.idsOfList s.layers) id ∧ refusal = .duplicateElement id
  /-- Selected identifiers that do not occur are dropped, and so are empty texts. -/
  snapshot_eq : ∀ t, ofSnapshot s = .ok t → t.snapshot = { s with
    selection := s.selection.filter (· ∈ Layer.idsOfList s.layers)
    layers := Layer.dropEmptyDataInList s.layers }
  /-- The document of the snapshot begins alike and tells the same. -/
  begins : Begins (ofSnapshot s) (Document.ofSnapshot s)
  document : ∀ t, ofSnapshot s = .ok t →
    ∃ d, Document.ofSnapshot s = .ok d ∧ t.Shows d ∧ t.snapshot = d.snapshot

theorem exists_holds_of_ofSnapshot {s : Snapshot} {t : Table} (h : ofSnapshot s = .ok t) :
    ∃ d, Document.ofSnapshot s = .ok d ∧ t.Holds d :=
  (Start.snapshot s).exists_holds h

theorem ofSnapshot_eq_error_iff (s : Snapshot) (refusal : HostError) :
    ofSnapshot s = .error refusal ↔
      ∃ id, FirstRepeats (Layer.idsOfList s.layers) id ∧ refusal = .duplicateElement id := by
  have hbegins := begins_ofSnapshot s
  simp only [← firstRepeat?_eq_some_iff]
  rw [Document.ofSnapshot] at hbegins
  generalize ofSnapshot s = answer at hbegins ⊢
  split at hbegins
  · rename_i id hrepeat
    cases hbegins
    simp [hrepeat, eq_comm]
  · rename_i hrepeat
    cases hbegins
    simp [hrepeat]

theorem isOk_ofSnapshot_iff (s : Snapshot) :
    (∃ t, ofSnapshot s = .ok t) ↔ (Layer.idsOfList s.layers).Nodup := by
  constructor
  · rintro ⟨t, h⟩
    obtain ⟨d, hdocument, -⟩ := exists_holds_of_ofSnapshot h
    have hlayers := congrArg Snapshot.layers (Document.toSnapshot_of_ofSnapshot hdocument)
    exact hlayers ▸ d.ids_nodup
  · intro hnodup
    cases hanswer : ofSnapshot s with
    | ok t => exact ⟨t, rfl⟩
    | error refusal =>
        obtain ⟨id, hrepeats, -⟩ := (ofSnapshot_eq_error_iff s refusal).mp hanswer
        exact absurd hnodup hrepeats.not_nodup

theorem opens (s : Snapshot) : Opens s := by
  constructor
  case isOk_iff => exact isOk_ofSnapshot_iff s
  case eq_error_iff => exact ofSnapshot_eq_error_iff s
  case snapshot_eq =>
    intro t h
    obtain ⟨d, hdocument, hholds⟩ := exists_holds_of_ofSnapshot h
    rw [hholds.snapshot_eq, Document.snapshot, Document.toSnapshot_of_ofSnapshot hdocument]
  case begins => exact begins_ofSnapshot s
  case document =>
    intro t h
    obtain ⟨d, hdocument, hholds⟩ := exists_holds_of_ofSnapshot h
    exact ⟨d, hdocument, hholds.shows, hholds.snapshot_eq⟩

/-- Tables that hold a document and the one opened from its snapshot answer alike. -/
theorem Holds.sameAnswers {t t' : Table} {d : Document} (h : t.Holds d)
    (h' : t'.Holds d.reopened) : t.SameAnswers t' := by
  have hchildren : ∀ id, t'.children id = t.children id := by
    intro id
    rw [h.children_eq, h'.children_eq, ← d.tells_outline.children, ← d.outline_reopened,
      d.reopened.tells_outline.children]
  constructor
  case fileName => exact h'.fileName.trans h.fileName.symm
  case pageName => exact h'.pageName.trans h.pageName.symm
  case roots =>
    rw [h.roots, h'.roots]
    exact Layer.map_id_dropEmptyDataInList d.layers
  case children => exact hchildren
  case parent? =>
    intro id
    apply Option.ext
    intro parent
    rw [h.parent?_eq_some_iff, h'.parent?_eq_some_iff, hchildren]
  case element? =>
    intro id
    rw [h.element?_eq, h'.element?_eq, d.element?_reopened]
  case read =>
    intro id key
    rw [h.read_eq, h'.read_eq, d.read_reopened]

theorem Holds.exists_reopened {t : Table} {d : Document} (h : t.Holds d) :
    ∃ t', ofSnapshot t.snapshot = .ok t' ∧ t.SameAnswers t' := by
  have hbegins := begins_ofSnapshot t.snapshot
  rw [h.snapshot_eq, d.ofSnapshot_snapshot] at hbegins
  rw [h.snapshot_eq]
  generalize ofSnapshot d.snapshot = answer at hbegins ⊢
  cases hbegins with
  | ok holds => exact ⟨_, rfl, h.sameAnswers holds⟩

/-- A snapshot is opened exactly if no identifier is repeated in it, and is told again less what does
not count.  Whatever edits are made of a table, what it tells then can be opened, and the table that
is opened answers as the edited one does. -/
theorem opens_and_reopens (s : Snapshot) (start : Start) (edits : List Edit) :
    Opens s ∧ ∀ t, start.table = .ok t →
      ∃ t', ofSnapshot (t.editAll edits).2.snapshot = .ok t' ∧
        (t.editAll edits).2.SameAnswers t' := by
  refine ⟨opens s, ?_⟩
  intro t htable
  obtain ⟨d, -, hholds⟩ := start.exists_holds htable
  exact (hholds.editAll edits).2.exists_reopened

/-- A page on which the label and then the card occur a second time. -/
def repeatingPage : Snapshot where
  fileName := "Landing"
  pageName := "Home"
  selection := []
  layers :=
    [⟨⟨⟨"card", Eq.refl false⟩, "Card", .frame, none, none, none⟩, .empty,
      [.leaf ⟨⟨"label", Eq.refl false⟩, "Label", .text, none, none, none⟩]⟩,
      ⟨⟨⟨"note", Eq.refl false⟩, "Note", .frame, none, none, none⟩, .empty,
        [.leaf ⟨⟨"label", Eq.refl false⟩, "Label", .text, none, none, none⟩,
          .leaf ⟨⟨"card", Eq.refl false⟩, "Card", .frame, none, none, none⟩]⟩]

/-- The label is the one that the page is refused for; the edited card page is opened again, with the
text that was stored and without the parts that were deleted. -/
theorem opens_and_reopens_cardPage :
    ofSnapshot repeatingPage = .error (.duplicateElement ⟨"label", rfl⟩) ∧
      ∃ t, (Start.snapshot cardPage).table = .ok t ∧
        t.snapshot.selection = [⟨"label", rfl⟩] ∧
        ∃ t', ofSnapshot (t.editAll cardEdits).2.snapshot = .ok t' ∧
          t'.children ⟨"card", rfl⟩ = [⟨"price", rfl⟩] ∧
          t'.parent? ⟨"label", rfl⟩ = some ⟨"price", rfl⟩ ∧
          t'.read ⟨"note", rfl⟩ "color" = .ok (some "red") := by
  obtain ⟨t, htable⟩ : ∃ t, (Start.snapshot cardPage).table = .ok t := ⟨_, rfl⟩
  obtain ⟨hrefused, -⟩ := opens_and_reopens repeatingPage (.snapshot cardPage) []
  obtain ⟨hopens, hreopens⟩ := opens_and_reopens cardPage (.snapshot cardPage) cardEdits
  obtain ⟨t', hopened, hsame⟩ := hreopens t htable
  have hfirst : FirstRepeats (Layer.idsOfList repeatingPage.layers) ⟨"label", rfl⟩ :=
    ⟨[⟨"card", rfl⟩, ⟨"label", rfl⟩, ⟨"note", rfl⟩], [⟨"card", rfl⟩], rfl, by decide, by decide⟩
  refine ⟨(hrefused.eq_error_iff _).mpr ⟨_, hfirst, rfl⟩, t, htable, ?_, t', hopened, ?_, ?_, ?_⟩
  · rw [hopens.snapshot_eq t htable]
    rfl
  · rw [hsame.children]
    cases htable
    rfl
  · rw [hsame.parent?]
    cases htable
    rfl
  · rw [hsame.read]
    cases htable
    rfl

end Table
end DesignMarkup
