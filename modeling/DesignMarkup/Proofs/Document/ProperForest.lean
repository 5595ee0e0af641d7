import DesignMarkup.Proofs.Document.Snapshot

/-!
Tables as forests.  A table that holds a document lists each of its elements once, at the top or
below the parent that its entry names, and no element lies below itself.  Since every edit keeps
what a table holds in step with the document, this is so however a table begins and whatever is done
to it.
-/

namespace DesignMarkup
namespace Table

/-- All that a table lists: the elements at the top and those right below each element. -/
def listed (t : Table) : List ElementId :=
  t.roots ++ t.entries.values.flatMap Entry.children

/-- The table of a proper forest. -/
structure IsForest (t : Table) : Prop where
  /-- Nothing is listed twice, in one list or in two. -/
  listed_nodup : t.listed.Nodup
  mem_listed_iff : ∀ id, id ∈ t.listed ↔ t.contains id = true
  filed : ∀ id entry, t.entries.find? id = some entry → entry.element.id = id
  parent?_eq_some_iff : ∀ child parent, t.parent? child = some parent ↔ child ∈ t.children parent
  parent?_eq_none_iff : ∀ id, t.contains id = true → (t.parent? id = none ↔ id ∈ t.roots)
  acyclic : ∀ id, ¬ Relation.TransGen (fun x y => y ∈ t.children x) id id
  /-- The walk below an element comes to an end. -/
  walks : ∀ id, t.outline.Walks (t.children id) (t.descendants id)
  allElements_nodup : t.allElements.Nodup
  mem_allElements_iff : ∀ id, id ∈ t.allElements ↔ t.contains id = true
  length_allElements : t.allElements.length = t.size

/-- A table and a document answer every question alike. -/
structure Shows (t : Table) (d : Document) : Prop where
  fileName : t.fileName = d.fileName
  pageName : t.pageName = d.pageName
  selection : t.selection = d.selection
  roots : t.roots = d.roots
  children : ∀ id, t.children id = d.children id
  parent? : ∀ id, t.parent? id = d.parent? id
  element? : ∀ id, t.element? id = d.element? id
  read : ∀ id key, t.read id key = d.read id key
  descendants : ∀ id, t.descendants id = d.descendants id
  allElements : t.allElements = d.allElements
  size : t.size = d.size

namespace Holds

variable {t : Table} {d : Document} (h : t.Holds d)
include h

theorem listed_perm : t.listed.Perm d.allElements := by
  have hrows := h.rows.flatMap_right fun row => row.2.children
  rw [listed, h.roots, OrderedMap.values, List.flatMap_map]
  exact (hrows.append_left _).trans (Layer.map_id_append_flatMap_children_perm none d.layers)

theorem filed {id : ElementId} {entry : Entry} (hfind : t.entries.find? id = some entry) :
    entry.element.id = id := by
  rw [h.find?_eq_some_iff] at hfind
  obtain ⟨part, -, above?, hrow⟩ := Layer.exists_part_of_mem_rowsOfList hfind
  cases hrow
  rfl

theorem allElements_eq : t.allElements = d.allElements :=
  h.tells.allElements_eq

theorem above_eq : (fun x y => y ∈ t.children x) = fun x y => y ∈ d.children x := by
  funext x y
  rw [h.children_eq]

theorem isForest : t.IsForest := by
  constructor
  case listed_nodup => exact h.listed_perm.nodup_iff.mpr d.ids_nodup
  case mem_listed_iff =>
    intro id
    rw [h.listed_perm.mem_iff, h.contains_iff]
  case filed =>
    intro id entry hfind
    exact h.filed hfind
  case parent?_eq_some_iff =>
    intro child parent
    exact h.parent?_eq_some_iff
  case parent?_eq_none_iff =>
    intro id hid
    exact h.parent?_eq_none_iff hid
  case acyclic =>
    intro id
    rw [h.above_eq]
    exact d.not_above_self id
  case walks =>
    intro id
    have hwalks := h.tells.walks id
    rw [children_outline, ← h.tells.descendants_eq] at hwalks
    exact hwalks
  case allElements_nodup =>
    rw [h.allElements_eq]
    exact d.ids_nodup
  case mem_allElements_iff =>
    intro id
    rw [h.allElements_eq, h.contains_iff]
  case length_allElements =>
    rw [h.allElements_eq, h.size_eq]
    rfl

/-- An element that is right below another one has no other parent, so the first one that is found
among the layers is the one that its entry names. -/
theorem parent?_eq (child : ElementId) : t.parent? child = d.parent? child := by
  apply Option.ext
  intro parent
  rw [h.parent?_eq_some_iff, h.children_eq, Document.mem_children_iff]
  constructor
  · intro hright
    obtain ⟨found, hfound⟩ := Layer.exists_parentInList?_eq hright
    have hother := Layer.rightOver_of_parentInList? hfound
    rw [← Document.mem_children_iff, ← h.children_eq, ← h.parent?_eq_some_iff] at hright hother
    rw [hother] at hright
    rw [Document.parent?, hfound, hright]
  · intro hfound
    exact Layer.rightOver_of_parentInList? hfound

theorem element?_eq (id : ElementId) : t.element? id = d.element? id := by
  obtain ⟨above?, hfind⟩ := h.exists_find?_eq id
  rw [Table.element?, Document.element?, hfind, Option.map_map]
  rfl

theorem read_eq (id : ElementId) (key : String) : t.read id key = d.read id key := by
  obtain ⟨above?, hfind⟩ := h.exists_find?_eq id
  rw [Table.read, Document.read, hfind]
  cases d.layer? id <;> rfl

theorem shows : t.Shows d where
  fileName := h.fileName
  pageName := h.pageName
  selection := h.selection
  roots := h.roots
  children := h.children_eq
  parent? := h.parent?_eq
  element? := h.element?_eq
  read := h.read_eq
  descendants := h.tells.descendants_eq
  allElements := h.allElements_eq
  size := h.size_eq

/-- A refused edit leaves a table as it was. -/
theorem eq_of_refused {edit : Edit} {refusal : HostError} {t' : Table}
    (hrefused : edit.onTable t = .error refusal t') : t' = t := by
  have hfollows := h.follows edit
  rw [hrefused] at hfollows
  generalize edit.onDocument d = answer at hfollows
  cases hfollows
  rfl

theorem edit (e : Edit) : (t.edit e).1 = (d.edit e).1 ∧ (t.edit e).2.Holds (d.edit e).2 := by
  have hfollows := h.follows e
  rw [Table.edit, Document.edit]
  generalize e.onTable t = onTable at hfollows ⊢
  generalize e.onDocument d = onDocument at hfollows ⊢
  cases hfollows with
  | ok holds => exact ⟨rfl, holds⟩
  | error refusal => exact ⟨rfl, h⟩

end Holds

/-- After any edits, a table holds the document after the same edits. -/
theorem Holds.editAll {t : Table} {d : Document} (h : t.Holds d) (edits : List Edit) :
    (t.editAll edits).1 = (d.editAll edits).1 ∧ (t.editAll edits).2.Holds (d.editAll edits).2 := by
  induction edits generalizing t d with
  | nil => exact ⟨rfl, h⟩
  | cons e rest ih =>
      obtain ⟨hanswer, hholds⟩ := h.edit e
      obtain ⟨hanswers, hlast⟩ := ih hholds
      refine ⟨?_, hlast⟩
      show (t.edit e).1 :: ((t.edit e).2.editAll rest).1 =
        (d.edit e).1 :: ((d.edit e).2.editAll rest).1
      rw [hanswer, hanswers]

end Table

/-- The document of a beginning is there if the table is. -/
theorem Start.exists_holds {start : Start} {t : Table} (h : start.table = .ok t) :
    ∃ d, start.document = .ok d ∧ t.Holds d := by
  have hbegins := start.begins
  rw [h] at hbegins
  generalize start.document = document at hbegins ⊢
  cases hbegins with
  | ok holds => exact ⟨_, rfl, holds⟩

/-- However a table begins and whatever edits are made of it, those that are refused included, it is
a proper forest, is left alone where an edit is refused, and shows the document to which the same
was done. -/
theorem Table.isForest_editAll {start : Start} {t : Table} (h : start.table = .ok t)
    (edits : List Edit) :
    (t.editAll edits).2.IsForest ∧
      (∀ (edit : Edit) refusal t', edit.onTable (t.editAll edits).2 = .error refusal t' →
        t' = (t.editAll edits).2) ∧
      ∃ d, start.document = .ok d ∧ (t.editAll edits).1 = (d.editAll edits).1 ∧
        (t.editAll edits).2.Shows (d.editAll edits).2 := by
  obtain ⟨d, hdocument, hholds⟩ := start.exists_holds h
  obtain ⟨hanswers, hlast⟩ := hholds.editAll edits
  refine ⟨hlast.isForest, ?_, d, hdocument, hanswers, hlast.shows⟩
  intro edit refusal t' hrefused
  exact hlast.eq_of_refused hrefused

/-- A card with a button and its label, and a note; what is selected is the label and something that
does not occur. -/
def cardPage : Snapshot where
  fileName := "Landing"
  pageName := "Home"
  selection := [⟨"label", rfl⟩, ⟨"ghost", rfl⟩]
  layers :=
    [⟨⟨⟨"card", rfl⟩, "Card", .frame, none, none, none⟩, .empty,
      [⟨⟨⟨"button", rfl⟩, "Button", .group, none, none, none⟩, .empty,
        [.leaf ⟨⟨"label", rfl⟩, "Label", .text, some "Buy", none, none⟩]⟩]⟩,
      .leaf ⟨⟨"note", rfl⟩, "Note", .text, none, none, none⟩]

/-- Edits of which those under known identifiers, below unknown ones and of unknown ones are
refused; the label is inserted anew after it was deleted with its button. -/
def cardEdits : List Edit :=
  [.insert (some ⟨"card", rfl⟩) ⟨⟨"price", rfl⟩, "Price", .text, none, none, none⟩,
    .insert none ⟨⟨"label", rfl⟩, "Label", .text, none, none, none⟩,
    .insert (some ⟨"ghost", rfl⟩) ⟨⟨"heading", rfl⟩, "Heading", .text, none, none, none⟩,
    .write ⟨"note", rfl⟩ "color" "red",
    .select [⟨"label", rfl⟩, ⟨"price", rfl⟩],
    .remove ⟨"button", rfl⟩,
    .remove ⟨"button", rfl⟩,
    .insert (some ⟨"price", rfl⟩) ⟨⟨"label", rfl⟩, "Label", .text, none, none, none⟩]

theorem Table.isForest_cardEdits :
    ∃ t, (Start.snapshot cardPage).table = .ok t ∧ (t.editAll cardEdits).2.IsForest ∧
      (t.editAll cardEdits).1 =
        [.ok (), .error (.duplicateElement ⟨"label", rfl⟩),
          .error (.elementNotFound ⟨"ghost", rfl⟩), .ok (), .ok (), .ok (),
          .error (.elementNotFound ⟨"button", rfl⟩), .ok ()] ∧
      (t.editAll cardEdits).2.allElements =
        [⟨"card", rfl⟩, ⟨"price", rfl⟩, ⟨"label", rfl⟩, ⟨"note", rfl⟩] ∧
      (t.editAll cardEdits).2.selection = [⟨"price", rfl⟩] := by
  obtain ⟨t, htable⟩ : ∃ t, (Start.snapshot cardPage).table = .ok t := ⟨_, rfl⟩
  obtain ⟨hforest, -, d, hdocument, hanswers, hshows⟩ := Table.isForest_editAll htable cardEdits
  cases hdocument
  refine ⟨t, htable, hforest, ?_, ?_, ?_⟩
  · rw [hanswers]
    rfl
  · rw [hshows.allElements]
    rfl
  · rw [hshows.selection]
    rfl

end DesignMarkup
