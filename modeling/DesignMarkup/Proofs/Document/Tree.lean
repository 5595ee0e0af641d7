import DesignMarkup.Proofs.Document.Storage
import Mathlib.Data.List.Nodup
import Mathlib.Logic.Relation

/-!
The tree of a document.  Since identifiers are distinct, the chains of elements right below each
other are the same as the layers that lie within each other.
-/

namespace DesignMarkup

namespace Layer

mutual

/-- A layer and all below it, parents first. -/
def parts : Layer → List Layer
  | ⟨element, data, children⟩ => ⟨element, data, children⟩ :: partsOfList children

def partsOfList : List Layer → List Layer
  | [] => []
  | layer :: rest => layer.parts ++ partsOfList rest

end

theorem parts_eq (layer : Layer) : layer.parts = layer :: partsOfList layer.children := by
  cases layer
  rfl

mutual

theorem map_id_parts (layer : Layer) : layer.parts.map id = layer.ids := by
  match layer with
  | ⟨element, data, children⟩ => simp [parts, ids, id, map_id_partsOfList children]

theorem map_id_partsOfList (layers : List Layer) :
    (partsOfList layers).map id = idsOfList layers := by
  match layers with
  | [] => rfl
  | layer :: rest =>
      simp [partsOfList, idsOfList, map_id_parts layer, map_id_partsOfList rest]

end

theorem mem_idsOfList {x : ElementId} {layers : List Layer} :
    x ∈ idsOfList layers ↔ ∃ part ∈ partsOfList layers, part.id = x := by
  rw [← map_id_partsOfList, List.mem_map]

mutual

theorem mem_parts_of_find? {x : ElementId} {layer found : Layer} (h : layer.find? x = some found) :
    found ∈ layer.parts := by
  match layer with
  | ⟨element, data, children⟩ =>
      rw [find?] at h
      split at h
      · rw [← Option.some.inj h]
        exact List.mem_cons_self
      · exact List.mem_cons_of_mem _ (mem_partsOfList_of_findInList? h)

theorem mem_partsOfList_of_findInList? {x : ElementId} {layers : List Layer} {found : Layer}
    (h : findInList? x layers = some found) : found ∈ partsOfList layers := by
  match layers with
  | [] => simp [findInList?] at h
  | layer :: rest =>
      rw [findInList?] at h
      split at h
      · rename_i other heq
        rw [← Option.some.inj h]
        exact List.mem_append_left _ (mem_parts_of_find? heq)
      · exact List.mem_append_right _ (mem_partsOfList_of_findInList? h)

end

/-- Where identifiers are distinct, a part is determined by its identifier. -/
theorem part_unique {layers : List Layer} (hnodup : (idsOfList layers).Nodup) {left right : Layer}
    (hleft : left ∈ partsOfList layers) (hright : right ∈ partsOfList layers)
    (hid : left.id = right.id) : left = right := by
  rw [← map_id_partsOfList] at hnodup
  exact List.inj_on_of_nodup_map hnodup hleft hright hid

/-- Where identifiers are distinct, the part with an identifier is the one that is found. -/
theorem findInList?_eq_some_iff {layers : List Layer} (hnodup : (idsOfList layers).Nodup)
    {x : ElementId} {part : Layer} :
    findInList? x layers = some part ↔ part ∈ partsOfList layers ∧ part.id = x := by
  constructor
  · intro h
    exact ⟨mem_partsOfList_of_findInList? h, id_of_findInList? h⟩
  · rintro ⟨hpart, hid⟩
    have hmem : x ∈ idsOfList layers := mem_idsOfList.mpr ⟨part, hpart, hid⟩
    have hsome := (findInList?_isSome_iff x layers).mpr hmem
    obtain ⟨found, hfound⟩ := Option.isSome_iff_exists.mp hsome
    have hsame := part_unique hnodup (mem_partsOfList_of_findInList? hfound) hpart
      ((id_of_findInList? hfound).trans hid.symm)
    rw [hfound, hsame]

mutual

theorem partsOfList_children_subset {layer part : Layer} (h : part ∈ layer.parts) :
    partsOfList part.children ⊆ partsOfList layer.children := by
  match layer with
  | ⟨element, data, children⟩ =>
      rcases List.mem_cons.mp h with rfl | hbelow
      · exact List.Subset.refl _
      · exact partsOfList_children_subset_of_list hbelow

theorem partsOfList_children_subset_of_list {layers : List Layer} {part : Layer}
    (h : part ∈ partsOfList layers) : partsOfList part.children ⊆ partsOfList layers := by
  match layers with
  | [] => simp [partsOfList] at h
  | layer :: rest =>
      rcases List.mem_append.mp h with hlayer | hrest
      · have hsubset := partsOfList_children_subset hlayer
        intro below hbelow
        rw [partsOfList, parts_eq]
        exact List.mem_append_left _ (List.mem_cons_of_mem _ (hsubset hbelow))
      · exact List.subset_append_of_subset_right _ (partsOfList_children_subset_of_list hrest)

end

theorem mem_partsOfList_of_mem {layers : List Layer} {layer : Layer} (h : layer ∈ layers) :
    layer ∈ partsOfList layers := by
  induction layers with
  | nil => cases h
  | cons first rest ih =>
      rw [partsOfList, parts_eq]
      rcases List.mem_cons.mp h with rfl | hrest
      · exact List.mem_append_left _ List.mem_cons_self
      · exact List.mem_append_right _ (ih hrest)

theorem mem_partsOfList_of_mem_children {layers : List Layer} {upper below : Layer}
    (hupper : upper ∈ partsOfList layers) (hbelow : below ∈ upper.children) :
    below ∈ partsOfList layers :=
  partsOfList_children_subset_of_list hupper (mem_partsOfList_of_mem hbelow)

mutual

theorem ids_sublist_of_mem_parts {layer part : Layer} (h : part ∈ layer.parts) :
    part.ids.Sublist layer.ids := by
  match layer with
  | ⟨element, data, children⟩ =>
      rcases List.mem_cons.mp h with rfl | hbelow
      · exact List.Sublist.refl _
      · exact (ids_sublist_of_mem_partsOfList hbelow).trans (List.sublist_cons_self _ _)

/-- The identifiers within a part are listed, in their order, within the whole. -/
theorem ids_sublist_of_mem_partsOfList {layers : List Layer} {part : Layer}
    (h : part ∈ partsOfList layers) : part.ids.Sublist (idsOfList layers) := by
  match layers with
  | [] => cases h
  | layer :: rest =>
      rcases List.mem_append.mp h with hlayer | hrest
      · exact (ids_sublist_of_mem_parts hlayer).trans (List.sublist_append_left _ _)
      · exact (ids_sublist_of_mem_partsOfList hrest).trans (List.sublist_append_right _ _)

end

/-- The identifier `x` is that of a layer that has `y` somewhere below it. -/
def Over (layers : List Layer) (x y : ElementId) : Prop :=
  ∃ part ∈ partsOfList layers, part.id = x ∧ y ∈ idsOfList part.children

theorem not_over_nil {x y : ElementId} : ¬ Over [] x y := by
  rintro ⟨part, hpart, -⟩
  cases hpart

theorem over_cons_iff {layer : Layer} {rest : List Layer} {x y : ElementId} :
    Over (layer :: rest) x y ↔
      (layer.id = x ∧ y ∈ idsOfList layer.children) ∨ Over layer.children x y ∨ Over rest x y := by
  simp only [Over, partsOfList, parts_eq, List.cons_append, List.mem_cons, List.mem_append,
    or_and_right, exists_or, exists_eq_left]

theorem Over.trans {layers : List Layer} (hnodup : (idsOfList layers).Nodup) {x y z : ElementId}
    (hxy : Over layers x y) (hyz : Over layers y z) : Over layers x z := by
  obtain ⟨upper, hupper, hx, hy⟩ := hxy
  obtain ⟨lower, hlower, hlowerId, hz⟩ := hyz
  obtain ⟨below, hbelow, hbelowId⟩ := mem_idsOfList.mp hy
  have hinside : below ∈ partsOfList layers :=
    partsOfList_children_subset_of_list hupper hbelow
  have hsame := part_unique hnodup hlower hinside (hlowerId.trans hbelowId.symm)
  rw [hsame] at hz
  obtain ⟨last, hlast, hlastId⟩ := mem_idsOfList.mp hz
  have hlastUpper := partsOfList_children_subset_of_list hbelow hlast
  exact ⟨upper, hupper, hx, mem_idsOfList.mpr ⟨last, hlastUpper, hlastId⟩⟩

/-- The identifier `y` is right below `x`. -/
def RightOver (layers : List Layer) (x y : ElementId) : Prop :=
  ∃ part ∈ partsOfList layers, part.id = x ∧ y ∈ part.children.map id

theorem id_mem_idsOfList {layers : List Layer} {layer : Layer} (h : layer ∈ layers) :
    layer.id ∈ idsOfList layers := by
  induction layers with
  | nil => cases h
  | cons first rest ih =>
      rw [idsOfList, ids_eq]
      rcases List.mem_cons.mp h with rfl | hrest
      · exact List.mem_append_left _ List.mem_cons_self
      · exact List.mem_append_right _ (ih hrest)

theorem RightOver.over {layers : List Layer} {x y : ElementId} (h : RightOver layers x y) :
    Over layers x y := by
  obtain ⟨part, hpart, hx, hy⟩ := h
  obtain ⟨child, hchild, rfl⟩ := List.mem_map.mp hy
  exact ⟨part, hpart, hx, id_mem_idsOfList hchild⟩

section Parent

variable {x y : ElementId}

mutual

theorem exists_part_of_parentOf? {layer : Layer} (h : layer.parentOf? y = some x) :
    ∃ part ∈ layer.parts, part.id = x ∧ y ∈ part.children.map id := by
  match layer with
  | ⟨element, data, children⟩ =>
      rw [parentOf?] at h
      split at h
      · rename_i hchild
        exact ⟨_, List.mem_cons_self, Option.some.inj h, hchild⟩
      · obtain ⟨part, hpart, hfound⟩ := rightOver_of_parentInList? h
        exact ⟨part, List.mem_cons_of_mem _ hpart, hfound⟩

/-- The parent that is found has the identifier right below it. -/
theorem rightOver_of_parentInList? {layers : List Layer} (h : parentInList? y layers = some x) :
    RightOver layers x y := by
  match layers with
  | [] => cases h
  | layer :: rest =>
      rw [parentInList?] at h
      split at h
      · rename_i found heq
        rw [Option.some.inj h] at heq
        obtain ⟨part, hpart, hfound⟩ := exists_part_of_parentOf? heq
        exact ⟨part, List.mem_append_left _ hpart, hfound⟩
      · obtain ⟨part, hpart, hfound⟩ := rightOver_of_parentInList? h
        exact ⟨part, List.mem_append_right _ hpart, hfound⟩

end

mutual

theorem exists_parentOf?_eq {layer part : Layer} (hpart : part ∈ layer.parts)
    (hchild : y ∈ part.children.map id) : ∃ above, layer.parentOf? y = some above := by
  match layer with
  | ⟨element, data, children⟩ =>
      rw [parentOf?]
      split
      · exact ⟨_, rfl⟩
      · rename_i hnotChild
        rcases List.mem_cons.mp hpart with rfl | hbelow
        · exact absurd hchild hnotChild
        · exact exists_parentInList?_eq ⟨part, hbelow, rfl, hchild⟩

/-- A parent is found for each identifier that is right below another one. -/
theorem exists_parentInList?_eq {layers : List Layer} {x : ElementId} (h : RightOver layers x y) :
    ∃ above, parentInList? y layers = some above := by
  obtain ⟨part, hpart, -, hchild⟩ := h
  match layers with
  | [] => cases hpart
  | layer :: rest =>
      rw [parentInList?]
      split
      · exact ⟨_, rfl⟩
      · rename_i hnone
        rcases List.mem_append.mp hpart with hlayer | hrest
        · obtain ⟨found, hfound⟩ := exists_parentOf?_eq hlayer hchild
          rw [hnone] at hfound
          cases hfound
        · exact exists_parentInList?_eq ⟨part, hrest, rfl, hchild⟩

end

end Parent

section Chain

variable {layers : List Layer}

mutual

theorem chain_below {layer : Layer} (hlayer : layer.parts ⊆ partsOfList layers) {y : ElementId}
    (hy : y ∈ idsOfList layer.children) : Relation.TransGen (RightOver layers) layer.id y := by
  match layer with
  | ⟨element, data, children⟩ =>
      have hself : ⟨element, data, children⟩ ∈ partsOfList layers := hlayer List.mem_cons_self
      refine chain_belowList ?_ ?_ hy
      · exact List.Subset.trans (List.subset_cons_self _ _) hlayer
      · intro child hchild
        exact ⟨_, hself, rfl, List.mem_map_of_mem hchild⟩

theorem chain_belowList {below : List Layer} (hbelow : partsOfList below ⊆ partsOfList layers)
    {x : ElementId} (hright : ∀ child ∈ below, RightOver layers x child.id) {y : ElementId}
    (hy : y ∈ idsOfList below) : Relation.TransGen (RightOver layers) x y := by
  match below with
  | [] => simp [idsOfList] at hy
  | child :: rest =>
      have hfirst := hright child List.mem_cons_self
      rw [idsOfList, ids_eq, List.cons_append, List.mem_cons, List.mem_append] at hy
      rw [partsOfList, List.append_subset] at hbelow
      rcases hy with rfl | hchild | hrest
      · exact .single hfirst
      · exact .head hfirst (chain_below hbelow.1 hchild)
      · refine chain_belowList hbelow.2 ?_ hrest
        intro other hother
        exact hright other (List.mem_cons_of_mem _ hother)

end

/-- To lie below is to be reached by going right below, again and again. -/
theorem transGen_rightOver_iff (hnodup : (idsOfList layers).Nodup) {x y : ElementId} :
    Relation.TransGen (RightOver layers) x y ↔ Over layers x y := by
  constructor
  · intro h
    induction h with
    | single hright => exact hright.over
    | tail _ hright ih => exact ih.trans hnodup hright.over
  · rintro ⟨part, hpart, rfl, hy⟩
    refine chain_below ?_ hy
    rw [parts_eq]
    exact List.cons_subset.mpr ⟨hpart, partsOfList_children_subset_of_list hpart⟩

end Chain
end Layer

namespace Document

/-- The element `x` lies above the element `y`, any number of levels. -/
def Above (d : Document) : ElementId → ElementId → Prop :=
  Relation.TransGen fun x y => y ∈ d.children x

theorem layer?_eq_some_iff {d : Document} {id : ElementId} {layer : Layer} :
    d.layer? id = some layer ↔ layer ∈ Layer.partsOfList d.layers ∧ layer.id = id :=
  Layer.findInList?_eq_some_iff d.ids_nodup

theorem mem_children_iff {d : Document} {x y : ElementId} :
    y ∈ d.children x ↔ Layer.RightOver d.layers x y := by
  rw [children]
  split
  · rename_i part hpart
    obtain ⟨hmem, hid⟩ := layer?_eq_some_iff.mp hpart
    constructor
    · intro hy
      exact ⟨part, hmem, hid, hy⟩
    · rintro ⟨other, hother, hotherId, hy⟩
      rwa [Layer.part_unique d.ids_nodup hmem hother (hid.trans hotherId.symm)]
  · rename_i hnone
    constructor
    · intro hy
      cases hy
    · rintro ⟨part, hpart, hid, -⟩
      rw [layer?_eq_some_iff.mpr ⟨hpart, hid⟩] at hnone
      cases hnone

theorem children_outline {d : Document} {branch : ElementId × List ElementId}
    (h : branch ∈ Layer.branchesOfList d.layers) : d.outline.children branch.1 = branch.2 := by
  have hfind : d.outline.branches.find? branch.1 = some branch.2 := OrderedMap.mem_entries_iff.mp h
  rw [Outline.children, hfind, Option.getD_some]

theorem above_iff {d : Document} {x y : ElementId} : d.Above x y ↔ Layer.Over d.layers x y := by
  have hright : (fun x y => y ∈ d.children x) = Layer.RightOver d.layers := by
    funext x y
    exact propext mem_children_iff
  rw [Above, hright, Layer.transGen_rightOver_iff d.ids_nodup]

end Document
end DesignMarkup
