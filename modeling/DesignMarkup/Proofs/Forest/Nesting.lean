import DesignMarkup.Proofs.Document.Nesting
import DesignMarkup.Proofs.Forest.Encoding
import DesignMarkup.Proofs.Forest.Induced

/-!
How deep forests nest.  The node of an element takes an object and the object of its attributes,
and the element itself takes as much in its document, because a tagged element has data stored on
it; so a forest nests no deeper than the document whose tags it holds.
-/

namespace DesignMarkup

theorem Json.nestingItems_append (left right : List Json) :
    nestingItems (left ++ right) = max (nestingItems left) (nestingItems right) := by
  induction left with
  | nil => simp [nestingItems]
  | cons item rest ih => simp [nestingItems, ih, Nat.max_assoc]

namespace ForestNode

theorem listToJson_append (left right : List ForestNode) :
    listToJson (left ++ right) = listToJson left ++ listToJson right := by
  induction left with
  | nil => rfl
  | cons node rest ih => simp [listToJson, ih]

theorem nesting_toJson_le {node : ForestNode} {depth : Nat} (hown : 2 ≤ depth)
    (hchildren : Json.nestingItems (listToJson node.children) + 2 ≤ depth) :
    node.toJson.nesting ≤ depth := by
  obtain ⟨depth, rfl⟩ := Nat.exists_eq_add_one.mpr (Nat.lt_of_lt_of_le Nat.two_pos hown)
  rw [toJson_eq, Json.nesting_ofFields_le_iff]
  apply forall_fields
  · intro s
    exact Nat.zero_le depth
  · intro texts _
    rw [Json.nesting_textObject]
    exact Nat.le_of_succ_le_succ hown
  · exact Nat.le_of_succ_le_succ hchildren

end ForestNode

namespace Forest

section Kept

variable {store : TagStore}

mutual

theorem nesting_kept_le {layer : Layer}
    (hdata : ∀ part ∈ layer.parts, store.contains part.id = true → part.data.isEmpty = false) :
    Json.nestingItems (ForestNode.listToJson (kept store layer)) ≤ layer.toJson.nesting := by
  match layer with
  | ⟨element, data, children⟩ =>
      rw [Layer.parts, List.forall_mem_cons] at hdata
      obtain ⟨hown, hroom⟩ :=
        (Layer.nesting_toJson_le_iff ⟨element, data, children⟩ _).mp (Nat.le_refl _)
      have hbelow := nesting_keptOfList_le hdata.2
      rw [kept]
      by_cases hcontains : store.contains element.id = true
      · obtain ⟨r, hr⟩ := exists_find?_of_contains hcontains
        have htwo : Layer.ownNesting ⟨element, data, children⟩ = 2 := by
          rw [Layer.ownNesting, if_neg]
          simp [hdata.1 hcontains]
        rw [htwo] at hown
        rw [keep_of_find? hr, ForestNode.listToJson, ForestNode.listToJson, Json.nestingItems,
          Json.nestingItems, Nat.max_zero]
        apply ForestNode.nesting_toJson_le hown
        rcases hroom with hnone | hroom
        · cases hnone
          exact hown
        · exact Nat.le_trans (Nat.add_le_add_right hbelow 2) hroom
      · rw [keep_of_not_contains hcontains]
        rcases hroom with hnone | hroom
        · cases hnone
          exact Nat.zero_le _
        · exact Nat.le_trans hbelow (Nat.le_of_add_right_le hroom)

/-- What is kept of layers nests no deeper than the layers, if data is stored on every element with
a record. -/
theorem nesting_keptOfList_le {layers : List Layer}
    (hdata : ∀ part ∈ Layer.partsOfList layers,
      store.contains part.id = true → part.data.isEmpty = false) :
    Json.nestingItems (ForestNode.listToJson (keptOfList store layers)) ≤
      Json.nestingItems (Layer.listToJson layers) := by
  match layers with
  | [] => exact Nat.le_refl 0
  | layer :: rest =>
      rw [Layer.partsOfList, List.forall_mem_append] at hdata
      have hlayer := nesting_kept_le hdata.1
      have hrest := nesting_keptOfList_le hdata.2
      rw [keptOfList, ForestNode.listToJson_append, Json.nestingItems_append, Layer.listToJson,
        Json.nestingItems]
      omega

end

end Kept

theorem nesting_toJson (forest : Forest) :
    forest.toJson.nesting = Json.nestingItems (ForestNode.listToJson forest.tree) + 2 := by
  simp [toJson, Json.nesting, Json.nestingMembers, ForestMetadata.toJson]

/-- The forest of the tags that are stored in a document nests no deeper than the document. -/
theorem nesting_build_load_le (host : Host) (metadata : ForestMetadata) :
    (build (TagStore.load host) host.document.outline metadata).toJson.nesting ≤
      host.document.toSnapshot.toJson.nesting := by
  rw [nesting_toJson, tree_build, Snapshot.nesting_toJson]
  exact Nat.add_le_add_right
    (nesting_keptOfList_le fun _ hpart hcontains => TagStore.isEmpty_data_of_contains_load
      (Document.layer?_eq_some_iff.mpr ⟨hpart, rfl⟩) hcontains) 2

end Forest
end DesignMarkup
