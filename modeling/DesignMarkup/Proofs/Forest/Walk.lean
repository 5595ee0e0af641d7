import DesignMarkup.Forest.Export
import DesignMarkup.Proofs.Document.Tree

/-!
The walk over the outline of a document visits every element once, and what it keeps of a layer is
what recursion over the layer keeps.
-/

namespace DesignMarkup
namespace Forest

mutual

/-- What is kept of a layer and of all below it. -/
def kept (store : TagStore) : Layer → List ForestNode
  | ⟨element, _, children⟩ => keep store element.id (keptOfList store children)

def keptOfList (store : TagStore) : List Layer → List ForestNode
  | [] => []
  | layer :: rest => kept store layer ++ keptOfList store rest

end

section Walk

variable {o : Outline} (store : TagStore)

mutual

/-- The walk from a layer that has not been visited yet. -/
theorem collect_layer {layer : Layer} (hbranches : ∀ b ∈ layer.branches, o.children b.1 = b.2)
    {depth : Nat} (hdepth : layer.ids.length ≤ depth) (hnodup : layer.ids.Nodup)
    {visited : List ElementId} (hfresh : ∀ id ∈ layer.ids, id ∉ visited) :
    collect store o depth visited layer.id = (layer.ids.reverse ++ visited, kept store layer) := by
  match layer, depth with
  | ⟨element, data, children⟩, 0 => simp [Layer.ids] at hdepth
  | ⟨element, data, children⟩, depth + 1 =>
      rw [Layer.ids, List.length_cons, Nat.add_le_add_iff_right] at hdepth
      rw [Layer.ids, List.nodup_cons] at hnodup
      rw [Layer.ids, List.forall_mem_cons] at hfresh
      rw [Layer.branches, List.forall_mem_cons] at hbranches
      have hbelow : ∀ id ∈ Layer.idsOfList children, id ∉ element.id :: visited := by
        intro id hid hmem
        rcases List.mem_cons.mp hmem with rfl | hvisited
        · exact hnodup.1 hid
        · exact hfresh.2 id hid hvisited
      have hchildren := collectList_layers hbranches.2 hdepth hnodup.2 hbelow
      rw [Layer.id, collect, if_neg hfresh.1, hbranches.1, hchildren]
      simp [Layer.ids, kept]

theorem collectList_layers {layers : List Layer}
    (hbranches : ∀ b ∈ Layer.branchesOfList layers, o.children b.1 = b.2)
    {depth : Nat} (hdepth : (Layer.idsOfList layers).length ≤ depth)
    (hnodup : (Layer.idsOfList layers).Nodup)
    {visited : List ElementId} (hfresh : ∀ id ∈ Layer.idsOfList layers, id ∉ visited) :
    collectList (collect store o depth) visited (layers.map Layer.id) =
      ((Layer.idsOfList layers).reverse ++ visited, keptOfList store layers) := by
  match layers with
  | [] => rfl
  | layer :: rest =>
      rw [Layer.idsOfList, List.length_append] at hdepth
      rw [Layer.idsOfList, List.nodup_append] at hnodup
      rw [Layer.idsOfList, List.forall_mem_append] at hfresh
      rw [Layer.branchesOfList, List.forall_mem_append] at hbranches
      have hlayer := collect_layer hbranches.1 (Nat.le_trans (Nat.le_add_right _ _) hdepth)
        hnodup.1 hfresh.1
      have hrestFresh : ∀ id ∈ Layer.idsOfList rest, id ∉ layer.ids.reverse ++ visited := by
        intro id hid hmem
        rcases List.mem_append.mp hmem with hother | hvisited
        · exact hnodup.2.2 id (List.mem_reverse.mp hother) id hid rfl
        · exact hfresh.2 id hid hvisited
      have hrest := collectList_layers hbranches.2 (Nat.le_trans (Nat.le_add_left _ _) hdepth)
        hnodup.2.1 hrestFresh
      rw [List.map_cons, collectList, hlayer]
      simp [hrest, Layer.idsOfList, keptOfList]

end

end Walk

/-- The forest of a document is what recursion over its layers keeps. -/
theorem tree_build (store : TagStore) (d : Document) (metadata : ForestMetadata) :
    (build store d.outline metadata).tree = keptOfList store d.layers := by
  have hdepth : (Layer.idsOfList d.layers).length ≤ d.outline.height := by
    rw [← Layer.map_fst_branchesOfList, List.length_map]
    exact Nat.le_succ _
  have hbranches : ∀ b ∈ Layer.branchesOfList d.layers, d.outline.children b.1 = b.2 := by
    intro b hb
    exact Document.children_outline hb
  have hfresh : ∀ id ∈ Layer.idsOfList d.layers, id ∉ [] := by
    intro id _
    exact List.not_mem_nil
  have hwalk := collectList_layers store hbranches hdepth d.ids_nodup hfresh
  rw [build]
  exact congrArg Prod.snd hwalk

/-- Stores with the same records under the same elements give the same forest. -/
theorem build_congr {store other : TagStore} (h : ∀ id, other.find? id = store.find? id)
    (o : Outline) (metadata : ForestMetadata) :
    build other o metadata = build store o metadata := by
  have hkeep : keep other = keep store := by
    funext id below
    rw [keep, keep, h id]
  have hcollect : collect other o = collect store o := by
    funext depth
    induction depth with
    | zero => rfl
    | succ depth ih =>
        funext visited id
        rw [collect, collect, ih, hkeep]
  rw [build, build, hcollect]

end Forest
end DesignMarkup
