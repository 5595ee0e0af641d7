import DesignMarkup.Proofs.Markup.Cursor
import DesignMarkup.Proofs.Markup.Emission

/-!
What lies below a void element is inert.  It is not written, it takes no class from the nodes after
it, and walks by position pass over all of it.
-/

namespace DesignMarkup
namespace MarkupNode

mutual

/-- A node with nothing below its void elements. -/
def emptyVoid : MarkupNode → MarkupNode
  | ⟨tag, name, attributes, styles, content, children⟩ =>
      ⟨tag, name, attributes, styles, content,
        if Markup.isVoid tag then [] else emptyVoids children⟩

def emptyVoids : List MarkupNode → List MarkupNode
  | [] => []
  | node :: rest => node.emptyVoid :: emptyVoids rest

end

theorem styles_emptyVoid (node : MarkupNode) : node.emptyVoid.styles = node.styles := by
  cases node
  rfl

theorem isEmpty_emptyVoids (nodes : List MarkupNode) :
    (emptyVoids nodes).isEmpty = nodes.isEmpty := by
  cases nodes <;> rfl

mutual

theorem children_of_mem_emptyVoid (node : MarkupNode) :
    ∀ below ∈ node.emptyVoid.preorder, Markup.isVoid below.tag = true → below.children = [] := by
  match node with
  | ⟨tag, name, attributes, styles, content, children⟩ =>
      have hchildren := children_of_mem_emptyVoids children
      simp only [emptyVoid, preorder, List.forall_mem_cons]
      by_cases hvoid : Markup.isVoid tag = true
      · simp [hvoid, preorderList]
      · simpa [hvoid] using hchildren

theorem children_of_mem_emptyVoids (nodes : List MarkupNode) :
    ∀ below ∈ preorderList (emptyVoids nodes),
      Markup.isVoid below.tag = true → below.children = [] := by
  match nodes with
  | [] =>
      intro below hbelow
      cases hbelow
  | node :: rest =>
      simp only [emptyVoids, preorderList, List.forall_mem_append]
      exact ⟨children_of_mem_emptyVoid node, children_of_mem_emptyVoids rest⟩

end

mutual

/-- Nodes come to the same with nothing below their void elements. -/
theorem emission_emptyVoid (taken : List String) (node : MarkupNode) :
    emission taken [node.emptyVoid] = (emission taken [node]).mapNode emptyVoid := by
  match node with
  | ⟨tag, name, attributes, styles, content, children⟩ =>
      by_cases hvoid : Markup.isVoid tag = true
      · simp [emptyVoid, emission_of_void _ _ _ _ _ _ hvoid, Emission.mapNode, Place.mapNode, hvoid]
      · rw [Bool.not_eq_true] at hvoid
        by_cases htag : Markup.isTag tag = true
        · have hbelow := emission_emptyVoids
            (StyledNode.takenBelow tag name styles taken) children
          simp [emptyVoid, emission_of_tag _ _ _ _ _ _ htag hvoid, hbelow, Emission.mapNode,
            Place.mapNode, hvoid, isEmpty_emptyVoids]
        · rw [Bool.not_eq_true] at htag
          simpa [emptyVoid, emission_of_not_tag _ _ _ _ _ _ htag, hvoid] using
            emission_emptyVoids taken children

theorem emission_emptyVoids (taken : List String) (nodes : List MarkupNode) :
    emission taken (emptyVoids nodes) = (emission taken nodes).mapNode emptyVoid := by
  match nodes with
  | [] => rfl
  | node :: rest =>
      have hnode := emission_emptyVoid taken node
      have hrest := emission_emptyVoids (emission taken [node]).taken rest
      calc
        emission taken (node.emptyVoid :: emptyVoids rest)
        _ = (emission taken [node.emptyVoid]).append
              (emission (emission taken [node.emptyVoid]).taken (emptyVoids rest)) :=
            emission_cons taken _ _
        _ = ((emission taken [node]).mapNode emptyVoid).append
              ((emission (emission taken [node]).taken rest).mapNode emptyVoid) := by
            rw [hnode, ← hrest]
            rfl
        _ = ((emission taken [node]).append
              (emission (emission taken [node]).taken rest)).mapNode emptyVoid :=
            (Emission.append_mapNode _ _ _).symm
        _ = (emission taken (node :: rest)).mapNode emptyVoid := by rw [← emission_cons]

end

end MarkupNode

namespace GeneratedCode

open MarkupNode (emptyVoid emptyVoids writtenPlaces)

/-- What nodes have in common with the same nodes with nothing below their void elements. -/
structure VoidsInert (nodes : List MarkupNode) : Prop where
  /-- Nothing is left below void elements. -/
  children : ∀ node ∈ MarkupNode.preorderList (emptyVoids nodes),
    Markup.isVoid node.tag = true → node.children = []
  /-- The same nodes are written, in the same order and with the same classes. -/
  writtenPlaces : writtenPlaces (emptyVoids nodes) =
    (writtenPlaces nodes).map (Place.mapNode emptyVoid)
  /-- The code is the same. -/
  code : ofNodes (emptyVoids nodes) = ofNodes nodes
  /-- The walks by position write the same code, although they pass over another number of nodes. -/
  byPosition : byPosition (emptyVoids nodes) = byPosition nodes

/-- What lies below void elements makes no difference to the code. -/
theorem voids_inert (nodes : List MarkupNode) : VoidsInert nodes := by
  have hemission := MarkupNode.emission_emptyVoids [] nodes
  have hcode : ofNodes (emptyVoids nodes) = ofNodes nodes := by
    rw [ofNodes_eq_iff, hemission]
    exact ⟨rfl, Emission.css_mapNode MarkupNode.styles_emptyVoid _⟩
  constructor
  case children => exact MarkupNode.children_of_mem_emptyVoids nodes
  case writtenPlaces => exact congrArg Emission.places hemission
  case code => exact hcode
  case byPosition => rw [byPosition_eq, byPosition_eq, hcode]

end GeneratedCode

end DesignMarkup
