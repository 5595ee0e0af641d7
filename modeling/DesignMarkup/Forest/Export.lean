import DesignMarkup.Forest.Encoding
import DesignMarkup.Outline
import DesignMarkup.Tag.Store

/-!
The forest of a store over an outline.  The walk goes through the outline parents first and meets
no element twice; an element without a record leaves its place to what was kept below it.
-/

namespace DesignMarkup
namespace Forest

/-- What is kept of an element: its node, or the nodes below it when it has no record. -/
def keep (store : TagStore) (id : ElementId) (below : List ForestNode) : List ForestNode :=
  match store.find? id with
  | some r => [ForestNode.ofRecord r below]
  | none => below

/-- Walk elements one after the other.  The result holds what has been visited by then and what
is kept. -/
def collectList
    (visit : List ElementId → ElementId → List ElementId × List ForestNode)
    (visited : List ElementId) : List ElementId → List ElementId × List ForestNode
  | [] => (visited, [])
  | id :: rest =>
      let (visited, kept) := visit visited id
      let (visited, keptRest) := collectList visit visited rest
      (visited, kept ++ keptRest)

/-- Walk an element that was not visited yet, at most `depth` levels down. -/
def collect (store : TagStore) (o : Outline) :
    (depth : Nat) → (visited : List ElementId) → ElementId → List ElementId × List ForestNode
  | 0, visited, _ => (visited, [])
  | depth + 1, visited, id =>
      if id ∈ visited then (visited, [])
      else
        let (visited, below) := collectList (collect store o depth) (id :: visited) (o.children id)
        (visited, keep store id below)

/-- The forest of the elements that have a record, each under its nearest ancestor that has one. -/
def build (store : TagStore) (o : Outline) (metadata : ForestMetadata) : Forest where
  metadata := metadata
  tree := (collectList (collect store o o.height) [] o.roots).2

end Forest
end DesignMarkup
