import DesignMarkup.Tag.Record

/-!
Export forests: the tagged elements of a document, each under its nearest tagged ancestor, with a
heading that says where they come from.
-/

namespace DesignMarkup

/-- The heading of a forest. -/
structure ForestMetadata where
  pluginName : String := ""
  version : String := ""
  exportDate : String := ""
  fileName : String := ""
  pageName : String := ""
deriving DecidableEq, Repr, Inhabited

/-- A tagged element with the tagged elements below it. -/
structure ForestNode where
  tag : String
  elementId : ElementId
  elementName : String
  elementType : Option ElementKind
  attributes : Properties
  content : Option String
  styles : Option StyleBag
  layout : Option LayoutBag
  children : List ForestNode

/-- The tagged elements of a document. -/
structure Forest where
  metadata : ForestMetadata := {}
  tree : List ForestNode := []
deriving Inhabited

namespace ForestNode

/-- The node of a record. -/
def ofRecord (r : TagRecord) (children : List ForestNode) : ForestNode where
  tag := r.tag
  elementId := r.elementId
  elementName := r.elementName
  elementType := r.elementType
  attributes := r.properties
  content := r.content
  styles := r.styles
  layout := r.layout
  children := children

mutual

/-- The identifiers of a node and of all below it, parents first. -/
def ids : ForestNode → List ElementId
  | ⟨_, id, _, _, _, _, _, _, children⟩ => id :: idsOfList children

def idsOfList : List ForestNode → List ElementId
  | [] => []
  | node :: rest => node.ids ++ idsOfList rest

end

/-- The number of nodes at all depths. -/
def count (node : ForestNode) : Nat :=
  node.ids.length

end ForestNode

namespace Forest

def isEmpty (forest : Forest) : Bool :=
  forest.tree.isEmpty

/-- The identifiers in a forest, parents first. -/
def ids (forest : Forest) : List ElementId :=
  ForestNode.idsOfList forest.tree

/-- The number of nodes at all depths. -/
def nodeCount (forest : Forest) : Nat :=
  forest.ids.length

end Forest
end DesignMarkup
