import DesignMarkup.Forest.Basic

/-!
Markup nodes: what the markup and the style sheet are generated from.
-/

namespace DesignMarkup

/-- A node to generate markup for.  Its styles are held by style key. -/
structure MarkupNode where
  tag : String
  elementName : String
  attributes : Properties := .empty
  styles : OrderedMap String String := .empty
  content : Option String := none
  children : List MarkupNode := []
deriving Inhabited

namespace MarkupNode

/-- Texts with those of a layout added under the keys that have none yet. -/
def fillStyles (styles : OrderedMap String String) (layout : List (String × String)) :
    OrderedMap String String :=
  layout.foldl (fun styles entry => styles.insertIfNew entry.1 entry.2) styles

/-- The entries of a bag that may be missing. -/
def bagEntries {keys : List String} : Option (Bag keys) → List (String × String)
  | some bag => bag.entries
  | none => []

mutual

/-- The markup node of an exported element.  Its layout counts where its styles say nothing. -/
def ofForestNode : ForestNode → MarkupNode
  | ⟨tag, _, name, _, attributes, content, styles, layout, children⟩ =>
      { tag := tag
        elementName := name
        attributes := attributes
        styles := fillStyles (.ofList (bagEntries styles)) (bagEntries layout)
        content := content
        children := ofForestNodes children }

def ofForestNodes : List ForestNode → List MarkupNode
  | [] => []
  | node :: rest => ofForestNode node :: ofForestNodes rest

end

/-- The markup nodes of a forest. -/
def ofForest (forest : Forest) : List MarkupNode :=
  ofForestNodes forest.tree

mutual

def toJson : MarkupNode → Json
  | ⟨tag, name, attributes, styles, content, children⟩ =>
      .ofFields [("tag", some (.string tag)), ("elementName", some (.string name)),
        ("attributes", some (.ofTexts attributes)), ("styles", some (.ofTexts styles)),
        ("content", content.map .string),
        ("children", if children.isEmpty then none else some (.array (listToJson children)))]

def listToJson : List MarkupNode → List Json
  | [] => []
  | node :: rest => node.toJson :: listToJson rest

end

mutual

/-- The nodes of a tree, parents first. -/
def preorder : MarkupNode → List MarkupNode
  | ⟨tag, name, attributes, styles, content, children⟩ =>
      ⟨tag, name, attributes, styles, content, children⟩ :: preorderList children

/-- The nodes of a list of trees, parents first. -/
def preorderList : List MarkupNode → List MarkupNode
  | [] => []
  | node :: rest => node.preorder ++ preorderList rest

end

def toText (node : MarkupNode) : String :=
  node.toJson.compact

end MarkupNode
end DesignMarkup
