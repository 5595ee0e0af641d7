import DesignMarkup.Markup.Node

/-!
Reading markup nodes from JSON that was not written with care.  Every field may be missing or of
the wrong kind; only the outer shape of the input must be right.
-/

namespace DesignMarkup

/-- Why an input holds no markup nodes.  A single node that cannot be read counts as no JSON. -/
inductive MarkupError where
  | notJson
  | treeNotArray (found : Json)
  | noNodes (found : Json)

def MarkupError.message : MarkupError → String
  | notJson => "Codegen error: invalid input JSON"
  | treeNotArray found =>
      "Codegen error: expected \"tree\" to be a node array, found " ++ found.compact
  | noNodes found =>
      "Codegen error: expected a forest, a node array or a node, found " ++ found.compact

namespace MarkupNode

/-- A text, or the text of a truth value or number. -/
def looseText? : Json → Option String
  | .string s => some s
  | .bool b => some (if b then "true" else "false")
  | .number n => some n.text
  | _ => none

/-- The entries of an object that can be taken as texts. -/
def looseTexts : Json → OrderedMap String String
  | .object members =>
      .ofList (members.filterMap fun member => (looseText? member.2).map (member.1, ·))
  | _ => .empty

def fieldNames : List String :=
  ["tag", "elementName", "attributes", "styles", "layout", "content", "children"]

/-- The value of a field, `null` if it is missing. -/
def field (r : Json.Record) (name : String) : Json :=
  (OrderedMap.lookup name r.fields).getD .null

/-- The node of a record's plain values, given how the items among its children are read. -/
def ofFields (item? : Json → Option MarkupNode) (r : Json.Record) : MarkupNode where
  tag := (looseText? (field r "tag")).getD ""
  elementName := (looseText? (field r "elementName")).getD ""
  attributes := looseTexts (field r "attributes")
  styles := fillStyles (looseTexts (field r "styles")) (looseTexts (field r "layout")).entries
  content := looseText? (field r "content")
  children :=
    match field r "children" with
    | .array items => items.filterMap item?
    | _ => []

/-- A node read from a plain value, with at most `depth` levels of nodes. -/
def ofValueWithin? : (depth : Nat) → Json → Option MarkupNode
  | 0, _ => none
  | depth + 1, j => (j.record? fieldNames).map (ofFields (ofValueWithin? depth))

/-- A node read from a plain value.  Nodes lie in each other no deeper than arrays and objects
do. -/
def ofValue? (j : Json) : Option MarkupNode :=
  ofValueWithin? j.nesting j

/-- The nodes of a list; what is none is left out. -/
def ofItems (items : List Json) : List MarkupNode :=
  items.filterMap ofValue?

/-- A node read from a tree, in which a field must not be repeated and must have a value. -/
def ofJson? (j : Json) : Option MarkupNode := do
  let r ← j.record? fieldNames
  let fields ← Json.memberValues? r.fields
  return ofFields ofValue? { r with fields }

def ofText? (s : String) : Option MarkupNode :=
  (Json.read? s).bind ofJson?

/-- The nodes of a plain value: a forest, a list of nodes, or a node. -/
def nodesOfValue : Json → Except MarkupError (List MarkupNode)
  | .array items => .ok (ofItems items)
  | .object members =>
      match OrderedMap.lookup "tree" members with
      | some (.array items) => .ok (ofItems items)
      | some other => .error (.treeNotArray other)
      | none =>
          match ofValue? (.object members) with
          | some node => .ok [node]
          | none => .error .notJson
  | other => .error (.noNodes other)

/-- The nodes of a text: a forest, a list of nodes, or a node. -/
def nodesOfText (s : String) : Except MarkupError (List MarkupNode) :=
  match Json.readValue? s with
  | some j => nodesOfValue j
  | none => .error .notJson

end MarkupNode
end DesignMarkup
