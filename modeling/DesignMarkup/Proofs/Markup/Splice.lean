import DesignMarkup.Proofs.Markup.Emission

/-!
Nodes whose tag is none, against the same nodes spliced: with the children of each of those in its
place.  Classes and style sheet are the same, and so is the markup but for one case.  An element
whose children all go without leaving anything in their place has no children once they are
spliced, and is written with its text; before, it is written as an element around nothing.
-/

namespace DesignMarkup
namespace MarkupNode

mutual

/-- What a node leaves once it is spliced: itself around its spliced children, or these alone if its
tag is none. -/
def spliced : MarkupNode → List MarkupNode
  | ⟨tag, name, attributes, styles, content, children⟩ =>
      if Markup.isTag tag then [⟨tag, name, attributes, styles, content, splicedList children⟩]
      else splicedList children

def splicedList : List MarkupNode → List MarkupNode
  | [] => []
  | node :: rest => node.spliced ++ splicedList rest

end

/-- A node with its children spliced. -/
def spliceBelow (node : MarkupNode) : MarkupNode :=
  { node with children := splicedList node.children }

/-- An element that may have children and has some, but none below it has a tag. -/
def IsHollow (node : MarkupNode) : Prop :=
  Markup.isVoid node.tag = false ∧ node.children ≠ [] ∧
    ∀ below ∈ preorderList node.children, Markup.isTag below.tag = false

theorem preorderList_append (left right : List MarkupNode) :
    preorderList (left ++ right) = preorderList left ++ preorderList right := by
  induction left with
  | nil => rfl
  | cons node rest ih => simp [preorderList, ih]

mutual

theorem preorderList_spliced (node : MarkupNode) :
    preorderList node.spliced =
      (node.preorder.filter fun below => Markup.isTag below.tag).map spliceBelow := by
  match node with
  | ⟨tag, name, attributes, styles, content, children⟩ =>
      have hchildren := preorderList_splicedList children
      by_cases htag : Markup.isTag tag = true
      · simp [spliced, htag, preorder, preorderList, hchildren, spliceBelow]
      · simp [spliced, htag, preorder, hchildren]

/-- The nodes that are left are those with a tag, in the same order. -/
theorem preorderList_splicedList (nodes : List MarkupNode) :
    preorderList (splicedList nodes) =
      ((preorderList nodes).filter fun node => Markup.isTag node.tag).map spliceBelow := by
  match nodes with
  | [] => rfl
  | node :: rest =>
      simp only [splicedList, preorderList, preorderList_append, preorderList_spliced node,
        preorderList_splicedList rest, List.filter_append, List.map_append]

end

theorem preorderList_eq_nil {nodes : List MarkupNode} : preorderList nodes = [] ↔ nodes = [] := by
  match nodes with
  | [] => simp [preorderList]
  | ⟨_, _, _, _, _, _⟩ :: _ => simp [preorderList, preorder]

/-- Nothing is left of nodes if none of them and none below them has a tag. -/
theorem splicedList_eq_nil {nodes : List MarkupNode} :
    splicedList nodes = [] ↔ ∀ node ∈ preorderList nodes, Markup.isTag node.tag = false := by
  rw [← preorderList_eq_nil, preorderList_splicedList, List.map_eq_nil_iff, List.filter_eq_nil_iff]
  simp only [Bool.not_eq_true]

theorem isHollow_iff {node : MarkupNode} :
    node.IsHollow ↔ Markup.isVoid node.tag = false ∧ node.children ≠ [] ∧
      splicedList node.children = [] := by
  rw [IsHollow, splicedList_eq_nil]

end MarkupNode

namespace Emission

/-- What spliced nodes come to, by what the nodes come to: the elements correspond, and they are the
same unless a hollow one is among them. -/
structure Splices (spliced original : Emission) : Prop where
  taken : spliced.taken = original.taken
  places : spliced.places = original.places.map (Place.mapNode MarkupNode.spliceBelow)
  length : spliced.elements.length = original.elements.length
  elements_iff : spliced.elements = original.elements ↔
    ∀ place ∈ original.places, ¬ place.node.IsHollow

theorem Splices.append {spliced original spliced' original' : Emission}
    (h : Splices spliced original) (h' : Splices spliced' original') :
    Splices (spliced.append spliced') (original.append original') where
  taken := h'.taken
  places := by simp only [Emission.append, List.map_append, h.places, h'.places]
  length := by simp only [Emission.append, List.length_append, h.length, h'.length]
  elements_iff := by
    simp only [Emission.append, List.forall_mem_append, ← h.elements_iff, ← h'.elements_iff]
    exact ⟨fun heq => List.append_inj heq h.length, fun heq => congrArg₂ _ heq.1 heq.2⟩

end Emission

namespace MarkupNode

-- A node may leave any number of nodes, so the two sides are matched by what they come to and not
-- node by node.  The lengths carry the induction: they split an equation between elements of a list
-- of nodes into equations between the elements of each.
mutual

theorem emission_spliced (taken : List String) (node : MarkupNode) :
    (emission taken node.spliced).Splices (emission taken [node]) := by
  match node with
  | ⟨tag, name, attributes, styles, content, children⟩ =>
      by_cases hvoid : Markup.isVoid tag = true
      · have htag := Markup.isTag_of_isVoid hvoid
        simp only [spliced, htag, if_true, emission_of_void _ _ _ _ _ _ hvoid]
        exact ⟨rfl, rfl, rfl, by simp [IsHollow, hvoid]⟩
      · rw [Bool.not_eq_true] at hvoid
        by_cases htag : Markup.isTag tag = true
        · have hbelow := emission_splicedList (StyledNode.takenBelow tag name styles taken) children
          simp only [spliced, htag, if_true, emission_of_tag _ _ _ _ _ _ htag hvoid]
          refine ⟨hbelow.taken, ?_, rfl, ?_⟩
          · rw [hbelow.places]
            rfl
          · simp only [List.forall_mem_cons, ← hbelow.elements_iff]
            simp only [isHollow_iff]
            -- A text on both sides, a text against a parent, or parents on both sides.
            by_cases hchildren : children = []
            · simp [hchildren, splicedList]
            · by_cases hleft : splicedList children = []
              · simp [hchildren, hleft, hvoid]
              · simp [hchildren, hleft]
        · rw [Bool.not_eq_true] at htag
          have hbelow := emission_splicedList taken children
          simpa [spliced, htag, emission_of_not_tag _ _ _ _ _ _ htag] using hbelow

theorem emission_splicedList (taken : List String) (nodes : List MarkupNode) :
    (emission taken (splicedList nodes)).Splices (emission taken nodes) := by
  match nodes with
  | [] => exact ⟨rfl, rfl, rfl, by simp [splicedList, emission_nil]⟩
  | node :: rest =>
      have hnode := emission_spliced taken node
      have hrest := emission_splicedList (emission taken [node]).taken rest
      rw [splicedList, emission_append, emission_cons, hnode.taken]
      exact hnode.append hrest

end

end MarkupNode

namespace GeneratedCode

open MarkupNode (splicedList spliceBelow writtenPlaces)

/-- What nodes have in common with the same nodes spliced. -/
structure SpliceKeeps (nodes : List MarkupNode) : Prop where
  /-- The nodes that are left are those with a tag, in the same order. -/
  preorderList : MarkupNode.preorderList (splicedList nodes) =
    ((MarkupNode.preorderList nodes).filter fun node => Markup.isTag node.tag).map spliceBelow
  /-- The same nodes are written, in the same order and with the same classes. -/
  writtenPlaces : writtenPlaces (splicedList nodes) =
    (writtenPlaces nodes).map (Place.mapNode spliceBelow)
  /-- The style sheet is the same. -/
  css : (ofNodes (splicedList nodes)).css = (ofNodes nodes).css
  /-- The markup opens the same elements in the same order. -/
  openings : (HtmlElement.read? (ofNodes (splicedList nodes)).html).map HtmlElement.openingsOfList =
    (HtmlElement.read? (ofNodes nodes).html).map HtmlElement.openingsOfList
  /-- The code is the same exactly if no written node has children, but none with a tag below it. -/
  code_iff : ofNodes (splicedList nodes) = ofNodes nodes ↔
    ∀ place ∈ MarkupNode.writtenPlaces nodes, ¬ place.node.IsHollow

/-- Splicing makes a difference to hollow elements alone. -/
theorem splice_keeps (nodes : List MarkupNode) : SpliceKeeps nodes := by
  have hsplices := MarkupNode.emission_splicedList [] nodes
  have hplaces : writtenPlaces (splicedList nodes) =
      (writtenPlaces nodes).map (Place.mapNode spliceBelow) :=
    hsplices.places
  have hcss : (MarkupNode.emission [] (splicedList nodes)).css =
      (MarkupNode.emission [] nodes).css := by
    have hstyles : ∀ node, (spliceBelow node).styles = node.styles := fun _ => rfl
    rw [← Emission.css_mapNode hstyles (MarkupNode.emission [] nodes), Emission.css,
      hsplices.places]
    rfl
  constructor
  case preorderList => exact MarkupNode.preorderList_splicedList nodes
  case writtenPlaces => exact hplaces
  case css => rw [css_ofNodes, css_ofNodes, hcss]
  case openings =>
    simp only [openings_html, hplaces, List.map_map]
    rfl
  case code_iff =>
    rw [ofNodes_eq_iff, and_iff_left hcss]
    exact hsplices.elements_iff

/-- A card whose only child has no tag. -/
def hollowCard : MarkupNode :=
  { tag := "div", elementName := "Card", children := [{ tag := "", elementName := "Note" }] }

/-- The card is written around nothing; spliced, it is written with its name as its text. -/
theorem spliced_ne_hollowCard :
    (ofNodes [hollowCard]).html = "<div>\n</div>" ∧
      (ofNodes (splicedList [hollowCard])).html = "<div>Card</div>" ∧
      ofNodes (splicedList [hollowCard]) ≠ ofNodes [hollowCard] := by
  decide +kernel

end GeneratedCode

end DesignMarkup
