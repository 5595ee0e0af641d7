import DesignMarkup.Proofs.Command.Run
import DesignMarkup.Proofs.Markup.Classes

/-!
Checking.  The check walks over all nodes and names those that the markup leaves out and those that
keep others out; the markup is written from the top and stops below void elements.  The two agree:
nothing is named exactly if every node has its element.
-/

namespace DesignMarkup

/-- The number of elements in markup, at all depths. -/
def HtmlElement.countIn? (html : String) : Option Nat :=
  (HtmlElement.read? html).map fun elements => (openingsOfList elements).length

/-- The markup that is generated from nodes has an element for every one of them. -/
def GeneratedCode.Lossless (nodes : List MarkupNode) : Prop :=
  HtmlElement.countIn? (GeneratedCode.ofNodes nodes).html =
    some (MarkupNode.preorderList nodes).length

instance (nodes : List MarkupNode) : Decidable (GeneratedCode.Lossless nodes) :=
  inferInstanceAs (Decidable (_ = _))

theorem StyledNode.map_placed_placesBy {nodes : List StyledNode}
    {placed : List (MarkupNode × Bool)} (h : List.Forall₂ StandsFor nodes placed) :
    (placesBy placed nodes).map (fun place => (place.node, place.isWritten)) = placed := by
  induction h with
  | nil => rfl
  | cons _ _ ih => exact congrArg (_ :: ·) ih

namespace MarkupNode

section Written

variable (nodes : List MarkupNode)

/-- There are as many elements as nodes that are written. -/
theorem countIn?_html : HtmlElement.countIn? (GeneratedCode.ofNodes nodes).html =
    some (writtenPlaces nodes).length := by
  have hopenings := congrArg (Option.map List.length) (GeneratedCode.openings_html nodes)
  simpa [HtmlElement.countIn?, Function.comp_def] using hopenings

theorem map_placed_places :
    (places nodes).map (fun place => (place.node, place.isWritten)) = placedList true nodes := by
  rw [places_eq, StyledNode.map_placed_placesBy (StyledNode.standsFor_ofNodes nodes)]

/-- Nothing is lost exactly if every node is written. -/
theorem lossless_iff :
    GeneratedCode.Lossless nodes ↔ ∀ place ∈ placedList true nodes, place.2 = true := by
  have hlength : (preorderList nodes).length = (places nodes).length := by
    rw [← map_node_places, List.length_map]
  have hwritten : (∀ place ∈ places nodes, place.isWritten = true) ↔
      ∀ place ∈ placedList true nodes, place.2 = true := by
    rw [← map_placed_places, List.forall_mem_map]
  rw [GeneratedCode.Lossless, countIn?_html, Option.some.injEq, hlength, writtenPlaces,
    List.length_filter_eq_length_iff, hwritten]

end Written

section Problems

variable {node : MarkupNode} {path : List Nat}

/-- A node is fine when its tag is one and it does not stand above others where it is void. -/
theorem problem?_eq_none_iff : node.problem? path = none ↔
    Markup.isTag node.tag = true ∧ (Markup.isVoid node.tag = true → node.children = []) := by
  rw [problem?]
  by_cases htag : Markup.isTag node.tag = true
  · by_cases hvoid : Markup.isVoid node.tag = true <;> simp [htag, hvoid]
  · simp [htag]

/-- Below a void element every node is lost. -/
theorem forall_placedList_false_iff {nodes : List MarkupNode} :
    (∀ place ∈ placedList false nodes, place.2 = true) ↔ nodes = [] := by
  constructor
  · intro h
    rcases nodes with _ | ⟨node, rest⟩
    · rfl
    · have hfirst : (node, false) ∈ placedList false (node :: rest) := by
        cases node
        simp [placedList, placed]
      exact absurd (h _ hfirst) Bool.false_ne_true
  · rintro rfl
    exact List.forall_mem_nil _

mutual

/-- A tree has no problem exactly if all of it is written. -/
theorem problems_eq_nil_iff (path : List Nat) (node : MarkupNode) :
    node.problems path = [] ↔ ∀ place ∈ node.placed true, place.2 = true := by
  match node with
  | ⟨tag, name, attributes, styles, content, children⟩ =>
      rw [problems, placed, List.append_eq_nil_iff, Option.toList_eq_nil_iff,
        problem?_eq_none_iff, List.forall_mem_cons, Bool.true_and, Bool.true_and]
      -- The check goes on below a void element, where the markup stops: nothing may be there.
      by_cases hvoid : Markup.isVoid tag = true
      · rw [hvoid, Bool.not_true, forall_placedList_false_iff]
        constructor
        · rintro ⟨⟨htag, hchildren⟩, -⟩
          exact ⟨htag, hchildren rfl⟩
        · rintro ⟨htag, rfl⟩
          exact ⟨⟨htag, fun _ => rfl⟩, rfl⟩
      · rw [Bool.not_eq_true] at hvoid
        rw [hvoid, Bool.not_false, problemsFrom_eq_nil_iff path 0 children]
        simp

theorem problemsFrom_eq_nil_iff (path : List Nat) (place : Nat) (nodes : List MarkupNode) :
    problemsFrom path place nodes = [] ↔ ∀ place ∈ placedList true nodes, place.2 = true := by
  match nodes with
  | [] => simp [problemsFrom, placedList]
  | node :: rest =>
      rw [problemsFrom, placedList, List.append_eq_nil_iff, List.forall_mem_append,
        problems_eq_nil_iff _ node, problemsFrom_eq_nil_iff path (place + 1) rest]

end

theorem problemsOf_eq_nil_iff (nodes : List MarkupNode) :
    problemsOf nodes = [] ↔ GeneratedCode.Lossless nodes := by
  rw [problemsOf, problemsFrom_eq_nil_iff, lossless_iff]

end Problems

end MarkupNode

namespace Command

variable {path : String} {w : Workspace}

/-- The check fails for a file that no nodes are read from, and for nodes that have a problem. -/
theorem exitCode_runCheck : (w.run (runCheck path)).1.exitCode =
    match (w.source path).bind fun contents =>
      (MarkupNode.nodesOfText contents).mapError .badInput with
    | .error _ => 1
    | .ok nodes => if MarkupNode.problemsOf nodes = [] then 0 else 1 := by
  rw [Workspace.run, runCheck, StateT.run_bind, run_readSource]
  rcases w.source path with e | contents
  · rfl
  · dsimp only [bind, Except.bind]
    rcases MarkupNode.nodesOfText contents with e | nodes
    · rfl
    · dsimp only [Except.mapError]
      rcases MarkupNode.problemsOf nodes with _ | ⟨problem, rest⟩ <;> rfl

theorem exitCode_runCheck_eq_zero_iff : (w.run (runCheck path)).1.exitCode = 0 ↔
    ∃ contents nodes, w.read path = .text contents ∧
      MarkupNode.nodesOfText contents = .ok nodes ∧ MarkupNode.problemsOf nodes = [] := by
  simp only [exitCode_runCheck, ← Workspace.source_eq_ok_iff]
  rcases w.source path with e | contents
  · simp [Except.bind]
  · rcases hnodes : MarkupNode.nodesOfText contents with e | nodes <;>
      simp [Except.bind, Except.mapError, hnodes]

/-- Checking passes exactly what generates without loss: nodes have no problem if and only if the
markup has an element for each of them, and the command succeeds if and only if such nodes are read
from its file. -/
theorem check_passes_lossless :
    (∀ nodes : List MarkupNode, MarkupNode.problemsOf nodes = [] ↔
      HtmlElement.countIn? (GeneratedCode.ofNodes nodes).html =
        some (MarkupNode.preorderList nodes).length) ∧
    ∀ (w : Workspace) (path : String), (w.run (runCheck path)).1.exitCode = 0 ↔
      ∃ contents nodes, w.read path = .text contents ∧
        MarkupNode.nodesOfText contents = .ok nodes ∧ GeneratedCode.Lossless nodes := by
  refine ⟨fun nodes => MarkupNode.problemsOf_eq_nil_iff nodes, fun w path => ?_⟩
  simp only [exitCode_runCheck_eq_zero_iff, MarkupNode.problemsOf_eq_nil_iff]

/-- A node without a proper tag, above a break that stands above a word. -/
def lossyNodes : List MarkupNode :=
  [{ tag := "1st"
     elementName := "First"
     children :=
       [{ tag := "br"
          elementName := "Break"
          children := [{ tag := "b", elementName := "Word" }] }] }]

example : ¬ GeneratedCode.Lossless lossyNodes ∧
    MarkupNode.problemsOf lossyNodes =
      [.invalidTag [0] "First" "1st", .voidWithChildren [0, 0] "br" 1] := by
  decide +kernel

end Command
end DesignMarkup
