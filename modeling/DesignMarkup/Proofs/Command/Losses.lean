import DesignMarkup.Proofs.Command.Check
import DesignMarkup.Proofs.Markup.Cursor

/-!
Announced losses.  The check names a node by its path and tells how many nodes it keeps out.  What
the markup has no element for is read off the nodes at their paths: a void element loses all that
is below it, but only its children are announced.
-/

namespace DesignMarkup

/-- A node at its path, and whether the markup has an element for it. -/
structure Located where
  path : List Nat
  node : MarkupNode
  isWritten : Bool

/-- What is wrong with the node at a path. -/
def Located.problem? (place : Located) : Option MarkupProblem :=
  place.node.problem? place.path

/-- The tags of the elements in markup, outer ones first. -/
def HtmlElement.tagsIn? (html : String) : Option (List String) :=
  (HtmlElement.read? html).map fun elements => (openingsOfList elements).map Prod.fst

/-- The path of the node that a problem is with. -/
def MarkupProblem.path : MarkupProblem → List Nat
  | invalidTag path _ _ => path
  | voidWithChildren path _ _ => path

namespace MarkupNode

mutual

/-- A node at a path and all below it, parents first.  `isOpen` tells that nothing void lies above
the node. -/
def located (isOpen : Bool) (path : List Nat) : MarkupNode → List Located
  | ⟨tag, name, attributes, styles, content, children⟩ =>
      ⟨path, ⟨tag, name, attributes, styles, content, children⟩, isOpen && Markup.isTag tag⟩ ::
        locatedFrom (isOpen && !Markup.isVoid tag) path 0 children

/-- The children of the node at a path, from a place on, and all below them. -/
def locatedFrom (isOpen : Bool) (path : List Nat) (place : Nat) : List MarkupNode → List Located
  | [] => []
  | node :: rest =>
      node.located isOpen (path ++ [place]) ++ locatedFrom isOpen path (place + 1) rest

end

/-- All nodes at their paths. -/
def locatedOf (nodes : List MarkupNode) : List Located :=
  locatedFrom true [] 0 nodes

/-- The nodes below a path that the markup has no element for. -/
def lostBelow (nodes : List MarkupNode) (path : List Nat) : List Located :=
  (locatedOf nodes).filter fun place =>
    path <+: place.path ∧ place.path ≠ path ∧ place.isWritten = false

section Placed

mutual

theorem map_placed_located (isOpen : Bool) (path : List Nat) (node : MarkupNode) :
    (node.located isOpen path).map (fun place => (place.node, place.isWritten)) =
      node.placed isOpen := by
  match node with
  | ⟨tag, name, attributes, styles, content, children⟩ =>
      rw [located, placed, List.map_cons, map_placed_locatedFrom]

theorem map_placed_locatedFrom (isOpen : Bool) (path : List Nat) (place : Nat)
    (nodes : List MarkupNode) :
    (locatedFrom isOpen path place nodes).map (fun place => (place.node, place.isWritten)) =
      placedList isOpen nodes := by
  match nodes with
  | [] => rfl
  | node :: rest =>
      rw [locatedFrom, placedList, List.map_append, map_placed_located isOpen _ node,
        map_placed_locatedFrom isOpen path (place + 1) rest]

end

/-- The elements of the markup are those of the written nodes, in the same order. -/
theorem tagsIn?_html (nodes : List MarkupNode) :
    HtmlElement.tagsIn? (GeneratedCode.ofNodes nodes).html =
      some (((locatedOf nodes).filter Located.isWritten).map fun place => place.node.tag) := by
  have hopenings := congrArg (Option.map (List.map Prod.fst)) (GeneratedCode.openings_html nodes)
  have hplaces := (map_placed_locatedFrom true [] 0 nodes).trans (map_placed_places nodes).symm
  have htags := congrArg (fun placed => (placed.filter Prod.snd).map fun pair => pair.1.tag) hplaces
  simp only [List.filter_map, List.map_map, Function.comp_def] at htags
  rw [Option.map_map, Option.map_some, List.map_map] at hopenings
  rw [locatedOf, htags]
  exact hopenings

theorem length_locatedFrom (isOpen : Bool) (path : List Nat) (place : Nat)
    (nodes : List MarkupNode) :
    (locatedFrom isOpen path place nodes).length = sizeOfList nodes := by
  rw [← length_placedList isOpen, ← map_placed_locatedFrom isOpen path place, List.length_map]

theorem not_written_locatedFrom (path : List Nat) (place : Nat) (nodes : List MarkupNode) :
    ∀ entry ∈ locatedFrom false path place nodes, entry.isWritten = false := by
  intro entry hentry
  apply not_written_placedList nodes (entry.node, entry.isWritten)
  rw [← map_placed_locatedFrom false path place]
  exact List.mem_map_of_mem hentry

end Placed

section Paths

/-- A path leads below one child only. -/
theorem place_unique {path other : List Nat} {i j : Nat} (hi : path ++ [i] <+: other)
    (hj : path ++ [j] <+: other) : i = j := by
  have hlies : path ++ [i] <+: path ++ [j] :=
    List.prefix_of_prefix_length_le hi hj (by simp)
  rw [List.prefix_append_right_inj] at hlies
  exact (List.cons_prefix_cons.mp hlies).1

mutual

theorem prefix_of_mem_located (isOpen : Bool) (path : List Nat) (node : MarkupNode) :
    ∀ place ∈ node.located isOpen path, path <+: place.path := by
  match node with
  | ⟨tag, name, attributes, styles, content, children⟩ =>
      rw [located, List.forall_mem_cons]
      constructor
      · exact List.prefix_rfl
      · intro place hplace
        obtain ⟨i, -, hlies⟩ := exists_prefix_of_mem_locatedFrom _ path 0 children place hplace
        exact (List.prefix_append path [i]).trans hlies

theorem exists_prefix_of_mem_locatedFrom (isOpen : Bool) (path : List Nat) (first : Nat)
    (nodes : List MarkupNode) :
    ∀ place ∈ locatedFrom isOpen path first nodes, ∃ i ≥ first, path ++ [i] <+: place.path := by
  match nodes with
  | [] => exact List.forall_mem_nil _
  | node :: rest =>
      rw [locatedFrom, List.forall_mem_append]
      constructor
      · intro place hplace
        exact ⟨first, Nat.le_refl first, prefix_of_mem_located isOpen _ node place hplace⟩
      · intro place hplace
        obtain ⟨i, hi, hlies⟩ :=
          exists_prefix_of_mem_locatedFrom isOpen path (first + 1) rest place hplace
        exact ⟨i, Nat.le_of_succ_le hi, hlies⟩

end

/-- What lies below a node has a longer path, under which the node does not lie. -/
theorem not_prefix_of_mem_locatedFrom {isOpen : Bool} {path : List Nat} {first : Nat}
    {nodes : List MarkupNode} {place : Located}
    (h : place ∈ locatedFrom isOpen path first nodes) : ¬ place.path <+: path := by
  intro hunder
  obtain ⟨i, -, hlies⟩ := exists_prefix_of_mem_locatedFrom isOpen path first nodes place h
  have hlength := (hlies.trans hunder).length_le
  rw [List.length_append, List.length_singleton] at hlength
  omega

theorem path_ne_of_mem_locatedFrom {isOpen : Bool} {path : List Nat} {first : Nat}
    {nodes : List MarkupNode} {place : Located}
    (h : place ∈ locatedFrom isOpen path first nodes) : place.path ≠ path := by
  intro hpath
  exact not_prefix_of_mem_locatedFrom h (hpath ▸ List.prefix_rfl)

-- The paths under a path are those of one subtree: the node above has a shorter path, and the trees
-- beside it begin with another place.
mutual

theorem filter_prefix_located (isOpen : Bool) (path : List Nat) (node : MarkupNode) :
    ∀ place ∈ node.located isOpen path, ∃ isOpen',
      place.isWritten = (isOpen' && Markup.isTag place.node.tag) ∧
      (node.located isOpen path).filter (fun other => place.path <+: other.path) =
        place.node.located isOpen' place.path := by
  match node with
  | ⟨tag, name, attributes, styles, content, children⟩ =>
      intro place hplace
      have hall := prefix_of_mem_located isOpen path
        ⟨tag, name, attributes, styles, content, children⟩
      rw [located, List.mem_cons] at hplace
      rcases hplace with rfl | hplace
      · refine ⟨isOpen, rfl, ?_⟩
        rw [List.filter_eq_self]
        intro other hother
        exact decide_eq_true (hall other hother)
      · obtain ⟨isOpen', hwritten, hfilter⟩ :=
          filter_prefix_locatedFrom _ path 0 children place hplace
        refine ⟨isOpen', hwritten, ?_⟩
        rw [located, List.filter_cons_of_neg, hfilter]
        rw [decide_eq_true_eq]
        exact not_prefix_of_mem_locatedFrom hplace

theorem filter_prefix_locatedFrom (isOpen : Bool) (path : List Nat) (first : Nat)
    (nodes : List MarkupNode) :
    ∀ place ∈ locatedFrom isOpen path first nodes, ∃ isOpen',
      place.isWritten = (isOpen' && Markup.isTag place.node.tag) ∧
      (locatedFrom isOpen path first nodes).filter (fun other => place.path <+: other.path) =
        place.node.located isOpen' place.path := by
  match nodes with
  | [] => exact List.forall_mem_nil _
  | node :: rest =>
      intro place hplace
      rw [locatedFrom, List.mem_append] at hplace
      rcases hplace with hplace | hplace
      · obtain ⟨isOpen', hwritten, hfilter⟩ := filter_prefix_located isOpen _ node place hplace
        have hpath := prefix_of_mem_located isOpen _ node place hplace
        have hrest : (locatedFrom isOpen path (first + 1) rest).filter
            (fun other => place.path <+: other.path) = [] := by
          rw [List.filter_eq_nil_iff]
          intro other hother hlies
          obtain ⟨i, hi, hother⟩ :=
            exists_prefix_of_mem_locatedFrom isOpen path (first + 1) rest other hother
          have hfirst := place_unique (hpath.trans (of_decide_eq_true hlies)) hother
          omega
        refine ⟨isOpen', hwritten, ?_⟩
        rw [locatedFrom, List.filter_append, hfilter, hrest, List.append_nil]
      · obtain ⟨isOpen', hwritten, hfilter⟩ :=
          filter_prefix_locatedFrom isOpen path (first + 1) rest place hplace
        obtain ⟨i, hi, hpath⟩ :=
          exists_prefix_of_mem_locatedFrom isOpen path (first + 1) rest place hplace
        have hbefore : (node.located isOpen (path ++ [first])).filter
            (fun other => place.path <+: other.path) = [] := by
          rw [List.filter_eq_nil_iff]
          intro other hother hlies
          have hother := prefix_of_mem_located isOpen _ node other hother
          have hfirst := place_unique (hpath.trans (of_decide_eq_true hlies)) hother
          omega
        refine ⟨isOpen', hwritten, ?_⟩
        rw [locatedFrom, List.filter_append, hfilter, hbefore, List.nil_append]

end

end Paths

section At

variable {nodes : List MarkupNode} {place : Located}

/-- What is asked of paths under that of a node is asked of the node and of those below it. -/
theorem exists_filter_locatedOf (h : place ∈ locatedOf nodes) : ∃ isOpen, ∀ p : Located → Bool,
      (∀ other, p other = true → place.path <+: other.path) →
        (locatedOf nodes).filter p =
          (place :: locatedFrom (isOpen && !Markup.isVoid place.node.tag) place.path 0
            place.node.children).filter p := by
  obtain ⟨isOpen, hwritten, hfilter⟩ := filter_prefix_locatedFrom true [] 0 nodes place h
  refine ⟨isOpen, fun p hp => ?_⟩
  have hsubtree : place.node.located isOpen place.path =
      place :: locatedFrom (isOpen && !Markup.isVoid place.node.tag) place.path 0
        place.node.children := by
    rcases place with ⟨path, ⟨tag, name, attributes, styles, content, children⟩, isWritten⟩
    rw [located, ← hwritten]
  rw [← hsubtree, ← hfilter, List.filter_filter, locatedOf]
  apply List.filter_congr
  intro other hother
  cases hother : p other with
  | true => exact (decide_eq_true (hp other hother)).symm
  | false => rfl

/-- No two nodes have the same path. -/
theorem filter_path_locatedOf (h : place ∈ locatedOf nodes) :
    (locatedOf nodes).filter (fun other => other.path = place.path) = [place] := by
  obtain ⟨isOpen, hfilter⟩ := exists_filter_locatedOf h
  have hbelow : (locatedFrom (isOpen && !Markup.isVoid place.node.tag) place.path 0
      place.node.children).filter (fun other => other.path = place.path) = [] := by
    rw [List.filter_eq_nil_iff]
    intro other hother hpath
    exact path_ne_of_mem_locatedFrom hother (of_decide_eq_true hpath)
  rw [hfilter, List.filter_cons, if_pos (decide_eq_true rfl), hbelow]
  intro other hpath
  exact (of_decide_eq_true hpath) ▸ List.prefix_rfl

/-- A void element loses all that is below it. -/
theorem lostBelow_of_void (h : place ∈ locatedOf nodes)
    (hvoid : Markup.isVoid place.node.tag = true) :
    lostBelow nodes place.path = locatedFrom false place.path 0 place.node.children := by
  obtain ⟨isOpen, hfilter⟩ := exists_filter_locatedOf h
  rw [lostBelow, hfilter, hvoid, Bool.not_true, Bool.and_false, List.filter_cons_of_neg,
    List.filter_eq_self]
  · intro other hother
    obtain ⟨i, -, hlies⟩ := exists_prefix_of_mem_locatedFrom false _ 0 _ other hother
    exact decide_eq_true ⟨(List.prefix_append _ _).trans hlies,
      path_ne_of_mem_locatedFrom hother, not_written_locatedFrom _ _ _ other hother⟩
  · simp
  · intro other hother
    exact (of_decide_eq_true hother).1

end At

section Problems

mutual

theorem problems_eq (isOpen : Bool) (path : List Nat) (node : MarkupNode) :
    node.problems path = (node.located isOpen path).filterMap Located.problem? := by
  match node with
  | ⟨tag, name, attributes, styles, content, children⟩ =>
      rw [problems, located, List.filterMap_cons, Located.problem?,
        problemsFrom_eq (isOpen && !Markup.isVoid tag) path 0 children]
      cases problem? path ⟨tag, name, attributes, styles, content, children⟩ <;> rfl

theorem problemsFrom_eq (isOpen : Bool) (path : List Nat) (place : Nat)
    (nodes : List MarkupNode) :
    problemsFrom path place nodes =
      (locatedFrom isOpen path place nodes).filterMap Located.problem? := by
  match nodes with
  | [] => rfl
  | node :: rest =>
      rw [problemsFrom, locatedFrom, List.filterMap_append, problems_eq isOpen _ node,
        problemsFrom_eq isOpen path (place + 1) rest]

end

/-- A problem is named by the path of its node. -/
theorem path_of_problem? {node : MarkupNode} {path : List Nat} {problem : MarkupProblem}
    (h : node.problem? path = some problem) : problem.path = path := by
  rw [problem?] at h
  split at h
  · cases h
    rfl
  · split at h
    · cases h
      rfl
    · cases h

/-- The problems that are named by the path of a node are those of the node. -/
theorem filter_path_problemsOf {nodes : List MarkupNode} {place : Located}
    (h : place ∈ locatedOf nodes) :
    (problemsOf nodes).filter (fun problem => problem.path = place.path) =
      place.problem?.toList := by
  have hown : (problemsOf nodes).filter (fun problem => problem.path = place.path) =
      ((locatedOf nodes).filter fun other => other.path = place.path).filterMap
        Located.problem? := by
    rw [problemsOf, problemsFrom_eq true, List.filter_filterMap, List.filterMap_filter, locatedOf]
    apply List.filterMap_congr
    intro other hother
    cases hproblem : other.problem? with
    | none => simp
    | some problem => simp [Option.filter, path_of_problem? hproblem]
  rw [hown, filter_path_locatedOf h, List.filterMap_cons]
  cases place.problem? <;> rfl

end Problems

section Sizes

theorem size_eq (node : MarkupNode) : node.size = sizeOfList node.children + 1 := by
  cases node
  rw [size]

theorem length_le_sizeOfList (nodes : List MarkupNode) : nodes.length ≤ sizeOfList nodes := by
  induction nodes with
  | nil => exact Nat.le_refl 0
  | cons node rest ih =>
      rw [List.length_cons, sizeOfList, size_eq]
      omega

theorem sizeOfList_eq_zero_iff (nodes : List MarkupNode) : sizeOfList nodes = 0 ↔ nodes = [] := by
  cases nodes with
  | nil => simp [sizeOfList]
  | cons node rest => simp [sizeOfList, size_eq]

/-- There are as many nodes at all depths as at the top exactly if nothing is below the top. -/
theorem length_eq_sizeOfList_iff (nodes : List MarkupNode) :
    nodes.length = sizeOfList nodes ↔ ∀ node ∈ nodes, node.children = [] := by
  induction nodes with
  | nil => simp [sizeOfList]
  | cons node rest ih =>
      have hle := length_le_sizeOfList rest
      rw [List.forall_mem_cons, ← ih, ← sizeOfList_eq_zero_iff, List.length_cons, sizeOfList,
        size_eq]
      omega

end Sizes

end MarkupNode

namespace Command

open MarkupNode (locatedOf lostBelow problemsOf sizeOfList)

/-- The markup has the elements of the written nodes, and none for anything below a void element.
For a void element above others, checking has one problem, which tells the number of its children:
as many as are lost below it only if none of them stands above others. -/
theorem announces_children {nodes : List MarkupNode} {place : Located}
    (hplace : place ∈ locatedOf nodes) (hvoid : Markup.isVoid place.node.tag = true)
    (hchildren : place.node.children ≠ []) :
    HtmlElement.tagsIn? (GeneratedCode.ofNodes nodes).html =
        some (((locatedOf nodes).filter Located.isWritten).map fun place => place.node.tag) ∧
      (lostBelow nodes place.path).length = sizeOfList place.node.children ∧
      (problemsOf nodes).filter (fun problem => problem.path = place.path) =
        [.voidWithChildren place.path place.node.tag place.node.children.length] ∧
      place.node.children.length ≤ (lostBelow nodes place.path).length ∧
      (place.node.children.length = (lostBelow nodes place.path).length ↔
        ∀ child ∈ place.node.children, child.children = []) := by
  have hlost : (lostBelow nodes place.path).length = sizeOfList place.node.children := by
    rw [MarkupNode.lostBelow_of_void hplace hvoid, MarkupNode.length_locatedFrom]
  have hproblem : place.problem? =
      some (.voidWithChildren place.path place.node.tag place.node.children.length) := by
    rw [Located.problem?, MarkupNode.problem?, Markup.isTag_of_isVoid hvoid, hvoid]
    simp [hchildren]
  refine ⟨MarkupNode.tagsIn?_html nodes, hlost, ?_, ?_, ?_⟩
  · rw [MarkupNode.filter_path_problemsOf hplace, hproblem]
    rfl
  · rw [hlost]
    exact MarkupNode.length_le_sizeOfList _
  · rw [hlost]
    exact MarkupNode.length_eq_sizeOfList_iff _

/-- An image above a figure, which has a caption. -/
def framedPhoto : MarkupNode where
  tag := "img"
  elementName := "Photo"
  children :=
    [{ tag := "figure"
       elementName := "Frame"
       children := [{ tag := "figcaption", elementName := "Caption" }] }]

theorem mem_locatedOf_framedPhoto : ⟨[0], framedPhoto, true⟩ ∈ locatedOf [framedPhoto] := by
  have htag : Markup.isTag framedPhoto.tag = true := by decide +kernel
  have hfirst : ⟨[0], framedPhoto, Markup.isTag framedPhoto.tag⟩ ∈ locatedOf [framedPhoto] :=
    List.mem_cons_self
  rwa [htag] at hfirst

theorem announces_children_framedPhoto :
    ⟨[0], framedPhoto, true⟩ ∈ locatedOf [framedPhoto] ∧
      Markup.isVoid framedPhoto.tag = true ∧ framedPhoto.children ≠ [] ∧
      HtmlElement.tagsIn? (GeneratedCode.ofNodes [framedPhoto]).html = some ["img"] ∧
      (lostBelow [framedPhoto] [0]).length = 2 ∧
      ((problemsOf [framedPhoto]).filter (fun problem => problem.path = [0])).map
        MarkupProblem.message = ["/0: <img> cannot have children; 1 will be dropped"] := by
  have hvoid : Markup.isVoid framedPhoto.tag = true := by decide +kernel
  have hchildren : framedPhoto.children ≠ [] := List.cons_ne_nil _ _
  obtain ⟨htags, hlost, hproblem, -⟩ :=
    announces_children mem_locatedOf_framedPhoto hvoid hchildren
  refine ⟨mem_locatedOf_framedPhoto, hvoid, hchildren, htags.trans ?_, hlost, ?_⟩
  · decide +kernel
  · rw [hproblem]
    decide +kernel

/-- The problem of a written void element does not always tell how many are lost below it. -/
theorem not_announces_lost :
    ¬ ∀ (nodes : List MarkupNode) (place : Located), place ∈ locatedOf nodes →
      place.isWritten = true → Markup.isVoid place.node.tag = true → place.node.children ≠ [] →
      (problemsOf nodes).filter (fun problem => problem.path = place.path) =
        [.voidWithChildren place.path place.node.tag (lostBelow nodes place.path).length] := by
  intro h
  have hvoid : Markup.isVoid framedPhoto.tag = true := by decide +kernel
  have hproblem := h _ _ mem_locatedOf_framedPhoto rfl hvoid (List.cons_ne_nil _ _)
  revert hproblem
  decide +kernel

end Command
end DesignMarkup
