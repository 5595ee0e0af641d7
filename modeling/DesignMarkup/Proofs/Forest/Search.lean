import DesignMarkup.Proofs.Forest.Induced
import Mathlib.Data.Set.Card

/-!
The walk over an outline that need not be a tree.  Elements may be listed below several others, more
than once or below themselves.  The walk ends all the same, since only an element that is visited
for the first time is walked below, and it keeps the elements with records in the order of their
first visits.
-/

namespace DesignMarkup

namespace Outline

/-- The elements with others listed below them that have not been visited. -/
def pending (o : Outline) (visited : List ElementId) : List ElementId :=
  o.branches.keys.filter (· ∉ visited)

section Pending

variable {o : Outline} {id : ElementId} {visited : List ElementId}

theorem children_eq_nil (h : id ∉ o.branches.keys) : o.children id = [] := by
  simp [children, OrderedMap.find?_eq_none_iff.mpr h]

theorem pending_cons (o : Outline) (id : ElementId) (visited : List ElementId) :
    o.pending (id :: visited) = (o.pending visited).filter (· ≠ id) := by
  simp [pending, List.filter_filter]

theorem length_pending_le {visited' : List ElementId} (h : visited ⊆ visited') :
    (o.pending visited').length ≤ (o.pending visited).length := by
  have hsublist : (o.pending visited').Sublist (o.pending visited) := by
    apply List.monotone_filter_right
    intro other hother
    simp only [decide_eq_true_eq] at hother ⊢
    exact fun hmem => hother (h hmem)
  exact hsublist.length_le

theorem length_pending_cons_lt (hkey : id ∈ o.branches.keys) (hnew : id ∉ visited) :
    (o.pending (id :: visited)).length < (o.pending visited).length := by
  rw [pending_cons, List.length_filter_lt_length_iff_exists]
  refine ⟨id, List.mem_filter.mpr ⟨hkey, decide_eq_true hnew⟩, ?_⟩
  simp

end Pending

/-- The elements found by a search from a stack, in the order of their first visits: an element
that was visited before is dropped, any other one is replaced by those right below it. -/
def search (o : Outline) (visited : List ElementId) : (stack : List ElementId) → List ElementId
  | [] => []
  | id :: stack =>
      if id ∈ visited then o.search visited stack
      else id :: o.search (id :: visited) (o.children id ++ stack)
termination_by stack => ((o.pending visited).length, stack.length)
decreasing_by
  · exact Prod.Lex.right _ (Nat.lt_succ_self _)
  · rename_i hnew
    by_cases hkey : id ∈ o.branches.keys
    · exact Prod.Lex.left _ _ (length_pending_cons_lt hkey hnew)
    · -- nothing is listed below the element, so that the stack gets shorter
      rw [children_eq_nil hkey, List.nil_append]
      have hle := length_pending_le (o := o) (List.subset_cons_self id visited)
      rcases Nat.lt_or_eq_of_le hle with hlt | heq
      · exact Prod.Lex.left _ _ hlt
      · rw [heq]
        exact Prod.Lex.right _ (Nat.lt_succ_self _)

/-- An element is at the top, or listed below one that can be reached. -/
def Reachable (o : Outline) (id : ElementId) : Prop :=
  ∃ root ∈ o.roots, Relation.ReflTransGen (fun above below => below ∈ o.children above) root id

section Search

variable {o : Outline}

theorem search_of_mem {visited : List ElementId} {id : ElementId} (h : id ∈ visited)
    (stack : List ElementId) : o.search visited (id :: stack) = o.search visited stack := by
  rw [search, if_pos h]

theorem search_of_not_mem {visited : List ElementId} {id : ElementId} (h : id ∉ visited)
    (stack : List ElementId) :
    o.search visited (id :: stack) = id :: o.search (id :: visited) (o.children id ++ stack) := by
  rw [search, if_neg h]

theorem search_fresh (visited stack : List ElementId) :
    (o.search visited stack).Nodup ∧ ∀ id ∈ o.search visited stack, id ∉ visited := by
  fun_induction search o visited stack with
  | case1 visited => simp
  | case2 visited id stack _ ih => exact ih
  | case3 visited id stack hnew ih =>
      obtain ⟨hnodup, hfresh⟩ := ih
      constructor
      · exact List.nodup_cons.mpr ⟨fun hmem => hfresh id hmem List.mem_cons_self, hnodup⟩
      · intro other hother
        rcases List.mem_cons.mp hother with rfl | hbelow
        · exact hnew
        · exact fun hmem => hfresh other hbelow (List.mem_cons_of_mem id hmem)

/-- What is found can be reached from the stack. -/
theorem exists_path_of_mem_search {visited stack : List ElementId} {found : ElementId}
    (h : found ∈ o.search visited stack) :
    ∃ id ∈ stack, Relation.ReflTransGen (fun above below => below ∈ o.children above) id found := by
  fun_induction search o visited stack with
  | case1 visited => cases h
  | case2 visited id stack _ ih =>
      obtain ⟨other, hother, hpath⟩ := ih h
      exact ⟨other, List.mem_cons_of_mem id hother, hpath⟩
  | case3 visited id stack _ ih =>
      rcases List.mem_cons.mp h with rfl | hbelow
      · exact ⟨found, List.mem_cons_self, .refl⟩
      · obtain ⟨other, hother, hpath⟩ := ih hbelow
        rcases List.mem_append.mp hother with hchild | hstack
        · exact ⟨id, List.mem_cons_self, .head hchild hpath⟩
        · exact ⟨other, List.mem_cons_of_mem id hstack, hpath⟩

/-- The stack is found, apart from what was visited before. -/
theorem mem_search_of_mem_stack {visited stack : List ElementId} {id : ElementId}
    (h : id ∈ stack) : id ∈ visited ∨ id ∈ o.search visited stack := by
  fun_induction search o visited stack with
  | case1 visited => cases h
  | case2 visited first stack hseen ih =>
      rcases List.mem_cons.mp h with rfl | hstack
      · exact .inl hseen
      · exact ih hstack
  | case3 visited first stack _ ih =>
      rcases List.mem_cons.mp h with rfl | hstack
      · exact .inr List.mem_cons_self
      · rcases ih (List.mem_append_right _ hstack) with hseen | hfound
        · rcases List.mem_cons.mp hseen with rfl | hbefore
          · exact .inr List.mem_cons_self
          · exact .inl hbefore
        · exact .inr (List.mem_cons_of_mem first hfound)

/-- What is listed below a found element is found, apart from what was visited before. -/
theorem mem_search_of_mem_children {visited stack : List ElementId} {found below : ElementId}
    (h : found ∈ o.search visited stack) (hbelow : below ∈ o.children found) :
    below ∈ visited ∨ below ∈ o.search visited stack := by
  fun_induction search o visited stack with
  | case1 visited => cases h
  | case2 visited id stack _ ih => exact ih h
  | case3 visited id stack _ ih =>
      have hlater : below ∈ id :: visited ∨
          below ∈ o.search (id :: visited) (o.children id ++ stack) := by
        rcases List.mem_cons.mp h with rfl | hfound
        · exact mem_search_of_mem_stack (List.mem_append_left _ hbelow)
        · exact ih hfound
      rcases hlater with hseen | hfound
      · rcases List.mem_cons.mp hseen with rfl | hbefore
        · exact .inr List.mem_cons_self
        · exact .inl hbefore
      · exact .inr (List.mem_cons_of_mem id hfound)

/-- A search from the top finds what can be reached. -/
theorem mem_search_roots_iff {id : ElementId} : id ∈ o.search [] o.roots ↔ o.Reachable id := by
  constructor
  · exact exists_path_of_mem_search
  · rintro ⟨root, hroot, hpath⟩
    induction hpath with
    | refl => exact (mem_search_of_mem_stack hroot).resolve_left List.not_mem_nil
    | tail _ hbelow ih => exact (mem_search_of_mem_children ih hbelow).resolve_left List.not_mem_nil

end Search
end Outline

namespace Forest

/-- The walk over elements, one after the other and without a bound on its depth, ends: from what
was visited before, it comes to what is visited then and to what is kept. -/
inductive Collects (store : TagStore) (o : Outline) :
    (visited ids visited' : List ElementId) → List ForestNode → Prop
  | done {visited : List ElementId} : Collects store o visited [] visited []
  | again {visited visited' rest : List ElementId} {id : ElementId} {kept : List ForestNode}
      (seen : id ∈ visited) (after : Collects store o visited rest visited' kept) :
      Collects store o visited (id :: rest) visited' kept
  | first {visited visited₁ visited₂ rest : List ElementId} {id : ElementId}
      {below kept : List ForestNode} (fresh : id ∉ visited)
      (inside : Collects store o (id :: visited) (o.children id) visited₁ below)
      (after : Collects store o visited₁ rest visited₂ kept) :
      Collects store o visited (id :: rest) visited₂ (keep store id below ++ kept)

/-- What the walk over an outline comes to. -/
structure Explored (store : TagStore) (o : Outline) (forest : Forest) : Prop where
  /-- The unbounded walk from the top ends, and it keeps this and nothing else. -/
  ends : ∀ tree, (∃ visited, Collects store o [] o.roots visited tree) ↔ tree = forest.tree
  ids_eq : forest.ids = (o.search [] o.roots).filter store.contains
  ids_nodup : forest.ids.Nodup
  nodeCount_eq : forest.nodeCount = Set.ncard {id | o.Reachable id ∧ store.contains id = true}

section Collects

variable {store : TagStore} {o : Outline}

theorem Collects.subset {visited ids visited' : List ElementId} {kept : List ForestNode}
    (h : Collects store o visited ids visited' kept) : visited ⊆ visited' := by
  induction h with
  | done => exact List.Subset.refl _
  | again _ _ ih => exact ih
  | first _ _ _ ihInside ihAfter =>
      exact List.Subset.trans (List.Subset.trans (List.subset_cons_self _ _) ihInside) ihAfter

theorem Collects.unique {visited ids left right : List ElementId} {kept other : List ForestNode}
    (hleft : Collects store o visited ids left kept)
    (hright : Collects store o visited ids right other) : left = right ∧ kept = other := by
  induction hleft generalizing right other with
  | done =>
      cases hright
      exact ⟨rfl, rfl⟩
  | again seen _ ih =>
      cases hright with
      | again _ after => exact ih after
      | first fresh _ _ => exact absurd seen fresh
  | first fresh _ _ ihInside ihAfter =>
      cases hright with
      | again seen _ => exact absurd seen fresh
      | first _ inside after =>
          obtain ⟨rfl, rfl⟩ := ihInside inside
          obtain ⟨rfl, rfl⟩ := ihAfter after
          exact ⟨rfl, rfl⟩

/-- A walk may go as many levels down as there are elements left to walk below, and one more. -/
theorem collects_collectList {depth : Nat} {visited : List ElementId}
    (hdepth : (o.pending visited).length < depth) (ids : List ElementId) :
    Collects store o visited ids (collectList (collect store o depth) visited ids).1
      (collectList (collect store o depth) visited ids).2 := by
  induction depth generalizing visited ids with
  | zero => exact absurd hdepth (Nat.not_lt_zero _)
  | succ depth ihDepth =>
      induction ids generalizing visited with
      | nil => exact .done
      | cons id rest ihRest =>
          by_cases hseen : id ∈ visited
          · simpa [collectList, collect, hseen] using Collects.again hseen (ihRest hdepth)
          · have hinside : Collects store o (id :: visited) (o.children id)
                (collectList (collect store o depth) (id :: visited) (o.children id)).1
                (collectList (collect store o depth) (id :: visited) (o.children id)).2 := by
              by_cases hkey : id ∈ o.branches.keys
              · have hlt := Outline.length_pending_cons_lt hkey hseen
                exact ihDepth (by omega) (o.children id)
              · rw [Outline.children_eq_nil hkey]
                exact .done
            have hmore := List.Subset.trans (List.subset_cons_self id visited) hinside.subset
            have hleft := Nat.lt_of_le_of_lt (Outline.length_pending_le hmore) hdepth
            simpa [collectList, collect, hseen] using Collects.first hseen hinside (ihRest hleft)

theorem idsOfList_keep (hfiled : store.Filed) (id : ElementId) (below : List ForestNode) :
    ForestNode.idsOfList (keep store id below) =
      [id].filter store.contains ++ ForestNode.idsOfList below := by
  by_cases hcontains : store.contains id = true
  · obtain ⟨r, hr⟩ := exists_find?_of_contains hcontains
    simp [keep_of_find? hr, hcontains, ForestNode.idsOfList, ForestNode.ids, ForestNode.ofRecord,
      hfiled _ _ hr]
  · simp [keep_of_not_contains hcontains, hcontains]

/-- What a walk visits is what a search from the same elements finds first, in the same order, and
it keeps those with records. -/
theorem Collects.search_eq (hfiled : store.Filed) {visited ids visited' : List ElementId}
    {kept : List ForestNode} (h : Collects store o visited ids visited' kept) :
    ∃ found, visited' = found.reverse ++ visited ∧
      ForestNode.idsOfList kept = found.filter store.contains ∧
      ∀ stack, o.search visited (ids ++ stack) = found ++ o.search visited' stack := by
  induction h with
  | done => exact ⟨[], rfl, rfl, fun _ => rfl⟩
  | @again visited visited' rest id kept seen _ ih =>
      obtain ⟨found, hvisited, hids, hsearch⟩ := ih
      refine ⟨found, hvisited, hids, fun stack => ?_⟩
      rw [List.cons_append, Outline.search_of_mem seen, hsearch]
  | @first visited visited₁ visited₂ rest id below kept fresh _ _ ihInside ihAfter =>
      obtain ⟨inside, hvisited₁, hbelow, hsearchInside⟩ := ihInside
      obtain ⟨after, hvisited₂, hkept, hsearchAfter⟩ := ihAfter
      refine ⟨id :: inside ++ after, ?_, ?_, fun stack => ?_⟩
      · simp [hvisited₂, hvisited₁]
      · simp only [ForestNode.idsOfList_append, idsOfList_keep hfiled, hbelow, hkept,
          ← List.filter_append, List.cons_append, List.nil_append]
      · calc o.search visited (id :: rest ++ stack)
            = id :: o.search (id :: visited) (o.children id ++ (rest ++ stack)) :=
              Outline.search_of_not_mem fresh _
          _ = id :: (inside ++ (after ++ o.search visited₂ stack)) := by
              rw [hsearchInside, hsearchAfter]
          _ = id :: inside ++ after ++ o.search visited₂ stack := by simp

end Collects

/-- Whatever an outline lists below what, the walk over it ends, keeps the elements with records in
the order of their first visits, each once, and counts those that can be reached. -/
theorem explored_build (store : TagStore) (o : Outline) (metadata : ForestMetadata)
    (hfiled : store.Filed) : Explored store o (build store o metadata) := by
  have hdepth : (o.pending []).length < o.height :=
    Nat.lt_succ_of_le ((List.length_filter_le _ _).trans_eq (List.length_map _))
  have hwalk : Collects store o [] o.roots _ _ := collects_collectList hdepth o.roots
  obtain ⟨found, -, hkept, hsearch⟩ := hwalk.search_eq hfiled
  have hfound : o.search [] o.roots = found := by
    simpa [Outline.search] using hsearch []
  have hids : (build store o metadata).ids = (o.search [] o.roots).filter store.contains := by
    rw [hfound]
    exact hkept
  have hnodup : (build store o metadata).ids.Nodup := by
    rw [hids]
    exact (Outline.search_fresh [] o.roots).1.filter _
  constructor
  case ends =>
    intro tree
    constructor
    · rintro ⟨visited, hother⟩
      exact (hother.unique hwalk).2
    · rintro rfl
      exact ⟨_, hwalk⟩
  case ids_eq => exact hids
  case ids_nodup => exact hnodup
  case nodeCount_eq =>
    have hset : {id | o.Reachable id ∧ store.contains id = true} =
        (build store o metadata).ids.toFinset := by
      ext id
      simp [hids, Outline.mem_search_roots_iff]
    rw [hset, Set.ncard_coe_finset, List.toFinset_card_of_nodup hnodup, nodeCount]

/-- A page that lists itself and a shared note; the note lists the page, and a frame is at the top
twice and lists the note. -/
def tangledOutline : Outline where
  roots := [⟨"frame", Eq.refl false⟩, ⟨"page", Eq.refl false⟩, ⟨"frame", Eq.refl false⟩]
  branches := .ofList
    [(⟨"frame", Eq.refl false⟩, [⟨"note", Eq.refl false⟩, ⟨"icon", Eq.refl false⟩]),
      (⟨"page", Eq.refl false⟩, [⟨"page", Eq.refl false⟩, ⟨"note", Eq.refl false⟩]),
      (⟨"note", Eq.refl false⟩, [⟨"page", Eq.refl false⟩])]

/-- Records of the page and of the note. -/
def tangledStore : TagStore :=
  (TagStore.empty.insert (.ofElement "main" .empty
    ⟨⟨"page", Eq.refl false⟩, "Page", .frame, none, none, none⟩)).insert
      (.ofElement "p" .empty ⟨⟨"note", Eq.refl false⟩, "Note", .text, none, none, none⟩)

theorem explored_build_tangledOutline :
    tangledStore.Filed ∧
      Explored tangledStore tangledOutline (build tangledStore tangledOutline {}) ∧
      (build tangledStore tangledOutline {}).ids = [⟨"note", rfl⟩, ⟨"page", rfl⟩] := by
  have hfiled : tangledStore.Filed := (TagStore.filed_empty.insert _).insert _
  refine ⟨hfiled, explored_build tangledStore tangledOutline {} hfiled, ?_⟩
  decide

end Forest
end DesignMarkup
