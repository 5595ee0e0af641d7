import DesignMarkup.Proofs.Document.Walk
import DesignMarkup.Proofs.Forest.Search
import Mathlib.Computability.StateTransition

/-!
Depth-first traversals of outlines in which elements may be shared.  Where no cycle can be reached
the loop over a stack comes to an end.  What it lists is the recursive pre-order, which has one
entry for each path down from the element, in the order of the paths.
-/

namespace DesignMarkup.Outline

open Relation (ReflTransGen TransGen)

/-- An element has another one right below it. -/
def RightAbove (o : Outline) (above below : ElementId) : Prop :=
  below ∈ o.children above

/-- No element that can be reached from a given one lies below itself. -/
def AcyclicFrom (o : Outline) (id : ElementId) : Prop :=
  ∀ reached, ReflTransGen o.RightAbove id reached → ¬ TransGen o.RightAbove reached reached

/-- The state of a traversal: the elements that are still to be listed, the next one last, and those
that have been listed. -/
structure Traversal where
  stack : List ElementId
  listed : List ElementId

/-- One turn of the loop: the last element of the stack is listed, and those right below it are put
on the stack in reverse order.  With an empty stack there is none. -/
def turn (o : Outline) (t : Traversal) : Option Traversal :=
  t.stack.getLast?.map fun next =>
    ⟨t.stack.dropLast ++ (o.children next).reverse, t.listed ++ [next]⟩

/-- The element at the end of a path: a place in a list of elements, then a place right below the
element that was come to, and so on. -/
def atPath? (o : Outline) (ids : List ElementId) : List Nat → Option ElementId
  | [] => none
  | place :: rest =>
      ids[place]?.bind fun id => if rest.isEmpty then some id else o.atPath? (o.children id) rest

/-- The paths down from a list of elements are these, and their ends are listed in the order of the
paths, a path before its continuations. -/
structure Enumerates (o : Outline) (ids : List ElementId) (paths : List (List Nat))
    (listed : List ElementId) : Prop where
  sorted : paths.Pairwise (· < ·)
  mem_iff : ∀ path, path ∈ paths ↔ (o.atPath? ids path).isSome = true
  ends : paths.map (o.atPath? ids) = listed.map some

/-- What the traversal below an element comes to. -/
structure Traversed (o : Outline) (id : ElementId) : Prop where
  /-- The loop ends, and it has listed the descendants by then. -/
  loop : StateTransition.eval o.turn ⟨(o.children id).reverse, []⟩ =
    Part.some ⟨[], o.descendants id⟩
  /-- Each element right below is followed by what the same recursion gives below it. -/
  recursion : o.descendants id = (o.children id).flatMap fun child => child :: o.descendants child
  /-- There is one entry for each path down. -/
  paths : ∃ paths, o.Enumerates (o.children id) paths (o.descendants id)

section Loop

variable {o : Outline}

theorem turn_reverse_cons (id : ElementId) (stack listed : List ElementId) :
    o.turn ⟨(id :: stack).reverse, listed⟩ =
      some ⟨(o.children id ++ stack).reverse, listed ++ [id]⟩ := by
  simp [turn]

theorem Walks.unique {stack left right : List ElementId} (hleft : Walks o stack left)
    (hright : Walks o stack right) : left = right := by
  have hwalk := walk_eq hleft (Nat.le_max_left left.length right.length)
  exact hwalk.symm.trans (walk_eq hright (Nat.le_max_right left.length right.length))

/-- The loop turns until nothing is left on the stack: the stack of the walk stands on it in
reverse, and what the walk lists is added to what was listed. -/
theorem Walks.reaches {stack found : List ElementId} (h : Walks o stack found)
    (listed : List ElementId) :
    StateTransition.Reaches o.turn ⟨stack.reverse, listed⟩ ⟨[], listed ++ found⟩ := by
  induction h generalizing listed with
  | done =>
      rw [List.reverse_nil, List.append_nil]
      exact ReflTransGen.refl
  | @step id stack found _ ih =>
      have hnext := ih (listed ++ [id])
      rw [List.append_assoc, List.singleton_append] at hnext
      exact ReflTransGen.head (turn_reverse_cons id stack listed) hnext

theorem Walks.eval_turn {stack found : List ElementId} (h : Walks o stack found) :
    StateTransition.eval o.turn ⟨stack.reverse, []⟩ = Part.some ⟨[], found⟩ := by
  apply Part.eq_some_iff.mpr
  exact StateTransition.mem_eval.mpr ⟨h.reaches [], rfl⟩

end Loop

section Acyclic

variable {o : Outline} {id : ElementId}

theorem AcyclicFrom.child (h : o.AcyclicFrom id) {child : ElementId}
    (hchild : child ∈ o.children id) : o.AcyclicFrom child :=
  fun reached hreached => h reached (ReflTransGen.head hchild hreached)

/-- Walks of at most some length from each of a list of elements are a walk from all of them. -/
theorem exists_walks_of_each {ids : List ElementId} {bound : Nat}
    (h : ∀ id ∈ ids, ∃ found, Walks o (o.children id) found ∧ found.length < bound) :
    ∃ found, Walks o ids found ∧ found.length ≤ ids.length * bound := by
  induction ids with
  | nil => exact ⟨[], .done, Nat.zero_le _⟩
  | cons id rest ih =>
      obtain ⟨⟨below, hbelow, hlength⟩, hrest⟩ := List.forall_mem_cons.mp h
      obtain ⟨after, hafter, hlengthAfter⟩ := ih hrest
      refine ⟨id :: (below ++ after), .step (hbelow.append hafter), ?_⟩
      simp only [List.length_cons, List.length_append, Nat.succ_mul]
      omega

/-- A walk on which no element comes back ends.  The elements with others below them get fewer from
level to level, so it lists less than a full tree of that height has leaves. -/
theorem exists_walks {visited : List ElementId} (hacyclic : o.AcyclicFrom id)
    (hfresh : ∀ reached, ReflTransGen o.RightAbove id reached → reached ∉ visited) :
    ∃ found, Walks o (o.children id) found ∧
      found.length < (o.breadth + 1) ^ (o.pending visited).length := by
  -- By the number of elements that have others below them and have not come yet.
  induction hheight : (o.pending visited).length using Nat.strong_induction_on
      generalizing id visited with
  | h height ih =>
      by_cases hkey : id ∈ o.branches.keys
      · have hlower := length_pending_cons_lt hkey (hfresh id .refl)
        have hbelow : ∀ child ∈ o.children id, ∃ found, Walks o (o.children child) found ∧
            found.length < (o.breadth + 1) ^ (o.pending (id :: visited)).length := by
          intro child hchild
          refine ih _ (hheight ▸ hlower) (hacyclic.child hchild) ?_ rfl
          intro reached hreached hmem
          rcases List.mem_cons.mp hmem with rfl | hseen
          · exact hacyclic reached .refl (TransGen.head' hchild hreached)
          · exact hfresh reached (ReflTransGen.head hchild hreached) hseen
        obtain ⟨found, hfound, hlength⟩ := exists_walks_of_each hbelow
        refine ⟨found, hfound, ?_⟩
        calc found.length
            ≤ o.breadth * (o.breadth + 1) ^ (o.pending (id :: visited)).length :=
              hlength.trans (Nat.mul_le_mul_right _ (length_children_le_breadth o id))
          _ < (o.breadth + 1) ^ (o.pending (id :: visited)).length * (o.breadth + 1) := by
              rw [Nat.mul_succ, Nat.mul_comm]
              exact Nat.lt_add_of_pos_right (Nat.pow_pos (Nat.succ_pos _))
          _ ≤ (o.breadth + 1) ^ height :=
              Nat.pow_le_pow_right (Nat.succ_pos _) (hheight ▸ hlower)
      · refine ⟨[], ?_, Nat.pow_pos (Nat.succ_pos _)⟩
        simpa [children_eq_nil hkey] using Walks.done

/-- Where no cycle can be reached the bound on the walk never cuts it off. -/
theorem walks_descendants (h : o.AcyclicFrom id) : Walks o (o.children id) (o.descendants id) := by
  have hfresh : ∀ reached, ReflTransGen o.RightAbove id reached → reached ∉ [] :=
    fun _ _ => List.not_mem_nil
  obtain ⟨found, hfound, hlength⟩ := exists_walks h hfresh
  have hpending : (o.pending []).length ≤ o.height + 1 :=
    ((List.length_filter_le _ _).trans_eq (List.length_map _)).trans (Nat.le_add_right _ 2)
  have hbound : found.length ≤ o.walkBound :=
    hlength.le.trans (Nat.pow_le_pow_right (Nat.succ_pos _) hpending)
  rw [descendants, walk_eq hfound hbound]
  exact hfound

theorem walks_flatMap {ids : List ElementId} (h : ∀ id ∈ ids, o.AcyclicFrom id) :
    Walks o ids (ids.flatMap fun id => id :: o.descendants id) := by
  induction ids with
  | nil => exact .done
  | cons id rest ih =>
      obtain ⟨hid, hrest⟩ := List.forall_mem_cons.mp h
      exact .step ((walks_descendants hid).append (ih hrest))

theorem descendants_eq_flatMap (h : o.AcyclicFrom id) :
    o.descendants id = (o.children id).flatMap fun child => child :: o.descendants child :=
  (walks_descendants h).unique (walks_flatMap fun _ => h.child)

theorem length_descendants_lt (h : o.AcyclicFrom id) {child : ElementId}
    (hchild : child ∈ o.children id) :
    (o.descendants child).length < (o.descendants id).length := by
  have hsublist : (child :: o.descendants child).Sublist (o.descendants id) := by
    rw [descendants_eq_flatMap h]
    exact List.sublist_flatten_of_mem (List.mem_map_of_mem hchild)
  exact hsublist.length_le

/-- Where elements get smaller all the way down, there is no cycle. -/
theorem acyclicFrom_of_lt (rank : ElementId → Nat)
    (h : ∀ branch ∈ o.branches.entries, ∀ below ∈ branch.2, rank below < rank branch.1)
    (id : ElementId) : o.AcyclicFrom id := by
  have hchild : ∀ above below, o.RightAbove above below → rank below < rank above := by
    intro above below hbelow
    rw [RightAbove, children] at hbelow
    cases hfind : o.branches.find? above with
    | none => simp [hfind] at hbelow
    | some ids =>
        rw [hfind] at hbelow
        exact h (above, ids) (OrderedMap.mem_entries_iff.mpr hfind) below hbelow
  intro reached _ hcycle
  have hlt : ∀ below, TransGen o.RightAbove reached below → rank below < rank reached := by
    intro below hpath
    induction hpath with
    | single hbelow => exact hchild _ _ hbelow
    | tail _ hbelow ih => exact Nat.lt_trans (hchild _ _ hbelow) ih
  exact Nat.lt_irrefl _ (hlt reached hcycle)

end Acyclic

section Paths

variable {o : Outline}

theorem atPath?_cons (ids : List ElementId) (place : Nat) {rest : List Nat} (h : rest ≠ []) :
    o.atPath? ids (place :: rest) = ids[place]?.bind fun id => o.atPath? (o.children id) rest := by
  simp [atPath?, h]

theorem exists_place_of_isSome {ids : List ElementId} {path : List Nat}
    (h : (o.atPath? ids path).isSome = true) :
    ∃ place rest, path = place :: rest ∧ place < ids.length := by
  cases path with
  | nil => cases h
  | cons place rest =>
      refine ⟨place, rest, rfl, ?_⟩
      by_contra hplace
      simp [atPath?, List.getElem?_eq_none (Nat.le_of_not_lt hplace)] at h

theorem atPath?_append_of_lt {ids : List ElementId} (more : List ElementId) {place : Nat}
    (h : place < ids.length) (rest : List Nat) :
    o.atPath? (ids ++ more) (place :: rest) = o.atPath? ids (place :: rest) := by
  simp only [atPath?, List.getElem?_append_left h]

theorem atPath?_length (ids : List ElementId) (id : ElementId) :
    o.atPath? (ids ++ [id]) [ids.length] = some id := by
  simp [atPath?]

theorem atPath?_length_cons (ids : List ElementId) (id : ElementId) {rest : List Nat}
    (h : rest ≠ []) :
    o.atPath? (ids ++ [id]) (ids.length :: rest) = o.atPath? (o.children id) rest := by
  simp [atPath?_cons _ _ h]

theorem enumerates_nil : o.Enumerates [] [] [] := by
  constructor
  case sorted => exact .nil
  case ends => rfl
  case mem_iff =>
    intro path
    cases path <;> simp [atPath?]

section Further

variable {ids listed below : List ElementId} {paths pathsBelow : List (List Nat)} {id : ElementId}

theorem Enumerates.exists_place (h : o.Enumerates ids paths listed) {path : List Nat}
    (hpath : path ∈ paths) : ∃ place rest, path = place :: rest ∧ place < ids.length :=
  exists_place_of_isSome ((h.mem_iff path).mp hpath)

theorem Enumerates.ne_nil (h : o.Enumerates ids paths listed) {path : List Nat}
    (hpath : path ∈ paths) : path ≠ [] := by
  obtain ⟨place, rest, rfl, -⟩ := h.exists_place hpath
  exact List.cons_ne_nil place rest

variable (h : o.Enumerates ids paths listed)
  (hbelow : o.Enumerates (o.children id) pathsBelow below)
include h hbelow

theorem Enumerates.pairwise_append_singleton :
    (paths ++ [ids.length] :: pathsBelow.map (ids.length :: ·)).Pairwise (· < ·) := by
  refine List.pairwise_append.mpr ⟨h.sorted, List.pairwise_cons.mpr ⟨?_, ?_⟩, ?_⟩
  · intro longer hlonger
    obtain ⟨path, hpath, rfl⟩ := List.mem_map.mp hlonger
    obtain ⟨place, rest, rfl⟩ := List.exists_cons_of_ne_nil (hbelow.ne_nil hpath)
    exact List.cons_lt_cons_self.mpr (List.nil_lt_cons place rest)
  · exact List.pairwise_map.mpr (hbelow.sorted.imp fun hlt => List.cons_lt_cons_self.mpr hlt)
  · rintro path hpath later hlater
    obtain ⟨place, rest, rfl, hlt⟩ := h.exists_place hpath
    have hhead : ∃ more, later = ids.length :: more := by
      rcases List.mem_cons.mp hlater with rfl | hlonger
      · exact ⟨[], rfl⟩
      · obtain ⟨more, -, rfl⟩ := List.mem_map.mp hlonger
        exact ⟨more, rfl⟩
    obtain ⟨more, rfl⟩ := hhead
    exact List.Lex.rel hlt

theorem Enumerates.mem_append_singleton_iff (path : List Nat) :
    path ∈ paths ++ [ids.length] :: pathsBelow.map (ids.length :: ·) ↔
      (o.atPath? (ids ++ [id]) path).isSome = true := by
  rcases path with _ | ⟨place, rest⟩
  · have hnot : [] ∉ paths := fun hpath => h.ne_nil hpath rfl
    simp [atPath?, hnot]
  · have hpaths : place :: rest ∈ paths → place < ids.length := by
      intro hpath
      obtain ⟨_, _, heq, hlt⟩ := h.exists_place hpath
      cases heq
      exact hlt
    -- The first place tells whether the path leads through the further element.
    rcases Nat.lt_trichotomy place ids.length with hlt | rfl | hgt
    · rw [atPath?_append_of_lt _ hlt, ← h.mem_iff]
      simp [hlt.ne, hlt.ne']
    · have hnot : ids.length :: rest ∉ paths := fun hpath => Nat.lt_irrefl _ (hpaths hpath)
      by_cases hrest : rest = []
      · simp [hrest, atPath?_length]
      · rw [atPath?_length_cons ids id hrest, ← hbelow.mem_iff]
        simp [hnot, hrest]
    · have hnot : place :: rest ∉ paths := fun hpath => Nat.lt_asymm hgt (hpaths hpath)
      have hnone : (ids ++ [id])[place]? = none := by simpa using hgt
      simp [atPath?, hnone, hnot, hgt.ne, hgt.ne']

theorem Enumerates.map_atPath?_append_singleton :
    (paths ++ [ids.length] :: pathsBelow.map (ids.length :: ·)).map (o.atPath? (ids ++ [id])) =
      (listed ++ id :: below).map some := by
  have hfirst : paths.map (o.atPath? (ids ++ [id])) = listed.map some := by
    rw [← h.ends]
    apply List.map_congr_left
    intro path hpath
    obtain ⟨place, rest, rfl, hlt⟩ := h.exists_place hpath
    exact atPath?_append_of_lt _ hlt rest
  have hlast : pathsBelow.map (fun path => o.atPath? (ids ++ [id]) (ids.length :: path)) =
      below.map some := by
    rw [← hbelow.ends]
    apply List.map_congr_left
    intro path hpath
    exact atPath?_length_cons ids id (hbelow.ne_nil hpath)
  simp [hfirst, atPath?_length, Function.comp_def, hlast]

/-- The paths down from a further element come last, that to the element itself first of them. -/
theorem Enumerates.append_singleton :
    o.Enumerates (ids ++ [id]) (paths ++ [ids.length] :: pathsBelow.map (ids.length :: ·))
      (listed ++ id :: below) where
  sorted := h.pairwise_append_singleton hbelow
  mem_iff := h.mem_append_singleton_iff hbelow
  ends := h.map_atPath?_append_singleton hbelow

end Further

theorem exists_enumerates {ids : List ElementId}
    (h : ∀ id ∈ ids, ∃ paths, o.Enumerates (o.children id) paths (o.descendants id)) :
    ∃ paths, o.Enumerates ids paths (ids.flatMap fun id => id :: o.descendants id) := by
  induction ids using List.reverseRecOn with
  | nil => exact ⟨[], enumerates_nil⟩
  | append_singleton ids id ih =>
      obtain ⟨hids, hid⟩ := List.forall_mem_append.mp h
      obtain ⟨paths, hpaths⟩ := ih hids
      obtain ⟨pathsBelow, hbelow⟩ := hid id List.mem_cons_self
      have hall := hpaths.append_singleton hbelow
      rw [← List.flatMap_singleton (fun id => id :: o.descendants id), ← List.flatMap_append] at hall
      exact ⟨_, hall⟩

theorem exists_enumerates_descendants {id : ElementId} (h : o.AcyclicFrom id) :
    ∃ paths, o.Enumerates (o.children id) paths (o.descendants id) := by
  induction hlength : (o.descendants id).length using Nat.strong_induction_on generalizing id with
  | h length ih =>
      rw [descendants_eq_flatMap h]
      apply exists_enumerates
      intro child hchild
      exact ih _ (hlength ▸ length_descendants_lt h hchild) (h.child hchild) rfl

end Paths

theorem traversed_of_acyclicFrom {o : Outline} {id : ElementId} (h : o.AcyclicFrom id) :
    o.Traversed id where
  loop := (walks_descendants h).eval_turn
  recursion := descendants_eq_flatMap h
  paths := exists_enumerates_descendants h

/-- In every outline the traversal below an element from which no cycle can be reached is the
recursive pre-order, and the traversal of all elements is made of those below the elements at the
top. -/
theorem traversals_preorder (o : Outline) :
    (∀ id, o.AcyclicFrom id → o.Traversed id) ∧
      o.allElements = o.roots.flatMap (fun root => root :: o.descendants root) ∧
      ((∀ root ∈ o.roots, o.AcyclicFrom root) →
        ∃ paths, o.Enumerates o.roots paths o.allElements) := by
  refine ⟨fun _ => traversed_of_acyclicFrom, rfl, fun hroots => ?_⟩
  apply exists_enumerates
  intro root hroot
  exact exists_enumerates_descendants (hroots root hroot)

/-- A page with two cards that share an icon; the second card has it twice. -/
def sharedIcon : Outline where
  roots := [⟨"page", Eq.refl false⟩]
  branches := .ofList
    [(⟨"page", Eq.refl false⟩, [⟨"left", Eq.refl false⟩, ⟨"right", Eq.refl false⟩]),
      (⟨"left", Eq.refl false⟩, [⟨"icon", Eq.refl false⟩]),
      (⟨"right", Eq.refl false⟩,
        [⟨"icon", Eq.refl false⟩, ⟨"note", Eq.refl false⟩, ⟨"icon", Eq.refl false⟩])]

theorem traversals_preorder_sharedIcon :
    (∀ root ∈ sharedIcon.roots, sharedIcon.AcyclicFrom root) ∧
      (∀ root ∈ sharedIcon.roots, sharedIcon.Traversed root) ∧
      (∃ paths, sharedIcon.Enumerates sharedIcon.roots paths sharedIcon.allElements) ∧
      sharedIcon.allElements.map ElementId.text =
        ["page", "left", "icon", "right", "icon", "note", "icon"] := by
  have hacyclic := acyclicFrom_of_lt (o := sharedIcon)
    (fun id => if id.text = "page" then 2 else if id.text ∈ ["left", "right"] then 1 else 0)
    (by decide)
  obtain ⟨htraversed, -, hpaths⟩ := traversals_preorder sharedIcon
  exact ⟨fun root _ => hacyclic root, fun root _ => htraversed root (hacyclic root),
    hpaths fun root _ => hacyclic root, by decide⟩

end DesignMarkup.Outline

namespace DesignMarkup.Document

/-- The outline of a document has no cycle, and the descendants in a document are what its traversal
lists. -/
theorem traversed_outline (d : Document) (id : ElementId) :
    d.outline.Traversed id ∧ d.outline.descendants id = d.descendants id := by
  have hright : d.outline.RightAbove = fun above below => below ∈ d.children above := by
    funext above below
    rw [Outline.RightAbove, d.tells_outline.children]
  refine ⟨Outline.traversed_of_acyclicFrom ?_, d.tells_outline.descendants_eq id⟩
  intro reached _ hcycle
  rw [hright] at hcycle
  exact d.not_above_self reached hcycle

end DesignMarkup.Document
