import DesignMarkup.Proofs.Markup.Cursor
import Mathlib.Data.List.Dedup
import Mathlib.Data.Nat.Init

/-!
The first free name.  A search that tries the base and then its numbered names, one after the other
and without a bound on the tries, ends with the first of them that is not taken, and tries one name
more than are taken at most.  So the classes of nodes are given out one after the other, each the
first one of its base that is free by then, and none of them twice.
-/

namespace DesignMarkup.StyledNode

section Search

variable (base : String) (taken : List String)

/-- The search from a candidate on: while it is taken, the base with the next number is the next
candidate.  A run ends with the name found and the number that would have been next. -/
inductive Search : String → Nat → String → Nat → Prop where
  | free {candidate : String} {next : Nat} (h : candidate ∉ taken) :
      Search candidate next candidate next
  | taken {candidate found : String} {next last : Nat} (h : candidate ∈ taken)
      (rest : Search (numbered base next) (next + 1) found last) :
      Search candidate next found last

/-- The first free name of a base: the base itself, or else the one with the least number from 2 on
that is not taken. -/
structure IsFirstFree (name : String) : Prop where
  free : name ∉ taken
  eq_base : base ∉ taken → name = base
  least : base ∈ taken → ∃ k, 2 ≤ k ∧ name = base ++ "-" ++ toString k ∧
    ∀ i, 2 ≤ i → i < k → base ++ "-" ++ toString i ∈ taken

end Search

section

variable {base : String} {taken : List String}

theorem numbered_eq (base : String) (n : Nat) : numbered base n = base ++ "-" ++ toString n := by
  rw [numbered, Nat.toString_eq_ofList_toDigits]

theorem numbered_ne (base : String) (n : Nat) : base ≠ numbered base n := by
  intro h
  have hlength := congrArg (fun s => s.toList.length) h
  simp [numbered] at hlength

/-- A search has one result. -/
theorem Search.unique {candidate found other : String} {next last last' : Nat}
    (h : Search base taken candidate next found last)
    (h' : Search base taken candidate next other last') : found = other ∧ last = last' := by
  induction h with
  | free hfree =>
      cases h' with
      | free => exact ⟨rfl, rfl⟩
      | taken htaken => exact absurd htaken hfree
  | taken htaken _ ih =>
      cases h' with
      | free hfree => exact absurd htaken hfree
      | taken _ rest => exact ih rest

/-- A search asks of names only whether they are taken. -/
theorem Search.congr {other : List String} (hsame : ∀ name, name ∈ other ↔ name ∈ taken)
    {candidate found : String} {next last : Nat}
    (h : Search base taken candidate next found last) :
    Search base other candidate next found last := by
  induction h with
  | free hfree => exact .free (mt (hsame _).mp hfree)
  | taken htaken _ ih => exact .taken ((hsame _).mpr htaken) ih

/-- A search passes over the numbered names that are taken. -/
theorem search_numbered {first n : Nat} (hle : first ≤ n)
    (htaken : ∀ i, first ≤ i → i < n → numbered base i ∈ taken) (hfree : numbered base n ∉ taken) :
    Search base taken (numbered base first) (first + 1) (numbered base n) (n + 1) := by
  induction hle using Nat.decreasingInduction with
  | self => exact .free hfree
  | of_succ i hi ih =>
      refine .taken (htaken i (Nat.le_refl i) hi) (ih fun j hj hjn => htaken j ?_ hjn)
      omega

/-- The base and its numbered names up to one that is free are different and taken, so there are no
more of them than names that are taken. -/
theorem le_length_of_taken (hbase : base ∈ taken) {n : Nat}
    (htaken : ∀ i, 2 ≤ i → i < n → numbered base i ∈ taken) : n ≤ taken.dedup.length + 1 := by
  have hnodup : (base :: (List.range' 2 (n - 2)).map (numbered base)).Nodup := by
    refine List.nodup_cons.mpr ⟨?_, nodup_numbered base 2 (n - 2)⟩
    intro hmem
    obtain ⟨i, -, hi⟩ := List.mem_map.mp hmem
    exact numbered_ne base i hi.symm
  have hsubset : base :: (List.range' 2 (n - 2)).map (numbered base) ⊆ taken.dedup := by
    intro name hname
    rw [List.mem_dedup]
    rcases List.mem_cons.mp hname with rfl | hname
    · exact hbase
    · obtain ⟨i, hi, rfl⟩ := List.mem_map.mp hname
      rw [List.mem_range'_1] at hi
      exact htaken i hi.1 (by omega)
  have hlength := (List.subperm_of_subset hnodup hsubset).length_le
  rw [List.length_cons, List.length_map, List.length_range'] at hlength
  omega

/-- Where the base is taken, the name that is settled on has the least free number. -/
theorem exists_uniqueName_eq (hbase : base ∈ taken) :
    ∃ n, 2 ≤ n ∧ uniqueName base taken = numbered base n ∧ numbered base n ∉ taken ∧
      ∀ i, 2 ≤ i → i < n → numbered base i ∈ taken := by
  obtain ⟨n, heq, hn⟩ := exists_firstFree_eq base taken taken.length 2
  have hname : uniqueName base taken = numbered base n := by rw [uniqueName, if_pos hbase, heq]
  exact ⟨n, hn.first_le, hname, hname ▸ uniqueName_not_mem base taken, hn.taken_before⟩

/-- The search ends, and it ends with the name that is given. -/
theorem exists_search (base : String) (taken : List String) :
    ∃ last, Search base taken base 2 (uniqueName base taken) last ∧
      last ≤ taken.dedup.length + 2 := by
  by_cases hbase : base ∈ taken
  · obtain ⟨n, hle, hname, hfree, htaken⟩ := exists_uniqueName_eq hbase
    have hcount := le_length_of_taken hbase htaken
    exact ⟨n + 1, hname ▸ .taken hbase (search_numbered hle htaken hfree), by omega⟩
  · refine ⟨2, ?_, by omega⟩
    rw [uniqueName, if_neg hbase]
    exact .free hbase

theorem isFirstFree_uniqueName (base : String) (taken : List String) :
    IsFirstFree base taken (uniqueName base taken) := by
  constructor
  case free => exact uniqueName_not_mem base taken
  case eq_base =>
    intro hbase
    rw [uniqueName, if_neg hbase]
  case least =>
    intro hbase
    obtain ⟨n, hle, hname, -, htaken⟩ := exists_uniqueName_eq hbase
    simp only [numbered_eq] at hname htaken
    exact ⟨n, hle, hname, htaken⟩

/-- A base has one first free name. -/
theorem IsFirstFree.unique {name other : String} (h : IsFirstFree base taken name)
    (h' : IsFirstFree base taken other) : name = other := by
  by_cases hbase : base ∈ taken
  · obtain ⟨m, hm, rfl, hbefore⟩ := h.least hbase
    obtain ⟨n, hn, rfl, hbefore'⟩ := h'.least hbase
    rcases Nat.lt_trichotomy m n with hlt | rfl | hlt
    · exact absurd (hbefore' m hm hlt) h.free
    · rfl
    · exact absurd (hbefore n hn hlt) h'.free
  · rw [h.eq_base hbase, h'.eq_base hbase]

/-- Which names are taken is all that counts. -/
theorem uniqueName_congr {other : List String} (hsame : ∀ name, name ∈ other ↔ name ∈ taken) :
    uniqueName base other = uniqueName base taken := by
  obtain ⟨last, hsearch, -⟩ := exists_search base taken
  obtain ⟨last', hother, -⟩ := exists_search base other
  exact (hother.unique (hsearch.congr hsame)).1

end

/-- Names for bases, one after the other, and the names that are taken in the end.  Each name that
is given is taken for those after it. -/
def takeNames (taken : List String) : List String → List String × List String
  | [] => ([], taken)
  | base :: rest =>
      let name := uniqueName base taken
      let (names, taken) := takeNames (name :: taken) rest
      (name :: names, taken)

section TakeNames

variable (taken : List String)

theorem takeNames_cons (base : String) (rest : List String) :
    takeNames taken (base :: rest) =
      (uniqueName base taken :: (takeNames (uniqueName base taken :: taken) rest).1,
        (takeNames (uniqueName base taken :: taken) rest).2) :=
  rfl

theorem length_takeNames (bases : List String) :
    (takeNames taken bases).1.length = bases.length := by
  induction bases generalizing taken with
  | nil => rfl
  | cons base rest ih => rw [takeNames_cons, List.length_cons, ih, List.length_cons]

theorem takeNames_append (left right : List String) :
    takeNames taken (left ++ right) =
      ((takeNames taken left).1 ++ (takeNames (takeNames taken left).2 right).1,
        (takeNames (takeNames taken left).2 right).2) := by
  induction left generalizing taken with
  | nil => rfl
  | cons base rest ih => rw [List.cons_append, takeNames_cons, ih, takeNames_cons, List.cons_append]

theorem taken_takeNames (bases : List String) :
    (takeNames taken bases).2 = (takeNames taken bases).1.reverse ++ taken := by
  induction bases generalizing taken with
  | nil => rfl
  | cons base rest ih =>
      rw [takeNames_cons, ih, List.reverse_cons, List.append_assoc, List.singleton_append]

/-- No name is given that was taken, and none is given twice. -/
theorem nodup_takeNames (bases : List String) :
    (takeNames taken bases).1.Nodup ∧ ∀ name ∈ (takeNames taken bases).1, name ∉ taken := by
  induction bases generalizing taken with
  | nil => simp [takeNames]
  | cons base rest ih =>
      obtain ⟨hnodup, hfresh⟩ := ih (uniqueName base taken :: taken)
      rw [takeNames_cons]
      refine ⟨List.nodup_cons.mpr ⟨?_, hnodup⟩, ?_⟩
      · intro hmem
        exact hfresh _ hmem List.mem_cons_self
      · rw [List.forall_mem_cons]
        refine ⟨uniqueName_not_mem base taken, fun name hname htaken => ?_⟩
        exact hfresh name hname (List.mem_cons_of_mem _ htaken)

/-- Each name is the first free one of its base, given the names before it. -/
theorem isFirstFree_takeNames {bases : List String} {i : Nat} {base : String}
    (h : bases[i]? = some base) :
    ∃ name, (takeNames taken bases).1[i]? = some name ∧
      IsFirstFree base (((takeNames taken bases).1.take i).reverse ++ taken) name := by
  induction bases generalizing taken i with
  | nil => cases h
  | cons first rest ih =>
      rw [takeNames_cons]
      cases i with
      | zero =>
          obtain rfl : first = base := Option.some.inj h
          exact ⟨_, rfl, isFirstFree_uniqueName first taken⟩
      | succ i =>
          obtain ⟨name, hname, hfirst⟩ := ih (uniqueName first taken :: taken) h
          refine ⟨name, hname, ?_⟩
          simpa using hfirst

-- A base that ends in a number itself finds its own name taken.
example : (takeNames [] ["card", "card", "card-2", "card"]).1 =
    ["card", "card-2", "card-2-2", "card-3"] := by
  decide +kernel

end TakeNames

end DesignMarkup.StyledNode

namespace DesignMarkup.MarkupNode

open StyledNode (takeNames takeNames_append filterMap_cons_eq IsFirstFree Search uniqueName)

/-- The base of the class of a node: a node gets one if it is written and declares something. -/
def classBase? (place : MarkupNode × Bool) : Option String :=
  if place.2 && !(Markup.declarations place.1.styles).isEmpty then
    some (StyledNode.baseName place.1.elementName place.1.tag)
  else none

/-- The bases of the classes of nodes, parents first. -/
def classBases (nodes : List MarkupNode) : List String :=
  (placedList true nodes).filterMap classBase?

theorem filterMap_classBase?_of_not_written {places : List (MarkupNode × Bool)}
    (h : ∀ place ∈ places, place.2 = false) : places.filterMap classBase? = [] := by
  rw [List.filterMap_eq_nil_iff]
  intro place hplace
  simp [classBase?, h place hplace]

/-- The class of a node is the first free name of its base. -/
theorem takeNames_own (taken : List String) (tag name : String) (attributes : Properties)
    (styles : OrderedMap String String) (content : Option String) (children : List MarkupNode) :
    takeNames taken (classBase? (⟨tag, name, attributes, styles, content, children⟩,
        Markup.isTag tag)).toList =
      ((StyledNode.ownClass? tag name styles taken).toList,
        StyledNode.takenBelow tag name styles taken) := by
  rw [classBase?, StyledNode.takenBelow, StyledNode.ownClass?, StyledNode.classFor?]
  split <;> rfl

mutual

/-- The classes of a tree are given out as names are, one after the other. -/
theorem takeNames_placed (taken : List String) (node : MarkupNode) :
    takeNames taken ((node.placed true).filterMap classBase?) =
      ((nameClasses taken node).2.filterMap id, (nameClasses taken node).1) := by
  match node with
  | ⟨tag, name, attributes, styles, content, children⟩ =>
      have hown := takeNames_own taken tag name attributes styles content children
      rw [placed, Bool.true_and, Bool.true_and, filterMap_cons_eq, takeNames_append, hown]
      cases hvoid : Markup.isVoid tag with
      | true =>
          have hnone := filterMap_classBase?_of_not_written (not_written_placedList children)
          rw [Bool.not_true, hnone, nameClasses, Markup.isTag_of_isVoid hvoid, hvoid]
          simp [takeNames, filterMap_cons_eq, StyledNode.takenBelow, StyledNode.ownClass?]
      | false =>
          have hbelow := takeNames_placedList (StyledNode.takenBelow tag name styles taken) children
          rw [Bool.not_false, nameClasses_of_not_void _ _ _ _ _ _ hvoid, ← classBases, hbelow,
            filterMap_cons_eq, id]

theorem takeNames_placedList (taken : List String) (nodes : List MarkupNode) :
    takeNames taken (classBases nodes) =
      ((nameClassesOfList taken nodes).2.filterMap id, (nameClassesOfList taken nodes).1) := by
  match nodes with
  | [] => rfl
  | node :: rest =>
      rw [classBases, placedList, List.filterMap_append, takeNames_append,
        takeNames_placed taken node, ← classBases, takeNames_placedList _ rest,
        nameClassesOfList_cons, List.filterMap_append]

end

/-- What the search for a name does, whatever the base and the names that are taken. -/
structure FindsFirstFree (base : String) (taken : List String) : Prop where
  /-- The search ends, with the name that is given.  Its numbers grow with the number of names that
  are taken, each counted once, and no further. -/
  ends : ∃ last, Search base taken base 2 (uniqueName base taken) last ∧
    last ≤ taken.dedup.length + 2
  /-- It has no other end. -/
  only : ∀ found last, Search base taken base 2 found last → found = uniqueName base taken
  /-- The name that is given is the first free one, and there is one such name. -/
  first_free : ∀ name, IsFirstFree base taken name ↔ name = uniqueName base taken
  /-- The order and the repetitions of the names that are taken make no difference. -/
  set_like : ∀ other : List String, (∀ name, name ∈ other ↔ name ∈ taken) →
    uniqueName base other = uniqueName base taken

/-- The classes that are given out in a walk over nodes. -/
def given (taken : List String) (nodes : List MarkupNode) : List String :=
  (nameClassesOfList taken nodes).2.filterMap id

/-- What a walk over nodes gives out, whatever is taken before it. -/
structure GivesOnce (taken : List String) (nodes : List MarkupNode) : Prop where
  /-- Each node that is written and declares something is given one class. -/
  length_eq : (given taken nodes).length = (classBases nodes).length
  /-- It is the first free name of the base of the node, among the classes given before it. -/
  first_free : ∀ i base, (classBases nodes)[i]? = some base → ∃ name,
    (given taken nodes)[i]? = some name ∧
      IsFirstFree base (((given taken nodes).take i).reverse ++ taken) name
  /-- The names that are taken have grown by the classes that are given. -/
  grown : (nameClassesOfList taken nodes).1 = (given taken nodes).reverse ++ taken
  /-- No class is given twice, and none that was taken. -/
  nodup : (given taken nodes).Nodup
  fresh : ∀ name ∈ given taken nodes, name ∉ taken

theorem takeNames_classBases (taken : List String) (nodes : List MarkupNode) :
    takeNames taken (classBases nodes) = (given taken nodes, (nameClassesOfList taken nodes).1) :=
  takeNames_placedList taken nodes

theorem findsFirstFree (base : String) (taken : List String) : FindsFirstFree base taken := by
  obtain ⟨last, hsearch, hlast⟩ := StyledNode.exists_search base taken
  have hfirst := StyledNode.isFirstFree_uniqueName base taken
  constructor
  case ends => exact ⟨last, hsearch, hlast⟩
  case only =>
    intro found _ hfound
    exact (hfound.unique hsearch).1
  case first_free =>
    intro name
    constructor
    · exact fun hname => hname.unique hfirst
    · rintro rfl
      exact hfirst
  case set_like => exact fun _ => StyledNode.uniqueName_congr

theorem givesOnce (taken : List String) (nodes : List MarkupNode) : GivesOnce taken nodes := by
  have heq := takeNames_classBases taken nodes
  have hgiven : (takeNames taken (classBases nodes)).1 = given taken nodes := congrArg Prod.fst heq
  have hnodup := StyledNode.nodup_takeNames taken (classBases nodes)
  rw [hgiven] at hnodup
  constructor
  case length_eq => rw [← hgiven, StyledNode.length_takeNames]
  case first_free =>
    intro i base hbase
    have hfirst := StyledNode.isFirstFree_takeNames taken hbase
    rw [hgiven] at hfirst
    exact hfirst
  case grown =>
    have hgrown := StyledNode.taken_takeNames taken (classBases nodes)
    rw [heq] at hgrown
    exact hgrown
  case nodup => exact hnodup.1
  case fresh => exact hnodup.2

/-- Every class is the first free name of its base, found by a search that ends, and none is given
twice. -/
theorem classes_first_free (base : String) (taken : List String) (nodes : List MarkupNode) :
    FindsFirstFree base taken ∧ GivesOnce taken nodes :=
  ⟨findsFirstFree base taken, givesOnce taken nodes⟩

end DesignMarkup.MarkupNode
