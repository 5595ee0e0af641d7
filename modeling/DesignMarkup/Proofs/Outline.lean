import DesignMarkup.Outline
import DesignMarkup.Proofs.OrderedMap

/-!
Walks over outlines.  A walk that comes to an end is a chain of steps, each of which takes an
element off the stack and puts those right below it on top.  If it lists no more elements than the
outline has branches, the bounded walk lists the same ones.
-/

namespace DesignMarkup.Outline

/-- The walk from a stack ends, having listed these elements. -/
inductive Walks (o : Outline) : List ElementId → List ElementId → Prop
  | done : Walks o [] []
  | step {id : ElementId} {stack listed : List ElementId}
      (below : Walks o (o.children id ++ stack) listed) : Walks o (id :: stack) (id :: listed)

section Walks

variable {o : Outline}

/-- Walks from two stacks, one after the other, are a walk from both. -/
theorem Walks.append {left right leftListed rightListed : List ElementId}
    (hleft : Walks o left leftListed) (hright : Walks o right rightListed) :
    Walks o (left ++ right) (leftListed ++ rightListed) := by
  induction hleft with
  | done => exact hright
  | @step id stack listed _ ih =>
      rw [List.append_assoc] at ih
      exact Walks.step ih

theorem walk_eq {stack listed : List ElementId} (h : Walks o stack listed) {steps : Nat}
    (hsteps : listed.length ≤ steps) : o.walk steps stack = listed := by
  induction h generalizing steps with
  | done => cases steps <;> rfl
  | step _ ih =>
      cases steps with
      | zero => cases hsteps
      | succ steps => rw [walk, ih (Nat.le_of_succ_le_succ hsteps)]

theorem le_foldl_max {xs : List Nat} {start x : Nat} (h : x ≤ start ∨ x ∈ xs) :
    x ≤ xs.foldl max start := by
  induction xs generalizing start with
  | nil => simpa using h
  | cons first rest ih =>
      apply ih
      rcases h with hstart | hmem
      · exact .inl (Nat.le_trans hstart (Nat.le_max_left _ _))
      · rcases List.mem_cons.mp hmem with rfl | hrest
        · exact .inl (Nat.le_max_right _ _)
        · exact .inr hrest

theorem length_children_le_breadth (o : Outline) (id : ElementId) :
    (o.children id).length ≤ o.breadth := by
  rw [children]
  cases hfind : o.branches.find? id with
  | none => exact Nat.zero_le _
  | some below =>
      have hmem := OrderedMap.mem_entries_iff.mpr hfind
      have hlength : below.length ∈ o.branches.values.map List.length :=
        List.mem_map_of_mem (List.mem_map_of_mem hmem)
      exact le_foldl_max (.inr hlength)

/-- Where there is an element right below another one, the bound leaves room for every branch. -/
theorem size_le_walkBound {id : ElementId} (h : o.children id ≠ []) :
    o.branches.size ≤ o.walkBound := by
  have hbreadth : 1 ≤ o.breadth :=
    Nat.le_trans (List.length_pos_iff.mpr h) (length_children_le_breadth o id)
  calc o.branches.size ≤ 2 ^ o.branches.size := Nat.le_of_lt Nat.lt_two_pow_self
    _ ≤ 2 ^ (o.height + 1) := Nat.pow_le_pow_right (by decide) (by rw [height]; omega)
    _ ≤ o.walkBound := Nat.pow_le_pow_left (by omega) _

/-- The walk below an element is not cut off as long as it lists no more elements than there are
branches. -/
theorem descendants_eq {id : ElementId} {listed : List ElementId}
    (h : Walks o (o.children id) listed) (hlength : listed.length ≤ o.branches.size) :
    o.descendants id = listed := by
  apply walk_eq h
  cases hlisted : listed with
  | nil => exact Nat.zero_le _
  | cons first rest =>
      rw [← hlisted]
      apply Nat.le_trans hlength
      apply size_le_walkBound
      intro hnone
      rw [hnone] at h
      cases h
      cases hlisted

end Walks
end DesignMarkup.Outline
