import DesignMarkup.Proofs.Json.Fields

/-!
The depth of read trees.  Whatever a text nests, the tree that is read from it nests no deeper than
a text may, because what lies deeper is read as a part without a value.
-/

namespace DesignMarkup.Json

/-- An array or object may lie inside `level` others when its parts may lie one level further in. -/
theorem nesting_atLevel_le {level : Nat} {j : Json}
    (h : j.nesting ≤ maxNesting - (level + 1) + 1) :
    (atLevel level j).nesting ≤ maxNesting - level := by
  rw [atLevel]
  split
  · omega
  · exact Nat.zero_le _

/-- Each value that is read from a list comes from an item of the list. -/
theorem exists_of_mem_mapM {α β : Type} {read : α → Option β} {items : List α} {values : List β}
    (h : items.mapM read = some values) {value : β} (hvalue : value ∈ values) :
    ∃ item ∈ items, read item = some value := by
  induction items generalizing values with
  | nil =>
      rw [List.mapM_nil] at h
      cases h
      cases hvalue
  | cons item rest ih =>
      rw [List.mapM_cons] at h
      simp only [Option.bind_eq_bind, Option.bind_eq_some_iff] at h
      obtain ⟨first, hfirst, more, hmore, heq⟩ := h
      cases heq
      rcases List.mem_cons.mp hvalue with rfl | hvalue
      · exact ⟨item, List.mem_cons_self, hfirst⟩
      · obtain ⟨other, hother, hread⟩ := ih hmore hvalue
        exact ⟨other, List.mem_cons_of_mem item hother, hread⟩

/-- Each item of a list that is read is read as some value. -/
theorem exists_of_mapM {α β : Type} {read : α → Option β} {items : List α} {values : List β}
    (h : items.mapM read = some values) {item : α} (hitem : item ∈ items) :
    ∃ value, read item = some value := by
  induction items generalizing values with
  | nil => cases hitem
  | cons first rest ih =>
      rw [List.mapM_cons] at h
      simp only [Option.bind_eq_bind, Option.bind_eq_some_iff] at h
      obtain ⟨value, hvalue, more, hmore, -⟩ := h
      rcases List.mem_cons.mp hitem with rfl | hrest
      · exact ⟨value, hvalue⟩
      · exact ih hmore hrest

theorem nesting_ofMembers_le {members : List (Option String × Json)} {depth : Nat}
    (h : ∀ member ∈ members, member.2.nesting ≤ depth) :
    (ofMembers members).nesting ≤ depth + 1 := by
  rw [ofMembers]
  split
  · rename_i named hnamed
    apply Nat.succ_le_succ
    apply nestingMembers_le
    intro member hmem
    obtain ⟨written, hwritten, hname⟩ := exists_of_mem_mapM hnamed hmem
    obtain ⟨name, -, rfl⟩ := Option.map_eq_some_iff.mp hname
    exact h written hwritten
  · exact Nat.zero_le _

theorem nesting_ofLiteral (s : Option String) : (ofLiteral s).nesting = 0 := by
  cases s <;> rfl

mutual

/-- What is read inside `level` arrays and objects nests no deeper than is left of the allowed
depth. -/
theorem nesting_readValue_le (fuel level : Nat) {cs rest : List Char} {j : Json}
    (h : readValue fuel level cs = some (j, rest)) : j.nesting ≤ maxNesting - level := by
  match fuel with
  | 0 =>
      rw [readValue] at h
      cases h
  | fuel + 1 =>
      rw [readValue] at h
      split at h
      · cases h
        exact Nat.zero_le _
      · cases h
        exact Nat.zero_le _
      · cases h
        exact Nat.zero_le _
      · obtain ⟨⟨s, more⟩, -, heq⟩ := Option.map_eq_some_iff.mp h
        cases heq
        rw [nesting_ofLiteral]
        exact Nat.zero_le _
      · split at h
        · cases h
          exact nesting_atLevel_le (Nat.le_add_left _ _)
        · obtain ⟨⟨items, more⟩, hitems, heq⟩ := Option.map_eq_some_iff.mp h
          cases heq
          exact nesting_atLevel_le (Nat.succ_le_succ (nesting_readItems_le fuel (level + 1) hitems))
      · split at h
        · cases h
          exact nesting_atLevel_le (Nat.le_add_left _ _)
        · obtain ⟨⟨members, more⟩, hmembers, heq⟩ := Option.map_eq_some_iff.mp h
          cases heq
          exact nesting_atLevel_le
            (nesting_ofMembers_le (nesting_readMembers_le fuel (level + 1) hmembers))
      · obtain ⟨⟨l, more⟩, -, heq⟩ := Option.map_eq_some_iff.mp h
        cases heq
        cases Number.ofLiteral? l <;> exact Nat.zero_le _

theorem nesting_readItems_le (fuel level : Nat) {cs rest : List Char} {items : List Json}
    (h : readItems fuel level cs = some (items, rest)) :
    nestingItems items ≤ maxNesting - level := by
  match fuel with
  | 0 =>
      rw [readItems] at h
      cases h
  | fuel + 1 =>
      rw [readItems] at h
      split at h
      · cases h
      · rename_i item more hitem
        have hfirst := nesting_readValue_le fuel level hitem
        split at h
        · obtain ⟨⟨others, more⟩, hothers, heq⟩ := Option.map_eq_some_iff.mp h
          cases heq
          rw [nestingItems, Nat.max_le]
          exact ⟨hfirst, nesting_readItems_le fuel level hothers⟩
        · cases h
          rw [nestingItems, Nat.max_le]
          exact ⟨hfirst, Nat.zero_le _⟩
        · cases h

theorem nesting_readMembers_le (fuel level : Nat) {cs rest : List Char}
    {members : List (Option String × Json)}
    (h : readMembers fuel level cs = some (members, rest)) :
    ∀ member ∈ members, member.2.nesting ≤ maxNesting - level := by
  match fuel with
  | 0 =>
      rw [readMembers] at h
      cases h
  | fuel + 1 =>
      rw [readMembers] at h
      split at h
      · split at h
        · cases h
        · split at h
          · split at h
            · cases h
            · rename_i item more hitem
              have hfirst := nesting_readValue_le fuel level hitem
              split at h
              · obtain ⟨⟨others, more⟩, hothers, heq⟩ := Option.map_eq_some_iff.mp h
                cases heq
                rw [List.forall_mem_cons]
                exact ⟨hfirst, nesting_readMembers_le fuel level hothers⟩
              · cases h
                rw [List.forall_mem_singleton]
                exact hfirst
              · cases h
          · cases h
      · cases h

end

/-- The tree of a text nests no deeper than a text may. -/
theorem nesting_read?_le {s : String} {j : Json} (h : read? s = some j) :
    j.nesting ≤ maxNesting := by
  rw [read?, readChars?] at h
  split at h
  · rename_i value rest hvalue
    split at h
    · cases h
      exact nesting_readValue_le _ 0 hvalue
    · cases h
  · cases h

end DesignMarkup.Json
