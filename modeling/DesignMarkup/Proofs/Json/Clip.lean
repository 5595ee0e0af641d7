import DesignMarkup.Json.Reader

/-!
Trees with their deep parts clipped off.  A tree of any depth can be written; what is read from its
text is the tree without the arrays and objects that lie deeper than a text may nest.  The clipped
tree is the whole one, and has no part without a value, exactly if nothing lies that deep.
-/

namespace DesignMarkup.Json

mutual

/-- A tree inside `level` arrays and objects, with no value for what lies too deep. -/
def clip (level : Nat) : Json → Json
  | .array items => atLevel level (.array (clipItems (level + 1) items))
  | .object members => atLevel level (.object (clipMembers (level + 1) members))
  | .null => .null
  | .bool b => .bool b
  | .number n => .number n
  | .string s => .string s
  | .unreadable => .unreadable

def clipItems (level : Nat) : List Json → List Json
  | [] => []
  | item :: rest => item.clip level :: clipItems level rest

def clipMembers (level : Nat) : List (String × Json) → List (String × Json)
  | [] => []
  | (name, item) :: rest => (name, item.clip level) :: clipMembers level rest

end

theorem atLevel_of_lt {level : Nat} (j : Json) (h : level < maxNesting) : atLevel level j = j :=
  if_pos h

mutual

/-- Nothing is clipped off where the levels that are left suffice. -/
theorem clip_of_nesting_le {level : Nat} {j : Json} (h : level + j.nesting ≤ maxNesting) :
    j.clip level = j := by
  match j with
  | .array items =>
      rw [nesting] at h
      rw [clip, clipItems_of_nesting_le (by omega), atLevel_of_lt _ (by omega)]
  | .object members =>
      rw [nesting] at h
      rw [clip, clipMembers_of_nesting_le (by omega), atLevel_of_lt _ (by omega)]
  | .null => rfl
  | .bool b => rfl
  | .number n => rfl
  | .string s => rfl
  | .unreadable => rfl

theorem clipItems_of_nesting_le {level : Nat} {items : List Json}
    (h : level + nestingItems items ≤ maxNesting) : clipItems level items = items := by
  match items with
  | [] => rfl
  | item :: rest =>
      rw [nestingItems] at h
      rw [clipItems, clip_of_nesting_le (by omega), clipItems_of_nesting_le (by omega)]

theorem clipMembers_of_nesting_le {level : Nat} {members : List (String × Json)}
    (h : level + nestingMembers members ≤ maxNesting) : clipMembers level members = members := by
  match members with
  | [] => rfl
  | (name, item) :: rest =>
      rw [nestingMembers] at h
      rw [clipMembers, clip_of_nesting_le (by omega), clipMembers_of_nesting_le (by omega)]

end

theorem isReadable_array (items : List Json) :
    (array items).isReadable = (itemValues? items).isSome := by
  rw [isReadable, value?, Option.isSome_map]

theorem isReadable_object (members : List (String × Json)) :
    (object members).isReadable = (memberValues? members).isSome := by
  rw [isReadable, value?, Option.isSome_map]

theorem isSome_itemValues?_iff {items : List Json} :
    (itemValues? items).isSome = true ↔ ∀ item ∈ items, item.isReadable = true := by
  induction items with
  | nil => simp [itemValues?]
  | cons item rest ih =>
      rw [List.forall_mem_cons, ← ih, itemValues?, isReadable]
      cases item.value? <;> cases itemValues? rest <;> simp

theorem isSome_memberValues?_iff {members : List (String × Json)} :
    (memberValues? members).isSome = true ↔ ∀ member ∈ members, member.2.isReadable = true := by
  induction members with
  | nil => simp [memberValues?]
  | cons member rest ih =>
      obtain ⟨name, item⟩ := member
      rw [List.forall_mem_cons, ← ih, memberValues?, isReadable]
      cases item.value? <;> cases memberValues? rest <;> simp

theorem lt_of_isReadable_atLevel {level : Nat} {j : Json}
    (h : (atLevel level j).isReadable = true) :
    level < maxNesting ∧ j.isReadable = true := by
  rw [atLevel] at h
  split at h
  · exact ⟨‹_›, h⟩
  · cases h

mutual

/-- A tree that still has a value when it is clipped lies within the levels that are left. -/
theorem nesting_le_of_isReadable_clip {level : Nat} {j : Json}
    (h : (j.clip level).isReadable = true) : j.nesting = 0 ∨ level + j.nesting ≤ maxNesting := by
  match j with
  | .array items =>
      rw [clip] at h
      obtain ⟨hlevel, hitems⟩ := lt_of_isReadable_atLevel h
      rw [isReadable_array, isSome_itemValues?_iff] at hitems
      have hbelow := nestingItems_le_of_isReadable_clip hitems
      rw [nesting]
      omega
  | .object members =>
      rw [clip] at h
      obtain ⟨hlevel, hmembers⟩ := lt_of_isReadable_atLevel h
      rw [isReadable_object, isSome_memberValues?_iff] at hmembers
      have hbelow := nestingMembers_le_of_isReadable_clip hmembers
      rw [nesting]
      omega
  | .null => exact .inl rfl
  | .bool b => exact .inl rfl
  | .number n => exact .inl rfl
  | .string s => exact .inl rfl
  | .unreadable => exact .inl rfl

theorem nestingItems_le_of_isReadable_clip {level : Nat} {items : List Json}
    (h : ∀ item ∈ clipItems level items, item.isReadable = true) :
    nestingItems items = 0 ∨ level + nestingItems items ≤ maxNesting := by
  match items with
  | [] => exact .inl rfl
  | item :: rest =>
      rw [clipItems, List.forall_mem_cons] at h
      have hitem := nesting_le_of_isReadable_clip h.1
      have hrest := nestingItems_le_of_isReadable_clip h.2
      rw [nestingItems]
      omega

theorem nestingMembers_le_of_isReadable_clip {level : Nat} {members : List (String × Json)}
    (h : ∀ member ∈ clipMembers level members, member.2.isReadable = true) :
    nestingMembers members = 0 ∨ level + nestingMembers members ≤ maxNesting := by
  match members with
  | [] => exact .inl rfl
  | (name, item) :: rest =>
      rw [clipMembers, List.forall_mem_cons] at h
      have hitem := nesting_le_of_isReadable_clip h.1
      have hrest := nestingMembers_le_of_isReadable_clip h.2
      rw [nestingMembers]
      omega

end

end DesignMarkup.Json
