import DesignMarkup.Proofs.Json.Fields

/-!
Plain trees.  A tree is its own plain value exactly if all of its parts have values and none of its
objects repeats a name.  Nothing is lost when such a tree is read as a plain value, and every plain
value is such a tree.
-/

namespace DesignMarkup.Json

/-- The tree is its own plain value. -/
def IsPlain (j : Json) : Prop :=
  j.value? = some j

theorem isPlain_string (s : String) : (Json.string s).IsPlain :=
  rfl

theorem itemValues?_of_plain {items : List Json} (h : ∀ item ∈ items, item.IsPlain) :
    itemValues? items = some items := by
  induction items with
  | nil => rfl
  | cons item rest ih =>
      rw [List.forall_mem_cons] at h
      obtain ⟨hitem, hrest⟩ := h
      rw [itemValues?, hitem, ih hrest]

theorem memberValues?_of_plain {members : List (String × Json)}
    (h : ∀ member ∈ members, member.2.IsPlain) : memberValues? members = some members := by
  induction members with
  | nil => rfl
  | cons member rest ih =>
      obtain ⟨name, item⟩ := member
      rw [List.forall_mem_cons] at h
      obtain ⟨hitem, hrest⟩ := h
      rw [memberValues?, hitem, ih hrest]

theorem isPlain_array {items : List Json} (h : ∀ item ∈ items, item.IsPlain) :
    (Json.array items).IsPlain := by
  rw [IsPlain, value?, itemValues?_of_plain h, Option.map_some]

theorem isPlain_object {members : List (String × Json)} (hnodup : (members.map Prod.fst).Nodup)
    (h : ∀ member ∈ members, member.2.IsPlain) : (Json.object members).IsPlain := by
  rw [IsPlain, value?, memberValues?_of_plain h, Option.map_some,
    OrderedMap.entries_ofList hnodup]

theorem isPlain_ofFields {fields : List (String × Option Json)}
    (hnodup : (fields.map Prod.fst).Nodup) (h : ∀ field ∈ fields, ∀ j ∈ field.2, j.IsPlain) :
    (ofFields fields).IsPlain := by
  apply isPlain_object
  · exact hnodup.sublist (keys_present_sublist fields)
  · exact forall_mem_present h

theorem isPlain_textObject {texts : List (String × String)} (h : (texts.map Prod.fst).Nodup) :
    (textObject texts).IsPlain := by
  apply isPlain_object
  · rw [List.map_map]
    exact h
  · intro member hmem
    obtain ⟨entry, -, rfl⟩ := List.mem_map.mp hmem
    exact isPlain_string entry.2

/-! Conversely, the parts of a plain tree are plain, and so is whatever a tree has as its value. -/

theorem itemValues?_cons_eq_some {item : Json} {rest values : List Json}
    (h : itemValues? (item :: rest) = some values) :
    ∃ first others, item.value? = some first ∧ itemValues? rest = some others ∧
      values = first :: others := by
  rw [itemValues?] at h
  split at h
  · cases h
    exact ⟨_, _, ‹_›, ‹_›, rfl⟩
  · cases h

theorem memberValues?_cons_eq_some {name : String} {item : Json}
    {rest values : List (String × Json)} (h : memberValues? ((name, item) :: rest) = some values) :
    ∃ first others, item.value? = some first ∧ memberValues? rest = some others ∧
      values = (name, first) :: others := by
  rw [memberValues?] at h
  split at h
  · cases h
    exact ⟨_, _, ‹_›, ‹_›, rfl⟩
  · cases h

theorem plain_of_itemValues?_self {items : List Json} (h : itemValues? items = some items) :
    ∀ item ∈ items, item.IsPlain := by
  induction items with
  | nil => exact List.forall_mem_nil _
  | cons item rest ih =>
      obtain ⟨first, others, hfirst, hothers, heq⟩ := itemValues?_cons_eq_some h
      cases heq
      exact List.forall_mem_cons.mpr ⟨hfirst, ih hothers⟩

theorem plain_of_memberValues?_self {members : List (String × Json)}
    (h : memberValues? members = some members) : ∀ member ∈ members, member.2.IsPlain := by
  induction members with
  | nil => exact List.forall_mem_nil _
  | cons member rest ih =>
      obtain ⟨name, item⟩ := member
      obtain ⟨first, others, hfirst, hothers, heq⟩ := memberValues?_cons_eq_some h
      cases heq
      exact List.forall_mem_cons.mpr ⟨hfirst, ih hothers⟩

theorem map_fst_of_memberValues? {members values : List (String × Json)}
    (h : memberValues? members = some values) : values.map Prod.fst = members.map Prod.fst := by
  induction members generalizing values with
  | nil =>
      cases h
      rfl
  | cons member rest ih =>
      obtain ⟨first, others, -, hothers, rfl⟩ := memberValues?_cons_eq_some h
      rw [List.map_cons, List.map_cons, ih hothers]

theorem isPlain_array_iff {items : List Json} :
    (Json.array items).IsPlain ↔ ∀ item ∈ items, item.IsPlain := by
  constructor
  · intro h
    obtain ⟨values, hvalues, heq⟩ := Option.map_eq_some_iff.mp h
    cases heq
    exact plain_of_itemValues?_self hvalues
  · exact isPlain_array

theorem isPlain_object_iff {members : List (String × Json)} :
    (Json.object members).IsPlain ↔
      (members.map Prod.fst).Nodup ∧ ∀ member ∈ members, member.2.IsPlain := by
  constructor
  · intro h
    obtain ⟨values, hvalues, heq⟩ := Option.map_eq_some_iff.mp h
    have hmembers : (OrderedMap.ofList values).entries = members := Json.object.inj heq
    have hnodup : (members.map Prod.fst).Nodup := by
      rw [← hmembers]
      exact (OrderedMap.ofList values).keys_nodup
    -- Names that are all different already are kept as they are, so nothing was left out.
    rw [OrderedMap.entries_ofList (by rwa [map_fst_of_memberValues? hvalues])] at hmembers
    rw [hmembers] at hvalues
    exact ⟨hnodup, plain_of_memberValues?_self hvalues⟩
  · rintro ⟨hnodup, hmembers⟩
    exact isPlain_object hnodup hmembers

mutual

/-- The value of a tree is plain. -/
theorem isPlain_of_value? {j value : Json} (h : j.value? = some value) : value.IsPlain := by
  match j with
  | .null | .bool _ | .number _ | .string _ =>
      cases h
      rfl
  | .array items =>
      obtain ⟨values, hvalues, rfl⟩ := Option.map_eq_some_iff.mp h
      exact isPlain_array (plain_of_itemValues? hvalues)
  | .object members =>
      obtain ⟨values, hvalues, rfl⟩ := Option.map_eq_some_iff.mp h
      apply isPlain_object (OrderedMap.ofList values).keys_nodup
      intro member hmember
      exact plain_of_memberValues? hvalues member (OrderedMap.mem_of_mem_ofList hmember)
  | .unreadable => cases h

theorem plain_of_itemValues? {items values : List Json} (h : itemValues? items = some values) :
    ∀ value ∈ values, value.IsPlain := by
  match items with
  | [] =>
      cases h
      exact List.forall_mem_nil _
  | item :: rest =>
      obtain ⟨first, others, hfirst, hothers, rfl⟩ := itemValues?_cons_eq_some h
      exact List.forall_mem_cons.mpr ⟨isPlain_of_value? hfirst, plain_of_itemValues? hothers⟩

theorem plain_of_memberValues? {members values : List (String × Json)}
    (h : memberValues? members = some values) : ∀ value ∈ values, value.2.IsPlain := by
  match members with
  | [] =>
      cases h
      exact List.forall_mem_nil _
  | (name, item) :: rest =>
      obtain ⟨first, others, hfirst, hothers, rfl⟩ := memberValues?_cons_eq_some h
      exact List.forall_mem_cons.mpr ⟨isPlain_of_value? hfirst, plain_of_memberValues? hothers⟩

end

/-- What a text is read as is plain. -/
theorem isPlain_of_readValue? {s : String} {j : Json} (h : readValue? s = some j) : j.IsPlain := by
  obtain ⟨tree, -, hvalue⟩ := Option.bind_eq_some_iff.mp h
  exact isPlain_of_value? hvalue

/-- A tree that its text denotes: it is exact, and its own plain value. -/
structure Faithful (j : Json) : Prop where
  exact : j.IsExact
  plain : j.IsPlain

theorem Faithful.readValue?_compact {j : Json} (h : j.Faithful)
    (hnesting : j.nesting ≤ maxNesting) : readValue? j.compact = some j :=
  (bind_read?_compact h.exact hnesting value?).trans h.plain

theorem faithful_string (s : String) : (Json.string s).Faithful :=
  ⟨(isFlat_string s).isExact, isPlain_string s⟩

theorem faithful_textObject {texts : List (String × String)} (h : (texts.map Prod.fst).Nodup) :
    (textObject texts).Faithful :=
  ⟨IsFlat.isExact (.inr ⟨texts, rfl⟩), isPlain_textObject h⟩

theorem faithful_array {items : List Json} (h : ∀ item ∈ items, item.Faithful) :
    (Json.array items).Faithful :=
  ⟨itemsExact_iff.mpr fun item hitem => (h item hitem).exact,
    isPlain_array fun item hitem => (h item hitem).plain⟩

theorem faithful_ofFields {fields : List (String × Option Json)}
    (hnodup : (fields.map Prod.fst).Nodup) (h : ∀ field ∈ fields, ∀ j ∈ field.2, j.Faithful) :
    (ofFields fields).Faithful :=
  ⟨isExact_ofFields fun field hfield j hj => (h field hfield j hj).exact,
    isPlain_ofFields hnodup fun field hfield j hj => (h field hfield j hj).plain⟩

end DesignMarkup.Json
