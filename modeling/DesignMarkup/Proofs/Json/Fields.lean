import DesignMarkup.Json.Record
import DesignMarkup.Proofs.Json.RoundTrip
import DesignMarkup.Proofs.OrderedMap

/-!
Records written field by field.  A record that is written with each of its names at most once is
read with exactly the fields that are present.
-/

namespace DesignMarkup.Json

open OrderedMap (lookup lookup_eq_none_iff)

variable {β : Type}

/-- The entries of those fields that have a value. -/
def present (fields : List (String × Option β)) : List (String × β) :=
  fields.filterMap fun field => field.2.map (Prod.mk field.1)

/-- The record that is read from written fields. -/
def Record.written (fields : List (String × Option Json)) : Record :=
  ⟨present fields, false⟩

theorem keys_present_sublist (fields : List (String × Option β)) :
    ((present fields).map Prod.fst).Sublist (fields.map Prod.fst) := by
  induction fields with
  | nil => exact List.Sublist.refl _
  | cons field rest ih =>
      obtain ⟨name, value⟩ := field
      cases value with
      | none => exact ih.cons name
      | some value => exact ih.cons_cons name

theorem lookup_present (name : String) {fields : List (String × Option β)}
    (hnodup : (fields.map Prod.fst).Nodup) :
    lookup name (present fields) = (lookup name fields).join := by
  induction fields with
  | nil => rfl
  | cons field rest ih =>
      obtain ⟨other, value⟩ := field
      rw [List.map_cons, List.nodup_cons] at hnodup
      have hrest := ih hnodup.2
      by_cases hname : other = name
      · subst hname
        have hnone : lookup other (present rest) = none := by
          rw [lookup_eq_none_iff]
          intro hmem
          apply hnodup.1
          exact (keys_present_sublist rest).subset hmem
        cases value with
        | none => simpa [present, lookup] using hnone
        | some value => simp [present, lookup]
      · cases value with
        | none => simpa [present, lookup, hname] using hrest
        | some value => simpa [present, lookup, hname] using hrest

theorem mem_present {fields : List (String × Option β)} {name : String} {value : β} :
    (name, value) ∈ present fields ↔ (name, some value) ∈ fields := by
  simp only [present, List.mem_filterMap, Option.map_eq_some_iff, Prod.mk.injEq]
  constructor
  · rintro ⟨field, hmem, item, hitem, rfl, rfl⟩
    rw [← hitem]
    exact hmem
  · intro hmem
    exact ⟨(name, some value), hmem, value, rfl, rfl, rfl⟩

theorem filter_present (keep : String → Bool) (fields : List (String × Option β)) :
    (present fields).filter (fun member => keep member.1) =
      present (fields.filter fun field => keep field.1) := by
  induction fields with
  | nil => rfl
  | cons field rest ih =>
      obtain ⟨name, value⟩ := field
      cases hkeep : keep name <;> cases value <;> simp_all [present]

/-- The fields go by the given names, each of which is used once. -/
structure Distinct (names : List String) (fields : List (String × Option Json)) : Prop where
  names_eq : fields.map Prod.fst = names
  nodup : names.Nodup

theorem Distinct.nodup_fields {names : List String} {fields : List (String × Option Json)}
    (h : Distinct names fields) : (fields.map Prod.fst).Nodup := by
  rw [h.names_eq]
  exact h.nodup

/-- An object whose names are distinct and all known is read as the record of its members. -/
theorem record?_object {names : List String} {members : List (String × Json)}
    (hnodup : (members.map Prod.fst).Nodup) (hnames : ∀ member ∈ members, member.1 ∈ names) :
    record? names (.object members) = some ⟨members, false⟩ := by
  have hknown : members.filter (fun member => member.1 ∈ names) = members :=
    List.filter_eq_self.mpr fun member hmem => decide_eq_true (hnames member hmem)
  simp only [record?, hknown]
  rw [if_pos hnodup]

/-- An object that is written with the names of a record in their order is read as its members. -/
theorem record?_of_names {names : List String} (hnodup : names.Nodup)
    {members : List (String × Json)} (hnames : members.map Prod.fst = names) :
    record? names (.object members) = some ⟨members, false⟩ := by
  apply record?_object
  · rw [hnames]
    exact hnodup
  · intro member hmem
    rw [← hnames]
    exact List.mem_map_of_mem hmem

theorem record?_ofFields {names : List String} {fields : List (String × Option Json)}
    (h : Distinct names fields) :
    record? names (ofFields fields) = some (Record.written fields) := by
  apply record?_object
  · exact h.nodup_fields.sublist (keys_present_sublist fields)
  · intro member hmem
    have hfield : (member.1, some member.2) ∈ fields := mem_present.mp hmem
    rw [← h.names_eq]
    exact List.mem_map_of_mem hfield

/-- A record of some of the written fields; those it does not know are passed over. -/
theorem record?_ofFields_of_nodup (names : List String) {fields : List (String × Option Json)}
    (hnodup : (fields.map Prod.fst).Nodup) :
    record? names (ofFields fields) =
      some ⟨(present fields).filter fun member => member.1 ∈ names, false⟩ := by
  have hpresent : ((present fields).map Prod.fst).Nodup :=
    hnodup.sublist (keys_present_sublist fields)
  have hknown : (((present fields).filter fun member => member.1 ∈ names).map Prod.fst).Nodup :=
    hpresent.sublist (List.filter_sublist.map Prod.fst)
  rw [ofFields, record?]
  exact if_pos hknown

namespace Distinct

variable {α : Type} {names : List String} {fields : List (String × Option Json)}

theorem required_eq (h : Distinct names fields) (name : String) {j : Json}
    (hfield : lookup name fields = some (some j)) (read : Json → Option α) :
    (Record.written fields).required name read = read j := by
  simp [Record.required, Record.written, lookup_present name h.nodup_fields, hfield]

theorem withDefault_eq (h : Distinct names fields) (name : String) {j : Json}
    (hfield : lookup name fields = some (some j)) (default : α) (read : Json → Option α) :
    (Record.written fields).withDefault name default read = read j := by
  simp [Record.withDefault, Record.written, lookup_present name h.nodup_fields, hfield]

/-- A field that is left out when it has no value is read back when no value is written as
`null`. -/
theorem optional_eq (h : Distinct names fields) (name : String) {value : Option α}
    {write : α → Json} {read : Json → Option α}
    (hfield : lookup name fields = some (value.map write))
    (hread : ∀ a, read (write a) = some a) (hnull : ∀ a, write a ≠ .null) :
    (Record.written fields).optional name read = some value := by
  rw [Record.optional, Record.written, lookup_present name h.nodup_fields, hfield]
  cases value with
  | none => rfl
  | some a =>
      rw [Option.join_some, Option.map_some]
      split
      · rename_i heq
        cases heq
      · rename_i heq
        exact absurd (Option.some.inj heq) (hnull a)
      · rename_i heq
        rw [← Option.some.inj heq, hread, Option.map_some]

end Distinct

/-! The depth and the exactness of a written object are those of its parts. -/

theorem nestingMembers_le {members : List (String × Json)} {depth : Nat}
    (h : ∀ member ∈ members, member.2.nesting ≤ depth) : nestingMembers members ≤ depth := by
  induction members with
  | nil => exact Nat.zero_le depth
  | cons member rest ih =>
      obtain ⟨name, item⟩ := member
      rw [nestingMembers, Nat.max_le]
      rw [List.forall_mem_cons] at h
      constructor
      · exact h.1
      · exact ih h.2

theorem nestingItems_le {items : List Json} {depth : Nat}
    (h : ∀ item ∈ items, item.nesting ≤ depth) : nestingItems items ≤ depth := by
  induction items with
  | nil => exact Nat.zero_le depth
  | cons item rest ih =>
      rw [nestingItems, Nat.max_le]
      rw [List.forall_mem_cons] at h
      exact ⟨h.1, ih h.2⟩

theorem nesting_le_of_mem {members : List (String × Json)} {member : String × Json}
    (h : member ∈ members) : member.2.nesting ≤ nestingMembers members := by
  induction members with
  | nil => cases h
  | cons first rest ih =>
      rw [nestingMembers]
      rcases List.mem_cons.mp h with rfl | hrest
      · exact Nat.le_max_left _ _
      · exact Nat.le_trans (ih hrest) (Nat.le_max_right _ _)

theorem nesting_le_of_mem_items {items : List Json} {item : Json} (h : item ∈ items) :
    item.nesting ≤ nestingItems items := by
  induction items with
  | nil => cases h
  | cons first rest ih =>
      rw [nestingItems]
      rcases List.mem_cons.mp h with rfl | hrest
      · exact Nat.le_max_left _ _
      · exact Nat.le_trans (ih hrest) (Nat.le_max_right _ _)

theorem membersExact_iff {members : List (String × Json)} :
    MembersExact members ↔ ∀ member ∈ members, member.2.IsExact := by
  induction members with
  | nil => simp [MembersExact]
  | cons member rest ih =>
      obtain ⟨name, item⟩ := member
      rw [MembersExact, ih]
      simp

theorem itemsExact_iff {items : List Json} :
    ItemsExact items ↔ ∀ item ∈ items, item.IsExact := by
  induction items with
  | nil => simp [ItemsExact]
  | cons item rest ih =>
      rw [ItemsExact, ih]
      simp

/-- What holds of every written field of a record, given that each field that is present has it. -/
theorem forall_mem_present {fields : List (String × Option Json)} {P : Json → Prop}
    (h : ∀ field ∈ fields, ∀ j ∈ field.2, P j) : ∀ member ∈ present fields, P member.2 := by
  intro member hmem
  exact h (member.1, some member.2) (mem_present.mp hmem) member.2 rfl

theorem nesting_ofFields_le_iff {fields : List (String × Option Json)} {depth : Nat} :
    (ofFields fields).nesting ≤ depth + 1 ↔
      ∀ field ∈ fields, ∀ j ∈ field.2, j.nesting ≤ depth := by
  rw [ofFields, nesting, Nat.add_le_add_iff_right]
  constructor
  · rintro h ⟨name, value⟩ hfield j rfl
    exact Nat.le_trans (nesting_le_of_mem (mem_present.mpr hfield)) h
  · intro h
    exact nestingMembers_le (forall_mem_present h)

theorem isExact_ofFields {fields : List (String × Option Json)}
    (h : ∀ field ∈ fields, ∀ j ∈ field.2, j.IsExact) : (ofFields fields).IsExact :=
  membersExact_iff.mpr (forall_mem_present h)

/-- The object of given texts, names repeated or not. -/
def textObject (texts : List (String × String)) : Json :=
  .object (texts.map fun entry => (entry.1, .string entry.2))

/-- A text, or an object of texts: the parts that records are made of. -/
def IsFlat (j : Json) : Prop :=
  (∃ s, j = .string s) ∨ ∃ texts, j = textObject texts

theorem isFlat_string (s : String) : (Json.string s).IsFlat :=
  .inl ⟨s, rfl⟩

theorem isFlat_ofTexts (texts : OrderedMap String String) : (ofTexts texts).IsFlat :=
  .inr ⟨texts.entries, rfl⟩

theorem nesting_textObject (texts : List (String × String)) : (textObject texts).nesting = 1 := by
  have hmembers : nestingMembers (texts.map fun entry => (entry.1, .string entry.2)) ≤ 0 := by
    apply nestingMembers_le
    intro member hmem
    obtain ⟨entry, -, rfl⟩ := List.mem_map.mp hmem
    exact Nat.le_refl 0
  rw [textObject, nesting, Nat.le_zero.mp hmembers]

theorem IsFlat.nesting_le {j : Json} (h : j.IsFlat) : j.nesting ≤ 1 := by
  rcases h with ⟨s, rfl⟩ | ⟨texts, rfl⟩
  · exact Nat.zero_le 1
  · exact Nat.le_of_eq (nesting_textObject texts)

theorem IsFlat.isExact {j : Json} (h : j.IsFlat) : j.IsExact := by
  rcases h with ⟨s, rfl⟩ | ⟨texts, rfl⟩
  · trivial
  · apply membersExact_iff.mpr
    intro member hmem
    obtain ⟨entry, -, rfl⟩ := List.mem_map.mp hmem
    trivial

/-- A tree that does not nest too deep is read from its text. -/
theorem bind_read?_compact {α : Type} {j : Json} (hexact : j.IsExact)
    (hnesting : j.nesting ≤ maxNesting) (read : Json → Option α) :
    (read? j.compact).bind read = read j := by
  rw [read?_compact hexact hnesting, Option.bind_some]

/-- The empty text holds nothing. -/
theorem ne_empty_of_bind_read? {α : Type} {s : String} {read : Json → Option α} {value : α}
    (h : (read? s).bind read = some value) : s ≠ "" := by
  rintro rfl
  have hnone : read? "" = none := by decide
  rw [hnone] at h
  cases h

/-- The text of a record of flat parts is read back as the tree that was written. -/
theorem read?_ofFields_of_flat {fields : List (String × Option Json)}
    (h : ∀ field ∈ fields, ∀ j ∈ field.2, j.IsFlat) :
    read? (ofFields fields).compact = some (ofFields fields) := by
  have hexact : (ofFields fields).IsExact :=
    isExact_ofFields fun field hfield j hj => (h field hfield j hj).isExact
  have hnesting : (ofFields fields).nesting ≤ 1 + 1 :=
    nesting_ofFields_le_iff.mpr fun field hfield j hj => (h field hfield j hj).nesting_le
  exact read?_compact hexact (Nat.le_trans hnesting (by decide))

/-- A list is read back when each of its items is. -/
theorem mapM_map_of_read {α β : Type} (write : α → β) (read : β → Option α) {items : List α}
    (h : ∀ item ∈ items, read (write item) = some item) :
    (items.map write).mapM read = some items := by
  induction items with
  | nil => rfl
  | cons item rest ih =>
      rw [List.forall_mem_cons] at h
      rw [List.map_cons, List.mapM_cons, h.1, ih h.2]
      rfl

@[simp] theorem texts?_ofTexts (texts : OrderedMap String String) :
    texts? (ofTexts texts) = some texts := by
  have hentry : ∀ entry ∈ texts.entries,
      (text? (Json.string entry.2)).map (entry.1, ·) = some entry := fun _ _ => rfl
  have hmembers := mapM_map_of_read (fun entry => (entry.1, Json.string entry.2))
    (fun member => (text? member.2).map (member.1, ·)) hentry
  simp [texts?, ofTexts, hmembers]

@[simp] theorem text?_string (text : String) : (string text).text? = some text :=
  rfl

theorem isExact_ofInt64 (n : Int64) : (ofInt64 n).IsExact := by
  have hlow := Int64.le_toInt n
  have hhigh := Int64.toInt_lt n
  simp only [ofInt64, IsExact, Number.InRange, Nat.pow_eq]
  omega

@[simp] theorem int64?_ofInt64 (n : Int64) : (ofInt64 n).int64? = some n := by
  have hlow := Int64.le_toInt n
  have hhigh := Int64.toInt_lt n
  simp only [ofInt64, int64?, Nat.pow_eq]
  rw [if_pos (by omega), Int64.ofInt_toInt]

theorem isExact_ofUInt64 (n : UInt64) : (ofUInt64 n).IsExact := by
  have hhigh := UInt64.toNat_lt n
  simp only [ofUInt64, IsExact, Number.InRange, Nat.pow_eq]
  omega

@[simp] theorem uint64?_ofUInt64 (n : UInt64) : (ofUInt64 n).uint64? = some n := by
  have hhigh := UInt64.toNat_lt n
  simp only [ofUInt64, uint64?, Nat.pow_eq]
  rw [if_pos (by omega), Int.toNat_natCast, UInt64.ofNat_toNat]

end DesignMarkup.Json
