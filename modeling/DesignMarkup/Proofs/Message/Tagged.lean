import DesignMarkup.Message.Tagged
import DesignMarkup.Proofs.Json.Fields

/-!
Values that name their own kind.  A value that was written by this library has no part without a
value, so its kind and its fields are found again.
-/

namespace DesignMarkup.Json

mutual

theorem isReadable_of_isExact {j : Json} (h : j.IsExact) : j.isReadable = true := by
  match j with
  | .null => rfl
  | .bool _ => rfl
  | .number _ => rfl
  | .string _ => rfl
  | .array items =>
      rw [isReadable_array, isSome_itemValues?_iff]
      exact isReadable_of_itemsExact h
  | .object members =>
      rw [isReadable_object, isSome_memberValues?_iff]
      exact isReadable_of_membersExact h
  | .unreadable => cases h

theorem isReadable_of_itemsExact {items : List Json} (h : ItemsExact items) :
    ∀ item ∈ items, item.isReadable = true := by
  match items with
  | [] =>
      intro item hitem
      cases hitem
  | item :: rest =>
      rw [List.forall_mem_cons]
      exact ⟨isReadable_of_isExact h.1, isReadable_of_itemsExact h.2⟩

theorem isReadable_of_membersExact {members : List (String × Json)} (h : MembersExact members) :
    ∀ member ∈ members, member.2.isReadable = true := by
  match members with
  | [] =>
      intro member hmember
      cases hmember
  | (_, item) :: rest =>
      rw [List.forall_mem_cons]
      exact ⟨isReadable_of_isExact h.1, isReadable_of_membersExact h.2⟩

end

/-- The fields of a value are found again, provided that none of them goes by the name under which
the kind is written. -/
theorem tagged?_ofTagged (kind : String) {fields : List (String × Json)}
    (hexact : (ofTagged kind fields).IsExact) (hnames : ∀ field ∈ fields, field.1 ≠ "type") :
    (ofTagged kind fields).tagged? = some (kind, .object fields) := by
  have hreadable : (object (("type", .string kind) :: fields)).isReadable = true :=
    isReadable_of_isExact hexact
  have hkind : (("type", Json.string kind) :: fields).filter (fun field => field.1 = "type") =
      [("type", .string kind)] := by
    rw [List.filter_cons_of_pos rfl, List.filter_eq_nil_iff.mpr]
    intro field hfield
    simpa using hnames field hfield
  have hothers : (("type", Json.string kind) :: fields).filter (fun field => field.1 ≠ "type") =
      fields := by
    rw [List.filter_cons_of_neg (by simp), List.filter_eq_self]
    intro field hfield
    simpa using hnames field hfield
  rw [ofTagged, tagged?]
  simp only [hreadable, hkind, hothers]
  rfl

end DesignMarkup.Json
