import DesignMarkup.Proofs.Document.Nesting
import DesignMarkup.Proofs.Json.Clip

/-!
Which written snapshots are accepted.  A tree that a layer is read from has no part without a value,
so that no layer of an accepted text lies too deep: a snapshot that was written is accepted exactly
if it nests no deeper than a text may, and is then the one that was written.
-/

namespace DesignMarkup

namespace Json

variable {α : Type} {names : List String} {members : List (String × Json)} {r : Record}

/-- Among members whose known names do not repeat, each known one is found. -/
theorem lookup_of_record? (h : (object members).record? names = some r) {name : String}
    (hname : name ∈ names) {item : Json} (hmem : (name, item) ∈ members) :
    OrderedMap.lookup name r.fields = some item := by
  simp only [record?, Option.ite_none_right_eq_some, Option.some.injEq] at h
  obtain ⟨hnodup, rfl⟩ := h
  exact OrderedMap.lookup_of_mem hnodup (List.mem_filter.mpr ⟨hmem, decide_eq_true hname⟩)

/-- What was read for a field that is there was read from it. -/
theorem Record.read_of_withDefault {name : String} {default a : α} {read : Json → Option α}
    (h : r.withDefault name default read = some a) {item : Json}
    (hitem : OrderedMap.lookup name r.fields = some item) : read item = some a := by
  rwa [withDefault, hitem] at h

theorem isReadable_of_list? {read : Json → Option α} {j : Json} {values : List α}
    (h : j.list? read = some values)
    (hread : ∀ item value, read item = some value → item.isReadable = true) :
    j.isReadable = true := by
  match j with
  | .array items =>
      rw [isReadable_array, isSome_itemValues?_iff]
      intro item hitem
      obtain ⟨value, hvalue⟩ := exists_of_mapM h hitem
      exact hread item value hvalue

theorem isReadable_of_texts? {j : Json} {texts : OrderedMap String String}
    (h : j.texts? = some texts) : j.isReadable = true := by
  match j with
  | .object members =>
      rw [isReadable_object, isSome_memberValues?_iff]
      intro member hmember
      obtain ⟨entries, hentries, -⟩ := Option.map_eq_some_iff.mp h
      obtain ⟨entry, hentry⟩ := exists_of_mapM hentries hmember
      obtain ⟨text, htext, -⟩ := Option.map_eq_some_iff.mp hentry
      cases hitem : member.2 <;> simp [hitem, text?] at htext
      rfl

end Json

namespace Layer

/-- A tree that a layer is read from has no part without a value, whatever else it holds. -/
theorem isReadable_of_ofJsonWithin? {depth : Nat} {j : Json} {layer : Layer}
    (h : ofJsonWithin? depth j = some layer) : j.isReadable = true := by
  induction depth generalizing j layer with
  | zero =>
      rw [ofJsonWithin?] at h
      cases h
  | succ depth ih =>
      obtain ⟨members, rfl⟩ : ∃ members, j = .object members := by
        cases j with
        | object members => exact ⟨members, rfl⟩
        | _ => cases h
      rw [ofJsonWithin?] at h
      simp only [Option.bind_eq_bind, Option.bind_eq_some_iff] at h
      obtain ⟨r, hr, h⟩ := h
      split at h
      · rename_i hothers
        simp only [Option.bind_eq_some_iff] at h
        obtain ⟨_, -, _, -, data, hdata, children, hchildren, -⟩ := h
        rw [Json.isReadable_object, Json.isSome_memberValues?_iff]
        rintro ⟨name, item⟩ hmem
        by_cases hname : name ∈ fieldNames
        · have hlookup := Json.lookup_of_record? hr hname hmem
          simp only [fieldNames, List.mem_cons, List.not_mem_nil, or_false] at hname
          rcases hname with rfl | rfl
          · exact Json.isReadable_of_texts? (Json.Record.read_of_withDefault hdata hlookup)
          · exact Json.isReadable_of_list? (Json.Record.read_of_withDefault hchildren hlookup)
              fun _ _ => ih
        · exact List.all_eq_true.mp hothers _
            (List.mem_filter.mpr ⟨hmem, decide_eq_true hname⟩)
      · cases h

end Layer

namespace Snapshot

/-- A snapshot itself takes two levels, so that only its layers can lie too deep. -/
theorem clip_toJson (s : Snapshot) :
    s.toJson.clip 0 = .object [("fileName", .string s.fileName), ("pageName", .string s.pageName),
      ("selection", .array (s.selection.map ElementId.toJson)),
      ("elements", .array (Json.clipItems 2 (Layer.listToJson s.layers)))] := by
  have hselection : Json.clipItems 2 (s.selection.map ElementId.toJson) =
      s.selection.map ElementId.toJson := by
    apply Json.clipItems_of_nesting_le
    rw [nesting_selection]
    decide
  simp [toJson, Json.clip, Json.clipMembers, Json.atLevel, Json.maxNesting, hselection]

/-- Of a written snapshot that is read, no layer lies too deep. -/
theorem nesting_le_of_ofJson?_clip {s s' : Snapshot} (h : ofJson? (s.toJson.clip 0) = some s') :
    s.toJson.nesting ≤ Json.maxNesting := by
  rw [clip_toJson, ofJson?] at h
  simp only [Option.bind_eq_bind, Option.bind_eq_some_iff] at h
  obtain ⟨r, hr, _, -, _, -, _, -, layers, hlayers, -⟩ := h
  have hlookup : OrderedMap.lookup "elements" r.fields =
      some (.array (Json.clipItems 2 (Layer.listToJson s.layers))) :=
    Json.lookup_of_record? hr (by decide) (by simp)
  have hreadable := Json.isReadable_of_list? (Json.Record.read_of_withDefault hlayers hlookup)
    fun _ _ => Layer.isReadable_of_ofJsonWithin?
  rw [Json.isReadable_array, Json.isSome_itemValues?_iff] at hreadable
  have hnesting := Json.nestingItems_le_of_isReadable_clip hreadable
  rw [nesting_toJson]
  rcases hnesting with hflat | hle
  · rw [hflat]
    decide
  · omega

/-- A written snapshot is read back exactly if it nests no deeper than a text may. -/
theorem ofText?_lines (s : Snapshot) :
    ofText? (s.toJson.indented ++ "\n") =
      if s.toJson.nesting ≤ Json.maxNesting then some s else none := by
  rw [ofText?]
  split
  · rename_i hnesting
    rw [Json.read?_lines s.isExact_toJson hnesting]
    exact s.ofJson?_toJson
  · rename_i hnesting
    rw [Json.read?_lines_clip s.isExact_toJson, Option.bind_some, Option.eq_none_iff_forall_ne_some]
    exact fun s' hread => hnesting (nesting_le_of_ofJson?_clip hread)

end Snapshot

end DesignMarkup
