import DesignMarkup.Proofs.OrderedMap
import DesignMarkup.Proofs.Text.Trim
import DesignMarkup.Tag.Properties

/-!
Clean properties.  Entries with a blank key or value are left out and the others are trimmed; where
keys become equal by that, the first of their entries gives the place and the last one the value.
What is clean is left as it is.
-/

namespace DesignMarkup.Properties

/-- An entry counts if neither its key nor its value is blank. -/
def counts (entry : String × String) : Bool :=
  !Text.isBlankText entry.1 && !Text.isBlankText entry.2

/-- An entry with its key and value trimmed. -/
def trimEntry (entry : String × String) : String × String :=
  (Text.trim entry.1, Text.trim entry.2)

theorem cleanEntry?_eq (entry : String × String) :
    cleanEntry? entry = if counts entry then some (trimEntry entry) else none := by
  have hkey := Text.isBlankText_iff_trim_eq_empty entry.1
  have hvalue := Text.isBlankText_iff_trim_eq_empty entry.2
  cases hblankKey : Text.isBlankText entry.1 <;> cases hblankValue : Text.isBlankText entry.2 <;>
    simp_all [ cleanEntry?, counts, trimEntry]

/-- The map is built from the entries that count. -/
theorem clean_eq (properties : Properties) :
    properties.clean = .ofList ((properties.entries.filter counts).map trimEntry) := by
  rw [clean, ← List.filterMap_eq_map, List.filterMap_filter]
  exact congrArg OrderedMap.ofList (List.filterMap_congr fun entry _ => cleanEntry?_eq entry)

/-- The key and the value of an entry have no blanks at their ends. -/
def IsTightEntry (entry : String × String) : Prop :=
  Text.IsTight entry.1 ∧ Text.IsTight entry.2

theorem isTightEntry_trimEntry {entry : String × String} (h : counts entry = true) :
    IsTightEntry (trimEntry entry) := by
  simp only [counts, Bool.and_eq_true, Bool.not_eq_true'] at h
  exact ⟨Text.isTight_trim h.1, Text.isTight_trim h.2⟩

theorem IsTightEntry.cleanEntry?_eq {entry : String × String} (h : IsTightEntry entry) :
    cleanEntry? entry = some entry := by
  rw [ cleanEntry?, h.1.trim_eq, h.2.trim_eq, if_neg]
  rintro (hkey | hvalue)
  · exact h.1.ne_empty hkey
  · exact h.2.ne_empty hvalue

/-- Every entry that is left has been trimmed. -/
theorem isTightEntry_of_mem_clean {properties : Properties} {entry : String × String}
    (h : entry ∈ properties.clean.entries) : IsTightEntry entry := by
  rw [clean_eq] at h
  obtain ⟨source, hsource, rfl⟩ := List.mem_map.mp (OrderedMap.mem_of_mem_ofList h)
  exact isTightEntry_trimEntry (List.mem_filter.mp hsource).2

/-- Cleaning changes nothing where there is nothing to trim. -/
theorem clean_eq_self {properties : Properties}
    (h : ∀ entry ∈ properties.entries, IsTightEntry entry) : properties.clean = properties := by
  have hentries : properties.entries.filterMap cleanEntry? = properties.entries :=
    (List.filterMap_congr fun entry hentry => (h entry hentry).cleanEntry?_eq).trans
      List.filterMap_some
  rw [clean, hentries, OrderedMap.ofList_entries]

/-- The keys of the entries that count, trimmed, repeated ones included. -/
def countedKeys (properties : Properties) : List String :=
  (properties.entries.filter counts).map fun entry => Text.trim entry.1

/-- What cleaning comes to. -/
structure IsCleanOf (cleaned properties : Properties) : Prop where
  keys_eq : cleaned.keys = properties.countedKeys.eraseDups
  keys_nodup : cleaned.keys.Nodup
  /-- The first entry of a key gives its place. -/
  keys_order : cleaned.keys.Pairwise fun x y =>
    properties.countedKeys.idxOf x < properties.countedKeys.idxOf y
  /-- The last entry of a key gives its value. -/
  find?_eq : ∀ key, cleaned.find? key =
    (properties.entries.filter fun entry =>
      counts entry && Text.trim entry.1 = key).getLast?.map fun entry => Text.trim entry.2
  tight : ∀ entry ∈ cleaned.entries, IsTightEntry entry
  clean_eq_self : cleaned.clean = cleaned

/-- Cleaning gives a normal form of any properties. -/
theorem isCleanOf_clean (properties : Properties) : properties.clean.IsCleanOf properties := by
  have hkeys : properties.clean.keys = properties.countedKeys.eraseDups := by
    rw [clean_eq, OrderedMap.keys_ofList, List.map_map]
    rfl
  constructor
  case keys_eq => exact hkeys
  case keys_nodup => exact properties.clean.keys_nodup
  case keys_order =>
    rw [hkeys]
    exact pairwise_idxOf_eraseDups _
  case find?_eq =>
    intro key
    rw [clean_eq, OrderedMap.find?_ofList, List.filter_map, List.getLast?_map, Option.map_map,
      List.filter_filter]
    simp only [Function.comp_def, trimEntry, Bool.and_comm]
    rfl
  case tight => exact fun _ => isTightEntry_of_mem_clean
  case clean_eq_self => exact clean_eq_self fun _ => isTightEntry_of_mem_clean

/-- Three spellings of one key, and an entry without a value. -/
example : (clean (.ofList [(" type", "a"), ("name", "n"), ("type", " b "), ("type ", " "),
    (" type ", "c")])).entries = [("type", "c"), ("name", "n")] := by
  decide

end DesignMarkup.Properties
