import DesignMarkup.Command.Files
import DesignMarkup.Proofs.OrderedMap

/-!
Files in a workspace.  A written file is read back as it was written, and whatever lies at another
place stays; a path leads to the same place before and after.  Two names in one folder, neither of
which leads elsewhere, are two places.
-/

namespace DesignMarkup

namespace Path

theorem parts_ne_nil (cs : List Char) : parts cs ≠ [] := by
  cases cs with
  | nil => exact List.cons_ne_nil _ _
  | cons c cs =>
      rw [parts]
      split
      · exact List.cons_ne_nil _ _
      · split <;> exact List.cons_ne_nil _ _

/-- A slash divides a path. -/
theorem parts_append_slash (front back : List Char) :
    parts (front ++ '/' :: back) = parts front ++ parts back := by
  induction front with
  | nil => simp [parts]
  | cons c cs ih =>
      by_cases hslash : c = '/'
      · simp [parts, hslash, ih]
      · obtain ⟨part, rest, hparts⟩ := List.exists_cons_of_ne_nil (parts_ne_nil cs)
        simp [parts, hslash, ih, hparts]

theorem parts_of_no_slash {name : List Char} (h : '/' ∉ name) : parts name = [name] := by
  induction name with
  | nil => rfl
  | cons c cs ih =>
      rw [List.mem_cons, not_or] at h
      simp [parts, Ne.symm h.1, ih h.2]

theorem slash_not_mem_of_mem_parts {part cs : List Char} (h : part ∈ parts cs) : '/' ∉ part := by
  induction cs generalizing part with
  | nil =>
      rw [parts, List.mem_singleton] at h
      simp [h]
  | cons c cs ih =>
      by_cases hslash : c = '/'
      · simp only [parts, hslash, if_true, List.mem_cons] at h
        rcases h with rfl | h
        · exact List.not_mem_nil
        · exact ih h
      · obtain ⟨first, rest, hparts⟩ := List.exists_cons_of_ne_nil (parts_ne_nil cs)
        simp only [parts, hslash, if_false, hparts, List.mem_cons] at h
        rw [hparts] at ih
        rcases h with rfl | h
        · rw [List.mem_cons, not_or]
          exact ⟨Ne.symm hslash, ih List.mem_cons_self⟩
        · exact ih (List.mem_cons_of_mem first h)

/-- A name under a folder is written behind nothing or behind a slash. -/
theorem toList_join (folder name : String) :
    ∃ front, (join folder name).toList = front ++ name.toList ∧
      (front = [] ∨ ∃ before, front = before ++ ['/']) := by
  rw [join]
  split
  · exact ⟨[], rfl, .inl rfl⟩
  · split
    · rename_i hslash
      obtain ⟨before, hbefore⟩ := List.getLast?_eq_some_iff.mp hslash
      exact ⟨folder.toList, String.toList_append, .inr ⟨before, hbefore⟩⟩
    · exact ⟨folder.toList ++ ['/'], by simp [String.toList_append], .inr ⟨_, rfl⟩⟩

theorem mem_fileName_of_mem_stem {path : String} {c : Char} (h : c ∈ (stem path).toList) :
    c ∈ fileName path := by
  rw [stem] at h
  split at h
  · rename_i before hbefore
    rw [String.toList_ofList] at h
    split at h
    · exact h
    · have hdrop : c ∈ (fileName path).reverse.dropWhile (· ≠ '.') := by
        rw [hbefore]
        exact List.mem_cons_of_mem _ (List.mem_reverse.mp h)
      exact List.mem_reverse.mp ((List.dropWhile_sublist _).subset hdrop)
  · rwa [String.toList_ofList] at h

theorem slash_not_mem_stem (path : String) : '/' ∉ (stem path).toList := by
  intro h
  have hname := mem_fileName_of_mem_stem h
  obtain ⟨part, rest, hparts⟩ := List.exists_cons_of_ne_nil (parts_ne_nil path.toList)
  have hlast : fileName path ∈ parts path.toList := by
    rw [fileName, List.getLastD_eq_getLast?, List.getLast?_eq_some_getLast (parts_ne_nil _)]
    exact List.getLast_mem _
  exact slash_not_mem_of_mem_parts hlast hname

end Path

namespace Workspace

variable {w w' : Workspace} {path contents : String}

/-- A name that leads to a place of its own. -/
def IsProperName (name : List Char) : Prop :=
  '/' ∉ name ∧ name ≠ [] ∧ name ≠ ['.'] ∧ name ≠ ['.', '.']

theorem isProperName_stem_append (path : String) {ending : String}
    (hslash : '/' ∉ ending.toList) (hlength : 2 < ending.toList.length) :
    IsProperName (Path.stem path ++ ending).toList := by
  rw [String.toList_append]
  refine ⟨?_, ?_, ?_, ?_⟩
  · rw [List.mem_append, not_or]
    exact ⟨Path.slash_not_mem_stem path, hslash⟩
  all_goals
    intro heq
    have hle := congrArg List.length heq
    simp only [List.length_append, List.length_nil, List.length_cons] at hle
    omega

/-- A path that ends in a proper name leads to a place with that name. -/
theorem getLast?_follow {name : List Char} (hname : IsProperName name) (front : List (List Char))
    {place found : List String} (h : w.follow place (front ++ [name]) = some found) :
    found.getLast? = some (String.ofList name) := by
  obtain ⟨-, hne, hdot, hdots⟩ := hname
  induction front generalizing place with
  | nil =>
      simp only [List.nil_append, follow, hne, hdot, hdots, or_self, if_false] at h
      split at h
      · cases h
      · split at h
        · cases h
          exact List.getLast?_concat
        · cases h
  | cons part rest ih =>
      rw [List.cons_append, follow] at h
      split at h
      · cases h
      · split at h
        · exact ih h
        · split at h
          · exact ih h
          · split at h
            · exact ih h
            · cases h

/-- A proper name under a folder leads to a place with that name. -/
theorem getLast?_resolve_join {folder name : String} (hname : IsProperName name.toList)
    {place : List String} (h : w.resolve (Path.join folder name) = some place) :
    place.getLast? = some name := by
  obtain ⟨front, htext, hfront⟩ := Path.toList_join folder name
  have hparts : Path.parts name.toList = [name.toList] := Path.parts_of_no_slash hname.1
  have hdone : ∀ (start : List String) (parts : List (List Char)),
      w.follow start (parts ++ [name.toList]) = some place → place.getLast? = some name := by
    intro start parts hfollow
    have hlast := getLast?_follow hname parts hfollow
    rwa [String.ofList_toList] at hlast
  rw [resolve, htext] at h
  split at h
  · rcases hfront with rfl | ⟨before, rfl⟩
    · rw [List.nil_append] at h
      split at h
      · cases h
      · rename_i cs hcs
        exact absurd (hcs ▸ List.mem_cons_self) hname.1
      · rw [hparts] at h
        exact hdone _ [] h
    · rw [List.append_assoc, List.singleton_append] at h
      split at h
      · cases h
      · rename_i cs hcs
        cases before with
        | nil =>
            rw [← (List.cons.inj hcs).2, hparts] at h
            exact hdone _ [] h
        | cons c rest =>
            rw [List.cons_append, List.cons.injEq] at hcs
            rw [← hcs.2, Path.parts_append_slash, hparts] at h
            exact hdone _ _ h
      · rw [Path.parts_append_slash, hparts] at h
        exact hdone _ _ h
  · cases h

/-- Two workspaces with the same folders, in which every path leads to the same place. -/
structure SamePlaces (w w' : Workspace) : Prop where
  here_eq : w'.here = w.here
  folders_eq : w'.folders = w.folders

theorem SamePlaces.resolve_eq (h : w.SamePlaces w') (path : String) :
    w'.resolve path = w.resolve path := by
  have hfollow : ∀ parts place, w'.follow place parts = w.follow place parts := by
    intro parts
    induction parts with
    | nil => exact fun _ => rfl
    | cons part rest ih =>
        intro place
        simp only [follow, h.folders_eq, ih]
  simp only [resolve, hfollow, h.here_eq]

/-- A path at which a file can be written: in a folder, and not a folder itself. -/
def Takes (w : Workspace) (path : String) : Prop :=
  ∃ place, w.resolve path = some place ∧ place ∉ w.folders ∧ place.dropLast ∈ w.folders

theorem SamePlaces.takes_iff (h : w.SamePlaces w') (path : String) :
    w'.Takes path ↔ w.Takes path := by
  rw [Takes, Takes, h.resolve_eq, h.folders_eq]

theorem write?_eq_some_iff :
    w.write? path contents = some w' ↔
      ∃ place, w.resolve path = some place ∧ place ∉ w.folders ∧ place.dropLast ∈ w.folders ∧
        w' = { w with files := w.files.insert place contents } := by
  rw [write?]
  cases w.resolve path with
  | none => simp
  | some place => simp [eq_comm, and_assoc]

theorem takes_iff (contents : String) : w.Takes path ↔ ∃ w', w.write? path contents = some w' := by
  simp only [Takes, write?_eq_some_iff]
  constructor
  · rintro ⟨place, hplace, hfolder, hbelow⟩
    exact ⟨_, place, hplace, hfolder, hbelow, rfl⟩
  · rintro ⟨w', place, hplace, hfolder, hbelow, -⟩
    exact ⟨place, hplace, hfolder, hbelow⟩

theorem samePlaces_write? (h : w.write? path contents = some w') : w.SamePlaces w' := by
  obtain ⟨place, -, -, -, rfl⟩ := write?_eq_some_iff.mp h
  exact ⟨rfl, rfl⟩

theorem read_of_find? {place : List String} (hplace : w.resolve path = some place)
    (hfile : w.files.find? place = some contents) : w.read path = .text contents := by
  rw [read, hplace]
  simp only [hfile]

/-- What was written at a path is read there. -/
theorem read_write? (h : w.write? path contents = some w') : w'.read path = .text contents := by
  have hsame := (samePlaces_write? h).resolve_eq path
  obtain ⟨place, hplace, -, -, rfl⟩ := write?_eq_some_iff.mp h
  rw [read, hsame, hplace]
  simp

/-- Writing a file as it is changes nothing. -/
theorem write?_of_read (hread : w.read path = .text contents) (htakes : w.Takes path) :
    w.write? path contents = some w := by
  obtain ⟨place, hplace, hfolder, hbelow⟩ := htakes
  rw [read, hplace] at hread
  cases hfind : w.files.find? place with
  | none =>
      simp only [hfind, if_neg hfolder] at hread
      cases hread
  | some found =>
      simp only [hfind, FileReading.text.injEq] at hread
      rw [hread] at hfind
      exact write?_eq_some_iff.mpr ⟨place, hplace, hfolder, hbelow, by
        rw [OrderedMap.insert_of_find? hfind]⟩

/-- What lies at other places is read as before. -/
theorem read_write?_of_ne (h : w.write? path contents = some w') {other : String}
    (hother : w.resolve other ≠ w.resolve path) : w'.read other = w.read other := by
  have hsame := (samePlaces_write? h).resolve_eq other
  obtain ⟨place, hplace, -, -, rfl⟩ := write?_eq_some_iff.mp h
  rw [read, read, hsame]
  cases hresolve : w.resolve other with
  | none => rfl
  | some found =>
      have hne : place ≠ found := by
        rintro rfl
        exact hother (hresolve.trans hplace.symm)
      simp [hne]

end Workspace
end DesignMarkup
