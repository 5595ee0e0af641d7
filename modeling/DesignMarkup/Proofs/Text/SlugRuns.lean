import DesignMarkup.Proofs.Text.Fields
import DesignMarkup.Proofs.Text.Runs
import DesignMarkup.Proofs.Text.Slug

/-!
Slugs as runs of letters and digits.  A slug joins the runs of a name by hyphens, lower-cased; its
own runs are these again, and what stands between two runs of a name makes no difference to it.
-/

namespace DesignMarkup.Text

/-- A character as it stands in a slug, with a hyphen for every separator. -/
def slugChar (c : Char) : Char :=
  if isSlugChar c then c.toLower else '-'

/-- The words of a slug: the parts between hyphens once every separator is a hyphen. -/
def slugWords (cs : List Char) : List (List Char) :=
  fields (· == '-') (cs.map slugChar)

/-- A run as a word of a slug. -/
def Run.word (run : Run) : List Char :=
  run.chars.map Char.toLower

/-- Characters between the words of a name. -/
structure Separators where
  text : String
  ne_empty : text ≠ ""
  isGap : IsGap isSlugChar text.toList

theorem map_slugChar_of_slug {chars : List Char} (h : ∀ c ∈ chars, isSlugChar c = true) :
    chars.map slugChar = chars.map Char.toLower :=
  List.map_congr_left fun c hc => if_pos (h c hc)

theorem isHyphen_of_isGap {gap : List Char} (h : IsGap isSlugChar gap) :
    ∀ c ∈ gap.map slugChar, (c == '-') = true := by
  intro c hc
  obtain ⟨separator, hseparator, rfl⟩ := List.mem_map.mp hc
  simp [slugChar, h separator hseparator]

theorem not_isHyphen_of_slug {chars : List Char} (h : ∀ c ∈ chars, isSlugChar c = true) :
    ∀ c ∈ chars.map Char.toLower, (c == '-') = false := by
  intro c hc
  obtain ⟨own, hown, rfl⟩ := List.mem_map.mp hc
  exact beq_false_of_ne (toLower_ne_hyphen (h own hown))

theorem stops_map_slugChar {after : List Char} (h : Stops isSlugChar after) :
    Stops (fun c => !(c == '-')) (after.map slugChar) := by
  cases after with
  | nil => exact stops_nil _
  | cons c rest =>
      rw [stops_cons] at h
      rw [List.map_cons, stops_cons]
      simp [slugChar, h]

theorem slugWords_of_isGap {gap : List Char} (h : IsGap isSlugChar gap) : slugWords gap = [] :=
  fields_of_separators (isHyphen_of_isGap h)

theorem slugWords_of_isFront {gap chars after : List Char}
    (h : IsFront isSlugChar gap chars after) :
    slugWords (gap ++ chars ++ after) = chars.map Char.toLower :: slugWords after := by
  have hword : chars.map Char.toLower ≠ [] := by simpa using h.ne_nil
  rw [slugWords, List.append_assoc, List.map_append, List.map_append,
    fields_separators_append (isHyphen_of_isGap h.isGap), map_slugChar_of_slug h.forall_in,
    fields_append_of_stops hword (not_isHyphen_of_slug h.forall_in) (stops_map_slugChar h.stops),
    ← slugWords]

/-- The words of a slug are the runs of the name. -/
theorem slugWords_eq (cs : List Char) : slugWords cs = (runs isSlugChar cs).map Run.word := by
  induction cs using run_induction isSlugChar with
  | gap gap h => rw [slugWords_of_isGap h, runs_of_isGap h, List.map_nil]
  | run gap chars after h ih =>
      rw [slugWords_of_isFront h, ih, runs_of_isFront h, List.map_cons, List.map_map]
      rfl

theorem slugTail_append_of_isGap {gap : List Char} (h : IsGap isSlugChar gap) (cs : List Char) :
    slugTail true (gap ++ cs) = slugTail true cs := by
  induction gap with
  | nil => rfl
  | cons c rest ih =>
      obtain ⟨hc, hrest⟩ := List.forall_mem_cons.mp h
      rw [List.cons_append, slugTail, if_neg (by simp [hc]), ih hrest]

theorem slugTail_append_of_slug {chars : List Char} (h : ∀ c ∈ chars, isSlugChar c = true)
    (cs : List Char) : slugTail false (chars ++ cs) = chars.map Char.toLower ++ slugTail false cs := by
  induction chars with
  | nil => rfl
  | cons c rest ih =>
      obtain ⟨hc, hrest⟩ := List.forall_mem_cons.mp h
      rw [List.cons_append, slugTail, if_pos hc, ih hrest]
      rfl

theorem slugTail_of_stops {after : List Char} (h : Stops isSlugChar after) :
    slugTail false after = slugTail true after := by
  cases after with
  | nil => rfl
  | cons c rest =>
      rw [stops_cons] at h
      simp [slugTail, h]

/-- What follows a word of a slug: the other words, each behind a hyphen. -/
theorem slugTail_true (cs : List Char) : slugTail true cs = (slugWords cs).flatMap ('-' :: ·) := by
  induction cs using run_induction isSlugChar with
  | gap gap h =>
      rw [slugWords_of_isGap h, ← List.append_nil gap, slugTail_append_of_isGap h]
      rfl
  | run gap chars after h ih =>
      obtain ⟨c, rest, rfl⟩ := List.exists_cons_of_ne_nil h.ne_nil
      obtain ⟨hc, hrest⟩ := List.forall_mem_cons.mp h.forall_in
      rw [slugWords_of_isFront h, List.append_assoc, slugTail_append_of_isGap h.isGap,
        List.cons_append, slugTail, if_pos hc, slugTail_append_of_slug hrest,
        slugTail_of_stops h.stops, ih]
      rfl

theorem intercalate_hyphen (word : List Char) (rest : List (List Char)) :
    ['-'].intercalate (word :: rest) = word ++ rest.flatMap ('-' :: ·) := by
  induction rest generalizing word with
  | nil => simp
  | cons next rest ih =>
      rw [List.intercalate_cons_cons, ih, List.append_assoc]
      rfl

/-- A slug joins its words by hyphens. -/
theorem slugChars_eq (cs : List Char) : slugChars cs = ['-'].intercalate (slugWords cs) := by
  induction cs using run_induction isSlugChar with
  | gap gap h =>
      have hdrop : gap.dropWhile (!isSlugChar ·) = [] := skipGap_eq_nil_iff.mpr h
      rw [slugChars, hdrop, slugWords_of_isGap h]
      rfl
  | run gap chars after h _ =>
      have hdrop : (gap ++ chars ++ after).dropWhile (!isSlugChar ·) = chars ++ after :=
        h.skipGap_eq
      rw [slugChars, hdrop, slugTail_append_of_slug h.forall_in, slugTail_of_stops h.stops,
        slugTail_true, slugWords_of_isFront h, intercalate_hyphen]

theorem mem_slugWords {cs word : List Char} (h : word ∈ slugWords cs) :
    word ≠ [] ∧ '-' ∉ word := by
  rw [slugWords_eq] at h
  obtain ⟨run, hrun, rfl⟩ := List.mem_map.mp h
  obtain ⟨_, _, -, -, hmax⟩ := ((listsRuns_runs cs).mem_iff run).mp hrun
  refine ⟨by simpa [Run.word] using hmax.ne_nil, fun hmem => ?_⟩
  have hhyphen := not_isHyphen_of_slug hmax.forall_in '-' hmem
  exact absurd hhyphen (by decide)

/-- A hyphen of a slug stands between two words. -/
theorem hyphen_between {cs left right : List Char} (h : slugChars cs = left ++ '-' :: right) :
    left ≠ [] ∧ right ≠ [] ∧ right.head? ≠ some '-' := by
  rw [slugChars_eq] at h
  have hne : slugWords cs ≠ [] := by
    intro hnil
    simp [hnil] at h
  have hwords : slugWords cs = left.splitOn '-' ++ right.splitOn '-' := by
    rw [← List.splitOn_append_cons_self, ← h]
    exact (List.splitOn_intercalate '-' (fun word hword => (mem_slugWords hword).2) hne).symm
  have hempty : [] ∉ left.splitOn '-' ++ right.splitOn '-' := by
    rw [← hwords]
    exact fun hmem => (mem_slugWords hmem).1 rfl
  refine ⟨?_, ?_, ?_⟩
  · rintro rfl
    exact hempty (by simp)
  · rintro rfl
    exact hempty (by simp)
  · intro hhead
    obtain ⟨rest, rfl⟩ := List.head?_eq_some_iff.mp hhead
    have hsplit : ('-' :: rest).splitOn '-' = [] :: rest.splitOn '-' :=
      List.splitOn_append_cons_self [] rest
    exact hempty (List.mem_append_right _ (hsplit ▸ List.mem_cons_self))

theorem slugChar_of_isSlugText {c : Char} (h : isSlugText c = true) : slugChar c = c :=
  forall_ascii (p := fun c => isSlugText c = true → slugChar c = c) (by decide)
    (toNat_lt_of_isSlugText h) h

theorem isSlugText_slugChars {cs : List Char} : ∀ c ∈ slugChars cs, isSlugText c = true :=
  isSlugText_slugTail false _

/-- The words of a slug are its own words. -/
theorem slugWords_slugChars (cs : List Char) : slugWords (slugChars cs) = slugWords cs := by
  have hmap : (slugChars cs).map slugChar = slugChars cs :=
    (List.map_congr_left fun c hc => slugChar_of_isSlugText (isSlugText_slugChars c hc)).trans
      (List.map_id _)
  rw [slugWords, hmap, slugChars_eq]
  refine fields_intercalate (· == '-') (beq_self_eq_true '-') fun word hword => ?_
  obtain ⟨hne, hhyphen⟩ := mem_slugWords hword
  refine ⟨hne, fun c hc => beq_false_of_ne ?_⟩
  rintro rfl
  exact hhyphen hc

/-- A slug is its own slug. -/
theorem slug_slug (name : String) : slug (slug name) = slug name := by
  rw [slug, slug, String.toList_ofList, slugChars_eq, slugWords_slugChars, ← slugChars_eq]

/-- Separators between two parts of a name divide its words, whatever they are. -/
theorem slug_append_separators_append (separators : Separators) (before after : String) :
    slug (before ++ separators.text ++ after) =
      String.ofList (['-'].intercalate (slugWords before.toList ++ slugWords after.toList)) := by
  have hne : separators.text.toList.map slugChar ≠ [] := by
    simpa using separators.ne_empty
  rw [slug, slugChars_eq, String.toList_append, String.toList_append, slugWords, List.map_append,
    List.map_append, fields_append_separators_append hne (isHyphen_of_isGap separators.isGap)]
  rfl

/-- The parts of a name between hyphens once every separator is a hyphen, joined by single ones. -/
def joinedParts (name : String) : String :=
  let parts := ((name.map slugChar).split '-').toList.map (·.copy)
  "-".intercalate (parts.filter fun part => !part.isEmpty)

theorem joinedParts_eq (name : String) : joinedParts name = slug name := by
  apply String.toList_injective
  rw [slug, String.toList_ofList, slugChars_eq, joinedParts, String.toList_intercalate,
    String.toList_split_char, String.toList_map, List.filter_map, List.map_map]
  have hempty : ((fun part : String => !part.isEmpty) ∘ String.ofList) = fun cs => !cs.isEmpty := by
    funext cs
    cases cs <;> simp
  have hchars : String.toList ∘ String.ofList = id := by
    funext cs
    exact String.toList_ofList
  rw [hempty, hchars, List.map_id]
  rfl

/-- The runs of letters and digits of a name, lower-cased and joined by hyphens. -/
def joinedRuns (name : String) : String :=
  "-".intercalate ((runs isSlugChar name.toList).map fun run => String.ofList run.word)

theorem joinedRuns_eq (name : String) : joinedRuns name = slug name := by
  apply String.toList_injective
  rw [slug, String.toList_ofList, slugChars_eq, slugWords_eq, joinedRuns, String.toList_intercalate,
    List.map_map]
  congr 1
  exact List.map_congr_left fun _ _ => String.toList_ofList

/-- What the slug of a name comes to. -/
structure IsSlugOf (slug name : String) : Prop where
  eq_joinedParts : slug = joinedParts name
  eq_joinedRuns : slug = joinedRuns name
  forall_mem : ∀ c ∈ slug.toList, c.isLower = true ∨ c.isDigit = true ∨ c = '-'
  no_leading : slug.toList.head? ≠ some '-'
  no_trailing : slug.toList.getLast? ≠ some '-'
  no_doubled : ¬ ['-', '-'] <:+: slug.toList
  eq_empty_iff : slug = "" ↔ ∀ c ∈ name.toList, c.isAlphanum = false

theorem isSlugOf_slug (name : String) : IsSlugOf (slug name) name := by
  constructor
  case eq_joinedParts => exact (joinedParts_eq name).symm
  case eq_joinedRuns => exact (joinedRuns_eq name).symm
  case forall_mem =>
    intro c hc
    simpa [isSlugText, or_assoc] using isSlugText_slug name c hc
  case no_leading =>
    intro hhead
    rw [slug, String.toList_ofList] at hhead
    obtain ⟨right, hright⟩ := List.head?_eq_some_iff.mp hhead
    exact (hyphen_between (hright.trans (List.nil_append _).symm)).1 rfl
  case no_trailing =>
    intro hlast
    rw [slug, String.toList_ofList] at hlast
    obtain ⟨left, hleft⟩ := List.getLast?_eq_some_iff.mp hlast
    exact (hyphen_between hleft).2.1 rfl
  case no_doubled =>
    rintro ⟨left, right, h⟩
    rw [slug, String.toList_ofList, List.append_assoc] at h
    exact (hyphen_between h.symm).2.2 rfl
  case eq_empty_iff =>
    rw [slug_eq_empty_iff]
    simp [isSlugChar]

/-- A slug lists the runs of letters and digits of its name, whatever stands between them. -/
theorem slug_joins_runs :
    (∀ name, ListsRuns isSlugChar name.toList (runs isSlugChar name.toList) ∧
      IsSlugOf (slug name) name ∧ slug (slug name) = slug name) ∧
    ∀ (before after : String) (separators others : Separators),
      slug (before ++ separators.text ++ after) = slug (before ++ others.text ++ after) := by
  constructor
  · exact fun name => ⟨listsRuns_runs name.toList, isSlugOf_slug name, slug_slug name⟩
  · intro before after separators others
    rw [slug_append_separators_append, slug_append_separators_append]

/-- Letters that are not ASCII separate runs too. -/
example : (runs isSlugChar "  --Card__Bödy!! ".toList).map Run.word =
    ["card".toList, "b".toList, "dy".toList] := by
  decide +kernel

end DesignMarkup.Text
