import DesignMarkup.Proofs.Text.Fields
import Mathlib.Data.List.Induction

/-!
The words of a text: its parts between blanks.  Blanks at the two ends of a text and a blank between
two texts leave no other trace than the division into words.
-/

namespace DesignMarkup.Text

/-- The words of a list of characters. -/
def wordChars (cs : List Char) : List (List Char) :=
  (cs.splitOnP isBlank).filter fun word => !word.isEmpty

/-- The words of a text. -/
def words (s : String) : List String :=
  (wordChars s.toList).map String.ofList

@[simp] theorem wordChars_nil : wordChars [] = [] :=
  rfl

theorem wordChars_append_cons (left right : List Char) {blank : Char}
    (h : isBlank blank = true) :
    wordChars (left ++ blank :: right) = wordChars left ++ wordChars right :=
  fields_append_cons left right h

theorem wordChars_of_not_blank {cs : List Char} (hne : cs ≠ [])
    (h : ∀ c ∈ cs, isBlank c = false) : wordChars cs = [cs] :=
  fields_of_no_separator hne h

theorem wordChars_dropWhile (cs : List Char) :
    wordChars (cs.dropWhile isBlank) = wordChars cs := by
  induction cs with
  | nil => rfl
  | cons c rest ih =>
      rw [List.dropWhile_cons]
      split
      · rename_i hc
        exact ih.trans (fields_cons_of_separator hc rest).symm
      · rfl

theorem wordChars_trimEndChars (cs : List Char) : wordChars (trimEndChars cs) = wordChars cs := by
  induction cs using List.reverseRecOn with
  | nil => rfl
  | append_singleton init c ih =>
      rw [trimEndChars, List.reverse_append, List.reverse_singleton, List.singleton_append,
        List.dropWhile_cons]
      split
      · rename_i hc
        rw [← trimEndChars, ih, wordChars_append_cons init [] hc, wordChars_nil, List.append_nil]
      · rw [List.reverse_cons, List.reverse_reverse]

/-- Trimming a text keeps its words. -/
theorem words_trim (s : String) : words (trim s) = words s := by
  rw [words, trim, String.toList_ofList, trimChars, wordChars_trimEndChars, wordChars_dropWhile,
    words]

theorem words_of_not_blank {s : String} (hne : s ≠ "") (h : ∀ c ∈ s.toList, isBlank c = false) :
    words s = [s] := by
  have hchars : s.toList ≠ [] := by
    intro heq
    apply hne
    exact String.toList_eq_nil_iff.mp heq
  rw [words, wordChars_of_not_blank hchars h, List.map_singleton, String.ofList_toList]

theorem words_append_space (left right : String) :
    words (left ++ " " ++ right) = words left ++ words right := by
  have hspace : (left ++ " " ++ right).toList = left.toList ++ ' ' :: right.toList := by
    simp
  rw [words, hspace, wordChars_append_cons _ _ (by decide), List.map_append, words, words]

end DesignMarkup.Text
