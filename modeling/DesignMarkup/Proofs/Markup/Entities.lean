import DesignMarkup.Proofs.Markup.Escape
import DesignMarkup.Proofs.Text.Replace

/-!
Escaping as an encoding.  It comes to replacing the five special characters one after the other, the
ampersand first because every entity has one.  The escaped texts are those in which nothing but
entities is left of the special characters; each of them is read back, in one pass, as the one text
that it was made from.
-/

namespace DesignMarkup.Markup

/-- The special characters with their entities, in the order in which they can be replaced. -/
def entities : List (Char × String) :=
  [('&', "&amp;"), ('<', "&lt;"), ('>', "&gt;"), ('"', "&quot;"), ('\'', "&#39;")]

/-- The text that an escaped text stands for. -/
def unescape (s : String) : String :=
  String.ofList (unescapeChars s.toList)

/-- A text in which every ampersand begins an entity and no other special character is left. -/
structure IsEscaped (cs : List Char) : Prop where
  not_mem : ∀ c ∈ ['<', '>', '"', '\''], c ∉ cs
  begins_entity : ∀ before after, cs = before ++ '&' :: after →
    ∃ entity ∈ entities, entity.2.toList <+: '&' :: after

theorem isSettled_entities : Text.IsSettled entities := by
  decide

/-- The other way round, the ampersands of the entities would be replaced again. -/
example : ¬ Text.IsSettled entities.reverse := by
  decide

theorem replaced_entities (c : Char) : Text.replaced entities c = escapeChar c := by
  by_cases hspecial : c ∈ specialChars
  · simp only [specialChars, List.mem_cons, List.not_mem_nil, or_false] at hspecial
    rcases hspecial with rfl | rfl | rfl | rfl | rfl <;> rfl
  · rw [escapeChar_of_not_special hspecial]
    exact Text.replaced_of_not_mem hspecial

theorem toList_escape (s : String) :
    (escape s).toList = s.toList.flatMap (Text.replaced entities) := by
  rw [escape, String.toList_ofList, escapeChars, funext replaced_entities]

/-- Replacing the special characters in turn escapes a text. -/
theorem replaceInTurn_entities (s : String) : Text.replaceInTurn entities s = escape s := by
  apply String.toList_injective
  rw [Text.toList_replaceInTurn isSettled_entities, toList_escape]

/-- A special character is written as its entity. -/
theorem exists_escapeChar_eq {c : Char} (h : c ∈ specialChars) :
    ∃ entity, (c, entity) ∈ entities ∧ escapeChar c = entity.toList := by
  rw [← replaced_entities]
  exact Text.exists_replaced_eq h

theorem escapeChar_of_mem_entities {c : Char} {entity : String} (h : (c, entity) ∈ entities) :
    escapeChar c = entity.toList := by
  have hall : ∀ e ∈ entities, escapeChar e.1 = e.2.toList := by decide
  exact hall _ h

/-- An entity has its one ampersand at the front. -/
theorem exists_body {c : Char} {entity : String} (h : (c, entity) ∈ entities) :
    ∃ body, entity.toList = '&' :: body ∧ '&' ∉ body := by
  have hall : ∀ e ∈ entities, e.2.toList = '&' :: e.2.toList.tail ∧ '&' ∉ e.2.toList.tail := by
    decide
  exact ⟨_, hall _ h⟩

theorem escapeChar_ne_nil (c : Char) : escapeChar c ≠ [] := by
  by_cases hspecial : c ∈ specialChars
  · obtain ⟨entity, hentity, heq⟩ := exists_escapeChar_eq hspecial
    obtain ⟨body, hbody, -⟩ := exists_body hentity
    rw [heq, hbody]
    exact List.cons_ne_nil '&' body
  · rw [escapeChar_of_not_special hspecial]
    exact List.cons_ne_nil c []

/-- What comes before a character that is not in the front part goes on behind that part. -/
theorem exists_behind_of_append_eq {x : Char} {front rest before after : List Char}
    (hfront : x ∉ front) (h : front ++ rest = before ++ x :: after) :
    ∃ behind, rest = behind ++ x :: after := by
  rcases List.append_eq_append_iff.mp h with ⟨behind, -, hrest⟩ | ⟨more, rfl, hmore⟩
  · exact ⟨behind, hrest⟩
  · cases more with
    | nil => exact ⟨[], hmore.symm⟩
    | cons y more =>
        rw [List.cons_append, List.cons.injEq] at hmore
        exact absurd (hmore.1 ▸ List.mem_append_right before List.mem_cons_self) hfront

/-- An ampersand that is written for a character begins an entity. -/
theorem begins_entity_or_behind {c : Char} {before after rest : List Char}
    (h : escapeChar c ++ rest = before ++ '&' :: after) :
    (∃ entity ∈ entities, entity.2.toList <+: '&' :: after) ∨
      ∃ behind, rest = behind ++ '&' :: after := by
  by_cases hspecial : c ∈ specialChars
  · obtain ⟨entity, hentity, heq⟩ := exists_escapeChar_eq hspecial
    obtain ⟨body, hbody, hamp⟩ := exists_body hentity
    cases before with
    | nil => exact .inl ⟨_, hentity, rest, heq ▸ h⟩
    | cons first before =>
        rw [heq, hbody, List.cons_append, List.cons_append, List.cons.injEq] at h
        exact .inr (exists_behind_of_append_eq hamp h.2)
  · rw [escapeChar_of_not_special hspecial] at h
    refine .inr (exists_behind_of_append_eq ?_ h)
    rw [List.mem_singleton]
    rintro rfl
    exact hspecial List.mem_cons_self

theorem isEscaped_escapeChars (cs : List Char) : IsEscaped (escapeChars cs) where
  not_mem := by
    intro c hc hmem
    have hspecial : c ∈ specialChars := List.mem_cons_of_mem '&' hc
    rw [eq_amp_of_mem_escapeChars hmem hspecial] at hc
    exact absurd hc (by decide)
  begins_entity := by
    induction cs with
    | nil => simp [escapeChars]
    | cons c rest ih =>
        intro before after h
        rw [escapeChars, List.flatMap_cons, ← escapeChars] at h
        rcases begins_entity_or_behind h with hentity | ⟨behind, hrest⟩
        · exact hentity
        · exact ih behind after hrest

theorem IsEscaped.of_append {left right : List Char} (h : IsEscaped (left ++ right)) :
    IsEscaped right where
  not_mem := fun c hc hmem => h.not_mem c hc (List.mem_append_right left hmem)
  begins_entity := by
    rintro before after rfl
    exact h.begins_entity (left ++ before) after (List.append_assoc left before _).symm

/-- An escaped text that is not empty begins with what is written for a character. -/
theorem IsEscaped.exists_eq_append {cs : List Char} (h : IsEscaped cs) (hne : cs ≠ []) :
    ∃ c rest, cs = escapeChar c ++ rest := by
  obtain ⟨first, rest, rfl⟩ := List.exists_cons_of_ne_nil hne
  by_cases hspecial : first ∈ specialChars
  · rcases List.mem_cons.mp hspecial with rfl | hmark
    · obtain ⟨⟨c, entity⟩, hentity, more, hmore⟩ := h.begins_entity [] rest rfl
      exact ⟨c, more, by rw [escapeChar_of_mem_entities hentity, hmore]⟩
    · exact absurd List.mem_cons_self (h.not_mem first hmark)
  · exact ⟨first, rest, by rw [escapeChar_of_not_special hspecial, List.singleton_append]⟩

/-- An escaped text is the escaped form of what is read from it. -/
theorem IsEscaped.escapeChars_unescapeChars {cs : List Char} (h : IsEscaped cs) :
    escapeChars (unescapeChars cs) = cs := by
  -- An entity is several characters long, so the induction is on the length and not on the list.
  induction hlength : cs.length using Nat.strongRecOn generalizing cs with
  | ind n ih =>
      by_cases hne : cs = []
      · rw [hne]
        rfl
      · obtain ⟨c, rest, rfl⟩ := h.exists_eq_append hne
        have hlt : rest.length < n := by
          rw [← hlength, List.length_append]
          exact Nat.lt_add_of_pos_left (List.length_pos_iff.mpr (escapeChar_ne_nil c))
        rw [unescapeChars_escapeChar, escapeChars, List.flatMap_cons, ← escapeChars,
          ih rest.length hlt h.of_append rfl]

@[simp] theorem unescape_escape (s : String) : unescape (escape s) = s := by
  rw [unescape, escape, String.toList_ofList, unescapeChars_escapeChars, String.ofList_toList]

/-- The escaped texts are those that are written for what is read from them. -/
theorem isEscaped_iff (s : String) : IsEscaped s.toList ↔ escape (unescape s) = s := by
  constructor
  · intro h
    rw [escape, unescape, String.toList_ofList, h.escapeChars_unescapeChars, String.ofList_toList]
  · intro h
    rw [← h, escape, String.toList_ofList]
    exact isEscaped_escapeChars _

theorem escape_append (left right : String) : escape (left ++ right) = escape left ++ escape right := by
  apply String.toList_injective
  simp [escape, escapeChars_append]

/-- What escaping a text comes to. -/
structure IsEscapeOf (escaped s : String) : Prop where
  /-- The special characters can be replaced in turn. -/
  eq_replaceInTurn : escaped = Text.replaceInTurn entities s
  /-- Each character is replaced once, or left as it is. -/
  toList_eq : escaped.toList = s.toList.flatMap (Text.replaced entities)
  isEscaped : IsEscaped escaped.toList
  /-- One pass reads the text back, whatever the text looks like. -/
  unescape_eq : unescape escaped = s

/-- Escaping takes all texts, one to one and part by part, to the escaped texts. -/
theorem escape_single_pass :
    (∀ s, IsEscapeOf (escape s) s) ∧
      (∀ s, IsEscaped s.toList ↔ escape (unescape s) = s) ∧
      Function.Injective escape ∧
      ∀ left right, escape (left ++ right) = escape left ++ escape right := by
  refine ⟨fun s => ?_, isEscaped_iff, Function.LeftInverse.injective unescape_escape, escape_append⟩
  constructor
  case eq_replaceInTurn => exact (replaceInTurn_entities s).symm
  case toList_eq => exact toList_escape s
  case isEscaped =>
    rw [isEscaped_iff, unescape_escape]
  case unescape_eq => exact unescape_escape s

/-- A text that looks escaped is escaped once more. -/
example : escape "<a b=\"&lt;\">" = "&lt;a b=&quot;&amp;lt;&quot;&gt;" := by
  decide

end DesignMarkup.Markup
