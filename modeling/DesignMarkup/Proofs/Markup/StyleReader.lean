import DesignMarkup.Markup.Css
import DesignMarkup.Proofs.Text.Span
import Mathlib.Data.List.Triplewise

/-!
A reader of style sheets.  It knows where a class, a property and a value end, each by one
character, and how rules and declarations are laid out in lines; it does not look inside them.
Rules in which these characters stand in no wrong place are read back as they were written.
-/

namespace DesignMarkup.StyleRule

/-- The declarations up to the end of a rule, with less than `fuel` of them. -/
def readDeclarations : (fuel : Nat) → List Char → Option (List (String × String) × List Char)
  | 0, _ => none
  | _ + 1, '\x7d' :: cs => some ([], cs)
  | fuel + 1, ' ' :: ' ' :: cs => do
      let (property, cs) := cs.span (· ≠ ':')
      let cs ← cs.dropPrefix? [':', ' ']
      let (value, cs) := cs.span (· ≠ ';')
      let cs ← cs.dropPrefix? [';', '\n']
      let (others, cs) ← readDeclarations fuel cs
      return ((String.ofList property, String.ofList value) :: others, cs)
  | _ + 1, _ => none

/-- A rule at the front of a text. -/
def readRule (fuel : Nat) (cs : List Char) : Option (StyleRule × List Char) := do
  let cs ← cs.dropPrefix? ['.']
  let (className, cs) := cs.span (· ≠ ' ')
  let cs ← cs.dropPrefix? [' ', '\x7b', '\n']
  let (declarations, cs) ← readDeclarations fuel cs
  return (⟨String.ofList className, declarations⟩, cs)

/-- Rules up to the end of a text, with an empty line between them. -/
def readRules : (fuel : Nat) → List Char → Option (List StyleRule)
  | 0, _ => none
  | fuel + 1, cs => do
      let (rule, cs) ← readRule fuel cs
      if cs.isEmpty then return [rule]
      else
        let cs ← cs.dropPrefix? ['\n', '\n']
        let others ← readRules fuel cs
        return rule :: others

/-- The rules of a style sheet. -/
def read? (s : String) : Option (List StyleRule) :=
  if s = "" then some [] else readRules (s.toList.length + 1) s.toList

/-- A rule whose parts do not contain the character that ends them. -/
structure IsReadable (rule : StyleRule) : Prop where
  class_ok : ∀ c ∈ rule.className.toList, c ≠ ' '
  properties_ok : ∀ declaration ∈ rule.declarations, ∀ c ∈ declaration.1.toList, c ≠ ':'
  values_ok : ∀ declaration ∈ rule.declarations, ∀ c ∈ declaration.2.toList, c ≠ ';'

/-- One part is taken up to the character that ends it. -/
theorem span_part {last : Char} {part : List Char} (h : ∀ c ∈ part, c ≠ last)
    (rest : List Char) :
    (part ++ last :: rest).span (fun c => decide (c ≠ last)) = (part, last :: rest) :=
  Text.span_append (fun c hc => decide_eq_true (h c hc)) (Text.stops_cons.mpr (by simp))

/-- A mark at the front of a text is taken off. -/
theorem dropPrefix?_mark (mark rest : List Char) : (mark ++ rest).dropPrefix? mark = some rest :=
  List.dropPrefix?_append_of_beq rest (beq_self_eq_true mark)

/-- One declaration is read as it was written. -/
theorem readDeclarations_declarationChars {declaration : String × String}
    (hproperty : ∀ c ∈ declaration.1.toList, c ≠ ':')
    (hvalue : ∀ c ∈ declaration.2.toList, c ≠ ';') (fuel : Nat) (rest : List Char) :
    readDeclarations (fuel + 1) (declarationChars declaration ++ rest) =
      (readDeclarations fuel rest).map fun read => (declaration :: read.1, read.2) := by
  obtain ⟨property, value⟩ := declaration
  have hwritten : declarationChars (property, value) ++ rest =
      ' ' :: ' ' :: (property.toList ++ ':' :: ' ' :: (value.toList ++ ';' :: '\n' :: rest)) := by
    simp [declarationChars]
  have hdropColon : (':' :: ' ' :: (value.toList ++ ';' :: '\n' :: rest)).dropPrefix?
      [':', ' '] = some (value.toList ++ ';' :: '\n' :: rest) :=
    dropPrefix?_mark [':', ' '] _
  have hdropLine : (';' :: '\n' :: rest).dropPrefix? [';', '\n'] = some rest :=
    dropPrefix?_mark [';', '\n'] rest
  rw [hwritten, readDeclarations]
  simp only [span_part hproperty, hdropColon, Option.bind_eq_bind, Option.bind_some,
    span_part hvalue, hdropLine, String.ofList_toList]
  cases readDeclarations fuel rest <;> rfl

theorem readDeclarations_append {declarations : List (String × String)}
    (hproperties : ∀ declaration ∈ declarations, ∀ c ∈ declaration.1.toList, c ≠ ':')
    (hvalues : ∀ declaration ∈ declarations, ∀ c ∈ declaration.2.toList, c ≠ ';')
    {fuel : Nat} (hfuel : declarations.length < fuel) (rest : List Char) :
    readDeclarations fuel (declarations.flatMap declarationChars ++ '\x7d' :: rest) =
      some (declarations, rest) := by
  induction declarations generalizing fuel with
  | nil =>
      obtain ⟨fuel, rfl⟩ := Nat.exists_eq_add_one.mpr hfuel
      simp [readDeclarations]
  | cons declaration others ih =>
      obtain ⟨fuel, rfl⟩ := Nat.exists_eq_add_one.mpr (Nat.zero_lt_of_lt hfuel)
      rw [List.length_cons, Nat.add_lt_add_iff_right] at hfuel
      rw [List.forall_mem_cons] at hproperties hvalues
      have hothers := ih hproperties.2 hvalues.2 hfuel
      simp only [List.flatMap_cons, List.append_assoc,
        readDeclarations_declarationChars hproperties.1 hvalues.1, hothers, Option.map_some]

theorem length_declarations_lt_chars (rule : StyleRule) :
    rule.declarations.length < rule.chars.length := by
  have hone : ∀ declarations : List (String × String),
      declarations.length ≤ (declarations.flatMap declarationChars).length := by
    intro declarations
    induction declarations with
    | nil => exact Nat.le_refl _
    | cons declaration others ih =>
        simp only [List.flatMap_cons, List.length_append, List.length_cons, declarationChars]
        omega
  have hall := hone rule.declarations
  simp only [chars, List.length_append, List.length_cons]
  omega

/-- One rule is read as it was written, whatever follows it. -/
theorem readRule_chars {rule : StyleRule} (h : rule.IsReadable) {fuel : Nat}
    (hfuel : rule.declarations.length < fuel) (rest : List Char) :
    readRule fuel (rule.chars ++ rest) = some (rule, rest) := by
  have hwritten : rule.chars ++ rest =
      '.' :: (rule.className.toList ++ ' ' :: '\x7b' :: '\n' ::
        (rule.declarations.flatMap declarationChars ++ '\x7d' :: rest)) := by
    simp [chars]
  have hbody := readDeclarations_append h.properties_ok h.values_ok hfuel rest
  have hdropDot : ∀ cs : List Char, ('.' :: cs).dropPrefix? ['.'] = some cs :=
    dropPrefix?_mark ['.']
  have hdropOpening : ∀ cs : List Char,
      (' ' :: '\x7b' :: '\n' :: cs).dropPrefix? [' ', '\x7b', '\n'] = some cs :=
    dropPrefix?_mark [' ', '\x7b', '\n']
  simp only [readRule, hwritten, hdropDot, span_part h.class_ok, hdropOpening, hbody,
    Option.bind_eq_bind, Option.bind_some, String.ofList_toList]
  rfl

/-- The characters of a sheet. -/
def sheetChars (rules : List StyleRule) : List Char :=
  List.intercalate ['\n', '\n'] (rules.map chars)

theorem sheetChars_cons_cons (rule next : StyleRule) (others : List StyleRule) :
    sheetChars (rule :: next :: others) =
      rule.chars ++ '\n' :: '\n' :: sheetChars (next :: others) := by
  simp [sheetChars, List.intercalate]

theorem readRules_sheetChars {rules : List StyleRule} (hne : rules ≠ [])
    (h : ∀ rule ∈ rules, rule.IsReadable) {fuel : Nat}
    (hfuel : (sheetChars rules).length < fuel) :
    readRules fuel (sheetChars rules) = some rules := by
  induction rules generalizing fuel with
  | nil => exact absurd rfl hne
  | cons rule others ih =>
      obtain ⟨fuel, rfl⟩ := Nat.exists_eq_add_one.mpr (Nat.zero_lt_of_lt hfuel)
      rw [List.forall_mem_cons] at h
      have hlength := length_declarations_lt_chars rule
      cases others with
      | nil =>
          have hsheet : sheetChars [rule] = rule.chars ++ [] := by
            simp [sheetChars, List.intercalate]
          rw [hsheet, List.append_nil] at hfuel
          have hrule := readRule_chars h.1 (Nat.lt_of_lt_of_le hlength (Nat.le_of_lt_succ hfuel)) []
          simp only [readRules, hsheet, hrule, Option.bind_eq_bind, Option.bind_some]
          rfl
      | cons next others =>
          rw [sheetChars_cons_cons] at hfuel ⊢
          simp only [List.length_append, List.length_cons] at hfuel
          have hfuelRule : rule.declarations.length < fuel := by omega
          have hfuelOthers : (sheetChars (next :: others)).length < fuel := by omega
          have hrule := readRule_chars h.1 hfuelRule
            ('\n' :: '\n' :: sheetChars (next :: others))
          have hothers := ih (List.cons_ne_nil _ _) h.2 hfuelOthers
          have hdropLines : ('\n' :: '\n' :: sheetChars (next :: others)).dropPrefix?
              ['\n', '\n'] = some (sheetChars (next :: others)) :=
            dropPrefix?_mark ['\n', '\n'] _
          simp only [readRules, hrule, Option.bind_eq_bind, Option.bind_some, List.isEmpty_cons,
            hdropLines, hothers]
          rfl

/-- A sheet of readable rules is read back. -/
theorem read?_sheet {rules : List StyleRule} (h : ∀ rule ∈ rules, rule.IsReadable) :
    read? (sheet rules) = some rules := by
  cases rules with
  | nil => rfl
  | cons rule others =>
      have hchars : (sheet (rule :: others)).toList = sheetChars (rule :: others) :=
        String.toList_ofList
      have hne : sheet (rule :: others) ≠ "" := by
        intro hempty
        have hlength := congrArg List.length hchars
        rw [hempty] at hlength
        cases others <;> simp [sheetChars, List.intercalate, chars] at hlength
      rw [read?, if_neg hne, hchars]
      exact readRules_sheetChars (List.cons_ne_nil _ _) h (Nat.lt_succ_self _)

end DesignMarkup.StyleRule
