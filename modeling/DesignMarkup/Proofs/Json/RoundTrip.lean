import DesignMarkup.Json.Writer
import DesignMarkup.Proofs.Json.Clip
import DesignMarkup.Proofs.Json.Integer
import DesignMarkup.Proofs.Json.Literal

/-!
Reading undoes writing, whatever spaces the writer sets between the parts of a text.  This holds of
every tree whose numbers are whole and which has no part without a value: what is read is the tree
without what lies too deep, so that a tree that nests no deeper than a text may is read as it was.
It is shown with any text behind the written one, so that parts of a text can be read one after the
other.
-/

namespace DesignMarkup.Json

open Text (Stops stops_nil stops_cons)

mutual

/-- All numbers of the tree are whole and in range, and all of its parts have values. -/
def IsExact : Json → Prop
  | .number (.integer n) => Number.InRange n
  | .number (.double _) => False
  | .array items => ItemsExact items
  | .object members => MembersExact members
  | .unreadable => False
  | .null | .bool _ | .string _ => True

def ItemsExact : List Json → Prop
  | [] => True
  | item :: rest => item.IsExact ∧ ItemsExact rest

def MembersExact : List (String × Json) → Prop
  | [] => True
  | (_, item) :: rest => item.IsExact ∧ MembersExact rest

end

/-- The spaces that a writer sets at a level of nesting before an item, a member and the bracket or
brace that closes them, and those before the value of a member. -/
structure Spacing where
  line : (level : Nat) → List Char
  value : List Char
  isSpace_line : ∀ level, ∀ c ∈ line level, isSpace c = true
  isSpace_value : ∀ c ∈ value, isSpace c = true

namespace Spacing

/-- No spaces at all. -/
def dense : Spacing :=
  ⟨fun _ => [], [], by simp, by simp⟩

/-- A line for each item and member. -/
def lines : Spacing where
  line := newLine
  value := [' ']
  isSpace_line level c hc := by
    rcases List.mem_cons.mp hc with rfl | hindent
    · decide
    · rw [(List.mem_replicate.mp hindent).2]
      decide
  isSpace_value := List.forall_mem_singleton.mpr (by decide)

variable (s : Spacing)

mutual

/-- The text of a tree with the spaces set between its parts. -/
def chars (level : Nat) : Json → List Char
  | .null => ['n', 'u', 'l', 'l']
  | .bool true => ['t', 'r', 'u', 'e']
  | .bool false => ['f', 'a', 'l', 's', 'e']
  | .number n => n.chars
  | .string text => literal text
  | .array [] => ['[', ']']
  | .array (item :: more) =>
      '[' :: (itemChars (level + 1) (item :: more) ++ (s.line level ++ [']']))
  | .object [] => ['\x7b', '\x7d']
  | .object (member :: more) =>
      '\x7b' :: (memberChars (level + 1) (member :: more) ++ (s.line level ++ ['\x7d']))
  | .unreadable => ['n', 'u', 'l', 'l']

def itemChars (level : Nat) : List Json → List Char
  | [] => []
  | [item] => s.line level ++ chars level item
  | item :: rest => s.line level ++ (chars level item ++ ',' :: itemChars level rest)

def memberChars (level : Nat) : List (String × Json) → List Char
  | [] => []
  | [(name, item)] => s.line level ++ (literal name ++ ':' :: (s.value ++ chars level item))
  | (name, item) :: rest =>
      s.line level ++ (literal name ++ ':' :: (s.value ++ (chars level item
        ++ ',' :: memberChars level rest)))

end

theorem itemChars_cons_cons (level : Nat) (item next : Json) (rest : List Json) :
    s.itemChars level (item :: next :: rest) =
      s.line level ++ (s.chars level item ++ ',' :: s.itemChars level (next :: rest)) := by
  rw [itemChars]
  simp

theorem memberChars_cons_cons (level : Nat) (name : String) (item : Json) (next : String × Json)
    (rest : List (String × Json)) :
    s.memberChars level ((name, item) :: next :: rest) =
      s.line level ++ (literal name ++ ':' :: (s.value ++ (s.chars level item
        ++ ',' :: s.memberChars level (next :: rest)))) := by
  rw [memberChars]
  simp

end Spacing

mutual

theorem compactChars_eq (level : Nat) (j : Json) :
    compactChars j = Spacing.dense.chars level j := by
  match j with
  | .null => rfl
  | .bool true => rfl
  | .bool false => rfl
  | .number n => rfl
  | .string s => rfl
  | .unreadable => rfl
  | .array [] => rfl
  | .array (item :: more) =>
      rw [compactChars, compactItems_eq (level + 1), Spacing.chars]
      rfl
  | .object [] => rfl
  | .object (member :: more) =>
      rw [compactChars, compactMembers_eq (level + 1), Spacing.chars]
      rfl

theorem compactItems_eq (level : Nat) (items : List Json) :
    compactItems items = Spacing.dense.itemChars level items := by
  match items with
  | [] => rfl
  | [item] => exact compactChars_eq level item
  | item :: next :: rest =>
      rw [compactItems, compactChars_eq level item, compactItems_eq level (next :: rest),
        Spacing.itemChars_cons_cons]
      · rfl
      · simp

theorem compactMembers_eq (level : Nat) (members : List (String × Json)) :
    compactMembers members = Spacing.dense.memberChars level members := by
  match members with
  | [] => rfl
  | [(name, item)] =>
      rw [compactMembers, compactChars_eq level item]
      rfl
  | (name, item) :: next :: rest =>
      rw [compactMembers, compactChars_eq level item, compactMembers_eq level (next :: rest),
        Spacing.memberChars_cons_cons]
      · rfl
      · simp

end

mutual

theorem indentedChars_eq (level : Nat) (j : Json) :
    indentedChars level j = Spacing.lines.chars level j := by
  match j with
  | .null => rfl
  | .bool true => rfl
  | .bool false => rfl
  | .number n => rfl
  | .string s => rfl
  | .unreadable => rfl
  | .array [] => rfl
  | .array (item :: more) =>
      rw [indentedChars, indentedItems_eq (level + 1), Spacing.chars, List.append_assoc]
      rfl
  | .object [] => rfl
  | .object (member :: more) =>
      rw [indentedChars, indentedMembers_eq (level + 1), Spacing.chars, List.append_assoc]
      rfl

theorem indentedItems_eq (level : Nat) (items : List Json) :
    indentedItems level items = Spacing.lines.itemChars level items := by
  match items with
  | [] => rfl
  | [item] =>
      rw [indentedItems, indentedChars_eq level item]
      rfl
  | item :: next :: rest =>
      rw [indentedItems, indentedChars_eq level item, indentedItems_eq level (next :: rest),
        Spacing.itemChars_cons_cons, List.append_assoc]
      · rfl
      · simp

theorem indentedMembers_eq (level : Nat) (members : List (String × Json)) :
    indentedMembers level members = Spacing.lines.memberChars level members := by
  match members with
  | [] => rfl
  | [(name, item)] =>
      rw [indentedMembers, indentedChars_eq level item, List.append_assoc]
      rfl
  | (name, item) :: next :: rest =>
      rw [indentedMembers, indentedChars_eq level item, indentedMembers_eq level (next :: rest),
        Spacing.memberChars_cons_cons, List.append_assoc]
      · rfl
      · simp

end

/-- A written integer begins with its sign or a digit. -/
theorem integerText_eq_cons (n : Int) :
    ∃ c cs, Number.integerText n = c :: cs ∧ (c = '-' ∨ c.isDigit = true) := by
  by_cases hneg : n < 0
  · exact ⟨'-', _, by simp [Number.integerText, hneg]; rfl, Or.inl rfl⟩
  · cases hdigits : Nat.toDigits 10 n.natAbs with
    | nil => exact absurd hdigits Nat.toDigits_ne_nil
    | cons d ds =>
        refine ⟨d, ds, by simp [Number.integerText, hneg, hdigits], Or.inr ?_⟩
        exact Number.isDigit_of_mem_toDigits (n := n.natAbs) (by simp [hdigits])

theorem isSpace_iff {c : Char} : isSpace c = true ↔ c = ' ' ∨ c = '\n' ∨ c = '\t' ∨ c = '\r' := by
  simp [isSpace, or_assoc]

theorem not_isSpace_of_number {c : Char} (h : c = '-' ∨ c.isDigit = true) :
    isSpace c = false ∧ c ≠ ']' := by
  rcases h with rfl | hdigit
  · decide
  · constructor
    · rw [← Bool.not_eq_true, isSpace_iff]
      rintro (rfl | rfl | rfl | rfl) <;> exact absurd hdigit (by decide)
    · rintro rfl
      exact absurd hdigit (by decide)

section Spaces

variable {spaces : List Char} (hspaces : ∀ c ∈ spaces, isSpace c = true)
include hspaces

theorem skipSpace_append (cs : List Char) : skipSpace (spaces ++ cs) = skipSpace cs :=
  List.dropWhile_append_of_pos hspaces

theorem readValue_append (fuel level : Nat) (cs : List Char) :
    readValue fuel level (spaces ++ cs) = readValue fuel level cs := by
  cases fuel with
  | zero => simp [readValue]
  | succ fuel => simp [readValue, skipSpace_append hspaces]

theorem readItems_append (fuel level : Nat) (cs : List Char) :
    readItems fuel level (spaces ++ cs) = readItems fuel level cs := by
  cases fuel with
  | zero => simp [readItems]
  | succ fuel => simp [readItems, readValue_append hspaces]

theorem readMembers_append (fuel level : Nat) (cs : List Char) :
    readMembers fuel level (spaces ++ cs) = readMembers fuel level cs := by
  cases fuel with
  | zero => simp [readMembers]
  | succ fuel => simp [readMembers, skipSpace_append hspaces]

/-- Spaces end a number, and so does what may follow them. -/
theorem stops_append {rest : List Char} (hrest : Stops Number.continues rest) :
    Stops Number.continues (spaces ++ rest) := by
  cases spaces with
  | nil => exact hrest
  | cons c cs =>
      rw [List.cons_append, stops_cons]
      rcases isSpace_iff.mp (hspaces c List.mem_cons_self) with rfl | rfl | rfl | rfl <;> decide

end Spaces

theorem skipSpace_of_not_isSpace {c : Char} (cs : List Char) (h : isSpace c = false) :
    skipSpace (c :: cs) = c :: cs := by
  simp [skipSpace, h]

/-- A written value begins with a character that is no space and closes no array. -/
theorem chars_eq_cons (s : Spacing) (level : Nat) {j : Json} (h : j.IsExact) :
    ∃ c cs, s.chars level j = c :: cs ∧ isSpace c = false ∧ c ≠ ']' := by
  match j with
  | .null => exact ⟨'n', _, rfl, by decide⟩
  | .bool true => exact ⟨'t', _, rfl, by decide⟩
  | .bool false => exact ⟨'f', _, rfl, by decide⟩
  | .number (.integer n) =>
      obtain ⟨c, cs, htext, hc⟩ := integerText_eq_cons n
      exact ⟨c, cs, htext, not_isSpace_of_number hc⟩
  | .number (.double x) => simp [IsExact] at h
  | .string text => exact ⟨'"', _, rfl, by decide⟩
  | .array [] => exact ⟨'[', _, rfl, by decide⟩
  | .array (item :: more) => exact ⟨'[', _, by rw [Spacing.chars], by decide⟩
  | .object [] => exact ⟨'\x7b', _, rfl, by decide⟩
  | .object (member :: more) => exact ⟨'\x7b', _, by rw [Spacing.chars], by decide⟩
  | .unreadable => simp [IsExact] at h

/-- What begins with a sign or a digit is read as a number. -/
theorem readValue_number (fuel level : Nat) {c : Char} (cs : List Char)
    (hc : c = '-' ∨ c.isDigit = true) :
    readValue (fuel + 1) level (c :: cs) =
      (Number.readLiteral (c :: cs)).map fun (l, rest) =>
        (match Number.ofLiteral? l with
          | some n => .number n
          | none => .unreadable, rest) := by
  rw [readValue, skipSpace_of_not_isSpace cs (not_isSpace_of_number hc).1]
  split
  all_goals first
    | rfl
    | (rename_i heq
       rw [(List.cons.inj heq).1] at hc
       exact absurd hc (by decide))

/-- What follows an opening bracket is read as items unless the bracket is closed at once. -/
theorem readValue_bracket (fuel level : Nat) {spaces : List Char}
    (hspaces : ∀ c ∈ spaces, isSpace c = true) {c : Char} (cs : List Char)
    (hspace : isSpace c = false) (hclose : c ≠ ']') :
    readValue (fuel + 1) level ('[' :: (spaces ++ c :: cs)) =
      (readItems fuel (level + 1) (spaces ++ c :: cs)).map fun (items, rest) =>
        (atLevel level (.array items), rest) := by
  rw [readValue, skipSpace_of_not_isSpace _ (by decide), readItems_append hspaces]
  simp only [skipSpace_append hspaces, skipSpace_of_not_isSpace cs hspace]
  split
  · rename_i heq
    exact absurd (List.cons.inj heq).1 hclose
  · rfl

/-- What follows an opening brace is read as members when it begins with a name. -/
theorem readValue_brace (fuel level : Nat) {spaces : List Char}
    (hspaces : ∀ c ∈ spaces, isSpace c = true) (cs : List Char) :
    readValue (fuel + 1) level ('\x7b' :: (spaces ++ '"' :: cs)) =
      (readMembers fuel (level + 1) (spaces ++ '"' :: cs)).map fun (members, rest) =>
        (atLevel level (ofMembers members), rest) := by
  rw [readValue, skipSpace_of_not_isSpace _ (by decide), readMembers_append hspaces]
  simp only [skipSpace_append hspaces,
    skipSpace_of_not_isSpace cs (show isSpace '"' = false by decide)]
  rfl

theorem itemChars_eq_append (s : Spacing) (level : Nat) {item : Json} (more : List Json)
    (h : item.IsExact) :
    ∃ c cs, s.itemChars level (item :: more) = s.line level ++ c :: cs ∧
      isSpace c = false ∧ c ≠ ']' := by
  obtain ⟨c, cs, htext, hc⟩ := chars_eq_cons s level h
  cases more with
  | nil => exact ⟨c, cs, by rw [Spacing.itemChars, htext], hc⟩
  | cons next rest =>
      exact ⟨c, cs ++ _, by rw [Spacing.itemChars_cons_cons, htext, List.cons_append], hc⟩

theorem memberChars_eq_append (s : Spacing) (level : Nat) (member : String × Json)
    (more : List (String × Json)) :
    ∃ cs, s.memberChars level (member :: more) = s.line level ++ '"' :: cs := by
  obtain ⟨name, item⟩ := member
  cases more with
  | nil => exact ⟨_, by rw [Spacing.memberChars, literal, List.cons_append]⟩
  | cons next rest =>
      exact ⟨_, by rw [Spacing.memberChars_cons_cons, literal, List.cons_append]⟩

/-- A member is read as its name and its value, given how the value is read. -/
theorem readMembers_member (fuel level : Nat) (name : String) (text : List Char) :
    readMembers (fuel + 1) level (literal name ++ ':' :: text) =
      match readValue fuel level text with
      | none => none
      | some (item, rest) =>
          match skipSpace rest with
          | ',' :: rest =>
              (readMembers fuel level rest).map fun (members, rest) =>
                ((some name, item) :: members, rest)
          | '\x7d' :: rest => some ([(some name, item)], rest)
          | _ => none := by
  rw [literal, List.cons_append, List.append_assoc, List.singleton_append, readMembers,
    skipSpace_of_not_isSpace _ (by decide)]
  simp only [readLiteral_escape]
  rw [skipSpace_of_not_isSpace _ (by decide)]
  rfl

/-- Names that were read with a value make an object. -/
theorem ofMembers_map_some (members : List (String × Json)) :
    ofMembers (members.map fun member => (some member.1, member.2)) = .object members := by
  have hnames : (members.map fun member => (some member.1, member.2)).mapM
      (fun member => member.1.map (·, member.2)) = some members := by
    induction members with
    | nil => rfl
    | cons member rest ih => simp [ih]
  rw [ofMembers, hnames]

theorem stops_continues {c : Char} (cs : List Char) (h : c = ',' ∨ c = ']' ∨ c = '\x7d') :
    Stops Number.continues (c :: cs) := by
  rw [stops_cons]
  rcases h with rfl | rfl | rfl <;> decide

section Read

variable (s : Spacing)

mutual

/-- A written value is read back from the front of a text, without what lies too deep in it. -/
theorem readValue_chars (indent : Nat) {j : Json} (hexact : j.IsExact) (fuel level : Nat)
    (hfuel : (s.chars indent j).length ≤ fuel) {rest : List Char}
    (hrest : Stops Number.continues rest) :
    readValue fuel level (s.chars indent j ++ rest) = some (j.clip level, rest) := by
  obtain ⟨c, cs, htext, hspace, -⟩ := chars_eq_cons s indent hexact
  obtain ⟨fuel, rfl⟩ : ∃ n, fuel = n + 1 :=
    Nat.exists_eq_add_one.mpr (by rw [htext, List.length_cons] at hfuel; omega)
  match j with
  | .null => rfl
  | .bool true => rfl
  | .bool false => rfl
  | .number (.integer n) =>
      obtain ⟨c, cs, htext, hc⟩ := integerText_eq_cons n
      rw [IsExact] at hexact
      have hread := Number.readLiteral_integerText n hrest
      rw [Spacing.chars, Number.chars, htext, List.cons_append, readValue_number _ _ _ hc,
        ← List.cons_append, ← htext, hread]
      simp [Number.ofLiteral?_integer hexact, clip]
  | .number (.double _) => simp [IsExact] at hexact
  | .string text =>
      rw [Spacing.chars, literal, List.cons_append, readValue,
        skipSpace_of_not_isSpace _ (by decide), List.append_assoc, List.singleton_append]
      simp [readLiteral_escape, ofLiteral, clip]
  | .unreadable => simp [IsExact] at hexact
  | .array [] => simp [Spacing.chars, readValue, skipSpace, isSpace, clip, clipItems]
  | .array (item :: more) =>
      rw [IsExact] at hexact
      rw [Spacing.chars, List.length_cons, List.length_append, List.length_append,
        List.length_singleton] at hfuel
      have hitems := readItems_itemChars (indent + 1) (by simp) hexact fuel (level + 1) (by omega)
        (s.isSpace_line indent) rest
      have hitem := hexact
      rw [ItemsExact] at hitem
      obtain ⟨c, cs, htext, hspace, hclose⟩ := itemChars_eq_append s (indent + 1) more hitem.1
      rw [htext, List.append_assoc, List.cons_append] at hitems
      rw [Spacing.chars, htext, List.cons_append, List.append_assoc, List.append_assoc,
        List.append_assoc, List.singleton_append, List.cons_append,
        readValue_bracket _ _ (s.isSpace_line _) _ hspace hclose, hitems, Option.map_some, clip]
  | .object [] => simp [Spacing.chars, readValue, skipSpace, isSpace, clip, clipMembers]
  | .object (member :: more) =>
      rw [IsExact] at hexact
      rw [Spacing.chars, List.length_cons, List.length_append, List.length_append,
        List.length_singleton] at hfuel
      have hmembers := readMembers_memberChars (indent + 1) (by simp) hexact fuel (level + 1)
        (by omega) (s.isSpace_line indent) rest
      obtain ⟨cs, htext⟩ := memberChars_eq_append s (indent + 1) member more
      rw [htext, List.append_assoc, List.cons_append] at hmembers
      rw [Spacing.chars, htext, List.cons_append, List.append_assoc, List.append_assoc,
        List.append_assoc, List.singleton_append, List.cons_append,
        readValue_brace _ _ (s.isSpace_line _), hmembers, Option.map_some, clip]
      simp only [ofMembers_map_some]

theorem readItems_itemChars (indent : Nat) {items : List Json} (hne : items ≠ [])
    (hexact : ItemsExact items) (fuel level : Nat)
    (hfuel : (s.itemChars indent items).length + 1 ≤ fuel) {spaces : List Char}
    (hspaces : ∀ c ∈ spaces, isSpace c = true) (rest : List Char) :
    readItems fuel level (s.itemChars indent items ++ (spaces ++ ']' :: rest)) =
      some (clipItems level items, rest) := by
  obtain ⟨fuel, rfl⟩ : ∃ n, fuel = n + 1 := Nat.exists_eq_add_one.mpr (by omega)
  match items with
  | [] => contradiction
  | [item] =>
      rw [ItemsExact] at hexact
      rw [Spacing.itemChars, List.length_append] at hfuel
      have hitem := readValue_chars indent hexact.1 fuel level (by omega)
        (stops_append hspaces (stops_continues rest (.inr (.inl rfl))))
      rw [Spacing.itemChars, List.append_assoc, readItems_append (s.isSpace_line indent)]
      simp only [readItems, hitem, skipSpace_append hspaces]
      rw [skipSpace_of_not_isSpace _ (by decide)]
      rfl
  | item :: next :: more =>
      rw [ItemsExact] at hexact
      rw [Spacing.itemChars_cons_cons, List.length_append, List.length_append,
        List.length_cons] at hfuel
      have hitem := readValue_chars indent hexact.1 fuel level (by omega)
        (stops_continues (s.itemChars indent (next :: more) ++ (spaces ++ ']' :: rest)) (.inl rfl))
      have hmore := readItems_itemChars indent (by simp) hexact.2 fuel level (by omega) hspaces rest
      rw [Spacing.itemChars_cons_cons, List.append_assoc, readItems_append (s.isSpace_line indent),
        List.append_assoc, List.cons_append]
      simp only [readItems, hitem]
      rw [skipSpace_of_not_isSpace _ (by decide)]
      simp [hmore, clipItems]

theorem readMembers_memberChars (indent : Nat) {members : List (String × Json)}
    (hne : members ≠ []) (hexact : MembersExact members) (fuel level : Nat)
    (hfuel : (s.memberChars indent members).length + 1 ≤ fuel) {spaces : List Char}
    (hspaces : ∀ c ∈ spaces, isSpace c = true) (rest : List Char) :
    readMembers fuel level (s.memberChars indent members ++ (spaces ++ '\x7d' :: rest)) =
      some ((clipMembers level members).map fun member => (some member.1, member.2), rest) := by
  obtain ⟨fuel, rfl⟩ : ∃ n, fuel = n + 1 := Nat.exists_eq_add_one.mpr (by omega)
  match members with
  | [] => contradiction
  | [(name, item)] =>
      rw [MembersExact] at hexact
      rw [Spacing.memberChars, List.length_append, List.length_append, List.length_cons,
        List.length_append] at hfuel
      have hitem := readValue_chars indent hexact.1 fuel level (by omega)
        (stops_append hspaces (stops_continues rest (.inr (.inr rfl))))
      rw [Spacing.memberChars, List.append_assoc, readMembers_append (s.isSpace_line indent),
        List.append_assoc, List.cons_append, List.append_assoc, readMembers_member,
        readValue_append s.isSpace_value]
      simp only [hitem, skipSpace_append hspaces]
      rw [skipSpace_of_not_isSpace _ (by decide)]
      rfl
  | (name, item) :: next :: more =>
      rw [MembersExact] at hexact
      rw [Spacing.memberChars_cons_cons, List.length_append, List.length_append, List.length_cons,
        List.length_append, List.length_append, List.length_cons] at hfuel
      have hitem := readValue_chars indent hexact.1 fuel level (by omega)
        (stops_continues (s.memberChars indent (next :: more) ++ (spaces ++ '\x7d' :: rest))
          (.inl rfl))
      have hmore := readMembers_memberChars indent (by simp) hexact.2 fuel level (by omega) hspaces
        rest
      rw [Spacing.memberChars_cons_cons, List.append_assoc,
        readMembers_append (s.isSpace_line indent), List.append_assoc, List.cons_append,
        List.append_assoc, List.append_assoc, List.cons_append, readMembers_member,
        readValue_append s.isSpace_value]
      simp only [hitem]
      rw [skipSpace_of_not_isSpace _ (by decide)]
      simp [hmore, clipMembers]

end

/-- A written tree is read back, without what lies too deep in it and with any spaces behind it. -/
theorem readChars?_chars (indent : Nat) {j : Json} (hexact : j.IsExact) (spaces : List Char)
    (hspaces : ∀ c ∈ spaces, isSpace c = true) :
    readChars? (s.chars indent j ++ spaces) = some (j.clip 0) := by
  have hend : Stops Number.continues spaces := by
    simpa using stops_append hspaces (stops_nil Number.continues)
  have hskip : skipSpace spaces = [] := by
    have h := skipSpace_append hspaces []
    rwa [List.append_nil] at h
  have hread := readValue_chars s indent hexact ((s.chars indent j ++ spaces).length + 1) 0
    (by rw [List.length_append]; omega) hend
  rw [readChars?, hread]
  simp [hskip]

end Read

theorem read?_compact {j : Json} (hexact : j.IsExact) (hnesting : j.nesting ≤ maxNesting) :
    read? j.compact = some j := by
  have hread := readChars?_chars .dense 0 hexact [] (by simp)
  have hlevel : 0 + j.nesting ≤ maxNesting := (Nat.zero_add _).symm ▸ hnesting
  rw [List.append_nil, clip_of_nesting_le hlevel] at hread
  rw [read?, compact, String.toList_ofList, compactChars_eq 0, hread]

/-- The lines of a tree, with a line break behind them, are read back without what lies too deep. -/
theorem read?_lines_clip {j : Json} (hexact : j.IsExact) :
    read? (j.indented ++ "\n") = some (j.clip 0) := by
  have hread := readChars?_chars .lines 0 hexact ['\n'] (List.forall_mem_singleton.mpr (by decide))
  rw [read?, String.toList_append, indented, String.toList_ofList, indentedChars_eq]
  exact hread

/-- The lines of a tree that nests no deeper than a text may are read back as the tree. -/
theorem read?_lines {j : Json} (hexact : j.IsExact) (hnesting : j.nesting ≤ maxNesting) :
    read? (j.indented ++ "\n") = some j := by
  rw [read?_lines_clip hexact, clip_of_nesting_le ((Nat.zero_add _).symm ▸ hnesting)]

end DesignMarkup.Json
