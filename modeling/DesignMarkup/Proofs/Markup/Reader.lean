import DesignMarkup.Markup.Html
import DesignMarkup.Proofs.Markup.Escape
import DesignMarkup.Proofs.Markup.Names
import Mathlib.Data.List.Triplewise

/-!
A reader of markup.  It knows tags, quoted attributes, entities and the void elements; a line break
right after an opening means that elements follow, anything else that text does.
-/

namespace DesignMarkup

/-- An element of the markup: a void one, one with a text or one with elements in it. -/
inductive HtmlElement where
  | empty (tag : String) (attributes : List (String × String))
  | text (tag : String) (attributes : List (String × String)) (content : String)
  | parent (tag : String) (attributes : List (String × String)) (children : List HtmlElement)

namespace HtmlElement

/-- The attributes up to the end of an opening, with less than `fuel` of them. -/
def readAttributes : (fuel : Nat) → List Char → Option (List (String × String) × List Char)
  | 0, _ => none
  | _ + 1, '>' :: cs => some ([], cs)
  | fuel + 1, ' ' :: cs => do
      let (name, cs) := cs.span (· ≠ '=')
      let cs ← cs.dropPrefix? ['=', '"']
      let (value, cs) := cs.span (· ≠ '"')
      let (others, cs) ← readAttributes fuel (cs.drop 1)
      return ((String.ofList name, String.ofList (Markup.unescapeChars value)) :: others, cs)
  | _ + 1, _ => none

/-- The tag and the attributes of an opening. -/
def readOpening (fuel : Nat) (cs : List Char) :
    Option ((String × List (String × String)) × List Char) := do
  let cs ← cs.dropPrefix? ['<']
  let (tag, cs) := cs.span Markup.isTagChar
  let (attributes, cs) ← readAttributes fuel cs
  return ((String.ofList tag, attributes), cs)

/-- The closing that ends an element. -/
def closing (tag : String) : List Char :=
  ['<', '/'] ++ tag.toList ++ ['>']

/-- Skip what lies between elements. -/
def skipLayout (cs : List Char) : List Char :=
  cs.dropWhile fun c => c = ' ' || c = '\n'

/-- No element follows: the text is over or a closing comes. -/
def isOver (cs : List Char) : Bool :=
  cs.isEmpty || ['<', '/'].isPrefixOf cs

mutual

/-- An element at the front of a text. -/
def readElement : (fuel : Nat) → List Char → Option (HtmlElement × List Char)
  | 0, _ => none
  | fuel + 1, cs => do
      let ((tag, attributes), cs) ← readOpening fuel cs
      if Markup.isVoid tag then return (.empty tag attributes, cs)
      else if cs.head? = some '\n' then
        let (children, cs) ← readElements fuel cs
        let cs ← cs.dropPrefix? (closing tag)
        return (.parent tag attributes children, cs)
      else
        let (content, cs) := cs.span (· ≠ '<')
        let cs ← cs.dropPrefix? (closing tag)
        return (.text tag attributes (String.ofList (Markup.unescapeChars content)), cs)

/-- Elements one after the other, as long as there are any. -/
def readElements : (fuel : Nat) → List Char → Option (List HtmlElement × List Char)
  | 0, _ => none
  | fuel + 1, cs =>
      let cs := skipLayout cs
      if isOver cs then some ([], cs)
      else do
        let (element, cs) ← readElement fuel cs
        let (others, cs) ← readElements fuel cs
        return (element :: others, cs)

end

/-- The elements of a markup text. -/
def read? (s : String) : Option (List HtmlElement) :=
  match readElements (s.toList.length + 2) s.toList with
  | some (elements, []) => some elements
  | _ => none

/-- The opening of an element with given attributes. -/
def opening (tag : String) (attributes : List (String × String)) : List Char :=
  '<' :: (tag.toList ++ attributes.flatMap StyledNode.attributeChars ++ ['>'])

mutual

/-- An element as it is written after the space at the front of its line. -/
def chars (level : Nat) : HtmlElement → List Char
  | empty tag attributes => opening tag attributes
  | text tag attributes content =>
      opening tag attributes ++ Markup.escapeChars content.toList ++ StyledNode.closeTag tag
  | parent tag attributes children =>
      opening tag attributes ++ charsOfList (level + 1) children ++
        '\n' :: (StyledNode.indentation level ++ StyledNode.closeTag tag)

/-- Elements one after the other, each with a line break and space before it. -/
def charsOfList (level : Nat) : List HtmlElement → List Char
  | [] => []
  | element :: rest =>
      '\n' :: (StyledNode.indentation level ++ element.chars level) ++ charsOfList level rest

end

/-- An opening that is written so that it can be read. -/
structure IsOpening (tag : String) (attributes : List (String × String)) : Prop where
  tag_ok : Markup.isTag tag = true
  names_ok : ∀ entry ∈ attributes, Markup.isAttributeName entry.1 = true

mutual

/-- The elements that markup is written for. -/
def WellFormed : HtmlElement → Prop
  | empty tag attributes => IsOpening tag attributes ∧ Markup.isVoid tag = true
  | text tag attributes content =>
      IsOpening tag attributes ∧ Markup.isVoid tag = false ∧
        Text.Stops Text.isBlank content.toList
  | parent tag attributes children =>
      IsOpening tag attributes ∧ Markup.isVoid tag = false ∧ ListWellFormed children

def ListWellFormed : List HtmlElement → Prop
  | [] => True
  | element :: rest => element.WellFormed ∧ ListWellFormed rest

end

theorem ne_equals_of_isAttributeName {name : String} (h : Markup.isAttributeName name = true) :
    ∀ c ∈ name.toList, c ≠ '=' := by
  rintro c hc rfl
  have hfits := ((Markup.isAttributeName_iff name).mp h).2 '=' hc
  exact absurd hfits.2.2 (by decide)

/-- One attribute is read as it was written. -/
theorem readAttributes_attributeChars {entry : String × String}
    (hname : Markup.isAttributeName entry.1 = true) (fuel : Nat) (rest : List Char) :
    readAttributes (fuel + 1) (StyledNode.attributeChars entry ++ rest) =
      (readAttributes fuel rest).map fun read => (entry :: read.1, read.2) := by
  obtain ⟨name, value⟩ := entry
  have hwritten : StyledNode.attributeChars (name, value) ++ rest =
      ' ' :: (name.toList ++ '=' :: '"' :: (Markup.escapeChars value.toList ++ '"' :: rest)) := by
    simp [StyledNode.attributeChars]
  have hspanName : (name.toList ++ '=' :: '"' ::
      (Markup.escapeChars value.toList ++ '"' :: rest)).span (fun c => decide (c ≠ '=')) =
        (name.toList, '=' :: '"' :: (Markup.escapeChars value.toList ++ '"' :: rest)) :=
    Text.span_append (fun c hc => decide_eq_true (ne_equals_of_isAttributeName hname c hc))
      (Text.stops_cons.mpr (by decide))
  have hspanValue : (Markup.escapeChars value.toList ++ '"' :: rest).span
      (fun c => decide (c ≠ '"')) = (Markup.escapeChars value.toList, '"' :: rest) := by
    refine Text.span_append (fun c hc => decide_eq_true ?_) (Text.stops_cons.mpr (by decide))
    rintro rfl
    exact Markup.quote_not_mem_escapeChars _ hc
  rw [hwritten, readAttributes, hspanName]
  have hdrop : ('=' :: '"' :: (Markup.escapeChars value.toList ++ '"' :: rest)).dropPrefix?
      ['=', '"'] = some (Markup.escapeChars value.toList ++ '"' :: rest) :=
    List.dropPrefix?_append_of_beq _ (beq_self_eq_true ['=', '"'])
  simp only [hdrop, Option.bind_eq_bind, Option.bind_some, hspanValue, List.drop_one,
    List.tail_cons, Markup.unescapeChars_escapeChars, String.ofList_toList]
  cases readAttributes fuel rest <;> rfl

theorem readAttributes_append {attributes : List (String × String)}
    (hnames : ∀ entry ∈ attributes, Markup.isAttributeName entry.1 = true) {fuel : Nat}
    (hfuel : attributes.length < fuel) (rest : List Char) :
    readAttributes fuel (attributes.flatMap StyledNode.attributeChars ++ '>' :: rest) =
      some (attributes, rest) := by
  induction attributes generalizing fuel with
  | nil =>
      obtain ⟨fuel, rfl⟩ := Nat.exists_eq_add_one.mpr hfuel
      simp [readAttributes]
  | cons entry others ih =>
      obtain ⟨fuel, rfl⟩ := Nat.exists_eq_add_one.mpr (Nat.zero_lt_of_lt hfuel)
      rw [List.length_cons, Nat.add_lt_add_iff_right] at hfuel
      rw [List.forall_mem_cons] at hnames
      rw [List.flatMap_cons, List.append_assoc, readAttributes_attributeChars hnames.1,
        ih hnames.2 hfuel]
      rfl

theorem isTagChar_of_isTag {tag : String} (h : Markup.isTag tag = true) :
    ∀ c ∈ tag.toList, Markup.isTagChar c = true := by
  obtain ⟨first, rest, heq, hfirst, hrest⟩ := (Markup.isTag_iff tag).mp h
  rw [heq, List.forall_mem_cons]
  constructor
  · simp [Markup.isTagChar, Char.isAlphanum, hfirst]
  · exact fun c hc => (Markup.isTagChar_iff c).mpr (hrest c hc)

theorem stops_isTagChar_attributes (attributes : List (String × String)) (rest : List Char) :
    Text.Stops Markup.isTagChar
      (attributes.flatMap StyledNode.attributeChars ++ '>' :: rest) := by
  cases attributes with
  | nil => exact Text.stops_cons.mpr (by decide)
  | cons entry others => exact Text.stops_cons.mpr (by decide)

/-- An opening is read as it was written. -/
theorem readOpening_opening {tag : String} {attributes : List (String × String)}
    (h : IsOpening tag attributes) {fuel : Nat} (hfuel : attributes.length < fuel)
    (rest : List Char) :
    readOpening fuel (opening tag attributes ++ rest) = some ((tag, attributes), rest) := by
  have hwritten : opening tag attributes ++ rest = ['<'] ++ (tag.toList ++
      (attributes.flatMap StyledNode.attributeChars ++ '>' :: rest)) := by
    simp [opening]
  have hspan := Text.span_append (isTagChar_of_isTag h.tag_ok)
    (stops_isTagChar_attributes attributes rest)
  rw [hwritten, readOpening, List.dropPrefix?_append_of_beq _ (by decide)]
  simp only [Option.bind_eq_bind, Option.bind_some, hspan,
    readAttributes_append h.names_ok hfuel, String.ofList_toList]
  rfl

theorem length_attributes_lt_opening (tag : String) (attributes : List (String × String)) :
    attributes.length + 1 < (opening tag attributes).length := by
  have hattributes : attributes.length ≤
      (attributes.flatMap StyledNode.attributeChars).length := by
    induction attributes with
    | nil => exact Nat.zero_le _
    | cons entry others ih =>
        simp only [List.flatMap_cons, List.length_cons, List.length_append,
          StyledNode.attributeChars]
        omega
  simp only [opening, List.length_cons, List.length_append, List.length_nil]
  omega

/-- An opening does not look like a closing. -/
theorem exists_opening_eq {tag : String} {attributes : List (String × String)}
    (h : IsOpening tag attributes) :
    ∃ c cs, opening tag attributes = '<' :: c :: cs ∧ c ≠ '/' := by
  obtain ⟨first, rest, heq, hfirst, -⟩ := (Markup.isTag_iff tag).mp h.tag_ok
  refine ⟨first, rest ++ (attributes.flatMap StyledNode.attributeChars ++ ['>']), ?_, ?_⟩
  · simp [opening, heq]
  · rintro rfl
    exact absurd hfirst (by decide)

theorem exists_chars_eq {element : HtmlElement} (h : element.WellFormed) (level : Nat) :
    ∃ c cs, element.chars level = '<' :: c :: cs ∧ c ≠ '/' := by
  cases element with
  | empty tag attributes =>
      rw [WellFormed] at h
      exact exists_opening_eq h.1
  | text tag attributes content =>
      rw [WellFormed] at h
      obtain ⟨c, cs, hopening, hc⟩ := exists_opening_eq h.1
      refine ⟨c, cs ++ Markup.escapeChars content.toList ++ StyledNode.closeTag tag, ?_, hc⟩
      simp [chars, hopening]
  | parent tag attributes children =>
      rw [WellFormed] at h
      obtain ⟨c, cs, hopening, hc⟩ := exists_opening_eq h.1
      refine ⟨c, cs ++ charsOfList (level + 1) children ++
        '\n' :: (StyledNode.indentation level ++ StyledNode.closeTag tag), ?_, hc⟩
      simp [chars, hopening]

/-- The line break and the space before an element or a closing are skipped. -/
theorem skipLayout_line (level : Nat) (cs : List Char) :
    skipLayout ('\n' :: (StyledNode.indentation level ++ '<' :: cs)) = '<' :: cs := by
  have hspace : ∀ c ∈ StyledNode.indentation level, decide (c = ' ') || decide (c = '\n') := by
    intro c hc
    rw [List.eq_of_mem_replicate hc]
    rfl
  rw [skipLayout, List.dropWhile_cons_of_pos (by decide), List.dropWhile_append_of_pos hspace,
    List.dropWhile_cons_of_neg (by decide)]

theorem head?_charsOfList_append (level : Nat) (elements : List HtmlElement) (cs : List Char) :
    (charsOfList level elements ++ '\n' :: cs).head? = some '\n' := by
  cases elements with
  | nil => rfl
  | cons element rest => rfl

theorem head?_escapeChars_append {content : List Char} (h : Text.Stops Text.isBlank content)
    (cs : List Char) : (Markup.escapeChars content ++ '<' :: cs).head? ≠ some '\n' := by
  have hstops := Markup.stops_escapeChars h
  cases hescaped : Markup.escapeChars content with
  | nil => simp
  | cons c rest =>
      rw [hescaped, Text.stops_cons] at hstops
      rintro heq
      cases heq
      exact absurd hstops (by decide)

theorem dropPrefix?_closeTag (tag : String) (rest : List Char) :
    (StyledNode.closeTag tag ++ rest).dropPrefix? (closing tag) = some rest :=
  List.dropPrefix?_append_of_beq rest (beq_self_eq_true (closing tag))

section Cases

variable {fuel : Nat} {cs after : List Char} {tag : String} {attributes : List (String × String)}
  (hopening : readOpening fuel cs = some ((tag, attributes), after))
include hopening

theorem readElement_of_void (hvoid : Markup.isVoid tag = true) :
    readElement (fuel + 1) cs = some (empty tag attributes, after) := by
  rw [readElement, hopening]
  simp only [Option.bind_eq_bind, Option.bind_some, hvoid, ↓reduceIte]
  rfl

theorem readElement_of_text (hvoid : Markup.isVoid tag = false) (hhead : after.head? ≠ some '\n')
    {content rest : List Char} (hspan : after.span (fun c => decide (c ≠ '<')) =
      (content, StyledNode.closeTag tag ++ rest)) :
    readElement (fuel + 1) cs =
      some (text tag attributes (String.ofList (Markup.unescapeChars content)), rest) := by
  rw [readElement, hopening]
  simp only [Option.bind_eq_bind, Option.bind_some, hvoid, Bool.false_eq_true, ↓reduceIte, hhead,
    hspan, dropPrefix?_closeTag]
  rfl

theorem readElement_of_parent (hvoid : Markup.isVoid tag = false)
    (hhead : after.head? = some '\n') {children : List HtmlElement} {rest : List Char}
    (hread : readElements fuel after = some (children, StyledNode.closeTag tag ++ rest)) :
    readElement (fuel + 1) cs = some (parent tag attributes children, rest) := by
  rw [readElement, hopening]
  simp only [Option.bind_eq_bind, Option.bind_some, hvoid, Bool.false_eq_true, ↓reduceIte, hhead,
    hread, dropPrefix?_closeTag]
  rfl

end Cases

theorem readElements_of_over {cs : List Char} (h : isOver (skipLayout cs) = true) (fuel : Nat) :
    readElements (fuel + 1) cs = some ([], skipLayout cs) := by
  rw [readElements]
  simp only [h, ↓reduceIte]

theorem readElements_of_element {fuel : Nat} {cs after rest : List Char} {element : HtmlElement}
    {others : List HtmlElement} (hover : isOver (skipLayout cs) = false)
    (helement : readElement fuel (skipLayout cs) = some (element, after))
    (hothers : readElements fuel after = some (others, rest)) :
    readElements (fuel + 1) cs = some (element :: others, rest) := by
  rw [readElements]
  simp only [hover, Bool.false_eq_true, ↓reduceIte, helement, hothers, Option.bind_eq_bind,
    Option.bind_some]
  rfl

-- The length of the written text bounds the fuel: each call below it has at least the opening
-- bracket or the line break less to read.
mutual

/-- An element is read as it was written, whatever follows. -/
theorem readElement_chars {element : HtmlElement} (h : element.WellFormed) (level : Nat)
    {fuel : Nat} (hfuel : (element.chars level).length ≤ fuel) (rest : List Char) :
    readElement fuel (element.chars level ++ rest) = some (element, rest) := by
  obtain ⟨c, cs, hfront, -⟩ := exists_chars_eq h level
  obtain ⟨fuel, rfl⟩ : ∃ n, fuel = n + 1 := by
    rw [hfront] at hfuel
    exact Nat.exists_eq_add_one.mpr (Nat.lt_of_lt_of_le (Nat.zero_lt_succ _) hfuel)
  match element with
  | empty tag attributes =>
      obtain ⟨hopening, hvoid⟩ := h
      have hlength := length_attributes_lt_opening tag attributes
      rw [chars] at hfuel
      exact readElement_of_void (readOpening_opening hopening (by omega) rest) hvoid
  | text tag attributes content =>
      obtain ⟨hopening, hvoid, hstops⟩ := h
      have hlength := length_attributes_lt_opening tag attributes
      rw [chars, List.length_append, List.length_append] at hfuel
      have hspan : (Markup.escapeChars content.toList ++ (StyledNode.closeTag tag ++ rest)).span
          (fun c => decide (c ≠ '<')) =
            (Markup.escapeChars content.toList, StyledNode.closeTag tag ++ rest) := by
        refine Text.span_append (fun c hc => decide_eq_true ?_) (Text.stops_cons.mpr (by decide))
        rintro rfl
        exact Markup.lt_not_mem_escapeChars _ hc
      have hattributes : attributes.length < fuel := by omega
      have hread := readElement_of_text (readOpening_opening hopening hattributes _) hvoid
        (head?_escapeChars_append hstops _) hspan
      rw [Markup.unescapeChars_escapeChars, String.ofList_toList] at hread
      rw [chars, List.append_assoc, List.append_assoc]
      exact hread
  | parent tag attributes children =>
      obtain ⟨hopening, hvoid, hchildren⟩ := h
      have hlength := length_attributes_lt_opening tag attributes
      rw [chars, List.length_append, List.length_append] at hfuel
      let ending := '\n' :: (StyledNode.indentation level ++ (StyledNode.closeTag tag ++ rest))
      have hending : skipLayout ending = StyledNode.closeTag tag ++ rest := skipLayout_line level _
      have hover : isOver (skipLayout ending) = true := by
        rw [hending]
        rfl
      have hbelow : (charsOfList (level + 1) children).length < fuel := by omega
      have hread := readElements_chars hchildren (level + 1) hbelow hover
      rw [hending] at hread
      have hparent := readElement_of_parent (readOpening_opening hopening (by omega) _) hvoid
        (head?_charsOfList_append _ _ _) hread
      simpa [chars, ending] using hparent

theorem readElements_chars {elements : List HtmlElement} (h : ListWellFormed elements)
    (level : Nat) {fuel : Nat} (hfuel : (charsOfList level elements).length < fuel)
    {rest : List Char} (hrest : isOver (skipLayout rest) = true) :
    readElements fuel (charsOfList level elements ++ rest) = some (elements, skipLayout rest) := by
  obtain ⟨fuel, rfl⟩ := Nat.exists_eq_add_one.mpr (Nat.zero_lt_of_lt hfuel)
  match elements with
  | [] => exact readElements_of_over hrest fuel
  | element :: others =>
      obtain ⟨helement, hothers⟩ := h
      obtain ⟨c, cs, hfront, hc⟩ := exists_chars_eq helement level
      have hlength : 0 < (element.chars level).length := by
        rw [hfront]
        exact Nat.zero_lt_succ _
      simp only [charsOfList, List.cons_append, List.length_cons, List.length_append] at hfuel
      have hskip : skipLayout (charsOfList level (element :: others) ++ rest) =
          element.chars level ++ (charsOfList level others ++ rest) := by
        have hline := skipLayout_line level (c :: (cs ++ (charsOfList level others ++ rest)))
        simpa [charsOfList, hfront] using hline
      have hover : isOver (skipLayout (charsOfList level (element :: others) ++ rest)) = false := by
        rw [hskip, hfront]
        simp [isOver, List.isPrefixOf, Ne.symm hc]
      have helementFuel : (element.chars level).length ≤ fuel := by omega
      have hread := readElement_chars helement level helementFuel
        (charsOfList level others ++ rest)
      rw [← hskip] at hread
      exact readElements_of_element hover hread
        (readElements_chars hothers level (by omega) hrest)

end

end HtmlElement
end DesignMarkup
