import DesignMarkup.Markup.Reading
import DesignMarkup.Proofs.Json.Plain

/-!
What nodes are read from.  Lists of nodes are read item by item, at every depth: an object yields
one node, and so does an array of no more items than a node has fields; all else is passed over.
Nothing inside a node keeps it from being read, so that only the outer shape of an input decides
whether there are nodes in it.
-/

namespace DesignMarkup

open OrderedMap (lookup lookup_eq_none_iff lookup_filter lookup_of_mem mem_of_lookup)

namespace Json

/-- The items of an array; nothing else has any. -/
def items : Json → List Json
  | .array items => items
  | _ => []

def isObject : Json → Bool
  | .object _ => true
  | _ => false

/-- What lies directly in an array or object. -/
def parts : Json → List Json
  | .array items => items
  | .object members => members.map Prod.snd
  | _ => []

theorem nesting_lt_of_mem_parts {j part : Json} (h : part ∈ j.parts) :
    part.nesting < j.nesting := by
  cases j with
  | array items => exact Nat.lt_succ_of_le (nesting_le_of_mem_items h)
  | object members =>
      obtain ⟨member, hmember, rfl⟩ := List.mem_map.mp h
      exact Nat.lt_succ_of_le (nesting_le_of_mem hmember)
  | _ => cases h

theorem IsPlain.parts {j : Json} (h : j.IsPlain) : ∀ part ∈ j.parts, part.IsPlain := by
  cases j with
  | array items => exact isPlain_array_iff.mp h
  | object members => exact List.forall_mem_map.mpr (isPlain_object_iff.mp h).2
  | _ => exact List.forall_mem_nil _

theorem nestingItems_items_le (j : Json) : nestingItems j.items ≤ j.nesting := by
  cases j with
  | array items => exact Nat.le_succ _
  | _ => exact Nat.zero_le _

theorem nestingItems_items_lt {j : Json} {depth : Nat} (h : j.nesting < depth) :
    nestingItems j.items < depth :=
  Nat.lt_of_le_of_lt (nestingItems_items_le j) h

theorem IsPlain.items {j : Json} (h : j.IsPlain) : ∀ item ∈ j.items, item.IsPlain := by
  cases j with
  | array items => exact isPlain_array_iff.mp h
  | _ => exact List.forall_mem_nil _

/-- The fields of a record lie deeper than the record. -/
theorem nesting_of_record? {names : List String} {j : Json} {r : Record}
    (h : j.record? names = some r) :
    0 < j.nesting ∧ ∀ field ∈ r.fields, field.2.nesting < j.nesting := by
  have hparts : 0 < j.nesting ∧ ∀ field ∈ r.fields, field.2 ∈ j.parts := by
    cases j with
    | array items =>
        rw [record?] at h
        split at h
        · cases h
          exact ⟨Nat.succ_pos _, fun field hfield => (List.of_mem_zip hfield).2⟩
        · cases h
    | object members =>
        rw [record?] at h
        split at h
        · cases h
          exact ⟨Nat.succ_pos _, fun field hfield =>
            List.mem_map_of_mem (List.mem_of_mem_filter hfield)⟩
        · cases h
    | _ => cases h
  exact ⟨hparts.1, fun field hfield => nesting_lt_of_mem_parts (hparts.2 field hfield)⟩

/-- Fields that are told by their places. -/
theorem lookup_zip {β : Type} {names : List String} (hnodup : names.Nodup) (values : List β)
    (place : Nat) (hplace : place < names.length) :
    lookup names[place] (names.zip values) = values[place]? := by
  induction names generalizing values place with
  | nil => exact absurd hplace (Nat.not_lt_zero place)
  | cons name rest ih =>
      rw [List.nodup_cons] at hnodup
      cases values with
      | nil => rfl
      | cons value others =>
          cases place with
          | zero => simp [lookup]
          | succ place =>
              have hrest : place < rest.length := Nat.lt_of_succ_lt_succ hplace
              have hne : name ≠ rest[place] := by
                rintro rfl
                exact hnodup.1 (List.getElem_mem hrest)
              simpa [lookup, hne] using ih hnodup.2 others place hrest

end Json

namespace MarkupNode

section Fields

variable {r : Json.Record} {item? other? : Json → Option MarkupNode}

theorem children_ofFields :
    (ofFields item? r).children = (field r "children").items.filterMap item? := by
  rw [ofFields]
  cases field r "children" <;> rfl

/-- A node depends on the reading of its own items only. -/
theorem ofFields_congr
    (h : ∀ item ∈ (field r "children").items, item? item = other? item) :
    ofFields item? r = ofFields other? r := by
  cases hchildren : field r "children" with
  | array items =>
      rw [hchildren] at h
      have hitems : items.filterMap item? = items.filterMap other? := List.filterMap_congr h
      simp only [ofFields, hchildren, hitems]
  | _ => simp only [ofFields, hchildren]

theorem nesting_field_lt {j : Json} (h : j.record? fieldNames = some r) (name : String) :
    (field r name).nesting < j.nesting := by
  obtain ⟨hpos, hfields⟩ := Json.nesting_of_record? h
  rw [field]
  cases hlookup : lookup name r.fields with
  | none => exact hpos
  | some value => exact hfields _ (mem_of_lookup hlookup)

end Fields

/-- Any depth that a value fits in is deep enough to read it. -/
theorem ofValueWithin?_eq (depth : Nat) {j : Json} (h : j.nesting ≤ depth) :
    ofValueWithin? depth j = (j.record? fieldNames).map (ofFields ofValue?) := by
  induction depth using Nat.strongRecOn generalizing j with
  | ind depth ih =>
      cases hrecord : j.record? fieldNames with
      | none => cases depth <;> simp [ofValueWithin?, hrecord]
      | some r =>
          have hfield := Nat.lt_of_lt_of_le (nesting_field_lt hrecord "children") h
          obtain ⟨depth, rfl⟩ := Nat.exists_eq_add_one.mpr (Nat.zero_lt_of_lt hfield)
          rw [ofValueWithin?, hrecord, Option.map_some, Option.map_some]
          apply congrArg some
          apply ofFields_congr
          intro item hitem
          have hlt : item.nesting < depth + 1 :=
            Nat.lt_of_le_of_lt (Json.nesting_le_of_mem_items hitem)
              (Json.nestingItems_items_lt hfield)
          calc
            ofValueWithin? depth item
            _ = (item.record? fieldNames).map (ofFields ofValue?) :=
                ih depth (Nat.lt_succ_self depth) (Nat.le_of_lt_succ hlt)
            _ = ofValue? item := (ih item.nesting hlt (Nat.le_refl _)).symm

/-- A node is read from a record, and its children in the same way. -/
theorem ofValue?_eq (j : Json) :
    ofValue? j = (j.record? fieldNames).map (ofFields ofValue?) :=
  ofValueWithin?_eq j.nesting (Nat.le_refl _)

/-- The values that nodes are read from: objects, and arrays of no more items than a node has
fields. -/
def isNodeValue : Json → Bool
  | .object _ => true
  | .array items => items.length ≤ fieldNames.length
  | _ => false

/-- The value of a node's children: in an object under their name, in an array in the last place. -/
def childrenValue? : Json → Option Json
  | .object members => lookup "children" members
  | .array items => items[6]?
  | _ => none

/-- The items that the children of a node are read from. -/
def childItems (j : Json) : List Json :=
  ((childrenValue? j).getD .null).items

theorem isNodeValue_of_isObject {j : Json} (h : j.isObject = true) : isNodeValue j = true := by
  cases j with
  | object members => rfl
  | _ => cases h

/-- The record of a plain value is there if it is one of a node. -/
theorem exists_record? {j : Json} (hplain : j.IsPlain) (h : isNodeValue j = true) :
    ∃ r, j.record? fieldNames = some r ∧
      field r "children" = (childrenValue? j).getD .null := by
  cases j with
  | object members =>
      have hnodup := (Json.isPlain_object_iff.mp hplain).1
      have hknown := hnodup.sublist
        ((List.filter_sublist (p := fun member : String × Json => member.1 ∈ fieldNames)).map
          Prod.fst)
      refine ⟨_, if_pos hknown, ?_⟩
      rw [field, lookup_filter (fun key => decide (key ∈ fieldNames)), if_pos (by decide)]
      rfl
  | array items =>
      refine ⟨_, if_pos (of_decide_eq_true h), ?_⟩
      have hnodup : fieldNames.Nodup := by decide
      have hlast : lookup "children" (fieldNames.zip items) = items[6]? :=
        Json.lookup_zip hnodup items 6 (by decide)
      rw [field, hlast]
      rfl
  | _ => cases h

theorem record?_eq_none {j : Json} (h : isNodeValue j = false) : j.record? fieldNames = none := by
  cases j with
  | object members => cases h
  | array items => exact if_neg (of_decide_eq_false h)
  | _ => rfl

theorem ofValue?_eq_none {j : Json} (h : isNodeValue j = false) : ofValue? j = none := by
  rw [ofValue?_eq, record?_eq_none h, Option.map_none]

theorem exists_ofValue? {j : Json} (hplain : j.IsPlain) (h : isNodeValue j = true) :
    ∃ node, ofValue? j = some node ∧ node.children = ofItems (childItems j) := by
  obtain ⟨r, hrecord, hfield⟩ := exists_record? hplain h
  refine ⟨ofFields ofValue? r, ?_, ?_⟩
  · rw [ofValue?_eq, hrecord, Option.map_some]
  · rw [children_ofFields, hfield]
    rfl

theorem childItems_cases (j : Json) :
    childItems j = [] ∨ ∃ part ∈ j.parts, childItems j = part.items := by
  rw [childItems]
  cases hvalue : childrenValue? j with
  | none => exact .inl rfl
  | some value =>
      refine .inr ⟨value, ?_, rfl⟩
      cases j with
      | object members => exact List.mem_map_of_mem (mem_of_lookup hvalue)
      | array items => exact List.mem_of_getElem? hvalue
      | _ => cases hvalue

theorem nestingItems_childItems_lt {j : Json} (h : isNodeValue j = true) :
    Json.nestingItems (childItems j) < j.nesting := by
  rcases childItems_cases j with hnone | ⟨part, hpart, hitems⟩
  · rw [hnone]
    cases j with
    | object members => exact Nat.succ_pos _
    | array items => exact Nat.succ_pos _
    | _ => cases h
  · rw [hitems]
    exact Json.nestingItems_items_lt (Json.nesting_lt_of_mem_parts hpart)

theorem plain_childItems {j : Json} (hplain : j.IsPlain) :
    ∀ item ∈ childItems j, item.IsPlain := by
  rcases childItems_cases j with hnone | ⟨part, hpart, hitems⟩
  · rw [hnone]
    exact List.forall_mem_nil _
  · rw [hitems]
    exact (hplain.parts part hpart).items

/-- Nodes that are read from items: one from each item that is kept, in their order, and so on among
the children of each.  A node is what its own item is read as, whatever stands beside it. -/
inductive ReadsEach (keeps : Json → Bool) : List Json → List MarkupNode → Prop
  | nil : ReadsEach keeps [] []
  | skip {item : Json} {rest : List Json} {nodes : List MarkupNode} (hitem : keeps item = false)
      (hrest : ReadsEach keeps rest nodes) : ReadsEach keeps (item :: rest) nodes
  | keep {item : Json} {rest : List Json} {node : MarkupNode} {nodes : List MarkupNode}
      (hitem : keeps item = true) (hread : ofValue? item = some node)
      (hbelow : ReadsEach keeps (childItems item) node.children)
      (hrest : ReadsEach keeps rest nodes) : ReadsEach keeps (item :: rest) (node :: nodes)

/-- An entry of a list of nodes, or of the children of such an entry that is read as a node. -/
inductive IsEntry : List Json → Json → Prop
  | head {item : Json} {rest : List Json} : IsEntry (item :: rest) item
  | inside {item entry : Json} {rest : List Json} (hitem : isNodeValue item = true)
      (hentry : IsEntry (childItems item) entry) : IsEntry (item :: rest) entry
  | tail {item entry : Json} {rest : List Json} (hentry : IsEntry rest entry) :
      IsEntry (item :: rest) entry

theorem ReadsEach.length_eq {keeps : Json → Bool} {items : List Json} {nodes : List MarkupNode}
    (h : ReadsEach keeps items nodes) : nodes.length = items.countP keeps := by
  induction h with
  | nil => rfl
  | skip hitem _ ih => rw [List.countP_cons_of_neg (Bool.eq_false_iff.mp hitem), ih]
  | keep hitem _ _ _ _ ih => rw [List.countP_cons_of_pos hitem, List.length_cons, ih]

/-- Items of any depth are read each by itself. -/
theorem readsEach_ofItems {items : List Json} (hplain : ∀ item ∈ items, item.IsPlain) :
    ReadsEach isNodeValue items (ofItems items) := by
  generalize hdepth : Json.nestingItems items = depth
  replace hdepth := Nat.le_of_eq hdepth
  -- The children of an item lie deeper than it; the items beside it need not.
  induction depth using Nat.strongRecOn generalizing items with
  | ind depth ihdepth =>
      induction items with
      | nil => exact .nil
      | cons item rest ih =>
          rw [Json.nestingItems, Nat.max_le] at hdepth
          rw [List.forall_mem_cons] at hplain
          have hrest := ih hplain.2 hdepth.2
          cases hitem : isNodeValue item with
          | false =>
              rw [ofItems, List.filterMap_cons_none (ofValue?_eq_none hitem)]
              exact .skip hitem hrest
          | true =>
              obtain ⟨node, hread, hchildren⟩ := exists_ofValue? hplain.1 hitem
              have hbelow := ihdepth _
                (Nat.lt_of_lt_of_le (nestingItems_childItems_lt hitem) hdepth.1)
                (plain_childItems hplain.1) (Nat.le_refl _)
              rw [ofItems, List.filterMap_cons_some hread]
              exact .keep hitem hread (hchildren ▸ hbelow) hrest

/-- Of the items only objects yield nodes exactly if no other entry is read as one. -/
theorem readsEach_isObject_iff {items : List Json} {nodes : List MarkupNode}
    (h : ReadsEach isNodeValue items nodes) :
    ReadsEach Json.isObject items nodes ↔
      ∀ entry, IsEntry items entry → isNodeValue entry = true → entry.isObject = true := by
  constructor
  · intro hobjects
    induction h with
    | nil =>
        intro entry hentry
        cases hentry
    | @skip item rest nodes hitem _ ih =>
        have hobject : item.isObject = false := by
          rw [Bool.eq_false_iff] at hitem ⊢
          exact fun h => hitem (isNodeValue_of_isObject h)
        cases hobjects with
        | keep hkept => rw [hobject] at hkept; cases hkept
        | skip _ hrest =>
            intro entry hentry hvalue
            cases hentry with
            | head => rw [hitem] at hvalue; cases hvalue
            | inside hinside => rw [hitem] at hinside; cases hinside
            | tail htail => exact ih hrest entry htail hvalue
    | @keep item rest node nodes hitem _ _ hrest ihbelow ih =>
        cases hobjects with
        | skip _ hfewer =>
            -- One node too few would be left for the items behind this one.
            have hlength := hfewer.length_eq
            rw [List.length_cons, hrest.length_eq] at hlength
            have hle : rest.countP Json.isObject ≤ rest.countP isNodeValue :=
              List.countP_mono_left fun _ _ => isNodeValue_of_isObject
            omega
        | keep hkept _ hbelow hmore =>
            intro entry hentry hvalue
            cases hentry with
            | head => exact hkept
            | inside _ hchild => exact ihbelow hbelow entry hchild hvalue
            | tail htail => exact ih hmore entry htail hvalue
  · intro hentries
    induction h with
    | nil => exact .nil
    | skip hitem _ ih =>
        refine .skip ?_ (ih fun entry hentry => hentries entry (.tail hentry))
        rw [Bool.eq_false_iff] at hitem ⊢
        exact fun h => hitem (isNodeValue_of_isObject h)
    | keep hitem hread _ _ ihbelow ih =>
        refine .keep (hentries _ .head hitem) hread ?_ ?_
        · exact ihbelow fun entry hentry => hentries entry (.inside hitem hentry)
        · exact ih fun entry hentry => hentries entry (.tail hentry)

/-- The items of the list of nodes that an input holds: its own if it is an array, those of its tree
if it is a forest, or else an object itself. -/
def nodeItems? : Json → Option (List Json)
  | .array items => some items
  | .object members =>
      match lookup "tree" members with
      | some (.array items) => some items
      | some _ => none
      | none => some [.object members]
  | _ => none

theorem nodeItems?_of_no_tree {members : List (String × Json)} (h : lookup "tree" members = none) :
    nodeItems? (.object members) = some [.object members] := by
  rw [nodeItems?, h]

/-- What holds nodes is read, every item by itself. -/
theorem nodesOfValue_eq_ok {j : Json} (hplain : j.IsPlain) {items : List Json}
    (hitems : nodeItems? j = some items) :
    nodesOfValue j = .ok (ofItems items) ∧ ∀ item ∈ items, item.IsPlain := by
  cases j with
  | array own =>
      cases hitems
      exact ⟨rfl, Json.isPlain_array_iff.mp hplain⟩
  | object members =>
      rw [nodeItems?] at hitems
      split at hitems
      · cases hitems
        rename_i htree
        refine ⟨by rw [nodesOfValue, htree], Json.isPlain_array_iff.mp ?_⟩
        exact (Json.isPlain_object_iff.mp hplain).2 _ (mem_of_lookup htree)
      · cases hitems
      · cases hitems
        rename_i htree
        obtain ⟨node, hread, -⟩ := exists_ofValue? hplain (j := .object members) rfl
        refine ⟨?_, List.forall_mem_singleton.mpr hplain⟩
        rw [nodesOfValue, htree, ofItems, List.filterMap_cons_some hread]
        simp only [hread, List.filterMap_nil]
  | _ => cases hitems

theorem nodesOfText_of_readValue? {s : String} {j : Json} (h : Json.readValue? s = some j) :
    nodesOfText s = nodesOfValue j := by
  rw [nodesOfText, h]

/-- Every list of nodes is read entry by entry: that of an input itself, that of a forest's tree and
those of the children at any depth.  Objects yield one node each, as they should, and so do arrays
of at most seven items; only objects do exactly if there are no such arrays among the entries. -/
theorem each_entry_read {j : Json} (hplain : j.IsPlain) {items : List Json}
    (hitems : nodeItems? j = some items) :
    ∃ nodes, nodesOfValue j = .ok nodes ∧
      (∀ s, Json.readValue? s = some j → nodesOfText s = .ok nodes) ∧
      ReadsEach isNodeValue items nodes ∧
      (ReadsEach Json.isObject items nodes ↔
        ∀ entry, IsEntry items entry → isNodeValue entry = true → entry.isObject = true) := by
  obtain ⟨hok, hitemsPlain⟩ := nodesOfValue_eq_ok hplain hitems
  have hreads := readsEach_ofItems hitemsPlain
  refine ⟨ofItems items, hok, ?_, hreads, readsEach_isObject_iff hreads⟩
  intro s hs
  rw [nodesOfText_of_readValue? hs, hok]

/-- A list element among strays, with another stray and an item that is written as an array among
its children. -/
def strayItems : List Json :=
  [.null,
    .object
      [("tag", .string "ul"),
        ("children", .array
          [.string "stray", .array [.string "li", .string "First"],
            .object [("tag", .string "li"), ("content", .string "Second")]])],
    .bool true]

def strayForest : Json :=
  .object [("tree", .array strayItems)]

theorem each_entry_read_strayForest :
    strayForest.IsPlain ∧ ∃ items, nodeItems? strayForest = some items ∧
      ∃ nodes, nodesOfValue strayForest = .ok nodes ∧
        (∀ s, Json.readValue? s = some strayForest → nodesOfText s = .ok nodes) ∧
        ReadsEach isNodeValue items nodes ∧
        (ReadsEach Json.isObject items nodes ↔
          ∀ entry, IsEntry items entry → isNodeValue entry = true → entry.isObject = true) :=
  have hplain : strayForest.IsPlain := rfl
  have hitems : nodeItems? strayForest = some strayItems := rfl
  ⟨hplain, strayItems, hitems, each_entry_read hplain hitems⟩

/-- A paragraph that is written as an array, beside an object. -/
def strayList : List Json :=
  [.array [.string "p"], .object [("tag", .string "li")]]

def strayText : String :=
  "[[\"p\"],\x7b\"tag\":\"li\"\x7d]"

/-- The array is taken for a node. -/
theorem not_readsEach_isObject_strayText :
    ∃ items nodes, Json.readValue? strayText = some (.array items) ∧
      nodesOfText strayText = .ok nodes ∧ nodes.map MarkupNode.tag = ["p", "li"] ∧
      ¬ ReadsEach Json.isObject items nodes := by
  have htext : strayText = (Json.array strayList).compact := by decide +kernel
  have hexact : (Json.array strayList).IsExact := by
    simp [strayList, Json.IsExact, Json.MembersExact, Json.ItemsExact]
  have hread : Json.readValue? strayText = some (.array strayList) := by
    rw [htext]
    exact Json.Faithful.readValue?_compact ⟨hexact, rfl⟩ (by decide)
  refine ⟨_, _, hread, nodesOfText_of_readValue? hread, rfl, ?_⟩
  intro hobjects
  exact absurd hobjects.length_eq (by decide)

theorem nodeItems?_object_eq_none_iff {members : List (String × Json)}
    (hnodup : (members.map Prod.fst).Nodup) :
    nodeItems? (.object members) = none ↔
      ∃ tree, ("tree", tree) ∈ members ∧ ∀ items, tree ≠ .array items := by
  have hmem : ∀ tree, ("tree", tree) ∈ members ↔ lookup "tree" members = some tree :=
    fun tree => ⟨lookup_of_mem hnodup, mem_of_lookup⟩
  simp only [nodeItems?, hmem]
  cases lookup "tree" members with
  | none => simp
  | some tree => cases tree <;> simp

theorem nodeItems?_eq_none_iff {j : Json} (hplain : j.IsPlain) :
    nodeItems? j = none ↔
      j = .null ∨ (∃ b, j = .bool b) ∨ (∃ n, j = .number n) ∨ (∃ text, j = .string text) ∨
        ∃ members tree, j = .object members ∧ ("tree", tree) ∈ members ∧
          ∀ items, tree ≠ .array items := by
  cases j with
  | object members =>
      rw [nodeItems?_object_eq_none_iff (Json.isPlain_object_iff.mp hplain).1]
      simp
  | unreadable => cases hplain
  | _ => simp [nodeItems?]

theorem exists_error_iff {j : Json} (hplain : j.IsPlain) :
    (∃ e, nodesOfValue j = .error e) ↔ nodeItems? j = none := by
  cases hitems : nodeItems? j with
  | some items =>
      have hok := (nodesOfValue_eq_ok hplain hitems).1
      simp [hok]
  | none =>
      refine iff_of_true ?_ rfl
      cases j with
      | array items => cases hitems
      | object members =>
          rw [nodeItems?] at hitems
          split at hitems
          · cases hitems
          · rename_i tree hnot htree
            refine ⟨.treeNotArray tree, ?_⟩
            rw [nodesOfValue, htree]
            cases tree with
            | array items => exact absurd rfl (hnot items)
            | _ => rfl
          · cases hitems
      | _ => exact ⟨_, rfl⟩

/-- Only the outer shape of an input keeps it from holding nodes.  A text that is a JSON value fails
exactly if the value is a single one, or an object whose tree is no array; an object without a tree
is one node, whatever its members are. -/
theorem fails_by_outer_shape {s : String} {j : Json} (h : Json.readValue? s = some j) :
    ((∃ e, nodesOfText s = .error e) ↔
      j = .null ∨ (∃ b, j = .bool b) ∨ (∃ n, j = .number n) ∨ (∃ text, j = .string text) ∨
        ∃ members tree, j = .object members ∧ ("tree", tree) ∈ members ∧
          ∀ items, tree ≠ .array items) ∧
    ∀ members, j = .object members → "tree" ∉ members.map Prod.fst →
      ∃ node, nodesOfText s = .ok [node] := by
  have hplain := Json.isPlain_of_readValue? h
  rw [nodesOfText_of_readValue? h]
  constructor
  · rw [exists_error_iff hplain, nodeItems?_eq_none_iff hplain]
  · rintro members rfl htree
    have hsingle := nodeItems?_of_no_tree (lookup_eq_none_iff.mpr htree)
    obtain ⟨node, hread, -⟩ := exists_ofValue? hplain (j := .object members) rfl
    refine ⟨node, ?_⟩
    rw [(nodesOfValue_eq_ok hplain hsingle).1, ofItems, List.filterMap_cons_some hread,
      List.filterMap_nil]

/-- A node whose members are all of a wrong kind, with one of them written twice. -/
def shapelessTree : Json :=
  .object
    [("tag", .array [.null]), ("tag", .object [("tree", .bool true)]), ("styles", .bool true),
      ("children", .object [("tag", .string "li")])]

theorem fails_by_outer_shape_shapelessTree :
    ∃ j, Json.readValue? shapelessTree.compact = some j ∧
      ((∃ e, nodesOfText shapelessTree.compact = .error e) ↔
        j = .null ∨ (∃ b, j = .bool b) ∨ (∃ n, j = .number n) ∨ (∃ text, j = .string text) ∨
          ∃ members tree, j = .object members ∧ ("tree", tree) ∈ members ∧
            ∀ items, tree ≠ .array items) ∧
      ∃ node, nodesOfText shapelessTree.compact = .ok [node] := by
  have hexact : shapelessTree.IsExact := by
    simp [shapelessTree, Json.IsExact, Json.MembersExact, Json.ItemsExact]
  have hread : Json.readValue? shapelessTree.compact = some (.object
      [("tag", .object [("tree", .bool true)]), ("styles", .bool true),
        ("children", .object [("tag", .string "li")])]) :=
    Json.bind_read?_compact hexact (by decide) Json.value?
  obtain ⟨hfails, hsingle⟩ := fails_by_outer_shape hread
  exact ⟨_, hread, hfails, hsingle _ rfl (by decide)⟩

end MarkupNode
end DesignMarkup
