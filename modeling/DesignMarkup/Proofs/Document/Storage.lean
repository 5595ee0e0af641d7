import DesignMarkup.Host
import DesignMarkup.Proofs.OrderedMap

/-!
The storage of a document.  A write changes what is stored under one key of one element and nothing
else: every other text and every element stay as they were, and a refused write has no effect.
-/

namespace DesignMarkup

namespace Layer

mutual

theorem id_of_find? {id : ElementId} {layer found : Layer} (h : layer.find? id = some found) :
    found.id = id := by
  match layer with
  | ⟨element, data, children⟩ =>
      rw [find?] at h
      split at h
      · rename_i heq
        rw [← Option.some.inj h]
        exact heq
      · exact id_of_findInList? h

theorem id_of_findInList? {id : ElementId} {layers : List Layer} {found : Layer}
    (h : findInList? id layers = some found) : found.id = id := by
  match layers with
  | [] => simp [findInList?] at h
  | layer :: rest =>
      rw [findInList?] at h
      split at h
      · rename_i other heq
        rw [← Option.some.inj h]
        exact id_of_find? heq
      · exact id_of_findInList? h

end

/-- What a layer holds of its own element: the element and its stored data. -/
def own (layer : Layer) : Element × OrderedMap String String :=
  (layer.element, layer.data)

mutual

/-- After a text was stored on the element `id`, the element `other` is found as before, with
changed data only if it is the same one. -/
theorem own_find?_store (id : ElementId) (key value : String) (other : ElementId) (layer : Layer) :
    ((layer.modify id (store key value)).find? other).map own =
      (layer.find? other).map fun found =>
        (found.element, if other = id then found.data.insert key value else found.data) := by
  match layer with
  | ⟨element, data, children⟩ =>
      have hchildren := own_findInList?_store id key value other children
      by_cases hid : element.id = id
      · by_cases hother : element.id = other
        · have hsame : other = id := hother.symm.trans hid
          simp [modify, store, find?, own, hid, hsame]
        · have hne : other ≠ id := by
            rintro rfl
            exact hother hid
          simp [modify, store, find?, hid, hne, Ne.symm hne]
          rfl
      · by_cases hother : element.id = other
        · have hne : other ≠ id := by
            rintro rfl
            exact hid hother
          simp [modify, find?, own, hother, hne]
        · simpa [modify, find?, hid, hother] using hchildren

theorem own_findInList?_store (id : ElementId) (key value : String) (other : ElementId)
    (layers : List Layer) :
    (findInList? other (modifyInList id (store key value) layers)).map own =
      (findInList? other layers).map fun found =>
        (found.element, if other = id then found.data.insert key value else found.data) := by
  match layers with
  | [] => rfl
  | layer :: rest =>
      have hlayer := own_find?_store id key value other layer
      have hrest := own_findInList?_store id key value other rest
      rw [modifyInList, findInList?, findInList?]
      cases hfound : layer.find? other with
      | none =>
          rw [hfound, Option.map_none, Option.map_eq_none_iff] at hlayer
          simpa [hlayer] using hrest
      | some found =>
          rw [hfound, Option.map_some, Option.map_eq_some_iff] at hlayer
          obtain ⟨changed, hchanged, hown⟩ := hlayer
          simp [hchanged, hown]

end

end Layer

namespace Document

theorem layer?_eq_none {d : Document} {id : ElementId} (h : id ∉ d.allElements) :
    d.layer? id = none := by
  rw [← Option.not_isSome_iff_eq_none]
  intro hsome
  exact h ((contains_iff d id).mp hsome)

theorem element?_eq_none {d : Document} {id : ElementId} (h : id ∉ d.allElements) :
    d.element? id = none := by
  rw [element?, layer?_eq_none h, Option.map_none]

theorem not_mem_of_contains {d : Document} {id : ElementId} (h : d.contains id = false) :
    id ∉ d.allElements := by
  rw [← contains_iff, h]
  exact Bool.false_ne_true

theorem mem_allElements_of_element? {d : Document} {id : ElementId} {element : Element}
    (h : d.element? id = some element) : id ∈ d.allElements := by
  obtain ⟨layer, hlayer, -⟩ := Option.map_eq_some_iff.mp h
  exact (d.contains_iff id).mp (Option.isSome_of_eq_some hlayer)

/-- What is found under an identifier has it. -/
theorem id_of_element? {d : Document} {id : ElementId} {element : Element}
    (h : d.element? id = some element) : element.id = id := by
  obtain ⟨layer, hlayer, rfl⟩ := Option.map_eq_some_iff.mp h
  exact Layer.id_of_findInList? hlayer

theorem exists_element? {d : Document} {id : ElementId} (h : d.contains id = true) :
    ∃ element, d.element? id = some element := by
  obtain ⟨layer, hlayer⟩ := Option.isSome_iff_exists.mp h
  exact ⟨layer.element, Option.map_eq_some_iff.mpr ⟨layer, hlayer, rfl⟩⟩

theorem read_of_not_contains {d : Document} {id : ElementId} (h : id ∉ d.allElements)
    (key : String) : d.read id key = .error (.elementNotFound id) := by
  rw [read, layer?_eq_none h]

theorem read_of_layer? {d : Document} {id : ElementId} {layer : Layer}
    (h : d.layer? id = some layer) (key : String) :
    d.read id key = .ok ((layer.data.find? key).filter (· ≠ "")) := by
  simp [read, h]

section Write

variable {d d' : Document} {id : ElementId} {key value : String}

theorem layers_of_write (h : d.write id key value = .ok d') :
    id ∈ d.allElements ∧ d'.layers = Layer.modifyInList id (Layer.store key value) d.layers := by
  rw [write] at h
  split at h
  · rename_i hcontains
    cases h
    exact ⟨(contains_iff d id).mp hcontains, rfl⟩
  · cases h

theorem own_layer?_write (h : d.write id key value = .ok d') (other : ElementId) :
    (d'.layer? other).map Layer.own = (d.layer? other).map fun found =>
      (found.element, if other = id then found.data.insert key value else found.data) := by
  rw [layer?, layer?, (layers_of_write h).2]
  exact Layer.own_findInList?_store id key value other d.layers

theorem element?_write (h : d.write id key value = .ok d') (other : ElementId) :
    d'.element? other = d.element? other := by
  have hown := congrArg (Option.map Prod.fst) (own_layer?_write h other)
  simpa [element?, Layer.own, Function.comp_def] using hown

/-- The text just written is read back, an empty one as none; all others are as before. -/
theorem read_write (h : d.write id key value = .ok d') (other : ElementId) (name : String) :
    d'.read other name =
      if other = id ∧ name = key then .ok (if value = "" then none else some value)
      else d.read other name := by
  have hown := own_layer?_write h other
  cases hlayer : d.layer? other with
  | none =>
      have hne : other ≠ id := by
        rintro rfl
        have hsome := (contains_iff d other).mpr (layers_of_write h).1
        simp [contains, hlayer] at hsome
      rw [hlayer, Option.map_none, Option.map_eq_none_iff] at hown
      simp [read, hlayer, hown, hne]
  | some found =>
      rw [hlayer, Option.map_some, Option.map_eq_some_iff] at hown
      obtain ⟨changed, hchanged, hown⟩ := hown
      have hdata : changed.data = if other = id then found.data.insert key value else found.data :=
        congrArg Prod.snd hown
      rw [read_of_layer? hchanged, read_of_layer? hlayer, hdata]
      by_cases hid : other = id
      · by_cases hname : name = key
        · by_cases hvalue : value = "" <;> simp [hid, hname, hvalue]
        · simp [hid, hname, Ne.symm hname]
      · simp [hid]

end Write
end Document

namespace Host

/-- A write that succeeds is one of the document; the refusals of the host stay. -/
theorem write_eq_ok_iff {host host' : Host} {id : ElementId} {key value : String} :
    host.write id key value = .ok host' ↔
      host.writeFault id = none ∧
        ∃ d', host.document.write id key value = .ok d' ∧ host' = { host with document := d' } := by
  rw [write]
  cases host.writeFault id with
  | some fault => simp
  | none =>
      cases host.document.write id key value with
      | error e => simp [Except.map]
      | ok d' => simp [Except.map, eq_comm]

end Host
end DesignMarkup
