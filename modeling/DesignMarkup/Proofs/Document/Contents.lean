import DesignMarkup.Proofs.Document.SameTree

/-!
What a document is told by.  The parts of layers in their order, each with what is right below it,
leave no doubt about the layers; so documents that show the same tree and hold the same on each
element are the same.  In particular it makes no difference how texts came to be stored.
-/

namespace DesignMarkup

namespace Layer

/-- What a part holds, and what is right below it. -/
def told (layer : Layer) : (Element × OrderedMap String String) × List ElementId :=
  (layer.own, layer.children.map id)

-- What follows the parts of a layer is a parameter, since where they end is known only from what is
-- right below each of them.
mutual

theorem eq_of_told_parts {layer other : Layer}
    {rest rest' : List ((Element × OrderedMap String String) × List ElementId)}
    (h : layer.parts.map told ++ rest = other.parts.map told ++ rest') :
    layer = other ∧ rest = rest' := by
  match layer, other with
  | ⟨element, data, children⟩, ⟨element', data', children'⟩ =>
      rw [parts_eq, parts_eq, List.map_cons, List.map_cons, List.cons_append, List.cons_append,
        List.cons.injEq] at h
      obtain ⟨hfirst, hbelow⟩ := h
      simp only [told, own, Prod.mk.injEq] at hfirst
      obtain ⟨⟨rfl, rfl⟩, hids⟩ := hfirst
      obtain ⟨rfl, hrest⟩ := eq_of_told_partsOfList hids hbelow
      exact ⟨rfl, hrest⟩

theorem eq_of_told_partsOfList {layers others : List Layer}
    {rest rest' : List ((Element × OrderedMap String String) × List ElementId)}
    (hids : layers.map id = others.map id)
    (h : (partsOfList layers).map told ++ rest = (partsOfList others).map told ++ rest') :
    layers = others ∧ rest = rest' := by
  match layers, others with
  | [], [] => exact ⟨rfl, h⟩
  | [], _ :: _ => cases hids
  | _ :: _, [] => cases hids
  | layer :: layers, other :: others =>
      rw [partsOfList, partsOfList, List.map_append, List.map_append, List.append_assoc,
        List.append_assoc] at h
      rw [List.map_cons, List.map_cons, List.cons.injEq] at hids
      obtain ⟨rfl, hlater⟩ := eq_of_told_parts h
      obtain ⟨rfl, hrest⟩ := eq_of_told_partsOfList hids.2 hlater
      exact ⟨rfl, hrest⟩

end

end Layer

namespace Document

/-- The layers of the elements in their order are all parts. -/
theorem filterMap_layer? (d : Document) :
    d.allElements.filterMap d.layer? = Layer.partsOfList d.layers := by
  rw [allElements, ← Layer.map_id_partsOfList, List.filterMap_map]
  refine (List.filterMap_congr fun part hpart => ?_).trans List.filterMap_some
  exact layer?_eq_some_iff.mpr ⟨hpart, rfl⟩

theorem map_told_layer? (d : Document) (id : ElementId) :
    (d.layer? id).map Layer.told = ((d.layer? id).map Layer.own).map (·, d.children id) := by
  rw [children]
  cases d.layer? id <;> rfl

/-- Documents with the same tree that hold the same on each element have the same layers. -/
theorem SameTree.layers_eq {d d' : Document} (h : d.SameTree d')
    (hown : ∀ id, (d'.layer? id).map Layer.own = (d.layer? id).map Layer.own) :
    d'.layers = d.layers := by
  have htold : (Layer.partsOfList d'.layers).map Layer.told =
      (Layer.partsOfList d.layers).map Layer.told := by
    rw [← filterMap_layer?, ← filterMap_layer?, h.allElements_eq, List.map_filterMap,
      List.map_filterMap]
    simp only [map_told_layer?, hown, h.children_eq]
  have hroots : d'.layers.map Layer.id = d.layers.map Layer.id :=
    congrArg Outline.roots h.outline_eq
  have happended := congrArg (· ++ []) htold
  exact (Layer.eq_of_told_partsOfList hroots happended).1

end Document

namespace Host

/-- Hosts that differ at most in what is stored on the elements. -/
structure SameFrame (host host' : Host) : Prop where
  sameTree : host.document.SameTree host'.document
  fileName_eq : host'.document.fileName = host.document.fileName
  pageName_eq : host'.document.pageName = host.document.pageName
  writeFault_eq : host'.writeFault = host.writeFault
  readFault_eq : host'.readFault = host.readFault

namespace SameFrame

variable {host host' host'' : Host}

theorem refl (host : Host) : host.SameFrame host :=
  ⟨.refl _, rfl, rfl, rfl, rfl⟩

theorem trans (h : host.SameFrame host') (h' : host'.SameFrame host'') :
    host.SameFrame host'' where
  sameTree := h.sameTree.trans h'.sameTree
  fileName_eq := h'.fileName_eq.trans h.fileName_eq
  pageName_eq := h'.pageName_eq.trans h.pageName_eq
  writeFault_eq := h'.writeFault_eq.trans h.writeFault_eq
  readFault_eq := h'.readFault_eq.trans h.readFault_eq

theorem symm (h : host.SameFrame host') : host'.SameFrame host where
  sameTree := h.sameTree.symm
  fileName_eq := h.fileName_eq.symm
  pageName_eq := h.pageName_eq.symm
  writeFault_eq := h.writeFault_eq.symm
  readFault_eq := h.readFault_eq.symm

/-- Such hosts are the same if the same is stored on each element. -/
theorem eq_of_own (h : host.SameFrame host')
    (hown : ∀ id, (host'.document.layer? id).map Layer.own =
      (host.document.layer? id).map Layer.own) : host' = host := by
  have hlayers := h.sameTree.layers_eq hown
  obtain ⟨hselection, -, -, -⟩ := h.sameTree
  obtain ⟨-, hfile, hpage, hwrite, hread⟩ := h
  obtain ⟨⟨⟨fileName, pageName, selection, layers⟩, hnodup⟩, writeFault, readFault⟩ := host
  obtain ⟨⟨⟨fileName', pageName', selection', layers'⟩, hnodup'⟩, writeFault', readFault'⟩ := host'
  cases hlayers
  cases hselection
  cases hfile
  cases hpage
  cases hwrite
  cases hread
  rfl

end SameFrame

theorem sameFrame_of_write {host : Host} {d' : Document} {id : ElementId} {key value : String}
    (h : host.document.write id key value = .ok d') :
    host.SameFrame { host with document := d' } := by
  have hsame := Document.sameTree_write h
  rw [Document.write] at h
  split at h
  · cases h
    exact ⟨hsame, rfl, rfl, rfl, rfl⟩
  · cases h

theorem sameFrame_write {host host' : Host} {id : ElementId} {key value : String}
    (h : host.write id key value = .ok host') : host.SameFrame host' := by
  obtain ⟨-, d', hdocument, rfl⟩ := write_eq_ok_iff.mp h
  exact sameFrame_of_write hdocument

end Host
end DesignMarkup
