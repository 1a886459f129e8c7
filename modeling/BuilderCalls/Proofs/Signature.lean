import BuilderCalls.NormalForm
import Mathlib.Data.List.Nodup

/-!
# What the signature tables guarantee

A few facts are read off the tables once: no two node types share a tag or the
name of a builder, the keys that a node type knows are pairwise different, and
literals are the only nodes with a slot for a literal value.  Everything else about signatures
follows from them, so a new node type needs no proof of its own.
-/

namespace BuilderCalls

namespace SlotKind

def HoldsNode (kind : SlotKind) : Prop :=
  kind = .child ∨ kind.isOptional = true

theorem holdsNodes_iff {kind : SlotKind} :
    kind.holdsNodes = true ↔ kind.HoldsNode ∨ kind.isList = true := by
  cases kind <;> simp [holdsNodes, HoldsNode, isOptional, isList]

theorem HoldsNode.holdsNodes {kind : SlotKind} (hkind : kind.HoldsNode) :
    kind.holdsNodes = true :=
  holdsNodes_iff.mpr (.inl hkind)

theorem HoldsNode.isList_eq_false {kind : SlotKind} (hkind : kind.HoldsNode) :
    kind.isList = false := by
  cases kind <;> simp_all [HoldsNode, isOptional, isList]

theorem holdsNodes_of_isOptional {kind : SlotKind} (hkind : kind.isOptional = true) :
    kind.holdsNodes = true :=
  HoldsNode.holdsNodes (.inr hkind)

theorem holdsNodes_of_isList {kind : SlotKind} (hkind : kind.isList = true) :
    kind.holdsNodes = true :=
  holdsNodes_iff.mpr (.inr hkind)

theorem isList_eq_false_of_isOptional {kind : SlotKind} (hkind : kind.isOptional = true) :
    kind.isList = false :=
  HoldsNode.isList_eq_false (.inr hkind)

theorem ne_of_holdsNodes {kind other : SlotKind} (hkind : kind.holdsNodes = true)
    (hother : other.holdsNodes = false) : kind ≠ other := by
  rintro rfl
  exact Bool.false_ne_true (hother.symm.trans hkind)

end SlotKind

namespace NodeType

/-! ## Tags -/

theorem mem_all (nodeType : NodeType) : nodeType ∈ all := by
  cases nodeType <;> decide

private theorem tags_nodup : (all.map tag).Nodup := by
  decide +kernel

theorem tag_injective : Function.Injective tag := by
  intro left right htag
  exact List.inj_on_of_nodup_map tags_nodup (mem_all left) (mem_all right) htag

theorem ofTag?_eq_some_iff {text : String} {nodeType : NodeType} :
    ofTag? text = some nodeType ↔ text = nodeType.tag := by
  constructor
  · intro hfind
    have htag := List.find?_some hfind
    simpa using (beq_iff_eq.mp htag).symm
  · rintro rfl
    cases hfind : ofTag? nodeType.tag with
    | none =>
        have hdiffer := List.find?_eq_none.mp hfind nodeType (mem_all nodeType)
        simp at hdiffer
    | some found =>
        have htag := List.find?_some hfind
        exact congrArg some (tag_injective (beq_iff_eq.mp htag))

theorem toList_builder (nodeType : NodeType) :
    nodeType.builder.toList = nodeType.tag.toList.modifyHead Char.toLower := by
  unfold builder lowerFirst
  cases nodeType.tag.toList with
  | nil => rfl
  | cons first rest => simp

private theorem builders_nodup :
    (all.map fun nodeType => nodeType.tag.toList.modifyHead Char.toLower).Nodup := by
  decide +kernel

theorem builder_injective : Function.Injective builder := by
  intro left right hbuilder
  have hchars := congrArg String.toList hbuilder
  rw [toList_builder, toList_builder] at hchars
  exact List.inj_on_of_nodup_map builders_nodup (mem_all left) (mem_all right) hchars

@[simp] theorem ofTag?_tag (nodeType : NodeType) : ofTag? nodeType.tag = some nodeType :=
  ofTag?_eq_some_iff.mpr rfl

/-! ## Keys -/

/-- Keys without a slot of their own that still have a meaning in nodes of the type. -/
def extraKeys : NodeType → List String
  | .literal => ["regex", "bigint"]
  | .arrowFunctionExpression => ["id", "generator"]
  | _ => []

def fields (nodeType : NodeType) : List String :=
  nodeType.slots.map Slot.field

/-- The keys that a node of the type can carry without losing any when it is rebuilt. -/
def knownKeys (nodeType : NodeType) : List String :=
  "type" :: (metadataKeys ++ (nodeType.unslottedFields ++ (nodeType.extraKeys ++ nodeType.fields)))

private theorem all_knownKeys_nodup : ∀ nodeType ∈ all, nodeType.knownKeys.Nodup := by
  decide +kernel

theorem knownKeys_nodup (nodeType : NodeType) : nodeType.knownKeys.Nodup :=
  all_knownKeys_nodup nodeType (mem_all nodeType)

private theorem all_literal_slots : ∀ nodeType ∈ all, ∀ slot ∈ nodeType.slots,
    slot.kind = .literalValue → nodeType = .literal := by
  decide +kernel

theorem eq_literal_of_literalValue {nodeType : NodeType} {slot : Slot}
    (hslot : slot ∈ nodeType.slots) (hkind : slot.kind = .literalValue) : nodeType = .literal :=
  all_literal_slots nodeType (mem_all nodeType) slot hslot hkind

private theorem all_template_slots : ∀ nodeType ∈ all, ∀ slot ∈ nodeType.slots,
    slot.kind = .templateValue → nodeType = .templateElement ∧ slot.field = "value" := by
  decide +kernel

theorem eq_templateElement_of_templateValue {nodeType : NodeType} {slot : Slot}
    (hslot : slot ∈ nodeType.slots) (hkind : slot.kind = .templateValue) :
    nodeType = .templateElement ∧ slot.field = "value" :=
  all_template_slots nodeType (mem_all nodeType) slot hslot hkind

private theorem all_obsolete_slots : ∀ nodeType ∈ all, ∀ slot ∈ nodeType.slots,
    slot.kind = .legacyChild → nodeType = .catchClause ∧ slot.field = "guard" := by
  decide +kernel

theorem eq_catchClause_of_legacyChild {nodeType : NodeType} {slot : Slot}
    (hslot : slot ∈ nodeType.slots) (hkind : slot.kind = .legacyChild) :
    nodeType = .catchClause ∧ slot.field = "guard" :=
  all_obsolete_slots nodeType (mem_all nodeType) slot hslot hkind

section Slots

variable {nodeType : NodeType} {slot : Slot}

theorem mem_fields (hslot : slot ∈ nodeType.slots) : slot.field ∈ nodeType.fields :=
  List.mem_map_of_mem hslot

theorem type_not_mem_metadataKeys : "type" ∉ metadataKeys := by
  decide

theorem type_ne_field (hslot : slot ∈ nodeType.slots) : "type" ≠ slot.field := by
  have hfresh := (List.nodup_cons.mp nodeType.knownKeys_nodup).1
  rintro hsame
  exact hfresh (by simp [hsame, mem_fields hslot])

theorem type_not_mem_unslottedFields : "type" ∉ nodeType.unslottedFields := by
  have hfresh := (List.nodup_cons.mp nodeType.knownKeys_nodup).1
  exact fun hmem => hfresh (by simp [hmem])

theorem field_not_mem_metadataKeys (hslot : slot ∈ nodeType.slots) :
    slot.field ∉ metadataKeys := by
  have hkeys := (List.nodup_append.mp (List.nodup_cons.mp nodeType.knownKeys_nodup).2).2.2
  exact fun hmem => hkeys _ hmem _ (by simp [mem_fields hslot]) rfl

theorem field_not_mem_unslottedFields (hslot : slot ∈ nodeType.slots) :
    slot.field ∉ nodeType.unslottedFields := by
  have hkeys := (List.nodup_append.mp (List.nodup_cons.mp nodeType.knownKeys_nodup).2).2.1
  exact fun hmem => (List.nodup_append.mp hkeys).2.2 _ hmem _ (by simp [mem_fields hslot]) rfl

theorem fields_nodup (nodeType : NodeType) : nodeType.fields.Nodup := by
  have hkeys := nodeType.knownKeys_nodup
  simp only [knownKeys, ← List.cons_append, ← List.append_assoc] at hkeys
  exact (List.nodup_append.mp hkeys).2.1

theorem slot_eq_of_field {slot' : Slot} (hslot : slot ∈ nodeType.slots)
    (hslot' : slot' ∈ nodeType.slots) (hfield : slot.field = slot'.field) : slot = slot' :=
  List.inj_on_of_nodup_map nodeType.fields_nodup hslot hslot' hfield

end Slots

end NodeType

end BuilderCalls
