import BuilderCalls.Estree
import BuilderCalls.Proofs.Json.Members
import BuilderCalls.Proofs.Signature

/-!
# Faithful trees

A tree is faithful when each of its nodes is: it has no key that its type does not
know, and it spells absence the way the builders do.  Faithfulness of a tree is
that of its root and of the trees in the slots of the root.
-/

namespace BuilderCalls

/-! ## Nodes -/

namespace Members

/-- A node that a slot holds, alone or in a list. -/
inductive Reaches (members : Members) (slot : Slot) : Json → Prop
  | child {value : Json} (hkind : slot.kind.HoldsNode)
      (hfield : members.lookup slot.field = some value) (hvalue : value ≠ .null) :
      Reaches members slot value
  | item {items : List Json} {value : Json} (hkind : slot.kind.isList = true)
      (hfield : members.lookup slot.field = some (.array items)) (hitem : value ∈ items)
      (hvalue : value ≠ .null) : Reaches members slot value

theorem Reaches.holds {members : Members} {slot : Slot} {value : Json}
    (hreaches : members.Reaches slot value) : members.Holds value := by
  cases hreaches with
  | child _ hfield => exact .field (mem_of_lookup hfield)
  | item _ hfield hitem => exact .item (mem_of_lookup hfield) hitem

end Members

/-- The value itself, or a node that is reached from it through the slots of nodes. -/
inductive ConvertedNode : Json → Json → Prop
  | self (value : Json) : ConvertedNode value value
  | slot {members : Members} {nodeType : NodeType} {slot : Slot} {value inner : Json}
      (htag : members.lookup "type" = some (.string nodeType.tag))
      (hslot : slot ∈ nodeType.slots) (hreaches : members.Reaches slot value)
      (hinner : ConvertedNode value inner) : ConvertedNode (.object members) inner

/-- The ways in which a literal may be spelled. -/
inductive FaithfulLiteral (members : Members) : Prop
  | regexp {parts : Members} (hregex : members.lookup "regex" = some (.object parts))
      (hparts : parts.HasExactly "pattern" "flags") (hbigint : members.lookup "bigint" = none)
  | bigint {digits : String} (hbigint : members.lookup "bigint" = some (.string digits))
      (hregex : members.lookup "regex" = none)
  | plain (hregex : members.lookup "regex" = none) (hbigint : members.lookup "bigint" = none)
      (hnumber : ∀ number, members.lookup "value" = some (.number number) →
        Estree.number? number.toDouble = some number)

/-- A node of the type that comes back as it was, its children apart. -/
structure Faithful (members : Members) (nodeType : NodeType) : Prop where
  keys : ∀ key ∈ members.keys, key ∈ nodeType.knownKeys
  optionalChild : ∀ slot ∈ nodeType.slots, slot.kind = .optionalChild →
    (members.lookup slot.field).isSome = true
  legacyChild : ∀ slot ∈ nodeType.slots, slot.kind = .legacyChild →
    members.lookup slot.field ≠ some .null
  arrow : nodeType = .arrowFunctionExpression →
    members.lookup "id" = some .null ∧ members.lookup "generator" = some (.bool false)
  literal : nodeType = .literal → FaithfulLiteral members
  template : nodeType = .templateElement → ∃ parts : Members,
    members.lookup "value" = some (.object parts) ∧ parts.HasExactly "raw" "cooked"

def FaithfulTree (value : Json) : Prop :=
  ∀ members nodeType, ConvertedNode value (.object members) →
    members.lookup "type" = some (.string nodeType.tag) → Faithful members nodeType

/-- All nodes of registered types in the tree are good for their types. -/
def EveryNode (good : Members → NodeType → Prop) (value : Json) : Prop :=
  ∀ members nodeType, ConvertedNode value (.object members) →
    members.lookup "type" = some (.string nodeType.tag) → good members nodeType

/-! ## Literals -/

namespace FaithfulLiteral

variable {members : Members}

theorem regexp_iff {regex : Json} (hregex : members.lookup "regex" = some regex) :
    FaithfulLiteral members ↔
      (∃ parts : Members, regex = .object parts ∧ parts.HasExactly "pattern" "flags") ∧
        members.lookup "bigint" = none := by
  constructor
  · intro hfaithful
    cases hfaithful with
    | @regexp parts hregex' hparts hbigint =>
        exact ⟨⟨parts, Option.some.inj (hregex.symm.trans hregex'), hparts⟩, hbigint⟩
    | bigint _ habsent => cases hregex.symm.trans habsent
    | plain habsent => cases hregex.symm.trans habsent
  · rintro ⟨⟨parts, rfl, hparts⟩, hbigint⟩
    exact .regexp hregex hparts hbigint

theorem bigint_iff {digits : String} (hbigint : members.lookup "bigint" = some (.string digits)) :
    FaithfulLiteral members ↔ members.lookup "regex" = none := by
  constructor
  · intro hfaithful
    cases hfaithful with
    | regexp _ _ habsent => cases hbigint.symm.trans habsent
    | bigint _ hregex => exact hregex
    | plain _ habsent => cases hbigint.symm.trans habsent
  · exact .bigint hbigint

theorem plain_iff (hregex : members.Lacks "regex") (hbigint : members.Lacks "bigint") :
    FaithfulLiteral members ↔
      (members.lookup "regex" = none ∧ members.lookup "bigint" = none) ∧
        ∀ number, members.lookup "value" = some (.number number) →
          Estree.number? number.toDouble = some number := by
  constructor
  · intro hfaithful
    cases hfaithful with
    | regexp hregex' => cases hregex.eq_null hregex'
    | bigint hbigint' => cases hbigint.eq_null hbigint'
    | plain hregex' hbigint' hnumber => exact ⟨⟨hregex', hbigint'⟩, hnumber⟩
  · rintro ⟨⟨hregex', hbigint'⟩, hnumber⟩
    exact .plain hregex' hbigint' hnumber

end FaithfulLiteral

/-! ## Slots -/

/-- What faithfulness asks of a slot, and of the nodes in it. -/
structure FaithfulSlot (inner : Json → Prop) (members : Members) (slot : Slot) : Prop where
  optionalChild : slot.kind = .optionalChild → (members.lookup slot.field).isSome = true
  legacyChild : slot.kind = .legacyChild → members.lookup slot.field ≠ some .null
  literal : slot.kind = .literalValue → FaithfulLiteral members
  template : slot.kind = .templateValue → ∃ parts : Members,
    members.lookup slot.field = some (.object parts) ∧ parts.HasExactly "raw" "cooked"
  nodes : ∀ value, members.Reaches slot value → inner value

namespace FaithfulSlot

variable {inner : Json → Prop} {members : Members}

theorem not_reaches {slot : Slot} (hkind : slot.kind.holdsNodes = false) {value : Json} :
    ¬members.Reaches slot value := by
  intro hreaches
  cases hreaches with
  | child hchild => simp [hchild.holdsNodes] at hkind
  | item hlist => simp [SlotKind.holdsNodes_of_isList hlist] at hkind

theorem of_scalar {slot : Slot} (hkind : slot.kind.holdsNodes = false)
    (hliteral : slot.kind ≠ .literalValue) (htemplate : slot.kind ≠ .templateValue) :
    FaithfulSlot inner members slot where
  optionalChild := fun hoptional => by simp [hoptional, SlotKind.holdsNodes] at hkind
  legacyChild := fun hlegacy => by simp [hlegacy, SlotKind.holdsNodes] at hkind
  literal := fun hkind => absurd hkind hliteral
  template := fun hkind => absurd hkind htemplate
  nodes := fun _ hreaches => absurd hreaches (not_reaches hkind)

variable {field : String} {kind : SlotKind}

theorem child_iff {value : Json} (hkind : kind.HoldsNode)
    (hfield : members.lookup field = some value) (hnull : value ≠ .null) :
    FaithfulSlot inner members ⟨field, kind⟩ ↔ inner value := by
  constructor
  · exact fun hfaithful => hfaithful.nodes value (.child hkind hfield hnull)
  · intro hinner
    have hliteral : kind ≠ .literalValue := SlotKind.ne_of_holdsNodes hkind.holdsNodes rfl
    have htemplate : kind ≠ .templateValue := SlotKind.ne_of_holdsNodes hkind.holdsNodes rfl
    refine ⟨fun _ => by simp [hfield], fun _ => by simpa [hfield] using hnull,
      (absurd · hliteral), (absurd · htemplate), ?_⟩
    · intro value' hreaches
      cases hreaches with
      | child _ hfield' => exact Option.some.inj (hfield.symm.trans hfield') ▸ hinner
      | item hlist => simp [hkind.isList_eq_false] at hlist

theorem absent_nodes (hkind : kind.isOptional = true) (habsent : members.Lacks field)
    (value : Json) : ¬members.Reaches ⟨field, kind⟩ value := by
  intro hreaches
  cases hreaches with
  | child _ hfield hnull => exact hnull (habsent.eq_null hfield)
  | item hlist => simp [SlotKind.isList_eq_false_of_isOptional hkind] at hlist

theorem optionalChild_iff (habsent : members.Lacks field) :
    FaithfulSlot inner members ⟨field, .optionalChild⟩ ↔ members.lookup field = some .null := by
  constructor
  · intro hfaithful
    refine habsent.resolve_left fun hnone => ?_
    simpa [hnone] using hfaithful.optionalChild rfl
  · intro hnull
    exact ⟨fun _ => by simp [hnull], nofun, nofun, nofun,
      fun value hreaches => absurd hreaches (absent_nodes rfl habsent value)⟩

theorem legacyChild_iff (habsent : members.Lacks field) :
    FaithfulSlot inner members ⟨field, .legacyChild⟩ ↔ members.lookup field = none := by
  constructor
  · exact fun hfaithful => habsent.resolve_right (hfaithful.legacyChild rfl)
  · intro hnone
    exact ⟨nofun, fun _ => by simp [hnone], nofun, nofun,
      fun value hreaches => absurd hreaches (absent_nodes rfl habsent value)⟩

theorem list_iff {items : List Json} (hkind : kind.isList = true)
    (hfield : members.lookup field = some (.array items)) :
    FaithfulSlot inner members ⟨field, kind⟩ ↔ ∀ item ∈ items, item ≠ .null → inner item := by
  constructor
  · exact fun hfaithful item hitem hnull =>
      hfaithful.nodes item (.item hkind hfield hitem hnull)
  · intro hitems
    refine ⟨?_, ?_, ?_, ?_, fun value hreaches => ?_⟩
    · rintro rfl; cases hkind
    · rintro rfl; cases hkind
    · rintro rfl; cases hkind
    · rintro rfl; cases hkind
    · cases hreaches with
      | child hchild => simp [hchild.isList_eq_false] at hkind
      | item _ hfield' hitem hnull =>
          cases hfield.symm.trans hfield'
          exact hitems value hitem hnull

theorem literal_iff {slot : Slot} (hkind : slot.kind = .literalValue) :
    FaithfulSlot inner members slot ↔ FaithfulLiteral members := by
  constructor
  · exact fun hfaithful => hfaithful.literal hkind
  · intro hliteral
    refine ⟨?_, ?_, fun _ => hliteral, ?_, ?_⟩
    · exact fun hoptional => nomatch hkind.symm.trans hoptional
    · exact fun hlegacy => nomatch hkind.symm.trans hlegacy
    · exact fun htemplate => nomatch hkind.symm.trans htemplate
    · exact fun value hreaches => absurd hreaches (not_reaches (by rw [hkind]; rfl))

theorem template_iff {value : Json} (hfield : members.lookup field = some value) :
    FaithfulSlot inner members ⟨field, .templateValue⟩ ↔
      ∃ parts : Members, value = .object parts ∧ parts.HasExactly "raw" "cooked" := by
  constructor
  · intro hfaithful
    obtain ⟨parts, hparts, hexactly⟩ := hfaithful.template rfl
    exact ⟨parts, Option.some.inj (hfield.symm.trans hparts), hexactly⟩
  · rintro ⟨parts, rfl, hexactly⟩
    exact ⟨nofun, nofun, nofun, fun _ => ⟨parts, hfield, hexactly⟩,
      fun _ hreaches => absurd hreaches (not_reaches rfl)⟩

end FaithfulSlot

/-! ## Trees -/

theorem forall_faithfulSlot_iff {inner : Json → Prop} {members : Members} {nodeType : NodeType}
    (hknown : ∀ key ∈ members.keys, key ∈ nodeType.knownKeys)
    (harrow : nodeType = .arrowFunctionExpression →
      members.lookup "id" = some .null ∧ members.lookup "generator" = some (.bool false)) :
    (∀ slot ∈ nodeType.slots, FaithfulSlot inner members slot) ↔
      Faithful members nodeType ∧
        ∀ slot ∈ nodeType.slots, ∀ value, members.Reaches slot value → inner value := by
  constructor
  · intro hslots
    refine ⟨⟨hknown, fun slot hslot => (hslots slot hslot).optionalChild,
      fun slot hslot => (hslots slot hslot).legacyChild, harrow, ?_, ?_⟩,
      fun slot hslot => (hslots slot hslot).nodes⟩
    · rintro rfl
      exact (hslots (.literalValue "value") (.head _)).literal rfl
    · rintro rfl
      exact (hslots (.templateValue "value") (.head _)).template rfl
  · rintro ⟨hfaithful, hnodes⟩ slot hslot
    refine ⟨hfaithful.optionalChild slot hslot, hfaithful.legacyChild slot hslot,
      fun hkind => hfaithful.literal (NodeType.eq_literal_of_literalValue hslot hkind),
      fun hkind => ?_, hnodes slot hslot⟩
    obtain ⟨hnodeType, hfield⟩ := NodeType.eq_templateElement_of_templateValue hslot hkind
    rw [hfield]
    exact hfaithful.template hnodeType

theorem everyNode_object_iff {good : Members → NodeType → Prop} {members : Members}
    {nodeType : NodeType} (htag : members.lookup "type" = some (.string nodeType.tag)) :
    EveryNode good (.object members) ↔
      good members nodeType ∧
        ∀ slot ∈ nodeType.slots, ∀ value, members.Reaches slot value → EveryNode good value := by
  have hsame : ∀ {nodeType' : NodeType},
      members.lookup "type" = some (.string nodeType'.tag) → nodeType' = nodeType := by
    intro nodeType' htag'
    have htags := htag'.symm.trans htag
    simp only [Option.some.injEq, Json.string.injEq] at htags
    exact NodeType.tag_injective htags
  constructor
  · intro htree
    refine ⟨htree members nodeType (.self _) htag, fun slot hslot value hreaches => ?_⟩
    exact fun members' nodeType' hnode => htree members' nodeType' (.slot htag hslot hreaches hnode)
  · rintro ⟨hgood, hnodes⟩ members' nodeType' hnode htag'
    cases hnode with
    | self =>
        rw [hsame htag']
        exact hgood
    | slot htag'' hslot hreaches hinner =>
        obtain rfl := hsame htag''
        exact hnodes _ hslot _ hreaches members' nodeType' hinner htag'

theorem faithfulTree_object_iff {members : Members} {nodeType : NodeType}
    (htag : members.lookup "type" = some (.string nodeType.tag)) :
    FaithfulTree (.object members) ↔
      Faithful members nodeType ∧
        ∀ slot ∈ nodeType.slots, ∀ value, members.Reaches slot value → FaithfulTree value :=
  everyNode_object_iff htag

end BuilderCalls
