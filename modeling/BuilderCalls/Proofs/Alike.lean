import BuilderCalls.Proofs.Json.Equivalent
import BuilderCalls.Proofs.Refusal
import Mathlib.Data.List.Find

/-!
# Conversion sees only slots

Two trees are alike when their nodes have the same tags and say the same in the fields
that their types provide for, where an unset flag, a missing optional child and a vacant
unslotted field may each be written in several ways.  Conversion cannot tell such trees
apart: it yields the same call or fails for the same reason at the same path.
-/

namespace BuilderCalls

/-! ## Outcomes -/

section Outcomes

variable {α α' β β' : Type}

/-- Both results have a value, and the values are related, or fail alike but for the position. -/
inductive SameOutcome (relation : α → β → Prop) : Except Failure α → Except Failure β → Prop
  | ok {value : α} {value' : β} (hvalues : relation value value') :
      SameOutcome relation (.ok value) (.ok value')
  | error (failure : Failure) (position : Option Position) :
      SameOutcome relation (.error failure) (.error { failure with position := position })

namespace SameOutcome

variable {relation : α → β → Prop} {relation' : α' → β' → Prop} {left : Except Failure α}
  {right : Except Failure β}

theorem bind {next : α → Except Failure α'} {next' : β → Except Failure β'}
    (hsame : SameOutcome relation left right)
    (hnext : ∀ value value', relation value value' →
      SameOutcome relation' (next value) (next' value')) :
    SameOutcome relation' (left >>= next) (right >>= next') := by
  cases hsame with
  | ok hvalues => exact hnext _ _ hvalues
  | error failure position => exact .error failure position

theorem map {change : α → α'} {change' : β → β'} (hsame : SameOutcome relation left right)
    (hchange : ∀ value value', relation value value' → relation' (change value) (change' value')) :
    SameOutcome relation' (change <$> left) (change' <$> right) := by
  cases hsame with
  | ok hvalues => exact .ok (hchange _ _ hvalues)
  | error failure position => exact .error failure position

theorem map_eq {left right : Except Failure α} (hsame : SameOutcome Eq left right)
    (change : α → α') : SameOutcome Eq (change <$> left) (change <$> right) :=
  hsame.map fun _ _ => congrArg change

theorem under (hsame : SameOutcome relation left right) (steps : Path) :
    SameOutcome relation (left.mapError (Failure.under · steps))
      (right.mapError (Failure.under · steps)) := by
  cases hsame with
  | ok hvalues => exact .ok hvalues
  | error failure position => exact .error (failure.under steps) position

theorem refl (result : Except Failure α) : SameOutcome Eq result result := by
  cases result with
  | ok value => exact .ok rfl
  | error failure => exact .error failure failure.position

theorem atPosition (failure : Failure) (position position' : Option Position) :
    SameOutcome relation (.error (failure.atPosition position))
      (.error (failure.atPosition position')) :=
  .error (failure.atPosition position) (failure.atPosition position').position

theorem malformed {node node' : Node} (htag : node.tag = node'.tag) (fault : NodeFault) :
    SameOutcome relation (.error (node.malformed fault)) (.error (node'.malformed fault)) := by
  unfold Node.malformed
  rw [htag]
  exact .atPosition _ _ _

theorem mapM {ι : Type} {items : List ι} {action action' : ι → Traced α}
    (hitems : ∀ item ∈ items, SameOutcome Eq (action item).result (action' item).result) :
    SameOutcome Eq (items.mapM action).result (items.mapM action').result := by
  induction items with
  | nil => exact .ok rfl
  | cons item items ih =>
      obtain ⟨hitem, hitems⟩ := List.forall_mem_cons.mp hitems
      simp only [List.mapM_cons, Traced.result_bind, Traced.result_pure]
      refine hitem.bind ?_
      rintro value _ rfl
      refine (ih hitems).bind ?_
      rintro values _ rfl
      exact .ok rfl

end SameOutcome

end Outcomes

/-! ## Fields -/

def Json.Same (left right : Json) : Prop :=
  left.equivalent right = true

namespace Members

/-- Both have no such key or lead to values that are the same up to the order of members. -/
def SameAt (members members' : Members) (key : String) : Prop :=
  Option.Rel Json.Same (members.lookup key) (members'.lookup key)

/-- The flag is absent, null or false. -/
def Unset (members : Members) (field : String) : Prop :=
  members.Lacks field ∨ members.lookup field = some (.bool false)

/-- The field is absent, null, an empty list or an empty object. -/
def Vacant (members : Members) (field : String) : Prop :=
  ∀ value, members.lookup field = some value → value.isVacant = true

end Members

namespace Json

theorem Same.isVacant {left right : Json} (hsame : Same left right) :
    left.isVacant = right.isVacant := by
  rcases equivalent_cases hsame with rfl | ⟨items, items', rfl, rfl⟩ | ⟨members, members', rfl, rfl⟩
  · rfl
  · have hlength := (equivalent_array_iff.mp hsame).length_eq
    cases items <;> cases items' <;> first | rfl | cases hlength
  · rw [Same, equivalent.eq_def] at hsame
    simp only [Bool.and_eq_true, beq_iff_eq] at hsame
    cases members <;> cases members' <;> first | rfl | cases hsame.1

theorem Same.kind {left right : Json} (hsame : Same left right) : left.kind = right.kind := by
  rcases equivalent_cases hsame with rfl | ⟨_, _, rfl, rfl⟩ | ⟨_, _, rfl, rfl⟩ <;> rfl

theorem Same.get? {left right : Json} (hleft : left.Distinct) (hright : right.Distinct)
    (hsame : Same left right) (key : String) :
    Option.Rel Same (left.get? key) (right.get? key) := by
  cases hleft with
  | object hkeys =>
      cases hright with
      | object hkeys' => exact (equivalent_object_iff hkeys hkeys').mp hsame key
      | _ => cases hsame
  | _ => cases hright <;> first | exact .none | cases hsame

theorem string?_bind_eq {left right : Option Json} (hsame : Option.Rel Same left right) :
    left.bind string? = right.bind string? := by
  cases hsame with
  | none => rfl
  | some hvalues =>
      rcases equivalent_cases hvalues with rfl | ⟨_, _, rfl, rfl⟩ | ⟨_, _, rfl, rfl⟩ <;> rfl

end Json

/-! ## Accessors -/

namespace Node

variable {node node' : Node} {field : String}

section Accessors

variable (htag : node.tag = node'.tag) (hfield : node.members.SameAt node'.members field)

include hfield

theorem optional?_same : Option.Rel Json.Same (node.optional? field) (node'.optional? field) := by
  unfold optional? get?
  cases Json.rel_iff.mp hfield with
  | inl hnone =>
      rw [hnone.1, hnone.2]
      exact .none
  | inr hsome =>
      obtain ⟨value, value', hvalue, hvalue', hsame⟩ := hsome
      rw [hvalue, hvalue']
      rcases Json.equivalent_cases hsame with rfl | ⟨_, _, rfl, rfl⟩ | ⟨_, _, rfl, rfl⟩
      · cases value <;> first | exact .none | exact .some hsame
      · exact .some hsame
      · exact .some hsame

include htag

theorem required_same : SameOutcome Json.Same (node.required field) (node'.required field) := by
  unfold required
  cases Json.rel_iff.mp (optional?_same hfield) with
  | inl hnone =>
      rw [hnone.1, hnone.2]
      exact .malformed htag _
  | inr hsome =>
      obtain ⟨value, value', hvalue, hvalue', hsame⟩ := hsome
      rw [hvalue, hvalue']
      exact .ok hsame

theorem string_same : SameOutcome Eq (node.string field) (node'.string field) := by
  refine (required_same htag hfield).bind fun value value' hsame => ?_
  rcases Json.equivalent_cases hsame with rfl | ⟨_, _, rfl, rfl⟩ | ⟨_, _, rfl, rfl⟩
  · cases value <;> first | exact .ok rfl | exact .malformed htag _
  · exact .malformed htag _
  · exact .malformed htag _

theorem keyword_same (words : List String) :
    SameOutcome Eq (node.keyword field words) (node'.keyword field words) := by
  refine (string_same htag hfield).bind ?_
  rintro word _ rfl
  split
  · exact .ok rfl
  · exact .malformed htag _

theorem flag_same : SameOutcome Eq (node.flag field) (node'.flag field) := by
  unfold flag
  cases Json.rel_iff.mp (optional?_same hfield) with
  | inl hnone =>
      rw [hnone.1, hnone.2]
      exact .ok rfl
  | inr hsome =>
      obtain ⟨value, value', hvalue, hvalue', hsame⟩ := hsome
      rw [hvalue, hvalue']
      rcases Json.equivalent_cases hsame with rfl | ⟨_, _, rfl, rfl⟩ | ⟨_, _, rfl, rfl⟩
      · cases value <;> first | exact .ok rfl | exact .malformed htag _
      · exact .malformed htag _
      · exact .malformed htag _

end Accessors

theorem flag_of_unset (hunset : node.members.Unset field) : node.flag field = .ok false := by
  rw [flag_eq_ok_iff]
  exact hunset.elim (fun hlacks => .inr ⟨hlacks, rfl⟩) .inl

section Data

variable (htag : node.tag = node'.tag) (hdistinct : (Json.object node.members).Distinct)
  (hdistinct' : (Json.object node'.members).Distinct)

include htag

theorem regex_same {value value' : Json} (hvalue : value.Distinct) (hvalue' : value'.Distinct)
    (hsame : value.Same value') : SameOutcome Eq (node.regex value) (node'.regex value') := by
  unfold Node.regex
  rw [Json.string?_bind_eq (hsame.get? hvalue hvalue' "pattern"),
    Json.string?_bind_eq (hsame.get? hvalue hvalue' "flags")]
  split
  · exact .ok rfl
  · exact .malformed htag _

include hdistinct hdistinct'

theorem template_same (hfield : node.members.SameAt node'.members field) :
    SameOutcome Eq (node.template field) (node'.template field) := by
  unfold template required
  rcases Json.rel_iff.mp (optional?_same hfield) with
    ⟨hnone, hnone'⟩ | ⟨value, value', hvalue, hvalue', hsame⟩
  · rw [hnone, hnone']
    exact .malformed htag _
  · have hparts : value.Distinct :=
      hdistinct.of_holds (.field (Members.mem_of_lookup (optional?_eq_some_iff.mp hvalue).1))
    have hparts' : value'.Distinct :=
      hdistinct'.of_holds (.field (Members.mem_of_lookup (optional?_eq_some_iff.mp hvalue').1))
    rw [hvalue, hvalue']
    dsimp only [Bind.bind, Except.bind]
    rw [Json.string?_bind_eq (hsame.get? hparts hparts' "raw")]
    split
    · exact .malformed htag _
    · rcases Json.rel_iff.mp (hsame.get? hparts hparts' "cooked") with
        ⟨hnone, hnone'⟩ | ⟨cooked, cooked', hcooked, hcooked', hsame⟩
      · rw [hnone, hnone']
        exact .ok rfl
      · rw [hcooked, hcooked']
        rcases Json.equivalent_cases hsame with rfl | ⟨_, _, rfl, rfl⟩ | ⟨_, _, rfl, rfl⟩
        · cases cooked <;> first | exact .ok rfl | exact .malformed htag _
        · exact .malformed htag _
        · exact .malformed htag _

theorem literal_same (hregex : node.members.SameAt node'.members "regex")
    (hbigint : node.members.SameAt node'.members "bigint")
    (hvalue : node.members.SameAt node'.members "value") :
    SameOutcome Eq node.literal node'.literal := by
  unfold Node.literal
  rcases Json.rel_iff.mp (optional?_same hregex) with
    ⟨hnone, hnone'⟩ | ⟨regex, regex', hsome, hsome', hsame⟩
  · rw [hnone, hnone']
    rcases Json.rel_iff.mp (optional?_same hbigint) with
      ⟨hnone, hnone'⟩ | ⟨bigint, bigint', hsome, hsome', hsame⟩
    · rw [hnone, hnone']
      rcases Json.rel_iff.mp hvalue with
        ⟨hnone, hnone'⟩ | ⟨value, value', hsome, hsome', hsame⟩
      · rw [get?, get?, hnone, hnone']
        exact .malformed htag _
      · rw [get?, get?, hsome, hsome']
        rcases Json.equivalent_cases hsame with rfl | ⟨_, _, rfl, rfl⟩ | ⟨_, _, rfl, rfl⟩
        · cases value <;> first | exact .ok rfl | exact .malformed htag _
        · exact .malformed htag _
        · exact .malformed htag _
    · rw [hsome, hsome']
      rcases Json.equivalent_cases hsame with rfl | ⟨_, _, rfl, rfl⟩ | ⟨_, _, rfl, rfl⟩
      · cases bigint <;> first | exact .ok rfl | exact .malformed htag _
      · exact .malformed htag _
      · exact .malformed htag _
  · rw [hsome, hsome']
    exact regex_same htag
      (hdistinct.of_holds (.field (Members.mem_of_lookup (optional?_eq_some_iff.mp hsome).1)))
      (hdistinct'.of_holds (.field (Members.mem_of_lookup (optional?_eq_some_iff.mp hsome').1)))
      hsame

end Data

end Node

/-! ## Trees -/

mutual

/--
The trees say the same in the slots of their nodes.  Keys that the type of a node does not
provide for may differ in any way, and what holds no nodes is the same up to the order of
members.
-/
inductive SlotsAlike : Json → Json → Prop
  | data {value value' : Json} (hsame : value.Same value') : SlotsAlike value value'
  | foreign {members members' : Members} {tag : String}
      (htag : members.lookup "type" = some (.string tag))
      (htag' : members'.lookup "type" = some (.string tag))
      (hforeign : NodeType.ofTag? tag = none) :
      SlotsAlike (.object members) (.object members')
  | node {members members' : Members} {nodeType : NodeType}
      (htag : members.lookup "type" = some (.string nodeType.tag))
      (htag' : members'.lookup "type" = some (.string nodeType.tag))
      (hunslotted : ∀ field ∈ nodeType.unslottedFields,
        members.Vacant field ∧ members'.Vacant field ∨ members.SameAt members' field)
      (hliteral : nodeType = .literal →
        members.SameAt members' "regex" ∧ members.SameAt members' "bigint")
      (hslots : ∀ slot ∈ nodeType.slots, SlotAlike members members' slot) :
      SlotsAlike (.object members) (.object members')

inductive SlotAlike : Members → Members → Slot → Prop
  | same {members members' : Members} {slot : Slot}
      (hsame : members.SameAt members' slot.field) : SlotAlike members members' slot
  | flag {members members' : Members} {field : String}
      (hunset : members.Unset field) (hunset' : members'.Unset field) :
      SlotAlike members members' ⟨field, .flag⟩
  | absent {members members' : Members} {field : String} {kind : SlotKind}
      (hkind : kind.isOptional = true) (hlacks : members.Lacks field)
      (hlacks' : members'.Lacks field) : SlotAlike members members' ⟨field, kind⟩
  | child {members members' : Members} {field : String} {kind : SlotKind} {value value' : Json}
      (hkind : kind.HoldsNode) (hfield : members.lookup field = some value)
      (hfield' : members'.lookup field = some value') (hchild : SlotsAlike value value') :
      SlotAlike members members' ⟨field, kind⟩
  | list {members members' : Members} {field : String} {kind : SlotKind}
      {items items' : List Json} (hkind : kind.isList = true)
      (hfield : members.lookup field = some (.array items))
      (hfield' : members'.lookup field = some (.array items'))
      (hitems : ItemsAlike items items') : SlotAlike members members' ⟨field, kind⟩

inductive ItemsAlike : List Json → List Json → Prop
  | nil : ItemsAlike [] []
  | cons {item item' : Json} {items items' : List Json} (hitem : SlotsAlike item item')
      (hitems : ItemsAlike items items') : ItemsAlike (item :: items) (item' :: items')

end

theorem SlotsAlike.isNull_eq {value value' : Json} (halike : SlotsAlike value value') :
    value.isNull = value'.isNull := by
  cases halike with
  | data hsame => rw [Json.isNull, Json.isNull, hsame.kind]
  | foreign | node => rfl

/-- Slots without nodes are alike only when they say the same; flags may be unset. -/
theorem SlotAlike.sameAt {members members' : Members} {field : String} {kind : SlotKind}
    (halike : SlotAlike members members' ⟨field, kind⟩) (hflag : kind ≠ .flag)
    (hnodes : kind.holdsNodes = false) : members.SameAt members' field := by
  cases halike with
  | same hsame => exact hsame
  | flag => exact absurd rfl hflag
  | absent hkind => simp [SlotKind.holdsNodes_of_isOptional hkind] at hnodes
  | child hkind => simp [hkind.holdsNodes] at hnodes
  | list hkind => simp [SlotKind.holdsNodes_of_isList hkind] at hnodes

theorem ItemsAlike.of_same {items items' : List Json}
    (hitems : List.Forall₂ Json.Same items items') : ItemsAlike items items' := by
  induction hitems with
  | nil => exact .nil
  | cons hitem _ ih => exact .cons (.data hitem) ih

/-! ## Slots -/

section Slots

variable {node node' : Node} {slot : Slot} (htag : node.tag = node'.tag)

include htag

theorem absent_same :
    SameOutcome Eq (node.absent slot).result (node'.absent slot).result := by
  unfold Node.absent
  split
  · exact .ok rfl
  · exact .malformed htag _

theorem convertItem_same {item item' : Json} (halike : SlotsAlike item item')
    (hitem : SameOutcome Eq (convertValue item).result (convertValue item').result) (index : Nat) :
    SameOutcome Eq (convertItem node slot index item).result
      (convertItem node' slot index item').result := by
  unfold convertItem
  rw [halike.isNull_eq]
  split
  · exact (hitem.under _).map_eq _
  · split
    · exact .ok rfl
    · exact .malformed htag _

theorem convertItems_same {items items' : List Json} (halike : ItemsAlike items items')
    (hitems : ∀ item ∈ items, ∀ item' ∈ items', SlotsAlike item item' →
      SameOutcome Eq (convertValue item).result (convertValue item').result) (index : Nat) :
    SameOutcome Eq (convertItems node slot index items).result
      (convertItems node' slot index items').result := by
  induction items generalizing items' index with
  | nil =>
      cases halike
      rw [convertItems.eq_def, convertItems.eq_def]
      exact .ok rfl
  | cons item items ih =>
      cases halike with
      | cons hitem halike =>
          rw [convertItems_cons, convertItems_cons, Traced.result_bind, Traced.result_bind]
          refine (convertItem_same htag hitem (hitems _ (.head _) _ (.head _) hitem) index).bind ?_
          rintro arg _ rfl
          refine (ih halike ?_ (index + 1)).map_eq _
          exact fun _ hmem _ hmem' => hitems _ (.tail _ hmem) _ (.tail _ hmem')

end Slots

/-- Conversion of anything that the members hold cannot tell like trees apart. -/
def ChildrenSame (members : Members) : Prop :=
  ∀ value, members.Holds value → ∀ value', value'.Distinct → SlotsAlike value value' →
    SameOutcome Eq (convertValue value).result (convertValue value').result

section Nodes

variable {node node' : Node} {slot : Slot} (htag : node.tag = node'.tag)
  (hdistinct' : (Json.object node'.members).Distinct) (hchildren : ChildrenSame node.members)

include htag hdistinct' hchildren

theorem convertField_child_same {value value' : Json} (hkind : slot.kind.HoldsNode)
    (hfield : node.members.lookup slot.field = some value)
    (hfield' : node'.members.lookup slot.field = some value') (halike : SlotsAlike value value') :
    SameOutcome Eq (convertField node slot value).result
      (convertField node' slot value').result := by
  unfold convertField
  rw [halike.isNull_eq, hkind.isList_eq_false]
  split
  · exact absent_same htag
  · have hvalue := hchildren value (.field (Members.mem_of_lookup hfield)) value'
      (hdistinct'.of_holds (.field (Members.mem_of_lookup hfield'))) halike
    exact (hvalue.under _).map_eq _

theorem convertField_list_same {items items' : List Json} (hkind : slot.kind.isList = true)
    (hfield : node.members.lookup slot.field = some (.array items))
    (hfield' : node'.members.lookup slot.field = some (.array items'))
    (halike : ItemsAlike items items') :
    SameOutcome Eq (convertField node slot (.array items)).result
      (convertField node' slot (.array items')).result := by
  unfold convertField
  rw [hkind]
  refine (convertItems_same htag halike (fun item hitem item' hitem' halike => ?_) 0).map_eq _
  exact hchildren item (.item (Members.mem_of_lookup hfield) hitem) item'
    (hdistinct'.of_holds (.item (Members.mem_of_lookup hfield') hitem')) halike

theorem convertField_same {value value' : Json} (hkind : slot.kind.holdsNodes = true)
    (hfield : node.members.lookup slot.field = some value)
    (hfield' : node'.members.lookup slot.field = some value') (hsame : value.Same value') :
    SameOutcome Eq (convertField node slot value).result
      (convertField node' slot value').result := by
  rcases SlotKind.holdsNodes_iff.mp hkind with hchild | hlist
  · exact convertField_child_same htag hdistinct' hchildren hchild hfield hfield' (.data hsame)
  · have hitems : ∀ items items', value = .array items → value' = .array items' →
        SameOutcome Eq (convertField node slot value).result
          (convertField node' slot value').result := by
      rintro items items' rfl rfl
      exact convertField_list_same htag hdistinct' hchildren hlist hfield hfield'
        (.of_same (Json.equivalent_array_iff.mp hsame))
    rcases Json.equivalent_cases hsame with
      rfl | ⟨items, items', hvalue, hvalue'⟩ | ⟨members, members', rfl, rfl⟩
    · cases value with
      | array items => exact hitems items items rfl rfl
      | null => exact absent_same htag
      | _ =>
          unfold convertField
          rw [hlist]
          exact .malformed htag _
    · exact hitems items items' hvalue hvalue'
    · unfold convertField
      rw [hlist]
      exact .malformed htag _

theorem convertSlot_same (hkind : slot.kind.holdsNodes = true)
    (halike : SlotAlike node.members node'.members slot) :
    SameOutcome Eq (convertSlot node slot node.members).result
      (convertSlot node' slot node'.members).result := by
  cases halike with
  | same hsame =>
      rw [convertSlot_eq, convertSlot_eq]
      rcases Json.rel_iff.mp hsame with
        ⟨hnone, hnone'⟩ | ⟨value, value', hfield, hfield', hsame⟩
      · rw [hnone, hnone']
        exact absent_same htag
      · rw [hfield, hfield']
        exact convertField_same htag hdistinct' hchildren hkind hfield hfield' hsame
  | flag => cases hkind
  | absent _ hlacks hlacks' =>
      rw [convertSlot_of_lacks hlacks, convertSlot_of_lacks hlacks']
      exact absent_same htag
  | child hchild hfield hfield' halike =>
      rw [convertSlot_eq, convertSlot_eq, hfield, hfield']
      exact convertField_child_same htag hdistinct' hchildren hchild hfield hfield' halike
  | list hlist hfield hfield' halike =>
      rw [convertSlot_eq, convertSlot_eq, hfield, hfield']
      exact convertField_list_same htag hdistinct' hchildren hlist hfield hfield' halike

theorem convertArg_same (hdistinct : (Json.object node.members).Distinct)
    (hliteral : slot.kind = .literalValue → slot.field = "value" ∧
      node.members.SameAt node'.members "regex" ∧ node.members.SameAt node'.members "bigint")
    (halike : SlotAlike node.members node'.members slot) :
    SameOutcome Eq (convertArg node slot).result (convertArg node' slot).result := by
  obtain ⟨field, kind⟩ := slot
  unfold convertArg Node.scalar?
  cases kind with
  | name => exact (Node.string_same htag (halike.sameAt nofun rfl)).map_eq _
  | keyword words => exact (Node.keyword_same htag (halike.sameAt nofun rfl) words).map_eq _
  | flag =>
      cases halike with
      | same hsame => exact (Node.flag_same htag hsame).map_eq _
      | flag hunset hunset' =>
          rw [Node.flag_of_unset hunset, Node.flag_of_unset hunset']
          exact .ok rfl
      | absent hkind | list hkind => cases hkind
      | child hkind => cases hkind.holdsNodes
  | literalValue =>
      obtain ⟨rfl, hregex, hbigint⟩ := hliteral rfl
      have hvalue := halike.sameAt nofun rfl
      exact (Node.literal_same htag hdistinct hdistinct' hregex hbigint hvalue).map_eq _
  | templateValue =>
      have hvalue := halike.sameAt nofun rfl
      exact (Node.template_same htag hdistinct hdistinct' hvalue).map_eq _
  | child | optionalChild | legacyChild | childList | sparseList =>
      exact convertSlot_same htag hdistinct' hchildren rfl halike

end Nodes

/-! ## Nodes -/

theorem any_isVacant_eq_false {members : Members} {field : String}
    (hvacant : members.Vacant field) : (members.lookup field).any (!·.isVacant) = false := by
  cases hlookup : members.lookup field with
  | none => rfl
  | some value => simp [hvacant value hlookup]

theorem Node.checkUnslotted_same (node node' : Node) (htag : node.tag = node'.tag)
    {nodeType : NodeType} (hunslotted : ∀ field ∈ nodeType.unslottedFields,
      node.members.Vacant field ∧ node'.members.Vacant field ∨
        node.members.SameAt node'.members field) :
    SameOutcome Eq (node.checkUnslotted nodeType) (node'.checkUnslotted nodeType) := by
  have hset : ∀ field ∈ nodeType.unslottedFields,
      (node.get? field).any (!·.isVacant) = (node'.get? field).any (!·.isVacant) := by
    intro field hfield
    unfold Node.get?
    rcases hunslotted field hfield with ⟨hvacant, hvacant'⟩ | hsame
    · rw [any_isVacant_eq_false hvacant, any_isVacant_eq_false hvacant']
    · rcases Json.rel_iff.mp hsame with
        ⟨hnone, hnone'⟩ | ⟨value, value', hvalue, hvalue', hsame⟩
      · rw [hnone, hnone']
      · rw [hvalue, hvalue', Option.any_some, Option.any_some, hsame.isVacant]
  unfold checkUnslotted
  rw [List.find?_congr hset]
  split
  · exact .malformed htag _
  · exact .ok rfl

theorem convertValue_same_of_node {members members' : Members} {nodeType : NodeType}
    (hdistinct : (Json.object members).Distinct) (hdistinct' : (Json.object members').Distinct)
    (hchildren : ChildrenSame members)
    (htag : members.lookup "type" = some (.string nodeType.tag))
    (htag' : members'.lookup "type" = some (.string nodeType.tag))
    (hunslotted : ∀ field ∈ nodeType.unslottedFields,
      members.Vacant field ∧ members'.Vacant field ∨ members.SameAt members' field)
    (hliteral : nodeType = .literal →
      members.SameAt members' "regex" ∧ members.SameAt members' "bigint")
    (hslots : ∀ slot ∈ nodeType.slots, SlotAlike members members' slot) :
    SameOutcome Eq (convertValue (.object members)).result
      (convertValue (.object members')).result := by
  rw [convertValue_of_tag htag, convertValue_of_tag htag',
    Node.nodeType_eq_ok_iff.mpr rfl, Node.nodeType_eq_ok_iff.mpr rfl]
  change SameOutcome Eq (Node.checkUnslotted ⟨nodeType.tag, members⟩ nodeType >>= _)
    (Node.checkUnslotted ⟨nodeType.tag, members'⟩ nodeType >>= _)
  have hvacant := Node.checkUnslotted_same ⟨nodeType.tag, members⟩ ⟨nodeType.tag, members'⟩ rfl
    hunslotted
  refine hvacant.bind fun _ _ _ => ?_
  refine (SameOutcome.mapM fun slot hslot => ?_).map_eq (Call.mk nodeType)
  refine convertArg_same rfl hdistinct' hchildren hdistinct (fun hkind => ?_) (hslots slot hslot)
  obtain rfl := NodeType.eq_literal_of_literalValue hslot hkind
  obtain rfl := List.mem_singleton.mp hslot
  exact ⟨rfl, hliteral rfl⟩

theorem convertValue_same_of_foreign {members members' : Members} {tag : String}
    (htag : members.lookup "type" = some (.string tag))
    (htag' : members'.lookup "type" = some (.string tag))
    (hforeign : NodeType.ofTag? tag = none) :
    SameOutcome Eq (convertValue (.object members)).result
      (convertValue (.object members')).result := by
  rw [convertValue_of_tag htag, convertValue_of_tag htag']
  unfold Node.nodeType
  dsimp only
  rw [hforeign]
  exact .atPosition (.unsupported tag) _ _

theorem convertValue_same_of_untagged {members members' : Members}
    (htag : (members.lookup "type").bind Json.string? = none)
    (htag' : (members'.lookup "type").bind Json.string? = none) :
    SameOutcome Eq (convertValue (.object members)).result
      (convertValue (.object members')).result := by
  rw [convertValue, convertValue]
  unfold Node.ofMembers
  rw [htag, htag']
  exact .atPosition (.malformed Node.unknownTag .untagged) _ _

/-- Objects that are the same up to the order of members are told apart by their tags alone. -/
theorem convertValue_same_of_object {members members' : Members}
    (hdistinct : (Json.object members).Distinct) (hdistinct' : (Json.object members').Distinct)
    (hchildren : ChildrenSame members)
    (hsame : Json.Same (.object members) (.object members')) :
    SameOutcome Eq (convertValue (.object members)).result
      (convertValue (.object members')).result := by
  have hkeys : ∀ key, members.SameAt members' key :=
    (Json.equivalent_object_iff hdistinct.keys_nodup hdistinct'.keys_nodup).mp hsame
  have hstring := Json.string?_bind_eq (hkeys "type")
  cases htag : (members.lookup "type").bind Json.string? with
  | none => exact convertValue_same_of_untagged htag (hstring ▸ htag)
  | some tag =>
      have htag' := Node.string?_eq_some_iff.mp (hstring ▸ htag)
      rw [Node.string?_eq_some_iff] at htag
      cases hnodeType : NodeType.ofTag? tag with
      | none => exact convertValue_same_of_foreign htag htag' hnodeType
      | some nodeType =>
          obtain rfl := NodeType.ofTag?_eq_some_iff.mp hnodeType
          exact convertValue_same_of_node hdistinct hdistinct' hchildren htag htag'
            (fun field _ => .inr (hkeys field)) (fun _ => ⟨hkeys "regex", hkeys "bigint"⟩)
            fun slot _ => .same (hkeys slot.field)

theorem convertValue_of_not_object {value : Json} (hvalue : value.members? = none) :
    convertValue value = .fail (.malformed Node.unknownTag (.notAnObject value.kind)) := by
  cases value <;> first | rfl | cases hvalue

theorem convertValue_same {value value' : Json} (hdistinct : value.Distinct)
    (hdistinct' : value'.Distinct) (halike : SlotsAlike value value') :
    SameOutcome Eq (convertValue value).result (convertValue value').result := by
  induction value using Json.fieldInduction generalizing value' with
  | other value hvalue =>
      cases halike with
      | data hsame =>
          have hvalue' : value'.members? = none := by
            rcases Json.equivalent_cases hsame with
              rfl | ⟨_, _, rfl, rfl⟩ | ⟨_, _, rfl, rfl⟩
            · exact hvalue
            · rfl
            · cases hvalue
          rw [convertValue_of_not_object hvalue, convertValue_of_not_object hvalue', hsame.kind]
          exact .refl _
      | foreign | node => cases hvalue
  | object members ih =>
      have hchildren : ChildrenSame members := fun value hholds value' hvalue' =>
        ih value hholds (hdistinct.of_holds hholds) hvalue'
      cases halike with
      | data hsame =>
          cases hdistinct' with
          | object hkeys' hmembers' =>
              exact convertValue_same_of_object hdistinct (.object hkeys' hmembers') hchildren hsame
          | _ => cases hsame
      | foreign htag htag' hforeign => exact convertValue_same_of_foreign htag htag' hforeign
      | node htag htag' hunslotted hliteral hslots =>
          exact convertValue_same_of_node hdistinct hdistinct' hchildren htag htag' hunslotted
            hliteral hslots

end BuilderCalls
