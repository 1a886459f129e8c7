import BuilderCalls.Proofs.Evaluation

/-!
# The fields of built nodes

A built node is read field by field: what a key leads to is decided by the one
slot that provides for it.  So a built node has the keys of its type and no
others, none of them twice, and no unslotted field.
-/

namespace BuilderCalls

/-! ## Keys -/

def Slot.keys (slot : Slot) : List String :=
  match slot.kind with
  | .literalValue => ["value", "regex", "bigint"]
  | _ => [slot.field]

theorem Slot.keys_eq {slot : Slot} (hkind : slot.kind ≠ .literalValue) :
    slot.keys = [slot.field] := by
  unfold Slot.keys
  split
  next hliteral => exact absurd hliteral hkind
  next => rfl

theorem Slot.field_mem_keys {slot : Slot} (hkind : slot.kind ≠ .literalValue) :
    slot.field ∈ slot.keys := by
  rw [keys_eq hkind]
  exact List.mem_singleton_self _

namespace NodeType

def builtKeys (nodeType : NodeType) : List String :=
  "type" :: (nodeType.slots.flatMap Slot.keys ++ (Estree.impliedFields nodeType).keys)

private theorem all_builtKeys_perm : ∀ nodeType ∈ all,
    nodeType.builtKeys.isPerm ("type" :: (nodeType.extraKeys ++ nodeType.fields)) = true := by
  decide +kernel

theorem builtKeys_perm (nodeType : NodeType) :
    nodeType.builtKeys.Perm ("type" :: (nodeType.extraKeys ++ nodeType.fields)) :=
  List.isPerm_iff.mp (all_builtKeys_perm nodeType (mem_all nodeType))

theorem builtKeys_nodup (nodeType : NodeType) : nodeType.builtKeys.Nodup := by
  refine nodeType.builtKeys_perm.nodup_iff.mpr ?_
  refine nodeType.knownKeys_nodup.sublist (.cons_cons _ ?_)
  exact (List.sublist_append_right _ _).trans (List.sublist_append_right _ _)

theorem mem_builtKeys_iff {nodeType : NodeType} {key : String} :
    key ∈ nodeType.builtKeys ↔ key = "type" ∨ key ∈ nodeType.extraKeys ∨ key ∈ nodeType.fields := by
  rw [nodeType.builtKeys_perm.mem_iff, List.mem_cons, List.mem_append]

theorem not_mem_unslottedFields_of_builtKeys {nodeType : NodeType} {key : String}
    (hkey : key ∈ nodeType.builtKeys) : key ∉ nodeType.unslottedFields := by
  rcases mem_builtKeys_iff.mp hkey with rfl | hkey
  · exact type_not_mem_unslottedFields
  · have hkeys := (List.nodup_append.mp (List.nodup_cons.mp nodeType.knownKeys_nodup).2).2.1
    exact fun hmem => (List.nodup_append.mp hkeys).2.2 _ hmem _ (List.mem_append.mpr hkey) rfl

end NodeType

/-! ## Fields of slots -/

section Fields

variable {build : Call → Json → Prop}

theorem BuiltLiteral.keys_sublist {literal : Literal} {fields : Members}
    (hliteral : BuiltLiteral literal fields) :
    fields.keys.Sublist ["value", "regex", "bigint"] := by
  cases hliteral with
  | regexp => exact .cons_cons _ (.cons_cons _ (List.nil_sublist _))
  | bigint => exact .cons_cons _ (.cons _ (List.Sublist.refl _))
  | _ => exact .cons_cons _ (List.nil_sublist _)

theorem BuiltSlot.keys_sublist {slot : Slot} {arg : Arg Call} {fields : Members}
    (hslot : BuiltSlot build slot arg fields) : fields.keys.Sublist slot.keys := by
  cases hslot with
  | literal field hliteral => exact hliteral.keys_sublist
  | legacyChild => exact List.nil_sublist _
  | child field hkind =>
      rw [Slot.keys_eq (SlotKind.ne_of_holdsNodes hkind.holdsNodes rfl)]
      exact List.Sublist.refl _
  | list field hkind =>
      rw [Slot.keys_eq (SlotKind.ne_of_holdsNodes (SlotKind.holdsNodes_of_isList hkind) rfl)]
      exact List.Sublist.refl _
  | _ => exact List.Sublist.refl _

theorem BuiltSlots.keys_sublist {slots : List Slot} {args : List (Arg Call)} {members : Members}
    (hslots : BuiltSlots build slots args members) :
    members.keys.Sublist (slots.flatMap Slot.keys) := by
  induction hslots with
  | nil => exact List.Sublist.refl _
  | cons hslot _ ih =>
      rw [Members.keys_append, List.flatMap_cons]
      exact hslot.keys_sublist.append ih

/-- A key of a slot leads to what the slot has built and to nothing else. -/
theorem BuiltSlots.lookup {slots : List Slot} {args : List (Arg Call)} {members : Members}
    (hslots : BuiltSlots build slots args members)
    (hkeys : (slots.flatMap Slot.keys).Nodup) :
    List.Forall₂ (fun slot arg => ∃ fields, BuiltSlot build slot arg fields ∧
      ∀ key ∈ slot.keys, members.lookup key = fields.lookup key) slots args := by
  induction hslots with
  | nil => exact .nil
  | @cons slot slots arg args first rest hslot hslots ih =>
      rw [List.flatMap_cons, List.nodup_append] at hkeys
      obtain ⟨-, hrest, hdisjoint⟩ := hkeys
      refine .cons ⟨first, hslot, fun key hkey => ?_⟩ ?_
      · have habsent : rest.lookup key = none := by
          rw [Members.lookup_eq_none_iff]
          exact fun hmem => hdisjoint key hkey key (hslots.keys_sublist.mem hmem) rfl
        rw [List.lookup_append, habsent, Option.or_none]
      · refine ((List.forall₂_and_left _ _).mpr ⟨fun _ hslot' => hslot', ih hrest⟩).imp ?_
        rintro slot' arg' ⟨hmem, fields, hbuilt, hlookup⟩
        refine ⟨fields, hbuilt, fun key hkey => ?_⟩
        have habsent : first.lookup key = none := by
          rw [Members.lookup_eq_none_iff]
          intro hfirst
          exact hdisjoint key (hslot.keys_sublist.mem hfirst) key
            (List.mem_flatMap.mpr ⟨slot', hmem, hkey⟩) rfl
        rw [List.lookup_append, habsent, Option.none_or, hlookup key hkey]

end Fields

/-! ## Nodes -/

/-- What the members of a built node are, key by key. -/
structure BuiltObject (build : Call → Json → Prop) (members : Members) (nodeType : NodeType)
    (args : List (Arg Call)) : Prop where
  keys_nodup : members.keys.Nodup
  keys_subset : members.keys ⊆ nodeType.builtKeys
  tag : members.lookup "type" = some (.string nodeType.tag)
  implied : ∀ key ∈ (Estree.impliedFields nodeType).keys,
    members.lookup key = (Estree.impliedFields nodeType).lookup key
  slots : List.Forall₂ (fun slot arg => ∃ fields, BuiltSlot build slot arg fields ∧
    ∀ key ∈ slot.keys, members.lookup key = fields.lookup key) nodeType.slots args

theorem BuiltNode.exists_builtObject {build : Call → Json → Prop} {nodeType : NodeType}
    {args : List (Arg Call)} {tree : Json} (hnode : BuiltNode build (.mk nodeType args) tree) :
    ∃ members, tree = .object members ∧ BuiltObject build members nodeType args := by
  cases hnode with
  | @mk _ _ slotted hslots =>
      have hbuilt := nodeType.builtKeys_nodup
      have hsublist : (Members.keys (("type", .string nodeType.tag) :: slotted ++
          Estree.impliedFields nodeType)).Sublist nodeType.builtKeys := by
        rw [List.cons_append, Members.keys_cons, Members.keys_append]
        exact .cons_cons _ (hslots.keys_sublist.append (List.Sublist.refl _))
      obtain ⟨htype, hrest⟩ := List.nodup_cons.mp hbuilt
      obtain ⟨hslotKeys, -, hdisjoint⟩ := List.nodup_append.mp hrest
      refine ⟨_, rfl, hbuilt.sublist hsublist, hsublist.subset, by simp, ?_, ?_⟩
      · intro key hkey
        have hne : key ≠ "type" := by
          rintro rfl
          exact htype (List.mem_append_right _ hkey)
        have habsent : slotted.lookup key = none := by
          rw [Members.lookup_eq_none_iff]
          exact fun hmem => hdisjoint key (hslots.keys_sublist.mem hmem) key hkey rfl
        rw [List.cons_append, List.lookup_cons, beq_false_of_ne hne, List.lookup_append, habsent,
          Option.none_or]
      · refine ((List.forall₂_and_left _ _).mpr
          ⟨fun _ hslot => hslot, hslots.lookup hslotKeys⟩).imp ?_
        rintro slot arg ⟨hslot, fields, hbuilt, hlookup⟩
        refine ⟨fields, hbuilt, fun key hkey => ?_⟩
        have hmem : key ∈ nodeType.slots.flatMap Slot.keys :=
          List.mem_flatMap.mpr ⟨slot, hslot, hkey⟩
        have hne : key ≠ "type" := by
          rintro rfl
          exact htype (List.mem_append_left _ hmem)
        have habsent : (Estree.impliedFields nodeType).lookup key = none := by
          rw [Members.lookup_eq_none_iff]
          exact fun himplied => hdisjoint key hmem key himplied rfl
        rw [List.cons_append, List.lookup_cons, beq_false_of_ne hne, List.lookup_append, habsent,
          Option.or_none, hlookup key hkey]

namespace BuiltObject

variable {build : Call → Json → Prop} {members : Members} {nodeType : NodeType}
  {args : List (Arg Call)} (hobject : BuiltObject build members nodeType args)

include hobject

theorem lookup_eq_none {key : String} (hkey : key ∉ nodeType.builtKeys) :
    members.lookup key = none :=
  Members.lookup_eq_none_iff.mpr fun hmem => hkey (hobject.keys_subset hmem)

theorem lookup_unslotted {field : String} (hfield : field ∈ nodeType.unslottedFields) :
    members.lookup field = none :=
  hobject.lookup_eq_none fun hkey =>
    NodeType.not_mem_unslottedFields_of_builtKeys hkey hfield

end BuiltObject

end BuilderCalls
