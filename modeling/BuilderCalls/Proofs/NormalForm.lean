import BuilderCalls.Proofs.Json.Members
import BuilderCalls.Proofs.Signature

/-!
# What the normal form keeps

The normal form of an object is read key by key: a key leads to the normal form
of what it led to, or to nothing when its member is dropped.  In a node the
tag, the fields of slots and the keys with a meaning of their own are kept;
the exceptions are flags that are false and the `value` of a regular expression
or bigint.  Objects without a tag keep all their members.
-/

namespace BuilderCalls

/-! ## Members -/

namespace Json

section Members

variable {role : ObjectRole} {members : Members}

@[simp] theorem normal_object (members : Members) :
    (object members).normal = .object (normalMembers (.ofMembers members) members) := by
  rw [normal.eq_def]

@[simp] theorem normal_array (items : List Json) :
    (array items).normal = .array (items.map normal) := by
  rw [normal.eq_def]
  simp only [array.injEq]
  induction items with
  | nil => rfl
  | cons item items ih => rw [normalItems, ih, List.map_cons]

@[simp] theorem normal_null : null.normal = .null := rfl

@[simp] theorem normal_bool (value : Bool) : (bool value).normal = .bool value := rfl

@[simp] theorem normal_number (value : Number) : (number value).normal = .number value := rfl

@[simp] theorem normal_string (value : String) : (string value).normal = .string value := rfl

theorem normal_eq_null_iff {value : Json} : value.normal = .null ↔ value = .null := by
  cases value <;> simp

theorem normal_eq_bool_iff {value : Json} {flag : Bool} :
    value.normal = .bool flag ↔ value = .bool flag := by
  cases value <;> simp

theorem normalMembers_cons (key : String) (value : Json) (rest : Members) :
    normalMembers role ((key, value) :: rest) =
      if role.drops key value then normalMembers role rest
      else (key, value.normal) :: normalMembers role rest := by
  rw [normalMembers.eq_def]

theorem mem_normalMembers {key : String} {value : Json} :
    (key, value) ∈ normalMembers role members ↔
      ∃ source, (key, source) ∈ members ∧ role.drops key source = false ∧
        source.normal = value := by
  induction members with
  | nil => simp [normalMembers]
  | cons member rest ih =>
      obtain ⟨firstKey, first⟩ := member
      rw [normalMembers_cons]
      split
      next hdrops =>
        rw [ih]
        constructor
        · rintro ⟨source, hmem, hkept, rfl⟩
          exact ⟨source, .tail _ hmem, hkept, rfl⟩
        · rintro ⟨source, hmem, hkept, rfl⟩
          cases hmem with
          | head => simp [hkept] at hdrops
          | tail _ hmem => exact ⟨source, hmem, hkept, rfl⟩
      next hkept =>
        rw [List.mem_cons, ih]
        constructor
        · rintro (hfirst | ⟨source, hmem, hkept', rfl⟩)
          · cases hfirst
            exact ⟨first, .head _, by simpa using hkept, rfl⟩
          · exact ⟨source, .tail _ hmem, hkept', rfl⟩
        · rintro ⟨source, hmem, hkept', rfl⟩
          cases hmem with
          | head => exact .inl rfl
          | tail _ hmem => exact .inr ⟨source, hmem, hkept', rfl⟩

theorem keys_normalMembers_sublist :
    (normalMembers role members).keys.Sublist members.keys := by
  induction members with
  | nil => exact List.Sublist.refl _
  | cons member rest ih =>
      obtain ⟨key, value⟩ := member
      rw [normalMembers_cons]
      split
      · exact .cons _ ih
      · exact .cons_cons _ ih

/-- A key leads to the normal form of what it led to, unless its member is dropped. -/
theorem lookup_normalMembers (hkeys : members.keys.Nodup) (key : String) :
    (normalMembers role members).lookup key =
      ((members.lookup key).filter fun value => !role.drops key value).map normal := by
  apply Option.ext
  intro value
  rw [Members.lookup_eq_some_iff (hkeys.sublist keys_normalMembers_sublist), mem_normalMembers]
  simp only [← Members.lookup_eq_some_iff hkeys, Option.map_eq_some_iff,
    Option.filter_eq_some_iff, Bool.not_eq_true', and_assoc]

/-- A key is found where it was, if nothing is dropped from it. -/
theorem lookup_normalMembers_of_kept {key : String}
    (hkept : ∀ value, role.drops key value = false) (members : Members) :
    (normalMembers role members).lookup key = (members.lookup key).map normal := by
  induction members with
  | nil => rfl
  | cons member rest ih =>
      obtain ⟨other, value⟩ := member
      rw [normalMembers_cons, List.lookup_cons]
      by_cases hkey : key = other
      · subst hkey
        rw [hkept, if_neg Bool.false_ne_true, List.lookup_cons, beq_self_eq_true]
        rfl
      · rw [beq_false_of_ne hkey, ← ih]
        split
        · rfl
        · rw [List.lookup_cons, beq_false_of_ne hkey]

theorem Distinct.normal {value : Json} (hdistinct : value.Distinct) : value.normal.Distinct := by
  induction hdistinct with
  | null => exact .null
  | bool value => exact .bool value
  | number value => exact .number value
  | string value => exact .string value
  | array _ ih =>
      rw [normal_array]
      refine .array fun item hitem => ?_
      obtain ⟨source, hsource, rfl⟩ := List.mem_map.mp hitem
      exact ih source hsource
  | @object members hkeys _ ih =>
      rw [normal_object]
      refine .object (hkeys.sublist keys_normalMembers_sublist) ?_
      rintro ⟨key, value⟩ hmember
      obtain ⟨source, hsource, -, rfl⟩ := mem_normalMembers.mp hmember
      exact ih _ hsource

end Members

end Json

/-! ## Default fields -/

namespace NodeType

variable {nodeType : NodeType} {slot : Slot} {value : Json}

private theorem any_flag_iff {field : String} :
    (nodeType.slots.any fun slot => slot.field == field && slot.kind = .flag) = true ↔
      ∃ slot ∈ nodeType.slots, slot.field = field ∧ slot.kind = .flag := by
  simp [List.any_eq_true]

theorem isDefault_of_not_mem_fields {key : String} (hkey : key ∉ nodeType.fields) :
    nodeType.isDefault key value = (nodeType.unslottedFields.contains key && value.isVacant) := by
  unfold isDefault
  rw [if_neg]
  rw [any_flag_iff]
  rintro ⟨slot, hslot, rfl, -⟩
  exact hkey (mem_fields hslot)

theorem isDefault_flag (hslot : slot ∈ nodeType.slots) (hkind : slot.kind = .flag) :
    nodeType.isDefault slot.field value = true ↔ value = .null ∨ value = .bool false := by
  unfold isDefault
  rw [if_pos (any_flag_iff.mpr ⟨slot, hslot, rfl, hkind⟩)]
  cases value <;> simp

theorem isDefault_slot (hslot : slot ∈ nodeType.slots) (hkind : slot.kind ≠ .flag) :
    nodeType.isDefault slot.field value = false := by
  unfold isDefault
  rw [if_neg]
  · rw [List.contains_eq_mem, decide_eq_false (field_not_mem_unslottedFields hslot),
      Bool.false_and]
  · rw [any_flag_iff]
    rintro ⟨slot', hslot', hfield, hflag⟩
    exact hkind (slot_eq_of_field hslot' hslot hfield ▸ hflag)

end NodeType

/-! ## Dropped members -/

namespace ObjectRole

variable {members : Members} {key : String} {value : Json}

theorem drops_untagged (htag : (members.lookup "type").bind Json.string? = none) :
    (ofMembers members).drops key value = false := by
  simp [ofMembers, drops, htag]

theorem drops_metadata {tag : String} (htag : members.lookup "type" = some (.string tag))
    (hkey : key ∈ metadataKeys) : (ofMembers members).drops key value = true := by
  simp [ofMembers, drops, htag, hkey, Json.string?]

/-- The node is a regular expression or a bigint, whose `value` belongs to its parser. -/
def Special (members : Members) (nodeType : NodeType) : Prop :=
  nodeType = .literal ∧
    ((members.lookup "regex").isSome = true ∨ (members.lookup "bigint").isSome = true)

section Nodes

variable {nodeType : NodeType} (htag : members.lookup "type" = some (.string nodeType.tag))

include htag

theorem drops_node_iff :
    (ofMembers members).drops key value = true ↔
      key ∈ metadataKeys ∨ Special members nodeType ∧ key = "value" ∨
        nodeType.isDefault key value = true := by
  simp only [ofMembers, drops, htag, Option.bind_some, Json.string?, NodeType.ofTag?_tag,
    Option.isSome_some, Bool.true_and, Bool.or_eq_true, Bool.and_eq_true, decide_eq_true_eq,
    List.contains_eq_mem, Option.any_some, Special, Option.some.injEq, or_assoc]

theorem drops_unslotted (hkey : key ∈ nodeType.unslottedFields) (hvacant : value.isVacant = true) :
    (ofMembers members).drops key value = true := by
  refine (drops_node_iff htag).mpr (.inr (.inr ?_))
  have hfield : key ∉ nodeType.fields := by
    intro hmem
    obtain ⟨slot, hslot, rfl⟩ := List.mem_map.mp hmem
    exact NodeType.field_not_mem_unslottedFields hslot hkey
  rw [NodeType.isDefault_of_not_mem_fields hfield, hvacant, Bool.and_true]
  exact List.contains_iff_mem.mpr hkey

/-- Keys that are neither metadata nor of a slot nor unslotted are kept. -/
theorem drops_other (hmetadata : key ∉ metadataKeys) (hunslotted : key ∉ nodeType.unslottedFields)
    (hfield : key ∉ nodeType.fields) : (ofMembers members).drops key value = false := by
  rw [Bool.eq_false_iff, Ne, drops_node_iff htag]
  rintro (hkey | ⟨⟨rfl, -⟩, rfl⟩ | hdefault)
  · exact hmetadata hkey
  · exact hfield (by decide)
  · rw [NodeType.isDefault_of_not_mem_fields hfield, Bool.and_eq_true] at hdefault
    exact hunslotted (List.contains_iff_mem.mp hdefault.1)

theorem drops_type : (ofMembers members).drops "type" value = false := by
  refine drops_other htag NodeType.type_not_mem_metadataKeys
    NodeType.type_not_mem_unslottedFields ?_
  intro hmem
  obtain ⟨slot, hslot, hfield⟩ := List.mem_map.mp hmem
  exact NodeType.type_ne_field hslot hfield.symm

theorem drops_extra (hkey : key ∈ nodeType.extraKeys) :
    (ofMembers members).drops key value = false := by
  have hkeys := nodeType.knownKeys_nodup
  simp only [NodeType.knownKeys, List.nodup_cons, List.nodup_append, List.mem_append] at hkeys
  obtain ⟨-, -, ⟨-, ⟨-, -, hfields⟩, hunslotted⟩, hmetadata⟩ := hkeys
  refine drops_other htag ?_ ?_ ?_
  · exact fun hmem => hmetadata _ hmem _ (.inr (.inl hkey)) rfl
  · exact fun hmem => hunslotted _ hmem _ (.inl hkey) rfl
  · exact fun hmem => hfields _ hkey _ hmem rfl

theorem drops_flag {slot : Slot} (hslot : slot ∈ nodeType.slots) (hkind : slot.kind = .flag) :
    (ofMembers members).drops slot.field value = true ↔ value = .null ∨ value = .bool false := by
  rw [drops_node_iff htag, NodeType.isDefault_flag hslot hkind]
  constructor
  · rintro (hmetadata | ⟨⟨rfl, -⟩, -⟩ | hdefault)
    · exact absurd hmetadata (NodeType.field_not_mem_metadataKeys hslot)
    · cases List.mem_singleton.mp hslot
      cases hkind
    · exact hdefault
  · exact fun hdefault => .inr (.inr hdefault)

theorem drops_slot {slot : Slot} (hslot : slot ∈ nodeType.slots) (hflag : slot.kind ≠ .flag)
    (hliteral : slot.kind ≠ .literalValue) :
    (ofMembers members).drops slot.field value = false := by
  rw [Bool.eq_false_iff, Ne, drops_node_iff htag, NodeType.isDefault_slot hslot hflag]
  rintro (hmetadata | ⟨⟨rfl, -⟩, -⟩ | hdefault)
  · exact NodeType.field_not_mem_metadataKeys hslot hmetadata
  · cases List.mem_singleton.mp hslot
    exact hliteral rfl
  · cases hdefault

end Nodes

theorem drops_literal (htag : members.lookup "type" = some (.string NodeType.literal.tag)) :
    (ofMembers members).drops "value" value = true ↔
      (members.lookup "regex").isSome = true ∨ (members.lookup "bigint").isSome = true := by
  have hslot : Slot.literalValue "value" ∈ NodeType.literal.slots := List.mem_singleton.mpr rfl
  have hdefault : NodeType.literal.isDefault "value" value = false :=
    NodeType.isDefault_slot hslot nofun
  rw [drops_node_iff htag, hdefault]
  simp [Special, metadataKeys]

end ObjectRole

end BuilderCalls
