import BuilderCalls.Program
import BuilderCalls.Proofs.Conversion
import BuilderCalls.Proofs.Faithful
import BuilderCalls.Proofs.NormalForm

/-!
# Reading a normal form

What the converter reads from a node it also reads from the normal form of the
node, where nothing that it looks at is dropped.  Two spellings lose what they
say: a plain literal with a null `regex` or `bigint`, which is taken for a
regular expression or bigint and loses its `value`, and a template part whose
texts are in an object with a tag, which loses its `raw`.
-/

namespace BuilderCalls

/-- Nothing that a node of the type says is dropped from its normal form. -/
structure Kept (members : Members) (nodeType : NodeType) : Prop where
  literal : nodeType = .literal → members.Lacks "regex" → members.Lacks "bigint" →
    members.lookup "regex" = none ∧ members.lookup "bigint" = none
  template : ∀ slot ∈ nodeType.slots, slot.kind = .templateValue → ∀ value,
    members.lookup slot.field = some value → value.tag? = none

/-! ## Lookups -/

namespace Members

variable {members : Members} (hkeys : members.keys.Nodup) {role : ObjectRole} {key : String}

include hkeys

theorem lookup_normal_of_kept {value : Json} (hlookup : members.lookup key = some value)
    (hkept : role.drops key value = false) :
    (Json.normalMembers role members).lookup key = some value.normal := by
  rw [Json.lookup_normalMembers hkeys, hlookup]
  simp [Option.filter, hkept]

theorem lookup_normal_of_dropped {value : Json} (hlookup : members.lookup key = some value)
    (hdropped : role.drops key value = true) :
    (Json.normalMembers role members).lookup key = none := by
  rw [Json.lookup_normalMembers hkeys, hlookup]
  simp [Option.filter, hdropped]

theorem lookup_normal_of_none (hlookup : members.lookup key = none) :
    (Json.normalMembers role members).lookup key = none := by
  rw [Json.lookup_normalMembers hkeys, hlookup]
  rfl

theorem Lacks.normal (hlacks : members.Lacks key) :
    (Json.normalMembers role members).Lacks key := by
  rcases hlacks with hlookup | hlookup
  · exact .inl (lookup_normal_of_none hkeys hlookup)
  · cases hdrops : role.drops key .null with
    | false => exact .inr (lookup_normal_of_kept hkeys hlookup hdrops)
    | true => exact .inl (lookup_normal_of_dropped hkeys hlookup hdrops)

end Members

/-! ## Data of literals and templates -/

theorem NodeType.isDefault_string {nodeType : NodeType} {field text : String} :
    nodeType.isDefault field (.string text) = false := by
  simp [isDefault, Json.isVacant]

/-- The texts of a regular expression are kept whatever object they are in. -/
theorem drops_string {members : Members} {key text : String} (hmetadata : key ∉ metadataKeys)
    (hvalue : key ≠ "value") : (ObjectRole.ofMembers members).drops key (.string text) = false := by
  simp [ObjectRole.drops, hmetadata, hvalue, NodeType.isDefault_string]

theorem Json.get?_normal_string {value : Json} (hdistinct : value.Distinct) {key text : String}
    (hmetadata : key ∉ metadataKeys) (hvalue : key ≠ "value")
    (hget : value.get? key = some (.string text)) :
    value.normal.get? key = some (.string text) := by
  cases value with
  | object members =>
      rw [normal_object]
      exact Members.lookup_normal_of_kept hdistinct.keys_nodup hget (drops_string hmetadata hvalue)
  | _ => cases hget

theorem Json.get?_normal_untagged {value : Json} (hdistinct : value.Distinct)
    (htag : value.tag? = none) (key : String) :
    value.normal.get? key = (value.get? key).map normal := by
  cases value with
  | object members =>
      rw [normal_object]
      change List.lookup key _ = Option.map normal (members.lookup key)
      cases hlookup : members.lookup key with
      | none => exact Members.lookup_normal_of_none hdistinct.keys_nodup hlookup
      | some value =>
          exact Members.lookup_normal_of_kept hdistinct.keys_nodup hlookup
            (ObjectRole.drops_untagged htag)
  | array items => rw [normal_array]; rfl
  | _ => rfl

theorem TemplateImage.normal {value : Json} {cooked : Option String} {raw : String}
    (htemplate : TemplateImage value cooked raw) (hdistinct : value.Distinct)
    (htag : value.tag? = none) : TemplateImage value.normal cooked raw := by
  have hget := Json.get?_normal_untagged hdistinct htag
  cases htemplate with
  | cooked hraw hcooked =>
      exact .cooked (by rw [hget, hraw]; rfl) (by rw [hget, hcooked]; rfl)
  | uncooked hraw hcooked =>
      refine .uncooked (by rw [hget, hraw]; rfl) ?_
      rcases hcooked with hcooked | hcooked
      · exact .inl (by rw [hget, hcooked]; rfl)
      · exact .inr (by rw [hget, hcooked]; rfl)

/-! ## Slots -/

section Slots

variable {members : Members} {nodeType : NodeType} (hdistinct : (Json.object members).Distinct)
  (htag : members.lookup "type" = some (.string nodeType.tag))

section Lookups

variable {slot : Slot} {value : Json}

include hdistinct htag

theorem Members.lookup_normal_of_slot (hslot : slot ∈ nodeType.slots) (hflag : slot.kind ≠ .flag)
    (hliteral : slot.kind ≠ .literalValue) (hfield : members.lookup slot.field = some value) :
    (Json.normalMembers (.ofMembers members) members).lookup slot.field = some value.normal :=
  lookup_normal_of_kept hdistinct.keys_nodup hfield
    (ObjectRole.drops_slot htag hslot hflag hliteral)

theorem Members.lookup_normal_of_nodes (hslot : slot ∈ nodeType.slots)
    (hkind : slot.kind.holdsNodes = true) (hfield : members.lookup slot.field = some value) :
    (Json.normalMembers (.ofMembers members) members).lookup slot.field = some value.normal := by
  have hflag : slot.kind ≠ .flag := SlotKind.ne_of_holdsNodes hkind rfl
  have hliteral : slot.kind ≠ .literalValue := SlotKind.ne_of_holdsNodes hkind rfl
  exact lookup_normal_of_slot hdistinct htag hslot hflag hliteral hfield

/-- The nodes that a slot holds are in the slot of the normal form as well. -/
theorem Members.Reaches.normal (hslot : slot ∈ nodeType.slots)
    (hreaches : members.Reaches slot value) :
    Reaches (Json.normalMembers (.ofMembers members) members) slot value.normal := by
  cases hreaches with
  | child hkind hfield hvalue =>
      have hfield' := lookup_normal_of_nodes hdistinct htag hslot hkind.holdsNodes hfield
      exact .child hkind hfield' (mt Json.normal_eq_null_iff.mp hvalue)
  | item hkind hfield hitem hvalue =>
      have hnodes := SlotKind.holdsNodes_of_isList hkind
      have hfield' := lookup_normal_of_nodes hdistinct htag hslot hnodes hfield
      rw [Json.normal_array] at hfield'
      exact .item hkind hfield' (List.mem_map_of_mem hitem) (mt Json.normal_eq_null_iff.mp hvalue)

end Lookups

variable (hkept : Kept members nodeType)

include hdistinct htag hkept

theorem LiteralImage.normal {literal : Literal} (hnodeType : nodeType = .literal)
    (himage : LiteralImage members literal) :
    LiteralImage (Json.normalMembers (.ofMembers members) members) literal := by
  subst hnodeType
  have hkeys := hdistinct.keys_nodup
  have hregexKey : "regex" ∈ NodeType.literal.extraKeys := by decide
  have hbigintKey : "bigint" ∈ NodeType.literal.extraKeys := by decide
  cases himage with
  | regexp hregex hpattern hflags =>
      have hregex' := hdistinct.of_holds (.field (Members.mem_of_lookup hregex))
      exact .regexp
        (Members.lookup_normal_of_kept hkeys hregex (ObjectRole.drops_extra htag hregexKey))
        (Json.get?_normal_string hregex' (by decide) (by decide) hpattern)
        (Json.get?_normal_string hregex' (by decide) (by decide) hflags)
  | bigint hregex hbigint =>
      exact .bigint (hregex.normal hkeys)
        (Members.lookup_normal_of_kept hkeys hbigint (ObjectRole.drops_extra htag hbigintKey))
  | @plain value _ hregex hbigint hvalue hplain =>
      have hnone := hkept.literal rfl hregex hbigint
      have hdrops : (ObjectRole.ofMembers members).drops "value" value = false := by
        rw [Bool.eq_false_iff, Ne, ObjectRole.drops_literal htag, hnone.1, hnone.2]
        decide
      have hnormal : value.normal = value := by
        cases hplain <;> rfl
      exact .plain (hregex.normal hkeys) (hbigint.normal hkeys)
        (hnormal ▸ Members.lookup_normal_of_kept hkeys hvalue hdrops) hplain

variable {image image' : Json → Call → Prop} {slot : Slot} (hslot : slot ∈ nodeType.slots)
  (hnull : ∀ call, ¬image .null call)
  (hchild : ∀ value call, members.Reaches slot value → image value call →
    image' value.normal call)

include hslot hnull hchild

theorem SlotImage.normal {arg : Arg Call} (himage : SlotImage image members slot arg) :
    SlotImage image' (Json.normalMembers (.ofMembers members) members) slot arg := by
  have hkeys := hdistinct.keys_nodup
  cases himage with
  | name hfield =>
      exact .name (Members.lookup_normal_of_slot hdistinct htag hslot nofun nofun hfield)
  | keyword hfield hword =>
      exact .keyword (Members.lookup_normal_of_slot hdistinct htag hslot nofun nofun hfield) hword
  | @flag field value hfield =>
      cases hdrops : (ObjectRole.ofMembers members).drops field (.bool value) with
      | false => exact .flag (Members.lookup_normal_of_kept hkeys hfield hdrops)
      | true =>
          have hdefault := (ObjectRole.drops_flag htag hslot rfl).mp hdrops
          obtain rfl : value = false := by simpa using hdefault
          exact .absentFlag (.inl (Members.lookup_normal_of_dropped hkeys hfield hdrops))
  | absentFlag hfield => exact .absentFlag (hfield.normal hkeys)
  | child hkind hfield himage =>
      have hfield' :=
        Members.lookup_normal_of_nodes hdistinct htag hslot hkind.holdsNodes hfield
      refine .child hkind hfield' (hchild _ _ (.child hkind hfield ?_) himage)
      rintro rfl
      exact hnull _ himage
  | absentChild hkind hfield => exact .absentChild hkind (hfield.normal hkeys)
  | @list field kind items args hkind hfield hitems =>
      have hnodes := SlotKind.holdsNodes_of_isList hkind
      have hfield' := Members.lookup_normal_of_nodes hdistinct htag hslot hnodes hfield
      rw [Json.normal_array] at hfield'
      refine .list hkind hfield' (List.forall₂_map_left_iff.mpr ?_)
      refine ((List.forall₂_and_left _ _).mpr ⟨fun item hitem => hitem, hitems⟩).imp ?_
      rintro item arg ⟨hitem, himage⟩
      cases himage with
      | hole hkind => exact .hole hkind
      | node himage =>
          refine .node (hchild _ _ (.item hkind hfield hitem ?_) himage)
          rintro rfl
          exact hnull _ himage
  | literal hliteral =>
      have hnodeType := NodeType.eq_literal_of_literalValue hslot rfl
      exact .literal (hliteral.normal hdistinct htag hkept hnodeType)
  | template hfield htemplate =>
      have hfield' := Members.lookup_normal_of_slot hdistinct htag hslot nofun nofun hfield
      exact .template hfield'
        (htemplate.normal (hdistinct.of_holds (.field (Members.mem_of_lookup hfield)))
          (hkept.template _ hslot rfl _ hfield))

end Slots

/-- The normal form of a node has the image of the node. -/
theorem NodeImage.normal {members : Members} {nodeType : NodeType} {args : List (Arg Call)}
    {image image' : Json → Call → Prop} (hdistinct : (Json.object members).Distinct)
    (hkept : Kept members nodeType) (hnull : ∀ call, ¬image .null call)
    (hchild : ∀ slot ∈ nodeType.slots, ∀ value call, members.Reaches slot value →
      image value call → image' value.normal call)
    (himage : NodeImage image (.object members) (.mk nodeType args)) :
    NodeImage image' (Json.object members).normal (.mk nodeType args) := by
  cases himage with
  | mk hhead hslots =>
      have hkeys := hdistinct.keys_nodup
      rw [Json.normal_object]
      refine .mk ⟨?_, ?_⟩ ?_
      · exact Members.lookup_normal_of_kept hkeys hhead.tag (ObjectRole.drops_type hhead.tag)
      · intro field hfield value hlookup
        cases hsource : members.lookup field with
        | none => rw [Members.lookup_normal_of_none hkeys hsource] at hlookup; cases hlookup
        | some source =>
            have hvacant := hhead.vacant field hfield source hsource
            rw [Members.lookup_normal_of_dropped hkeys hsource
              (ObjectRole.drops_unslotted hhead.tag hfield hvacant)] at hlookup
            cases hlookup
      · refine ((List.forall₂_and_left _ _).mpr ⟨fun slot hslot => hslot, hslots⟩).imp ?_
        rintro slot arg ⟨hslot, himage⟩
        exact himage.normal hdistinct hhead.tag hkept hslot hnull (hchild slot hslot)

end BuilderCalls
