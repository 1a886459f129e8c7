import BuilderCalls.Conversion
import BuilderCalls.Proofs.Json.Members
import BuilderCalls.Proofs.Result
import BuilderCalls.Proofs.Signature

/-!
# What conversion reads

`NodeImage` says field by field which call a node is read as, given what its
children are read as.  `converts_iff` is the whole of the converter in these
terms: it yields a call exactly when the call is the image of the node, with
children read by the converter itself.  Later proofs use this statement and
never unfold the converter.
-/

namespace BuilderCalls

def Converts (value : Json) (call : Call) : Prop :=
  (convert value).result = .ok call

/-! ## Images -/

/-- The literal of a `value` that stands for itself. -/
inductive PlainLiteral : Json → Literal → Prop
  | null : PlainLiteral .null .null
  | boolean (value : Bool) : PlainLiteral (.bool value) (.boolean value)
  | string (value : String) : PlainLiteral (.string value) (.string value)
  | number (value : Number) : PlainLiteral (.number value) (.number value.toDouble)

/-- The literal of a node: `regex` comes before `bigint` and this before `value`. -/
inductive LiteralImage (members : Members) : Literal → Prop
  | regexp {regex : Json} {pattern flags : String}
      (hregex : members.lookup "regex" = some regex)
      (hpattern : regex.get? "pattern" = some (.string pattern))
      (hflags : regex.get? "flags" = some (.string flags)) :
      LiteralImage members (.regexp pattern flags)
  | bigint {digits : String} (hregex : members.Lacks "regex")
      (hbigint : members.lookup "bigint" = some (.string digits)) :
      LiteralImage members (.bigint digits)
  | plain {value : Json} {literal : Literal}
      (hregex : members.Lacks "regex") (hbigint : members.Lacks "bigint")
      (hvalue : members.lookup "value" = some value) (hplain : PlainLiteral value literal) :
      LiteralImage members literal

inductive TemplateImage (value : Json) : Option String → String → Prop
  | cooked {cooked raw : String} (hraw : value.get? "raw" = some (.string raw))
      (hcooked : value.get? "cooked" = some (.string cooked)) :
      TemplateImage value (some cooked) raw
  | uncooked {raw : String} (hraw : value.get? "raw" = some (.string raw))
      (hcooked : value.get? "cooked" = none ∨ value.get? "cooked" = some .null) :
      TemplateImage value none raw

theorem TemplateImage.get?_raw {value : Json} {cooked : Option String} {raw : String}
    (htemplate : TemplateImage value cooked raw) : value.get? "raw" = some (.string raw) := by
  cases htemplate <;> assumption

theorem TemplateImage.ne_null {value : Json} {cooked : Option String} {raw : String}
    (htemplate : TemplateImage value cooked raw) : value ≠ .null := by
  rintro rfl
  cases htemplate.get?_raw

section Images

variable (image : Json → Call → Prop)

/-- The argument for an item of a list; only sparse lists have holes. -/
inductive ItemImage (kind : SlotKind) : Json → Arg Call → Prop
  | hole (hkind : kind = .sparseList) : ItemImage kind .null .null
  | node {value : Json} {call : Call} (himage : image value call) :
      ItemImage kind value (.node call)

inductive SlotImage (members : Members) : Slot → Arg Call → Prop
  | name {field text : String} (hfield : members.lookup field = some (.string text)) :
      SlotImage members ⟨field, .name⟩ (.string text)
  | keyword {field word : String} {words : List String}
      (hfield : members.lookup field = some (.string word)) (hword : word ∈ words) :
      SlotImage members ⟨field, .keyword words⟩ (.string word)
  | flag {field : String} {value : Bool} (hfield : members.lookup field = some (.bool value)) :
      SlotImage members ⟨field, .flag⟩ (.bool value)
  | absentFlag {field : String} (hfield : members.Lacks field) :
      SlotImage members ⟨field, .flag⟩ (.bool false)
  | child {field : String} {kind : SlotKind} {value : Json} {call : Call}
      (hkind : kind.HoldsNode) (hfield : members.lookup field = some value)
      (himage : image value call) :
      SlotImage members ⟨field, kind⟩ (.node call)
  | absentChild {field : String} {kind : SlotKind} (hkind : kind.isOptional = true)
      (hfield : members.Lacks field) : SlotImage members ⟨field, kind⟩ .null
  | list {field : String} {kind : SlotKind} {items : List Json} {args : List (Arg Call)}
      (hkind : kind.isList = true) (hfield : members.lookup field = some (.array items))
      (hitems : List.Forall₂ (ItemImage image kind) items args) :
      SlotImage members ⟨field, kind⟩ (.list args)
  | literal {field : String} {literal : Literal} (hliteral : LiteralImage members literal) :
      SlotImage members ⟨field, .literalValue⟩ (.literal literal)
  | template {field : String} {value : Json} {cooked : Option String} {raw : String}
      (hfield : members.lookup field = some value) (htemplate : TemplateImage value cooked raw) :
      SlotImage members ⟨field, .templateValue⟩ (.template cooked raw)

/-- The members are those of a node of the type, and its unslotted fields say nothing. -/
structure NodeHead (members : Members) (nodeType : NodeType) : Prop where
  tag : members.lookup "type" = some (.string nodeType.tag)
  vacant : ∀ field ∈ nodeType.unslottedFields, ∀ value,
    members.lookup field = some value → value.isVacant = true

/-- The call has the type of the node and, slot by slot, the image of its members. -/
inductive NodeImage : Json → Call → Prop
  | mk {members : Members} {nodeType : NodeType} {args : List (Arg Call)}
      (hhead : NodeHead members nodeType)
      (hslots : List.Forall₂ (SlotImage image members) nodeType.slots args) :
      NodeImage (.object members) (.mk nodeType args)

namespace SlotImage

variable {image : Json → Call → Prop} {members : Members} {field : String} {arg : Arg Call}

theorem name_iff :
    SlotImage image members ⟨field, .name⟩ arg ↔
      ∃ text, members.lookup field = some (.string text) ∧ arg = .string text := by
  constructor
  · intro himage
    cases himage with
    | name hfield => exact ⟨_, hfield, rfl⟩
    | child hkind => nomatch hkind.holdsNodes
    | absentChild hkind | list hkind => nomatch hkind
  · rintro ⟨text, hfield, rfl⟩
    exact .name hfield

theorem keyword_iff {words : List String} :
    SlotImage image members ⟨field, .keyword words⟩ arg ↔
      ∃ word, members.lookup field = some (.string word) ∧ word ∈ words ∧ arg = .string word := by
  constructor
  · intro himage
    cases himage with
    | keyword hfield hword => exact ⟨_, hfield, hword, rfl⟩
    | child hkind => nomatch hkind.holdsNodes
    | absentChild hkind | list hkind => nomatch hkind
  · rintro ⟨word, hfield, hword, rfl⟩
    exact .keyword hfield hword

theorem flag_iff :
    SlotImage image members ⟨field, .flag⟩ arg ↔
      ∃ value, (members.lookup field = some (.bool value) ∨
        members.Lacks field ∧ value = false) ∧ arg = .bool value := by
  constructor
  · intro himage
    cases himage with
    | flag hfield => exact ⟨_, .inl hfield, rfl⟩
    | absentFlag hfield => exact ⟨_, .inr ⟨hfield, rfl⟩, rfl⟩
    | child hkind => nomatch hkind.holdsNodes
    | absentChild hkind | list hkind => nomatch hkind
  · rintro ⟨value, hfield | ⟨hfield, rfl⟩, rfl⟩
    · exact .flag hfield
    · exact .absentFlag hfield

theorem literal_iff :
    SlotImage image members ⟨field, .literalValue⟩ arg ↔
      ∃ literal, LiteralImage members literal ∧ arg = .literal literal := by
  constructor
  · intro himage
    cases himage with
    | literal hliteral => exact ⟨_, hliteral, rfl⟩
    | child hkind => nomatch hkind.holdsNodes
    | absentChild hkind | list hkind => nomatch hkind
  · rintro ⟨literal, hliteral, rfl⟩
    exact .literal hliteral

theorem template_iff :
    SlotImage image members ⟨field, .templateValue⟩ arg ↔
      ∃ value cooked raw, members.lookup field = some value ∧ TemplateImage value cooked raw ∧
        arg = .template cooked raw := by
  constructor
  · intro himage
    cases himage with
    | template hfield htemplate => exact ⟨_, _, _, hfield, htemplate, rfl⟩
    | child hkind => nomatch hkind.holdsNodes
    | absentChild hkind | list hkind => nomatch hkind
  · rintro ⟨value, cooked, raw, hfield, htemplate, rfl⟩
    exact .template hfield htemplate

theorem child_iff {kind : SlotKind} (hkind : kind.HoldsNode) (hpresent : ¬members.Lacks field) :
    SlotImage image members ⟨field, kind⟩ arg ↔
      ∃ value call, members.lookup field = some value ∧ image value call ∧ arg = .node call := by
  constructor
  · intro himage
    cases himage with
    | child _ hfield himage => exact ⟨_, _, hfield, himage, rfl⟩
    | absentChild _ hlacks => exact absurd hlacks hpresent
    | list hlist => simp [hkind.isList_eq_false] at hlist
    | name | keyword | flag | absentFlag | literal | template => cases hkind.holdsNodes
  · rintro ⟨value, call, hfield, himage, rfl⟩
    exact .child hkind hfield himage

theorem list_iff {kind : SlotKind} (hkind : kind.isList = true) :
    SlotImage image members ⟨field, kind⟩ arg ↔
      ∃ items args, members.lookup field = some (.array items) ∧
        List.Forall₂ (ItemImage image kind) items args ∧ arg = .list args := by
  constructor
  · intro himage
    cases himage with
    | list _ hfield hitems => exact ⟨_, _, hfield, hitems, rfl⟩
    | child hchild => simp [hchild.isList_eq_false] at hkind
    | absentChild hoptional => simp [SlotKind.isList_eq_false_of_isOptional hoptional] at hkind
    | name | keyword | flag | absentFlag | literal | template => cases hkind
  · rintro ⟨items, args, hfield, hitems, rfl⟩
    exact .list hkind hfield hitems

theorem absent_iff {kind : SlotKind} (hkind : kind.holdsNodes = true)
    (hlacks : members.Lacks field) (hnull : ∀ call, ¬image .null call) :
    SlotImage image members ⟨field, kind⟩ arg ↔ kind.isOptional = true ∧ arg = .null := by
  constructor
  · intro himage
    cases himage with
    | absentChild hoptional => exact ⟨hoptional, rfl⟩
    | child _ hvalue himage =>
        rw [hlacks.eq_null hvalue] at himage
        exact absurd himage (hnull _)
    | list _ hvalue => cases hlacks.eq_null hvalue
    | name | keyword | flag | absentFlag | literal | template => cases hkind
  · rintro ⟨hoptional, rfl⟩
    exact .absentChild hoptional hlacks

end SlotImage

end Images

/-! ## Heads -/

namespace Node

theorem ofMembers_eq_ok_iff {members : Members} {node : Node} :
    ofMembers members = .ok node ↔
      ∃ tag, members.lookup "type" = some (.string tag) ∧ node = ⟨tag, members⟩ := by
  unfold ofMembers
  cases hlookup : members.lookup "type" with
  | none => simp
  | some value => cases value <;> simp [Json.string?, eq_comm]

theorem nodeType_eq_ok_iff {node : Node} {nodeType : NodeType} :
    node.nodeType = .ok nodeType ↔ node.tag = nodeType.tag := by
  rw [← NodeType.ofTag?_eq_some_iff]
  unfold Node.nodeType
  cases NodeType.ofTag? node.tag <;> simp

theorem checkUnslotted_eq_ok_iff {node : Node} {nodeType : NodeType} :
    node.checkUnslotted nodeType = .ok () ↔
      ∀ field ∈ nodeType.unslottedFields, ∀ value,
        node.members.lookup field = some value → value.isVacant = true := by
  unfold checkUnslotted get?
  cases hfind : nodeType.unslottedFields.find? _ with
  | none =>
      simp only [List.find?_eq_none, Option.any_eq_true, not_exists, not_and] at hfind
      simpa using hfind
  | some field =>
      have hmem := List.mem_of_find?_eq_some hfind
      have hset := List.find?_some hfind
      simp only [Option.any_eq_true_iff_get, Bool.not_eq_true'] at hset
      obtain ⟨hsome, hset⟩ := hset
      simp only [reduceCtorEq, false_iff, not_forall]
      exact ⟨field, hmem, _, Option.eq_some_of_isSome hsome, by simp [hset]⟩

/-! ## Scalars -/

variable {node : Node} {field : String}

theorem optional?_eq_none_iff : node.optional? field = none ↔ node.members.Lacks field := by
  unfold optional? get? Members.Lacks
  cases node.members.lookup field with
  | none => simp
  | some value => cases value <;> simp

theorem optional?_eq_some_iff {value : Json} :
    node.optional? field = some value ↔
      node.members.lookup field = some value ∧ value ≠ .null := by
  unfold optional? get?
  cases node.members.lookup field with
  | none => simp
  | some found => cases found <;> simp +contextual [eq_comm]

theorem required_eq_ok_iff {value : Json} :
    node.required field = .ok value ↔
      node.members.lookup field = some value ∧ value ≠ .null := by
  rw [← optional?_eq_some_iff]
  unfold required
  split <;> simp_all

theorem string_eq_ok_iff {text : String} :
    node.string field = .ok text ↔ node.members.lookup field = some (.string text) := by
  simp only [string, bind_eq_ok_iff, required_eq_ok_iff]
  constructor
  · rintro ⟨value, ⟨hfield, -⟩, htext⟩
    cases value <;> simp_all
  · intro hfield
    exact ⟨_, ⟨hfield, by simp⟩, rfl⟩

theorem keyword_eq_ok_iff {words : List String} {word : String} :
    node.keyword field words = .ok word ↔
      node.members.lookup field = some (.string word) ∧ word ∈ words := by
  simp only [keyword, bind_eq_ok_iff, string_eq_ok_iff]
  constructor
  · rintro ⟨found, hfield, hword⟩
    split at hword <;> simp_all
  · rintro ⟨hfield, hword⟩
    exact ⟨word, hfield, by simp [hword]⟩

theorem flag_eq_ok_iff {value : Bool} :
    node.flag field = .ok value ↔
      node.members.lookup field = some (.bool value) ∨
        node.members.Lacks field ∧ value = false := by
  unfold flag
  split
  next habsent =>
    rw [optional?_eq_none_iff] at habsent
    rcases habsent with habsent | habsent <;> simp [habsent, Members.Lacks, eq_comm]
  next found hfield =>
    have hlookup := (optional?_eq_some_iff.mp hfield).1
    simp [hlookup, Members.Lacks]
  next found hother hfield =>
    obtain ⟨hlookup, hnull⟩ := optional?_eq_some_iff.mp hfield
    simp only [reduceCtorEq, hlookup, Members.Lacks, Option.some.injEq, hnull, or_self,
      false_and, or_false, false_iff]
    rintro rfl
    exact hother _ rfl

theorem string?_eq_some_iff {value : Option Json} {text : String} :
    value.bind Json.string? = some text ↔ value = some (.string text) := by
  cases value with
  | none => simp
  | some value => cases value <;> simp [Json.string?]

theorem regex_eq_ok_iff {regex : Json} {literal : Literal} :
    node.regex regex = .ok literal ↔
      ∃ pattern flags, regex.get? "pattern" = some (.string pattern) ∧
        regex.get? "flags" = some (.string flags) ∧ literal = .regexp pattern flags := by
  simp only [← string?_eq_some_iff]
  unfold Node.regex
  split
  next pattern flags hpattern hflags => simp [hpattern, hflags, eq_comm]
  next hneither =>
    simp only [reduceCtorEq, false_iff, not_exists, not_and]
    intro pattern flags hpattern hflags
    exact (hneither pattern flags hpattern hflags).elim

theorem literal_eq_ok_iff {literal : Literal} :
    node.literal = .ok literal ↔ LiteralImage node.members literal := by
  constructor
  · intro hliteral
    unfold Node.literal at hliteral
    split at hliteral
    next regex _ _ hregex =>
      obtain ⟨pattern, flags, hpattern, hflags, rfl⟩ := regex_eq_ok_iff.mp hliteral
      exact .regexp (optional?_eq_some_iff.mp hregex).1 hpattern hflags
    next digits _ hregex hbigint =>
      cases hliteral
      exact .bigint (optional?_eq_none_iff.mp hregex) (optional?_eq_some_iff.mp hbigint).1
    next => cases hliteral
    next => cases hliteral
    next hregex hbigint hvalue =>
      cases hliteral
      exact .plain (optional?_eq_none_iff.mp hregex) (optional?_eq_none_iff.mp hbigint) hvalue .null
    next value hregex hbigint hvalue =>
      cases hliteral
      exact .plain (optional?_eq_none_iff.mp hregex) (optional?_eq_none_iff.mp hbigint) hvalue
        (.boolean value)
    next value hregex hbigint hvalue =>
      cases hliteral
      exact .plain (optional?_eq_none_iff.mp hregex) (optional?_eq_none_iff.mp hbigint) hvalue
        (.string value)
    next value hregex hbigint hvalue =>
      cases hliteral
      exact .plain (optional?_eq_none_iff.mp hregex) (optional?_eq_none_iff.mp hbigint) hvalue
        (.number value)
    next => cases hliteral
  · intro himage
    unfold Node.literal
    cases himage with
    | regexp hregex hpattern hflags =>
        have hpresent : node.optional? "regex" = some _ :=
          optional?_eq_some_iff.mpr ⟨hregex, by rintro rfl; cases hpattern⟩
        simpa [hpresent] using regex_eq_ok_iff.mpr ⟨_, _, hpattern, hflags, rfl⟩
    | bigint hregex hbigint =>
        have hpresent : node.optional? "bigint" = some _ :=
          optional?_eq_some_iff.mpr ⟨hbigint, nofun⟩
        simp [optional?_eq_none_iff.mpr hregex, hpresent]
    | plain hregex hbigint hvalue hplain =>
        rw [optional?_eq_none_iff.mpr hregex, optional?_eq_none_iff.mpr hbigint, get?, hvalue]
        cases hplain <;> rfl

theorem template_eq_ok_iff {cooked : Option String} {raw : String} :
    node.template field = .ok (cooked, raw) ↔
      ∃ value, node.members.lookup field = some value ∧ TemplateImage value cooked raw := by
  simp only [template, bind_eq_ok_iff, required_eq_ok_iff]
  constructor
  · rintro ⟨value, ⟨hfield, -⟩, hparts⟩
    refine ⟨value, hfield, ?_⟩
    split at hparts
    next => cases hparts
    next raw' hraw =>
      rw [string?_eq_some_iff] at hraw
      split at hparts
      next hcooked =>
        cases hparts
        exact .uncooked hraw (.inl hcooked)
      next hcooked =>
        cases hparts
        exact .uncooked hraw (.inr hcooked)
      next text hcooked =>
        cases hparts
        exact .cooked hraw hcooked
      next => cases hparts
  · rintro ⟨value, hfield, htemplate⟩
    refine ⟨value, ⟨hfield, htemplate.ne_null⟩, ?_⟩
    cases htemplate with
    | cooked hraw hcooked => simp [hraw, hcooked, Json.string?]
    | uncooked hraw hcooked =>
        rcases hcooked with hcooked | hcooked <;> simp [hraw, hcooked, Json.string?]

end Node

/-! ## Slots -/

theorem converts_iff_convertValue {value : Json} {call : Call} :
    Converts value call ↔ (convertValue value).result = .ok call := by
  simp [Converts, convert]

theorem Converts.isObject {value : Json} {call : Call} (hconverts : Converts value call) :
    ∃ members, value = .object members := by
  rw [converts_iff_convertValue] at hconverts
  cases value with
  | object members => exact ⟨members, rfl⟩
  | null | bool | number | string | array => simp [convertValue] at hconverts

theorem not_converts_null {call : Call} : ¬Converts .null call :=
  fun hconverts => nomatch hconverts.isObject

theorem Converts.ne_null {value : Json} {call : Call} (hconverts : Converts value call) :
    value ≠ .null := by
  rintro rfl
  exact not_converts_null hconverts

/-- What the converter makes of the value in a slot for nodes. -/
def convertField (node : Node) (slot : Slot) (value : Json) : Traced (Arg Call) :=
  if value.isNull then node.absent slot
  else if slot.kind.isList then
    match value with
    | .array items => Arg.list <$> convertItems node slot 0 items
    | value => .fail (node.malformed (.notAnArray slot.field value.kind))
  else Arg.node <$> (convertValue value).under [.field slot.field]

def convertItem (node : Node) (slot : Slot) (index : Nat) (item : Json) : Traced (Arg Call) :=
  if !item.isNull then
    Arg.node <$> (convertValue item).under [.field slot.field, .index index]
  else if slot.kind = .sparseList then pure .null
  else .fail (node.malformed (.hole slot.field index))

theorem convertField_child {node : Node} {slot : Slot} {value : Json}
    (hkind : slot.kind.HoldsNode) (hvalue : value ≠ .null) :
    convertField node slot value =
      Arg.node <$> (convertValue value).under [.field slot.field] := by
  rw [convertField.eq_def, if_neg (by simpa using hvalue),
    if_neg (by simp [hkind.isList_eq_false])]

theorem convertField_array {node : Node} {slot : Slot} (hkind : slot.kind.isList = true)
    (items : List Json) :
    convertField node slot (.array items) = Arg.list <$> convertItems node slot 0 items := by
  rw [convertField, if_neg (by simp), if_pos hkind]

theorem convertItem_of_ne_null {node : Node} {slot : Slot} {item : Json} (hitem : item ≠ .null)
    (index : Nat) : convertItem node slot index item =
      Arg.node <$> (convertValue item).under [.field slot.field, .index index] := by
  rw [convertItem, if_pos (by simpa [← Bool.not_eq_true] using hitem)]

private theorem convertSlot_cons (node : Node) (slot : Slot) (key : String) (value : Json)
    (rest : Members) :
    convertSlot node slot ((key, value) :: rest) =
      if key = slot.field then convertField node slot value else convertSlot node slot rest := by
  rw [convertSlot.eq_def]
  rfl

theorem convertSlot_eq (node : Node) (slot : Slot) (members : Members) :
    convertSlot node slot members =
      match members.lookup slot.field with
      | none => node.absent slot
      | some value => convertField node slot value := by
  induction members with
  | nil => rw [convertSlot.eq_def, List.lookup_nil]
  | cons member rest ih =>
      obtain ⟨key, value⟩ := member
      rw [convertSlot_cons, List.lookup_cons]
      by_cases hkey : key = slot.field
      · rw [if_pos hkey, hkey, beq_self_eq_true]
      · rw [if_neg hkey, beq_false_of_ne (Ne.symm hkey)]
        exact ih

theorem convertSlot_of_lacks {node : Node} {slot : Slot} {members : Members}
    (hlacks : members.Lacks slot.field) : convertSlot node slot members = node.absent slot := by
  rw [convertSlot_eq]
  rcases hlacks with hfield | hfield
  · rw [hfield]
  · rw [hfield]
    rfl

theorem convertItems_cons (node : Node) (slot : Slot) (index : Nat) (item : Json)
    (rest : List Json) :
    convertItems node slot index (item :: rest) =
      convertItem node slot index item >>= fun arg =>
        (arg :: ·) <$> convertItems node slot (index + 1) rest := by
  rw [convertItems, convertItem]
  split
  · rfl
  · split <;> rfl

section Results

variable {node : Node} {slot : Slot} {arg : Arg Call}

theorem absent_eq_ok_iff :
    (node.absent slot).result = .ok arg ↔ slot.kind.isOptional = true ∧ arg = .null := by
  unfold Node.absent
  split
  next hkind => simp [hkind, eq_comm]
  next hkind => simp [hkind]

theorem convertItem_eq_ok_iff {index : Nat} {item : Json} :
    (convertItem node slot index item).result = .ok arg ↔
      ItemImage Converts slot.kind item arg := by
  by_cases hnull : item = .null
  · subst hnull
    unfold convertItem
    simp only [Json.isNull, Json.kind, decide_true, Bool.not_true, Bool.false_eq_true, if_false]
    constructor
    · intro hhole
      split at hhole
      next hkind =>
        cases hhole
        exact .hole hkind
      next => cases hhole
    · intro himage
      cases himage with
      | hole hkind => simp [hkind]
      | node himage => exact absurd himage not_converts_null
  · rw [convertItem_of_ne_null hnull]
    simp only [Traced.result_map, Traced.result_under, map_eq_ok_iff, mapError_eq_ok_iff,
      ← converts_iff_convertValue]
    constructor
    · rintro ⟨call, hconverts, rfl⟩
      exact .node hconverts
    · intro himage
      cases himage with
      | hole => exact absurd rfl hnull
      | node himage => exact ⟨_, himage, rfl⟩

theorem convertItems_eq_ok_iff {index : Nat} {items : List Json} {args : List (Arg Call)} :
    (convertItems node slot index items).result = .ok args ↔
      List.Forall₂ (ItemImage Converts slot.kind) items args := by
  induction items generalizing index args with
  | nil => cases args <;> simp [convertItems]
  | cons item items ih =>
      rw [convertItems_cons]
      cases args <;> simp [convertItem_eq_ok_iff, ih]

theorem convertField_list_eq_ok_iff {members : Members} {value : Json}
    (hkind : slot.kind.isList = true) (hfield : members.lookup slot.field = some value)
    (hvalue : value ≠ .null) :
    (convertField node slot value).result = .ok arg ↔ SlotImage Converts members slot arg := by
  rw [SlotImage.list_iff hkind, hfield, convertField.eq_def, if_neg (by simpa using hvalue),
    if_pos hkind]
  constructor
  · intro hresult
    split at hresult
    next items =>
      simp only [Traced.result_map, map_eq_ok_iff, convertItems_eq_ok_iff] at hresult
      obtain ⟨args, hitems, rfl⟩ := hresult
      exact ⟨items, args, rfl, hitems, rfl⟩
    next => cases hresult
  · rintro ⟨items, args, hitems, himages, rfl⟩
    cases hitems
    simpa [convertItems_eq_ok_iff] using himages

theorem convertField_child_eq_ok_iff {members : Members} {value : Json}
    (hkind : slot.kind.HoldsNode) (hfield : members.lookup slot.field = some value)
    (hvalue : value ≠ .null) :
    (convertField node slot value).result = .ok arg ↔ SlotImage Converts members slot arg := by
  have hpresent : ¬members.Lacks slot.field := by simp [Members.Lacks, hfield, hvalue]
  rw [SlotImage.child_iff hkind hpresent, hfield, convertField_child hkind hvalue]
  simp [← converts_iff_convertValue, eq_comm (b := arg)]

theorem convertSlot_eq_ok_iff {members : Members} (hkind : slot.kind.holdsNodes = true) :
    (convertSlot node slot members).result = .ok arg ↔ SlotImage Converts members slot arg := by
  have habsent : members.Lacks slot.field →
      ((node.absent slot).result = .ok arg ↔ SlotImage Converts members slot arg) := by
    intro hlacks
    rw [absent_eq_ok_iff, SlotImage.absent_iff hkind hlacks fun _ => not_converts_null]
  rw [convertSlot_eq]
  cases hfield : members.lookup slot.field with
  | none => exact habsent (.inl hfield)
  | some value =>
      by_cases hvalue : value = .null
      · subst hvalue
        exact habsent (.inr hfield)
      · rcases SlotKind.holdsNodes_iff.mp hkind with hchild | hlist
        · exact convertField_child_eq_ok_iff hchild hfield hvalue
        · exact convertField_list_eq_ok_iff hlist hfield hvalue

def convertArg (node : Node) (slot : Slot) : Traced (Arg Call) :=
  match node.scalar? slot with
  | some result => .ofExcept result
  | none => convertSlot node slot node.members

theorem convertArg_of_holdsNodes (hkind : slot.kind.holdsNodes = true) :
    convertArg node slot = convertSlot node slot node.members := by
  have hscalar : node.scalar? slot = none := by
    unfold Node.scalar?
    cases hslot : slot.kind <;> simp_all [SlotKind.holdsNodes]
  rw [convertArg, hscalar]

theorem convertArg_of_lookup {value : Json} (hkind : slot.kind.holdsNodes = true)
    (hfield : node.members.lookup slot.field = some value) :
    convertArg node slot = convertField node slot value := by
  rw [convertArg_of_holdsNodes hkind, convertSlot_eq, hfield]

theorem convertArg_eq_ok_iff :
    (convertArg node slot).result = .ok arg ↔ SlotImage Converts node.members slot arg := by
  obtain ⟨field, kind⟩ := slot
  unfold convertArg Node.scalar?
  cases kind with
  | name => simp [SlotImage.name_iff, Node.string_eq_ok_iff, eq_comm (b := arg)]
  | keyword words =>
      simp [SlotImage.keyword_iff, Node.keyword_eq_ok_iff, and_assoc, eq_comm (b := arg)]
  | flag => simp [SlotImage.flag_iff, Node.flag_eq_ok_iff, eq_comm (b := arg)]
  | literalValue => simp [SlotImage.literal_iff, Node.literal_eq_ok_iff, eq_comm (b := arg)]
  | templateValue =>
      simp only [Traced.result_ofExcept, exceptMap_eq_ok_iff, Prod.exists,
        Node.template_eq_ok_iff, SlotImage.template_iff]
      grind
  | child | optionalChild | legacyChild | childList | sparseList =>
      exact convertSlot_eq_ok_iff rfl

end Results

theorem convertValue_of_tag {members : Members} {tag : String}
    (htag : members.lookup "type" = some (.string tag)) :
    (convertValue (.object members)).result = (do
      let nodeType ← Node.nodeType ⟨tag, members⟩
      Node.checkUnslotted ⟨tag, members⟩ nodeType
      Call.mk nodeType <$> (nodeType.slots.mapM (convertArg ⟨tag, members⟩)).result) := by
  have hnode : Node.ofMembers members = .ok ⟨tag, members⟩ :=
    Node.ofMembers_eq_ok_iff.mpr ⟨tag, htag, rfl⟩
  simp only [convertValue, hnode, Traced.result_bind, Traced.result_ofExcept,
    Traced.result_record]
  rfl

/-- The converter yields exactly the calls that are images of nodes. -/
theorem converts_iff {value : Json} {call : Call} :
    Converts value call ↔ NodeImage Converts value call := by
  constructor
  · intro hconverts
    obtain ⟨members, rfl⟩ := hconverts.isObject
    rw [converts_iff_convertValue, convertValue] at hconverts
    simp only [Traced.result_bind, Traced.result_ofExcept, Traced.result_record,
      Traced.result_pure, bind_eq_ok_iff, Node.ofMembers_eq_ok_iff,
      Node.nodeType_eq_ok_iff] at hconverts
    obtain ⟨node, ⟨tag, htag, rfl⟩, nodeType, rfl, -, -, ⟨⟩, hvacant, args, hargs, hcall⟩ :=
      hconverts
    cases hcall
    refine .mk ⟨htag, Node.checkUnslotted_eq_ok_iff.mp hvacant⟩ ?_
    exact (Traced.mapM_result_eq_ok_iff.mp hargs).imp fun _ _ => convertArg_eq_ok_iff.mp
  · intro himage
    cases himage with
    | @mk members nodeType args hhead hslots =>
        rw [converts_iff_convertValue, convertValue]
        simp only [Traced.result_bind, Traced.result_ofExcept, Traced.result_record,
          Traced.result_pure, bind_eq_ok_iff, Node.ofMembers_eq_ok_iff, Node.nodeType_eq_ok_iff]
        refine ⟨⟨nodeType.tag, members⟩, ⟨_, hhead.tag, rfl⟩, nodeType, rfl, (), trivial, (),
          Node.checkUnslotted_eq_ok_iff.mpr hhead.vacant, args, ?_, rfl⟩
        exact Traced.mapM_result_eq_ok_iff.mpr (hslots.imp fun _ _ => convertArg_eq_ok_iff.mpr)

/-- A node of a registered type is recorded and then converted slot by slot. -/
theorem convertValue_of_head {members : Members} {nodeType : NodeType}
    (hhead : NodeHead members nodeType) :
    convertValue (.object members) = (do
      Traced.record (.converting nodeType [])
      Call.mk nodeType <$> nodeType.slots.mapM (convertArg ⟨nodeType.tag, members⟩)) := by
  have hnode : Node.ofMembers members = .ok ⟨nodeType.tag, members⟩ :=
    Node.ofMembers_eq_ok_iff.mpr ⟨nodeType.tag, hhead.tag, rfl⟩
  have hnodeType : Node.nodeType ⟨nodeType.tag, members⟩ = .ok nodeType :=
    Node.nodeType_eq_ok_iff.mpr rfl
  have hvacant : Node.checkUnslotted ⟨nodeType.tag, members⟩ nodeType = .ok () :=
    Node.checkUnslotted_eq_ok_iff.mpr hhead.vacant
  have hok {α : Type} (value : α) : Traced.ofExcept (.ok value) = pure value := rfl
  rw [convertValue, hnode, hok, pure_bind, hnodeType, hok, pure_bind, hvacant, hok]
  simp only [pure_bind, bind_pure_comp]
  rfl

end BuilderCalls
