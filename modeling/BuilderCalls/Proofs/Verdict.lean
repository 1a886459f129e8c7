import BuilderCalls.Proofs.Agreement
import BuilderCalls.Proofs.Faithful
import BuilderCalls.Proofs.Inversion

/-!
# What a passed check means

A check compares the normal form of a tree with that of the tree that was rebuilt
from its calls.  The two are equal exactly when every node of the tree is
faithful: it has no key that its type does not know, and it spells absence the
way the builders do.  The proof goes key by key at one node, and from a node to
its children by induction over the tree.
-/

namespace BuilderCalls

/-! ## Literals -/

theorem agree_plain_iff {value : Json} {literal : Literal} {fields : Members}
    (hplain : PlainLiteral value literal) (hbuilt : BuiltLiteral literal fields) :
    Agree (some value) (fields.lookup "value") ↔
      ∀ number, value = .number number → Estree.number? number.toDouble = some number := by
  cases hplain with
  | null => cases hbuilt; simp [Agree]
  | boolean value => cases hbuilt; simp [Agree]
  | string value => cases hbuilt; simp [Agree]
  | number number =>
      cases hbuilt with
      | @number _ written hnumber =>
          constructor
          · intro hagree
            obtain rfl : number = written := by simpa [Agree] using hagree
            rintro _ ⟨⟩
            exact hnumber
          · intro hsame
            obtain rfl : number = written := by
              simpa [hnumber, eq_comm] using hsame number rfl
            simp [Agree]

theorem BuiltLiteral.lookup_of_plain {value : Json} {literal : Literal} {fields : Members}
    (hbuilt : BuiltLiteral literal fields) (hplain : PlainLiteral value literal) :
    fields.lookup "regex" = none ∧ fields.lookup "bigint" = none := by
  cases hplain <;> cases hbuilt <;> exact ⟨rfl, rfl⟩

section Literals

variable {members built : Members} (hdistinct : (Json.object members).Distinct)
  (hkeys : built.keys.Nodup)
  (htag : members.lookup "type" = some (.string NodeType.literal.tag))
  (hbuiltTag : built.lookup "type" = some (.string NodeType.literal.tag))

include hdistinct hkeys htag hbuiltTag

omit hdistinct hkeys in
theorem forall_literal_keys_iff :
    (∀ key ∈ ["value", "regex", "bigint"], AgreeAt members built key) ↔
      AgreeAt members built "value" ∧ Agree (members.lookup "regex") (built.lookup "regex") ∧
        Agree (members.lookup "bigint") (built.lookup "bigint") := by
  have hregex : AgreeAt members built "regex" ↔ _ :=
    agreeAt_literal_extra htag hbuiltTag (by decide)
  have hbigint : AgreeAt members built "bigint" ↔ _ :=
    agreeAt_literal_extra htag hbuiltTag (by decide)
  rw [← hregex, ← hbigint]
  simp

theorem agreeAt_regexp_iff {regex : Json} {pattern flags : String}
    (hregex : members.lookup "regex" = some regex)
    (hpattern : regex.get? "pattern" = some (.string pattern))
    (hflags : regex.get? "flags" = some (.string flags))
    (hbuiltRegex : built.lookup "regex" =
      some (.object [("pattern", .string pattern), ("flags", .string flags)]))
    (hbuiltBigint : built.lookup "bigint" = none) :
    (∀ key ∈ ["value", "regex", "bigint"], AgreeAt members built key) ↔
      FaithfulLiteral members := by
  have hhost : AgreeAt members built "value" :=
    agreeAt_host_value hdistinct hkeys htag hbuiltTag (.inl (by simp [hregex]))
      (.inl (by simp [hbuiltRegex]))
  have hparts : regex.Distinct := hdistinct.of_holds (.field (Members.mem_of_lookup hregex))
  rw [forall_literal_keys_iff htag hbuiltTag,
    FaithfulLiteral.regexp_iff hregex, hregex, hbuiltRegex, hbuiltBigint, agree_none_iff,
    agree_regex_iff hparts hpattern hflags]
  exact and_iff_right hhost

theorem agreeAt_bigint_iff {digits : String}
    (hbigint : members.lookup "bigint" = some (.string digits))
    (hbuiltRegex : built.lookup "regex" = none)
    (hbuiltBigint : built.lookup "bigint" = some (.string digits)) :
    (∀ key ∈ ["value", "regex", "bigint"], AgreeAt members built key) ↔
      FaithfulLiteral members := by
  have hhost : AgreeAt members built "value" :=
    agreeAt_host_value hdistinct hkeys htag hbuiltTag (.inr (by simp [hbigint]))
      (.inr (by simp [hbuiltBigint]))
  rw [forall_literal_keys_iff htag hbuiltTag,
    FaithfulLiteral.bigint_iff hbigint, hbigint, hbuiltRegex, hbuiltBigint, agree_none_iff]
  constructor
  · exact fun hagree => hagree.2.1
  · exact fun hregex => ⟨hhost, hregex, agree_string digits⟩

omit hdistinct hkeys in
theorem agreeAt_plain_iff {value : Json} {literal : Literal} {fields : Members}
    (hregex : members.Lacks "regex") (hbigint : members.Lacks "bigint")
    (hvalue : members.lookup "value" = some value) (hplain : PlainLiteral value literal)
    (hbuilt : BuiltLiteral literal fields)
    (hlookup : ∀ key ∈ ["value", "regex", "bigint"], built.lookup key = fields.lookup key) :
    (∀ key ∈ ["value", "regex", "bigint"], AgreeAt members built key) ↔
      FaithfulLiteral members := by
  have hbuiltPlain : built.lookup "regex" = none ∧ built.lookup "bigint" = none := by
    rw [hlookup "regex" (by decide), hlookup "bigint" (by decide)]
    exact hbuilt.lookup_of_plain hplain
  rw [forall_literal_keys_iff htag hbuiltTag,
    FaithfulLiteral.plain_iff hregex hbigint, hbuiltPlain.1, hbuiltPlain.2, agree_none_iff,
    agree_none_iff, and_comm]
  refine and_congr_right fun habsent => ?_
  rw [agreeAt_plain_value htag hbuiltTag habsent hbuiltPlain, hvalue,
    hlookup "value" (by decide), agree_plain_iff hplain hbuilt]
  simp

theorem agreeAt_literal_iff {literal : Literal} {fields : Members}
    (himage : LiteralImage members literal) (hbuilt : BuiltLiteral literal fields)
    (hlookup : ∀ key ∈ ["value", "regex", "bigint"], built.lookup key = fields.lookup key) :
    (∀ key ∈ ["value", "regex", "bigint"], AgreeAt members built key) ↔
      FaithfulLiteral members := by
  cases himage with
  | regexp hregex hpattern hflags =>
      cases hbuilt
      exact agreeAt_regexp_iff hdistinct hkeys htag hbuiltTag hregex hpattern hflags
        (hlookup "regex" (by decide)) (hlookup "bigint" (by decide))
  | bigint _ hbigint =>
      cases hbuilt
      exact agreeAt_bigint_iff hdistinct hkeys htag hbuiltTag hbigint
        (hlookup "regex" (by decide)) (hlookup "bigint" (by decide))
  | plain hregex hbigint hvalue hplain =>
      exact agreeAt_plain_iff htag hbuiltTag hregex hbigint hvalue hplain
        hbuilt hlookup

end Literals

/-! ## Slots -/
section Slots

variable {members built : Members} {nodeType : NodeType}
  (hdistinct : (Json.object members).Distinct) (hkeys : built.keys.Nodup)
  (htag : members.lookup "type" = some (.string nodeType.tag))
  (hbuiltTag : built.lookup "type" = some (.string nodeType.tag))

include hdistinct hkeys htag hbuiltTag

omit hdistinct hkeys in
theorem agreeAt_field_iff {slot : Slot} (hslot : slot ∈ nodeType.slots)
    (hflag : slot.kind ≠ .flag) (hliteral : slot.kind ≠ .literalValue) :
    AgreeAt members built slot.field ↔
      Agree (members.lookup slot.field) (built.lookup slot.field) :=
  agreeAt_iff_agree (fun _ => ObjectRole.drops_slot htag hslot hflag hliteral)
    fun _ => ObjectRole.drops_slot hbuiltTag hslot hflag hliteral

/-- A flag agrees with itself; one that is false is left out however it is written. -/
theorem agreeAt_flag {field : String} {value : Bool}
    (hslot : (⟨field, .flag⟩ : Slot) ∈ nodeType.slots)
    (hfield : members.lookup field = some (.bool value) ∨ members.Lacks field ∧ value = false)
    (hbuilt : built.lookup field = some (.bool value)) : AgreeAt members built field := by
  have hdrops : ∀ {flag : Json}, (ObjectRole.ofMembers members).drops field flag = true ↔
      flag = .null ∨ flag = .bool false := ObjectRole.drops_flag htag hslot rfl
  have hbuiltDrops : ∀ {flag : Json}, (ObjectRole.ofMembers built).drops field flag = true ↔
      flag = .null ∨ flag = .bool false := ObjectRole.drops_flag hbuiltTag hslot rfl
  unfold AgreeAt
  cases value with
  | false =>
      have hdefault : ∀ flag, members.lookup field = some flag →
          flag = .null ∨ flag = .bool false := by
        intro flag hflag
        rcases hfield with hfield | ⟨hfield | hfield, -⟩
        · exact .inr (Option.some.inj (hflag.symm.trans hfield))
        · cases hflag.symm.trans hfield
        · exact .inl (Option.some.inj (hflag.symm.trans hfield))
      rw [lookup_normal_of_always hdistinct.keys_nodup fun flag hflag =>
          hdrops.mpr (hdefault flag hflag),
        Members.lookup_normal_of_dropped hkeys hbuilt (hbuiltDrops.mpr (.inr rfl))]
      exact .none
  | true =>
      have hfield : members.lookup field = some (.bool true) :=
        hfield.resolve_right fun hlacks => nomatch hlacks.2
      rw [Members.lookup_normal_of_kept hdistinct.keys_nodup hfield
          (Bool.eq_false_iff.mpr fun hdropped => by simpa using hdrops.mp hdropped),
        Members.lookup_normal_of_kept hkeys hbuilt
          (Bool.eq_false_iff.mpr fun hdropped => by simpa using hbuiltDrops.mp hdropped)]
      simp

end Slots

section Items

variable {inner : Json → Prop} {kind : SlotKind}

/-- Lists agree when the nodes in them do; holes are on the same places. -/
theorem forall₂_equivalent_iff {items : List Json} {args : List (Arg Call)} {values : List Json}
    (hitems : List.Forall₂ (ItemImage Converts kind) items args)
    (hvalues : List.Forall₂ (BuiltItem Evaluates kind) args values)
    (hchild : ∀ item ∈ items, ∀ call value, Converts item call → Evaluates call value →
      (item.normal.equivalent value.normal = true ↔ inner item)) :
    List.Forall₂ (fun left right => left.equivalent right = true) (items.map Json.normal)
        (values.map Json.normal) ↔
      ∀ item ∈ items, item ≠ .null → inner item := by
  induction hitems generalizing values with
  | nil =>
      cases hvalues
      simp
  | @cons item arg items args hitem _ ih =>
      cases hvalues with
      | @cons _ value _ values hvalue hvalues =>
          rw [List.map_cons, List.map_cons, List.forall₂_cons, List.forall_mem_cons,
            ih hvalues fun item hmem => hchild item (.tail _ hmem)]
          refine and_congr_left fun _ => ?_
          cases hitem with
          | hole =>
              cases hvalue
              simp
          | node hconverts =>
              cases hvalue with
              | node hevaluates =>
                  rw [hchild item (.head _) _ _ hconverts hevaluates]
                  simp [hconverts.ne_null]

end Items

section Slots

variable {members built : Members} {nodeType : NodeType} {inner : Json → Prop}
  (hdistinct : (Json.object members).Distinct) (hkeys : built.keys.Nodup)
  (htag : members.lookup "type" = some (.string nodeType.tag))
  (hbuiltTag : built.lookup "type" = some (.string nodeType.tag))
  (hchild : ∀ value, members.Holds value → ∀ call tree, Converts value call →
    Evaluates call tree → (value.normal.equivalent tree.normal = true ↔ inner value))

include hdistinct hkeys htag hbuiltTag

theorem agree_literalSlot_iff {slot : Slot} {arg : Arg Call} {fields : Members}
    (hliteral : slot.kind = .literalValue) (hslot : slot ∈ nodeType.slots)
    (himage : SlotImage Converts members slot arg) (hbuilt : BuiltSlot Evaluates slot arg fields)
    (hlookup : ∀ key ∈ slot.keys, built.lookup key = fields.lookup key) :
    (∀ key ∈ slot.keys, AgreeAt members built key) ↔ FaithfulSlot inner members slot := by
  obtain rfl := NodeType.eq_literal_of_literalValue hslot hliteral
  obtain rfl := List.mem_singleton.mp hslot
  cases himage with
  | literal himage =>
      obtain ⟨_, hbuilt, ⟨⟩⟩ := hbuilt.exists_builtLiteral
      rw [FaithfulSlot.literal_iff rfl]
      exact agreeAt_literal_iff hdistinct hkeys htag hbuiltTag himage hbuilt hlookup
  | child hkind => cases hkind.holdsNodes
  | absentChild hkind => cases hkind
  | list hkind => cases hkind

include hchild

theorem agreeAt_slot_iff {slot : Slot} {arg : Arg Call} {fields : Members}
    (hliteral : slot.kind ≠ .literalValue) (hslot : slot ∈ nodeType.slots)
    (himage : SlotImage Converts members slot arg) (hbuilt : BuiltSlot Evaluates slot arg fields)
    (hlookup : built.lookup slot.field = fields.lookup slot.field) :
    AgreeAt members built slot.field ↔ FaithfulSlot inner members slot := by
  have hfield : slot.kind ≠ .flag → (AgreeAt members built slot.field ↔
      Agree (members.lookup slot.field) (fields.lookup slot.field)) := fun hflag => by
    rw [agreeAt_field_iff htag hbuiltTag hslot hflag hliteral, hlookup]
  cases himage with
  | name hname =>
      cases hbuilt
      refine iff_of_true ((hfield nofun).mpr ?_) (.of_scalar rfl nofun nofun)
      rw [hname, List.lookup_cons_self]
      exact agree_string _
  | keyword hkeyword hword =>
      cases hbuilt
      refine iff_of_true ((hfield nofun).mpr ?_) (.of_scalar rfl nofun nofun)
      rw [hkeyword, List.lookup_cons_self]
      exact agree_string _
  | flag hflag =>
      cases hbuilt
      refine iff_of_true ?_ (.of_scalar rfl nofun nofun)
      rw [List.lookup_cons_self] at hlookup
      exact agreeAt_flag hdistinct hkeys htag hbuiltTag hslot (.inl hflag) hlookup
  | absentFlag hflag =>
      cases hbuilt
      refine iff_of_true ?_ (.of_scalar rfl nofun nofun)
      rw [List.lookup_cons_self] at hlookup
      exact agreeAt_flag hdistinct hkeys htag hbuiltTag hslot (.inr ⟨hflag, rfl⟩) hlookup
  | @child field kind value call hkind hvalue hconverts =>
      cases hbuilt with
      | @child _ _ _ tree _ hevaluates =>
          have hnull := hconverts.ne_null
          rw [hfield (SlotKind.ne_of_holdsNodes hkind.holdsNodes rfl), hvalue,
            List.lookup_cons_self, FaithfulSlot.child_iff hkind hvalue hnull]
          refine Option.rel_some_some.trans ?_
          exact hchild value (.field (Members.mem_of_lookup hvalue)) call tree hconverts hevaluates
  | @absentChild field kind hkind habsent =>
      rw [hfield (SlotKind.ne_of_holdsNodes (SlotKind.holdsNodes_of_isOptional hkind) rfl)]
      cases hbuilt with
      | optionalChild =>
          rw [List.lookup_cons_self, agree_null_iff, FaithfulSlot.optionalChild_iff habsent]
      | legacyChild =>
          rw [List.lookup_nil, agree_none_iff, FaithfulSlot.legacyChild_iff habsent]
  | @list field kind items args hkind hitems himages =>
      cases hbuilt with
      | @list _ _ _ values _ hvalues =>
          have hnodes := SlotKind.holdsNodes_of_isList hkind
          rw [hfield (SlotKind.ne_of_holdsNodes hnodes rfl), hitems, List.lookup_cons_self,
            FaithfulSlot.list_iff hkind hitems]
          refine Option.rel_some_some.trans ?_
          rw [Json.normal_array, Json.normal_array, Json.equivalent_array_iff,
            forall₂_equivalent_iff himages hvalues fun item hitem =>
              hchild item (.item (Members.mem_of_lookup hitems) hitem)]
  | literal => exact absurd rfl hliteral
  | @template field value cooked raw hvalue htemplate =>
      cases hbuilt
      rw [hfield nofun, hvalue, List.lookup_cons_self, FaithfulSlot.template_iff hvalue,
        agree_template_iff htemplate (hdistinct.of_holds (.field (Members.mem_of_lookup hvalue)))]

theorem agree_slot_iff {slot : Slot} {arg : Arg Call} {fields : Members}
    (hslot : slot ∈ nodeType.slots) (himage : SlotImage Converts members slot arg)
    (hbuilt : BuiltSlot Evaluates slot arg fields)
    (hlookup : ∀ key ∈ slot.keys, built.lookup key = fields.lookup key) :
    (∀ key ∈ slot.keys, AgreeAt members built key) ↔ FaithfulSlot inner members slot := by
  by_cases hliteral : slot.kind = .literalValue
  · exact agree_literalSlot_iff hdistinct hkeys htag hbuiltTag hliteral hslot himage hbuilt hlookup
  · rw [Slot.keys_eq hliteral, List.forall_mem_singleton] at hlookup ⊢
    exact agreeAt_slot_iff hdistinct hkeys htag hbuiltTag hchild hliteral hslot himage hbuilt
      hlookup

end Slots

/-! ## Nodes -/

section Nodes

variable {members built : Members} {nodeType : NodeType} {args : List (Arg Call)}
  (hdistinct : (Json.object members).Distinct) (hhead : NodeHead members nodeType)
  (hobject : BuiltObject Evaluates built nodeType args)

include hdistinct hhead hobject

theorem agreeAt_type : AgreeAt members built "type" := by
  unfold AgreeAt
  rw [Members.lookup_normal_of_kept hdistinct.keys_nodup hhead.tag drops_type_of_any,
    Members.lookup_normal_of_kept hobject.keys_nodup hobject.tag drops_type_of_any]
  simp

theorem agreeAt_metadata {key : String} (hkey : key ∈ metadataKeys) :
    AgreeAt members built key := by
  unfold AgreeAt
  rw [lookup_normal_of_always hdistinct.keys_nodup fun _ _ =>
      ObjectRole.drops_metadata hhead.tag hkey,
    lookup_normal_of_always hobject.keys_nodup fun _ _ =>
      ObjectRole.drops_metadata hobject.tag hkey]
  exact .none

theorem agreeAt_unslotted {key : String} (hkey : key ∈ nodeType.unslottedFields) :
    AgreeAt members built key := by
  unfold AgreeAt
  rw [lookup_normal_of_always hdistinct.keys_nodup fun value hvalue =>
      ObjectRole.drops_unslotted hhead.tag hkey (hhead.vacant key hkey value hvalue),
    Members.lookup_normal_of_none hobject.keys_nodup (hobject.lookup_unslotted hkey)]
  exact .none

omit hdistinct in
/-- A key that the type does not know is kept and never built. -/
theorem agreeAt_unknown_iff {key : String} (hkey : key ∉ nodeType.knownKeys) :
    AgreeAt members built key ↔ key ∉ members.keys := by
  simp only [NodeType.knownKeys, List.mem_cons, List.mem_append, not_or] at hkey
  obtain ⟨htype, hmetadata, hunslotted, hextra, hfield⟩ := hkey
  have habsent : built.lookup key = none := by
    refine hobject.lookup_eq_none fun hbuilt => ?_
    rcases NodeType.mem_builtKeys_iff.mp hbuilt with hkey | hkey | hkey
    · exact htype hkey
    · exact hextra hkey
    · exact hfield hkey
  rw [agreeAt_iff_agree (fun _ => ObjectRole.drops_other hhead.tag hmetadata hunslotted hfield)
      fun _ => ObjectRole.drops_other hobject.tag hmetadata hunslotted hfield,
    habsent, agree_none_iff, Members.lookup_eq_none_iff]

omit hdistinct in
/-- The constant fields of arrow functions must be there with their values. -/
theorem agreeAt_implied_iff :
    (∀ key ∈ (Estree.impliedFields nodeType).keys, AgreeAt members built key) ↔
      (nodeType = .arrowFunctionExpression →
        members.lookup "id" = some .null ∧ members.lookup "generator" = some (.bool false)) := by
  by_cases harrow : nodeType = .arrowFunctionExpression
  · subst harrow
    have hagree : ∀ key ∈ NodeType.extraKeys .arrowFunctionExpression,
        (AgreeAt members built key ↔ Agree (members.lookup key) (built.lookup key)) :=
      fun key hkey => agreeAt_iff_agree (fun _ => ObjectRole.drops_extra hhead.tag hkey)
        fun _ => ObjectRole.drops_extra hobject.tag hkey
    have hid : built.lookup "id" = some .null := hobject.implied "id" (by decide)
    have hgenerator : built.lookup "generator" = some (.bool false) :=
      hobject.implied "generator" (by decide)
    change (∀ key ∈ ["id", "generator"], AgreeAt members built key) ↔ _
    rw [List.forall_mem_cons, List.forall_mem_singleton, hagree "id" (by decide),
      hagree "generator" (by decide), hid, hgenerator, agree_null_iff, agree_bool_iff]
    simp
  · have hnone : Estree.impliedFields nodeType = [] := by
      cases nodeType <;> first | rfl | exact absurd rfl harrow
    simp [hnone, Members.keys, harrow]

/-- Known keys apart, only those of slots and of constant fields can differ. -/
theorem forall_agreeAt_iff :
    (∀ key, AgreeAt members built key) ↔
      (∀ key ∈ members.keys, key ∈ nodeType.knownKeys) ∧
        (∀ key ∈ (Estree.impliedFields nodeType).keys, AgreeAt members built key) ∧
          ∀ slot ∈ nodeType.slots, ∀ key ∈ slot.keys, AgreeAt members built key := by
  constructor
  · intro hagree
    refine ⟨fun key hkey => ?_, fun key _ => hagree key, fun _ _ key _ => hagree key⟩
    by_contra hunknown
    exact (agreeAt_unknown_iff hhead hobject hunknown).mp (hagree key) hkey
  · rintro ⟨hknown, himplied, hslots⟩ key
    by_cases hkey : key ∈ nodeType.knownKeys
    · by_cases hbuilt : key ∈ nodeType.builtKeys
      · rcases List.mem_cons.mp hbuilt with rfl | hbuilt
        · exact agreeAt_type hdistinct hhead hobject
        · rcases List.mem_append.mp hbuilt with hslot | hbuilt
          · obtain ⟨slot, hslot, hkey⟩ := List.mem_flatMap.mp hslot
            exact hslots slot hslot key hkey
          · exact himplied key hbuilt
      · rw [NodeType.mem_builtKeys_iff, not_or, not_or] at hbuilt
        simp only [NodeType.knownKeys, List.mem_cons, List.mem_append, hbuilt, or_false,
          false_or] at hkey
        rcases hkey with hkey | hkey
        · exact agreeAt_metadata hdistinct hhead hobject hkey
        · exact agreeAt_unslotted hdistinct hhead hobject hkey
    · refine (agreeAt_unknown_iff hhead hobject hkey).mpr fun hmem => ?_
      exact hkey (hknown key hmem)

end Nodes

/-! ## Trees -/

theorem equivalent_normal_iff_faithfulTree {value : Json} {call : Call} {tree : Json}
    (hdistinct : value.Distinct) (hconverts : Converts value call)
    (hevaluates : Evaluates call tree) :
    value.normal.equivalent tree.normal = true ↔ FaithfulTree value := by
  -- The induction is on the tree and not on the call, which has lost the keys without a slot.
  induction value using Json.fieldInduction generalizing call tree with
  | other value hvalue =>
      obtain ⟨members, rfl⟩ := hconverts.isObject
      cases hvalue
  | object members ih =>
      cases converts_iff.mp hconverts with
      | @mk _ nodeType args hhead hslots =>
          obtain ⟨built, rfl, hobject⟩ := (evaluates_iff.mp hevaluates).exists_builtObject
          have hslot : ∀ slot ∈ nodeType.slots,
              ((∀ key ∈ slot.keys, AgreeAt members built key) ↔
                FaithfulSlot FaithfulTree members slot) := by
            intro slot hslot
            obtain ⟨arg, himage, fields, hbuilt, hlookup⟩ := exists_forall₂_iff.mp
              ⟨_, hslots.mp (fun _ _ himage hbuilt => And.intro himage hbuilt) hobject.slots⟩
              slot hslot
            exact agree_slot_iff hdistinct hobject.keys_nodup hhead.tag hobject.tag
              (fun value hholds call tree => ih value hholds (hdistinct.of_holds hholds))
              hslot himage hbuilt hlookup
          rw [Json.normal_object, Json.normal_object, Json.equivalent_object_iff
            (hdistinct.keys_nodup.sublist Json.keys_normalMembers_sublist)
            (hobject.keys_nodup.sublist Json.keys_normalMembers_sublist)]
          change (∀ key, AgreeAt members built key) ↔ _
          rw [forall_agreeAt_iff hdistinct hhead hobject,
            agreeAt_implied_iff hhead hobject, faithfulTree_object_iff hhead.tag]
          constructor
          · rintro ⟨hknown, harrow, hagree⟩
            exact (forall_faithfulSlot_iff hknown harrow).mp fun slot hmem =>
              (hslot slot hmem).mp (hagree slot hmem)
          · rintro ⟨hfaithful, hnodes⟩
            refine ⟨hfaithful.keys, hfaithful.arrow, fun slot hmem => (hslot slot hmem).mpr ?_⟩
            exact (forall_faithfulSlot_iff hfaithful.keys hfaithful.arrow).mpr
              ⟨hfaithful, hnodes⟩ slot hmem

end BuilderCalls
