import BuilderCalls.Proofs.Spelling

/-!
# The normal form is canonical

A member that is kept says of its object, and in its normal form, what it said before: its tag,
whether it is a regular expression or a bigint, and whether a field is vacant.  So what was kept
once is kept again, and the normal form of a normal form is this form itself, with its keys in
their order.  Values that differ in the order of members only have normal forms that differ in
nothing else.
-/

namespace BuilderCalls

/-! ## Roles -/

namespace Json

theorem string?_normal (value : Json) : value.normal.string? = value.string? := by
  cases value <;> simp [string?]

end Json

/-- The members of the normal form say the same about the object. -/
theorem ObjectRole.ofMembers_normal (members : Members) :
    ofMembers (Json.normalMembers (ofMembers members) members) = ofMembers members := by
  refine (ofMembers_congr ?_ fun htag key hkey => ?_).symm
  · rw [Json.lookup_normalMembers_of_kept fun _ => drops_type_of_any, Option.bind_map]
    exact Option.bind_congr fun value _ => value.string?_normal.symm
  · rw [Json.lookup_normalMembers_of_kept fun _ => drops_extra htag hkey, Option.isSome_map]

/-! ## Vacant fields -/

namespace Json

theorem normalMembers_untagged {members : Members}
    (htag : (members.lookup "type").bind string? = none) (part : Members) :
    (normalMembers (.ofMembers members) part).isEmpty = part.isEmpty := by
  cases part with
  | nil => rfl
  | cons member rest =>
      obtain ⟨key, value⟩ := member
      rw [normalMembers_cons, ObjectRole.drops_untagged htag, if_neg Bool.false_ne_true]
      rfl

/-- A tag is kept, and without a tag everything is. -/
theorem isEmpty_normalMembers (members : Members) :
    (normalMembers (.ofMembers members) members).isEmpty = members.isEmpty := by
  cases htag : (members.lookup "type").bind string? with
  | none => exact normalMembers_untagged htag members
  | some tag =>
      have hkept : ∀ value, (ObjectRole.ofMembers members).drops "type" value = false :=
        fun _ => drops_type_of_any
      have hlookup := lookup_normalMembers_of_kept hkept members
      rw [Node.string?_eq_some_iff] at htag
      rw [htag, Option.map_some] at hlookup
      rw [List.isEmpty_eq_false_iff.mpr (List.ne_nil_of_mem (Members.mem_of_lookup hlookup)),
        List.isEmpty_eq_false_iff.mpr (List.ne_nil_of_mem (Members.mem_of_lookup htag))]

theorem isVacant_normal (value : Json) : value.normal.isVacant = value.isVacant := by
  cases value with
  | object members =>
      rw [normal_object]
      exact isEmpty_normalMembers members
  | array items => simp [isVacant]
  | null | bool | number | string => rfl

end Json

theorem NodeType.isDefault_normal (nodeType : NodeType) (field : String) (value : Json) :
    nodeType.isDefault field value.normal = nodeType.isDefault field value := by
  unfold isDefault
  rw [value.isVacant_normal]
  cases value <;> simp

/-- What is kept is kept again. -/
theorem ObjectRole.drops_normal (role : ObjectRole) (key : String) (value : Json) :
    role.drops key value.normal = role.drops key value := by
  unfold drops
  cases role.nodeType with
  | none => rfl
  | some nodeType => rw [Option.any_some, Option.any_some, nodeType.isDefault_normal]

/-! ## Normal forms of normal forms -/

namespace Json

mutual

theorem normal_normal : (value : Json) → value.normal.normal = value.normal
  | .object members => by
      rw [normal_object, normal_object, ObjectRole.ofMembers_normal, normalMembers_normal]
  | .array items => by
      rw [normal_array, normal_array, normal_items]
  | .null | .bool _ | .number _ | .string _ => rfl

theorem normal_items : (items : List Json) → (items.map normal).map normal = items.map normal
  | [] => rfl
  | item :: items => by
      rw [List.map_cons, List.map_cons, normal_normal item, normal_items items]

theorem normalMembers_normal (role : ObjectRole) : (members : Members) →
    normalMembers role (normalMembers role members) = normalMembers role members
  | [] => rfl
  | (key, value) :: rest => by
      have hrest := normalMembers_normal role rest
      rw [normalMembers_cons]
      split
      next => exact hrest
      next hkept =>
        rw [normalMembers_cons, role.drops_normal, if_neg hkept, hrest, normal_normal value]

end

end Json

/-! ## The order of members -/

theorem ItemsSpelledAlike.of_forall₂ {items items' : List Json}
    (halike : List.Forall₂ SpelledAlike items items') : ItemsSpelledAlike items items' := by
  induction halike with
  | nil => exact .nil
  | cons hitem _ ih => exact .cons hitem ih

/-- Another order of members is another spelling. -/
theorem SpelledAlike.of_equivalent {value value' : Json} (hdistinct : value.Distinct)
    (hdistinct' : value'.Distinct) (hequivalent : value.equivalent value' = true) :
    SpelledAlike value value' := by
  induction hdistinct generalizing value' with
  | null | bool | number | string =>
      rcases Json.equivalent_cases hequivalent with rfl | ⟨_, _, ⟨⟩, _⟩ | ⟨_, _, ⟨⟩, _⟩
      exact .same _
  | @array items _ ih =>
      obtain ⟨items', rfl⟩ := Json.exists_array_of_equivalent hequivalent
      cases hdistinct' with
      | array hitems' =>
          rw [Json.equivalent_array_iff] at hequivalent
          refine .array (.of_forall₂ (Json.forall₂_imp_of_mem hequivalent ?_))
          exact fun item hitem item' hitem' => ih item hitem (hitems' item' hitem')
  | @object members hkeys _ ih =>
      obtain ⟨members', rfl⟩ := Json.exists_object_of_equivalent hequivalent
      cases hdistinct' with
      | object hkeys' hmembers' =>
          rw [Json.equivalent_object_iff hkeys hkeys'] at hequivalent
          refine .object fun key => ?_
          rcases Json.rel_iff.mp (hequivalent key) with
            ⟨hnone, hnone'⟩ | ⟨value, value', hvalue, hvalue', hsame⟩
          · exact .absent hnone hnone'
          · exact .value hvalue hvalue' (ih _ (Members.mem_of_lookup hvalue)
              (hmembers' _ (Members.mem_of_lookup hvalue')) hsame)

/--
A normal form is its own normal form, key by key in order; and values that are equal up to the
order of members at any depth have normal forms that are.
-/
theorem normal_forms_are_canonical (value : Json) :
    value.normal.normal = value.normal ∧
    ∀ other, value.Distinct → other.Distinct → value.equivalent other = true →
      value.normal.equivalent other.normal = true := by
  refine ⟨value.normal_normal, fun other hdistinct hdistinct' hequivalent => ?_⟩
  have halike := SpelledAlike.of_equivalent hdistinct hdistinct' hequivalent
  exact halike.equivalent_normal hdistinct hdistinct'

/-- A pattern whose `value` is the parser's object, with data that looks like metadata. -/
def matcherTree : Json :=
  .object [("type", .string "Literal"), ("value", .object [("raw", .bool true)]),
    ("raw", .string "/a/"),
    ("regex", .object [("pattern", .string "a"), ("flags", .string ""), ("start", .null)])]

/-- The same with its members in another order. -/
def reorderedMatcherTree : Json :=
  .object [("regex", .object [("start", .null), ("flags", .string ""), ("pattern", .string "a")]),
    ("raw", .string "/a/"), ("type", .string "Literal"), ("value", .object [("raw", .bool true)])]

theorem distinct_matcherTrees : matcherTree.Distinct ∧ reorderedMatcherTree.Distinct := by
  have hvalue : (Json.object [("raw", .bool true)]).Distinct :=
    .object (by decide) (by simp [Json.Distinct.bool])
  have hregex : (Json.object [("pattern", .string "a"), ("flags", .string ""),
      ("start", .null)]).Distinct :=
    .object (by decide) (by simp [Json.Distinct.string, Json.Distinct.null])
  have hregex' : (Json.object [("start", .null), ("flags", .string ""),
      ("pattern", .string "a")]).Distinct :=
    .object (by decide) (by simp [Json.Distinct.string, Json.Distinct.null])
  exact ⟨.object (by decide) (by simp [Json.Distinct.string, hvalue, hregex]),
    .object (by decide) (by simp [Json.Distinct.string, hvalue, hregex'])⟩

theorem normal_forms_are_canonical_reordered :
    matcherTree.equivalent reorderedMatcherTree = true ∧
      matcherTree.normal.normal = matcherTree.normal ∧
        matcherTree.normal.equivalent reorderedMatcherTree.normal = true := by
  have hequivalent : matcherTree.equivalent reorderedMatcherTree = true := by decide
  obtain ⟨hagain, hsame⟩ := normal_forms_are_canonical matcherTree
  exact ⟨hequivalent, hagain, hsame reorderedMatcherTree distinct_matcherTrees.1
    distinct_matcherTrees.2 hequivalent⟩

end BuilderCalls
