import BuilderCalls.Estree
import BuilderCalls.Proofs.Json.Equivalent
import BuilderCalls.Proofs.NormalImage

/-!
# Comparing normal forms

The normal forms of two objects are equivalent when they agree at each key.  At a
key that neither drops they agree when the values there have equivalent normal
forms; the data of literals and template parts agrees when it has the same keys.
-/

namespace BuilderCalls

/-! ## Key by key -/

/-- The two values, if any, have equivalent normal forms. -/
def Agree (left right : Option Json) : Prop :=
  Option.Rel (fun left right => left.normal.equivalent right.normal = true) left right

theorem agree_null_iff {value : Option Json} :
    Agree value (some .null) ↔ value = some .null := by
  cases value <;> simp [Agree, Json.normal_eq_null_iff]

theorem agree_bool_iff {value : Option Json} {flag : Bool} :
    Agree value (some (.bool flag)) ↔ value = some (.bool flag) := by
  cases value <;> simp [Agree, Json.normal_eq_bool_iff]

theorem agree_none_iff {value : Option Json} : Agree value none ↔ value = none := by
  cases value <;> simp [Agree]

def AgreeAt (left right : Members) (key : String) : Prop :=
  Option.Rel (fun left right => left.equivalent right = true)
    ((Json.normalMembers (.ofMembers left) left).lookup key)
    ((Json.normalMembers (.ofMembers right) right).lookup key)

section Keys

variable {members : Members} (hkeys : members.keys.Nodup) {role : ObjectRole} {key : String}

include hkeys

theorem lookup_normal_of_always (hdropped : ∀ value, members.lookup key = some value →
    role.drops key value = true) : (Json.normalMembers role members).lookup key = none := by
  cases hlookup : members.lookup key with
  | none => exact Members.lookup_normal_of_none hkeys hlookup
  | some value => exact Members.lookup_normal_of_dropped hkeys hlookup (hdropped value hlookup)

end Keys

theorem agreeAt_iff_agree {left right : Members} {key : String}
    (hkeptLeft : ∀ value, (ObjectRole.ofMembers left).drops key value = false)
    (hkeptRight : ∀ value, (ObjectRole.ofMembers right).drops key value = false) :
    AgreeAt left right key ↔ Agree (left.lookup key) (right.lookup key) := by
  unfold AgreeAt Agree
  rw [Json.lookup_normalMembers_of_kept hkeptLeft, Json.lookup_normalMembers_of_kept hkeptRight]
  cases left.lookup key <;> cases right.lookup key <;> simp

/-! ## Data of literals and templates -/

theorem agree_object_iff {left right : Members} (hleft : (Json.object left).Distinct)
    (hright : right.keys.Nodup) :
    Agree (some (.object left)) (some (.object right)) ↔ ∀ key, AgreeAt left right key := by
  unfold Agree AgreeAt
  rw [Option.rel_some_some, Json.normal_object, Json.normal_object,
    Json.equivalent_object_iff (hleft.keys_nodup.sublist Json.keys_normalMembers_sublist)
      (hright.sublist Json.keys_normalMembers_sublist)]

theorem drops_type_of_any {members : Members} {value : Json} :
    (ObjectRole.ofMembers members).drops "type" value = false := by
  cases htag : (members.lookup "type").bind Json.string? with
  | none => exact ObjectRole.drops_untagged htag
  | some tag =>
      cases hnodeType : NodeType.ofTag? tag with
      | none =>
          simp [ObjectRole.ofMembers, ObjectRole.drops, htag, hnodeType, metadataKeys]
      | some nodeType =>
          rw [Node.string?_eq_some_iff] at htag
          exact ObjectRole.drops_type (NodeType.ofTag?_eq_some_iff.mp hnodeType ▸ htag)

/-- The role of an object is told by its tag and, in a literal, by the keys it has. -/
theorem ObjectRole.ofMembers_congr {members members' : Members}
    (htag : (members.lookup "type").bind Json.string? =
      (members'.lookup "type").bind Json.string?)
    (hextra : members.lookup "type" = some (.string NodeType.literal.tag) →
      ∀ key ∈ NodeType.literal.extraKeys,
        (members.lookup key).isSome = (members'.lookup key).isSome) :
    ofMembers members = ofMembers members' := by
  simp only [ofMembers]
  rw [← htag]
  by_cases hliteral : ((members.lookup "type").bind Json.string?).bind NodeType.ofTag? =
      some .literal
  · obtain ⟨tag, hstring, hnodeType⟩ := Option.bind_eq_some_iff.mp hliteral
    rw [Node.string?_eq_some_iff] at hstring
    obtain rfl := NodeType.ofTag?_eq_some_iff.mp hnodeType
    rw [hextra hstring "regex" (by decide), hextra hstring "bigint" (by decide)]
  · simp [hliteral]

theorem agreeAt_untagged_iff {left right : Members} (hleftTag : left.lookup "type" = none)
    (hrightTag : right.lookup "type" = none) (key : String) :
    AgreeAt left right key ↔ Agree (left.lookup key) (right.lookup key) :=
  agreeAt_iff_agree
    (fun _ => ObjectRole.drops_untagged (by rw [hleftTag]; rfl))
    (fun _ => ObjectRole.drops_untagged (by rw [hrightTag]; rfl))

/-- A side without a tag agrees only with a side without one: tags are never dropped. -/
theorem AgreeAt.untagged {left right : Members} (hright : right.keys.Nodup)
    (hagree : AgreeAt left right "type") (hrightTag : right.lookup "type" = none) :
    left.lookup "type" = none := by
  unfold AgreeAt at hagree
  rw [Json.lookup_normalMembers_of_kept fun _ => drops_type_of_any,
    Members.lookup_normal_of_none hright hrightTag] at hagree
  cases hlookup : left.lookup "type" with
  | none => rfl
  | some tag => simp [hlookup] at hagree

section Data

variable {first second : String} {firstValue secondValue : Json}

theorem keys_data : Members.keys [(first, firstValue), (second, secondValue)] = [first, second] :=
  rfl

theorem lookup_data_second (hne : first ≠ second) :
    List.lookup second [(first, firstValue), (second, secondValue)] = some secondValue := by
  rw [List.lookup_cons, beq_false_of_ne hne.symm]
  exact List.lookup_cons_self

theorem lookup_data_eq_none {key : String} (hfirst : key ≠ first) (hsecond : key ≠ second) :
    List.lookup key [(first, firstValue), (second, secondValue)] = none := by
  rw [Members.lookup_eq_none_iff, keys_data]
  simp [hfirst, hsecond]

/--
Data without a tag agrees with two fields exactly when it has these two keys; a tag
would be a third key.
-/
theorem agree_data_iff {parts : Members} (hdistinct : (Json.object parts).Distinct)
    (hne : first ≠ second) (hfirst : first ≠ "type") (hsecond : second ≠ "type") :
    Agree (some (.object parts))
        (some (.object [(first, firstValue), (second, secondValue)])) ↔
      parts.HasExactly first second ∧ Agree (parts.lookup first) (some firstValue) ∧
        Agree (parts.lookup second) (some secondValue) := by
  have hright : (Members.keys [(first, firstValue), (second, secondValue)]).Nodup := by
    rw [keys_data]
    simp [hne]
  have htag : List.lookup "type" [(first, firstValue), (second, secondValue)] = none :=
    lookup_data_eq_none hfirst.symm hsecond.symm
  have hfirstValue : List.lookup first [(first, firstValue), (second, secondValue)] =
      some firstValue := List.lookup_cons_self
  rw [agree_object_iff hdistinct hright]
  constructor
  · intro hagree
    have huntagged := (hagree "type").untagged hright htag
    simp only [agreeAt_untagged_iff huntagged htag] at hagree
    refine ⟨fun key => ?_, hfirstValue ▸ hagree first, lookup_data_second hne ▸ hagree second⟩
    rw [← Members.lookup_isSome_iff, Json.isSome_iff_of_rel (hagree key),
      Members.lookup_isSome_iff, keys_data]
    simp
  · rintro ⟨hexactly, hfirstAgree, hsecondAgree⟩ key
    have habsent : ∀ key, key ≠ first → key ≠ second → parts.lookup key = none := by
      intro key hkey hkey'
      rw [Members.lookup_eq_none_iff, hexactly]
      exact not_or.mpr ⟨hkey, hkey'⟩
    rw [agreeAt_untagged_iff (habsent "type" hfirst.symm hsecond.symm) htag]
    by_cases hkey : key = first
    · rwa [hkey, hfirstValue]
    · by_cases hkey' : key = second
      · rwa [hkey', lookup_data_second hne]
      · rw [habsent key hkey hkey', lookup_data_eq_none hkey hkey']
        exact .none

end Data

theorem agree_string (text : String) :
    Agree (some (.string text)) (some (.string text)) := by
  simp [Agree]

theorem agree_template_iff {value : Json} {cooked : Option String} {raw : String}
    (htemplate : TemplateImage value cooked raw) (hdistinct : value.Distinct) :
    Agree (some value) (some (Estree.templateValue cooked raw)) ↔
      ∃ parts : Members, value = .object parts ∧ parts.HasExactly "raw" "cooked" := by
  cases value with
  | object parts =>
      simp only [Estree.templateValue, Json.object.injEq, exists_eq_left',
        agree_data_iff hdistinct (show "raw" ≠ "cooked" by decide) (by decide) (by decide)]
      refine ⟨fun hagree => hagree.1, fun hexactly => ⟨hexactly, ?_⟩⟩
      have hraw : parts.lookup "raw" = some (.string raw) := htemplate.get?_raw
      rw [hraw]
      refine ⟨agree_string raw, ?_⟩
      cases htemplate with
      | cooked _ hcooked =>
          change parts.lookup "cooked" = _ at hcooked
          rw [hcooked]
          exact agree_string _
      | uncooked _ hcooked =>
          have hpresent : (parts.lookup "cooked").isSome = true :=
            Members.lookup_isSome_iff.mpr ((hexactly "cooked").mpr (.inr rfl))
          refine agree_null_iff.mpr (hcooked.resolve_left fun habsent => ?_)
          change parts.lookup "cooked" = none at habsent
          rw [habsent] at hpresent
          cases hpresent
  | _ => cases htemplate.get?_raw

theorem agree_regex_iff {regex : Json} {pattern flags : String} (hdistinct : regex.Distinct)
    (hpattern : regex.get? "pattern" = some (.string pattern))
    (hflags : regex.get? "flags" = some (.string flags)) :
    Agree (some regex)
        (some (.object [("pattern", .string pattern), ("flags", .string flags)])) ↔
      ∃ parts : Members, regex = .object parts ∧ parts.HasExactly "pattern" "flags" := by
  cases regex with
  | object parts =>
      change parts.lookup "pattern" = _ at hpattern
      change parts.lookup "flags" = _ at hflags
      simp only [Json.object.injEq, exists_eq_left', hpattern, hflags, agree_string, and_true,
        agree_data_iff hdistinct (show "pattern" ≠ "flags" by decide) (by decide) (by decide)]
  | _ => cases hpattern

/-! ## Literals -/

section Literals

variable {members built : Members} (hdistinct : (Json.object members).Distinct)
  (hkeys : built.keys.Nodup)
  (htag : members.lookup "type" = some (.string NodeType.literal.tag))
  (hbuiltTag : built.lookup "type" = some (.string NodeType.literal.tag))

include hdistinct hkeys htag hbuiltTag

omit hdistinct hkeys in
theorem agreeAt_literal_extra {key : String} (hkey : key ∈ ["regex", "bigint"]) :
    AgreeAt members built key ↔ Agree (members.lookup key) (built.lookup key) :=
  agreeAt_iff_agree (fun _ => ObjectRole.drops_extra htag hkey)
    fun _ => ObjectRole.drops_extra hbuiltTag hkey

/-- The `value` of a regular expression or bigint is left out on both sides. -/
theorem agreeAt_host_value
    (hspecial : (members.lookup "regex").isSome = true ∨ (members.lookup "bigint").isSome = true)
    (hbuiltSpecial : (built.lookup "regex").isSome = true ∨
      (built.lookup "bigint").isSome = true) : AgreeAt members built "value" := by
  unfold AgreeAt
  rw [lookup_normal_of_always hdistinct.keys_nodup fun _ _ =>
      (ObjectRole.drops_literal htag).mpr hspecial,
    lookup_normal_of_always hkeys fun _ _ =>
      (ObjectRole.drops_literal hbuiltTag).mpr hbuiltSpecial]
  exact .none

omit hdistinct hkeys in
theorem agreeAt_plain_value
    (hplain : members.lookup "regex" = none ∧ members.lookup "bigint" = none)
    (hbuiltPlain : built.lookup "regex" = none ∧ built.lookup "bigint" = none) :
    AgreeAt members built "value" ↔
      Agree (members.lookup "value") (built.lookup "value") := by
  refine agreeAt_iff_agree (fun _ => ?_) fun _ => ?_
  · rw [Bool.eq_false_iff, Ne, ObjectRole.drops_literal htag, hplain.1, hplain.2]
    decide
  · rw [Bool.eq_false_iff, Ne, ObjectRole.drops_literal hbuiltTag, hbuiltPlain.1, hbuiltPlain.2]
    decide

end Literals

end BuilderCalls
