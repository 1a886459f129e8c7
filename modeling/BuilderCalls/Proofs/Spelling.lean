import BuilderCalls.Proofs.Alike
import BuilderCalls.Proofs.Check
import BuilderCalls.Proofs.Statements

/-!
# What parsers may write differently

Parsers differ in the order of keys, in what they say of where a node stood, and in whether
they write flags that are not set and unslotted fields that are vacant.  Trees that differ in
nothing else have the same normal form, so where they also say the same in their slots they
get the same verdict from a check.
-/

namespace BuilderCalls

/-! ## Spellings -/

/-- What the members say at the key means nothing in a node with their tag. -/
inductive Silent (members : Members) (key : String) : Prop
  | metadata {tag : String} (htag : members.lookup "type" = some (.string tag))
      (hkey : key ∈ metadataKeys)
  | flag {nodeType : NodeType} (htag : members.lookup "type" = some (.string nodeType.tag))
      (hslot : ⟨key, .flag⟩ ∈ nodeType.slots) (hunset : members.Unset key)
  | unslotted {nodeType : NodeType} (htag : members.lookup "type" = some (.string nodeType.tag))
      (hkey : key ∈ nodeType.unslottedFields) (hvacant : members.Vacant key)

mutual

/-- The trees differ only in the order of members and in what means nothing. -/
inductive SpelledAlike : Json → Json → Prop
  | same (value : Json) : SpelledAlike value value
  | array {items items' : List Json} (hitems : ItemsSpelledAlike items items') :
      SpelledAlike (.array items) (.array items')
  | object {members members' : Members}
      (hfields : ∀ key, FieldSpelledAlike members members' key) :
      SpelledAlike (.object members) (.object members')

inductive ItemsSpelledAlike : List Json → List Json → Prop
  | nil : ItemsSpelledAlike [] []
  | cons {item item' : Json} {items items' : List Json} (hitem : SpelledAlike item item')
      (hitems : ItemsSpelledAlike items items') :
      ItemsSpelledAlike (item :: items) (item' :: items')

inductive FieldSpelledAlike : Members → Members → String → Prop
  | silent {members members' : Members} {key : String} (hsilent : Silent members key)
      (hsilent' : Silent members' key) : FieldSpelledAlike members members' key
  | absent {members members' : Members} {key : String} (hnone : members.lookup key = none)
      (hnone' : members'.lookup key = none) : FieldSpelledAlike members members' key
  | value {members members' : Members} {key : String} {value value' : Json}
      (hvalue : members.lookup key = some value) (hvalue' : members'.lookup key = some value')
      (halike : SpelledAlike value value') : FieldSpelledAlike members members' key

end

/-! ## Silent members -/

namespace Silent

variable {members : Members} {key : String}

theorem exists_tag (hsilent : Silent members key) :
    ∃ tag, members.lookup "type" = some (.string tag) := by
  cases hsilent with
  | metadata htag | flag htag | unslotted htag => exact ⟨_, htag⟩

/-- Normal forms leave out what is there, and would leave out null. -/
theorem drops (hsilent : Silent members key) {value : Json}
    (hvalue : members.lookup key = some value ∨ value = .null) :
    (ObjectRole.ofMembers members).drops key value = true := by
  cases hsilent with
  | metadata htag hkey => exact ObjectRole.drops_metadata htag hkey
  | flag htag hslot hunset =>
      refine (ObjectRole.drops_flag htag hslot rfl).mpr ?_
      rcases hvalue with hvalue | rfl
      · unfold Members.Unset Members.Lacks at hunset
        rw [hvalue] at hunset
        simpa using hunset
      · exact .inl rfl
  | unslotted htag hkey hvacant =>
      refine ObjectRole.drops_unslotted htag hkey ?_
      rcases hvalue with hvalue | rfl
      · exact hvacant value hvalue
      · rfl

theorem lookup_normal (hkeys : members.keys.Nodup) (hsilent : Silent members key) :
    (Json.normalMembers (.ofMembers members) members).lookup key = none :=
  lookup_normal_of_always hkeys fun _ hvalue => hsilent.drops (.inl hvalue)

theorem ne_type (hsilent : Silent members key) : key ≠ "type" := by
  rintro rfl
  cases (hsilent.drops (.inr rfl)).symm.trans drops_type_of_any

theorem not_mem_extraKeys {nodeType : NodeType}
    (htag : members.lookup "type" = some (.string nodeType.tag)) (hsilent : Silent members key) :
    key ∉ nodeType.extraKeys := fun hkey => by
  cases (hsilent.drops (.inr rfl)).symm.trans (ObjectRole.drops_extra htag hkey)

end Silent

/-! ## Normal forms -/

theorem ItemsSpelledAlike.isEmpty_eq {items items' : List Json}
    (halike : ItemsSpelledAlike items items') : items.isEmpty = items'.isEmpty := by
  cases halike <;> rfl

theorem ItemsSpelledAlike.forall₂ {items items' : List Json}
    (halike : ItemsSpelledAlike items items') : List.Forall₂ SpelledAlike items items' := by
  induction items generalizing items' with
  | nil =>
      cases halike
      exact .nil
  | cons item items ih =>
      cases halike with
      | cons hitem hitems => exact .cons hitem (ih hitems)

namespace SpelledAlike

theorem string?_eq {value value' : Json} (halike : SpelledAlike value value') :
    value.string? = value'.string? := by
  cases halike <;> rfl

/-- An object without members has nothing silent, having no tag. -/
theorem isEmpty_eq {members members' : Members}
    (hfields : ∀ key, FieldSpelledAlike members members' key) :
    members.isEmpty = members'.isEmpty := by
  cases members with
  | nil =>
      cases members' with
      | nil => rfl
      | cons member rest =>
          cases hfields member.1 with
          | silent hsilent => nomatch hsilent.exists_tag
          | absent _ hnone' => simp at hnone'
          | value hvalue => cases hvalue
  | cons member rest =>
      cases members' with
      | cons => rfl
      | nil =>
          cases hfields member.1 with
          | silent _ hsilent' => nomatch hsilent'.exists_tag
          | absent hnone => simp at hnone
          | value _ hvalue' => cases hvalue'

theorem isVacant_eq {value value' : Json} (halike : SpelledAlike value value') :
    value.isVacant = value'.isVacant := by
  cases halike with
  | same => rfl
  | array hitems => exact hitems.isEmpty_eq
  | object hfields => exact isEmpty_eq hfields

theorem isDefault_eq {value value' : Json} (halike : SpelledAlike value value')
    (nodeType : NodeType) (field : String) :
    nodeType.isDefault field value = nodeType.isDefault field value' := by
  unfold NodeType.isDefault
  rw [halike.isVacant_eq]
  cases halike <;> rfl

variable {members members' : Members}

theorem lookup_isSome_eq {key : String} (hfield : FieldSpelledAlike members members' key)
    (hsilent : ¬Silent members key) :
    (members.lookup key).isSome = (members'.lookup key).isSome := by
  cases hfield with
  | silent hsilent' => exact absurd hsilent' hsilent
  | absent hnone hnone' => rw [hnone, hnone']
  | value hvalue hvalue' => rw [hvalue, hvalue']; rfl

theorem tag_eq (hfields : ∀ key, FieldSpelledAlike members members' key) :
    (members.lookup "type").bind Json.string? = (members'.lookup "type").bind Json.string? := by
  cases hfields "type" with
  | silent hsilent => exact absurd rfl hsilent.ne_type
  | absent hnone hnone' => rw [hnone, hnone']
  | value hvalue hvalue' halike =>
      rw [hvalue, hvalue']
      exact halike.string?_eq

theorem role_eq (hfields : ∀ key, FieldSpelledAlike members members' key) :
    ObjectRole.ofMembers members = ObjectRole.ofMembers members' := by
  refine ObjectRole.ofMembers_congr (tag_eq hfields) fun htag key hkey => ?_
  exact lookup_isSome_eq (hfields key) fun hsilent => hsilent.not_mem_extraKeys htag hkey

theorem drops_eq {value value' : Json} (halike : SpelledAlike value value') (role : ObjectRole)
    (key : String) : role.drops key value = role.drops key value' := by
  unfold ObjectRole.drops
  cases role.nodeType with
  | none => rfl
  | some nodeType => rw [Option.any_some, Option.any_some, halike.isDefault_eq]

theorem agreeAt {key : String} (hkeys : members.keys.Nodup) (hkeys' : members'.keys.Nodup)
    (hrole : ObjectRole.ofMembers members = ObjectRole.ofMembers members')
    (hfield : FieldSpelledAlike members members' key)
    (hvalues : ∀ value value', members.lookup key = some value →
      members'.lookup key = some value' → SpelledAlike value value' →
        value.normal.equivalent value'.normal = true) : AgreeAt members members' key := by
  unfold AgreeAt
  cases hfield with
  | silent hsilent hsilent' =>
      rw [hsilent.lookup_normal hkeys, hsilent'.lookup_normal hkeys']
      exact .none
  | absent hnone hnone' =>
      rw [Members.lookup_normal_of_none hkeys hnone, Members.lookup_normal_of_none hkeys' hnone']
      exact .none
  | @value _ _ _ value value' hvalue hvalue' halike =>
      rw [Json.lookup_normalMembers hkeys, Json.lookup_normalMembers hkeys', hvalue, hvalue',
        ← hrole, Option.filter_some, Option.filter_some, halike.drops_eq]
      cases (ObjectRole.ofMembers members).drops key value' with
      | true => exact .none
      | false => exact .some (hvalues value value' hvalue hvalue' halike)

theorem equivalent_normal {value value' : Json} (hdistinct : value.Distinct)
    (hdistinct' : value'.Distinct) (halike : SpelledAlike value value') :
    value.normal.equivalent value'.normal = true := by
  induction hdistinct generalizing value' with
  | null | bool | number | string =>
      cases halike
      simp
  | @array items hitems ih =>
      cases halike with
      | same => exact Json.equivalent_refl (Json.Distinct.array hitems).normal
      | array halike =>
          cases hdistinct' with
          | array hitems' =>
              rw [Json.normal_array, Json.normal_array, Json.equivalent_array_iff,
                List.forall₂_map_left_iff, List.forall₂_map_right_iff]
              exact Json.forall₂_imp_of_mem halike.forall₂ fun item hitem item' hitem' =>
                ih item hitem (hitems' item' hitem')
  | @object members hkeys hmembers ih =>
      cases halike with
      | same => exact Json.equivalent_refl (Json.Distinct.object hkeys hmembers).normal
      | object hfields =>
          cases hdistinct' with
          | object hkeys' hmembers' =>
              rw [Json.normal_object, Json.normal_object, Json.equivalent_object_iff
                (hkeys.sublist Json.keys_normalMembers_sublist)
                (hkeys'.sublist Json.keys_normalMembers_sublist)]
              refine fun key => agreeAt hkeys hkeys' (role_eq hfields) (hfields key) ?_
              exact fun value value' hvalue hvalue' => ih _ (Members.mem_of_lookup hvalue)
                (hmembers' _ (Members.mem_of_lookup hvalue'))

end SpelledAlike

/-- It is enough to look at the keys of the two objects. -/
theorem FieldSpelledAlike.of_keys {members members' : Members}
    (hfields : ∀ key ∈ members.keys ++ members'.keys, FieldSpelledAlike members members' key)
    (key : String) : FieldSpelledAlike members members' key := by
  by_cases hkey : key ∈ members.keys ++ members'.keys
  · exact hfields key hkey
  · rw [List.mem_append, not_or] at hkey
    exact .absent (Members.lookup_eq_none_iff.mpr hkey.1) (Members.lookup_eq_none_iff.mpr hkey.2)

/-! ## Programs -/

theorem convert_same {value value' : Json} (hdistinct : value.Distinct)
    (hdistinct' : value'.Distinct) (halike : SlotsAlike value value') :
    SameOutcome Eq (convert value).result (convert value').result :=
  (convertValue_same hdistinct hdistinct' halike).under []

theorem Program.convertStatements_same {statements statements' : List Json}
    (hdistinct : ∀ statement ∈ statements, statement.Distinct)
    (hdistinct' : ∀ statement ∈ statements', statement.Distinct)
    (halike : ItemsAlike statements statements') (index : Nat) :
    SameOutcome Eq (convertStatements index statements).result
      (convertStatements index statements').result := by
  induction statements generalizing statements' index with
  | nil =>
      cases halike
      exact .ok rfl
  | cons statement rest ih =>
      cases halike with
      | cons hstatement hrest =>
          obtain ⟨hfirst, hdistinct⟩ := List.forall_mem_cons.mp hdistinct
          obtain ⟨hfirst', hdistinct'⟩ := List.forall_mem_cons.mp hdistinct'
          rw [convertStatements, convertStatements, Traced.result_bind, Traced.result_bind]
          refine ((convert_same hfirst hfirst' hstatement).under _).bind ?_
          rintro call _ rfl
          exact (ih hdistinct hdistinct' hrest (index + 1)).map_eq (call :: ·)

theorem RoundTrip.distinct_rebuilt {calls : List Call} {rebuilt : List Json}
    (hrebuilt : List.Forall₂ Evaluates calls rebuilt) : (Json.array rebuilt).Distinct := by
  refine .array fun tree htree => ?_
  obtain ⟨call, -, hevaluates⟩ := exists_mem_of_forall₂ hrebuilt htree
  exact (readsBack_of_evaluates hevaluates).1

/-- The verdicts are the same apart from the trees they print. -/
def CommandLine.SameVerdict (verdict verdict' : Option Discrepancy) : Prop :=
  verdict.map Discrepancy.reason = verdict'.map Discrepancy.reason

section Checks

variable {input input' : Json} {body body' : List Json}

theorem RoundTrip.sameTree_eq (hdistinct : (Json.array body).Distinct)
    (hdistinct' : (Json.array body').Distinct) (hspelled : ItemsSpelledAlike body body')
    {calls : List Call} {rebuilt : List Json} (hrebuilt : List.Forall₂ Evaluates calls rebuilt) :
    sameTree ⟨(Json.array body).normal, (Json.array rebuilt).normal, calls, rebuilt⟩ =
      sameTree ⟨(Json.array body').normal, (Json.array rebuilt).normal, calls, rebuilt⟩ := by
  have hbuilt := (distinct_rebuilt hrebuilt).normal
  have hsame := (SpelledAlike.array hspelled).equivalent_normal hdistinct hdistinct'
  rw [Bool.eq_iff_iff]
  constructor
  · intro htree
    exact Json.equivalent_trans hdistinct'.normal hdistinct.normal hbuilt
      (Json.equivalent_symm hdistinct.normal hdistinct'.normal hsame) htree
  · exact Json.equivalent_trans hdistinct.normal hdistinct'.normal hbuilt hsame

theorem RoundTrip.run_of_convert_error {failure : Failure}
    (hconvert : (Program.convert input).result = .error failure) : run input = .error failure := by
  unfold run
  cases hbody : (Program.body input).result with
  | error failure' =>
      rw [Program.result_convert_of_body_error hbody] at hconvert
      cases hconvert
      rfl
  | ok body =>
      rw [hconvert]
      rfl

theorem CommandLine.judge_of_convert_error {failure : Failure}
    (hconvert : (Program.convert input).result = .error failure) :
    judge input = .error failure := by
  unfold judge
  rw [RoundTrip.run_of_convert_error hconvert]
  rfl

variable (hbody : (Program.body input).result = .ok body)
  (hbody' : (Program.body input').result = .ok body')

include hbody

theorem RoundTrip.run_of_converts {calls : List Call} {rebuilt : List Json}
    (hcalls : List.Forall₂ Converts body calls) (hrebuilt : List.Forall₂ Evaluates calls rebuilt) :
    run input = .ok ⟨(Json.array body).normal, (Json.array rebuilt).normal, calls, rebuilt⟩ :=
  run_eq_ok_iff.mpr ⟨body, calls, rebuilt, hbody, hcalls, hrebuilt, rfl⟩

include hbody'

theorem CommandLine.judge_same (hdistinct : (Json.array body).Distinct)
    (hdistinct' : (Json.array body').Distinct) (halike : ItemsAlike body body')
    (hspelled : ItemsSpelledAlike body body') :
    SameOutcome SameVerdict (judge input) (judge input') := by
  have hitems : ∀ {items : List Json}, (Json.array items).Distinct →
      ∀ item ∈ items, item.Distinct := by
    rintro _ ⟨hitems⟩
    assumption
  have hconvert := Program.convertStatements_same (hitems hdistinct) (hitems hdistinct') halike 0
  rw [← Program.result_convert_of_body hbody, ← Program.result_convert_of_body hbody'] at hconvert
  generalize hresult : (Program.convert input).result = result at hconvert
  generalize hresult' : (Program.convert input').result = result' at hconvert
  cases hconvert with
  | error failure position =>
      rw [judge_of_convert_error hresult, judge_of_convert_error hresult']
      exact .error failure position
  | @ok calls _ hsame =>
      subst hsame
      have hcalls := (Program.convert_eq_ok_iff_of_body hbody).mp hresult
      have hcalls' := (Program.convert_eq_ok_iff_of_body hbody').mp hresult'
      obtain ⟨rebuilt, hrebuilt⟩ := exists_rebuilt hcalls
      rw [judge_of_run (RoundTrip.run_of_converts hbody hcalls hrebuilt),
        judge_of_run (RoundTrip.run_of_converts hbody' hcalls' hrebuilt),
        RoundTrip.sameTree_eq hdistinct hdistinct' hspelled hrebuilt]
      split
      · exact .ok rfl
      · exact .ok rfl

end Checks

/--
Trees that say the same in their slots are converted to the same call or refused for the
same reason at the same path.  If they are also spelled alike then their normal forms are
the same, and programs of such trees get the same verdict.
-/
theorem conversion_depends_only_on_slots :
    (∀ value value', value.Distinct → value'.Distinct → SlotsAlike value value' →
      (∃ call, Converts value call ∧ Converts value' call) ∨
        ∃ failure position, Fails value failure ∧
          Fails value' { failure with position := position }) ∧
    (∀ value value', value.Distinct → value'.Distinct → SlotsAlike value value' →
      SpelledAlike value value' → value.normal.equivalent value'.normal = true) ∧
    ∀ input input' body body', input.Distinct → input'.Distinct →
      (Program.body input).result = .ok body → (Program.body input').result = .ok body' →
        ItemsAlike body body' → ItemsSpelledAlike body body' →
          SameOutcome CommandLine.SameVerdict (CommandLine.judge input)
            (CommandLine.judge input') := by
  refine ⟨fun value value' hdistinct hdistinct' halike => ?_,
    fun value value' hdistinct hdistinct' _ hspelled => hspelled.equivalent_normal hdistinct
      hdistinct', fun input input' body body' hdistinct hdistinct' hbody hbody' => ?_⟩
  · have hsame := convert_same hdistinct hdistinct' halike
    generalize hresult : (convert value).result = result at hsame
    generalize hresult' : (convert value').result = result' at hsame
    cases hsame with
    | @ok call _ hcall => exact .inl ⟨call, hresult, hcall ▸ hresult'⟩
    | error failure position => exact .inr ⟨failure, position, hresult, hresult'⟩
  · exact CommandLine.judge_same hbody hbody'
      (.array (Program.distinct_of_body hdistinct hbody))
      (.array (Program.distinct_of_body hdistinct' hbody'))

def thisTree : Json :=
  .object [("type", .string "ThisExpression")]

/-- `import(this)`, without options. -/
def bareImport : Json :=
  .object [("type", .string "ImportExpression"), ("source", thisTree)]

/-- The same in another order and with vacant options. -/
def vacantImport : Json :=
  .object [("source", thisTree), ("options", .array []), ("type", .string "ImportExpression")]

/-- A call of the import with the flag that is not set. -/
def flaggedCall : Json :=
  .object [("type", .string "CallExpression"), ("callee", bareImport), ("arguments", .array []),
    ("optional", .bool false)]

/-- The same call without the flag and with a range. -/
def rangedCall : Json :=
  .object [("range", .array []), ("arguments", .array []), ("callee", vacantImport),
    ("type", .string "CallExpression")]

theorem distinct_calls : flaggedCall.Distinct ∧ rangedCall.Distinct := by
  have hempty : (Json.array []).Distinct := .array nofun
  have hthis : thisTree.Distinct := .object (by decide) (by simp [Json.Distinct.string])
  have hbare : bareImport.Distinct := .object (by decide) (by simp [Json.Distinct.string, hthis])
  have hvacant : vacantImport.Distinct :=
    .object (by decide) (by simp [Json.Distinct.string, hthis, hempty])
  exact ⟨.object (by decide) (by simp [Json.Distinct.string, Json.Distinct.bool, hbare, hempty]),
    .object (by decide) (by simp [Json.Distinct.string, hvacant, hempty])⟩

theorem slotsAlike_imports : SlotsAlike bareImport vacantImport := by
  refine @SlotsAlike.node _ _ .importExpression rfl rfl ?_ nofun ?_
  · rintro _ (_ | ⟨_, ⟨⟩⟩)
    refine .inl ⟨nofun, ?_⟩
    rintro _ ⟨⟩
    rfl
  · rintro _ (_ | ⟨_, ⟨⟩⟩)
    exact .same (.some rfl)

theorem slotsAlike_calls : SlotsAlike flaggedCall rangedCall := by
  refine @SlotsAlike.node _ _ .callExpression rfl rfl nofun nofun ?_
  rintro _ (_ | ⟨_, _ | ⟨_, _ | ⟨_, ⟨⟩⟩⟩⟩)
  · exact .child (.inl rfl) rfl rfl slotsAlike_imports
  · exact .same (.some rfl)
  · exact .flag (.inr rfl) (.inl (.inl rfl))

theorem spelledAlike_imports : SpelledAlike bareImport vacantImport := by
  refine .object (FieldSpelledAlike.of_keys ?_)
  change ∀ key ∈ ["type", "source", "source", "options", "type"], _
  simp only [List.forall_mem_cons]
  have hoptions : Silent [("type", .string "ImportExpression"), ("source", thisTree)] "options" :=
    @Silent.unslotted _ _ .importExpression rfl (by decide) nofun
  have hoptions' : Silent [("source", thisTree), ("options", .array []),
      ("type", .string "ImportExpression")] "options" := by
    refine @Silent.unslotted _ _ .importExpression rfl (by decide) ?_
    rintro _ ⟨⟩
    rfl
  exact ⟨.value rfl rfl (.same _), .value rfl rfl (.same _), .value rfl rfl (.same _),
    .silent hoptions hoptions', .value rfl rfl (.same _), nofun⟩

theorem spelledAlike_calls : SpelledAlike flaggedCall rangedCall := by
  refine .object (FieldSpelledAlike.of_keys ?_)
  change ∀ key ∈ ["type", "callee", "arguments", "optional", "range", "arguments", "callee",
    "type"], _
  simp only [List.forall_mem_cons]
  have hcallee : ∀ {members members' : Members}, members.lookup "callee" = some bareImport →
      members'.lookup "callee" = some vacantImport →
        FieldSpelledAlike members members' "callee" := fun hcallee hcallee' =>
    .value hcallee hcallee' spelledAlike_imports
  have hoptional : ∀ {members : Members},
      members.lookup "type" = some (.string NodeType.callExpression.tag) →
        members.Unset "optional" → Silent members "optional" := fun htag hunset =>
    .flag htag (by decide) hunset
  refine ⟨.value rfl rfl (.same _), hcallee rfl rfl, .value rfl rfl (.same _), ?_, ?_,
    .value rfl rfl (.same _), hcallee rfl rfl, .value rfl rfl (.same _), nofun⟩
  · exact .silent (hoptional rfl (.inr rfl)) (hoptional rfl (.inl (.inl rfl)))
  · exact .silent (@Silent.metadata _ _ "CallExpression" rfl (by decide))
      (@Silent.metadata _ _ "CallExpression" rfl (by decide))

theorem conversion_depends_only_on_slots_import :
    (∃ call, Converts flaggedCall call ∧ Converts rangedCall call) ∧
      flaggedCall.normal.equivalent rangedCall.normal = true ∧
        SameOutcome CommandLine.SameVerdict
          (CommandLine.judge (RoundTrip.programOf [flaggedCall]))
          (CommandLine.judge (RoundTrip.programOf [rangedCall])) := by
  obtain ⟨hconvert, hnormal, hjudge⟩ := conversion_depends_only_on_slots
  obtain ⟨hdistinct, hdistinct'⟩ := distinct_calls
  have hprogram : ∀ {statement : Json}, statement.Distinct →
      (RoundTrip.programOf [statement]).Distinct := by
    intro statement hstatement
    have hbody : (Json.array [statement]).Distinct := .array (by simpa using hstatement)
    exact .object (show ["type", "body"].Nodup by decide) (by simp [Json.Distinct.string, hbody])
  refine ⟨?_, hnormal _ _ hdistinct hdistinct' slotsAlike_calls spelledAlike_calls,
    hjudge _ _ [flaggedCall] [rangedCall] (hprogram hdistinct) (hprogram hdistinct') rfl rfl
      (.cons slotsAlike_calls .nil) (.cons spelledAlike_calls .nil)⟩
  rcases hconvert _ _ hdistinct hdistinct' slotsAlike_calls with hcall | ⟨failure, -, hfails, -⟩
  · exact hcall
  · nomatch hfails

end BuilderCalls
