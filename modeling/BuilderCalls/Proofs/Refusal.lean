import BuilderCalls.Proofs.Grammar
import BuilderCalls.Proofs.Path

/-!
# What conversion refuses

`Slot.Rule` says what a slot asks of its node; the nodes that the slot holds are
judged by themselves.  `Refused` lists how the conversion of a value fails: at the
value itself, which is no node of a registered type or breaks a rule of its type, or
in a node that one of its slots holds.  A failure of the first kind is the value's
own, with its position and no path yet; one of the second kind is the failure of the
node, seen from further out.
-/

namespace BuilderCalls

def Fails (value : Json) (failure : Failure) : Prop :=
  (convert value).result = .error failure

theorem fails_iff_convertValue {value : Json} {failure : Failure} :
    Fails value failure ↔
      ∃ own, (convertValue value).result = .error own ∧ own.under [] = failure := by
  simp [Fails, convert]

theorem Failure.under_under (failure : Failure) (inner outer : Path) :
    (failure.under inner).under outer = failure.under (outer ++ inner) := by
  simp [under]

/-- A failure of a conversion always has a path. -/
theorem Fails.exists_path {value : Json} {failure : Failure} (hfails : Fails value failure) :
    ∃ path, failure.path = some path := by
  obtain ⟨own, -, rfl⟩ := fails_iff_convertValue.mp hfails
  exact ⟨_, rfl⟩

theorem Fails.under_nil {value : Json} {failure : Failure} (hfails : Fails value failure) :
    failure.under [] = failure := by
  obtain ⟨own, -, rfl⟩ := fails_iff_convertValue.mp hfails
  rw [Failure.under_under, List.append_nil]

/-- A child fails with its own failure, seen from where the steps begin. -/
theorem convertValue_under_eq_error_iff {value : Json} {steps : Path} {failure : Failure} :
    ((convertValue value).under steps).result = .error failure ↔
      ∃ inner, Fails value inner ∧ failure = inner.under steps := by
  simp only [Traced.result_under, mapError_eq_error_iff, fails_iff_convertValue]
  constructor
  · rintro ⟨own, howner, rfl⟩
    exact ⟨_, ⟨own, howner, rfl⟩, by rw [Failure.under_under, List.append_nil]⟩
  · rintro ⟨_, ⟨own, howner, rfl⟩, rfl⟩
    exact ⟨own, howner, by rw [Failure.under_under, List.append_nil]⟩

theorem fails_under_iff {statement : Json} {inner failure : Failure} {steps : Path} :
    Fails statement inner ∧ failure = inner.under steps ↔
      ∃ path, Fails statement inner ∧ inner.path = some path ∧
        failure = { inner with path := some (steps ++ path) } := by
  constructor
  · rintro ⟨hinner, rfl⟩
    obtain ⟨path, hpath⟩ := hinner.exists_path
    exact ⟨path, hinner, hpath, by simp [Failure.under, hpath]⟩
  · rintro ⟨path, hinner, hpath, rfl⟩
    exact ⟨hinner, by simp [Failure.under, hpath]⟩

/-! ## Rules -/

/-- What a slot asks of the members of its node, whatever the nodes in it are like. -/
def Slot.Rule (slot : Slot) (members : Members) : Prop :=
  match slot.kind with
  | .name => ∃ text, members.lookup slot.field = some (.string text)
  | .keyword words => ∃ word ∈ words, members.lookup slot.field = some (.string word)
  | .flag =>
      members.Lacks slot.field ∨ ∃ value, members.lookup slot.field = some (.bool value)
  | .child => ¬members.Lacks slot.field
  | .optionalChild | .legacyChild => True
  | .childList => ∃ items, members.lookup slot.field = some (.array items) ∧ .null ∉ items
  | .sparseList => ∃ items, members.lookup slot.field = some (.array items)
  | .literalValue => LiteralHolds members
  | .templateValue =>
      ∃ value cooked raw, members.lookup slot.field = some value ∧ TemplateImage value cooked raw

/-- A field without a slot says something, or a slot of the node breaks its rule. -/
inductive BreaksRule (members : Members) (nodeType : NodeType) : Prop
  | unslotted {field : String} {value : Json} (hfield : field ∈ nodeType.unslottedFields)
      (hvalue : members.lookup field = some value) (hvacant : value.isVacant = false)
  | slot {slot : Slot} (hslot : slot ∈ nodeType.slots) (hrule : ¬slot.Rule members)

/-- What is read from a slot keeps the slot's rule. -/
theorem SlotImage.rule {members : Members} {slot : Slot} {arg : Arg Call}
    (himage : SlotImage Converts members slot arg) : slot.Rule members := by
  cases himage with
  | name hfield => exact ⟨_, hfield⟩
  | keyword hfield hword => exact ⟨_, hword, hfield⟩
  | flag hfield => exact .inr ⟨_, hfield⟩
  | absentFlag hfield => exact .inl hfield
  | @child _ kind value call hkind hfield hconverts =>
      obtain ⟨inner, rfl⟩ := hconverts.isObject
      cases kind with
      | child => simp [Slot.Rule, Members.Lacks, hfield]
      | optionalChild | legacyChild => trivial
      | childList | sparseList => cases hkind.isList_eq_false
      | _ => cases hkind.holdsNodes
  | @absentChild _ kind hkind _ =>
      cases kind with
      | optionalChild | legacyChild => trivial
      | _ => cases hkind
  | @list _ kind items args hkind hfield hitems =>
      cases kind with
      | childList =>
          refine ⟨items, hfield, fun hmem => ?_⟩
          obtain ⟨arg, hitem⟩ := exists_forall₂_iff.mp ⟨args, hitems⟩ _ hmem
          cases hitem with
          | hole hsparse => cases hsparse
          | node hconverts => exact not_converts_null hconverts
      | sparseList => exact ⟨items, hfield⟩
      | _ => cases hkind
  | literal hliteral => exact literalHolds_iff.mpr ⟨_, hliteral⟩
  | template hfield htemplate => exact ⟨_, _, _, hfield, htemplate⟩

/-- Nothing that is converted breaks a rule of its type. -/
theorem Converts.not_breaksRule {members : Members} {call : Call}
    (hcall : Converts (.object members) call) : ¬BreaksRule members call.nodeType := by
  cases converts_iff.mp hcall with
  | mk hhead hslots =>
      intro hbreaks
      cases hbreaks with
      | unslotted hfield hvalue hvacant =>
          cases (hhead.vacant _ hfield _ hvalue).symm.trans hvacant
      | slot hslot hrule =>
          obtain ⟨arg, himage⟩ := exists_forall₂_iff.mp ⟨_, hslots⟩ _ hslot
          exact hrule himage.rule

/-! ## Accessors -/

namespace Node

variable {α β : Type}

/-- The result is a failure only as a fault of the node, at its position. -/
def Blames (node : Node) (result : Except Failure α) : Prop :=
  ∀ failure, result = .error failure → ∃ fault, failure = node.malformed fault

namespace Blames

variable {node : Node}

theorem ok (value : α) : node.Blames (.ok value) := by
  intro failure hfailure
  cases hfailure

theorem malformed (fault : NodeFault) :
    node.Blames (.error (node.malformed fault) : Except Failure α) := by
  intro failure hfailure
  cases hfailure
  exact ⟨fault, rfl⟩

theorem bind {first : Except Failure α} {next : α → Except Failure β}
    (hfirst : node.Blames first) (hnext : ∀ value, node.Blames (next value)) :
    node.Blames (first >>= next) := by
  intro failure hfailure
  rcases bind_eq_error_iff.mp hfailure with hfailure | ⟨value, -, hfailure⟩
  · exact hfirst failure hfailure
  · exact hnext value failure hfailure

theorem map {result : Except Failure α} (hresult : node.Blames result) (change : α → β) :
    node.Blames (result.map change) := by
  intro failure hfailure
  exact hresult failure (exceptMap_eq_error_iff.mp hfailure)

end Blames

variable (node : Node) (field : String)

theorem blames_required : node.Blames (node.required field) := by
  unfold required
  split
  · exact .ok _
  · exact .malformed _

theorem blames_string : node.Blames (node.string field) := by
  apply Blames.bind (node.blames_required field)
  intro value
  split
  · exact .ok _
  · exact .malformed _

theorem blames_keyword (words : List String) : node.Blames (node.keyword field words) := by
  apply Blames.bind (node.blames_string field)
  intro word
  split
  · exact .ok _
  · exact .malformed _

theorem blames_flag : node.Blames (node.flag field) := by
  unfold flag
  split
  · exact .ok _
  · exact .ok _
  · exact .malformed _

theorem blames_regex (value : Json) : node.Blames (node.regex value) := by
  unfold regex
  split
  · exact .ok _
  · exact .malformed _

theorem blames_literal : node.Blames node.literal := by
  unfold literal
  split
  · exact node.blames_regex _
  · exact .ok _
  · exact .malformed _
  · exact .malformed _
  · exact .ok _
  · exact .ok _
  · exact .ok _
  · exact .ok _
  · exact .malformed _

theorem blames_template : node.Blames (node.template field) := by
  apply Blames.bind (node.blames_required field)
  intro value
  split
  · exact .malformed _
  · split
    · exact .ok _
    · exact .ok _
    · exact .ok _
    · exact .malformed _

end Node

/-! ## Slots -/

section Slots

variable {node : Node} {slot : Slot} {failure : Failure}

/-- A slot that holds no nodes fails as a fault of its node, and only if it breaks its rule. -/
theorem scalar?_error {result : Except Failure (Arg Call)}
    (hscalar : node.scalar? slot = some result) (hfailure : result = .error failure) :
    (∃ fault, failure = node.malformed fault) ∧ ¬slot.Rule node.members := by
  obtain ⟨field, kind⟩ := slot
  cases kind with
  | name =>
      cases hscalar
      refine ⟨(node.blames_string field).map _ failure hfailure, ?_⟩
      rintro ⟨text, hfield⟩
      rw [Node.string_eq_ok_iff.mpr hfield] at hfailure
      cases hfailure
  | keyword words =>
      cases hscalar
      refine ⟨(node.blames_keyword field words).map _ failure hfailure, ?_⟩
      rintro ⟨word, hword, hfield⟩
      rw [Node.keyword_eq_ok_iff.mpr ⟨hfield, hword⟩] at hfailure
      cases hfailure
  | flag =>
      cases hscalar
      refine ⟨(node.blames_flag field).map _ failure hfailure, ?_⟩
      rintro (hlacks | ⟨value, hfield⟩)
      · rw [Node.flag_eq_ok_iff.mpr (.inr ⟨hlacks, rfl⟩)] at hfailure
        cases hfailure
      · rw [Node.flag_eq_ok_iff.mpr (.inl hfield)] at hfailure
        cases hfailure
  | literalValue =>
      cases hscalar
      refine ⟨node.blames_literal.map _ failure hfailure, fun hrule => ?_⟩
      obtain ⟨literal, hliteral⟩ := literalHolds_iff.mp hrule
      rw [Node.literal_eq_ok_iff.mpr hliteral] at hfailure
      cases hfailure
  | templateValue =>
      cases hscalar
      refine ⟨(node.blames_template field).map _ failure hfailure, ?_⟩
      rintro ⟨value, cooked, raw, hfield, htemplate⟩
      rw [Node.template_eq_ok_iff.mpr ⟨value, hfield, htemplate⟩] at hfailure
      cases hfailure
  | child | optionalChild | legacyChild | childList | sparseList => cases hscalar

/-- How the conversion of a slot fails: by its rule, or in a node that it holds. -/
inductive SlotRefused (node : Node) (slot : Slot) : Failure → Prop
  | rule (fault : NodeFault) (hrule : ¬slot.Rule node.members) :
      SlotRefused node slot (node.malformed fault)
  | inner {steps : Path} {value : Json} {inner : Failure}
      (hsteps : node.members.LeadsTo slot steps value) (hinner : Fails value inner) :
      SlotRefused node slot (inner.under steps)

theorem Slot.Rule.present (hkind : slot.kind.holdsNodes = true)
    (hrequired : slot.kind.isOptional = false) (hrule : slot.Rule node.members) :
    ¬node.members.Lacks slot.field := by
  obtain ⟨field, kind⟩ := slot
  cases kind with
  | child => exact hrule
  | childList =>
      obtain ⟨items, hfield, -⟩ := hrule
      simp [Members.Lacks, hfield]
  | sparseList =>
      obtain ⟨items, hfield⟩ := hrule
      simp [Members.Lacks, hfield]
  | optionalChild | legacyChild => cases hrequired
  | name | keyword | flag | literalValue | templateValue => cases hkind

theorem slotRefused_of_absent (hkind : slot.kind.holdsNodes = true)
    (hlacks : node.members.Lacks slot.field)
    (hfailure : (node.absent slot).result = .error failure) :
    SlotRefused node slot failure := by
  unfold Node.absent at hfailure
  split at hfailure
  next => cases hfailure
  next hrequired =>
    cases hfailure
    refine .rule _ fun hrule => ?_
    exact hrule.present hkind (by simpa using hrequired) hlacks

theorem convertItems_eq_mapM (index : Nat) (items : List Json) :
    convertItems node slot index items =
      (items.zipIdx index).mapM fun (item, place) => convertItem node slot place item := by
  induction items generalizing index with
  | nil => rw [convertItems.eq_def]; rfl
  | cons item rest ih =>
      rw [convertItems_cons, List.zipIdx_cons, List.mapM_cons, ih]
      simp

/-- The items of a list fail as the first of them that does. -/
theorem convertItems_eq_error_iff {items : List Json} :
    (convertItems node slot 0 items).result = .error failure ↔
      ∃ index item, items[index]? = some item ∧
        (∀ earlier ∈ items.take index, ∃ arg, ItemImage Converts slot.kind earlier arg) ∧
          (convertItem node slot index item).result = .error failure := by
  rw [convertItems_eq_mapM]
  apply Traced.mapM_zipIdx_result_eq_error_iff
  intro item place
  exact exists_congr fun arg => convertItem_eq_ok_iff

theorem slotRefused_of_item {items : List Json} {index : Nat} {item : Json}
    (hkind : slot.kind.isList = true)
    (hfield : node.members.lookup slot.field = some (.array items))
    (hitem : items[index]? = some item)
    (hfailure : (convertItem node slot index item).result = .error failure) :
    SlotRefused node slot failure := by
  unfold convertItem at hfailure
  split at hfailure
  next hnull =>
    rw [Traced.result_map, map_eq_error_iff, convertValue_under_eq_error_iff] at hfailure
    obtain ⟨inner, hinner, rfl⟩ := hfailure
    exact .inner (.item hkind hfield hitem (by simpa [← Bool.not_eq_true] using hnull)) hinner
  next hnull =>
    split at hfailure
    next => cases hfailure
    next hsparse =>
      cases hfailure
      refine .rule _ fun hrule => ?_
      obtain rfl : item = .null := by simpa using hnull
      obtain ⟨field, kind⟩ := slot
      cases kind with
      | childList =>
          obtain ⟨items', hfield', hholes⟩ := hrule
          cases hfield.symm.trans hfield'
          exact hholes (List.mem_of_getElem? hitem)
      | sparseList => exact hsparse rfl
      | _ => cases hkind

theorem slotRefused_of_field {value : Json} (hkind : slot.kind.holdsNodes = true)
    (hfield : node.members.lookup slot.field = some value)
    (hfailure : (convertField node slot value).result = .error failure) :
    SlotRefused node slot failure := by
  unfold convertField at hfailure
  split at hfailure
  next hnull =>
    obtain rfl : value = .null := by simpa using hnull
    exact slotRefused_of_absent hkind (.inr hfield) hfailure
  next hnull =>
    split at hfailure
    next hlist =>
      split at hfailure
      next items =>
        rw [Traced.result_map, map_eq_error_iff, convertItems_eq_error_iff] at hfailure
        obtain ⟨index, item, hitem, -, hfailure⟩ := hfailure
        exact slotRefused_of_item hlist hfield hitem hfailure
      next value harray =>
        cases hfailure
        refine .rule _ fun hrule => ?_
        obtain ⟨field, kind⟩ := slot
        cases kind with
        | childList =>
            obtain ⟨items, hfield', -⟩ := hrule
            exact harray items (Option.some.inj (hfield.symm.trans hfield'))
        | sparseList =>
            obtain ⟨items, hfield'⟩ := hrule
            exact harray items (Option.some.inj (hfield.symm.trans hfield'))
        | _ => cases hlist
    next hlist =>
      rw [Traced.result_map, map_eq_error_iff, convertValue_under_eq_error_iff] at hfailure
      obtain ⟨inner, hinner, rfl⟩ := hfailure
      have hchild := (SlotKind.holdsNodes_iff.mp hkind).resolve_right hlist
      exact .inner (.child hchild hfield (by simpa using hnull)) hinner

theorem slotRefused_of_arg (hfailure : (convertArg node slot).result = .error failure) :
    SlotRefused node slot failure := by
  unfold convertArg at hfailure
  split at hfailure
  next result hscalar =>
    obtain ⟨⟨fault, rfl⟩, hrule⟩ := scalar?_error hscalar hfailure
    exact .rule fault hrule
  next hscalar =>
    have hkind : slot.kind.holdsNodes = true := by
      unfold Node.scalar? at hscalar
      cases hkind : slot.kind <;> simp_all [SlotKind.holdsNodes]
    rw [convertSlot_eq] at hfailure
    split at hfailure
    next hfield => exact slotRefused_of_absent hkind (.inl hfield) hfailure
    next value hfield => exact slotRefused_of_field hkind hfield hfailure

end Slots

/-! ## Nodes -/

/-- How the conversion of a value fails, before the failure is placed on a path. -/
inductive Refused : Json → Failure → Prop
  | notAnObject {value : Json} (hvalue : value.members? = none) :
      Refused value (.malformed Node.unknownTag (.notAnObject value.kind))
  | untagged {members : Members} (htag : ∀ tag, members.lookup "type" ≠ some (.string tag)) :
      Refused (.object members)
        ((Failure.malformed Node.unknownTag .untagged).atPosition (Position.ofMembers? members))
  | unsupported {members : Members} {tag : String}
      (htag : members.lookup "type" = some (.string tag))
      (hforeign : ∀ nodeType : NodeType, nodeType.tag ≠ tag) :
      Refused (.object members)
        ((Failure.unsupported tag).atPosition (Position.ofMembers? members))
  | malformed {members : Members} {nodeType : NodeType} (fault : NodeFault)
      (htag : members.lookup "type" = some (.string nodeType.tag))
      (hbreaks : BreaksRule members nodeType) :
      Refused (.object members) (Node.malformed ⟨nodeType.tag, members⟩ fault)
  | inner {members : Members} {nodeType : NodeType} {slot : Slot} {steps : Path} {value : Json}
      {failure : Failure} (htag : members.lookup "type" = some (.string nodeType.tag))
      (hslot : slot ∈ nodeType.slots) (hsteps : members.LeadsTo slot steps value)
      (hinner : Fails value failure) : Refused (.object members) (failure.under steps)

theorem Node.nodeType_eq_error {node : Node} {failure : Failure}
    (hfailure : node.nodeType = .error failure) :
    (∀ nodeType : NodeType, nodeType.tag ≠ node.tag) ∧
      failure = (Failure.unsupported node.tag).atPosition node.position? := by
  unfold Node.nodeType at hfailure
  split at hfailure
  next => cases hfailure
  next hforeign =>
    cases hfailure
    refine ⟨fun nodeType htag => ?_, rfl⟩
    rw [NodeType.ofTag?_eq_some_iff.mpr htag.symm] at hforeign
    cases hforeign

theorem Node.checkUnslotted_eq_error {node : Node} {nodeType : NodeType} {failure : Failure}
    (hfailure : node.checkUnslotted nodeType = .error failure) :
    (∃ fault, failure = node.malformed fault) ∧ BreaksRule node.members nodeType := by
  have hbreaks : ¬∀ field ∈ nodeType.unslottedFields, ∀ value,
      node.members.lookup field = some value → value.isVacant = true := by
    rw [← Node.checkUnslotted_eq_ok_iff, hfailure]
    nofun
  simp only [not_forall, Bool.not_eq_true] at hbreaks
  obtain ⟨field, hfield, value, hvalue, hvacant⟩ := hbreaks
  refine ⟨?_, .unslotted hfield hvalue hvacant⟩
  unfold Node.checkUnslotted at hfailure
  split at hfailure
  next =>
    cases hfailure
    exact ⟨_, rfl⟩
  next => cases hfailure

theorem refused_of_ofMembers {members : Members} {failure : Failure}
    (hfailure : Node.ofMembers members = .error failure) : Refused (.object members) failure := by
  have htag : ∀ tag, members.lookup "type" ≠ some (.string tag) := by
    intro tag htag
    rw [Node.ofMembers_eq_ok_iff.mpr ⟨tag, htag, rfl⟩] at hfailure
    cases hfailure
  unfold Node.ofMembers at hfailure
  split at hfailure
  next => cases hfailure
  next =>
    cases hfailure
    exact .untagged htag

theorem refused_of_convertValue {value : Json} {failure : Failure}
    (hfailure : (convertValue value).result = .error failure) : Refused value failure := by
  cases value with
  | object members =>
      rw [convertValue] at hfailure
      simp only [Traced.result_bind, Traced.result_ofExcept, Traced.result_record,
        Traced.result_pure, bind_eq_error_iff, Node.ofMembers_eq_ok_iff,
        Node.nodeType_eq_ok_iff] at hfailure
      rcases hfailure with hfailure | ⟨node, ⟨tag, htag, rfl⟩, hfailure⟩
      · exact refused_of_ofMembers hfailure
      rcases hfailure with hfailure | ⟨nodeType, rfl, hfailure⟩
      · obtain ⟨hforeign, rfl⟩ := Node.nodeType_eq_error hfailure
        exact .unsupported htag hforeign
      rcases hfailure with hrecord | ⟨-, -, hfailure⟩
      · cases hrecord
      rcases hfailure with hfailure | ⟨-, -, hfailure⟩
      · obtain ⟨⟨fault, rfl⟩, hbreaks⟩ := Node.checkUnslotted_eq_error hfailure
        exact .malformed fault htag hbreaks
      rcases hfailure with hfailure | ⟨args, -, hcall⟩
      swap
      · cases hcall
      obtain ⟨index, slot, hslot, -, hfailure⟩ := Traced.mapM_result_eq_error_iff.mp hfailure
      have hmember := List.mem_of_getElem? hslot
      cases slotRefused_of_arg hfailure with
      | rule fault hrule => exact .malformed fault htag (.slot hmember hrule)
      | inner hsteps hinner => exact .inner htag hmember hsteps hinner
  | null | bool | number | string | array =>
      rw [convertValue] at hfailure
      · cases hfailure
        exact .notAnObject rfl
      · simp

/-! ## Where failures arise -/

/-- The position of an object in the source; other values have none. -/
def Json.position? : Json → Option Position
  | .object members => Position.ofMembers? members
  | _ => none

/-- What the cause of a failure says of the value at which the failure arose. -/
inductive Describes : Cause → Json → Prop
  | unsupported {members : Members} {tag : String}
      (htag : members.lookup "type" = some (.string tag))
      (hforeign : ∀ nodeType : NodeType, nodeType.tag ≠ tag) :
      Describes (.unsupported tag) (.object members)
  | notAnObject {value : Json} (hvalue : value.members? = none) :
      Describes (.malformed Node.unknownTag (.notAnObject value.kind)) value
  | untagged {members : Members} (htag : ∀ tag, members.lookup "type" ≠ some (.string tag)) :
      Describes (.malformed Node.unknownTag .untagged) (.object members)
  | malformed {members : Members} {nodeType : NodeType} (fault : NodeFault)
      (htag : members.lookup "type" = some (.string nodeType.tag))
      (hbreaks : BreaksRule members nodeType) :
      Describes (.malformed nodeType.tag fault) (.object members)

/-- The failure arose at the value found at the end of its path, which it describes. -/
structure Located (value : Json) (failure : Failure) (path : Path) (found : Json) : Prop where
  recorded : failure.path = some path
  follows : value.at? path = some found
  leads : Leads value path found
  describes : Describes failure.cause found
  position : failure.position = found.position?

theorem Located.self {value : Json} {failure : Failure} (hpath : failure.path = none)
    (hdescribes : Describes failure.cause value) (hposition : failure.position = value.position?) :
    Located value (failure.under []) [] value := by
  refine ⟨?_, Json.at?_nil, .self value, hdescribes, hposition⟩
  simp [Failure.under, hpath]

theorem Located.under {members : Members} {nodeType : NodeType} {slot : Slot}
    {steps path : Path} {value found : Json} {failure : Failure}
    (hlocated : Located value failure path found)
    (htag : members.lookup "type" = some (.string nodeType.tag)) (hslot : slot ∈ nodeType.slots)
    (hsteps : members.LeadsTo slot steps value) :
    Located (.object members) (failure.under steps) (steps ++ path) found := by
  have hleads : Leads (.object members) (steps ++ path) found :=
    .slot htag hslot hsteps hlocated.leads
  refine ⟨?_, hleads.at?, hleads, hlocated.describes, hlocated.position⟩
  simp [Failure.under, hlocated.recorded]

/--
A failure carries the path to the value at which it arose.  The path leads through slots
of registered node types, the cause describes that value, and the position is the one that
this value gives.
-/
theorem conversion_failures_are_located {value : Json} {failure : Failure}
    (hfailure : (convert value).result = .error failure) :
    ∃ path found, Located value failure path found := by
  change Fails value failure at hfailure
  induction value using Json.fieldInduction generalizing failure with
  | other value hvalue =>
      obtain ⟨own, hown, rfl⟩ := fails_iff_convertValue.mp hfailure
      cases refused_of_convertValue hown with
      | notAnObject =>
          refine ⟨[], value, .self rfl (.notAnObject hvalue) ?_⟩
          cases value <;> first | rfl | cases hvalue
      | untagged | unsupported | malformed | inner => cases hvalue
  | object members ih =>
      obtain ⟨own, hown, rfl⟩ := fails_iff_convertValue.mp hfailure
      cases refused_of_convertValue hown with
      | notAnObject hvalue => cases hvalue
      | untagged htag => exact ⟨[], _, .self rfl (.untagged htag) rfl⟩
      | unsupported htag hforeign => exact ⟨[], _, .self rfl (.unsupported htag hforeign) rfl⟩
      | malformed fault htag hbreaks =>
          exact ⟨[], _, .self rfl (.malformed fault htag hbreaks) rfl⟩
      | @inner _ nodeType slot steps value inner htag hslot hsteps hinner =>
          obtain ⟨path, found, hlocated⟩ := ih value hsteps.holds hinner
          rw [Failure.under_under, List.nil_append]
          exact ⟨steps ++ path, found, hlocated.under htag hslot hsteps⟩

/-- `[a, <b/>]`, whose second item has no builder and a position of its own. -/
def strayElement : Json :=
  .object [("type", .string "ArrayExpression"), ("start", .number (.integer 0 (by decide))),
    ("end", .number (.integer 9 (by decide))),
    ("elements", .array [
      .object [("type", .string "Identifier"), ("name", .string "a")],
      .object [("type", .string "JSXElement"), ("start", .number (.integer 4 (by decide))),
        ("end", .number (.integer 8 (by decide)))]])]

theorem conversion_failures_are_located_in_list : ∃ failure,
    (convert strayElement).result = .error failure ∧
      failure.path = some [.field "elements", .index 1] ∧
        failure.position = some ⟨some ⟨4, 4⟩, none, none⟩ ∧
          ∃ path found, Located strayElement failure path found :=
  ⟨_, rfl, rfl, rfl, conversion_failures_are_located rfl⟩

end BuilderCalls
