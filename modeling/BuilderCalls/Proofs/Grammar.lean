import BuilderCalls.Proofs.Conversion

/-!
# The grammar of convertible trees

`WellFormed` is a grammar of JSON trees: the least relation that holds of a
node when its tag is registered, its unslotted fields say nothing and each of
its slots holds what the kind of the slot asks for.  The converter accepts a
tree exactly when the grammar does.
-/

namespace BuilderCalls

/-- What the fields of a literal must say, the earlier forms before the later ones. -/
inductive LiteralHolds (members : Members) : Prop
  | regexp {regex : Json} {pattern flags : String}
      (hregex : members.lookup "regex" = some regex)
      (hpattern : regex.get? "pattern" = some (.string pattern))
      (hflags : regex.get? "flags" = some (.string flags))
  | bigint {digits : String} (hregex : members.Lacks "regex")
      (hbigint : members.lookup "bigint" = some (.string digits))
  | plain {value : Json} (hregex : members.Lacks "regex") (hbigint : members.Lacks "bigint")
      (hvalue : members.lookup "value" = some value)
      (hkind : value.kind ≠ .array ∧ value.kind ≠ .object)

mutual

inductive WellFormed : Json → Prop
  | node {members : Members} {tag : String} {nodeType : NodeType}
      (htag : members.lookup "type" = some (.string tag))
      (hregistered : NodeType.ofTag? tag = some nodeType)
      (hvacant : ∀ field ∈ nodeType.unslottedFields, ∀ value,
        members.lookup field = some value → value.isVacant = true)
      (hslots : ∀ slot ∈ nodeType.slots, SlotHolds members slot) :
      WellFormed (.object members)

inductive SlotHolds : Members → Slot → Prop
  | name {members : Members} {field text : String}
      (hfield : members.lookup field = some (.string text)) :
      SlotHolds members ⟨field, .name⟩
  | keyword {members : Members} {field word : String} {words : List String}
      (hfield : members.lookup field = some (.string word)) (hword : word ∈ words) :
      SlotHolds members ⟨field, .keyword words⟩
  | flag {members : Members} {field : String} {value : Bool}
      (hfield : members.lookup field = some (.bool value)) :
      SlotHolds members ⟨field, .flag⟩
  | absentFlag {members : Members} {field : String} (hfield : members.Lacks field) :
      SlotHolds members ⟨field, .flag⟩
  | child {members : Members} {field : String} {value : Json}
      (hfield : members.lookup field = some value) (hchild : WellFormed value) :
      SlotHolds members ⟨field, .child⟩
  | optionalChild {members : Members} {field : String} {kind : SlotKind} {value : Json}
      (hkind : kind.isOptional = true) (hfield : members.lookup field = some value)
      (hchild : WellFormed value) : SlotHolds members ⟨field, kind⟩
  | absentChild {members : Members} {field : String} {kind : SlotKind}
      (hkind : kind.isOptional = true) (hfield : members.Lacks field) :
      SlotHolds members ⟨field, kind⟩
  | childList {members : Members} {field : String} {items : List Json}
      (hfield : members.lookup field = some (.array items))
      (hitems : ∀ item ∈ items, WellFormed item) :
      SlotHolds members ⟨field, .childList⟩
  | sparseList {members : Members} {field : String} {items : List Json}
      (hfield : members.lookup field = some (.array items))
      (hitems : ∀ item ∈ items, item ≠ .null → WellFormed item) :
      SlotHolds members ⟨field, .sparseList⟩
  | literalValue {members : Members} {field : String} (hliteral : LiteralHolds members) :
      SlotHolds members ⟨field, .literalValue⟩
  | templateValue {members : Members} {field raw : String} {value : Json}
      (hfield : members.lookup field = some value)
      (hraw : value.get? "raw" = some (.string raw))
      (hcooked : value.get? "cooked" = none ∨ value.get? "cooked" = some .null ∨
        ∃ cooked, value.get? "cooked" = some (.string cooked)) :
      SlotHolds members ⟨field, .templateValue⟩

end

/-! ## Slots -/

theorem literalHolds_iff {members : Members} :
    LiteralHolds members ↔ ∃ literal, LiteralImage members literal := by
  constructor
  · intro hholds
    cases hholds with
    | regexp hregex hpattern hflags => exact ⟨_, .regexp hregex hpattern hflags⟩
    | bigint hregex hbigint => exact ⟨_, .bigint hregex hbigint⟩
    | @plain value hregex hbigint hvalue hkind =>
        cases value with
        | null => exact ⟨_, .plain hregex hbigint hvalue .null⟩
        | bool value => exact ⟨_, .plain hregex hbigint hvalue (.boolean value)⟩
        | number value => exact ⟨_, .plain hregex hbigint hvalue (.number value)⟩
        | string value => exact ⟨_, .plain hregex hbigint hvalue (.string value)⟩
        | array => exact absurd rfl hkind.1
        | object => exact absurd rfl hkind.2
  · rintro ⟨literal, himage⟩
    cases himage with
    | regexp hregex hpattern hflags => exact .regexp hregex hpattern hflags
    | bigint hregex hbigint => exact .bigint hregex hbigint
    | plain hregex hbigint hvalue hplain =>
        refine .plain hregex hbigint hvalue ?_
        cases hplain <;> simp [Json.kind]

section Slots

variable {members : Members} {slot : Slot}
  (ih : ∀ value, members.Holds value → ((∃ call, Converts value call) ↔ WellFormed value))

include ih

private theorem slotHolds_of_slotImage {arg : Arg Call}
    (himage : SlotImage Converts members slot arg) : SlotHolds members slot := by
  cases himage with
  | name hfield => exact .name hfield
  | keyword hfield hword => exact .keyword hfield hword
  | flag hfield => exact .flag hfield
  | absentFlag hfield => exact .absentFlag hfield
  | child hkind hfield himage =>
      have hchild := (ih _ (.field (Members.mem_of_lookup hfield))).mp ⟨_, himage⟩
      rcases hkind with rfl | hkind
      · exact .child hfield hchild
      · exact .optionalChild hkind hfield hchild
  | absentChild hkind hfield => exact .absentChild hkind hfield
  | @list field kind items args hkind hfield hitems =>
      have hitem : ∀ item ∈ items, item = .null ∧ kind = .sparseList ∨ WellFormed item := by
        intro item hmember
        obtain ⟨arg, himage⟩ := exists_forall₂_iff.mp ⟨_, hitems⟩ item hmember
        cases himage with
        | hole hkind => exact .inl ⟨rfl, hkind⟩
        | node himage =>
            exact .inr ((ih _ (.item (Members.mem_of_lookup hfield) hmember)).mp ⟨_, himage⟩)
      cases kind with
      | childList =>
          exact .childList hfield fun item hmember => (hitem item hmember).resolve_left nofun
      | sparseList =>
          refine .sparseList hfield fun item hmember hnull => ?_
          exact (hitem item hmember).resolve_left fun hhole => hnull hhole.1
      | _ => nomatch hkind
  | literal hliteral => exact .literalValue (literalHolds_iff.mpr ⟨_, hliteral⟩)
  | template hfield htemplate =>
      cases htemplate with
      | cooked hraw hcooked => exact .templateValue hfield hraw (.inr (.inr ⟨_, hcooked⟩))
      | uncooked hraw hcooked => exact .templateValue hfield hraw (hcooked.imp_right .inl)

private theorem exists_slotImage_of_slotHolds (hholds : SlotHolds members slot) :
    ∃ arg, SlotImage Converts members slot arg := by
  cases hholds with
  | name hfield => exact ⟨_, .name hfield⟩
  | keyword hfield hword => exact ⟨_, .keyword hfield hword⟩
  | flag hfield => exact ⟨_, .flag hfield⟩
  | absentFlag hfield => exact ⟨_, .absentFlag hfield⟩
  | child hfield hchild =>
      obtain ⟨call, himage⟩ := (ih _ (.field (Members.mem_of_lookup hfield))).mpr hchild
      exact ⟨_, .child (.inl rfl) hfield himage⟩
  | optionalChild hkind hfield hchild =>
      obtain ⟨call, himage⟩ := (ih _ (.field (Members.mem_of_lookup hfield))).mpr hchild
      exact ⟨_, .child (.inr hkind) hfield himage⟩
  | absentChild hkind hfield => exact ⟨_, .absentChild hkind hfield⟩
  | @childList _ field items hfield hitems =>
      have hargs : ∀ item ∈ items, ∃ arg, ItemImage Converts .childList item arg := by
        intro item hmember
        obtain ⟨call, himage⟩ := (ih _ (.item (Members.mem_of_lookup hfield) hmember)).mpr
          (hitems item hmember)
        exact ⟨_, .node himage⟩
      obtain ⟨args, hargs⟩ := exists_forall₂_iff.mpr hargs
      exact ⟨_, .list rfl hfield hargs⟩
  | @sparseList _ field items hfield hitems =>
      have hargs : ∀ item ∈ items, ∃ arg, ItemImage Converts .sparseList item arg := by
        intro item hmember
        by_cases hnull : item = .null
        · exact ⟨.null, hnull ▸ .hole rfl⟩
        · obtain ⟨call, himage⟩ := (ih _ (.item (Members.mem_of_lookup hfield) hmember)).mpr
            (hitems item hmember hnull)
          exact ⟨_, .node himage⟩
      obtain ⟨args, hargs⟩ := exists_forall₂_iff.mpr hargs
      exact ⟨_, .list rfl hfield hargs⟩
  | literalValue hliteral =>
      obtain ⟨literal, hliteral⟩ := literalHolds_iff.mp hliteral
      exact ⟨_, .literal hliteral⟩
  | templateValue hfield hraw hcooked =>
      rcases hcooked with hcooked | hcooked | ⟨cooked, hcooked⟩
      · exact ⟨_, .template hfield (.uncooked hraw (.inl hcooked))⟩
      · exact ⟨_, .template hfield (.uncooked hraw (.inr hcooked))⟩
      · exact ⟨_, .template hfield (.cooked hraw hcooked)⟩

end Slots

/-! ## Trees -/

theorem exists_converts_iff_wellFormed (value : Json) :
    (∃ call, Converts value call) ↔ WellFormed value := by
  induction value using Json.fieldInduction with
  | object members ih =>
      constructor
      · rintro ⟨call, hconverts⟩
        cases converts_iff.mp hconverts with
        | mk hhead hslots =>
            refine .node hhead.tag (NodeType.ofTag?_tag _) hhead.vacant fun slot hslot => ?_
            obtain ⟨arg, himage⟩ := exists_forall₂_iff.mp ⟨_, hslots⟩ slot hslot
            exact slotHolds_of_slotImage ih himage
      · intro hwellFormed
        cases hwellFormed with
        | node htag hregistered hvacant hslots =>
            rw [NodeType.ofTag?_eq_some_iff] at hregistered
            obtain ⟨args, himages⟩ := exists_forall₂_iff.mpr fun slot hslot =>
              exists_slotImage_of_slotHolds ih (hslots slot hslot)
            exact ⟨_, converts_iff.mpr (.mk ⟨hregistered ▸ htag, hvacant⟩ himages)⟩
  | other value hvalue =>
      constructor
      · rintro ⟨call, hconverts⟩
        obtain ⟨members, rfl⟩ := hconverts.isObject
        cases hvalue
      · intro hwellFormed
        cases hwellFormed
        cases hvalue

/--
The converter accepts exactly the trees of the grammar, and what it makes of them is
the image of the tree, slot by slot.
-/
theorem convert_accepts_exactly_the_grammar (value : Json) :
    ((∃ call, Converts value call) ↔ WellFormed value) ∧
      ∀ call, Converts value call ↔ NodeImage Converts value call :=
  ⟨exists_converts_iff_wellFormed value, fun _ => converts_iff⟩

end BuilderCalls
