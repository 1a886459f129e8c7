import BuilderCalls.Proofs.Agreement
import BuilderCalls.Proofs.Alike
import BuilderCalls.Proofs.Replacement

/-!
# What conversion finds in a normal form

A converted tree is read alike in its normal form exactly when nothing that it says is
dropped there.  Otherwise the normal form is not converted at all: the missing `value` of
a literal or the missing `raw` of a template part is refused.  So trees with the same
normal form have the same call, as long as one of them is kept whole.
-/

namespace BuilderCalls

/-! ## What was dropped is missed -/

section Data

variable {members : Members} (hdistinct : (Json.object members).Distinct)

include hdistinct

/-- A plain literal is read from a normal form only if no key took it for a special one. -/
theorem LiteralImage.absent_of_normal {literal : Literal}
    (htag : members.lookup "type" = some (.string NodeType.literal.tag))
    (hregex : members.Lacks "regex") (hbigint : members.Lacks "bigint")
    (himage : LiteralImage (Json.normalMembers (.ofMembers members) members) literal) :
    members.lookup "regex" = none ∧ members.lookup "bigint" = none := by
  have hkeys := hdistinct.keys_nodup
  cases himage with
  | regexp hpresent hpattern =>
      obtain rfl := (hregex.normal hkeys).eq_null hpresent
      cases hpattern
  | bigint _ hpresent => cases (hbigint.normal hkeys).eq_null hpresent
  | plain _ _ hvalue =>
      by_contra hpresent
      have hspecial : (members.lookup "regex").isSome = true ∨
          (members.lookup "bigint").isSome = true := by
        rw [Option.isSome_iff_ne_none, Option.isSome_iff_ne_none]
        exact not_and_or.mp hpresent
      cases hvalue.symm.trans
        (lookup_normal_of_always hkeys fun _ _ => (ObjectRole.drops_literal htag).mpr hspecial)

/-- The texts of a template part are read from a normal form only if they are in no node. -/
theorem TemplateImage.untagged_of_normal {cooked : Option String} {raw : String}
    (himage : TemplateImage (Json.object members).normal cooked raw) :
    (Json.object members).tag? = none := by
  rw [Option.eq_none_iff_forall_not_mem]
  intro tag htag
  have hlookup : members.lookup "type" = some (.string tag) := Node.string?_eq_some_iff.mp htag
  have hraw := himage.get?_raw
  rw [Json.normal_object, Json.get?] at hraw
  cases hraw.symm.trans (lookup_normal_of_always hdistinct.keys_nodup fun _ _ =>
    ObjectRole.drops_metadata hlookup (by decide))

end Data

section Nodes

variable {members : Members} {nodeType : NodeType} (hdistinct : (Json.object members).Distinct)
  (htag : members.lookup "type" = some (.string nodeType.tag))

include hdistinct htag

theorem kept_of_slotImages {args : List (Arg Call)}
    (hslots : List.Forall₂
      (SlotImage Converts (Json.normalMembers (.ofMembers members) members)) nodeType.slots args) :
    Kept members nodeType := by
  refine ⟨?_, ?_⟩
  · rintro rfl hregex hbigint
    obtain ⟨arg, himage⟩ :=
      exists_image_of_slot hslots (List.mem_singleton_self (Slot.literalValue "value"))
    obtain ⟨literal, hliteral, -⟩ := SlotImage.literal_iff.mp himage
    exact hliteral.absent_of_normal hdistinct htag hregex hbigint
  · rintro ⟨field, kind⟩ hslot rfl value hvalue
    obtain ⟨arg, himage⟩ := exists_image_of_slot hslots hslot
    obtain ⟨found, cooked, raw, hfound, htemplate, -⟩ := SlotImage.template_iff.mp himage
    rw [Members.lookup_normal_of_slot hdistinct htag hslot nofun nofun hvalue,
      Option.some.injEq] at hfound
    subst hfound
    cases value with
    | object parts =>
        exact htemplate.untagged_of_normal
          (hdistinct.of_holds (.field (Members.mem_of_lookup hvalue)))
    | _ => rfl

end Nodes

/-! ## Trees -/

theorem Members.Reaches.exists_leadsTo {members : Members} {slot : Slot} {value : Json}
    (hreaches : members.Reaches slot value) : ∃ steps, members.LeadsTo slot steps value := by
  cases hreaches with
  | child hkind hfield hvalue => exact ⟨_, .child hkind hfield hvalue⟩
  | item hkind hfield hitem hvalue =>
      obtain ⟨index, hindex⟩ := List.mem_iff_getElem?.mp hitem
      exact ⟨_, .item hkind hfield hindex hvalue⟩

theorem Members.Reaches.exists_converts {members : Members} {slots : List Slot}
    {args : List (Arg Call)} {slot : Slot} {value : Json}
    (hslots : List.Forall₂ (SlotImage Converts members) slots args) (hslot : slot ∈ slots)
    (hreaches : members.Reaches slot value) : ∃ call, Converts value call := by
  obtain ⟨arg, himage⟩ := exists_image_of_slot hslots hslot
  obtain ⟨steps, hsteps⟩ := hreaches.exists_leadsTo
  exact hsteps.exists_converts himage

/-- The node of an image, with what is known of its members. -/
theorem NodeImage.exists_members {image : Json → Call → Prop} {value : Json}
    {nodeType : NodeType} {args : List (Arg Call)}
    (himage : NodeImage image value (.mk nodeType args)) :
    ∃ members, value = .object members ∧ NodeHead members nodeType ∧
      List.Forall₂ (SlotImage image members) nodeType.slots args := by
  cases himage with
  | mk hhead hslots => exact ⟨_, rfl, hhead, hslots⟩

theorem converts_normal_of_kept {value : Json} {call : Call} (hdistinct : value.Distinct)
    (hkept : EveryNode Kept value) (hconverts : Converts value call) :
    Converts value.normal call := by
  induction value using Json.fieldInduction generalizing call with
  | other value hother =>
      obtain ⟨members, rfl⟩ := hconverts.isObject
      cases hother
  | object members ih =>
      obtain ⟨nodeType, args⟩ := call
      have himage := converts_iff.mp hconverts
      obtain ⟨_, ⟨⟩, hhead, -⟩ := himage.exists_members
      obtain ⟨hroot, hnodes⟩ := (everyNode_object_iff hhead.tag).mp hkept
      refine converts_iff.mpr (himage.normal hdistinct hroot (fun _ => not_converts_null) ?_)
      intro slot hslot value call hreaches hchild
      exact ih value hreaches.holds (hdistinct.of_holds hreaches.holds)
        (hnodes slot hslot value hreaches) hchild

theorem kept_of_converts_normal {value : Json} {call call' : Call} (hdistinct : value.Distinct)
    (hconverts : Converts value call) (hnormal : Converts value.normal call') :
    EveryNode Kept value := by
  induction value using Json.fieldInduction generalizing call call' with
  | other value hother =>
      obtain ⟨members, rfl⟩ := hconverts.isObject
      cases hother
  | object members ih =>
      obtain ⟨nodeType, args⟩ := call
      obtain ⟨nodeType', args'⟩ := call'
      obtain ⟨_, ⟨⟩, hhead, hslots⟩ := (converts_iff.mp hconverts).exists_members
      obtain ⟨normalMembers, hmembers, hhead', hslots'⟩ := (converts_iff.mp hnormal).exists_members
      rw [Json.normal_object, Json.object.injEq] at hmembers
      subst hmembers
      have htag := Members.lookup_normal_of_kept hdistinct.keys_nodup hhead.tag
        (ObjectRole.drops_type hhead.tag)
      obtain rfl := hhead'.nodeType_eq htag
      refine (everyNode_object_iff hhead.tag).mpr
        ⟨kept_of_slotImages hdistinct hhead.tag hslots', fun slot hslot value hreaches => ?_⟩
      obtain ⟨child, hchild⟩ := hreaches.exists_converts hslots hslot
      obtain ⟨child', hchild'⟩ :=
        (hreaches.normal hdistinct hhead.tag hslot).exists_converts hslots' hslot
      exact ih value hreaches.holds (hdistinct.of_holds hreaches.holds) hchild hchild'

theorem Converts.call_eq {value : Json} {call call' : Call} (hconverts : Converts value call)
    (hconverts' : Converts value call') : call = call' :=
  Except.ok.inj (hconverts.symm.trans hconverts')

/-- Equivalent trees are converted alike, whatever the order of their members. -/
theorem Converts.of_equivalent {value value' : Json} {call : Call} (hdistinct : value.Distinct)
    (hdistinct' : value'.Distinct) (hsame : value.equivalent value' = true)
    (hconverts : Converts value call) : Converts value' call := by
  have houtcome := convertValue_same hdistinct hdistinct' (.data hsame)
  rw [converts_iff_convertValue] at hconverts ⊢
  rw [hconverts] at houtcome
  generalize hresult : (convertValue value').result = result at houtcome
  cases houtcome with
  | ok hcall => rw [hcall]

/--
A converted tree is read from its normal form exactly when nothing that it says is dropped
there, and then as the same call.  Trees with the normal form of such a tree have its call.
-/
theorem normal_forms_are_read_where_kept {value : Json} {call : Call}
    (hdistinct : value.Distinct) (hconverts : Converts value call) :
    (∀ call', Converts value.normal call' ↔ EveryNode Kept value ∧ call' = call) ∧
      (EveryNode Kept value → ∀ value' call', value'.Distinct → Converts value' call' →
        value.normal.equivalent value'.normal = true → call' = call) := by
  constructor
  · intro call'
    constructor
    · intro hnormal
      have hkept := kept_of_converts_normal hdistinct hconverts hnormal
      exact ⟨hkept, hnormal.call_eq (converts_normal_of_kept hdistinct hkept hconverts)⟩
    · rintro ⟨hkept, rfl⟩
      exact converts_normal_of_kept hdistinct hkept hconverts
  · intro hkept value' call' hdistinct' hconverts' hsame
    have hnormal : Converts value'.normal call :=
      (converts_normal_of_kept hdistinct hkept hconverts).of_equivalent hdistinct.normal
        hdistinct'.normal hsame
    -- The other tree is converted and so is its normal form, so it is kept as well.
    have hkept' := kept_of_converts_normal hdistinct' hconverts' hnormal
    exact (converts_normal_of_kept hdistinct' hkept' hconverts').call_eq hnormal

/-- A literal that is true or false, with further members. -/
def booleanLiteral (value : Bool) (further : Members) : Json :=
  .object (("type", .string "Literal") :: ("value", .bool value) :: further)

def booleanCall (value : Bool) : Call :=
  .mk .literal [.literal (.boolean value)]

/-- `true` with its text, as some parsers write it. -/
def textedTrue : Json :=
  booleanLiteral true [("raw", .string "true")]

theorem normal_forms_are_read_where_kept_texted :
    Converts textedTrue.normal (booleanCall true) ∧
      ∀ call, Converts (booleanLiteral true []) call → call = booleanCall true := by
  have htexted : textedTrue.Distinct :=
    .object (by decide) (by simp [Json.Distinct.string, Json.Distinct.bool])
  have hbare : (booleanLiteral true []).Distinct :=
    .object (by decide) (by simp [Json.Distinct.string, Json.Distinct.bool])
  have hkept : EveryNode Kept textedTrue := by
    refine (@everyNode_object_iff Kept _ .literal rfl).mpr ⟨⟨fun _ _ _ => ⟨rfl, rfl⟩, ?_⟩, ?_⟩
    · rintro _ (_ | ⟨_, ⟨⟩⟩) ⟨⟩
    · rintro _ (_ | ⟨_, ⟨⟩⟩) value hreaches
      exact absurd hreaches (FaithfulSlot.not_reaches rfl)
  have hconverts : Converts textedTrue (booleanCall true) := rfl
  obtain ⟨hread, hsame⟩ := normal_forms_are_read_where_kept htexted hconverts
  exact ⟨(hread _).mpr ⟨hkept, rfl⟩, fun call hcall => hsame hkept _ call hbare hcall rfl⟩

/--
A null `regex` is no regular expression for the converter, yet the normal form drops the
`value` for it: true and false are told apart no more, and neither is read.
-/
theorem null_regex_loses_the_value :
    (booleanLiteral true [("regex", .null)]).Distinct ∧
      Converts (booleanLiteral true [("regex", .null)]) (booleanCall true) ∧
      ¬Converts (booleanLiteral true [("regex", .null)]).normal (booleanCall true) ∧
      Converts (booleanLiteral false [("regex", .null)]) (booleanCall false) ∧
      (booleanLiteral true [("regex", .null)]).normal =
        (booleanLiteral false [("regex", .null)]).normal :=
  ⟨.object (by decide) (by simp [Json.Distinct.string, Json.Distinct.bool, Json.Distinct.null]),
    rfl, nofun, rfl, rfl⟩

end BuilderCalls
