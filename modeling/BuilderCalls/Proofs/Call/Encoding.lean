import BuilderCalls.Call.Encoding
import BuilderCalls.Proofs.Json.Members
import BuilderCalls.Proofs.Signature
import Mathlib.Data.List.Forall2

/-!
# Reading encoded calls

What a call is encoded as is read back as this call, whatever its arguments are and
however deep they are nested.  The tree may be respelled on the way: the members of its
objects come in another order, and a `cooked` that is null is left out.  Only numbers
that are not finite are lost, since JSON has no form for them.
-/

namespace BuilderCalls

/-! ## Literals in arguments -/

/-- The literal stands in the argument, at any depth and whether a slot would take it or not. -/
inductive Arg.Mentions : Arg Call → Literal → Prop
  | literal (literal : Literal) : Mentions (.literal literal) literal
  | node {nodeType : NodeType} {args : List (Arg Call)} {arg : Arg Call} {literal : Literal}
      (harg : arg ∈ args) (hmentions : Mentions arg literal) :
      Mentions (.node (.mk nodeType args)) literal
  | item {items : List (Arg Call)} {item : Arg Call} {literal : Literal}
      (hitem : item ∈ items) (hmentions : Mentions item literal) :
      Mentions (.list items) literal

/-- All numbers in the argument are finite. -/
def Arg.Finite (arg : Arg Call) : Prop :=
  ∀ value, arg.Mentions (.number value) → value.isFinite = true

namespace Arg

theorem finite_node_iff {nodeType : NodeType} {args : List (Arg Call)} :
    (Arg.node (.mk nodeType args)).Finite ↔ ∀ arg ∈ args, arg.Finite := by
  refine ⟨fun hfinite arg harg value hmentions => hfinite value (.node harg hmentions), ?_⟩
  rintro hfinite value (_ | ⟨harg, hmentions⟩ | _)
  exact hfinite _ harg value hmentions

theorem finite_list_iff {items : List (Arg Call)} :
    (Arg.list items).Finite ↔ ∀ item ∈ items, item.Finite := by
  refine ⟨fun hfinite item hitem value hmentions => hfinite value (.item hitem hmentions), ?_⟩
  rintro hfinite value (_ | _ | ⟨hitem, hmentions⟩)
  exact hfinite _ hitem value hmentions

theorem finite_literal_iff {literal : Literal} :
    (Arg.literal literal).Finite ↔ ∀ value, literal = .number value → value.isFinite = true := by
  constructor
  · rintro hfinite value rfl
    exact hfinite value (.literal _)
  · rintro hfinite value ⟨⟩
    exact hfinite value rfl

end Arg

/-! ## Respelled trees -/

mutual

/--
The second tree is the first one with the members of its objects in any order and without
some of the `cooked` members that are null.
-/
inductive Respelled : Json → Json → Prop
  | null : Respelled .null .null
  | bool (value : Bool) : Respelled (.bool value) (.bool value)
  | number (value : Number) : Respelled (.number value) (.number value)
  | string (value : String) : Respelled (.string value) (.string value)
  | array {items items' : List Json} (hitems : RespelledItems items items') :
      Respelled (.array items) (.array items')
  | object {members respelled members' : Members} (hmembers : RespelledMembers members respelled)
      (hperm : respelled.Perm members') : Respelled (.object members) (.object members')

inductive RespelledItems : List Json → List Json → Prop
  | nil : RespelledItems [] []
  | cons {item item' : Json} {items items' : List Json} (hitem : Respelled item item')
      (hitems : RespelledItems items items') : RespelledItems (item :: items) (item' :: items')

inductive RespelledMembers : Members → Members → Prop
  | nil : RespelledMembers [] []
  | cons {key : String} {value value' : Json} {rest rest' : Members}
      (hvalue : Respelled value value') (hrest : RespelledMembers rest rest') :
      RespelledMembers ((key, value) :: rest) ((key, value') :: rest')
  | uncooked {rest rest' : Members} (hrest : RespelledMembers rest rest') :
      RespelledMembers (("cooked", .null) :: rest) rest'

end

/-- What a respelled object has at a key, given what the object has there. -/
inductive RespelledField (key : String) : Option Json → Option Json → Prop
  | absent : RespelledField key none none
  | kept {value value' : Json} (hvalue : Respelled value value') :
      RespelledField key (some value) (some value')
  | uncooked (hkey : key = "cooked") : RespelledField key (some .null) none

namespace RespelledMembers

variable {members respelled : Members}

theorem keys_sublist (hmembers : RespelledMembers members respelled) :
    respelled.keys.Sublist members.keys := by
  induction members generalizing respelled with
  | nil =>
      cases hmembers
      exact List.Sublist.refl _
  | cons member rest ih =>
      cases hmembers with
      | cons _ hrest => exact .cons_cons _ (ih hrest)
      | uncooked hrest => exact .cons _ (ih hrest)

theorem field (hmembers : RespelledMembers members respelled) (hkeys : members.keys.Nodup)
    (key : String) : RespelledField key (members.lookup key) (respelled.lookup key) := by
  induction members generalizing respelled with
  | nil =>
      cases hmembers
      exact .absent
  | cons member rest ih =>
      obtain ⟨hfresh, hrestKeys⟩ := List.nodup_cons.mp hkeys
      cases hmembers with
      | @cons first _ value' _ rest' hvalue hrest =>
          by_cases hkey : key = first
          · rw [hkey, List.lookup_cons_self, List.lookup_cons_self]
            exact .kept hvalue
          · rw [List.lookup_cons, List.lookup_cons, beq_false_of_ne hkey]
            exact ih hrest hrestKeys
      | uncooked hrest =>
          by_cases hkey : key = "cooked"
          · have habsent : respelled.lookup key = none := by
              rw [hkey, Members.lookup_eq_none_iff]
              exact fun hmem => hfresh (hrest.keys_sublist.mem hmem)
            rw [habsent, hkey, List.lookup_cons_self]
            exact .uncooked rfl
          · rw [List.lookup_cons, beq_false_of_ne hkey]
            exact ih hrest hrestKeys

end RespelledMembers

namespace Respelled

mutual

theorem refl : (value : Json) → Respelled value value
  | .null => .null
  | .bool value => .bool value
  | .number value => .number value
  | .string value => .string value
  | .array items => .array (refl_items items)
  | .object members => .object (refl_members members) (List.Perm.refl members)
termination_by structural value => value

theorem refl_items : (items : List Json) → RespelledItems items items
  | [] => .nil
  | item :: items => .cons (refl item) (refl_items items)
termination_by structural items => items

theorem refl_members : (members : Members) → RespelledMembers members members
  | [] => .nil
  | (_, value) :: rest => .cons (refl value) (refl_members rest)
termination_by structural members => members

end

theorem fields {members : Members} {tree : Json} (htree : Respelled (.object members) tree)
    (hkeys : members.keys.Nodup) : ∃ members', tree = .object members' ∧
      ∀ key, RespelledField key (members.lookup key) (members'.lookup key) := by
  cases htree with
  | @object _ respelled members' hmembers hperm =>
      refine ⟨members', rfl, fun key => ?_⟩
      rw [Members.lookup_eq_of_perm hperm (hkeys.sublist hmembers.keys_sublist)]
      exact hmembers.field hkeys key

theorem member (key : String) {value value' : Json} (hvalue : Respelled value value') :
    Respelled (.object [(key, value)]) (.object [(key, value')]) :=
  .object (.cons hvalue .nil) (List.Perm.refl _)

/-- An object of one member stays one, with the same key. -/
theorem of_member {key : String} {value tree : Json}
    (htree : Respelled (.object [(key, value)]) tree) (hkey : key ≠ "cooked") :
    ∃ value', tree = .object [(key, value')] ∧ Respelled value value' := by
  cases htree with
  | object hmembers hperm =>
      cases hmembers with
      | cons hvalue hrest =>
          cases hrest
          cases List.singleton_perm.mp hperm
          exact ⟨_, rfl, hvalue⟩
      | uncooked => exact absurd rfl hkey

theorem of_string {text : String} {tree : Json} (htree : Respelled (.string text) tree) :
    tree = .string text := by
  cases htree
  rfl

theorem of_array {items : List Json} {tree : Json} (htree : Respelled (.array items) tree) :
    ∃ items', tree = .array items' ∧ RespelledItems items items' := by
  cases htree with
  | array hitems => exact ⟨_, rfl, hitems⟩

end Respelled

namespace RespelledField

variable {key : String} {value : Json} {found : Option Json}

theorem of_some (hfield : RespelledField key (some value) found) (hkey : key ≠ "cooked") :
    ∃ value', found = some value' ∧ Respelled value value' := by
  cases hfield with
  | kept hvalue => exact ⟨_, rfl, hvalue⟩
  | uncooked hcooked => exact absurd hcooked hkey

theorem of_string {text : String} (hfield : RespelledField key (some (.string text)) found) :
    found = some (.string text) := by
  cases hfield with
  | kept hvalue => rw [hvalue.of_string]

theorem of_none (hfield : RespelledField key none found) : found = none := by
  cases hfield
  rfl

theorem of_null (hfield : RespelledField key (some .null) found) :
    found = some .null ∨ found = none := by
  cases hfield with
  | kept hvalue =>
      cases hvalue
      exact .inl rfl
  | uncooked => exact .inr rfl

end RespelledField

/-! ## Literals -/

namespace Literal

theorem ofPayload?_of_respelled {literal : Literal} {payload payload' : Json}
    (hpayload : literal.payload? = some payload)
    (hfinite : ∀ value, literal = .number value → value.isFinite = true)
    (hrespelled : Respelled payload payload') :
    ofPayload? literal.kind.name payload' = some literal := by
  cases literal with
  | string value =>
      cases hpayload
      cases hrespelled
      rfl
  | number value =>
      have hnumber : payload = .number (.double value (hfinite value rfl)) := by
        rw [payload?, Json.ofDouble, Number.ofDouble?, dif_pos (hfinite value rfl)] at hpayload
        exact (Option.some.inj hpayload).symm
      subst hnumber
      cases hrespelled
      rfl
  | boolean value =>
      cases hpayload
      cases hrespelled
      rfl
  | null => cases hpayload
  | regexp pattern flags =>
      cases hpayload
      obtain ⟨members, rfl, hfields⟩ :=
        hrespelled.fields (show ["pattern", "flags"].Nodup by decide)
      have hpattern : members.lookup "pattern" = some (.string pattern) :=
        (hfields "pattern").of_string
      have hflags : members.lookup "flags" = some (.string flags) := (hfields "flags").of_string
      simp [ofPayload?, kind, Kind.name, Json.stringMember?, Json.get?, hpattern, hflags,
        Json.string?]
  | bigint digits =>
      cases hpayload
      cases hrespelled
      rfl

theorem ofJson?_of_respelled {literal : Literal} {tree : Json}
    (hfinite : ∀ value, literal = .number value → value.isFinite = true)
    (htree : Respelled literal.toJson tree) : ofJson? tree = some literal := by
  unfold toJson at htree
  cases hpayload : literal.payload? with
  | none =>
      simp only [hpayload] at htree
      obtain ⟨members, rfl, hfields⟩ := htree.fields (List.nodup_singleton "kind")
      have hkind : members.lookup "kind" = some (.string literal.kind.name) :=
        (hfields "kind").of_string
      have hvalue : members.lookup "value" = none := (hfields "value").of_none
      cases literal with
      | null => simp [ofJson?, hkind, hvalue, Json.bareCase?, kind]
      | _ => cases hpayload
  | some payload =>
      simp only [hpayload] at htree
      obtain ⟨members, rfl, hfields⟩ := htree.fields (show ["kind", "value"].Nodup by decide)
      have hkind : members.lookup "kind" = some (.string literal.kind.name) :=
        (hfields "kind").of_string
      obtain ⟨payload', hvalue, hrespelled⟩ := (hfields "value").of_some (by decide)
      simpa [ofJson?, hkind, hvalue, Json.bareCase?] using
        ofPayload?_of_respelled hpayload hfinite hrespelled

end Literal

/-! ## Calls -/

namespace Call

theorem argsMember?_eq (members : Members) :
    argsMember? members = ((members.lookup "args").bind Json.array?).bind argsOfJson? := by
  induction members with
  | nil => rfl
  | cons member rest ih =>
      obtain ⟨key, value⟩ := member
      rw [argsMember?.eq_def]
      by_cases hkey : key = "args"
      · simp only [hkey, if_true, List.lookup_cons_self]
        cases value <;> rfl
      · simp only [hkey, if_false]
        rw [List.lookup_cons, beq_false_of_ne (Ne.symm hkey)]
        exact ih

theorem template?_of_respelled {cooked : Option String} {raw : String} {tree : Json}
    (htree : Respelled (.object [("cooked", optionalText cooked), ("raw", .string raw)]) tree) :
    template? tree = some (.template cooked raw) := by
  obtain ⟨members, rfl, hfields⟩ := htree.fields (show ["cooked", "raw"].Nodup by decide)
  have hraw : members.lookup "raw" = some (.string raw) := (hfields "raw").of_string
  have hcooked : (Json.object members).optionalString? "cooked" = some cooked := by
    cases cooked with
    | some text =>
        have hfound : members.lookup "cooked" = some (.string text) :=
          (hfields "cooked").of_string
        simp [Json.optionalString?, Json.get?, hfound]
    | none =>
        have hfound : members.lookup "cooked" = some .null ∨ members.lookup "cooked" = none :=
          (hfields "cooked").of_null
        obtain hfound | hfound := hfound <;> simp [Json.optionalString?, Json.get?, hfound]
  simp [template?, Json.members?, hcooked, Json.stringMember?, Json.get?, hraw, Json.string?]

mutual

theorem ofJson?_of_respelled : (call : Call) → (Arg.node call).Finite → (tree : Json) →
    Respelled call.toJson tree → ofJson? tree = some call
  | .mk nodeType args, hfinite, tree, htree => by
      rw [toJson.eq_def] at htree
      obtain ⟨members, rfl, hfields⟩ := htree.fields (show ["type", "args"].Nodup by decide)
      have htype : members.lookup "type" = some (.string nodeType.tag) :=
        (hfields "type").of_string
      obtain ⟨_, hargs, hrespelled⟩ := (hfields "args").of_some (by decide)
      obtain ⟨trees, rfl, hitems⟩ := hrespelled.of_array
      have hread := argsOfJson?_of_respelled args (Arg.finite_node_iff.mp hfinite) trees hitems
      rw [ofJson?.eq_def]
      simp [htype, typeOfJson?, Json.bareCase?, argsMember?_eq, hargs, Json.array?, hread]
termination_by structural call => call

theorem argOfJson?_of_respelled : (arg : Arg Call) → arg.Finite → (tree : Json) →
    Respelled (argToJson arg) tree → argOfJson? tree = some arg
  | .null, _, tree, htree => by
      obtain rfl := htree.of_string
      rfl
  | .bool value, _, tree, htree => by
      obtain ⟨_, rfl, hvalue⟩ := htree.of_member (by decide)
      cases hvalue
      rfl
  | .string value, _, tree, htree => by
      obtain ⟨_, rfl, hvalue⟩ := htree.of_member (by decide)
      cases hvalue
      rfl
  | .literal literal, hfinite, tree, htree => by
      obtain ⟨inner, rfl, hinner⟩ := htree.of_member (by decide)
      have hliteral : Literal.ofJson? inner = some literal :=
        Literal.ofJson?_of_respelled (Arg.finite_literal_iff.mp hfinite) hinner
      simp [argOfJson?, hliteral]
  | .node call, hfinite, tree, htree => by
      obtain ⟨inner, rfl, hinner⟩ := htree.of_member (by decide)
      simp [argOfJson?, ofJson?_of_respelled call hfinite inner hinner]
  | .list items, hfinite, tree, htree => by
      obtain ⟨_, rfl, hrespelled⟩ := htree.of_member (by decide)
      obtain ⟨trees, rfl, hitems⟩ := hrespelled.of_array
      have hread := argsOfJson?_of_respelled items (Arg.finite_list_iff.mp hfinite) trees hitems
      simp [argOfJson?, hread]
  | .template cooked raw, _, tree, htree => by
      obtain ⟨inner, rfl, hinner⟩ := htree.of_member (by decide)
      simp [argOfJson?, template?_of_respelled hinner]
termination_by structural arg => arg

theorem argsOfJson?_of_respelled : (args : List (Arg Call)) → (∀ arg ∈ args, arg.Finite) →
    (trees : List Json) → RespelledItems (argsToJson args) trees → argsOfJson? trees = some args
  | [], _, trees, htrees => by
      cases htrees
      rfl
  | arg :: args, hfinite, trees, htrees => by
      obtain ⟨harg, hargs⟩ := List.forall_mem_cons.mp hfinite
      cases htrees with
      | @cons _ tree _ trees htree htrees =>
          simp [argsOfJson?, argOfJson?_of_respelled arg harg tree htree,
            argsOfJson?_of_respelled args hargs trees htrees]
termination_by structural args => args

end

end Call

/-- The encoding of a call is read back as the call, and so is each respelling of it. -/
theorem encoded_calls_are_read_back (call : Call) (hfinite : (Arg.node call).Finite) :
    Call.ofJson? call.toJson = some call ∧
      ∀ tree, Respelled call.toJson tree → Call.ofJson? tree = some call := by
  have hrespelled := Call.ofJson?_of_respelled call hfinite
  exact ⟨hrespelled _ (Respelled.refl _), hrespelled⟩

/-- A call that no signature allows, with what could be mistaken for something else. -/
def mixedCall : Call :=
  .mk .templateElement [.null, .string "null",
    .list [.list [.null], .literal (.number (.zero true))], .literal .null, .template none "a"]

/-- The call with the members of each object in reverse and without its `cooked`. -/
def mixedTree : Json :=
  .object [
    ("args", .array [
      .string "null",
      .object [("str", .string "null")],
      .object [("list", .array [
        .object [("list", .array [.string "null"])],
        .object [("literal", .object [
          ("value", .number (.double (.zero true) rfl)),
          ("kind", .string "number")])]])],
      .object [("literal", .object [("kind", .string "null")])],
      .object [("template", .object [("raw", .string "a")])]]),
    ("type", .string "TemplateElement")]

theorem encoded_calls_are_read_back_mixed :
    (Arg.node mixedCall).Finite ∧ Respelled mixedCall.toJson mixedTree ∧
      Call.ofJson? mixedCall.toJson = some mixedCall ∧
        Call.ofJson? mixedTree = some mixedCall := by
  have hfinite : (Arg.node mixedCall).Finite := by
    rw [mixedCall, Arg.finite_node_iff]
    simp only [List.forall_mem_cons, Arg.finite_list_iff, Arg.finite_literal_iff]
    refine ⟨nofun, nofun, ⟨⟨nofun, nofun⟩, ?_, nofun⟩, nofun, nofun, nofun⟩
    rintro _ ⟨⟩
    decide
  have hnumber : Respelled (Literal.number (.zero true)).toJson
      (.object [("value", .number (.double (.zero true) rfl)), ("kind", .string "number")]) :=
    .object (.cons (.string _) (.cons (.number _) .nil)) (.swap _ _ _)
  have htemplate : Respelled (.object [("cooked", .null), ("raw", .string "a")])
      (.object [("raw", .string "a")]) :=
    .object (.uncooked (.cons (.string _) .nil)) (.refl _)
  have hlist : Respelled (Call.argToJson (.list [.list [.null], .literal (.number (.zero true))]))
      (.object [("list", .array [
        .object [("list", .array [.string "null"])],
        .object [("literal", .object [
          ("value", .number (.double (.zero true) rfl)),
          ("kind", .string "number")])]])]) :=
    .member _ (.array (.cons (.refl _) (.cons (.member _ hnumber) .nil)))
  have hrespelled : Respelled mixedCall.toJson mixedTree := by
    refine .object (.cons (.refl _) (.cons (.array ?_) .nil)) (.swap _ _ _)
    exact .cons (.refl _) (.cons (.refl _) (.cons hlist (.cons (.refl _)
      (.cons (.member _ htemplate) .nil))))
  obtain ⟨hback, hrespelledBack⟩ := encoded_calls_are_read_back mixedCall hfinite
  exact ⟨hfinite, hrespelled, hback, hrespelledBack _ hrespelled⟩

end BuilderCalls
