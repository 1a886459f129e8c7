import BuilderCalls.Estree
import BuilderCalls.Proofs.Fitting
import BuilderCalls.Proofs.Json.Members

/-!
# What evaluation builds

`BuiltNode` says slot by slot which tree a call is evaluated to, given what its
children are evaluated to.  `evaluates_iff` is the whole of the evaluator with
the ESTree builders in these terms.  The keys of a built node are those that its
slots and its type provide for, each at most once.
-/

namespace BuilderCalls

def Evaluates (call : Call) (tree : Json) : Prop :=
  call.evaluate Estree.builders = .ok tree

/-! ## Built fields -/

inductive BuiltLiteral : Literal → Members → Prop
  | string (value : String) : BuiltLiteral (.string value) [("value", .string value)]
  | boolean (value : Bool) : BuiltLiteral (.boolean value) [("value", .bool value)]
  | null : BuiltLiteral .null [("value", .null)]
  | number {value : Double} {number : Number} (hnumber : Estree.number? value = some number) :
      BuiltLiteral (.number value) [("value", .number number)]
  | regexp (pattern flags : String) :
      BuiltLiteral (.regexp pattern flags) [("value", .null),
        ("regex", .object [("pattern", .string pattern), ("flags", .string flags)])]
  | bigint (digits : String) :
      BuiltLiteral (.bigint digits) [("value", .string digits), ("bigint", .string digits)]

section Built

variable (build : Call → Json → Prop)

/-- The value built for an item of a list; only sparse lists have holes. -/
inductive BuiltItem (kind : SlotKind) : Arg Call → Json → Prop
  | hole (hkind : kind = .sparseList) : BuiltItem kind .null .null
  | node {call : Call} {value : Json} (hbuild : build call value) :
      BuiltItem kind (.node call) value

/-- The fields built for a slot; a legacy slot without a node is left out. -/
inductive BuiltSlot : Slot → Arg Call → Members → Prop
  | name (field text : String) :
      BuiltSlot ⟨field, .name⟩ (.string text) [(field, .string text)]
  | keyword (field : String) {word : String} {words : List String} (hword : word ∈ words) :
      BuiltSlot ⟨field, .keyword words⟩ (.string word) [(field, .string word)]
  | flag (field : String) (value : Bool) :
      BuiltSlot ⟨field, .flag⟩ (.bool value) [(field, .bool value)]
  | child (field : String) {kind : SlotKind} {call : Call} {value : Json}
      (hkind : kind.HoldsNode) (hbuild : build call value) :
      BuiltSlot ⟨field, kind⟩ (.node call) [(field, value)]
  | optionalChild (field : String) : BuiltSlot ⟨field, .optionalChild⟩ .null [(field, .null)]
  | legacyChild (field : String) : BuiltSlot ⟨field, .legacyChild⟩ .null []
  | list (field : String) {kind : SlotKind} {args : List (Arg Call)} {items : List Json}
      (hkind : kind.isList = true) (hitems : List.Forall₂ (BuiltItem build kind) args items) :
      BuiltSlot ⟨field, kind⟩ (.list args) [(field, .array items)]
  | literal (field : String) {literal : Literal} {fields : Members}
      (hliteral : BuiltLiteral literal fields) :
      BuiltSlot ⟨field, .literalValue⟩ (.literal literal) fields
  | template (field : String) (cooked : Option String) (raw : String) :
      BuiltSlot ⟨field, .templateValue⟩ (.template cooked raw)
        [(field, Estree.templateValue cooked raw)]

inductive BuiltSlots : List Slot → List (Arg Call) → Members → Prop
  | nil : BuiltSlots [] [] []
  | cons {slot : Slot} {slots : List Slot} {arg : Arg Call} {args : List (Arg Call)}
      {first rest : Members} (hslot : BuiltSlot build slot arg first)
      (hslots : BuiltSlots slots args rest) :
      BuiltSlots (slot :: slots) (arg :: args) (first ++ rest)

inductive BuiltNode : Call → Json → Prop
  | mk {nodeType : NodeType} {args : List (Arg Call)} {slotted : Members}
      (hslots : BuiltSlots build nodeType.slots args slotted) :
      BuiltNode (.mk nodeType args)
        (.object (("type", .string nodeType.tag) :: slotted ++ Estree.impliedFields nodeType))

end Built

/-! ## Evaluated arguments -/

section Arguments

variable {nodeType : NodeType} {slot : Slot}

theorem evaluateArg_node_iff {call : Call} {built : Arg Json} :
    Call.evaluateArg Estree.builders (.node call) = .ok built ↔
      ∃ tree, Evaluates call tree ∧ .node tree = built := by
  rw [Call.evaluateArg.eq_def]
  exact map_eq_ok_iff

theorem evaluateArg_list_iff {items : List (Arg Call)} {built : Arg Json} :
    Call.evaluateArg Estree.builders (.list items) = .ok built ↔
      ∃ values, Call.evaluateArgs Estree.builders items = .ok values ∧ .list values = built := by
  rw [Call.evaluateArg.eq_def]
  exact map_eq_ok_iff

theorem evaluateArgs_cons_iff {arg : Arg Call} {args : List (Arg Call)} {built : List (Arg Json)} :
    Call.evaluateArgs Estree.builders (arg :: args) = .ok built ↔
      ∃ first, Call.evaluateArg Estree.builders arg = .ok first ∧
        ∃ rest, Call.evaluateArgs Estree.builders args = .ok rest ∧ first :: rest = built := by
  rw [Call.evaluateArgs.eq_def]
  simp only [bind_eq_ok_iff, map_eq_ok_iff]

theorem plainItems_cons_iff {item : Arg Json} {items : List (Arg Json)} {values : List Json} :
    Estree.plainItems nodeType slot (item :: items) = .ok values ↔
      ∃ first, Estree.plain nodeType slot item = .ok first ∧
        ∃ rest, Estree.plainItems nodeType slot items = .ok rest ∧ first :: rest = values := by
  rw [Estree.plainItems.eq_def]
  simp only [bind_eq_ok_iff, pure_eq_ok_iff]

theorem allFields_cons_iff {slots : List Slot} {arg : Arg Json} {args : List (Arg Json)}
    {members : Members} :
    Estree.allFields nodeType (slot :: slots) (arg :: args) = .ok members ↔
      ∃ first, Estree.fields nodeType slot arg = .ok first ∧
        ∃ rest, Estree.allFields nodeType slots args = .ok rest ∧ first ++ rest = members := by
  rw [Estree.allFields]
  simp only [bind_eq_ok_iff, pure_eq_ok_iff]

end Arguments

/-! ## Lists -/

section Lists

variable {nodeType : NodeType} {slot : Slot} {kind : SlotKind}

theorem builtItem_iff {arg : Arg Call} (harg : FittingItem kind arg) {value : Json} :
    (∃ built, Call.evaluateArg Estree.builders arg = .ok built ∧
        Estree.plain nodeType slot built = .ok value) ↔
      BuiltItem Evaluates kind arg value := by
  cases harg with
  | hole hkind =>
      constructor
      · rintro ⟨_, ⟨⟩, ⟨⟩⟩
        exact .hole hkind
      · rintro ⟨⟩
        exact ⟨.null, rfl, rfl⟩
  | node call =>
      constructor
      · rintro ⟨_, hbuilt, hplain⟩
        obtain ⟨tree, htree, rfl⟩ := evaluateArg_node_iff.mp hbuilt
        cases hplain
        exact .node htree
      · intro hitem
        cases hitem with
        | node htree => exact ⟨.node value, evaluateArg_node_iff.mpr ⟨value, htree, rfl⟩, rfl⟩

theorem builtItems_iff {args : List (Arg Call)} (hargs : ∀ arg ∈ args, FittingItem kind arg)
    {values : List Json} :
    (∃ built, Call.evaluateArgs Estree.builders args = .ok built ∧
        Estree.plainItems nodeType slot built = .ok values) ↔
      List.Forall₂ (BuiltItem Evaluates kind) args values := by
  induction args generalizing values with
  | nil =>
      constructor
      · rintro ⟨_, ⟨⟩, ⟨⟩⟩
        exact .nil
      · rintro ⟨⟩
        exact ⟨[], rfl, rfl⟩
  | cons arg args ih =>
      obtain ⟨harg, hargs⟩ := List.forall_mem_cons.mp hargs
      constructor
      · rintro ⟨_, hbuilt, hplain⟩
        obtain ⟨first, hfirst, rest, hrest, rfl⟩ := evaluateArgs_cons_iff.mp hbuilt
        obtain ⟨value, hvalue, values, hvalues, rfl⟩ := plainItems_cons_iff.mp hplain
        exact .cons ((builtItem_iff harg).mp ⟨first, hfirst, hvalue⟩)
          ((ih hargs).mp ⟨rest, hrest, hvalues⟩)
      · intro hitems
        cases hitems with
        | cons hitem hitems =>
            obtain ⟨first, hfirst, hvalue⟩ := (builtItem_iff harg).mpr hitem
            obtain ⟨rest, hrest, hvalues⟩ := (ih hargs).mpr hitems
            exact ⟨first :: rest, evaluateArgs_cons_iff.mpr ⟨first, hfirst, rest, hrest, rfl⟩,
              plainItems_cons_iff.mpr ⟨_, hvalue, _, hvalues, rfl⟩⟩

end Lists

/-! ## Slots -/

section Slots

variable {nodeType : NodeType} {build : Call → Json → Prop} {fields : Members}

theorem BuiltSlot.fitting {slot : Slot} {arg : Arg Call}
    (hslot : BuiltSlot build slot arg fields) : Fitting slot.kind arg := by
  cases hslot with
  | name field text => exact .name text
  | keyword field hword => exact .keyword hword
  | flag field value => exact .flag value
  | child field hkind => exact .child hkind _
  | optionalChild | legacyChild => exact .absent rfl
  | list field hkind hitems =>
      refine .list hkind fun item hitem => ?_
      obtain ⟨value, -, hvalue⟩ := exists_mem_of_forall₂ hitems.flip hitem
      cases hvalue with
      | hole hkind => exact .hole hkind
      | node => exact .node _
  | literal field => exact .literal _
  | template field cooked raw => exact .template cooked raw

theorem BuiltSlots.fitting {slots : List Slot} {args : List (Arg Call)} {members : Members}
    (hslots : BuiltSlots build slots args members) :
    List.Forall₂ (fun slot arg => Fitting slot.kind arg) slots args := by
  induction hslots with
  | nil => exact .nil
  | cons hslot _ ih => exact .cons hslot.fitting ih

theorem literalFields_eq_ok_iff {literal : Literal} :
    Estree.literalFields nodeType literal = .ok fields ↔ BuiltLiteral literal fields := by
  constructor
  · intro hfields
    cases literal with
    | number value =>
        cases hnumber : Estree.number? value with
        | none => simp [Estree.literalFields, hnumber] at hfields
        | some number =>
            simp only [Estree.literalFields, hnumber, Except.ok.injEq] at hfields
            subst hfields
            exact .number hnumber
    | _ =>
        cases hfields
        constructor
  · intro hbuilt
    cases hbuilt with
    | number hnumber => simp [Estree.literalFields, hnumber]
    | _ => rfl

theorem fields_node {field : String} {kind : SlotKind} (hkind : kind.HoldsNode) (value : Json) :
    Estree.fields nodeType ⟨field, kind⟩ (.node value) = .ok [(field, value)] := by
  cases kind with
  | child | optionalChild | legacyChild => rfl
  | childList | sparseList => cases hkind.isList_eq_false
  | _ => cases hkind.holdsNodes

theorem fields_list_eq_ok_iff {field : String} {kind : SlotKind} (hkind : kind.isList = true)
    {items : List (Arg Json)} :
    Estree.fields nodeType ⟨field, kind⟩ (.list items) = .ok fields ↔
      ∃ values, Estree.plainItems nodeType ⟨field, kind⟩ items = .ok values ∧
        fields = [(field, .array values)] := by
  cases kind with
  | childList | sparseList =>
      simp only [Estree.fields, Estree.plain, bind_eq_ok_iff, map_eq_ok_iff, pure_eq_ok_iff]
      constructor
      · rintro ⟨_, ⟨values, hvalues, rfl⟩, rfl⟩
        exact ⟨values, hvalues, rfl⟩
      · rintro ⟨values, hvalues, rfl⟩
        exact ⟨_, ⟨values, hvalues, rfl⟩, rfl⟩
  | _ => cases hkind

theorem builtSlot_of_fields {slot : Slot} {arg : Arg Call} (harg : Fitting slot.kind arg)
    {built : Arg Json} (hbuilt : Call.evaluateArg Estree.builders arg = .ok built)
    (hfields : Estree.fields nodeType slot built = .ok fields) :
    BuiltSlot Evaluates slot arg fields := by
  obtain ⟨field, kind⟩ := slot
  cases harg with
  | name text =>
      cases hbuilt
      cases hfields
      exact .name field text
  | keyword hword =>
      cases hbuilt
      cases hfields
      exact .keyword field hword
  | flag value =>
      cases hbuilt
      cases hfields
      exact .flag field value
  | child hkind call =>
      obtain ⟨tree, htree, rfl⟩ := evaluateArg_node_iff.mp hbuilt
      rw [fields_node hkind] at hfields
      cases hfields
      exact .child field hkind htree
  | absent hkind =>
      cases hbuilt
      cases kind with
      | optionalChild =>
          cases hfields
          exact .optionalChild field
      | legacyChild =>
          cases hfields
          exact .legacyChild field
      | _ => cases hkind
  | list hkind hitems =>
      obtain ⟨items, hevaluated, rfl⟩ := evaluateArg_list_iff.mp hbuilt
      obtain ⟨values, hvalues, rfl⟩ := (fields_list_eq_ok_iff hkind).mp hfields
      exact .list field hkind ((builtItems_iff hitems).mp ⟨items, hevaluated, hvalues⟩)
  | literal literal =>
      cases hbuilt
      exact .literal field (literalFields_eq_ok_iff.mp hfields)
  | template cooked raw =>
      cases hbuilt
      cases hfields
      exact .template field cooked raw

theorem exists_fields_of_builtSlot (nodeType : NodeType) {slot : Slot} {arg : Arg Call}
    (hslot : BuiltSlot Evaluates slot arg fields) :
    ∃ built, Call.evaluateArg Estree.builders arg = .ok built ∧
      Estree.fields nodeType slot built = .ok fields := by
  have hfitting := hslot.fitting
  cases hslot with
  | name | keyword | flag | optionalChild | legacyChild | template => exact ⟨_, rfl, rfl⟩
  | literal field hliteral => exact ⟨_, rfl, literalFields_eq_ok_iff.mpr hliteral⟩
  | child field hkind htree =>
      exact ⟨.node _, evaluateArg_node_iff.mpr ⟨_, htree, rfl⟩, fields_node hkind _⟩
  | list field hkind hvalues =>
      cases hfitting with
      | list _ hitems =>
          obtain ⟨items, hbuilt, hplain⟩ := (builtItems_iff hitems).mpr hvalues
          exact ⟨.list items, evaluateArg_list_iff.mpr ⟨items, hbuilt, rfl⟩,
            (fields_list_eq_ok_iff hkind).mpr ⟨_, hplain, rfl⟩⟩

theorem builtSlots_iff {slots : List Slot} {args : List (Arg Call)}
    (hargs : List.Forall₂ (fun slot arg => Fitting slot.kind arg) slots args)
    {members : Members} :
    (∃ built, Call.evaluateArgs Estree.builders args = .ok built ∧
        Estree.allFields nodeType slots built = .ok members) ↔
      BuiltSlots Evaluates slots args members := by
  induction hargs generalizing members with
  | nil =>
      constructor
      · rintro ⟨_, ⟨⟩, ⟨⟩⟩
        exact .nil
      · rintro ⟨⟩
        exact ⟨[], rfl, rfl⟩
  | cons harg _ ih =>
      constructor
      · rintro ⟨_, hbuilt, hfields⟩
        obtain ⟨first, hfirst, rest, hrest, rfl⟩ := evaluateArgs_cons_iff.mp hbuilt
        obtain ⟨firstFields, hfirst', restFields, hrest', rfl⟩ := allFields_cons_iff.mp hfields
        exact .cons (builtSlot_of_fields harg hfirst hfirst') (ih.mp ⟨rest, hrest, hrest'⟩)
      · intro hslots
        cases hslots with
        | cons hslot hslots =>
            obtain ⟨first, hfirst, hfirst'⟩ := exists_fields_of_builtSlot nodeType hslot
            obtain ⟨rest, hrest, hrest'⟩ := ih.mpr hslots
            exact ⟨first :: rest, evaluateArgs_cons_iff.mpr ⟨first, hfirst, rest, hrest, rfl⟩,
              allFields_cons_iff.mpr ⟨_, hfirst', _, hrest', rfl⟩⟩

end Slots

/-! ## Nodes -/

theorem ofExcept_eq {α : Type} (result : Except Failure α) :
    (MonadExcept.ofExcept result : Except Failure α) = result := by
  cases result <;> rfl

theorem length_evaluateArgs {args : List (Arg Call)} {built : List (Arg Json)}
    (hbuilt : Call.evaluateArgs Estree.builders args = .ok built) :
    built.length = args.length := by
  induction args generalizing built with
  | nil =>
      cases hbuilt
      rfl
  | cons arg args ih =>
      obtain ⟨first, -, rest, hrest, rfl⟩ := evaluateArgs_cons_iff.mp hbuilt
      rw [List.length_cons, List.length_cons, ih hrest]

/-- A call is evaluated to exactly the node that its arguments build. -/
theorem evaluates_iff {call : Call} {tree : Json} :
    Evaluates call tree ↔ BuiltNode Evaluates call tree := by
  obtain ⟨nodeType, args⟩ := call
  rw [Evaluates, Call.evaluate.eq_def]
  simp only [ofExcept_eq, Estree.builders, Estree.build, bind_eq_ok_iff,
    NodeType.check_eq_ok_iff, NodeType.checkArity_eq_ok_iff, pure_eq_ok_iff]
  constructor
  · rintro ⟨⟨⟩, hargs, built, hbuilt, -, -, slotted, hslotted, rfl⟩
    exact .mk ((builtSlots_iff hargs).mp ⟨built, hbuilt, hslotted⟩)
  · intro hnode
    cases hnode with
    | mk hslots =>
        obtain ⟨built, hbuilt, hslotted⟩ := (builtSlots_iff hslots.fitting).mpr hslots
        refine ⟨(), hslots.fitting, built, hbuilt, (), ?_, _, hslotted, rfl⟩
        rw [length_evaluateArgs hbuilt, hslots.fitting.length_eq]

end BuilderCalls
