import BuilderCalls.Proofs.BuiltNode
import BuilderCalls.Proofs.Call
import BuilderCalls.Proofs.NormalImage
import BuilderCalls.Proofs.Number.Shortest
import BuilderCalls.Proofs.Program

/-!
# Conversion inverts evaluation

A built node is read back as the call that built it, and so is its normal form.
The argument is slot by slot: the fields that a slot has built are what the
converter looks for in this slot, and no other slot touches them.  An induction
over the calls gives whole trees, and whole programs follow.
-/

namespace BuilderCalls

/-! ## Slots -/

section Slots

variable {build : Call → Json → Prop}

theorem BuiltSlot.imp {build' : Call → Json → Prop} {slot : Slot} {arg : Arg Call}
    {fields : Members} (hslot : BuiltSlot build slot arg fields)
    (himp : ∀ child ∈ arg.children, ∀ value, build child value → build' child value) :
    BuiltSlot build' slot arg fields := by
  cases hslot with
  | name field text => exact .name field text
  | keyword field hword => exact .keyword field hword
  | flag field value => exact .flag field value
  | child field hkind hbuild =>
      exact .child field hkind (himp _ (List.mem_singleton_self _) _ hbuild)
  | optionalChild field => exact .optionalChild field
  | legacyChild field => exact .legacyChild field
  | @list field kind args items hkind hitems =>
      refine .list field hkind ?_
      refine ((List.forall₂_and_left _ _).mpr ⟨fun arg harg => harg, hitems⟩).imp ?_
      rintro arg item ⟨harg, hitem⟩
      cases hitem with
      | hole hkind => exact .hole hkind
      | node hbuild =>
          exact .node (himp _ (Arg.mem_children_iff.mpr (.inr ⟨args, rfl, harg⟩)) _ hbuild)
  | literal field hliteral => exact .literal field hliteral
  | template field cooked raw => exact .template field cooked raw

theorem templateImage_templateValue (cooked : Option String) (raw : String) :
    TemplateImage (Estree.templateValue cooked raw) cooked raw := by
  cases cooked with
  | none => exact .uncooked rfl (.inr rfl)
  | some cooked => exact .cooked rfl rfl

variable {members : Members}

theorem BuiltLiteral.literalImage {literal : Literal} {fields : Members}
    (hbuilt : BuiltLiteral literal fields)
    (hlookup : ∀ key ∈ ["value", "regex", "bigint"], members.lookup key = fields.lookup key) :
    LiteralImage members literal := by
  have hvalue := hlookup "value" (by decide)
  have hregex := hlookup "regex" (by decide)
  have hbigint := hlookup "bigint" (by decide)
  cases hbuilt with
  | string value => exact .plain (.inl hregex) (.inl hbigint) hvalue (.string value)
  | boolean value => exact .plain (.inl hregex) (.inl hbigint) hvalue (.boolean value)
  | null => exact .plain (.inl hregex) (.inl hbigint) hvalue .null
  | @number value number hnumber =>
      rw [← Estree.toDouble_of_number? hnumber]
      exact .plain (.inl hregex) (.inl hbigint) hvalue (.number number)
  | regexp pattern flags => exact .regexp hregex rfl rfl
  | bigint digits => exact .bigint (.inl hregex) hbigint

theorem BuiltSlot.slotImage {image : Json → Call → Prop} {slot : Slot} {arg : Arg Call}
    {fields : Members} (hslot : BuiltSlot build slot arg fields)
    (hlookup : ∀ key ∈ slot.keys, members.lookup key = fields.lookup key)
    (hchild : ∀ call value, build call value → image value call) :
    SlotImage image members slot arg := by
  have hfield : slot.kind ≠ .literalValue →
      members.lookup slot.field = fields.lookup slot.field := fun hkind =>
    hlookup _ (Slot.field_mem_keys hkind)
  cases hslot with
  | name field text => exact .name (by simpa using hfield nofun)
  | keyword field hword => exact .keyword (by simpa using hfield nofun) hword
  | flag field value => exact .flag (by simpa using hfield nofun)
  | child field hkind hbuild =>
      refine .child hkind ?_ (hchild _ _ hbuild)
      simpa using hfield (SlotKind.ne_of_holdsNodes hkind.holdsNodes rfl)
  | optionalChild field => exact .absentChild rfl (.inr (by simpa using hfield nofun))
  | legacyChild field => exact .absentChild rfl (.inl (hfield nofun))
  | list field hkind hitems =>
      have hnodes := SlotKind.holdsNodes_of_isList hkind
      refine .list hkind (by simpa using hfield (SlotKind.ne_of_holdsNodes hnodes rfl)) ?_
      refine List.Forall₂.flip (hitems.imp fun arg item hitem => ?_)
      cases hitem with
      | hole hkind => exact .hole hkind
      | node hbuild => exact .node (hchild _ _ hbuild)
  | literal field hliteral => exact .literal (hliteral.literalImage hlookup)
  | template field cooked raw =>
      exact .template (by simpa using hfield nofun) (templateImage_templateValue cooked raw)

end Slots

/-! ## Nodes -/

theorem templateValue_distinct (cooked : Option String) (raw : String) :
    (Estree.templateValue cooked raw).Distinct := by
  refine .object (show ["raw", "cooked"].Nodup by decide) ?_
  cases cooked <;> simp [Json.Distinct.string, Json.Distinct.null]

theorem BuiltLiteral.distinct {literal : Literal} {fields : Members}
    (hbuilt : BuiltLiteral literal fields) : ∀ member ∈ fields, member.2.Distinct := by
  cases hbuilt with
  | regexp pattern flags =>
      have hregex : (Json.object
          [("pattern", .string pattern), ("flags", .string flags)]).Distinct :=
        .object (show ["pattern", "flags"].Nodup by decide) (by simp [Json.Distinct.string])
      simp [Json.Distinct.null, hregex]
  | _ =>
      simp [Json.Distinct.string, Json.Distinct.bool, Json.Distinct.null, Json.Distinct.number]

section Nodes

variable {build : Call → Json → Prop}
  (hchild : ∀ call value, build call value → value.Distinct)

include hchild

theorem BuiltSlot.distinct {slot : Slot} {arg : Arg Call} {fields : Members}
    (hslot : BuiltSlot build slot arg fields) : ∀ member ∈ fields, member.2.Distinct := by
  cases hslot with
  | name field text => simp [Json.Distinct.string]
  | keyword field hword => simp [Json.Distinct.string]
  | flag field value => simp [Json.Distinct.bool]
  | child field hkind hbuild => simpa using hchild _ _ hbuild
  | optionalChild field => simp [Json.Distinct.null]
  | legacyChild field => simp
  | list field hkind hitems =>
      simp only [List.mem_singleton, forall_eq]
      refine .array fun item hitem => ?_
      obtain ⟨arg, hbuilt⟩ := exists_forall₂_iff.mp ⟨_, hitems.flip⟩ item hitem
      cases hbuilt with
      | hole => exact .null
      | node hbuild => exact hchild _ _ hbuild
  | literal field hliteral => exact hliteral.distinct
  | template field cooked raw => simpa using templateValue_distinct cooked raw

theorem BuiltSlots.distinct {slots : List Slot} {args : List (Arg Call)} {members : Members}
    (hslots : BuiltSlots build slots args members) : ∀ member ∈ members, member.2.Distinct := by
  induction hslots with
  | nil => simp
  | cons hslot _ ih =>
      intro member hmember
      rcases List.mem_append.mp hmember with hmember | hmember
      · exact hslot.distinct hchild member hmember
      · exact ih member hmember

end Nodes

theorem impliedFields_distinct (nodeType : NodeType) :
    ∀ member ∈ Estree.impliedFields nodeType, member.2.Distinct := by
  cases nodeType with
  | arrowFunctionExpression =>
      simp [Estree.impliedFields, Json.Distinct.null, Json.Distinct.bool]
  | _ => exact nofun

theorem BuiltNode.distinct {build : Call → Json → Prop} {call : Call} {tree : Json}
    (hnode : BuiltNode build call tree)
    (hchild : ∀ call value, build call value → value.Distinct) : tree.Distinct := by
  obtain ⟨nodeType, args⟩ := call
  obtain ⟨members, rfl, hobject⟩ := hnode.exists_builtObject
  refine .object hobject.keys_nodup fun member hmember => ?_
  cases hnode with
  | mk hslots =>
      rcases List.mem_append.mp hmember with hmember | hmember
      · rcases List.mem_cons.mp hmember with rfl | hmember
        · exact .string _
        · exact hslots.distinct hchild member hmember
      · exact impliedFields_distinct nodeType member hmember

theorem BuiltNode.nodeImage {build : Call → Json → Prop} {image : Json → Call → Prop} {call : Call}
    {tree : Json} (hnode : BuiltNode build call tree)
    (hchild : ∀ call value, build call value → image value call) : NodeImage image tree call := by
  obtain ⟨nodeType, args⟩ := call
  obtain ⟨members, rfl, hobject⟩ := hnode.exists_builtObject
  refine .mk ⟨hobject.tag, fun field hfield value hlookup => ?_⟩ (hobject.slots.imp ?_)
  · rw [hobject.lookup_unslotted hfield] at hlookup
    cases hlookup
  · rintro slot arg ⟨fields, hslot, hlookup⟩
    exact hslot.slotImage hlookup hchild

theorem BuiltObject.exists_builtSlot {build : Call → Json → Prop} {members : Members}
    {nodeType : NodeType} {args : List (Arg Call)}
    (hobject : BuiltObject build members nodeType args) {slot : Slot}
    (hslot : slot ∈ nodeType.slots) :
    ∃ arg fields, BuiltSlot build slot arg fields ∧
      ∀ key ∈ slot.keys, members.lookup key = fields.lookup key :=
  exists_forall₂_iff.mp ⟨_, hobject.slots⟩ slot hslot

theorem BuiltSlot.exists_builtLiteral {build : Call → Json → Prop} {field : String}
    {arg : Arg Call} {fields : Members}
    (hslot : BuiltSlot build ⟨field, .literalValue⟩ arg fields) :
    ∃ literal, BuiltLiteral literal fields ∧ arg = .literal literal := by
  cases hslot with
  | literal _ hliteral => exact ⟨_, hliteral, rfl⟩
  | child _ hkind => cases hkind.holdsNodes
  | list _ hkind => cases hkind

theorem BuiltSlot.exists_template {build : Call → Json → Prop} {field : String}
    {arg : Arg Call} {fields : Members}
    (hslot : BuiltSlot build ⟨field, .templateValue⟩ arg fields) :
    ∃ cooked raw, fields = [(field, Estree.templateValue cooked raw)] ∧
      arg = .template cooked raw := by
  cases hslot with
  | template _ cooked raw => exact ⟨cooked, raw, rfl, rfl⟩
  | child _ hkind => cases hkind.holdsNodes
  | list _ hkind => cases hkind

theorem BuiltLiteral.lookup_ne_null {literal : Literal} {fields : Members}
    (hbuilt : BuiltLiteral literal fields) :
    fields.lookup "regex" ≠ some .null ∧ fields.lookup "bigint" ≠ some .null := by
  cases hbuilt <;> exact ⟨nofun, nofun⟩

/-- Built nodes say nothing in a way that a normal form would drop. -/
theorem BuiltObject.kept {build : Call → Json → Prop} {members : Members} {nodeType : NodeType}
    {args : List (Arg Call)} (hobject : BuiltObject build members nodeType args) :
    Kept members nodeType := by
  refine ⟨?_, ?_⟩
  · rintro rfl hregex hbigint
    obtain ⟨arg, fields, hslot, hlookup⟩ :=
      hobject.exists_builtSlot (List.mem_singleton_self (Slot.literalValue "value"))
    obtain ⟨literal, hbuilt, -⟩ := hslot.exists_builtLiteral
    obtain ⟨hregex', hbigint'⟩ := hbuilt.lookup_ne_null
    rw [← hlookup "regex" (by decide)] at hregex'
    rw [← hlookup "bigint" (by decide)] at hbigint'
    exact ⟨hregex.resolve_right hregex', hbigint.resolve_right hbigint'⟩
  · rintro ⟨field, kind⟩ hslot rfl value hvalue
    obtain ⟨arg, fields, hbuilt, hlookup⟩ := hobject.exists_builtSlot hslot
    obtain ⟨cooked, raw, rfl, -⟩ := hbuilt.exists_template
    rw [hlookup field (List.mem_singleton_self _)] at hvalue
    obtain rfl : Estree.templateValue cooked raw = value := by simpa using hvalue
    rfl

/-! ## Trees -/

theorem BuiltSlots.imp {build build' : Call → Json → Prop} {slots : List Slot}
    {args : List (Arg Call)} {members : Members} (hslots : BuiltSlots build slots args members)
    (himp : ∀ arg ∈ args, ∀ child ∈ arg.children, ∀ value,
      build child value → build' child value) : BuiltSlots build' slots args members := by
  induction hslots with
  | nil => exact .nil
  | cons hslot _ ih =>
      exact .cons (hslot.imp (himp _ (.head _))) (ih fun arg harg => himp arg (.tail _ harg))

theorem BuiltNode.imp {build build' : Call → Json → Prop} {call : Call} {tree : Json}
    (hnode : BuiltNode build call tree)
    (himp : ∀ child ∈ call.children, ∀ value, build child value → build' child value) :
    BuiltNode build' call tree := by
  cases hnode with
  | mk hslots =>
      refine .mk (hslots.imp fun arg harg child hchild => ?_)
      exact himp child (Call.mem_children_iff.mpr ⟨arg, harg, hchild⟩)

/-- A tree that was evaluated is read back, and so is its normal form. -/
structure ReadsBack (call : Call) (tree : Json) : Prop where
  distinct : tree.Distinct
  given : Converts tree call
  normal : Converts tree.normal call

theorem readsBack_of_evaluates {call : Call} {tree : Json} (hevaluates : Evaluates call tree) :
    ReadsBack call tree := by
  -- The three facts go together: what a normal form drops is known only where no key
  -- is repeated, and the children must be read back in either form.
  induction call using Call.childInduction generalizing tree with
  | step call ih =>
      have hnode : BuiltNode ReadsBack call tree :=
        (evaluates_iff.mp hevaluates).imp fun child hchild value => ih child hchild
      have hdistinct := hnode.distinct fun _ _ hchild => hchild.distinct
      have htree : NodeImage (fun value call => ReadsBack call value) tree call :=
        hnode.nodeImage fun _ _ hchild => hchild
      obtain ⟨nodeType, args⟩ := call
      obtain ⟨members, rfl, hobject⟩ := hnode.exists_builtObject
      have hnormal : NodeImage Converts (Json.object members).normal (.mk nodeType args) :=
        htree.normal hdistinct hobject.kept (fun _ hchild => not_converts_null hchild.given)
          fun _ _ _ _ _ hchild => hchild.normal
      exact ⟨hdistinct, converts_iff.mpr (hnode.nodeImage fun _ _ hchild => hchild.given),
        converts_iff.mpr hnormal⟩

/-! ## Programs -/

theorem forall₂_converts_of_evaluates {calls : List Call} {trees : List Json}
    (hevaluates : List.Forall₂ Evaluates calls trees) : List.Forall₂ Converts trees calls :=
  List.Forall₂.flip (hevaluates.imp fun _ _ htree => (readsBack_of_evaluates htree).given)

theorem RoundTrip.again_of_run {input : Json} {trip : RoundTrip} (hrun : run input = .ok trip) :
    trip.again = .ok trip.calls := by
  obtain ⟨body, calls, rebuilt, -, -, hrebuilt, rfl⟩ := run_eq_ok_iff.mp hrun
  exact again_eq_ok_iff.mpr (forall₂_converts_of_evaluates hrebuilt)

namespace CommandLine

theorem compareCalls_self (calls : List Call) : compareCalls calls calls = .ok none := by
  rw [compareCalls, if_pos rfl]
  rfl

/-- A check passes exactly when the trees are the same; the calls never differ. -/
theorem judge_of_run {input : Json} {trip : RoundTrip} (hrun : RoundTrip.run input = .ok trip) :
    judge input = .ok (if trip.sameTree then none
      else some ⟨"reconstruction differs", trip.expected.pretty, trip.actual.pretty⟩) := by
  unfold judge
  rw [hrun]
  change (if trip.sameTree = true then trip.again >>= compareCalls trip.calls else _) = _
  rw [RoundTrip.again_of_run hrun]
  split
  · exact compareCalls_self trip.calls
  · rfl

theorem reason_of_judge {input : Json} {discrepancy : Discrepancy}
    (hjudge : judge input = .ok (some discrepancy)) :
    discrepancy.reason = "reconstruction differs" := by
  cases hrun : RoundTrip.run input with
  | error failure =>
      unfold judge at hjudge
      rw [hrun] at hjudge
      cases hjudge
  | ok trip =>
      rw [judge_of_run hrun, Except.ok.injEq] at hjudge
      split at hjudge
      · cases hjudge
      · cases hjudge
        rfl

end CommandLine

/--
Conversion undoes evaluation: for every call, of the tree and of its normal form; for
every program, of all its statements; so no check finds different calls.
-/
theorem conversion_inverts_evaluation :
    (∀ call tree, Evaluates call tree → Converts tree call ∧ Converts tree.normal call) ∧
      (∀ program calls trees, (Program.convert program).result = .ok calls →
        evaluateAll Estree.builders calls = .ok trees →
          (Program.convert (RoundTrip.programOf trees)).result = .ok calls) ∧
        ∀ files file discrepancy, CommandLine.checkFile files file = .ok (some discrepancy) →
          discrepancy.reason ≠ "reconverting the reconstruction gives different calls" := by
  refine ⟨fun call tree hevaluates => ?_, fun program calls trees _ hevaluates => ?_, ?_⟩
  · have hreads := readsBack_of_evaluates hevaluates
    exact ⟨hreads.given, hreads.normal⟩
  · refine Program.convert_eq_ok_iff.mpr ⟨trees, Program.body_programOf trees, ?_⟩
    exact forall₂_converts_of_evaluates (evaluateAll_eq_ok_iff.mp hevaluates)
  · intro files file discrepancy hcheck
    unfold CommandLine.checkFile at hcheck
    obtain ⟨input, -, hjudge⟩ := bind_eq_ok_iff.mp hcheck
    rw [CommandLine.reason_of_judge hjudge]
    decide

/-- `[, /a+/g]` -/
def sparseCall : Call :=
  .mk .arrayExpression [.list [.null, .node (.mk .literal [.literal (.regexp "a+" "g")])]]

def sparseTree : Json :=
  .object [("type", .string "ArrayExpression"), ("elements", .array [.null,
    .object [("type", .string "Literal"), ("value", .null),
      ("regex", .object [("pattern", .string "a+"), ("flags", .string "g")])]])]

/-- Every path leads to a program whose one statement has a key that no builder takes. -/
def strangeFiles : Files :=
  ⟨fun _ => .ok (.file (some
    "\x7b\"type\":\"Program\",\"body\":[\x7b\"type\":\"Super\",\"extra\":null\x7d]\x7d")),
    none, .silent⟩

theorem exists_strange_discrepancy : ∃ discrepancy,
    CommandLine.checkFile strangeFiles "program.json" = .ok (some discrepancy) := by
  have hfound :
      (CommandLine.checkFile strangeFiles "program.json").toOption.join.isSome = true := by
    decide +kernel
  cases hcheck : CommandLine.checkFile strangeFiles "program.json" with
  | error failure =>
      rw [hcheck] at hfound
      cases hfound
  | ok verdict =>
      rw [hcheck] at hfound
      obtain ⟨discrepancy, hverdict⟩ := Option.isSome_iff_exists.mp hfound
      exact ⟨discrepancy, congrArg Except.ok hverdict⟩

theorem conversion_inverts_evaluation_sparse :
    (Evaluates sparseCall sparseTree ∧ Converts sparseTree sparseCall ∧
        Converts sparseTree.normal sparseCall) ∧
      (Program.convert (RoundTrip.programOf [sparseTree])).result = .ok [sparseCall] ∧
        ∃ discrepancy,
          CommandLine.checkFile strangeFiles "program.json" = .ok (some discrepancy) ∧
            discrepancy.reason ≠ "reconverting the reconstruction gives different calls" := by
  have hevaluates : Evaluates sparseCall sparseTree := rfl
  obtain ⟨discrepancy, hcheck⟩ := exists_strange_discrepancy
  refine ⟨⟨hevaluates, conversion_inverts_evaluation.1 sparseCall sparseTree hevaluates⟩, ?_,
    discrepancy, hcheck, conversion_inverts_evaluation.2.2 strangeFiles _ discrepancy hcheck⟩
  exact conversion_inverts_evaluation.2.1 (RoundTrip.programOf [sparseTree]) [sparseCall]
    [sparseTree] rfl rfl

end BuilderCalls
