import BuilderCalls.Proofs.FirstFault

/-!
# Building without a check

The builders of ESTree nodes may be handed any arguments.  They count them, and they refuse
a literal or a template outside of the slot that is made for it; everything else they put
into the node as it is, whether it fits its slot or not.  So lists that do not fit are
refused in part only, and those that are refused are refused as mismatches.
-/

namespace BuilderCalls.Estree

variable {nodeType : NodeType} {slot : Slot} {failure : Failure}

/-- Nothing in the argument is a literal or a template. -/
inductive Bare : Arg Json → Prop
  | null : Bare .null
  | bool (value : Bool) : Bare (.bool value)
  | string (value : String) : Bare (.string value)
  | node (node : Json) : Bare (.node node)
  | list {items : List (Arg Json)} (hitems : ∀ item ∈ items, Bare item) : Bare (.list items)

/-- What is put into the field of a slot. -/
inductive Takes (kind : SlotKind) : Arg Json → Prop
  | bare {arg : Arg Json} (hbare : Bare arg) : Takes kind arg
  | literal {literal : Literal} (hkind : kind = .literalValue)
      (hfinite : ∀ value, literal = .number value → value.isFinite = true) :
      Takes kind (.literal literal)
  | template (cooked : Option String) (raw : String) (hkind : kind = .templateValue) :
      Takes kind (.template cooked raw)

def IsMismatch (nodeType : NodeType) (failure : Failure) : Prop :=
  ∃ fault, failure = .mismatch nodeType.builder fault

/-! ## Arguments as they are -/

theorem bare_list_iff {items : List (Arg Json)} :
    Bare (.list items) ↔ ∀ item ∈ items, Bare item := by
  constructor
  · intro hlist
    cases hlist with
    | list hitems => exact hitems
  · exact .list

mutual

theorem exists_plain_iff : (arg : Arg Json) →
    ((∃ value, plain nodeType slot arg = .ok value) ↔ Bare arg)
  | .null => iff_of_true ⟨_, rfl⟩ .null
  | .bool value => iff_of_true ⟨_, rfl⟩ (.bool value)
  | .string value => iff_of_true ⟨_, rfl⟩ (.string value)
  | .node node => iff_of_true ⟨_, rfl⟩ (.node node)
  | .list items => by
      rw [bare_list_iff, ← exists_plainItems_iff items, plain.eq_def]
      simp
  | .literal value => iff_of_false nofun nofun
  | .template cooked raw => iff_of_false nofun nofun

theorem exists_plainItems_iff : (items : List (Arg Json)) →
    ((∃ values, plainItems nodeType slot items = .ok values) ↔ ∀ item ∈ items, Bare item)
  | [] => iff_of_true ⟨_, rfl⟩ (List.forall_mem_nil _)
  | item :: items => by
      rw [List.forall_mem_cons, ← exists_plain_iff item, ← exists_plainItems_iff items,
        plainItems.eq_def]
      simp

end

mutual

theorem isMismatch_of_plain : (arg : Arg Json) →
    ∀ failure, plain nodeType slot arg = .error failure → IsMismatch nodeType failure
  | .null => fun _ hplain => nomatch hplain
  | .bool value => fun _ hplain => nomatch hplain
  | .string value => fun _ hplain => nomatch hplain
  | .node node => fun _ hplain => nomatch hplain
  | .list items => by
      intro failure hitems
      rw [plain.eq_def] at hitems
      exact isMismatch_of_plainItems items failure (map_eq_error_iff.mp hitems)
  | .literal value => by
      rintro failure ⟨⟩
      exact ⟨_, rfl⟩
  | .template cooked raw => by
      rintro failure ⟨⟩
      exact ⟨_, rfl⟩

theorem isMismatch_of_plainItems : (items : List (Arg Json)) →
    ∀ failure, plainItems nodeType slot items = .error failure → IsMismatch nodeType failure
  | [] => fun _ hitems => nomatch hitems
  | item :: items => by
      intro failure hitems
      rw [plainItems.eq_def] at hitems
      rcases bind_eq_error_iff.mp hitems with hitem | ⟨value, -, hrest⟩
      · exact isMismatch_of_plain item failure hitem
      · rcases bind_eq_error_iff.mp hrest with hitems | ⟨values, -, hnone⟩
        · exact isMismatch_of_plainItems items failure hitems
        · cases hnone

end

/-! ## Slots -/

theorem bare_of_fitting {kind : SlotKind} {arg : Arg Json} (hfitting : Fitting kind arg)
    (hliteral : kind ≠ .literalValue) (htemplate : kind ≠ .templateValue) : Bare arg := by
  cases hfitting with
  | name text => exact .string text
  | keyword => exact .string _
  | flag value => exact .bool value
  | child _ node => exact .node node
  | absent => exact .null
  | list _ hitems =>
      refine .list fun item hitem => ?_
      cases hitems item hitem with
      | hole => exact .null
      | node node => exact .node node
  | literal => exact absurd rfl hliteral
  | template => exact absurd rfl htemplate

/-- A slot takes whatever fits it, infinite numbers apart. -/
theorem takes_of_fitting {kind : SlotKind} {arg : Arg Json} (hfitting : Fitting kind arg)
    (hfinite : ∀ value, arg = .literal (.number value) → value.isFinite = true) :
    Takes kind arg := by
  by_cases hliteral : kind = .literalValue
  · subst hliteral
    cases hfitting with
    | literal literal => exact .literal rfl fun value hvalue => hfinite value (by rw [hvalue])
    | child hkind => cases hkind <;> contradiction
    | absent hkind => cases hkind
    | list hkind => cases hkind
  · by_cases htemplate : kind = .templateValue
    · subst htemplate
      cases hfitting with
      | template cooked raw => exact .template cooked raw rfl
      | child hkind => cases hkind <;> contradiction
      | absent hkind => cases hkind
      | list hkind => cases hkind
    · exact .bare (bare_of_fitting hfitting hliteral htemplate)

theorem exists_literalFields_iff {literal : Literal} :
    (∃ members, literalFields nodeType literal = .ok members) ↔
      ∀ value, literal = .number value → value.isFinite = true := by
  cases literal with
  | number value =>
      cases hfinite : value.isFinite <;>
        simp [literalFields, number?, Number.ofDouble?, hfinite]
  | _ => simp [literalFields]

theorem exists_plainField_iff {arg : Arg Json} :
    (∃ members, (do return [(slot.field, ← plain nodeType slot arg)] :
      Except Failure Members) = .ok members) ↔ Bare arg := by
  have hplain : (∃ value, plain nodeType slot arg = .ok value) ↔ Bare arg := exists_plain_iff arg
  rw [← hplain]
  simp

theorem exists_fields_iff {arg : Arg Json} :
    (∃ members, fields nodeType slot arg = .ok members) ↔ Takes slot.kind arg := by
  unfold fields
  split
  next hkind =>
      rw [hkind]
      exact iff_of_true ⟨_, rfl⟩ (.bare .null)
  next literal hkind =>
      rw [exists_literalFields_iff, hkind]
      constructor
      · exact .literal rfl
      · intro htakes
        cases htakes with
        | bare hbare => cases hbare
        | literal _ hfinite => exact hfinite
  next cooked raw hkind =>
      rw [hkind]
      exact iff_of_true ⟨_, rfl⟩ (.template cooked raw rfl)
  next hliteral htemplate =>
      rw [exists_plainField_iff]
      constructor
      · exact .bare
      · intro htakes
        cases htakes with
        | bare hbare => exact hbare
        | literal hkind => exact absurd rfl (hliteral _ hkind)
        | template cooked raw hkind => exact absurd rfl (htemplate cooked raw hkind)

/-- A slot refuses an argument as a mismatch, or a number of its own that JSON cannot hold. -/
theorem fields_eq_error {arg : Arg Json} (hfields : fields nodeType slot arg = .error failure) :
    IsMismatch nodeType failure ∨ ∃ value, slot.kind = .literalValue ∧
      arg = .literal (.number value) ∧ value.isFinite = false ∧
        failure = .unwritable nodeType.builder (.numberInJson value) := by
  unfold fields at hfields
  split at hfields
  next => cases hfields
  next literal hkind =>
      cases literal with
      | number value =>
          cases hfinite : value.isFinite with
          | true => simp [literalFields, number?, Number.ofDouble?, hfinite] at hfields
          | false =>
              simp only [literalFields, number?, Number.ofDouble?, hfinite] at hfields
              cases hfields
              exact .inr ⟨value, hkind, rfl, hfinite, rfl⟩
      | _ => cases hfields
  next => cases hfields
  next =>
      rcases bind_eq_error_iff.mp hfields with hplain | ⟨value, -, hnone⟩
      · exact .inl (isMismatch_of_plain _ _ hplain)
      · cases hnone

/-! ## Nodes -/

theorem exists_allFields_iff {slots : List Slot} {args : List (Arg Json)}
    (hlength : args.length = slots.length) :
    (∃ members, allFields nodeType slots args = .ok members) ↔
      List.Forall₂ (fun slot arg => Takes slot.kind arg) slots args := by
  induction slots generalizing args with
  | nil =>
      cases List.length_eq_zero_iff.mp hlength
      exact iff_of_true ⟨_, rfl⟩ .nil
  | cons slot slots ih =>
      cases args with
      | nil => cases hlength
      | cons arg args =>
          have hrest := ih (Nat.succ.inj hlength)
          rw [List.forall₂_cons, ← hrest,
            ← (exists_fields_iff : (∃ members, fields nodeType slot arg = .ok members) ↔ _)]
          simp [allFields_cons_iff]

theorem allFields_eq_error {slots : List Slot} {args : List (Arg Json)}
    (hfields : allFields nodeType slots args = .error failure) :
    ∃ slot ∈ slots, ∃ arg ∈ args, fields nodeType slot arg = .error failure := by
  induction slots generalizing args with
  | nil => cases hfields
  | cons slot slots ih =>
      cases args with
      | nil => cases hfields
      | cons arg args =>
          rw [allFields] at hfields
          rcases bind_eq_error_iff.mp hfields with hfirst | ⟨first, -, hrest⟩
          · exact ⟨slot, .head _, arg, .head _, hfirst⟩
          · rcases bind_eq_error_iff.mp hrest with hrest | ⟨rest, -, hnone⟩
            · obtain ⟨slot', hslot, arg', harg, hfields⟩ := ih hrest
              exact ⟨slot', .tail _ hslot, arg', .tail _ harg, hfields⟩
            · cases hnone

variable {args : List (Arg Json)}

theorem build_eq_ok_iff {tree : Json} :
    build nodeType args = .ok tree ↔ args.length = nodeType.slots.length ∧
      ∃ slotted, allFields nodeType nodeType.slots args = .ok slotted ∧
        .object (("type", .string nodeType.tag) :: slotted ++ impliedFields nodeType) = tree := by
  simp [build, NodeType.checkArity_eq_ok_iff]

theorem exists_build_iff : (∃ tree, build nodeType args = .ok tree) ↔
    List.Forall₂ (fun slot arg => Takes slot.kind arg) nodeType.slots args := by
  constructor
  · rintro ⟨tree, hbuild⟩
    obtain ⟨hlength, slotted, hslotted, -⟩ := build_eq_ok_iff.mp hbuild
    exact (exists_allFields_iff hlength).mp ⟨slotted, hslotted⟩
  · intro htakes
    have hlength := htakes.length_eq.symm
    obtain ⟨slotted, hslotted⟩ := (exists_allFields_iff hlength).mpr htakes
    exact ⟨_, build_eq_ok_iff.mpr ⟨hlength, slotted, hslotted, rfl⟩⟩

theorem isMismatch_of_checkArity (hcheck : nodeType.checkArity args = .error failure) :
    IsMismatch nodeType failure := by
  unfold NodeType.checkArity at hcheck
  split at hcheck
  · cases hcheck
  · cases hcheck
    exact ⟨_, rfl⟩

/-- Apart from mismatches there is one failure: of a literal node with an infinite number. -/
theorem build_eq_error (hbuild : build nodeType args = .error failure) :
    IsMismatch nodeType failure ∨ ∃ value, nodeType = .literal ∧
      args = [.literal (.number value)] ∧ value.isFinite = false ∧
        failure = .unwritable nodeType.builder (.numberInJson value) := by
  rcases bind_eq_error_iff.mp hbuild with harity | ⟨⟨⟩, harity, hrest⟩
  · exact .inl (isMismatch_of_checkArity harity)
  · rcases bind_eq_error_iff.mp hrest with hfields | ⟨slotted, -, hnone⟩
    · obtain ⟨slot, hslot, arg, harg, hfields⟩ := allFields_eq_error hfields
      rcases fields_eq_error hfields with hmismatch | ⟨value, hkind, rfl, hfinite, hfailure⟩
      · exact .inl hmismatch
      · obtain rfl := NodeType.eq_literal_of_literalValue hslot hkind
        obtain ⟨only, rfl⟩ := List.length_eq_one_iff.mp (NodeType.checkArity_eq_ok_iff.mp harity)
        cases List.mem_singleton.mp harg
        exact .inr ⟨value, rfl, rfl, hfinite, hfailure⟩
    · cases hnone

theorem takes_of_fittings {slots : List Slot}
    (hfitting : List.Forall₂ (fun slot arg => Fitting slot.kind arg) slots args)
    (hfinite : ∀ value, .literal (.number value) ∈ args → value.isFinite = true) :
    List.Forall₂ (fun slot arg => Takes slot.kind arg) slots args := by
  induction hfitting with
  | nil => exact .nil
  | cons hslot _ ih =>
      have hrest := ih fun value hvalue => hfinite value (.tail _ hvalue)
      refine .cons (takes_of_fitting hslot ?_) hrest
      rintro value rfl
      exact hfinite value (.head _)

theorem check_literal (literal : Literal) :
    NodeType.literal.check [(.literal literal : Arg Json)] = .ok () := rfl

theorem build_infinite {value : Double} (hvalue : value.isFinite = false) :
    build .literal [.literal (.number value)] =
      .error (.unwritable NodeType.literal.builder (.numberInJson value)) := by
  have hfields : fields .literal (.literalValue "value") (.literal (.number value)) =
      .error (.unwritable NodeType.literal.builder (.numberInJson value)) := by
    simp [fields, Slot.literalValue, literalFields, number?, Number.ofDouble?, hvalue]
  change (fields .literal (.literalValue "value") (.literal (.number value)) >>= _ >>= _) = _
  rw [hfields]
  rfl

/-- Of the lists that fit, an infinite number is all that is refused. -/
theorem build_of_check (hcheck : nodeType.check args = .ok ()) :
    (∃ tree, build nodeType args = .ok tree) ∨ ∃ value, value.isFinite = false ∧
      args = [.literal (.number value)] ∧
        build nodeType args = .error (.unwritable nodeType.builder (.numberInJson value)) := by
  have hfitting := NodeType.check_eq_ok_iff.mp hcheck
  by_cases hfinite : ∀ value, .literal (.number value) ∈ args → value.isFinite = true
  · exact .inl (exists_build_iff.mpr (takes_of_fittings hfitting hfinite))
  · simp only [not_forall, Bool.not_eq_true] at hfinite
    obtain ⟨value, hvalue, hinfinite⟩ := hfinite
    obtain ⟨slot, hslot, hliteral⟩ := exists_mem_of_forall₂ hfitting hvalue
    have hkind : slot.kind = .literalValue := by
      generalize slot.kind = kind at hliteral
      cases hliteral
      rfl
    obtain rfl := NodeType.eq_literal_of_literalValue hslot hkind
    obtain ⟨only, rfl⟩ := List.length_eq_one_iff.mp hfitting.length_eq.symm
    cases List.mem_singleton.mp hvalue
    exact .inr ⟨value, hinfinite, rfl, build_infinite hinfinite⟩

/--
The builders of nodes take a list of arguments exactly when it has one for each slot, with no
literal or template outside of its own slot and no infinite number.  Of the lists that fit they
take all but those of an infinite number; of the others, those that they refuse are refused as
mismatches.
-/
theorem nodes_are_built_of_all_but_misplaced_values (nodeType : NodeType)
    (args : List (Arg Json)) :
    ((∃ tree, build nodeType args = .ok tree) ↔
        List.Forall₂ (fun slot arg => Takes slot.kind arg) nodeType.slots args) ∧
      (nodeType.check args = .ok () → (∃ tree, build nodeType args = .ok tree) ∨
        ∃ value, value.isFinite = false ∧ args = [.literal (.number value)] ∧
          build nodeType args = .error (.unwritable nodeType.builder (.numberInJson value))) ∧
      (nodeType.check args ≠ .ok () → ∀ failure, build nodeType args = .error failure →
        IsMismatch nodeType failure) := by
  refine ⟨exists_build_iff, build_of_check, fun hmisfit failure hbuild => ?_⟩
  rcases build_eq_error hbuild with hmismatch | ⟨value, rfl, rfl, -, -⟩
  · exact hmismatch
  · exact absurd (check_literal _) hmisfit

/-- A literal in the place of a name is refused, and so is an infinite number in its own. -/
theorem nodes_are_built_of_all_but_misplaced_values_literals :
    NodeType.identifier.check [(.literal .null : Arg Json)] ≠ .ok () ∧
      IsMismatch .identifier
        (.mismatch "identifier" (.strayLiteral (.name "name") .null)) ∧
      NodeType.literal.check [(.literal (.number (.infinity false)) : Arg Json)] = .ok () ∧
        ∃ value, value.isFinite = false ∧
          build .literal [.literal (.number (.infinity false))] =
            .error (.unwritable NodeType.literal.builder (.numberInJson value)) := by
  obtain ⟨-, -, hmisfits⟩ := nodes_are_built_of_all_but_misplaced_values .identifier
    [.literal .null]
  obtain ⟨-, hfits, -⟩ := nodes_are_built_of_all_but_misplaced_values .literal
    [.literal (.number (.infinity false))]
  have hmisfit : NodeType.identifier.check [(.literal .null : Arg Json)] ≠ .ok () := nofun
  refine ⟨hmisfit, hmisfits hmisfit _ rfl, check_literal _, ?_⟩
  rcases hfits (check_literal _) with ⟨tree, htree⟩ | ⟨value, hinfinite, -, hbuild⟩
  · cases htree
  · exact ⟨value, hinfinite, hbuild⟩

/-- A name that is missing is put into the node as it is. -/
theorem misfit_is_built :
    ¬∀ (nodeType : NodeType) (args : List (Arg Json)) (tree : Json),
      build nodeType args = .ok tree → nodeType.check args = .ok () := by
  intro hcontract
  have hbuild : build .identifier [.null] =
      .ok (.object [("type", .string "Identifier"), ("name", .null)]) := rfl
  cases hcontract _ _ _ hbuild

end BuilderCalls.Estree
