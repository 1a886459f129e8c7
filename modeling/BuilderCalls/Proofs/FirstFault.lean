import BuilderCalls.Proofs.Soundness

/-!
# The first fault of a call

Rendering and evaluating a call fail as the first of the calls in it that has a fault of
its own, in the order in which each call stands before those in it.  The two differ only
in the literals that they refuse: `Literal.writeFault?` for source text and
`Literal.jsonFault?` for JSON.

What the walks do with a call is the same: the check comes first, then the children from
left to right.  A call that fits its signature holds a literal or children, never both, so
it makes no difference that text is written before the children and nodes are built after.
-/

namespace BuilderCalls

/-! ## Failures of results -/

section Results

variable {α β : Type}

def failureOf? : Except Failure α → Option Failure
  | .error failure => some failure
  | .ok _ => none

@[simp] theorem failureOf?_ok (value : α) : failureOf? (.ok value) = none := rfl

@[simp] theorem failureOf?_error (failure : Failure) :
    failureOf? (.error failure : Except Failure α) = some failure := rfl

theorem failureOf?_eq_some_iff {result : Except Failure α} {failure : Failure} :
    failureOf? result = some failure ↔ result = .error failure := by
  cases result <;> simp

theorem failureOf?_eq_none_iff {result : Except Failure α} :
    failureOf? result = none ↔ ∃ value, result = .ok value := by
  cases result <;> simp

@[simp] theorem failureOf?_map (change : α → β) (result : Except Failure α) :
    failureOf? (change <$> result) = failureOf? result := by
  cases result <;> rfl

theorem failureOf?_bind {action : Except Failure α} {next : α → Except Failure β}
    {rest : Option Failure} (hnext : ∀ value, action = .ok value → failureOf? (next value) = rest) :
    failureOf? (action >>= next) = (failureOf? action).or rest := by
  cases action with
  | error failure => rfl
  | ok value => exact hnext value rfl

theorem findSome?_flatMap (part : α → List β) (search : β → Option Failure) (items : List α) :
    (items.flatMap part).findSome? search =
      items.findSome? fun item => (part item).findSome? search := by
  induction items with
  | nil => rfl
  | cons item items ih =>
      rw [List.flatMap_cons, List.findSome?_append, ih, List.findSome?_cons]
      cases (part item).findSome? search <;> rfl

theorem findSome?_congr {search search' : α → Option Failure} {items : List α}
    (hsame : ∀ item ∈ items, search item = search' item) :
    items.findSome? search = items.findSome? search' := by
  induction items with
  | nil => rfl
  | cons item items ih =>
      obtain ⟨hitem, hitems⟩ := List.forall_mem_cons.mp hsame
      rw [List.findSome?_cons, List.findSome?_cons, hitem, ih hitems]

end Results

/-! ## What a literal can be refused for -/

namespace Literal

def jsonFault? : Literal → Option WriteFault
  | .number value => if value.isFinite then none else some (.numberInJson value)
  | _ => none

/-- The literals that source text can hold. -/
def Writable : Literal → Prop
  | .number value => value.isFinite = true
  | .regexp pattern flags =>
      pattern ≠ "" ∧ (∀ char ∈ pattern.toList, isLineEnd char = false) ∧
        ∀ flag ∈ flags.toList, flag ∈ patternFlags
  | .bigint digits => digits ≠ "" ∧ ∀ digit ∈ digits.toList, digit.isDigit = true
  | _ => True

theorem writeFault?_eq_none_iff {literal : Literal} :
    literal.writeFault? = none ↔ literal.Writable := by
  cases literal with
  | number value => simp [writeFault?, Writable]
  | regexp pattern flags =>
      have hbody : (pattern.toList.isEmpty || pattern.toList.any isLineEnd) = false ↔
          pattern ≠ "" ∧ ∀ char ∈ pattern.toList, isLineEnd char = false := by
        simp
      have hflags : flags.toList.all patternFlags.contains = true ↔
          ∀ flag ∈ flags.toList, flag ∈ patternFlags := by
        simp
      rw [Writable, ← and_assoc, ← hbody, ← hflags, writeFault?]
      generalize (pattern.toList.isEmpty || pattern.toList.any isLineEnd) = bad
      generalize flags.toList.all patternFlags.contains = known
      cases bad <;> cases known <;> simp
  | _ => simp [writeFault?, Writable]

theorem jsonFault?_eq_none_iff {literal : Literal} :
    literal.jsonFault? = none ↔ ∀ value, literal = .number value → value.isFinite = true := by
  cases literal <;> simp [jsonFault?]

theorem Writable.jsonFault? {literal : Literal} (hwritable : literal.Writable) :
    literal.jsonFault? = none := by
  cases literal with
  | number value => simpa [Literal.jsonFault?, Writable] using hwritable
  | _ => rfl

end Literal

/-! ## The fault of a call -/

def Arg.literal? {ν : Type} : Arg ν → Option Literal
  | .literal value => some value
  | _ => none

namespace Call

variable (fault? : Literal → Option WriteFault)

def literalFailure? (call : Call) : Option Failure :=
  (call.args.findSome? fun arg => arg.literal?.bind fault?).map (.unwritable call.builder)

/-- What is wrong with the call apart from its children: it does not fit or holds a bad literal. -/
def ownFailure? (call : Call) : Option Failure :=
  (failureOf? call.check).or (call.literalFailure? fault?)

/-- A walk that fails as the call itself or else as one of its children fails as the first call. -/
theorem failureOf?_eq_findSome?_preorder {α : Type} {run : Call → Except Failure α}
    (hrun : ∀ call, failureOf? (run call) =
      (call.ownFailure? fault?).or (call.children.findSome? fun child => failureOf? (run child)))
    (call : Call) : failureOf? (run call) = call.preorder.findSome? (ownFailure? fault?) := by
  induction call using Call.childInduction with
  | step call ih =>
      rw [hrun, preorder_eq, List.findSome?_cons, findSome?_flatMap]
      have hchildren : (call.children.findSome? fun child => failureOf? (run child)) =
          call.children.findSome? fun child => child.preorder.findSome? (ownFailure? fault?) :=
        findSome?_congr ih
      rw [hchildren]
      cases call.ownFailure? fault? <;> rfl

variable {fault?}

theorem ownFailure?_eq_none_iff {call : Call} : call.ownFailure? fault? = none ↔
    call.check = .ok () ∧ ∀ literal, .literal literal ∈ call.args → fault? literal = none := by
  have hliterals : call.literalFailure? fault? = none ↔
      ∀ literal, .literal literal ∈ call.args → fault? literal = none := by
    rw [literalFailure?, Option.map_eq_none_iff, List.findSome?_eq_none_iff]
    constructor
    · intro hargs literal hliteral
      exact hargs _ hliteral
    · intro hliterals arg harg
      cases arg with
      | literal literal => exact hliterals literal harg
      | _ => rfl
  rw [ownFailure?, Option.or_eq_none_iff, failureOf?_eq_none_iff, hliterals]
  exact and_congr_left fun _ => ⟨fun ⟨(), hcheck⟩ => hcheck, fun hcheck => ⟨(), hcheck⟩⟩

theorem ownFailure?_of_check_error {call : Call} {failure : Failure}
    (hcheck : call.check = .error failure) : call.ownFailure? fault? = some failure := by
  rw [ownFailure?, hcheck]
  rfl

theorem ownFailure?_of_check_ok {call : Call} (hcheck : call.check = .ok ()) :
    call.ownFailure? fault? = call.literalFailure? fault? := by
  rw [ownFailure?, hcheck]
  rfl

theorem ownFailure?_of_literals {call : Call}
    (hliterals : ∀ literal, .literal literal ∈ call.args → fault? literal = none) :
    call.ownFailure? fault? = failureOf? call.check := by
  cases hcheck : call.check with
  | error failure => exact ownFailure?_of_check_error hcheck
  | ok => exact ownFailure?_eq_none_iff.mpr ⟨hcheck, hliterals⟩

/-- Without bad literals the first fault is the first check that fails. -/
theorem findSome?_preorder_of_literals {call : Call}
    (hliterals : ∀ inner ∈ call.preorder, ∀ literal, .literal literal ∈ inner.args →
      fault? literal = none) :
    call.preorder.findSome? (ownFailure? fault?) =
      call.preorder.findSome? fun inner => failureOf? inner.check :=
  findSome?_congr fun inner hinner => ownFailure?_of_literals (hliterals inner hinner)

theorem ownFailure?_jsonFault?_eq_none_iff {call : Call} :
    call.ownFailure? Literal.jsonFault? = none ↔ call.Fits := by
  simp only [ownFailure?_eq_none_iff, Literal.jsonFault?_eq_none_iff]
  constructor
  · rintro ⟨hcheck, hliterals⟩
    exact ⟨hcheck, fun value hvalue => hliterals _ hvalue value rfl⟩
  · intro hfits
    refine ⟨hfits.check, ?_⟩
    rintro _ hliteral value rfl
    exact hfits.finite value hliteral

theorem exists_mismatch_of_check {call : Call} {failure : Failure}
    (hcheck : call.check = .error failure) : ∃ fault, failure = .mismatch call.builder fault := by
  obtain ⟨nodeType, args⟩ := call
  have hslots : ∀ slots : List Slot, ∀ args : List (Arg Call),
      nodeType.checkSlots slots args = .error failure →
        ∃ fault, failure = .mismatch nodeType.builder fault := by
    intro slots args hslots
    fun_induction NodeType.checkSlots nodeType slots args with
    | case1 slot slots arg args hfits ih => exact ih hslots
    | case2 slot slots arg args hfits =>
        cases hslots
        exact ⟨_, rfl⟩
    | case3 => cases hslots
  unfold check NodeType.check at hcheck
  rcases bind_eq_error_iff.mp hcheck with harity | ⟨-, -, hcheck⟩
  · unfold NodeType.checkArity at harity
    split_ifs at harity
    cases harity
    exact ⟨_, rfl⟩
  · exact hslots _ _ hcheck

/-- A call that fits holds a literal only as the one argument of a literal. -/
theorem literals_of_check {call : Call} (hcheck : call.check = .ok ()) :
    (∀ arg ∈ call.args, arg.literal? = none) ∨
      ∃ literal, call = .mk .literal [.literal literal] := by
  obtain ⟨nodeType, args⟩ := call
  have hargs := NodeType.check_eq_ok_iff.mp hcheck
  by_cases htype : nodeType = .literal
  · subst htype
    obtain ⟨arg, rest, hfitting, hrest, rfl⟩ := List.forall₂_cons_left_iff.mp hargs
    cases List.forall₂_nil_left_iff.mp hrest
    cases hfitting with
    | literal literal => exact .inr ⟨literal, rfl⟩
    | child hkind => cases hkind.holdsNodes
    | absent hkind | list hkind => cases hkind
  · refine .inl fun arg harg => ?_
    obtain ⟨slot, hslot, hfitting⟩ := exists_mem_of_forall₂ hargs harg
    obtain ⟨field, kind⟩ := slot
    cases hfitting with
    | literal => exact absurd (NodeType.eq_literal_of_literalValue hslot rfl) htype
    | _ => rfl

theorem literalFailure?_eq_none {call : Call} (hargs : ∀ arg ∈ call.args, arg.literal? = none) :
    call.literalFailure? fault? = none := by
  rw [literalFailure?, Option.map_eq_none_iff, List.findSome?_eq_none_iff]
  intro arg harg
  rw [hargs arg harg, Option.bind_none]

/-- The call of a literal has the fault of this literal and no children. -/
theorem literalFailure?_literal (literal : Literal) :
    (Call.mk .literal [.literal literal]).literalFailure? fault? =
      (fault? literal).map (.unwritable NodeType.literal.builder) := by
  rw [literalFailure?, Call.args, List.findSome?_cons, Arg.literal?, Option.bind_some]
  cases fault? literal <;> rfl

end Call

/-! ## Walks over arguments -/

section Walks

variable {inArg : Arg Call → Option Failure} {inCall : Call → Option Failure}

/-- An argument without literals fails as the first of its nodes; lists are walked in order. -/
structure WalksNodes (inArg : Arg Call → Option Failure) (inCall : Call → Option Failure) :
    Prop where
  null : inArg .null = none
  bool (value : Bool) : inArg (.bool value) = none
  string (value : String) : inArg (.string value) = none
  node (call : Call) : inArg (.node call) = inCall call
  list (items : List (Arg Call)) : inArg (.list items) = items.findSome? inArg
  template (cooked : Option String) (raw : String) : inArg (.template cooked raw) = none

theorem WalksNodes.arg (hwalks : WalksNodes inArg inCall) {kind : SlotKind} {arg : Arg Call}
    (harg : Fitting kind arg) (hliteral : arg.literal? = none) :
    inArg arg = arg.children.findSome? inCall := by
  have hnode : ∀ call, inArg (.node call) = [call].findSome? inCall := by
    intro call
    rw [hwalks.node, List.findSome?_cons]
    cases inCall call <;> rfl
  cases harg with
  | name text | keyword => exact hwalks.string _
  | flag value => exact hwalks.bool value
  | absent => exact hwalks.null
  | template cooked raw => exact hwalks.template cooked raw
  | literal => cases hliteral
  | child _ call => exact hnode call
  | @list _ items _ hitems =>
      rw [hwalks.list, Arg.children]
      have hchildren : items.filterMap Arg.node? = items.flatMap Arg.children := by
        rw [List.filterMap_eq_flatMap_toList]
        refine List.flatMap_congr fun item hitem => ?_
        cases hitems item hitem <;> rfl
      rw [hchildren, findSome?_flatMap]
      refine findSome?_congr fun item hitem => ?_
      cases hitems item hitem with
      | hole => exact hwalks.null
      | node call => exact hnode call

theorem WalksNodes.args (hwalks : WalksNodes inArg inCall) {call : Call}
    (hcheck : call.check = .ok ()) (hliterals : ∀ arg ∈ call.args, arg.literal? = none) :
    call.args.findSome? inArg = call.children.findSome? inCall := by
  rw [Call.children, findSome?_flatMap]
  refine findSome?_congr fun arg harg => ?_
  obtain ⟨slot, -, hfitting⟩ := exists_mem_of_forall₂ (NodeType.check_eq_ok_iff.mp hcheck) harg
  exact hwalks.arg hfitting (hliterals arg harg)

end Walks

/-! ## Rendering -/

namespace Renderer

variable {renderer : Renderer} {owner : NodeType}

theorem failureOf?_argTexts (args : List (Arg Call)) :
    failureOf? (renderer.argTexts owner args) =
      args.findSome? fun arg => failureOf? (renderer.argChars owner arg) := by
  induction args with
  | nil => rfl
  | cons arg args ih =>
      rw [argTexts.eq_def, List.findSome?_cons, ← ih]
      refine (failureOf?_bind fun text _ => failureOf?_map (text :: ·) _).trans ?_
      cases failureOf? (renderer.argChars owner arg) <;> rfl

theorem walksNodes_argChars : WalksNodes (fun arg => failureOf? (renderer.argChars owner arg))
    fun call => failureOf? (renderer.callChars call) where
  null := by rw [argChars.eq_def]; rfl
  bool value := by rw [argChars.eq_def]; rfl
  string value := by rw [argChars.eq_def]; rfl
  node call := by rw [argChars.eq_def]
  list items := by
    rw [argChars.eq_def, ← failureOf?_argTexts]
    exact failureOf?_map (fun texts => '[' :: separated texts ++ [']']) _
  template cooked raw := by rw [argChars.eq_def]; rfl

theorem failureOf?_render_literal (quote : Quote) (literal : Literal) :
    failureOf? (literal.render quote owner) =
      literal.writeFault?.map (.unwritable owner.builder) := by
  unfold Literal.render
  cases literal.writeFault? <;> rfl

theorem failureOf?_callChars (call : Call) : failureOf? (renderer.callChars call) =
    (call.ownFailure? Literal.writeFault?).or
      (call.children.findSome? fun child => failureOf? (renderer.callChars child)) := by
  obtain ⟨nodeType, args⟩ := call
  have hwalk : failureOf? (renderer.callChars (.mk nodeType args)) =
      (failureOf? (nodeType.check args)).or
        (args.findSome? fun arg => failureOf? (renderer.argChars nodeType arg)) := by
    rw [callChars.eq_def, ← failureOf?_argTexts]
    exact failureOf?_bind fun _ _ => failureOf?_map (fun texts => renderer.namespaceName.toList ++
      '.' :: nodeType.builder.toList ++ '(' :: separated texts ++ [')']) _
  cases hcheck : (Call.mk nodeType args).check with
  | error failure =>
      rw [Call.ownFailure?_of_check_error hcheck, hwalk, show nodeType.check args = _ from hcheck]
      rfl
  | ok =>
      rw [Call.ownFailure?_of_check_ok hcheck, hwalk, show nodeType.check args = _ from hcheck,
        failureOf?_ok, Option.none_or]
      rcases Call.literals_of_check hcheck with hliterals | ⟨literal, hliteral⟩
      · rw [Call.literalFailure?_eq_none hliterals, Option.none_or]
        exact walksNodes_argChars.args hcheck hliterals
      · cases hliteral
        rw [Call.literalFailure?_literal, List.findSome?_cons, argChars.eq_def]
        dsimp only
        rw [failureOf?_render_literal]
        cases literal.writeFault? <;> rfl

theorem failureOf?_render (call : Call) : failureOf? (renderer.render call) =
    call.preorder.findSome? (Call.ownFailure? Literal.writeFault?) := by
  rw [← Call.failureOf?_eq_findSome?_preorder Literal.writeFault? failureOf?_callChars]
  exact failureOf?_map String.ofList _

end Renderer

/-! ## Evaluating -/

section Evaluating

theorem failureOf?_evaluateArgs (args : List (Arg Call)) :
    failureOf? (Call.evaluateArgs Estree.builders args) =
      args.findSome? fun arg => failureOf? (Call.evaluateArg Estree.builders arg) := by
  induction args with
  | nil => rfl
  | cons arg args ih =>
      rw [Call.evaluateArgs.eq_def, List.findSome?_cons, ← ih]
      refine (failureOf?_bind fun built _ => failureOf?_map (built :: ·) _).trans ?_
      cases failureOf? (Call.evaluateArg Estree.builders arg) <;> rfl

theorem walksNodes_evaluateArg :
    WalksNodes (fun arg => failureOf? (Call.evaluateArg Estree.builders arg))
      fun call => failureOf? (call.evaluate Estree.builders) where
  null := by rw [Call.evaluateArg.eq_def]; rfl
  bool value := by rw [Call.evaluateArg.eq_def]; rfl
  string value := by rw [Call.evaluateArg.eq_def]; rfl
  node call := by
    rw [Call.evaluateArg.eq_def]
    exact failureOf?_map Arg.node _
  list items := by
    rw [Call.evaluateArg.eq_def, ← failureOf?_evaluateArgs]
    exact failureOf?_map Arg.list _
  template cooked raw := by rw [Call.evaluateArg.eq_def]; rfl

theorem evaluate_estree (nodeType : NodeType) (args : List (Arg Call)) :
    (Call.mk nodeType args).evaluate Estree.builders = (do
      nodeType.check args
      Estree.build nodeType (← Call.evaluateArgs Estree.builders args)) := by
  rw [Call.evaluate.eq_def]
  dsimp only
  rw [ofExcept_eq]
  rfl

theorem failureOf?_literalFields (literal : Literal) :
    failureOf? (Estree.literalFields .literal literal) =
      literal.jsonFault?.map (.unwritable NodeType.literal.builder) := by
  cases literal with
  | number value =>
      cases hfinite : value.isFinite <;>
        simp [Estree.literalFields, Estree.number?, Number.ofDouble?, Literal.jsonFault?, hfinite]
  | _ => rfl

/-- The builders of nodes fail only for a literal, since what reaches them has been checked. -/
theorem failureOf?_build {call : Call} (hcheck : call.check = .ok ()) {built : List (Arg Json)}
    (hbuilt : Call.evaluateArgs Estree.builders call.args = .ok built) :
    failureOf? (Estree.build call.nodeType built) = call.literalFailure? Literal.jsonFault? := by
  rcases Call.literals_of_check hcheck with hliterals | ⟨literal, rfl⟩
  · rw [Call.literalFailure?_eq_none hliterals, failureOf?_eq_none_iff]
    have hchildren : ∀ child ∈ call.children, ∃ tree, Evaluates child tree := by
      have hargs := failureOf?_evaluateArgs call.args
      rw [hbuilt, walksNodes_evaluateArg.args hcheck hliterals, failureOf?_ok, eq_comm,
        List.findSome?_eq_none_iff] at hargs
      exact fun child hchild => failureOf?_eq_none_iff.mp (hargs child hchild)
    have hfits : call.Fits := ⟨hcheck, fun value hvalue => nomatch hliterals _ hvalue⟩
    obtain ⟨tree, htree⟩ := exists_evaluates_of_children hfits hchildren
    obtain ⟨nodeType, args⟩ := call
    rw [Evaluates, evaluate_estree] at htree
    simp only [bind_eq_ok_iff] at htree
    obtain ⟨-, -, built', hbuilt', hbuild⟩ := htree
    cases hbuilt.symm.trans hbuilt'
    exact ⟨tree, hbuild⟩
  · cases hbuilt
    rw [Call.literalFailure?_literal, ← failureOf?_literalFields]
    change failureOf? ((Estree.literalFields .literal literal >>= fun first =>
      .ok (first ++ [])) >>= fun slotted =>
        .ok (Json.object (("type", .string NodeType.literal.tag) :: slotted ++ []))) = _
    cases Estree.literalFields .literal literal <;> rfl

theorem exists_number_of_build_error {call : Call} (hcheck : call.check = .ok ())
    {built : List (Arg Json)}
    (hbuilt : Call.evaluateArgs Estree.builders call.args = .ok built) {failure : Failure}
    (hbuild : Estree.build call.nodeType built = .error failure) :
    ∃ value, call.args = [.literal (.number value)] ∧ value.isFinite = false ∧
      failure = .unwritable call.builder (.numberInJson value) := by
  have hliteral := failureOf?_build hcheck hbuilt
  rw [hbuild, failureOf?_error] at hliteral
  rcases Call.literals_of_check hcheck with hliterals | ⟨literal, rfl⟩
  · rw [Call.literalFailure?_eq_none hliterals] at hliteral
    cases hliteral
  · rw [Call.literalFailure?_literal] at hliteral
    cases literal with
    | number value =>
        unfold Literal.jsonFault? at hliteral
        cases hfinite : value.isFinite with
        | true => simp [hfinite] at hliteral
        | false =>
            simp only [hfinite, Bool.false_eq_true, if_false, Option.map_some,
              Option.some.injEq] at hliteral
            exact ⟨value, rfl, hfinite, hliteral⟩
    | _ => cases hliteral

theorem failureOf?_evaluate (call : Call) : failureOf? (call.evaluate Estree.builders) =
    (call.ownFailure? Literal.jsonFault?).or
      (call.children.findSome? fun child => failureOf? (child.evaluate Estree.builders)) := by
  obtain ⟨nodeType, args⟩ := call
  cases hcheck : (Call.mk nodeType args).check with
  | error failure =>
      rw [Call.ownFailure?_of_check_error hcheck, evaluate_estree,
        show nodeType.check args = _ from hcheck]
      rfl
  | ok =>
      have hwalk : failureOf? ((Call.mk nodeType args).evaluate Estree.builders) =
          (args.findSome? fun arg => failureOf? (Call.evaluateArg Estree.builders arg)).or
            ((Call.mk nodeType args).literalFailure? Literal.jsonFault?) := by
        rw [evaluate_estree, show nodeType.check args = _ from hcheck, ← failureOf?_evaluateArgs]
        change failureOf? (Call.evaluateArgs Estree.builders args >>= Estree.build nodeType) = _
        exact failureOf?_bind fun built hbuilt => failureOf?_build hcheck hbuilt
      rw [Call.ownFailure?_of_check_ok hcheck, hwalk]
      rcases Call.literals_of_check hcheck with hliterals | ⟨literal, hliteral⟩
      · rw [Call.literalFailure?_eq_none hliterals, Option.none_or, Option.or_none]
        exact walksNodes_evaluateArg.args hcheck hliterals
      · cases hliteral
        rw [Call.literalFailure?_literal, List.findSome?_cons, Call.evaluateArg.eq_def]
        cases literal.jsonFault? <;> rfl

end Evaluating

/--
Rendering and evaluating a call succeed exactly when no call in it is at fault, and fail
as the first that is.  Checks hold back everything else that could fail: with literals
that can be written the two succeed together or fail with the same mismatch.
-/
theorem rendering_and_evaluation_report_the_first_fault (renderer : Renderer) (call : Call) :
    ((∃ text, renderer.render call = .ok text) ↔
      ∀ inner ∈ call.preorder, inner.check = .ok () ∧
        ∀ literal, .literal literal ∈ inner.args → literal.Writable) ∧
    (∀ failure, renderer.render call = .error failure ↔
      call.preorder.findSome? (Call.ownFailure? Literal.writeFault?) = some failure) ∧
    ((∃ tree, call.evaluate Estree.builders = .ok tree) ↔
      ∀ inner ∈ call.preorder, inner.Fits) ∧
    (∀ failure, call.evaluate Estree.builders = .error failure ↔
      call.preorder.findSome? (Call.ownFailure? Literal.jsonFault?) = some failure) ∧
    (∀ (inner : Call) built failure, inner.check = .ok () →
      Call.evaluateArgs Estree.builders inner.args = .ok built →
        Estree.build inner.nodeType built = .error failure →
          ∃ value, inner.args = [.literal (.number value)] ∧ value.isFinite = false ∧
            failure = .unwritable inner.builder (.numberInJson value)) ∧
    ((∀ inner ∈ call.preorder, ∀ literal, .literal literal ∈ inner.args → literal.Writable) →
      (∃ text tree, renderer.render call = .ok text ∧ call.evaluate Estree.builders = .ok tree) ∨
        ∃ builder fault, renderer.render call = .error (.mismatch builder fault) ∧
          call.evaluate Estree.builders = .error (.mismatch builder fault)) := by
  have hrender := renderer.failureOf?_render call
  have hevaluate := Call.failureOf?_eq_findSome?_preorder Literal.jsonFault?
    failureOf?_evaluate call
  refine ⟨?_, fun failure => ?_, ?_, fun failure => ?_,
    fun inner built failure hcheck hbuilt hbuild => ?_, fun hwritable => ?_⟩
  · rw [← failureOf?_eq_none_iff, hrender, List.findSome?_eq_none_iff]
    simp only [Call.ownFailure?_eq_none_iff, Literal.writeFault?_eq_none_iff]
  · rw [← failureOf?_eq_some_iff, hrender]
  · rw [← failureOf?_eq_none_iff, hevaluate, List.findSome?_eq_none_iff]
    simp only [Call.ownFailure?_jsonFault?_eq_none_iff]
  · rw [← failureOf?_eq_some_iff, hevaluate]
  · exact exists_number_of_build_error hcheck hbuilt hbuild
  · have hwritten := hrender.trans (Call.findSome?_preorder_of_literals
      fun inner hinner literal hliteral =>
        Literal.writeFault?_eq_none_iff.mpr (hwritable inner hinner literal hliteral))
    have hbuilt := hevaluate.trans (Call.findSome?_preorder_of_literals
      fun inner hinner literal hliteral => (hwritable inner hinner literal hliteral).jsonFault?)
    cases hfirst : call.preorder.findSome? fun inner => failureOf? inner.check with
    | none =>
        obtain ⟨text, htext⟩ := failureOf?_eq_none_iff.mp (hwritten.trans hfirst)
        obtain ⟨tree, htree⟩ := failureOf?_eq_none_iff.mp (hbuilt.trans hfirst)
        exact .inl ⟨text, tree, htext, htree⟩
    | some failure =>
        obtain ⟨inner, -, hcheck⟩ := List.exists_of_findSome?_eq_some hfirst
        obtain ⟨fault, rfl⟩ := Call.exists_mismatch_of_check (failureOf?_eq_some_iff.mp hcheck)
        exact .inr ⟨_, fault, failureOf?_eq_some_iff.mp (hwritten.trans hfirst),
          failureOf?_eq_some_iff.mp (hbuilt.trans hfirst)⟩

/-- A pattern that cannot be written, before a call that lacks its argument. -/
def faultyCall : Call :=
  .mk .arrayExpression [.list [.node (.mk .literal [.literal (.regexp "" "g")]),
    .node (.mk .identifier [])]]

/-- A list in a list, where no node would be found. -/
def nestedListCall : Call :=
  .mk .arrayExpression [.list [.node (.mk .thisExpression []),
    .node (.mk .arrayExpression [.list [.list [.node (.mk .identifier [])]]])]]

def infiniteCall : Call :=
  .mk .literal [.literal (.number (.infinity false))]

theorem rendering_and_evaluation_report_the_first_fault_in_lists :
    (faultyCall.preorder.findSome? (Call.ownFailure? Literal.writeFault?) =
        some (.unwritable NodeType.literal.builder (.pattern "")) ∧
      faultyCall.preorder.findSome? (Call.ownFailure? Literal.jsonFault?) =
        some (.mismatch NodeType.identifier.builder (.arity .identifier 0))) ∧
    (∃ value, infiniteCall.args = [.literal (.number value)] ∧ value.isFinite = false) ∧
    ∃ builder fault, plainRenderer.render nestedListCall = .error (.mismatch builder fault) ∧
      nestedListCall.evaluate Estree.builders = .error (.mismatch builder fault) := by
  obtain ⟨-, hrender, -, hevaluate, -, -⟩ :=
    rendering_and_evaluation_report_the_first_fault plainRenderer faultyCall
  obtain ⟨-, -, -, -, hbuild, -⟩ :=
    rendering_and_evaluation_report_the_first_fault plainRenderer infiniteCall
  obtain ⟨-, -, -, -, -, halike⟩ :=
    rendering_and_evaluation_report_the_first_fault plainRenderer nestedListCall
  refine ⟨⟨(hrender _).mp rfl, (hevaluate _).mp rfl⟩, ?_, ?_⟩
  · obtain ⟨value, hargs, hinfinite, -⟩ := hbuild infiniteCall _ _ rfl rfl rfl
    exact ⟨value, hargs, hinfinite⟩
  · have hliterals : ∀ inner ∈ nestedListCall.preorder, ∀ literal,
        .literal literal ∈ inner.args → literal.Writable := by
      simp [nestedListCall, Call.preorder_eq, Call.children, Call.args, Arg.children,
        List.filterMap_cons, Arg.node?]
    rcases halike hliterals with ⟨text, -, htext, -⟩ | hmismatch
    · cases htext
    · exact hmismatch

end BuilderCalls
