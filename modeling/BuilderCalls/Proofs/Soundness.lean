import BuilderCalls.Proofs.Inversion
import BuilderCalls.Rendering

/-!
# Converted calls are sound

A call is sound when it and all calls in it fit their signatures and no number
in it is infinite.  What the converter yields is sound, and a sound call is
evaluated without failure and rendered without a mismatch; so of the steps that
follow a conversion none fails.
-/

namespace BuilderCalls

/-! ## Sound calls -/

/-- The call fits its signature and its numbers are finite; nothing is said of its children. -/
structure Call.Fits (call : Call) : Prop where
  check : call.check = .ok ()
  finite : ∀ value, Arg.literal (.number value) ∈ call.args → value.isFinite = true

def Call.Sound (call : Call) : Prop :=
  ∀ inner, call.Contains inner → inner.Fits

theorem Call.Sound.fits {call : Call} (hsound : call.Sound) : call.Fits :=
  hsound call (.self call)

theorem Call.Sound.child {call child : Call} (hsound : call.Sound)
    (hchild : child ∈ call.children) : child.Sound :=
  fun inner hinner => hsound inner (.child hchild hinner)

theorem Call.sound_of_fits {call : Call} (hfits : call.Fits)
    (hchildren : ∀ child ∈ call.children, child.Sound) : call.Sound := by
  intro inner hinner
  cases hinner with
  | self => exact hfits
  | child hchild hinner => exact hchildren _ hchild inner hinner

/-! ## What is converted is sound -/

section Converted

variable {members : Members} {slot : Slot} {arg : Arg Call}

theorem SlotImage.fitting {image : Json → Call → Prop}
    (himage : SlotImage image members slot arg) : Fitting slot.kind arg := by
  cases himage with
  | name => exact .name _
  | keyword _ hword => exact .keyword hword
  | flag | absentFlag => exact .flag _
  | child hkind => exact .child hkind _
  | absentChild hkind => exact .absent hkind
  | list hkind _ hitems =>
      refine .list hkind fun arg harg => ?_
      obtain ⟨item, -, himage⟩ := exists_mem_of_forall₂ hitems harg
      cases himage with
      | hole hkind => exact .hole hkind
      | node => exact .node _
  | literal => exact .literal _
  | template => exact .template _ _

theorem isFinite_of_literalImage {value : Double}
    (hliteral : LiteralImage members (.number value)) : value.isFinite = true := by
  cases hliteral with
  | plain _ _ _ hplain =>
      cases hplain with
      | number number => exact number.isFinite_toDouble

theorem SlotImage.exists_holds {image : Json → Call → Prop}
    (himage : SlotImage image members slot arg) {child : Call} (hchild : child ∈ arg.children) :
    ∃ value, members.Holds value ∧ image value child := by
  rcases Arg.mem_children_iff.mp hchild with rfl | ⟨args, rfl, hnode⟩
  · cases himage with
    | child _ hfield himage => exact ⟨_, .field (Members.mem_of_lookup hfield), himage⟩
  · cases himage with
    | list _ hfield hitems =>
        obtain ⟨item, hitem, himage⟩ := exists_mem_of_forall₂ hitems hnode
        cases himage with
        | node himage => exact ⟨item, .item (Members.mem_of_lookup hfield) hitem, himage⟩

end Converted

theorem sound_of_converts {value : Json} {call : Call} (hconverts : Converts value call) :
    call.Sound := by
  induction value using Json.fieldInduction generalizing call with
  | other value hvalue =>
      obtain ⟨members, rfl⟩ := hconverts.isObject
      cases hvalue
  | object members ih =>
      cases converts_iff.mp hconverts with
      | @mk _ nodeType args hhead hslots =>
          refine Call.sound_of_fits ⟨?_, fun value hvalue => ?_⟩ fun child hchild => ?_
          · exact NodeType.check_eq_ok_iff.mpr (hslots.imp fun _ _ => SlotImage.fitting)
          · obtain ⟨slot, -, himage⟩ := exists_mem_of_forall₂ hslots hvalue
            cases himage with
            | literal hliteral => exact isFinite_of_literalImage hliteral
          · obtain ⟨arg, harg, hchild⟩ := Call.mem_children_iff.mp hchild
            obtain ⟨slot, -, himage⟩ := exists_mem_of_forall₂ hslots harg
            obtain ⟨value, hholds, hvalue⟩ := himage.exists_holds hchild
            exact ih value hholds hvalue

/-! ## Sound calls are evaluated -/

section Evaluated

variable {build : Call → Json → Prop}

theorem exists_builtLiteral {literal : Literal}
    (hfinite : ∀ value, literal = .number value → value.isFinite = true) :
    ∃ fields, BuiltLiteral literal fields := by
  cases literal with
  | string value => exact ⟨_, .string value⟩
  | number value =>
      obtain ⟨number, hnumber⟩ := Estree.exists_number?_iff.mpr (hfinite value rfl)
      exact ⟨_, .number hnumber⟩
  | boolean value => exact ⟨_, .boolean value⟩
  | null => exact ⟨_, .null⟩
  | regexp pattern flags => exact ⟨_, .regexp pattern flags⟩
  | bigint digits => exact ⟨_, .bigint digits⟩

theorem exists_builtSlot {slot : Slot} {arg : Arg Call} (harg : Fitting slot.kind arg)
    (hfinite : ∀ value, arg = .literal (.number value) → value.isFinite = true)
    (hchildren : ∀ child ∈ arg.children, ∃ value, build child value) :
    ∃ fields, BuiltSlot build slot arg fields := by
  obtain ⟨field, kind⟩ := slot
  cases harg with
  | name text => exact ⟨_, .name field text⟩
  | keyword hword => exact ⟨_, .keyword field hword⟩
  | flag value => exact ⟨_, .flag field value⟩
  | child hkind call =>
      obtain ⟨value, hbuild⟩ := hchildren call (List.mem_singleton_self _)
      exact ⟨_, .child field hkind hbuild⟩
  | absent hkind =>
      cases kind with
      | optionalChild => exact ⟨_, .optionalChild field⟩
      | legacyChild => exact ⟨_, .legacyChild field⟩
      | _ => cases hkind
  | @list _ items hkind hitems =>
      have hvalues : ∀ item ∈ items, ∃ value, BuiltItem build kind item value := by
        intro item hitem
        cases hitems item hitem with
        | hole hkind => exact ⟨.null, .hole hkind⟩
        | node call =>
            obtain ⟨value, hbuild⟩ :=
              hchildren call (Arg.mem_children_iff.mpr (.inr ⟨items, rfl, hitem⟩))
            exact ⟨value, .node hbuild⟩
      obtain ⟨values, hvalues⟩ := exists_forall₂_iff.mpr hvalues
      exact ⟨_, .list field hkind hvalues⟩
  | literal literal =>
      obtain ⟨fields, hbuilt⟩ := exists_builtLiteral fun value hvalue =>
        hfinite value (congrArg _ hvalue)
      exact ⟨fields, .literal field hbuilt⟩
  | template cooked raw => exact ⟨_, .template field cooked raw⟩

theorem exists_builtSlots {slots : List Slot} {args : List (Arg Call)}
    (hslots : List.Forall₂ (fun slot arg => ∃ fields, BuiltSlot build slot arg fields) slots args) :
    ∃ members, BuiltSlots build slots args members := by
  induction hslots with
  | nil => exact ⟨[], .nil⟩
  | cons hslot _ ih =>
      obtain ⟨first, hslot⟩ := hslot
      obtain ⟨rest, hslots⟩ := ih
      exact ⟨first ++ rest, .cons hslot hslots⟩

end Evaluated

/-- A call that fits and has finite numbers is evaluated as soon as its children are. -/
theorem exists_evaluates_of_children {call : Call} (hfits : call.Fits)
    (hchildren : ∀ child ∈ call.children, ∃ tree, Evaluates child tree) :
    ∃ tree, Evaluates call tree := by
  obtain ⟨nodeType, args⟩ := call
  have hargs := NodeType.check_eq_ok_iff.mp hfits.check
  -- An argument fits the slot at its place and is one of the arguments; finiteness
  -- and the trees of the children are about the latter.
  have hslots : List.Forall₂ (fun slot arg => ∃ fields, BuiltSlot Evaluates slot arg fields)
      nodeType.slots args := by
    refine List.Forall₂.flip (((List.forall₂_and_left _ _).mpr
      ⟨fun arg harg => harg, hargs.flip⟩).imp ?_)
    rintro arg slot ⟨harg, hfitting⟩
    refine exists_builtSlot hfitting (fun value hvalue => ?_) fun child hchild => ?_
    · exact hfits.finite value (hvalue ▸ harg)
    · exact hchildren child (Call.mem_children_iff.mpr ⟨arg, harg, hchild⟩)
  obtain ⟨slotted, hslotted⟩ := exists_builtSlots hslots
  exact ⟨_, evaluates_iff.mpr (.mk hslotted)⟩

theorem exists_evaluates_of_sound {call : Call} (hsound : call.Sound) :
    ∃ tree, Evaluates call tree := by
  induction call using Call.childInduction with
  | step call ih =>
      exact exists_evaluates_of_children hsound.fits fun child hchild =>
        ih child hchild (hsound.child hchild)

/-! ## Sound calls are rendered -/

namespace Renderer

variable {renderer : Renderer}

/-- The failure is about a literal somewhere in the call that source text cannot hold. -/
def Unwritable (call : Call) (failure : Failure) : Prop :=
  ∃ inner, call.Contains inner ∧ ∃ literal fault, .literal literal ∈ inner.args ∧
    literal.writeFault? = some fault ∧ failure = .unwritable inner.builder fault

theorem exists_argChars_error {owner : NodeType} {args : List (Arg Call)} {failure : Failure}
    (herror : renderer.argTexts owner args = .error failure) :
    ∃ arg ∈ args, renderer.argChars owner arg = .error failure := by
  induction args with
  | nil => cases herror
  | cons arg args ih =>
      rw [argTexts.eq_def] at herror
      simp only [bind_eq_error_iff] at herror
      rcases herror with hfirst | ⟨text, -, hrest | ⟨texts, -, hpure⟩⟩
      · exact ⟨arg, .head _, hfirst⟩
      · obtain ⟨inner, hinner, herror⟩ := ih hrest
        exact ⟨inner, .tail _ hinner, herror⟩
      · cases hpure

theorem render_literal_error {quote : Quote} {owner : NodeType} {literal : Literal}
    {failure : Failure} (herror : literal.render quote owner = .error failure) :
    ∃ fault, literal.writeFault? = some fault ∧ failure = .unwritable owner.builder fault := by
  unfold Literal.render at herror
  split at herror
  next fault hfault =>
    cases herror
    exact ⟨fault, hfault, rfl⟩
  next => cases herror

/-- An argument that fits its slot fails as a literal or in one of its nodes. -/
theorem argChars_error_of_fitting {owner : NodeType} {kind : SlotKind} {arg : Arg Call}
    {failure : Failure} (harg : Fitting kind arg)
    (herror : renderer.argChars owner arg = .error failure) :
    (∃ literal fault, arg = .literal literal ∧ literal.writeFault? = some fault ∧
        failure = .unwritable owner.builder fault) ∨
      ∃ child ∈ arg.children, renderer.callChars child = .error failure := by
  rw [argChars.eq_def] at herror
  cases harg with
  | literal literal =>
      obtain ⟨fault, hfault, hfailure⟩ := render_literal_error herror
      exact .inl ⟨literal, fault, rfl, hfault, hfailure⟩
  | child _ child => exact .inr ⟨child, List.mem_singleton_self _, herror⟩
  | @list _ items _ hitems =>
      simp only [bind_eq_error_iff] at herror
      rcases herror with herror | ⟨texts, -, hpure⟩
      · obtain ⟨item, hitem, herror⟩ := exists_argChars_error herror
        rw [argChars.eq_def] at herror
        cases hitems item hitem with
        | hole => cases herror
        | node child =>
            exact .inr ⟨child, Arg.mem_children_iff.mpr (.inr ⟨items, rfl, hitem⟩), herror⟩
      · cases hpure
  | _ => cases herror

theorem callChars_error_of_sound {call : Call} (hsound : call.Sound) {failure : Failure}
    (herror : renderer.callChars call = .error failure) : Unwritable call failure := by
  induction call using Call.childInduction with
  | step call ih =>
      obtain ⟨nodeType, args⟩ := call
      have hcheck : nodeType.check args = .ok () := hsound.fits.check
      have hargs := NodeType.check_eq_ok_iff.mp hcheck
      rw [callChars.eq_def] at herror
      simp only [bind_eq_error_iff, hcheck, reduceCtorEq, false_or] at herror
      rcases herror with ⟨-, -, herror | ⟨texts, -, hpure⟩⟩
      · obtain ⟨arg, harg, herror⟩ := exists_argChars_error herror
        obtain ⟨slot, -, hfitting⟩ := exists_mem_of_forall₂ hargs harg
        rcases argChars_error_of_fitting hfitting herror with
          ⟨literal, fault, rfl, hfault, hfailure⟩ | ⟨child, hchild, herror⟩
        · exact ⟨_, .self _, literal, fault, harg, hfault, hfailure⟩
        · have hmem : child ∈ (Call.mk nodeType args).children :=
            Call.mem_children_iff.mpr ⟨arg, harg, hchild⟩
          obtain ⟨inner, hinner, hunwritable⟩ := ih child hmem (hsound.child hmem) herror
          exact ⟨inner, .child hmem hinner, hunwritable⟩
      · cases hpure

theorem render_error_of_sound {call : Call} (hsound : call.Sound) {failure : Failure}
    (herror : renderer.render call = .error failure) : Unwritable call failure := by
  cases hchars : renderer.callChars call with
  | error failure' =>
      rw [render, hchars] at herror
      cases herror
      exact callChars_error_of_sound hsound hchars
  | ok chars =>
      rw [render, hchars] at herror
      cases herror

end Renderer

/-! ## Checks -/

theorem exists_rebuilt {body : List Json} {calls : List Call}
    (hcalls : List.Forall₂ Converts body calls) :
    ∃ rebuilt, List.Forall₂ Evaluates calls rebuilt := by
  refine exists_forall₂_iff.mpr fun call hcall => ?_
  obtain ⟨statement, -, hconverts⟩ := exists_mem_of_forall₂ hcalls hcall
  exact exists_evaluates_of_sound (sound_of_converts hconverts)

theorem RoundTrip.exists_run {input : Json} {calls : List Call}
    (hconvert : (Program.convert input).result = .ok calls) : ∃ trip, run input = .ok trip := by
  obtain ⟨body, hbody, hcalls⟩ := Program.convert_eq_ok_iff.mp hconvert
  obtain ⟨rebuilt, hrebuilt⟩ := exists_rebuilt hcalls
  exact ⟨_, run_eq_ok_iff.mpr ⟨body, calls, rebuilt, hbody, hcalls, hrebuilt, rfl⟩⟩

/--
What follows a conversion is free of signature and evaluation failures: the calls fit
their signatures throughout, they are evaluated, only a literal can keep them from being
written, and a check comes to a verdict.
-/
theorem converted_calls_are_sound :
    (∀ value call, Converts value call →
      (∀ inner, call.Contains inner → inner.Fits) ∧
        (∃ tree, call.evaluate Estree.builders = .ok tree) ∧
          ∀ (renderer : Renderer) failure, renderer.render call = .error failure →
            Renderer.Unwritable call failure) ∧
      ∀ files file input calls, CommandLine.readJson files file = .ok input →
        (Program.convert input).result = .ok calls →
          ∃ verdict, CommandLine.checkFile files file = .ok verdict := by
  refine ⟨fun value call hconverts => ?_, fun files file input calls hread hconvert => ?_⟩
  · have hsound := sound_of_converts hconverts
    exact ⟨hsound, exists_evaluates_of_sound hsound,
      fun renderer failure => Renderer.render_error_of_sound hsound⟩
  · obtain ⟨trip, hrun⟩ := RoundTrip.exists_run hconvert
    exact ⟨_, (CommandLine.checkFile_of_read hread).trans (CommandLine.judge_of_run hrun)⟩

/-- `/a/q`, which no source text can hold. -/
def oddTree : Json :=
  .object [("type", .string "Literal"),
    ("regex", .object [("pattern", .string "a"), ("flags", .string "q")])]

def oddCall : Call :=
  .mk .literal [.literal (.regexp "a" "q")]

def plainRenderer : Renderer :=
  ⟨"j", .single, by decide⟩

theorem exists_strange_program : ∃ input calls,
    CommandLine.readJson strangeFiles "program.json" = .ok input ∧
      (Program.convert input).result = .ok calls := by
  have hfound : ((CommandLine.readJson strangeFiles "program.json").toOption.bind
      fun input => (Program.convert input).result.toOption).isSome = true := by
    decide +kernel
  cases hread : CommandLine.readJson strangeFiles "program.json" with
  | error failure =>
      rw [hread] at hfound
      cases hfound
  | ok input =>
      rw [hread] at hfound
      change (Program.convert input).result.toOption.isSome = true at hfound
      cases hconvert : (Program.convert input).result with
      | error failure =>
          rw [hconvert] at hfound
          cases hfound
      | ok calls => exact ⟨input, calls, rfl, hconvert⟩

theorem converted_calls_are_sound_unknown_flag :
    (Converts oddTree oddCall ∧ oddCall.Fits ∧
        (∃ tree, oddCall.evaluate Estree.builders = .ok tree) ∧
          ∃ failure, plainRenderer.render oddCall = .error failure ∧
            Renderer.Unwritable oddCall failure) ∧
      ∃ verdict, CommandLine.checkFile strangeFiles "program.json" = .ok verdict := by
  have hconverts : Converts oddTree oddCall := rfl
  obtain ⟨hfits, hevaluates, hrender⟩ := converted_calls_are_sound.1 oddTree oddCall hconverts
  obtain ⟨input, calls, hread, hconvert⟩ := exists_strange_program
  refine ⟨⟨hconverts, hfits _ (.self _), hevaluates, ?_⟩,
    converted_calls_are_sound.2 strangeFiles "program.json" input calls hread hconvert⟩
  have herror : plainRenderer.render oddCall =
      .error (.unwritable NodeType.literal.builder (.flags "q")) := rfl
  exact ⟨_, herror, hrender plainRenderer _ herror⟩

end BuilderCalls
