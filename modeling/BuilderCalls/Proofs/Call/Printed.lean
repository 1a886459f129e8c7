import BuilderCalls.Proofs.Call.Encoding
import BuilderCalls.Proofs.Json.Nesting
import BuilderCalls.Proofs.Printing
import BuilderCalls.Proofs.Soundness

/-!
# Printed calls

Calls are printed as a JSON array of their encodings.  What was converted from a text is read
back from what is printed for it, unless the printed tree is nested deeper than the reader
allows.  An encoded call takes three containers where the node takes one, so the calls of a
text that can be read may be printed as a text that cannot.
-/

namespace BuilderCalls

namespace Call

/-- Calls as they are printed, without the form in which the tree is written. -/
def listToJson (calls : List Call) : Json :=
  .array (calls.map toJson)

/-- The calls that a text spells. -/
def listOfText? (text : String) : Option (List Call) :=
  (Json.ofText? text).bind fun tree => tree.array?.bind fun items => items.mapM ofJson?

/-! ## Encoded trees -/

theorem distinct_optionalText (text : Option String) : (optionalText text).Distinct := by
  cases text with
  | none => exact .null
  | some text => exact .string text

theorem distinct_ofDouble (value : Double) : (Json.ofDouble value).Distinct := by
  unfold Json.ofDouble
  split
  · exact .number _
  · exact .null

theorem distinct_member {key : String} {value : Json} (hvalue : value.Distinct) :
    (Json.object [(key, value)]).Distinct := by
  refine .object (List.nodup_singleton key) fun member hmember => ?_
  rwa [List.mem_singleton.mp hmember]

theorem distinct_pair {first second : String} {left right : Json} (hkeys : first ≠ second)
    (hleft : left.Distinct) (hright : right.Distinct) :
    (Json.object [(first, left), (second, right)]).Distinct := by
  refine .object (by simpa [Members.keys] using hkeys) fun member hmember => ?_
  simp only [List.mem_cons, List.not_mem_nil, or_false] at hmember
  rcases hmember with rfl | rfl
  · exact hleft
  · exact hright

theorem distinct_literal (literal : Literal) : literal.toJson.Distinct := by
  have hkind := Json.Distinct.string literal.kind.name
  cases literal with
  | string value => exact distinct_pair (by decide) hkind (.string value)
  | number value => exact distinct_pair (by decide) hkind (distinct_ofDouble value)
  | boolean value => exact distinct_pair (by decide) hkind (.bool value)
  | null => exact distinct_member hkind
  | regexp pattern flags =>
      exact distinct_pair (by decide) hkind
        (distinct_pair (by decide) (.string pattern) (.string flags))
  | bigint digits => exact distinct_pair (by decide) hkind (.string digits)

mutual

theorem distinct_toJson : (call : Call) → call.toJson.Distinct
  | .mk nodeType args =>
      distinct_pair (by decide) (.string nodeType.tag) (.array (distinct_argsToJson args))
termination_by structural call => call

theorem distinct_argToJson : (arg : Arg Call) → (argToJson arg).Distinct
  | .null => .string "null"
  | .bool value => distinct_member (.bool value)
  | .string value => distinct_member (.string value)
  | .literal value => distinct_member (distinct_literal value)
  | .node call => distinct_member (distinct_toJson call)
  | .list items => distinct_member (.array (distinct_argsToJson items))
  | .template cooked raw =>
      distinct_member (distinct_pair (by decide) (distinct_optionalText cooked) (.string raw))
termination_by structural arg => arg

theorem distinct_argsToJson : (args : List (Arg Call)) → ∀ tree ∈ argsToJson args, tree.Distinct
  | [], _, htree => nomatch htree
  | arg :: args, tree, htree => by
      rcases List.mem_cons.mp htree with rfl | htree
      · exact distinct_argToJson arg
      · exact distinct_argsToJson args tree htree
termination_by structural args => args

end

theorem distinct_listToJson (calls : List Call) : (listToJson calls).Distinct := by
  apply Json.Distinct.array
  intro tree htree
  obtain ⟨call, -, rfl⟩ := List.mem_map.mp htree
  exact distinct_toJson call

/-! ## Converted calls -/

theorem finite_of_fitting {kind : SlotKind} {arg : Arg Call} (hfitting : Fitting kind arg)
    (hliteral : ∀ value, arg = .literal (.number value) → value.isFinite = true)
    (hchildren : ∀ child ∈ arg.children, (Arg.node child).Finite) : arg.Finite := by
  cases hfitting with
  | name | keyword | flag | absent | template => nofun
  | child _ node => exact hchildren node (List.mem_singleton_self node)
  | list _ hitems =>
      refine Arg.finite_list_iff.mpr fun item hitem => ?_
      cases hitems item hitem with
      | hole => nofun
      | node child => exact hchildren child (Arg.mem_children_iff.mpr (.inr ⟨_, rfl, hitem⟩))
  | literal literal =>
      refine Arg.finite_literal_iff.mpr fun value hvalue => hliteral value ?_
      rw [hvalue]

theorem Sound.finite {call : Call} (hsound : call.Sound) : (Arg.node call).Finite := by
  induction call using childInduction with
  | step call ih =>
      obtain ⟨nodeType, args⟩ := call
      refine Arg.finite_node_iff.mpr fun arg harg => ?_
      obtain ⟨slot, -, hfitting⟩ :=
        exists_mem_of_forall₂ (NodeType.check_eq_ok_iff.mp hsound.fits.check) harg
      refine finite_of_fitting hfitting (fun value hvalue => ?_) fun child hchild => ?_
      · exact hsound.fits.finite value (by rwa [← hvalue])
      · have hmem : child ∈ (Call.mk nodeType args).children :=
          mem_children_iff.mpr ⟨arg, harg, hchild⟩
        exact ih child hmem (hsound.child hmem)

theorem mapM_ofJson? {calls : List Call} (hsound : ∀ call ∈ calls, call.Sound) :
    (calls.map toJson).mapM ofJson? = some calls := by
  induction calls with
  | nil => rfl
  | cons call calls ih =>
      obtain ⟨hcall, hcalls⟩ := List.forall_mem_cons.mp hsound
      have hread : ofJson? call.toJson = some call :=
        ofJson?_of_respelled call hcall.finite _ (Respelled.refl _)
      simp [hread, ih hcalls]

end Call

theorem Program.convertText_eq_ok_iff {text : String} {refusals : Refusals}
    {calls : List Call} :
    (Program.convertText text refusals).result = .ok calls ↔
      ∃ input, Json.ofText? text = some input ∧ (Program.convert input).result = .ok calls := by
  unfold Program.convertText
  cases Json.ofText? text <;> simp

theorem Program.sound_of_convert {input : Json} {calls : List Call}
    (hconvert : (Program.convert input).result = .ok calls) : ∀ call ∈ calls, call.Sound := by
  obtain ⟨statements, -, hstatements⟩ := Program.convert_eq_ok_iff.mp hconvert
  intro call hcall
  obtain ⟨statement, -, hconverts⟩ := exists_mem_of_forall₂ hstatements hcall
  exact sound_of_converts hconverts

/-! ## Printed texts -/

namespace Call

variable {calls : List Call}

theorem listOfText?_of_ofText? {text : String} (hsound : ∀ call ∈ calls, call.Sound)
    (htext : Json.ofText? text = if (listToJson calls).depth ≤ Json.nestingLimit then
      some (listToJson calls) else none) :
    listOfText? text =
      if (listToJson calls).depth ≤ Json.nestingLimit then some calls else none := by
  unfold listOfText?
  rw [htext]
  split
  · exact mapM_ofJson? hsound
  · rfl

theorem listOfText?_compactText (hsound : ∀ call ∈ calls, call.Sound) :
    listOfText? (listToJson calls).compactText =
      if (listToJson calls).depth ≤ Json.nestingLimit then some calls else none :=
  listOfText?_of_ofText? hsound (Json.ofText?_compactText (distinct_listToJson calls))

theorem listOfText?_line (hsound : ∀ call ∈ calls, call.Sound) :
    listOfText? (String.ofList (Terminal.line (listToJson calls).pretty)) =
      if (listToJson calls).depth ≤ Json.nestingLimit then some calls else none := by
  refine listOfText?_of_ofText? hsound (Json.ofText?_pretty (distinct_listToJson calls) ?_)
  intro char hchar
  rw [List.mem_singleton.mp hchar]
  rfl

end Call

namespace CommandLine

variable {files : Files} {request : ConvertRequest}

theorem convert_of_json {settings : Settings} {input : Json} {calls : List Call}
    (hsettings : effectiveSettings files request = .ok settings) (hformat : settings.format = .json)
    (hread : readJson files request.file = .ok input)
    (hconvert : (Program.convert input).result = .ok calls) :
    convert files request = succeed (Terminal.line (Call.listToJson calls).pretty) := by
  have hlines : requestedLines files request = .ok [(Call.listToJson calls).pretty] := by
    simp [requestedLines, hsettings, hread, hconvert, formattedLines, hformat, Call.listToJson,
      Except.mapError, bind, Except.bind]
  rw [convert_of_lines hlines, Terminal.unlines, List.flatMap_singleton]

end CommandLine

/--
What is printed for the calls of a text is read back as these calls if its tree is not nested
deeper than the reader allows, and is refused if it is.  Nothing but the nesting stands in the
way: the tree itself is always that of the calls.
-/
theorem printed_calls_are_read_back_up_to_the_nesting_limit {text : String}
    {refusals : Refusals} {calls : List Call}
    (hconvert : (Program.convertText text refusals).result = .ok calls) :
    Call.listOfText? (Call.listToJson calls).compactText =
        (if (Call.listToJson calls).depth ≤ Json.nestingLimit then some calls else none) ∧
      (∀ files request settings, files.readText request.file = .ok text →
        CommandLine.effectiveSettings files request = .ok settings → settings.format = .json →
          ∃ output, CommandLine.convert files request = CommandLine.succeed output ∧
            Call.listOfText? (String.ofList output) =
              if (Call.listToJson calls).depth ≤ Json.nestingLimit then some calls else none) ∧
      (calls.map Call.toJson).mapM Call.ofJson? = some calls := by
  obtain ⟨input, hinput, hconvert⟩ := Program.convertText_eq_ok_iff.mp hconvert
  have hsound := Program.sound_of_convert hconvert
  refine ⟨Call.listOfText?_compactText hsound, ?_, Call.mapM_ofJson? hsound⟩
  intro files request settings hread hsettings hformat
  have hinput' := CommandLine.readJson_eq_ok hread hinput
  exact ⟨_, CommandLine.convert_of_json hsettings hformat hinput' hconvert,
    Call.listOfText?_line hsound⟩

/-! ## Awaited expressions -/

/-- `this`, awaited a number of times. -/
def awaitTree : Nat → Json
  | 0 => .object [("type", .string "ThisExpression")]
  | count + 1 => .object [("type", .string "AwaitExpression"), ("argument", awaitTree count)]

def awaitCall : Nat → Call
  | 0 => .mk .thisExpression []
  | count + 1 => .mk .awaitExpression [.node (awaitCall count)]

theorem converts_awaitTree (count : Nat) : Converts (awaitTree count) (awaitCall count) := by
  induction count with
  | zero => rfl
  | succ count ih =>
      have hhead : NodeHead [("type", .string "AwaitExpression"), ("argument", awaitTree count)]
          .awaitExpression := ⟨rfl, nofun⟩
      exact converts_iff.mpr (.mk hhead (.cons (.child (.inl rfl) rfl ih) .nil))

theorem distinct_awaitTree (count : Nat) : (awaitTree count).Distinct := by
  induction count with
  | zero => exact Call.distinct_member (.string _)
  | succ count ih => exact Call.distinct_pair (by decide) (.string _) ih

theorem depth_awaitTree (count : Nat) : (awaitTree count).depth = count + 1 := by
  induction count with
  | zero => rfl
  | succ count ih => simp [awaitTree, Json.depth, Json.depthOfMembers, ih]

def awaitText (count : Nat) : String :=
  (RoundTrip.programOf [awaitTree count]).compactText

/-- A program around the expression takes two more containers. -/
theorem convertText_awaitText {count : Nat} (hcount : count + 3 ≤ Json.nestingLimit) :
    (Program.convertText (awaitText count)).result = .ok [awaitCall count] := by
  have hdistinct : (RoundTrip.programOf [awaitTree count]).Distinct :=
    Call.distinct_pair (by decide) (.string _) (.array (by simpa using distinct_awaitTree count))
  have hdepth : (RoundTrip.programOf [awaitTree count]).depth = count + 3 := by
    simp [RoundTrip.programOf, Json.depth, Json.depthOfMembers, Json.depthOfItems, depth_awaitTree]
  have hread : Json.ofText? (awaitText count) = some (RoundTrip.programOf [awaitTree count]) := by
    rw [awaitText, Json.ofText?_compactText hdistinct, hdepth, if_pos hcount]
  refine Program.convertText_eq_ok_iff.mpr ⟨_, hread, Program.convert_eq_ok_iff.mpr ?_⟩
  exact ⟨_, Program.body_programOf _, .cons (converts_awaitTree count) .nil⟩

theorem depth_awaitCall (count : Nat) : (awaitCall count).toJson.depth = 3 * count + 2 := by
  induction count with
  | zero => rfl
  | succ count ih =>
      simp [awaitCall, Call.toJson, Call.argsToJson, Call.argToJson, Json.depth,
        Json.depthOfMembers, Json.depthOfItems, ih]
      omega

theorem depth_listToJson_awaitCall (count : Nat) :
    (Call.listToJson [awaitCall count]).depth = 3 * count + 3 := by
  simp [Call.listToJson, Json.depth, Json.depthOfItems, depth_awaitCall]

def awaitFiles (count : Nat) : Files :=
  ⟨fun path => if path = "tree.json" then .ok (.file (some (awaitText count)))
    else .error .noSuchFile, none, .silent⟩

def jsonRequest : CommandLine.ConvertRequest :=
  ⟨"tree.json", none, none, none, some .json, none⟩

theorem printed_calls_are_read_back_up_to_the_nesting_limit_awaited :
    (Program.convertText (awaitText 41)).result = .ok [awaitCall 41] ∧
      Call.listOfText? (Call.listToJson [awaitCall 41]).compactText = some [awaitCall 41] ∧
        ∃ output, CommandLine.convert (awaitFiles 41) jsonRequest = CommandLine.succeed output ∧
          Call.listOfText? (String.ofList output) = some [awaitCall 41] := by
  have hconvert : (Program.convertText (awaitText 41)).result = .ok [awaitCall 41] :=
    convertText_awaitText (by decide)
  have hdepth : (Call.listToJson [awaitCall 41]).depth ≤ Json.nestingLimit := by
    rw [depth_listToJson_awaitCall]
    decide
  obtain ⟨hcompact, hprinted, -⟩ := printed_calls_are_read_back_up_to_the_nesting_limit hconvert
  obtain ⟨output, houtput, hread⟩ := hprinted (awaitFiles 41) jsonRequest _ rfl rfl rfl
  rw [if_pos hdepth] at hcompact hread
  exact ⟨hconvert, hcompact, output, houtput, hread⟩

/-- The program nests 45 containers and its printed calls 129. -/
theorem deeply_awaited_calls_are_not_read_back :
    (Program.convertText (awaitText 42)).result = .ok [awaitCall 42] ∧
      Call.listOfText? (Call.listToJson [awaitCall 42]).compactText = none ∧
        CommandLine.convert (awaitFiles 42) jsonRequest =
            CommandLine.succeed (Terminal.line (Call.listToJson [awaitCall 42]).pretty) ∧
          Call.listOfText?
            (String.ofList (Terminal.line (Call.listToJson [awaitCall 42]).pretty)) = none := by
  have hconvert : (Program.convertText (awaitText 42)).result = .ok [awaitCall 42] :=
    convertText_awaitText (by decide)
  have hdepth : ¬(Call.listToJson [awaitCall 42]).depth ≤ Json.nestingLimit := by
    rw [depth_listToJson_awaitCall]
    decide
  obtain ⟨input, hinput, hcalls⟩ := Program.convertText_eq_ok_iff.mp hconvert
  have hsound := Program.sound_of_convert hcalls
  refine ⟨hconvert, ?_, ?_, ?_⟩
  · rw [Call.listOfText?_compactText hsound, if_neg hdepth]
  · exact CommandLine.convert_of_json rfl rfl (CommandLine.readJson_eq_ok rfl hinput) hcalls
  · rw [Call.listOfText?_line hsound, if_neg hdepth]

end BuilderCalls
