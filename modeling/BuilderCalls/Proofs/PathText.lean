import BuilderCalls.Proofs.Number.JsonText
import BuilderCalls.Proofs.Statements

/-!
# Paths and their texts

Field names that are not empty and hold neither a point nor an opening bracket leave the text
of a path readable: what stands between two of these characters is one step.  All fields that
conversion steps into have such names.  So the text of the path in a failure leads to one
value only, which is the value that the failure arose at.
-/

namespace BuilderCalls

/-! ## Texts -/

/-- A field name that ends where the text of the next step begins. -/
def Step.Plain : Step → Prop
  | .field name => name.toList ≠ [] ∧ '.' ∉ name.toList ∧ '[' ∉ name.toList
  | .index _ => True

instance : DecidablePred Step.Plain
  | .field _ => inferInstanceAs (Decidable (_ ∧ _ ∧ _))
  | .index _ => inferInstanceAs (Decidable True)

namespace Path

def Plain (path : Path) : Prop :=
  ∀ step ∈ path, step.Plain

instance (path : Path) : Decidable path.Plain :=
  inferInstanceAs (Decidable (∀ step ∈ path, step.Plain))

def isFieldChar (char : Char) : Bool :=
  char ≠ '.' && char ≠ '['

section Texts

variable {path other : Path}

theorem plain_cons_iff {step : Step} : Plain (step :: path) ↔ step.Plain ∧ path.Plain :=
  List.forall_mem_cons

theorem plain_append_iff : Plain (path ++ other) ↔ path.Plain ∧ other.Plain :=
  List.forall_mem_append

theorem isFieldChar_of_plain {name : String} (hname : (Step.field name).Plain) :
    ∀ char ∈ name.toList, isFieldChar char = true := by
  intro char hchar
  have hpoint : char ≠ '.' := fun hpoint => hname.2.1 (hpoint ▸ hchar)
  have hbracket : char ≠ '[' := fun hbracket => hname.2.2 (hbracket ▸ hchar)
  simp [isFieldChar, hpoint, hbracket]

/-- A field name ends before whatever step comes next. -/
theorem stops_stepTexts (path : Path) : Stops isFieldChar (path.flatMap stepText) := by
  cases path with
  | nil => nofun
  | cons step rest =>
      cases step with
      | field name => exact stops_cons (by decide) _
      | index place => exact stops_cons (by decide) _

theorem natText_injective : Function.Injective natText :=
  Function.LeftInverse.injective Json.digitsValue_natText

/-- The first step and the text after it can be told from the text of both. -/
theorem stepText_append_inj {step step' : Step} {rest rest' : List Char} (hstep : step.Plain)
    (hstep' : step'.Plain) (hrest : Stops isFieldChar rest) (hrest' : Stops isFieldChar rest')
    (hsame : stepText step ++ rest = stepText step' ++ rest') : step = step' ∧ rest = rest' := by
  cases step with
  | field name =>
      cases step' with
      | field name' =>
          obtain ⟨hname, hafter⟩ := Stops.append_inj (isFieldChar_of_plain hstep)
            (isFieldChar_of_plain hstep') hrest hrest' (List.cons.inj hsame).2
          exact ⟨congrArg Step.field (String.toList_inj.mp hname), hafter⟩
      | index place' => cases hsame
  | index place =>
      cases step' with
      | field name' => cases hsame
      | index place' =>
          simp only [stepText, List.cons_append, List.append_assoc, List.nil_append,
            List.cons.injEq, true_and] at hsame
          obtain ⟨hdigits, hafter⟩ := Stops.append_inj
            (fun _ => isDigit_of_mem_natText) (fun _ => isDigit_of_mem_natText)
            (stops_cons (by decide) rest) (stops_cons (by decide) rest') hsame
          exact ⟨congrArg Step.index (natText_injective hdigits), (List.cons.inj hafter).2⟩

theorem stepTexts_inj (hpath : path.Plain) (hother : other.Plain)
    (hsame : path.flatMap stepText = other.flatMap stepText) : path = other := by
  induction path generalizing other with
  | nil =>
      cases other with
      | nil => rfl
      | cons step rest => cases step <;> cases hsame
  | cons step rest ih =>
      cases other with
      | nil => cases step <;> cases hsame
      | cons step' rest' =>
          obtain ⟨hstep, hrest⟩ := plain_cons_iff.mp hpath
          obtain ⟨hstep', hrest'⟩ := plain_cons_iff.mp hother
          obtain ⟨rfl, htexts⟩ := stepText_append_inj hstep hstep' (stops_stepTexts rest)
            (stops_stepTexts rest') hsame
          rw [ih hrest hrest' htexts]

/-- The point that the first field goes without is put back. -/
def withPoint : List Char → List Char
  | [] => []
  | first :: rest => if first = '[' then first :: rest else '.' :: first :: rest

theorem withPoint_chars (hpath : path.Plain) : withPoint (chars path) = path.flatMap stepText := by
  cases path with
  | nil => rfl
  | cons step rest =>
      cases step with
      | index place => rfl
      | field name =>
          obtain ⟨hne, -, hbracket⟩ := (plain_cons_iff.mp hpath).1
          obtain ⟨first, others, hname⟩ := List.exists_cons_of_ne_nil hne
          have hfirst : first ≠ '[' := by
            rintro rfl
            exact hbracket (hname ▸ .head _)
          simp [chars, stepText, hname, withPoint, hfirst]

theorem text_inj (hpath : path.Plain) (hother : other.Plain) (hsame : path.text = other.text) :
    path = other := by
  have hchars : chars path = chars other := String.ofList_injective hsame
  refine stepTexts_inj hpath hother ?_
  rw [← withPoint_chars hpath, ← withPoint_chars hother, hchars]

/-- A point in a name reads as the end of the name. -/
example : text [.field "a.b"] = text [.field "a", .field "b"] := by
  decide +kernel

end Texts

end Path

/-! ## Where failures arise -/

private theorem all_slots_plain :
    ∀ nodeType ∈ NodeType.all, ∀ slot ∈ nodeType.slots, (Step.field slot.field).Plain := by
  decide +kernel

theorem NodeType.slots_plain (nodeType : NodeType) :
    ∀ slot ∈ nodeType.slots, (Step.field slot.field).Plain :=
  all_slots_plain nodeType nodeType.mem_all

theorem body_plain : (Step.field "body").Plain := by
  decide +kernel

theorem Members.LeadsTo.plain {members : Members} {slot : Slot} {steps : Path} {value : Json}
    (hsteps : members.LeadsTo slot steps value) (hslot : (Step.field slot.field).Plain) :
    steps.Plain := by
  cases hsteps with
  | child => exact Path.plain_cons_iff.mpr ⟨hslot, List.forall_mem_nil _⟩
  | item =>
      exact Path.plain_cons_iff.mpr ⟨hslot, Path.plain_cons_iff.mpr ⟨trivial, List.forall_mem_nil _⟩⟩

/-- A value to which a path with this text leads. -/
def Json.FoundBy (value : Json) (text : String) (found : Json) : Prop :=
  ∃ path : Path, path.Plain ∧ path.text = text ∧ value.at? path = some found

/-- The value found at the end of the failure's path fails with it by itself. -/
structure RaisedAt (value : Json) (failure : Failure) (path : Path) (found : Json) : Prop where
  recorded : failure.path = some path
  plain : path.Plain
  follows : value.at? path = some found
  fails : Fails found { failure with path := some [] }

namespace RaisedAt

variable {value inner found : Json} {failure : Failure} {path steps : Path}

theorem self (hfails : Fails value failure) (hpath : failure.path = some []) :
    RaisedAt value failure [] value := by
  refine ⟨hpath, List.forall_mem_nil _, Json.at?_nil, ?_⟩
  rw [← hpath]
  exact hfails

theorem under (hraised : RaisedAt inner failure path found) (hsteps : steps.Plain)
    (hat : value.at? (steps ++ path) = inner.at? path) :
    RaisedAt value (failure.under steps) (steps ++ path) found := by
  refine ⟨?_, Path.plain_append_iff.mpr ⟨hsteps, hraised.plain⟩, hat.trans hraised.follows,
    hraised.fails⟩
  simp [Failure.under, hraised.recorded]

/-- No other value is found by the text of the path. -/
theorem foundBy_iff (hraised : RaisedAt value failure path found) {other : Json} :
    value.FoundBy path.text other ↔ other = found := by
  constructor
  · rintro ⟨path', hplain, htext, hfound⟩
    rw [Path.text_inj hplain hraised.plain htext, hraised.follows] at hfound
    exact (Option.some.inj hfound).symm
  · rintro rfl
    exact ⟨path, hraised.plain, rfl, hraised.follows⟩

end RaisedAt

/-- A value fails by itself, or with a value that one of its slots holds. -/
theorem Fails.root_or_inner {value : Json} {failure : Failure} (hfails : Fails value failure) :
    failure.path = some [] ∨ ∃ (members : Members) (nodeType : NodeType) (slot : Slot)
      (steps : Path) (child : Json) (inner : Failure), value = .object members ∧
        slot ∈ nodeType.slots ∧ members.LeadsTo slot steps child ∧ Fails child inner ∧
          failure = inner.under steps := by
  obtain ⟨own, hown, rfl⟩ := fails_iff_convertValue.mp hfails
  cases refused_of_convertValue hown with
  | notAnObject | untagged | unsupported | malformed => exact .inl rfl
  | inner htag hslot hsteps hinner =>
      rw [Failure.under_under, List.nil_append]
      exact .inr ⟨_, _, _, _, _, _, rfl, hslot, hsteps, hinner, rfl⟩

theorem Fails.exists_raisedAt {value : Json} {failure : Failure} (hfails : Fails value failure) :
    ∃ path found, RaisedAt value failure path found := by
  induction value using Json.fieldInduction generalizing failure with
  | other value hvalue =>
      rcases hfails.root_or_inner with hroot | ⟨members, -, -, -, -, -, rfl, -⟩
      · exact ⟨[], value, .self hfails hroot⟩
      · cases hvalue
  | object members ih =>
      rcases hfails.root_or_inner with
        hroot | ⟨_, nodeType, slot, steps, child, inner, hobject, hslot, hsteps, hinner, rfl⟩
      · exact ⟨[], _, .self hfails hroot⟩
      · cases hobject
        obtain ⟨path, found, hraised⟩ := ih child hsteps.holds hinner
        exact ⟨steps ++ path, found,
          hraised.under (hsteps.plain (nodeType.slots_plain slot hslot)) (hsteps.at?_append path)⟩

/-! ## Programs -/

namespace Program

theorem get?_body {program : Json} {body : List Json} (hbody : statements program = .ok body) :
    program.get? "body" = some (.array body) := by
  unfold statements at hbody
  split at hbody
  next items hitems =>
    cases hbody
    exact hitems
  next => cases hbody
  next => cases hbody

theorem at?_statement {program statement : Json} {body : List Json} {index : Nat}
    (hbody : statements program = .ok body) (hstatement : body[index]? = some statement)
    (path : Path) :
    program.at? ([.field "body", .index index] ++ path) = statement.at? path := by
  have hget := get?_body hbody
  cases program with
  | object members =>
      rw [List.cons_append, Json.at?_field hget]
      exact Json.at?_index hstatement
  | null | bool | number | string | array => cases hget

theorem exists_raisedAt {input : Json} {body : List Json} {failure : Failure}
    (hbody : (Program.body input).result = .ok body)
    (hfailure : (convert input).result = .error failure) :
    ∃ program path found, programOf input = .ok program ∧ RaisedAt program failure path found := by
  rw [result_convert_of_body hbody, convertStatements_eq_error_iff] at hfailure
  obtain ⟨index, statement, hstatement, -, inner, hinner, rfl⟩ := hfailure
  obtain ⟨program, hprogram, hstatements⟩ := body_eq_ok_iff.mp hbody
  obtain ⟨path, found, hraised⟩ := hinner.exists_raisedAt
  have hplace : Path.Plain [.field "body", .index index] :=
    Path.plain_cons_iff.mpr ⟨body_plain, List.forall_mem_singleton.mpr trivial⟩
  exact ⟨program, _, found, hprogram,
    hraised.under hplace (at?_statement hstatements hstatement path)⟩

end Program

/-! ## What a path text says -/

/--
Paths of plain names with the same text are the same, and all names of slots are plain, as is
that of a program's body.  So the path of a failure, of a value or of a statement in a program,
leads to the value that fails by itself, and no other value is found by its text.
-/
theorem path_texts_identify_values :
    (∀ path other : Path, path.Plain → other.Plain → path.text = other.text → path = other) ∧
    (∀ nodeType : NodeType, ∀ slot ∈ nodeType.slots, (Step.field slot.field).Plain) ∧
    (Step.field "body").Plain ∧
    (∀ value failure, (convert value).result = .error failure →
      ∃ path found, RaisedAt value failure path found ∧
        ∀ other, value.FoundBy path.text other ↔ other = found) ∧
    ∀ input failure, (Program.convert input).result = .error failure →
      (Program.body input).result = .error failure ∧ failure.path = none ∨
        ∃ program path found, Program.programOf input = .ok program ∧
          RaisedAt program failure path found ∧
            ∀ other, program.FoundBy path.text other ↔ other = found := by
  refine ⟨fun path other => Path.text_inj, NodeType.slots_plain, body_plain,
    fun value failure hfailure => ?_, fun input failure hfailure => ?_⟩
  · obtain ⟨path, found, hraised⟩ := Fails.exists_raisedAt hfailure
    exact ⟨path, found, hraised, fun other => hraised.foundBy_iff⟩
  · cases hbody : (Program.body input).result with
    | error fault =>
        rw [Program.result_convert_of_body_error hbody] at hfailure
        cases hfailure
        exact .inl ⟨rfl, (Program.ofInput_of_body hbody).path⟩
    | ok body =>
        obtain ⟨program, path, found, hprogram, hraised⟩ :=
          Program.exists_raisedAt hbody hfailure
        exact .inr ⟨program, path, found, hprogram, hraised, fun other => hraised.foundBy_iff⟩

theorem path_texts_identify_values_stray :
    (∀ other : Path, other.Plain → other.text = "body[10].init[0][1]" →
      other = [.field "body", .index 10, .field "init", .index 0, .index 1]) ∧
    (∃ failure, (convert strayElement).result = .error failure ∧
      ∃ found, RaisedAt strayElement failure [.field "elements", .index 1] found ∧
        ∀ other, strayElement.FoundBy "elements[1]" other ↔ other = found) ∧
    ∃ failure, (Program.convert (.object Program.wrappedProgram)).result = .error failure ∧
      ∃ found, RaisedAt Program.strayProgram failure [.field "body", .index 1] found ∧
        ∀ other, Program.strayProgram.FoundBy "body[1]" other ↔ other = found := by
  obtain ⟨hinj, -, -, hvalue, hprogram⟩ := path_texts_identify_values
  refine ⟨fun other hother htext => ?_, ⟨_, rfl, ?_⟩, ⟨_, rfl, ?_⟩⟩
  · exact hinj other _ hother (by decide +kernel) (htext.trans (by decide +kernel))
  · obtain ⟨path, found, hraised, hfound⟩ := hvalue strayElement _ rfl
    obtain rfl : [.field "elements", .index 1] = path := Option.some.inj hraised.recorded
    exact ⟨found, hraised, hfound⟩
  · rcases hprogram (.object Program.wrappedProgram) _ rfl with
      ⟨hbody, -⟩ | ⟨program, path, found, hholder, hraised, hfound⟩
    · cases hbody
    · cases hholder
      obtain rfl : [.field "body", .index 1] = path := Option.some.inj hraised.recorded
      exact ⟨found, hraised, hfound⟩

end BuilderCalls
