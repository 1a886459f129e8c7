import BuilderCalls.Failure
import Mathlib.Data.List.Basic

/-!
# Decorated failures

On its way out a failure is given paths, positions, sources and advice, in any order and any
number of times.  What remains of these decorations are four choices: the first path, the
first position that there is, the last source and the last advice.  Choices compose as the
decorations follow each other, so a run of decorations is one application of its choices.
-/

namespace BuilderCalls

inductive Decoration where
  | atPath (path : Path)
  | atPosition (position : Option Position)
  | withSource (name text : String)
  | withHelp (help : String)
  deriving DecidableEq

namespace Decoration

def path? : Decoration → Option Path
  | .atPath path => some path
  | _ => none

/-- The position that is given; a node need not have one. -/
def position? : Decoration → Option Position
  | .atPosition position => position
  | _ => none

def source? : Decoration → Option Source
  | .withSource name text => some ⟨name, text⟩
  | _ => none

def help? : Decoration → Option String
  | .withHelp help => some help
  | _ => none

/-- What a frame may record on the way out although it has nothing new to say. -/
inductive Unwinding : Decoration → Prop
  | path (path : Path) : Unwinding (.atPath path)
  | noPosition : Unwinding (.atPosition none)

namespace Unwinding

variable {decoration : Decoration}

theorem position? (hunwinding : decoration.Unwinding) : decoration.position? = none := by
  cases hunwinding <;> rfl

theorem source? (hunwinding : decoration.Unwinding) : decoration.source? = none := by
  cases hunwinding <;> rfl

theorem help? (hunwinding : decoration.Unwinding) : decoration.help? = none := by
  cases hunwinding <;> rfl

end Unwinding

end Decoration

/-! ## Choices -/

structure Choices where
  path : Option Path
  position : Option Position
  source : Option Source
  help : Option String
  deriving DecidableEq

namespace Choices

/-- The first path and the first position, the last source and the last advice. -/
def ofDecorations (decorations : List Decoration) : Choices where
  path := (decorations.filterMap Decoration.path?).head?
  position := (decorations.filterMap Decoration.position?).head?
  source := (decorations.filterMap Decoration.source?).getLast?
  help := (decorations.filterMap Decoration.help?).getLast?

def followedBy (choices later : Choices) : Choices where
  path := choices.path.or later.path
  position := choices.position.or later.position
  source := later.source.or choices.source
  help := later.help.or choices.help

theorem ofDecorations_append (decorations later : List Decoration) :
    ofDecorations (decorations ++ later) =
      (ofDecorations decorations).followedBy (ofDecorations later) := by
  simp [ofDecorations, followedBy, List.head?_append, List.getLast?_append]

/-- Of unwinding frames only the paths remain. -/
theorem ofDecorations_unwinding {decorations : List Decoration}
    (hunwinding : ∀ decoration ∈ decorations, decoration.Unwinding) :
    ofDecorations decorations =
      ⟨(decorations.filterMap Decoration.path?).head?, none, none, none⟩ := by
  have hposition : decorations.filterMap Decoration.position? = [] :=
    List.filterMap_eq_nil_iff.mpr fun decoration hmem => (hunwinding decoration hmem).position?
  have hsource : decorations.filterMap Decoration.source? = [] :=
    List.filterMap_eq_nil_iff.mpr fun decoration hmem => (hunwinding decoration hmem).source?
  have hhelp : decorations.filterMap Decoration.help? = [] :=
    List.filterMap_eq_nil_iff.mpr fun decoration hmem => (hunwinding decoration hmem).help?
  rw [ofDecorations, hposition, hsource, hhelp]
  rfl

theorem ofDecorations_noPosition : ofDecorations [.atPosition none] = ⟨none, none, none, none⟩ :=
  ofDecorations_unwinding (List.forall_mem_singleton.mpr .noPosition)

theorem isSome_path_of_mem {decorations : List Decoration} {path : Path}
    (hmem : .atPath path ∈ decorations) : (ofDecorations decorations).path.isSome = true :=
  List.isSome_head?.mpr (List.ne_nil_of_mem (List.mem_filterMap.mpr ⟨_, hmem, rfl⟩))

theorem isSome_source_iff {decorations : List Decoration} :
    (ofDecorations decorations).source.isSome = true ↔
      ∃ name text, .withSource name text ∈ decorations := by
  rw [ofDecorations, List.getLast?_isSome]
  constructor
  · intro hsources
    obtain ⟨source, hsource⟩ := List.exists_mem_of_ne_nil _ hsources
    obtain ⟨decoration, hmem, hgiven⟩ := List.mem_filterMap.mp hsource
    cases decoration with
    | withSource name text => exact ⟨name, text, hmem⟩
    | atPath | atPosition | withHelp => cases hgiven
  · rintro ⟨name, text, hmem⟩
    exact List.ne_nil_of_mem (List.mem_filterMap.mpr ⟨_, hmem, rfl⟩)

end Choices

namespace Failure

/-! ## One decoration after the other -/

def decorateOnce (failure : Failure) : Decoration → Failure
  | .atPath path => failure.atPath path
  | .atPosition position => failure.atPosition position
  | .withSource name text => failure.withSource name text
  | .withHelp help => failure.withHelp help

def decorate (failure : Failure) (decorations : List Decoration) : Failure :=
  decorations.foldl decorateOnce failure

/-- The failure with choices that were made after it arose. -/
def choose (failure : Failure) (choices : Choices) : Failure where
  cause := failure.cause
  path := failure.path.or choices.path
  position := failure.position.or choices.position
  source := choices.source.or failure.source
  help := choices.help.or failure.help
  code := failure.code

theorem choose_followedBy (failure : Failure) (choices later : Choices) :
    failure.choose (choices.followedBy later) = (failure.choose choices).choose later := by
  simp [choose, Choices.followedBy, Option.or_assoc]

theorem decorateOnce_eq_choose (failure : Failure) (decoration : Decoration) :
    failure.decorateOnce decoration = failure.choose (.ofDecorations [decoration]) := by
  rcases failure with ⟨cause, path, position, source, help, code⟩
  cases decoration with
  | atPosition given => cases given <;> simp [decorateOnce, choose, Choices.ofDecorations,
      Decoration.path?, Decoration.position?, Decoration.source?, Decoration.help?, atPosition]
  | atPath | withSource | withHelp =>
      simp [decorateOnce, choose, Choices.ofDecorations, Decoration.path?, Decoration.position?,
        Decoration.source?, Decoration.help?, atPath, withSource, withHelp]

theorem decorate_eq_choose (failure : Failure) (decorations : List Decoration) :
    failure.decorate decorations = failure.choose (.ofDecorations decorations) := by
  induction decorations generalizing failure with
  | nil => simp [decorate, choose, Choices.ofDecorations]
  | cons decoration rest ih =>
      calc failure.decorate (decoration :: rest)
        _ = (failure.decorateOnce decoration).decorate rest := rfl
        _ = (failure.choose (.ofDecorations [decoration])).choose (.ofDecorations rest) := by
            rw [ih, decorateOnce_eq_choose]
        _ = failure.choose (.ofDecorations (decoration :: rest)) := by
            rw [← choose_followedBy, ← Choices.ofDecorations_append]
            rfl

/-- What has a path already keeps it, and unwinding frames have nothing else to give. -/
theorem choose_of_unwinding {failure : Failure} {outer : List Decoration}
    (hpath : failure.path.isSome = true)
    (hunwinding : ∀ decoration ∈ outer, decoration.Unwinding) :
    failure.choose (.ofDecorations outer) = failure := by
  rw [Choices.ofDecorations_unwinding hunwinding, choose, Option.or_of_isSome hpath]
  simp

theorem label?_eq_some_iff {failure : Failure} {label : String} {span : Span} :
    failure.label? = some (label, span) ↔
      label = failure.cause.label ∧ failure.source.isSome = true ∧
        ∃ position, failure.position = some position ∧ position.span = some span := by
  unfold label?
  simp only [bind, Option.bind_eq_some_iff, pure, Option.some.injEq, Prod.mk.injEq,
    Option.isSome_iff_exists]
  constructor
  · rintro ⟨source, hsource, position, hposition, span', hspan, rfl, rfl⟩
    exact ⟨rfl, ⟨source, hsource⟩, position, hposition, hspan⟩
  · rintro ⟨rfl, ⟨source, hsource⟩, position, hposition, hspan⟩
    exact ⟨source, hsource, position, hposition, span, hspan, rfl, rfl⟩

theorem decorate_ofCause (cause : Cause) (decorations : List Decoration) :
    (ofCause cause).decorate decorations =
      ⟨cause, (decorations.filterMap Decoration.path?).head?,
        (decorations.filterMap Decoration.position?).head?,
        (decorations.filterMap Decoration.source?).getLast?,
        (decorations.filterMap Decoration.help?).getLast?.or cause.help?, cause.code⟩ := by
  rw [decorate_eq_choose]
  simp [choose, ofCause, Choices.ofDecorations]

/--
A failure of a cause with any decorations keeps the cause and its code; it has the first path,
the first position given, the last source, and the last advice or else that of the cause.  It
has a label when there is a source and the position has a span.  So decorations with the same
choices give the same failure, and what unwinding frames add changes nothing.
-/
theorem decorated_failures_have_a_closed_form (cause : Cause) :
    (∀ decorations, (ofCause cause).decorate decorations =
      ⟨cause, (decorations.filterMap Decoration.path?).head?,
        (decorations.filterMap Decoration.position?).head?,
        (decorations.filterMap Decoration.source?).getLast?,
        (decorations.filterMap Decoration.help?).getLast?.or cause.help?, cause.code⟩) ∧
    (∀ decorations, ((ofCause cause).decorate decorations).code =
      "ast_builder::" ++ cause.category ++ "::" ++ cause.codeSuffix) ∧
    (∀ decorations label span,
      ((ofCause cause).decorate decorations).label? = some (label, span) ↔
        label = cause.label ∧ (∃ name text, .withSource name text ∈ decorations) ∧
          ∃ position, (decorations.filterMap Decoration.position?).head? = some position ∧
            position.span = some span) ∧
    (∀ decorations decorations',
      Choices.ofDecorations decorations = .ofDecorations decorations' →
        (ofCause cause).decorate decorations = (ofCause cause).decorate decorations') ∧
    (∀ decorations outer, (∃ path, .atPath path ∈ decorations) →
      (∀ decoration ∈ outer, decoration.Unwinding) →
        (ofCause cause).decorate (decorations ++ outer) = (ofCause cause).decorate decorations) ∧
    ∀ decorations later, (ofCause cause).decorate (decorations ++ .atPosition none :: later) =
      (ofCause cause).decorate (decorations ++ later) := by
  refine ⟨decorate_ofCause cause, fun decorations => ?_, fun decorations label span => ?_,
    fun decorations decorations' hsame => ?_, fun decorations outer hpath hunwinding => ?_,
    fun decorations later => ?_⟩
  · rw [decorate_ofCause, Cause.code]
  · rw [label?_eq_some_iff, decorate_ofCause, ← Choices.isSome_source_iff]
    rfl
  · rw [decorate_eq_choose, decorate_eq_choose, hsame]
  · obtain ⟨path, hmem⟩ := hpath
    have hlocated : ((ofCause cause).decorate decorations).path.isSome = true := by
      rw [decorate_ofCause]
      exact Choices.isSome_path_of_mem hmem
    calc (ofCause cause).decorate (decorations ++ outer)
      _ = ((ofCause cause).decorate decorations).decorate outer := List.foldl_append
      _ = ((ofCause cause).decorate decorations).choose (.ofDecorations outer) :=
          decorate_eq_choose _ outer
      _ = (ofCause cause).decorate decorations := choose_of_unwinding hlocated hunwinding
  · rw [← List.singleton_append, decorate_eq_choose, decorate_eq_choose,
      Choices.ofDecorations_append, Choices.ofDecorations_append, Choices.ofDecorations_append,
      Choices.ofDecorations_noPosition]
    simp [Choices.followedBy]

/-- What the frames around a decorator record, from the innermost to the program. -/
def decoratorRecords : List Decoration :=
  [.atPosition none, .withHelp "remove the decorator", .atPath [.field "decorators", .index 0],
   .withSource "a.js" "@f class A {}", .atPosition (some ⟨some ⟨0, 2⟩, some 1, some 0⟩),
   .atPath [.field "body", .index 0], .withHelp "see the list of builders"]

/-- The same choices in another order, without what does not count. -/
def decoratorChoices : List Decoration :=
  [.withHelp "see the list of builders", .withSource "a.js" "@f class A {}",
   .atPosition (some ⟨some ⟨0, 2⟩, some 1, some 0⟩), .atPath [.field "decorators", .index 0]]

def programFrame : List Decoration :=
  [.atPosition none, .atPath [.field "body", .index 0]]

theorem decorated_failures_have_a_closed_form_decorator :
    (∃ path, .atPath path ∈ decoratorRecords) ∧
    (∀ decoration ∈ programFrame, decoration.Unwinding) ∧
    (unsupported "Decorator").decorate (decoratorRecords ++ programFrame) =
      (unsupported "Decorator").decorate decoratorRecords ∧
    Choices.ofDecorations decoratorRecords = .ofDecorations decoratorChoices ∧
    (unsupported "Decorator").decorate decoratorRecords =
      (unsupported "Decorator").decorate decoratorChoices ∧
    ((unsupported "Decorator").decorate decoratorRecords).label? =
      some ("no builder for this node", ⟨0, 2⟩) := by
  obtain ⟨-, -, hlabel, hsame, houter, -⟩ :=
    decorated_failures_have_a_closed_form (.unsupported "Decorator")
  have hpath : ∃ path, .atPath path ∈ decoratorRecords :=
    ⟨[.field "decorators", .index 0], by decide⟩
  have hframe : ∀ decoration ∈ programFrame, decoration.Unwinding := by
    intro decoration hmem
    rcases List.mem_cons.mp hmem with rfl | hmem
    · exact .noPosition
    · rw [List.mem_singleton.mp hmem]
      exact .path _
  have hchoices : Choices.ofDecorations decoratorRecords = .ofDecorations decoratorChoices := rfl
  refine ⟨hpath, hframe, houter _ _ hpath hframe, hchoices, hsame _ _ hchoices, ?_⟩
  exact (hlabel _ _ _).mpr ⟨rfl, ⟨"a.js", "@f class A {}", by decide⟩, _, rfl, rfl⟩

end Failure

end BuilderCalls
