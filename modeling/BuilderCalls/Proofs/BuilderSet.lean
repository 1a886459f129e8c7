import BuilderCalls.Evaluation
import BuilderCalls.Proofs.Call.Postorder
import BuilderCalls.Proofs.Effectful
import BuilderCalls.Proofs.Fitting
import Mathlib.Data.List.Forall2

/-!
# Builder sets with effects

A builder set may keep a state and may refuse to build.  `BuilderSet.noting` is a builder
set that also keeps a log of its invocations, which changes nothing else
(`Call.notes_evaluate`).  For calls that fit their signatures the log follows the post-order
of the calls, up to the first refusal.
-/

namespace BuilderCalls

open Effectful

/-! ## Arguments filled with values -/

section Filling

variable {μ σ ν : Type}

/-- The same argument, with other nodes. -/
inductive SameArg : Arg μ → Arg ν → Prop
  | null : SameArg .null .null
  | bool (value : Bool) : SameArg (.bool value) (.bool value)
  | string (value : String) : SameArg (.string value) (.string value)
  | literal (value : Literal) : SameArg (.literal value) (.literal value)
  | node (left : μ) (right : ν) : SameArg (.node left) (.node right)
  | list {items : List (Arg μ)} {items' : List (Arg ν)}
      (hitems : List.Forall₂ SameArg items items') : SameArg (.list items) (.list items')
  | template (cooked : Option String) (raw : String) :
      SameArg (.template cooked raw) (.template cooked raw)

/-- The arguments with the values for their nodes, in order. -/
structure Filled (args : List (Arg μ)) (values : List ν) (filled : List (Arg ν)) : Prop where
  same : List.Forall₂ SameArg args filled
  values : filled.flatMap Arg.children = values

/-- The argument is evaluated by evaluating its children. -/
structure FillsArg (builders : BuilderSet (Effectful σ) ν) (arg : Arg Call) : Prop where
  ok : ∀ {state middle values},
    perform (evaluateAll builders arg.children) state = (.ok values, middle) →
      ∃ built, perform (Call.evaluateArg builders arg) state = (.ok built, middle) ∧
        SameArg arg built ∧ built.children = values
  error : ∀ {state final failure},
    perform (evaluateAll builders arg.children) state = (.error failure, final) →
      perform (Call.evaluateArg builders arg) state = (.error failure, final)

structure FillsArgs (builders : BuilderSet (Effectful σ) ν) (args : List (Arg Call)) : Prop where
  ok : ∀ {state middle values},
    perform (evaluateAll builders (args.flatMap Arg.children)) state = (.ok values, middle) →
      ∃ built, perform (Call.evaluateArgs builders args) state = (.ok built, middle) ∧
        Filled args values built
  error : ∀ {state final failure},
    perform (evaluateAll builders (args.flatMap Arg.children)) state = (.error failure, final) →
      perform (Call.evaluateArgs builders args) state = (.error failure, final)

variable {builders : BuilderSet (Effectful σ) ν}

@[simp] theorem evaluateAll_nil : evaluateAll builders [] = pure [] := by
  simp [evaluateAll]

theorem evaluateAll_cons (call : Call) (calls : List Call) :
    evaluateAll builders (call :: calls) =
      call.evaluate builders >>= fun value => (value :: ·) <$> evaluateAll builders calls := by
  simp [evaluateAll, List.mapM_cons]

theorem evaluateAll_append (calls calls' : List Call) :
    evaluateAll builders (calls ++ calls') =
      evaluateAll builders calls >>= fun values =>
        (values ++ ·) <$> evaluateAll builders calls' := by
  simp [evaluateAll, List.mapM_append]

theorem evaluateAll_singleton (call : Call) :
    evaluateAll builders [call] = (fun value => [value]) <$> call.evaluate builders := by
  simp [evaluateAll_cons]

theorem fillsArgs_of_forall {args : List (Arg Call)}
    (hargs : ∀ arg ∈ args, FillsArg builders arg) : FillsArgs builders args := by
  induction args with
  | nil =>
      constructor
      · rintro state middle values hvalues
        cases hvalues
        exact ⟨[], by rw [Call.evaluateArgs.eq_def]; rfl, .nil, rfl⟩
      · rintro state final failure herror
        cases herror
  | cons arg args ih =>
      obtain ⟨harg, hargs⟩ := List.forall_mem_cons.mp hargs
      have hrest := ih hargs
      constructor
      · intro state final values hvalues
        rw [List.flatMap_cons, evaluateAll_append] at hvalues
        obtain ⟨first, middle, hfirst, hvalues⟩ := perform_bind_eq_ok hvalues
        obtain ⟨rest, hothers, rfl⟩ := perform_map_eq_ok hvalues
        obtain ⟨built, hbuilt, hsame, rfl⟩ := harg.ok hfirst
        obtain ⟨builts, hbuilts, hfilled⟩ := hrest.ok hothers
        refine ⟨built :: builts, ?_, .cons hsame hfilled.same, ?_⟩
        · rw [Call.evaluateArgs.eq_def, perform_bind_of_ok hbuilt, perform_map_of_ok hbuilts]
        · rw [List.flatMap_cons, hfilled.values]
      · intro state final failure herror
        rw [List.flatMap_cons, evaluateAll_append] at herror
        rw [Call.evaluateArgs.eq_def]
        rcases perform_bind_eq_error herror with hfirst | ⟨first, middle, hfirst, herror⟩
        · exact perform_bind_of_error (harg.error hfirst)
        · obtain ⟨built, hbuilt, -⟩ := harg.ok hfirst
          rw [perform_bind_of_ok hbuilt]
          exact perform_map_of_error (hrest.error (perform_map_eq_error herror))

theorem fillsArg_leaf {arg : Arg Call} {built : Arg ν} (hchildren : arg.children = [])
    (hsame : SameArg arg built) (hbuilt : built.children = [])
    (hevaluate : Call.evaluateArg builders arg = pure built) : FillsArg builders arg := by
  constructor
  · intro state middle values hvalues
    rw [hchildren, evaluateAll_nil] at hvalues
    cases hvalues
    exact ⟨built, by rw [hevaluate]; rfl, hsame, hbuilt⟩
  · intro state final failure herror
    rw [hchildren, evaluateAll_nil] at herror
    cases herror

theorem fillsArg_node (call : Call) : FillsArg builders (.node call) := by
  have hchildren : evaluateAll builders (Arg.node call).children =
      (fun value => [value]) <$> call.evaluate builders := evaluateAll_singleton call
  have hevaluate : Call.evaluateArg builders (.node call) =
      Arg.node <$> call.evaluate builders := by
    rw [Call.evaluateArg.eq_def]
  constructor
  · intro state middle values hvalues
    rw [hchildren] at hvalues
    obtain ⟨value, hvalue, rfl⟩ := perform_map_eq_ok hvalues
    exact ⟨.node value, hevaluate ▸ perform_map_of_ok hvalue, .node call value, rfl⟩
  · intro state final failure herror
    rw [hchildren] at herror
    exact hevaluate ▸ perform_map_of_error (perform_map_eq_error herror)

theorem fillsArg_null : FillsArg builders .null :=
  fillsArg_leaf rfl .null rfl (by rw [Call.evaluateArg.eq_def])

/-- The items of a list that are nodes are its children. -/
theorem flatMap_children_of_items {items : List (Arg μ)}
    (hitems : ∀ item ∈ items, item.isNodeOrNull = true) :
    items.flatMap Arg.children = (Arg.list items).children := by
  induction items with
  | nil => rfl
  | cons item items ih =>
      obtain ⟨hitem, hitems⟩ := List.forall_mem_cons.mp hitems
      rw [List.flatMap_cons, ih hitems]
      cases item <;> first | rfl | cases hitem

theorem SameArg.isNodeOrNull {arg : Arg μ} {arg' : Arg ν} (hsame : SameArg arg arg') :
    arg'.isNodeOrNull = arg.isNodeOrNull := by
  cases hsame <;> rfl

theorem SameArg.isNodeOrNull_of_forall₂ {args : List (Arg μ)} {args' : List (Arg ν)}
    (hsame : List.Forall₂ SameArg args args') (hargs : ∀ arg ∈ args, arg.isNodeOrNull = true) :
    ∀ arg ∈ args', arg.isNodeOrNull = true := by
  induction hsame with
  | nil => exact List.forall_mem_nil _
  | cons hfirst _ ih =>
      obtain ⟨harg, hargs⟩ := List.forall_mem_cons.mp hargs
      exact List.forall_mem_cons.mpr ⟨hfirst.isNodeOrNull.trans harg, ih hargs⟩

theorem fillsArg_list {items : List (Arg Call)}
    (hitems : ∀ item ∈ items, item.isNodeOrNull = true) : FillsArg builders (.list items) := by
  have hfills : FillsArgs builders items := fillsArgs_of_forall fun item hitem => by
    have hitem := hitems item hitem
    cases item with
    | null => exact fillsArg_null
    | node call => exact fillsArg_node call
    | _ => cases hitem
  have hevaluate : Call.evaluateArg builders (.list items) =
      Arg.list <$> Call.evaluateArgs builders items := by
    rw [Call.evaluateArg.eq_def]
  constructor
  · intro state middle values hvalues
    rw [← flatMap_children_of_items hitems] at hvalues
    obtain ⟨built, hbuilt, hsame, rfl⟩ := hfills.ok hvalues
    refine ⟨.list built, hevaluate ▸ perform_map_of_ok hbuilt, .list hsame, ?_⟩
    exact (flatMap_children_of_items (SameArg.isNodeOrNull_of_forall₂ hsame hitems)).symm
  · intro state final failure herror
    rw [← flatMap_children_of_items hitems] at herror
    exact hevaluate ▸ perform_map_of_error (hfills.error herror)

theorem fillsArg_of_fitting {kind : SlotKind} {arg : Arg Call} (hfitting : Fitting kind arg) :
    FillsArg builders arg := by
  cases hfitting with
  | child _ call => exact fillsArg_node call
  | absent => exact fillsArg_null
  | list _ hitems =>
      apply fillsArg_list
      intro item hitem
      cases hitems item hitem <;> rfl
  | name text | keyword =>
      exact fillsArg_leaf rfl (.string _) rfl (by rw [Call.evaluateArg.eq_def])
  | flag value => exact fillsArg_leaf rfl (.bool value) rfl (by rw [Call.evaluateArg.eq_def])
  | literal literal =>
      exact fillsArg_leaf rfl (.literal literal) rfl (by rw [Call.evaluateArg.eq_def])
  | template cooked raw =>
      exact fillsArg_leaf rfl (.template cooked raw) rfl (by rw [Call.evaluateArg.eq_def])

theorem fillsArgs_of_check {call : Call} (hcheck : call.check = .ok ()) :
    FillsArgs builders call.args := by
  have hfitting := NodeType.check_eq_ok_iff.mp hcheck
  apply fillsArgs_of_forall
  intro arg harg
  obtain ⟨slot, -, hslot⟩ := exists_mem_of_forall₂ hfitting harg
  exact fillsArg_of_fitting hslot

theorem Call.evaluate_of_children_ok {call : Call} (hcheck : call.check = .ok ())
    {state middle : σ} {values : List ν}
    (hvalues : perform (evaluateAll builders call.children) state = (.ok values, middle)) :
    ∃ built, Filled call.args values built ∧
      perform (call.evaluate builders) state =
        perform (builders.build call.nodeType built) middle := by
  obtain ⟨built, hbuilt, hfilled⟩ := (fillsArgs_of_check hcheck).ok hvalues
  obtain ⟨nodeType, args⟩ := call
  refine ⟨built, hfilled, ?_⟩
  rw [Call.evaluate.eq_def]
  change perform (MonadExcept.ofExcept (Call.check (.mk nodeType args)) >>= _) state = _
  rw [hcheck]
  exact (perform_bind_of_ok rfl).trans (perform_bind_of_ok hbuilt)

theorem Call.evaluate_of_children_error {call : Call} (hcheck : call.check = .ok ())
    {state final : σ} {failure : Failure}
    (herror : perform (evaluateAll builders call.children) state = (.error failure, final)) :
    perform (call.evaluate builders) state = (.error failure, final) := by
  have hargs := (fillsArgs_of_check hcheck).error herror
  obtain ⟨nodeType, args⟩ := call
  rw [Call.evaluate.eq_def]
  change perform (MonadExcept.ofExcept (Call.check (.mk nodeType args)) >>= _) state = _
  rw [hcheck]
  exact (perform_bind_of_ok rfl).trans (perform_bind_of_error hargs)

end Filling

/-! ## Noting invocations -/

section Noting

variable {σ ν α β : Type}

/-- What a builder set was given once, and what came of it. -/
structure Invocation (ν : Type) where
  nodeType : NodeType
  args : List (Arg ν)
  outcome : Except Failure ν

/-- The builder set, with a log of its invocations beside its own state. -/
def BuilderSet.noting (builders : BuilderSet (Effectful σ) ν) :
    BuilderSet (Effectful (σ × List (Invocation ν))) ν where
  build nodeType args := ExceptT.mk fun (state, log) =>
    let (outcome, next) := perform (builders.build nodeType args) state
    (outcome, next, log ++ [⟨nodeType, args, outcome⟩])

theorem perform_noting (builders : BuilderSet (Effectful σ) ν) (nodeType : NodeType)
    (args : List (Arg ν)) (state : σ) (log : List (Invocation ν)) :
    perform (builders.noting.build nodeType args) (state, log) =
      ((perform (builders.build nodeType args) state).1,
        (perform (builders.build nodeType args) state).2,
        log ++ [⟨nodeType, args, (perform (builders.build nodeType args) state).1⟩]) :=
  rfl

/-- The two actions have the same outcome and leave the same state, apart from the log. -/
def Notes (noted : Effectful (σ × List (Invocation ν)) α) (plain : Effectful σ α) : Prop :=
  ∀ state log, (perform noted (state, log)).1 = (perform plain state).1 ∧
    (perform noted (state, log)).2.1 = (perform plain state).2

theorem Notes.perform_eq {noted : Effectful (σ × List (Invocation ν)) α} {plain : Effectful σ α}
    (hnotes : Notes noted plain) {state final : σ} {log log' : List (Invocation ν)}
    {outcome : Except Failure α} (hnoted : perform noted (state, log) = (outcome, final, log')) :
    perform plain state = (outcome, final) := by
  obtain ⟨houtcome, hfinal⟩ := hnotes state log
  rw [hnoted] at houtcome hfinal
  exact Prod.ext houtcome.symm hfinal.symm

theorem Notes.pure (value : α) :
    Notes (Pure.pure value : Effectful (σ × List (Invocation ν)) α) (Pure.pure value) :=
  fun _ _ => ⟨rfl, rfl⟩

theorem Notes.bind {noted : Effectful (σ × List (Invocation ν)) α} {plain : Effectful σ α}
    {next : α → Effectful (σ × List (Invocation ν)) β} {next' : α → Effectful σ β}
    (hnotes : Notes noted plain) (hnext : ∀ value, Notes (next value) (next' value)) :
    Notes (noted >>= next) (plain >>= next') := by
  intro state log
  obtain ⟨houtcome, hstate⟩ := hnotes state log
  rw [perform_bind, perform_bind]
  rcases hnoted : perform noted (state, log) with ⟨outcome, middle, log'⟩
  rcases hplain : perform plain state with ⟨outcome', middle'⟩
  rw [hnoted, hplain] at houtcome hstate
  obtain rfl : outcome = outcome' := houtcome
  obtain rfl : middle = middle' := hstate
  cases outcome with
  | ok value => exact hnext value middle log'
  | error failure => exact ⟨rfl, rfl⟩

theorem Notes.map {noted : Effectful (σ × List (Invocation ν)) α} {plain : Effectful σ α}
    (change : α → β) (hnotes : Notes noted plain) :
    Notes (change <$> noted) (change <$> plain) := by
  rw [map_eq_pure_bind, map_eq_pure_bind]
  exact hnotes.bind fun value => .pure (change value)

variable (builders : BuilderSet (Effectful σ) ν)

mutual

theorem Call.notes_evaluate : (call : Call) →
    Notes (call.evaluate builders.noting) (call.evaluate builders)
  | .mk nodeType args => by
      rw [Call.evaluate.eq_def, Call.evaluate.eq_def]
      refine .bind ?_ fun _ => .bind (Call.notes_evaluateArgs args) fun built _ _ => ⟨rfl, rfl⟩
      cases nodeType.check args <;> exact fun _ _ => ⟨rfl, rfl⟩

theorem Call.notes_evaluateArg : (arg : Arg Call) →
    Notes (Call.evaluateArg builders.noting arg) (Call.evaluateArg builders arg)
  | .null => .pure Arg.null
  | .bool value => .pure (Arg.bool value)
  | .string value => .pure (Arg.string value)
  | .literal value => .pure (Arg.literal value)
  | .node call => .map Arg.node (Call.notes_evaluate call)
  | .list items => .map Arg.list (Call.notes_evaluateArgs items)
  | .template cooked raw => .pure (Arg.template cooked raw)

theorem Call.notes_evaluateArgs : (args : List (Arg Call)) →
    Notes (Call.evaluateArgs builders.noting args) (Call.evaluateArgs builders args)
  | [] => .pure []
  | arg :: args =>
      .bind (Call.notes_evaluateArg arg) fun built =>
        .map (built :: ·) (Call.notes_evaluateArgs args)

end

theorem notes_evaluateAll (calls : List Call) :
    Notes (evaluateAll builders.noting calls) (evaluateAll builders calls) := by
  induction calls with
  | nil => simpa using Notes.pure []
  | cons call calls ih =>
      rw [evaluateAll_cons, evaluateAll_cons]
      exact (call.notes_evaluate builders).bind fun value => ih.map (value :: ·)

end Noting

end BuilderCalls
