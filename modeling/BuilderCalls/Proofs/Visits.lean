import BuilderCalls.Proofs.BuilderSet

/-!
# Visits of a builder set

Evaluation goes to the nodes of a call one after the other and has each built.  `Tours` says
what such a sequence of visits is like: it follows a list of stops, it gives each node the
values that were built for its children, and it ends after the last stop or with the first
refusal.
-/

namespace BuilderCalls

open Effectful

variable {σ ν α β : Type}

/-- A node in its place and what its builder was invoked with there. -/
structure Visit (ν : Type) where
  place : Call.Place
  node : Call
  invocation : Invocation ν

namespace Visit

def stop (visit : Visit ν) : Call.Place × Call :=
  (visit.place, visit.node)

def Succeeds (visit : Visit ν) : Prop :=
  ∃ value, visit.invocation.outcome = .ok value

def under (index : Nat) (visit : Visit ν) : Visit ν :=
  ⟨index :: visit.place, visit.node, visit.invocation⟩

end Visit

/-- The visit of the place built the value. -/
def BuiltAt (visits : List (Visit ν)) (place : Call.Place) (value : ν) : Prop :=
  ∃ visit ∈ visits, visit.place = place ∧ visit.invocation.outcome = .ok value

/-- The builder got the node's own arguments, with what was built for each child in its place. -/
structure PassesOn (visits : List (Visit ν)) (visit : Visit ν) : Prop where
  nodeType : visit.invocation.nodeType = visit.node.nodeType
  args : List.Forall₂ SameArg visit.node.args visit.invocation.args
  values : ∀ index value, (visit.invocation.args.flatMap Arg.children)[index]? = some value →
    BuiltAt visits (visit.place ++ [index]) value

inductive Ended (stops : List (Call.Place × Call)) (visits : List (Visit ν)) :
    Except Failure α → Prop
  | complete {value : α} (hstops : visits.map Visit.stop = stops)
      (hbuilt : ∀ visit ∈ visits, visit.Succeeds) : Ended stops visits (.ok value)
  | refused {failure : Failure} (earlier : List (Visit ν)) (last : Visit ν)
      (hvisits : visits = earlier ++ [last]) (hstops : visits.map Visit.stop <+: stops)
      (hearlier : ∀ visit ∈ earlier, visit.Succeeds)
      (hlast : last.invocation.outcome = .error failure) : Ended stops visits (.error failure)

theorem Ended.map {stops : List (Call.Place × Call)} {visits : List (Visit ν)}
    {outcome : Except Failure α} (hended : Ended stops visits outcome) (change : α → β) :
    Ended stops visits (change <$> outcome) := by
  cases hended with
  | complete hstops hbuilt => exact .complete hstops hbuilt
  | refused earlier last hvisits hstops hearlier hlast =>
      exact .refused earlier last hvisits hstops hearlier hlast

structure Tours (stops : List (Call.Place × Call)) (visits : List (Visit ν))
    (outcome : Except Failure α) : Prop where
  passesOn : ∀ visit ∈ visits, PassesOn visits visit
  ended : Ended stops visits outcome

theorem BuiltAt.mono {visits visits' : List (Visit ν)} (hsubset : visits ⊆ visits')
    {place : Call.Place} {value : ν} (hbuilt : BuiltAt visits place value) :
    BuiltAt visits' place value := by
  obtain ⟨visit, hvisit, hplace⟩ := hbuilt
  exact ⟨visit, hsubset hvisit, hplace⟩

theorem PassesOn.mono {visits visits' : List (Visit ν)} (hsubset : visits ⊆ visits')
    {visit : Visit ν} (hpasses : PassesOn visits visit) : PassesOn visits' visit :=
  ⟨hpasses.nodeType, hpasses.args, fun index value hvalue =>
    (hpasses.values index value hvalue).mono hsubset⟩

theorem BuiltAt.under {visits : List (Visit ν)} {place : Call.Place} {value : ν}
    (hbuilt : BuiltAt visits place value) (index : Nat) :
    BuiltAt (visits.map (Visit.under index)) (index :: place) value := by
  obtain ⟨visit, hvisit, rfl, houtcome⟩ := hbuilt
  exact ⟨visit.under index, List.mem_map_of_mem hvisit, rfl, houtcome⟩

theorem PassesOn.under {visits : List (Visit ν)} {visit : Visit ν}
    (hpasses : PassesOn visits visit) (index : Nat) :
    PassesOn (visits.map (Visit.under index)) (visit.under index) :=
  ⟨hpasses.nodeType, hpasses.args, fun place value hvalue =>
    (hpasses.values place value hvalue).under index⟩

theorem map_stop_under (visits : List (Visit ν)) (index : Nat) :
    (visits.map (Visit.under index)).map Visit.stop =
      (visits.map Visit.stop).map (Call.under index) := by
  simp only [List.map_map]
  rfl

namespace Tours

variable {stops stops' : List (Call.Place × Call)} {visits visits' : List (Visit ν)}

theorem under {outcome : Except Failure α} (htours : Tours stops visits outcome) (index : Nat) :
    Tours (stops.map (Call.under index)) (visits.map (Visit.under index)) outcome := by
  refine ⟨?_, ?_⟩
  · intro visit hvisit
    obtain ⟨inner, hinner, rfl⟩ := List.mem_map.mp hvisit
    exact (htours.passesOn inner hinner).under index
  · cases htours.ended with
    | complete hstops hbuilt =>
        refine .complete (by rw [map_stop_under, hstops]) ?_
        exact List.forall_mem_map.mpr hbuilt
    | refused earlier last hvisits hstops hearlier hlast =>
        refine .refused (earlier.map (Visit.under index)) (last.under index) ?_ ?_ ?_ hlast
        · simp [hvisits]
        · rw [map_stop_under]
          exact hstops.map _
        · exact List.forall_mem_map.mpr hearlier

/-- A refusal also ends a longer way. -/
theorem of_refused {failure : Failure}
    (htours : Tours stops visits (.error failure : Except Failure α)) :
    Tours (stops ++ stops') visits (.error failure : Except Failure β) := by
  refine ⟨htours.passesOn, ?_⟩
  cases htours.ended with
  | refused earlier last hvisits hstops hearlier hlast =>
      exact .refused earlier last hvisits (hstops.trans (List.prefix_append ..)) hearlier hlast

/-- After a complete tour, the next one may use everything that has been built. -/
theorem append {value : α} {outcome : Except Failure β}
    (htours : Tours stops visits (.ok value : Except Failure α))
    (hpasses : ∀ visit ∈ visits', PassesOn (visits ++ visits') visit)
    (hended : Ended stops' visits' outcome) :
    Tours (stops ++ stops') (visits ++ visits') outcome := by
  refine ⟨?_, ?_⟩
  · intro visit hvisit
    rcases List.mem_append.mp hvisit with hvisit | hvisit
    · exact (htours.passesOn visit hvisit).mono (List.subset_append_left ..)
    · exact hpasses visit hvisit
  · cases htours.ended with
    | complete hstops hbuilt =>
        cases hended with
        | complete hstops' hbuilt' =>
            refine .complete (by rw [List.map_append, hstops, hstops']) ?_
            exact List.forall_mem_append.mpr ⟨hbuilt, hbuilt'⟩
        | refused earlier last hvisits hstops' hearlier hlast =>
            refine .refused (visits ++ earlier) last ?_ ?_ ?_ hlast
            · rw [hvisits, List.append_assoc]
            · rw [List.map_append, hstops]
              exact (List.prefix_append_right_inj _).mpr hstops'
            · exact List.forall_mem_append.mpr ⟨hbuilt, hearlier⟩

end Tours

/-! ## Tours of calls -/

section Evaluation

variable {builders : BuilderSet (Effectful σ) ν}

/-- Evaluating the call, from any state and log, notes a tour of its post-order. -/
def ToursCall (builders : BuilderSet (Effectful σ) ν) (call : Call) : Prop :=
  ∀ state log, ∃ visits outcome final,
    perform (call.evaluate builders.noting) (state, log) =
        (outcome, final, log ++ visits.map Visit.invocation) ∧
      Tours call.postorder visits outcome ∧
        ∀ value, outcome = .ok value → BuiltAt visits [] value

/-- The first of several values was built at the root of its call, the others after it. -/
theorem builtAt_cons {visits visits' : List (Visit ν)} {start : Nat} {first : ν} {values : List ν}
    (hfirst : BuiltAt visits [] first)
    (hrest : ∀ index value, values[index]? = some value →
      BuiltAt visits' [start + 1 + index] value) :
    ∀ index value, (first :: values)[index]? = some value →
      BuiltAt (visits.map (Visit.under start) ++ visits') [start + index] value := by
  intro index value hvalue
  cases index with
  | zero =>
      cases hvalue
      exact (hfirst.under start).mono (List.subset_append_left ..)
  | succ index =>
      have hbuilt := (hrest index value hvalue).mono
        (List.subset_append_right (visits.map (Visit.under start)) visits')
      rwa [Nat.add_right_comm, Nat.add_assoc] at hbuilt

theorem exists_tour_of_calls {calls : List Call} (hcalls : ∀ call ∈ calls, ToursCall builders call)
    (start : Nat) (state : σ) (log : List (Invocation ν)) :
    ∃ visits outcome final,
      perform (evaluateAll builders.noting calls) (state, log) =
          (outcome, final, log ++ visits.map Visit.invocation) ∧
        Tours (Call.postorderFrom start calls) visits outcome ∧
          ∀ values, outcome = .ok values → values.length = calls.length ∧
            ∀ index value, values[index]? = some value →
              BuiltAt visits [start + index] value := by
  induction calls generalizing start state log with
  | nil =>
      have htours : Tours (Call.postorderFrom start []) ([] : List (Visit ν))
          (.ok [] : Except Failure (List ν)) :=
        ⟨List.forall_mem_nil _, .complete rfl (List.forall_mem_nil _)⟩
      refine ⟨[], .ok [], state, by simp, htours, ?_⟩
      rintro values ⟨⟩
      exact ⟨rfl, nofun⟩
  | cons call calls ih =>
      obtain ⟨hcall, hcalls⟩ := List.forall_mem_cons.mp hcalls
      obtain ⟨visits, outcome, middle, hperform, htours, hroot⟩ := hcall state log
      rw [evaluateAll_cons, Call.postorderFrom_cons]
      cases outcome with
      | error failure =>
          refine ⟨visits.map (Visit.under start), .error failure, middle, ?_,
            (htours.under start).of_refused, nofun⟩
          rw [perform_bind_of_error hperform, List.map_map]
          rfl
      | ok value =>
          obtain ⟨visits', outcome', final, hperform', htours', hroots⟩ :=
            ih hcalls (start + 1) middle (log ++ visits.map Visit.invocation)
          have hpasses : ∀ visit ∈ visits',
              PassesOn (visits.map (Visit.under start) ++ visits') visit := fun visit hvisit =>
            (htours'.passesOn visit hvisit).mono (List.subset_append_right ..)
          refine ⟨visits.map (Visit.under start) ++ visits', (value :: ·) <$> outcome', final,
            ?_, (htours.under start).append hpasses (htours'.ended.map _), ?_⟩
          · rw [perform_bind_of_ok hperform, perform_map, hperform']
            simp [Visit.under]
          · intro values hvalues
            cases outcome' with
            | error failure => cases hvalues
            | ok values' =>
                cases hvalues
                obtain ⟨hlength, hbuilt⟩ := hroots values' rfl
                refine ⟨by rw [List.length_cons, hlength, List.length_cons], ?_⟩
                exact builtAt_cons (hroot value rfl) hbuilt

/-- The builder of a call is invoked after those of its children, with what they built. -/
theorem toursCall_of_children {call : Call} (hcheck : call.check = .ok ())
    (hchildren : ∀ child ∈ call.children, ToursCall builders child) : ToursCall builders call := by
  intro state log
  obtain ⟨visits, outcome, middle, hperform, htours, hroots⟩ :=
    exists_tour_of_calls hchildren 0 state log
  rw [Call.postorder_eq]
  cases outcome with
  | error failure =>
      exact ⟨visits, .error failure, middle, Call.evaluate_of_children_error hcheck hperform,
        htours.of_refused, nofun⟩
  | ok values =>
      obtain ⟨built, hfilled, hevaluate⟩ := Call.evaluate_of_children_ok hcheck hperform
      obtain ⟨-, hbuilt⟩ := hroots values rfl
      rw [hevaluate, perform_noting]
      generalize perform (builders.build call.nodeType built) middle = result
      obtain ⟨outcome, final⟩ := result
      let root : Visit ν := ⟨[], call, call.nodeType, built, outcome⟩
      refine ⟨visits ++ [root], outcome, final, ?_, htours.append ?_ ?_, ?_⟩
      · simp [root]
      · intro visit hvisit
        obtain rfl := List.mem_singleton.mp hvisit
        refine ⟨rfl, hfilled.same, ?_⟩
        intro index value hvalue
        have hvalue : values[index]? = some value := hfilled.values ▸ hvalue
        have hplace := (hbuilt index value hvalue).mono (List.subset_append_left visits [root])
        rwa [Nat.zero_add] at hplace
      · cases outcome with
        | ok value => exact .complete rfl (by simpa [root] using ⟨value, rfl⟩)
        | error failure => exact .refused [] root rfl List.prefix_rfl (List.forall_mem_nil _) rfl
      · rintro value rfl
        exact ⟨root, by simp, rfl, rfl⟩

theorem toursCall_of_sound (builders : BuilderSet (Effectful σ) ν) {call : Call}
    (hsound : ∀ inner, call.Contains inner → inner.check = .ok ()) : ToursCall builders call := by
  induction call using Call.childInduction with
  | step call ih =>
      apply toursCall_of_children (hsound call (.self call))
      intro child hchild
      exact ih child hchild fun inner hinner => hsound inner (.child hchild hinner)

end Evaluation

/-! ## The order of building -/

/-- Lists the builders below a node, with the number of their arguments, and then its own. -/
def BuilderSet.order : BuilderSet (Effectful σ) (List String) where
  build nodeType args :=
    pure (args.flatMap (fun arg => arg.children.flatten) ++
      [nodeType.builder ++ "/" ++ natString args.length])

def Call.entry (call : Call) : String :=
  call.builder ++ "/" ++ natString call.args.length

theorem Call.map_entry_postorderFrom (start : Nat) (calls : List Call) :
    (Call.postorderFrom start calls).map (fun stop => stop.2.entry) =
      calls.flatMap fun call => call.postorder.map fun stop => stop.2.entry := by
  induction calls generalizing start with
  | nil => rfl
  | cons call calls ih =>
      rw [Call.postorderFrom_cons, List.map_append, ih, List.map_map, List.flatMap_cons]
      rfl

theorem perform_evaluateAll_of_forall {builders : BuilderSet (Effectful σ) ν} {state : σ}
    {value : Call → ν} {calls : List Call}
    (hcalls : ∀ call ∈ calls, perform (call.evaluate builders) state = (.ok (value call), state)) :
    perform (evaluateAll builders calls) state = (.ok (calls.map value), state) := by
  induction calls with
  | nil => simp
  | cons call calls ih =>
      obtain ⟨hcall, hcalls⟩ := List.forall_mem_cons.mp hcalls
      rw [evaluateAll_cons, perform_bind_of_ok hcall, perform_map_of_ok (ih hcalls), List.map_cons]

theorem perform_order {call : Call} (hsound : ∀ inner, call.Contains inner → inner.check = .ok ())
    (state : σ) : perform (call.evaluate BuilderSet.order) state =
      (.ok (call.postorder.map fun stop => stop.2.entry), state) := by
  induction call using Call.childInduction with
  | step call ih =>
      have hchildren := perform_evaluateAll_of_forall fun child hchild =>
        ih child hchild fun inner hinner => hsound inner (.child hchild hinner)
      obtain ⟨built, hfilled, hevaluate⟩ :=
        Call.evaluate_of_children_ok (hsound call (.self call)) hchildren
      have hbuilt : built.flatMap (fun arg => arg.children.flatten) =
          call.children.flatMap fun child => child.postorder.map fun stop => stop.2.entry :=
        calc
          built.flatMap (fun arg => arg.children.flatten) =
              (built.flatMap Arg.children).flatten := by
            simp [List.flatMap_def, List.flatten_flatten, Function.comp_def]
          _ = _ := by rw [hfilled.values, List.flatMap_def]
      rw [hevaluate, Call.postorder_eq, List.map_append, Call.map_entry_postorderFrom]
      simp [BuilderSet.order, hbuilt, hfilled.same.length_eq, Call.entry, Call.builder]

/--
Any builder set is invoked once for each node of a call, in post-order, with the arguments of
the node and what has been built for its children in their places, up to the first refusal;
and so for several calls, one after the other.  Noting the invocations changes neither the
outcome nor the state.
-/
theorem evaluation_drives_builders_in_postorder {σ ν : Type} (builders : BuilderSet (Effectful σ) ν)
    (state : σ) :
    (∀ call : Call, (∀ inner, call.Contains inner → inner.check = .ok ()) →
      (call.postorder.map Prod.fst).Nodup ∧
      (∀ place node, (place, node) ∈ call.postorder ↔ call.at? place = some node) ∧
      (∀ place node index, call.at? place = some node →
        call.at? (place ++ [index]) = node.children[index]?) ∧
      (∃ visits outcome final,
        perform (call.evaluate builders) state = (outcome, final) ∧
          perform (call.evaluate builders.noting) (state, []) =
            (outcome, final, visits.map Visit.invocation) ∧
          Tours call.postorder visits outcome ∧
          ∀ value, outcome = .ok value → BuiltAt visits [] value) ∧
      perform (call.evaluate BuilderSet.order) state =
        (.ok (call.postorder.map fun stop => stop.2.entry), state)) ∧
    ∀ calls : List Call, (∀ call ∈ calls, ∀ inner, call.Contains inner → inner.check = .ok ()) →
      (∃ visits outcome final,
        perform (evaluateAll builders calls) state = (outcome, final) ∧
          perform (evaluateAll builders.noting calls) (state, []) =
            (outcome, final, visits.map Visit.invocation) ∧
          Tours (Call.postorderFrom 0 calls) visits outcome ∧
          ∀ values, outcome = .ok values → values.length = calls.length ∧
            ∀ index value, values[index]? = some value → BuiltAt visits [index] value) ∧
      perform (evaluateAll BuilderSet.order calls) state =
        (.ok (calls.map fun call => call.postorder.map fun stop => stop.2.entry), state) := by
  constructor
  · intro call hsound
    refine ⟨call.postorder_nodup, fun _ _ => Call.mem_postorder_iff, ?_, ?_,
      perform_order hsound state⟩
    · intro place node index hnode
      exact Call.at?_append_singleton hnode index
    · obtain ⟨visits, outcome, final, hnoted, htours, hroot⟩ :=
        toursCall_of_sound builders hsound state []
      have hplain := (call.notes_evaluate builders).perform_eq hnoted
      exact ⟨visits, outcome, final, hplain, hnoted, htours, hroot⟩
  · intro calls hsound
    have horder := perform_evaluateAll_of_forall fun call hcall =>
      perform_order (hsound call hcall) state
    refine ⟨?_, horder⟩
    have htoured : ∀ call ∈ calls, ToursCall builders call := fun call hcall =>
      toursCall_of_sound builders (hsound call hcall)
    obtain ⟨visits, outcome, final, hnoted, htours, hroots⟩ :=
      exists_tour_of_calls htoured 0 state []
    have hplain := (notes_evaluateAll builders calls).perform_eq hnoted
    simp only [Nat.zero_add] at hroots
    exact ⟨visits, outcome, final, hplain, hnoted, htours, hroots⟩

/-! ## Nodes numbered as they are built -/

def numbering : BuilderSet (Effectful Nat) Nat :=
  ⟨fun _ _ => ExceptT.mk fun number => (.ok number, number + 1)⟩

/-- An array whose only element comes after a hole. -/
def sparseArray : Call :=
  .mk .arrayExpression [.list [.null, .node (.mk .thisExpression [])]]

theorem evaluation_drives_builders_in_postorder_numbering :
    (∀ inner, sparseArray.Contains inner → inner.check = .ok ()) ∧
      ∃ visits, perform (sparseArray.evaluate numbering.noting) (0, []) =
          (.ok 1, 2, visits.map Visit.invocation) ∧
        Tours sparseArray.postorder visits (.ok 1 : Except Failure Nat) ∧ BuiltAt visits [] 1 := by
  have hsound : ∀ inner, sparseArray.Contains inner → inner.check = .ok () := by
    intro inner hinner
    cases hinner with
    | self => rfl
    | child hchild hinner =>
        obtain rfl := List.mem_singleton.mp hchild
        cases hinner with
        | self => rfl
        | child hchild => cases hchild
  obtain ⟨-, -, -, ⟨visits, outcome, final, hplain, hnoted, htours, hroot⟩, -⟩ :=
    (evaluation_drives_builders_in_postorder numbering 0).1 sparseArray hsound
  obtain ⟨rfl, rfl⟩ : .ok 1 = outcome ∧ 2 = final := Prod.mk.inj hplain
  exact ⟨hsound, visits, hnoted, htours, hroot 1 rfl⟩

end BuilderCalls
