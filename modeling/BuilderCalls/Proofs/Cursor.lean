import BuilderCalls.Proofs.BuilderSet
import BuilderCalls.Proofs.Refusal

/-!
# Conversion with one path

The converter may keep a single path that it moves: it steps into a child, converts it and
steps back, and failures and entries get the path of the moment.  `Cursor.convert` works in
this way.  It does what `convertValue` does under the path that it starts from, and it leaves
the path as it was, whether it succeeds or fails.
-/

namespace BuilderCalls

open Effectful

/-! ## Seen from further out -/

namespace Failure

/-- The failure with a longer path if it has one; `Failure.under` also gives one to the others. -/
def shift (failure : Failure) (steps : Path) : Failure :=
  { failure with path := failure.path.map (steps ++ ·) }

theorem atPath_shift (failure : Failure) (steps : Path) :
    (failure.shift steps).atPath steps = failure.under steps := by
  rcases failure with ⟨cause, _ | path, position, source, help, code⟩ <;>
    simp [shift, atPath, under]

theorem shift_under (failure : Failure) (inner outer : Path) :
    (failure.under inner).shift outer = failure.under (outer ++ inner) := by
  simp [shift, under]

theorem shift_of_unlocated {failure : Failure} (hpath : failure.path = none)
    (steps : Path) : failure.shift steps = failure := by
  rcases failure with ⟨cause, path, position, source, help, code⟩
  cases hpath
  rfl

end Failure

theorem TraceEntry.under_under (entry : TraceEntry) (inner outer : Path) :
    (entry.under inner).under outer = entry.under (outer ++ inner) := by
  cases entry <;> simp [under]

theorem Traced.under_under {α : Type} (traced : Traced α) (inner outer : Path) :
    (traced.under inner).under outer = traced.under (outer ++ inner) := by
  obtain ⟨entries, result⟩ := traced
  cases result <;>
    simp [under, TraceEntry.under_under, Failure.under_under, Except.mapError]

/-- Where the converter is, and what it has recorded so far. -/
structure Cursor where
  path : Path
  entries : List TraceEntry

namespace Cursor

variable {α β : Type}

/-! ## Actions -/

def move (change : Path → Path) : Effectful Cursor Unit :=
  modify fun cursor => { cursor with path := change cursor.path }

def push (step : Step) : Effectful Cursor Unit :=
  move (· ++ [step])

def pop : Effectful Cursor Unit :=
  move List.dropLast

def record (nodeType : NodeType) : Effectful Cursor Unit :=
  modify fun cursor =>
    { cursor with entries := cursor.entries ++ [.converting nodeType cursor.path] }

def ofExcept (result : Except Failure α) : Effectful Cursor α :=
  ExceptT.mk (pure result)

/-- The outcome of an action as a value, so that what comes next is done in either case. -/
def attempt (action : Effectful Cursor α) : Effectful Cursor (Except Failure α) :=
  ExceptT.lift action.run

/-- Puts the path of the moment into failures that have none. -/
def located (action : Effectful Cursor α) : Effectful Cursor α := do
  let outcome ← attempt action
  let cursor ← get
  ofExcept (outcome.mapError (Failure.atPath · cursor.path))

/-- An action on a child, while the path points at it. -/
def nested (field : String) (index : Option Nat) (action : Effectful Cursor α) :
    Effectful Cursor α := do
  push (.field field)
  if let some place := index then push (.index place)
  let outcome ← attempt action
  if index.isSome then pop
  pop
  ofExcept outcome

/-! ## Converting -/

def absent (node : Node) (slot : Slot) : Effectful Cursor (Arg Call) :=
  if slot.kind.isOptional then pure .null
  else throw (node.malformed (.missing slot.field))

mutual

def convert : Json → Effectful Cursor Call
  | .object members => do
      let node ← located (ofExcept (Node.ofMembers members))
      let nodeType ← located (ofExcept node.nodeType)
      record nodeType
      located (ofExcept (node.checkUnslotted nodeType))
      let args ← nodeType.slots.mapM fun slot =>
        located
          (match node.scalar? slot with
          | some result => ofExcept result
          | none => convertSlot node slot members)
      return .mk nodeType args
  | value => located (throw (.malformed Node.unknownTag (.notAnObject value.kind)))
termination_by structural value => value

def convertSlot (node : Node) (slot : Slot) : Members → Effectful Cursor (Arg Call)
  | [] => absent node slot
  | (key, value) :: rest =>
      if key = slot.field then
        if value.isNull then absent node slot
        else if slot.kind.isList then
          match value with
          | .array items => Arg.list <$> convertItems node slot 0 items
          | value => throw (node.malformed (.notAnArray slot.field value.kind))
        else Arg.node <$> nested slot.field none (convert value)
      else convertSlot node slot rest
termination_by structural members => members

def convertItems (node : Node) (slot : Slot) (index : Nat) :
    List Json → Effectful Cursor (List (Arg Call))
  | [] => return []
  | item :: items => do
      let arg ←
        if !item.isNull then Arg.node <$> nested slot.field (some index) (convert item)
        else if slot.kind = .sparseList then pure .null
        else throw (node.malformed (.hole slot.field index))
      (arg :: ·) <$> convertItems node slot (index + 1) items
termination_by structural items => items

end

/-! ## What the actions do -/

section Performing

variable (cursor : Cursor)

@[simp] theorem perform_push (step : Step) :
    perform (push step) cursor = (.ok (), { cursor with path := cursor.path ++ [step] }) := rfl

@[simp] theorem perform_pop :
    perform pop cursor = (.ok (), { cursor with path := cursor.path.dropLast }) := rfl

@[simp] theorem perform_ofExcept (result : Except Failure α) :
    perform (ofExcept result) cursor = (result, cursor) := rfl

@[simp] theorem perform_attempt (action : Effectful Cursor α) :
    perform (attempt action) cursor =
      (.ok (perform action cursor).1, (perform action cursor).2) := rfl

theorem perform_located (action : Effectful Cursor α) :
    perform (located action) cursor =
      ((perform action cursor).1.mapError (Failure.atPath · (perform action cursor).2.path),
        (perform action cursor).2) := by
  rw [located, perform_bind, perform_attempt]
  rfl

def stepsTo (field : String) (index : Option Nat) : Path :=
  .field field :: index.toList.map .index

/-- However an action ends that leaves the path as it was, the steps to it are taken back. -/
theorem perform_nested {field : String} {index : Option Nat} {action : Effectful Cursor α}
    {outcome : Except Failure α} {entries : List TraceEntry}
    (haction : perform action ⟨cursor.path ++ stepsTo field index, cursor.entries⟩ =
      (outcome, ⟨cursor.path ++ stepsTo field index, entries⟩)) :
    perform (nested field index action) cursor = (outcome, ⟨cursor.path, entries⟩) := by
  cases index with
  | none =>
      simp only [stepsTo, Option.toList_none, List.map_nil] at haction
      simp [nested, perform_bind, haction]
  | some place =>
      simp only [stepsTo, Option.toList_some, List.map_cons, List.map_nil] at haction
      simp [nested, perform_bind, haction]

end Performing

/-! ## Agreement -/

/--
The action does what the traced computation does, from wherever the cursor is, and leaves it
there.  The failures of a node are all located, those of a slot only where they come from a
node in it.
-/
def Follows (seen : Failure → Path → Failure) (action : Effectful Cursor α)
    (traced : Traced α) : Prop :=
  ∀ cursor, perform action cursor =
    (traced.result.mapError (seen · cursor.path),
      ⟨cursor.path, cursor.entries ++ traced.entries.map (TraceEntry.under cursor.path)⟩)

namespace Follows

variable {seen : Failure → Path → Failure} {action : Effectful Cursor α} {traced : Traced α}

theorem pure (value : α) : Follows seen (Pure.pure value) (Pure.pure value) := by
  intro cursor
  change _ = (_, (⟨cursor.path, cursor.entries ++ []⟩ : Cursor))
  rw [List.append_nil]
  rfl

theorem bind {next : α → Effectful Cursor β} {tracedNext : α → Traced β}
    (haction : Follows seen action traced)
    (hnext : ∀ value, Follows seen (next value) (tracedNext value)) :
    Follows seen (action >>= next) (traced >>= tracedNext) := by
  intro cursor
  obtain ⟨entries, result⟩ := traced
  cases result with
  | error failure => exact perform_bind_of_error (haction cursor)
  | ok value =>
      rw [perform_bind_of_ok (haction cursor), hnext value]
      change (_, (⟨cursor.path, _⟩ : Cursor)) =
        (_, ⟨cursor.path, cursor.entries ++ (entries ++ (tracedNext value).entries).map _⟩)
      rw [List.map_append, List.append_assoc]
      rfl

theorem map (haction : Follows seen action traced) (change : α → β) :
    Follows seen (change <$> action) (change <$> traced) := by
  rw [map_eq_pure_bind, map_eq_pure_bind]
  exact haction.bind fun value => pure (change value)

theorem mapM {items : List α} {next : α → Effectful Cursor β} {tracedNext : α → Traced β}
    (hnext : ∀ item, Follows seen (next item) (tracedNext item)) :
    Follows seen (items.mapM next) (items.mapM tracedNext) := by
  induction items with
  | nil => exact pure []
  | cons item items ih =>
      rw [List.mapM_cons, List.mapM_cons]
      exact (hnext item).bind fun value => ih.bind fun values => pure (value :: values)

theorem record (nodeType : NodeType) :
    Follows seen (Cursor.record nodeType) (Traced.record (.converting nodeType [])) := by
  intro cursor
  change _ = (_, (⟨_, cursor.entries ++ [.converting nodeType (cursor.path ++ [])]⟩ : Cursor))
  rw [List.append_nil]
  rfl

theorem ofExcept {result : Except Failure α}
    (hresult : ∀ failure, result = .error failure → failure.path = none) :
    Follows Failure.shift (Cursor.ofExcept result) (Traced.ofExcept result) := by
  intro cursor
  have hshift : result.mapError (Failure.shift · cursor.path) = result := by
    cases result with
    | ok value => rfl
    | error failure =>
        exact congrArg Except.error (Failure.shift_of_unlocated (hresult failure rfl) cursor.path)
  change (result, cursor) = (result.mapError _, (⟨cursor.path, cursor.entries ++ []⟩ : Cursor))
  rw [hshift, List.append_nil]

theorem throw {failure : Failure} (hpath : failure.path = none) :
    Follows Failure.shift (MonadExcept.throw failure : Effectful Cursor α) (Traced.fail failure) :=
  ofExcept fun _ hfailure => Except.error.inj hfailure ▸ hpath

theorem located (haction : Follows Failure.shift action traced) :
    Follows Failure.under (Cursor.located action) traced := by
  intro cursor
  rw [perform_located, haction cursor]
  obtain ⟨entries, result⟩ := traced
  cases result with
  | ok value => rfl
  | error failure =>
      change (Except.error ((failure.shift cursor.path).atPath cursor.path), _) = _
      rw [failure.atPath_shift]
      rfl

theorem nested (haction : Follows Failure.under action traced) (field : String)
    (index : Option Nat) :
    Follows Failure.shift (Cursor.nested field index action)
      (traced.under (stepsTo field index)) := by
  intro cursor
  have hresult : traced.result.mapError (Failure.under · (cursor.path ++ stepsTo field index)) =
      (traced.under (stepsTo field index)).result.mapError (Failure.shift · cursor.path) := by
    cases houtcome : traced.result <;> simp [Except.mapError, houtcome, Failure.shift_under]
  have hentries : traced.entries.map (TraceEntry.under (cursor.path ++ stepsTo field index)) =
      (traced.under (stepsTo field index)).entries.map (TraceEntry.under cursor.path) := by
    simp [Traced.under, TraceEntry.under_under]
  rw [perform_nested cursor (haction _), hresult, hentries]

end Follows

/-! ## The converter -/

theorem path_malformed (node : Node) (fault : NodeFault) : (node.malformed fault).path = none := by
  rfl

theorem follows_scalar {node : Node} {slot : Slot} {result : Except Failure (Arg Call)}
    (hscalar : node.scalar? slot = some result) :
    Follows Failure.shift (ofExcept result) (.ofExcept result) := by
  apply Follows.ofExcept
  intro failure hfailure
  obtain ⟨⟨fault, rfl⟩, -⟩ := scalar?_error hscalar hfailure
  exact path_malformed node fault

theorem follows_absent (node : Node) (slot : Slot) :
    Follows Failure.shift (absent node slot) (node.absent slot) := by
  unfold absent Node.absent
  split
  · exact .pure Arg.null
  · exact .throw (path_malformed node _)

theorem path_of_ofMembers {members : Members} {failure : Failure}
    (hfailure : Node.ofMembers members = .error failure) : failure.path = none := by
  unfold Node.ofMembers at hfailure
  split at hfailure
  next => cases hfailure
  next =>
    cases hfailure
    rfl

theorem path_of_nodeType {node : Node} {failure : Failure}
    (hfailure : node.nodeType = .error failure) : failure.path = none := by
  obtain ⟨-, rfl⟩ := Node.nodeType_eq_error hfailure
  rfl

theorem path_of_checkUnslotted {node : Node} {nodeType : NodeType} {failure : Failure}
    (hfailure : node.checkUnslotted nodeType = .error failure) : failure.path = none := by
  obtain ⟨⟨fault, rfl⟩, -⟩ := Node.checkUnslotted_eq_error hfailure
  rfl

mutual

theorem follows_convert : (value : Json) →
    Follows Failure.under (convert value) (convertValue value)
  | .object members => by
      rw [convert, convertValue]
      refine .bind (.located (.ofExcept fun _ => path_of_ofMembers)) fun node => ?_
      refine .bind (.located (.ofExcept fun _ => path_of_nodeType)) fun nodeType => ?_
      refine .bind (.record nodeType) fun _ => ?_
      refine .bind (.located (.ofExcept fun _ => path_of_checkUnslotted)) fun _ => ?_
      refine .bind (.mapM fun slot => .located ?_) fun args => .pure (Call.mk nodeType args)
      cases hscalar : node.scalar? slot with
      | some result => exact follows_scalar hscalar
      | none => exact follows_convertSlot node slot members
  | .null | .bool _ | .number _ | .string _ | .array _ => .located (.throw rfl)

theorem follows_convertSlot (node : Node) (slot : Slot) : (members : Members) →
    Follows Failure.shift (convertSlot node slot members)
      (BuilderCalls.convertSlot node slot members)
  | [] => follows_absent node slot
  | (key, value) :: rest => by
      have hvalue := follows_convert value
      have hrest := follows_convertSlot node slot rest
      rw [convertSlot.eq_def, BuilderCalls.convertSlot.eq_def]
      dsimp only
      split
      next =>
        split
        next => exact follows_absent node slot
        next =>
          split
          next =>
            cases value with
            | array items => exact (follows_convertItems node slot 0 items).map Arg.list
            | null | bool | number | string | object => exact .throw (path_malformed node _)
          next => exact (hvalue.nested slot.field none).map Arg.node
      next => exact hrest

theorem follows_convertItems (node : Node) (slot : Slot) (index : Nat) : (items : List Json) →
    Follows Failure.shift (convertItems node slot index items)
      (BuilderCalls.convertItems node slot index items)
  | [] => .pure []
  | item :: items => by
      have hitem := follows_convert item
      have hrest := follows_convertItems node slot (index + 1) items
      rw [convertItems, BuilderCalls.convertItems]
      split
      next =>
        have hnested := hitem.nested slot.field (some index)
        exact .bind (hnested.map Arg.node) fun arg => hrest.map _
      next =>
        split
        next => exact .bind (.pure Arg.null) fun arg => hrest.map _
        next => exact .bind (.throw (path_malformed node _)) fun arg => hrest.map _

end

/-- The converter with one path does what `convertValue` does under that path. -/
theorem perform_convert (value : Json) (cursor : Cursor) :
    perform (convert value) cursor =
      (((convertValue value).under cursor.path).result,
        ⟨cursor.path, cursor.entries ++ ((convertValue value).under cursor.path).entries⟩) :=
  follows_convert value cursor

/-- What the converter with one path makes of a value when it starts from a path. -/
def converted (path : Path) (value : Json) : Traced Call :=
  let (result, final) := perform (convert value) ⟨path, []⟩
  ⟨final.entries, result⟩

theorem converted_eq (path : Path) (value : Json) :
    converted path value = (BuilderCalls.convert value).under path := by
  rw [converted, perform_convert, BuilderCalls.convert, Traced.under_under, List.append_nil]
  rfl

end Cursor

end BuilderCalls
