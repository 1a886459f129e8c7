import BuilderCalls.Trace
import Mathlib.Data.List.Forall2

/-!
# Results

A computation that may fail succeeds when each of its steps does.  The lemmas
say so for `Except`; the `result` of a traced computation is the composition of
the results of its steps, whatever they record.
-/

namespace BuilderCalls

section Except

variable {ε ε' α β : Type}

@[simp] theorem bind_eq_ok_iff {action : Except ε α} {next : α → Except ε β} {value : β} :
    action >>= next = .ok value ↔ ∃ first, action = .ok first ∧ next first = .ok value := by
  cases action <;> simp [bind, Except.bind]

@[simp] theorem map_eq_ok_iff {action : Except ε α} {change : α → β} {value : β} :
    change <$> action = .ok value ↔ ∃ first, action = .ok first ∧ change first = value := by
  cases action <;> simp [Functor.map, Except.map]

@[simp] theorem exceptMap_eq_ok_iff {action : Except ε α} {change : α → β} {value : β} :
    action.map change = .ok value ↔ ∃ first, action = .ok first ∧ change first = value :=
  map_eq_ok_iff

@[simp] theorem pure_eq_ok_iff {first value : α} :
    (pure first : Except ε α) = .ok value ↔ first = value := by
  simp [pure, Except.pure]

@[simp] theorem mapError_eq_ok_iff {action : Except ε α} {change : ε → ε'} {value : α} :
    action.mapError change = .ok value ↔ action = .ok value := by
  cases action <;> simp [Except.mapError]

theorem bind_eq_error_iff {action : Except ε α} {next : α → Except ε β} {error : ε} :
    action >>= next = .error error ↔
      action = .error error ∨ ∃ value, action = .ok value ∧ next value = .error error := by
  cases action <;> simp [bind, Except.bind]

@[simp] theorem map_eq_error_iff {action : Except ε α} {change : α → β} {error : ε} :
    change <$> action = .error error ↔ action = .error error := by
  cases action <;> simp [Functor.map, Except.map]

@[simp] theorem exceptMap_eq_error_iff {action : Except ε α} {change : α → β} {error : ε} :
    action.map change = .error error ↔ action = .error error :=
  map_eq_error_iff

@[simp] theorem mapError_eq_error_iff {action : Except ε α} {change : ε → ε'} {error : ε'} :
    action.mapError change = .error error ↔
      ∃ first, action = .error first ∧ change first = error := by
  cases action <;> simp [Except.mapError]

theorem mapM_eq_ok_iff {action : α → Except ε β} {items : List α} {values : List β} :
    items.mapM action = .ok values ↔
      List.Forall₂ (fun item value => action item = .ok value) items values := by
  induction items generalizing values with
  | nil => cases values <;> simp
  | cons item items ih =>
      rw [List.mapM_cons]
      cases values with
      | nil => simp
      | cons value values => simp [ih]

end Except

/-! ## Item by item -/

theorem mapM_eq_some_iff {α β : Type} {action : α → Option β} {items : List α}
    {values : List β} :
    items.mapM action = some values ↔
      List.Forall₂ (fun item value => action item = some value) items values := by
  induction items generalizing values with
  | nil => cases values <;> simp
  | cons item items ih =>
      rw [List.mapM_cons]
      cases values with
      | nil => simp [Option.bind_eq_some_iff]
      | cons value values => simp [Option.bind_eq_some_iff, ih]

theorem exists_forall₂_iff {α β : Type} {relation : α → β → Prop} {items : List α} :
    (∃ values, List.Forall₂ relation items values) ↔
      ∀ item ∈ items, ∃ value, relation item value := by
  induction items with
  | nil => simp
  | cons item items ih =>
      rw [List.forall_mem_cons, ← ih]
      constructor
      · rintro ⟨_, _ | ⟨hitem, hitems⟩⟩
        exact ⟨⟨_, hitem⟩, _, hitems⟩
      · rintro ⟨⟨value, hitem⟩, values, hitems⟩
        exact ⟨value :: values, .cons hitem hitems⟩

theorem exists_mem_of_forall₂ {α β : Type} {relation : α → β → Prop} {items : List α}
    {values : List β} (hitems : List.Forall₂ relation items values) {value : β}
    (hvalue : value ∈ values) : ∃ item ∈ items, relation item value := by
  induction hitems with
  | nil => cases hvalue
  | @cons item first items values hitem _ ih =>
      cases hvalue with
      | head => exact ⟨item, .head _, hitem⟩
      | tail _ hvalue =>
          obtain ⟨item, hmem, hitem⟩ := ih hvalue
          exact ⟨item, .tail _ hmem, hitem⟩

/-- Related lists have related items at each place. -/
theorem exists_getElem?_of_forall₂ {α β : Type} {relation : α → β → Prop} {items : List α}
    {values : List β} (hitems : List.Forall₂ relation items values) {place : Nat} {value : β}
    (hvalue : values[place]? = some value) :
    ∃ item, items[place]? = some item ∧ relation item value := by
  induction hitems generalizing place with
  | nil => cases hvalue
  | @cons item first items values hitem _ ih =>
      cases place with
      | zero =>
          cases hvalue
          exact ⟨item, rfl, hitem⟩
      | succ place => exact ih hvalue

/-- Related lists stay related item by item when the places are told. -/
theorem forall₂_zipIdx {α β : Type} {relation : α → β → Prop} {placed : α × Nat → β → Prop}
    {items : List α} {values : List β} (hitems : List.Forall₂ relation items values)
    (hplaced : ∀ item place value, items[place]? = some item → relation item value →
      placed (item, place) value) : List.Forall₂ placed items.zipIdx values := by
  rw [List.forall₂_iff_get] at hitems ⊢
  refine ⟨by simpa using hitems.1, fun place hitem hvalue => ?_⟩
  rw [List.length_zipIdx] at hitem
  rw [List.get_eq_getElem, List.getElem_zipIdx, Nat.zero_add]
  exact hplaced _ place _ (List.getElem?_eq_getElem hitem) (hitems.2 place hitem hvalue)

namespace Traced

variable {α β : Type}

@[simp] theorem result_pure (value : α) : (Pure.pure value : Traced α).result = .ok value := rfl

@[simp] theorem result_bind (traced : Traced α) (next : α → Traced β) :
    (traced >>= next).result = traced.result >>= fun value => (next value).result := by
  change (Traced.bind traced next).result = _
  unfold Traced.bind
  cases traced.result <;> rfl

@[simp] theorem result_map (change : α → β) (traced : Traced α) :
    (change <$> traced).result = change <$> traced.result := rfl

@[simp] theorem result_fail (failure : Failure) :
    (fail failure : Traced α).result = .error failure := rfl

@[simp] theorem result_record (entry : TraceEntry) : (record entry).result = .ok () := rfl

@[simp] theorem result_ofExcept (result : Except Failure α) :
    (ofExcept result).result = result := rfl

@[simp] theorem result_under (steps : Path) (traced : Traced α) :
    (traced.under steps).result = traced.result.mapError (Failure.under · steps) := rfl

private theorem bind_pure_map (change : α → β) (traced : Traced α) :
    (do let value ← traced; Pure.pure (change value)) = change <$> traced := by
  obtain ⟨entries, result⟩ := traced
  cases result
  · rfl
  · exact congrArg (Traced.mk · _) (List.append_nil entries)

instance : LawfulMonad Traced :=
  LawfulMonad.mk' Traced
    (fun ⟨entries, result⟩ => by cases result <;> rfl)
    (fun _ _ => rfl)
    (fun ⟨entries, result⟩ next last => by
      cases result with
      | error failure => rfl
      | ok value =>
          change Traced.bind (Traced.bind ⟨entries, .ok value⟩ next) last =
            Traced.bind ⟨entries, .ok value⟩ fun value => Traced.bind (next value) last
          simp only [Traced.bind]
          cases (next value).result <;> simp)
    (fun _ _ => rfl)
    (fun _ _ => rfl)
    (fun _ _ => rfl)
    bind_pure_map
    (fun _ _ => rfl)

theorem mapM_result_eq_ok_iff {action : α → Traced β} {items : List α} {values : List β} :
    (items.mapM action).result = .ok values ↔
      List.Forall₂ (fun item value => (action item).result = .ok value) items values := by
  induction items generalizing values with
  | nil => cases values <;> simp
  | cons item items ih =>
      rw [List.mapM_cons]
      cases values with
      | nil => simp
      | cons value values => simp [ih]

/-- A sequence of actions fails as the first of them that does. -/
theorem mapM_result_eq_error_iff {action : α → Traced β} {items : List α} {failure : Failure} :
    (items.mapM action).result = .error failure ↔
      ∃ index item, items[index]? = some item ∧
        (∀ earlier ∈ items.take index, ∃ value, (action earlier).result = .ok value) ∧
          (action item).result = .error failure := by
  induction items with
  | nil => simp
  | cons first rest ih =>
      simp only [List.mapM_cons, result_bind, bind_eq_error_iff, result_pure, reduceCtorEq,
        and_false, exists_false, or_false, ih]
      constructor
      · rintro (hfirst | ⟨value, hfirst, index, item, hitem, hearlier, hfailure⟩)
        · exact ⟨0, first, rfl, by simp, hfirst⟩
        · refine ⟨index + 1, item, hitem, ?_, hfailure⟩
          rw [List.take_succ_cons, List.forall_mem_cons]
          exact ⟨⟨value, hfirst⟩, hearlier⟩
      · rintro ⟨index, item, hitem, hearlier, hfailure⟩
        cases index with
        | zero =>
            cases hitem
            exact .inl hfailure
        | succ index =>
            rw [List.take_succ_cons, List.forall_mem_cons] at hearlier
            obtain ⟨⟨value, hfirst⟩, hearlier⟩ := hearlier
            exact .inr ⟨value, hfirst, index, item, hitem, hearlier, hfailure⟩

/-- The same of actions that know the place of their item, which does not decide success. -/
theorem mapM_zipIdx_result_eq_error_iff {action : α × Nat → Traced β} {succeeds : α → Prop}
    (hsucceeds : ∀ item place,
      (∃ value, (action (item, place)).result = .ok value) ↔ succeeds item)
    {items : List α} {failure : Failure} :
    (items.zipIdx.mapM action).result = .error failure ↔
      ∃ index item, items[index]? = some item ∧ (∀ earlier ∈ items.take index, succeeds earlier) ∧
        (action (item, index)).result = .error failure := by
  have hearlier : ∀ index, (∀ earlier ∈ items.zipIdx.take index,
      ∃ value, (action earlier).result = .ok value) ↔
        ∀ earlier ∈ items.take index, succeeds earlier := by
    intro index
    have hfst : (items.zipIdx.take index).map Prod.fst = items.take index := by
      rw [List.map_take, List.zipIdx_map_fst]
    rw [← hfst, List.forall_mem_map]
    exact forall₂_congr fun earlier _ => hsucceeds earlier.1 earlier.2
  simp only [mapM_result_eq_error_iff, hearlier, List.getElem?_zipIdx, Option.map_eq_some_iff,
    Nat.zero_add, Prod.exists, Prod.mk.injEq]
  constructor
  · rintro ⟨index, item, place, ⟨_, hitem, rfl, rfl⟩, hrest⟩
    exact ⟨index, _, hitem, hrest⟩
  · rintro ⟨index, item, hitem, hrest⟩
    exact ⟨index, item, index, ⟨item, hitem, rfl, rfl⟩, hrest⟩

end Traced

end BuilderCalls
