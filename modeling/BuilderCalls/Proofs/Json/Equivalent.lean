import BuilderCalls.Proofs.Json.Members
import Mathlib.Data.List.Forall2
import Mathlib.Data.List.Perm.Subperm

/-!
# Equality up to the order of members

Arrays are compared item by item.  Objects whose keys are not repeated are
compared key by key: each key leads to equivalent values on both sides or to
nothing on both.
-/

namespace BuilderCalls.Json

/-! ## Shapes -/

/-- Equivalent values are one value or both arrays or both objects. -/
theorem equivalent_cases {left right : Json} (hequivalent : left.equivalent right = true) :
    left = right ∨ (∃ items items', left = .array items ∧ right = .array items') ∨
      ∃ members members', left = .object members ∧ right = .object members' := by
  cases left <;> cases right <;> simp_all [equivalent]

theorem exists_array_of_equivalent {items : List Json} {value : Json}
    (hequivalent : (array items).equivalent value = true) : ∃ items', value = .array items' := by
  rcases equivalent_cases hequivalent with rfl | ⟨_, items', _, rfl⟩ | ⟨_, _, ⟨⟩, _⟩
  · exact ⟨items, rfl⟩
  · exact ⟨items', rfl⟩

theorem exists_object_of_equivalent {members : Members} {value : Json}
    (hequivalent : (object members).equivalent value = true) :
    ∃ members', value = .object members' := by
  rcases equivalent_cases hequivalent with rfl | ⟨_, _, ⟨⟩, _⟩ | ⟨_, members', _, rfl⟩
  · exact ⟨members, rfl⟩
  · exact ⟨members', rfl⟩

/-! ## Scalars -/

section Scalars

variable {value : Json}

theorem equivalent_scalar_iff {scalar : Json} (hself : scalar.equivalent scalar = true)
    (harray : ∀ items, scalar ≠ .array items) (hobject : ∀ members, scalar ≠ .object members) :
    value.equivalent scalar = true ↔ value = scalar := by
  refine ⟨fun hequivalent => ?_, fun hsame => hsame ▸ hself⟩
  rcases equivalent_cases hequivalent with hsame | ⟨_, items, _, hitems⟩ | ⟨_, members, _, hmembers⟩
  · exact hsame
  · exact absurd hitems (harray items)
  · exact absurd hmembers (hobject members)

@[simp] theorem equivalent_null_iff : value.equivalent .null = true ↔ value = .null :=
  equivalent_scalar_iff rfl nofun nofun

@[simp] theorem equivalent_bool_iff {flag : Bool} :
    value.equivalent (.bool flag) = true ↔ value = .bool flag :=
  equivalent_scalar_iff (beq_self_eq_true flag) nofun nofun

@[simp] theorem equivalent_number_iff {number : Number} :
    value.equivalent (.number number) = true ↔ value = .number number :=
  equivalent_scalar_iff (beq_self_eq_true number) nofun nofun

@[simp] theorem equivalent_string_iff {text : String} :
    value.equivalent (.string text) = true ↔ value = .string text :=
  equivalent_scalar_iff (beq_self_eq_true text) nofun nofun

end Scalars

/-! ## Arrays -/

theorem forall₂_imp_of_mem {α β : Type} {relation relation' : α → β → Prop} {lefts : List α}
    {rights : List β} (hitems : List.Forall₂ relation lefts rights)
    (himp : ∀ left ∈ lefts, ∀ right ∈ rights, relation left right → relation' left right) :
    List.Forall₂ relation' lefts rights := by
  induction hitems with
  | nil => exact .nil
  | @cons left right lefts rights hitem _ ih =>
      refine .cons (himp left (.head _) right (.head _) hitem) (ih ?_)
      exact fun left hleft right hright => himp left (.tail _ hleft) right (.tail _ hright)

theorem forall₂_trans_of_mem {α β γ : Type} {first : α → β → Prop} {second : β → γ → Prop}
    {both : α → γ → Prop} {lefts : List α} {middles : List β} {rights : List γ}
    (hfirst : List.Forall₂ first lefts middles) (hsecond : List.Forall₂ second middles rights)
    (himp : ∀ left ∈ lefts, ∀ middle ∈ middles, ∀ right ∈ rights,
      first left middle → second middle right → both left right) :
    List.Forall₂ both lefts rights := by
  induction hfirst generalizing rights with
  | nil =>
      cases hsecond
      exact .nil
  | @cons left middle _ _ hitem _ ih =>
      cases hsecond with
      | @cons _ right _ _ hitem' hsecond =>
          refine .cons (himp _ (.head _) _ (.head _) _ (.head _) hitem hitem') (ih hsecond ?_)
          exact fun _ hleft _ hmiddle _ hright =>
            himp _ (.tail _ hleft) _ (.tail _ hmiddle) _ (.tail _ hright)

@[simp] theorem equivalent_array_iff {left right : List Json} :
    (array left).equivalent (.array right) = true ↔
      List.Forall₂ (fun left right => left.equivalent right = true) left right := by
  rw [equivalent.eq_def]
  simp only
  induction left generalizing right with
  | nil => cases right <;> simp [equivalentItems]
  | cons first rest ih =>
      rw [equivalentItems.eq_def]
      cases right with
      | nil => simp
      | cons first' rest' => simp [ih]

/-! ## Objects -/

theorem isSome_iff_of_rel {α β : Type} {relation : α → β → Prop} {left : Option α}
    {right : Option β} (hrel : Option.Rel relation left right) :
    left.isSome = true ↔ right.isSome = true := by
  cases hrel <;> simp

theorem rel_iff {α β : Type} {relation : α → β → Prop} {left : Option α} {right : Option β} :
    Option.Rel relation left right ↔ left = none ∧ right = none ∨
      ∃ value value', left = some value ∧ right = some value' ∧ relation value value' := by
  cases left <;> cases right <;> simp

theorem equivalentMembers_iff {left right : Members} :
    equivalentMembers left right = true ↔
      ∀ member ∈ left, ∃ value, right.lookup member.1 = some value ∧
        member.2.equivalent value = true := by
  induction left with
  | nil => simp [equivalentMembers]
  | cons member rest ih =>
      obtain ⟨key, value⟩ := member
      rw [equivalentMembers.eq_def, Bool.and_eq_true, ih, List.forall_mem_cons]
      cases right.lookup key with
      | none => simp
      | some found => simp

private theorem keys_subset {left right : Members}
    (hmembers : equivalentMembers left right = true) : left.keys ⊆ right.keys := by
  intro key hkey
  obtain ⟨member, hmember, rfl⟩ := List.mem_map.mp hkey
  obtain ⟨value, hlookup, -⟩ := equivalentMembers_iff.mp hmembers member hmember
  rw [← Members.lookup_isSome_iff, hlookup]
  rfl

/-- Objects without repeated keys are equivalent when they are so key by key. -/
theorem equivalent_object_iff {left right : Members} (hleft : left.keys.Nodup)
    (hright : right.keys.Nodup) :
    (object left).equivalent (.object right) = true ↔
      ∀ key, Option.Rel (fun left right => left.equivalent right = true)
        (left.lookup key) (right.lookup key) := by
  rw [equivalent.eq_def]
  simp only [Bool.and_eq_true, beq_iff_eq]
  constructor
  · rintro ⟨hlength, hmembers⟩ key
    -- The comparison looks up the left keys only; that it misses none on the right is
    -- a matter of counting.
    have hperm : left.keys.Perm right.keys := by
      refine (List.subperm_of_subset hleft (keys_subset hmembers)).perm_of_length_le ?_
      simp [Members.keys, hlength]
    cases hlookup : left.lookup key with
    | none =>
        have habsent : right.lookup key = none := by
          rw [Members.lookup_eq_none_iff, ← hperm.mem_iff, ← Members.lookup_eq_none_iff, hlookup]
        rw [habsent]
        exact .none
    | some value =>
        obtain ⟨value', hlookup', hequivalent⟩ :=
          equivalentMembers_iff.mp hmembers (key, value) (Members.mem_of_lookup hlookup)
        rw [hlookup']
        exact .some hequivalent
  · intro hkeys
    have hsame : ∀ key, key ∈ left.keys ↔ key ∈ right.keys := by
      intro key
      rw [← Members.lookup_isSome_iff, ← Members.lookup_isSome_iff]
      exact isSome_iff_of_rel (hkeys key)
    have hperm : left.keys.Perm right.keys := (List.perm_ext_iff_of_nodup hleft hright).mpr hsame
    refine ⟨by simpa [Members.keys] using hperm.length_eq, equivalentMembers_iff.mpr ?_⟩
    rintro ⟨key, value⟩ hmember
    have hkey := hkeys key
    rw [Members.lookup_of_mem hleft hmember] at hkey
    cases hlookup : right.lookup key with
    | none => simp [hlookup] at hkey
    | some value' => exact ⟨value', rfl, by simpa [hlookup] using hkey⟩

/-! ## An equivalence relation -/

theorem equivalent_refl {value : Json} (hdistinct : value.Distinct) :
    value.equivalent value = true := by
  induction hdistinct with
  | null | bool | number | string => simp
  | @array items _ ih => exact equivalent_array_iff.mpr (List.forall₂_same.mpr ih)
  | @object members hkeys _ ih =>
      refine (equivalent_object_iff hkeys hkeys).mpr fun key => ?_
      cases hlookup : members.lookup key with
      | none => exact .none
      | some value => exact .some (ih _ (Members.mem_of_lookup hlookup))

theorem equivalent_symm {left right : Json} (hleft : left.Distinct) (hright : right.Distinct)
    (hequivalent : left.equivalent right = true) : right.equivalent left = true := by
  induction hleft generalizing right with
  | null | bool | number | string =>
      rcases equivalent_cases hequivalent with rfl | ⟨_, _, ⟨⟩, _⟩ | ⟨_, _, ⟨⟩, _⟩
      exact hequivalent
  | @array items _ ih =>
      obtain ⟨items', rfl⟩ := exists_array_of_equivalent hequivalent
      cases hright with
      | array hitems' =>
          rw [equivalent_array_iff] at hequivalent ⊢
          exact (forall₂_imp_of_mem hequivalent fun item hitem item' hitem' =>
            ih item hitem (hitems' item' hitem')).flip
  | @object members hkeys _ ih =>
      obtain ⟨members', rfl⟩ := exists_object_of_equivalent hequivalent
      cases hright with
      | object hkeys' hmembers' =>
          rw [equivalent_object_iff hkeys hkeys'] at hequivalent
          refine (equivalent_object_iff hkeys' hkeys).mpr fun key => rel_iff.mpr ?_
          rcases rel_iff.mp (hequivalent key) with
            ⟨hnone, hnone'⟩ | ⟨value, value', hvalue, hvalue', hsame⟩
          · exact .inl ⟨hnone', hnone⟩
          · exact .inr ⟨value', value, hvalue', hvalue, ih _ (Members.mem_of_lookup hvalue)
              (hmembers' _ (Members.mem_of_lookup hvalue')) hsame⟩

theorem equivalent_trans {left middle right : Json} (hleft : left.Distinct)
    (hmiddle : middle.Distinct) (hright : right.Distinct)
    (hfirst : left.equivalent middle = true) (hsecond : middle.equivalent right = true) :
    left.equivalent right = true := by
  induction hleft generalizing middle right with
  | null | bool | number | string =>
      rcases equivalent_cases hfirst with rfl | ⟨_, _, ⟨⟩, _⟩ | ⟨_, _, ⟨⟩, _⟩
      exact hsecond
  | @array items _ ih =>
      obtain ⟨items', rfl⟩ := exists_array_of_equivalent hfirst
      obtain ⟨items'', rfl⟩ := exists_array_of_equivalent hsecond
      cases hmiddle with
      | array hitems' =>
          cases hright with
          | array hitems'' =>
              rw [equivalent_array_iff] at hfirst hsecond ⊢
              refine forall₂_trans_of_mem hfirst hsecond ?_
              exact fun item hitem item' hitem' item'' hitem'' =>
                ih item hitem (hitems' item' hitem') (hitems'' item'' hitem'')
  | @object members hkeys _ ih =>
      obtain ⟨members', rfl⟩ := exists_object_of_equivalent hfirst
      obtain ⟨members'', rfl⟩ := exists_object_of_equivalent hsecond
      cases hmiddle with
      | object hkeys' hmembers' =>
          cases hright with
          | object hkeys'' hmembers'' =>
              rw [equivalent_object_iff hkeys hkeys'] at hfirst
              rw [equivalent_object_iff hkeys' hkeys''] at hsecond
              refine (equivalent_object_iff hkeys hkeys'').mpr fun key => rel_iff.mpr ?_
              rcases rel_iff.mp (hfirst key) with
                ⟨hnone, hnone'⟩ | ⟨value, value', hvalue, hvalue', hsame⟩ <;>
              rcases rel_iff.mp (hsecond key) with
                ⟨hnone'', hnone'''⟩ | ⟨_, value'', hsome, hvalue'', hsame'⟩
              · exact .inl ⟨hnone, hnone'''⟩
              · cases hnone'.symm.trans hsome
              · cases hvalue'.symm.trans hnone''
              · cases hvalue'.symm.trans hsome
                exact .inr ⟨value, value'', hvalue, hvalue'', ih _ (Members.mem_of_lookup hvalue)
                  (hmembers' _ (Members.mem_of_lookup hvalue'))
                  (hmembers'' _ (Members.mem_of_lookup hvalue'')) hsame hsame'⟩

end BuilderCalls.Json
