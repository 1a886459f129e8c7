import BuilderCalls.Json.Basic
import Mathlib.Data.List.Nodup

/-!
# Members and fields

A list of members is read by the first member of a key.  Where no key is
repeated this says all about the list: a key leads to a value exactly when the
two form a member.  `Json.Distinct` says so of every object of a tree, and
`Json.fieldInduction` is the induction that goes from an object to what its
fields hold, alone or in a list.
-/

namespace BuilderCalls

/-! ## Pairs -/

section Pairs

variable {α : Type} {pairs : List (String × α)} {key : String} {value : α}

theorem mem_of_lookup_eq_some (hlookup : pairs.lookup key = some value) :
    (key, value) ∈ pairs := by
  obtain ⟨before, after, rfl, -⟩ := List.lookup_eq_some_iff.mp hlookup
  simp

theorem lookup_eq_some_of_mem (hdistinct : (pairs.map Prod.fst).Nodup)
    (hmem : (key, value) ∈ pairs) : pairs.lookup key = some value := by
  induction pairs with
  | nil => cases hmem
  | cons first rest ih =>
      obtain ⟨hfresh, hrest⟩ := List.nodup_cons.mp hdistinct
      cases hmem with
      | head => simp
      | tail _ hmem =>
          have hne : key ≠ first.1 := by
            rintro rfl
            exact hfresh (List.mem_map.mpr ⟨_, hmem, rfl⟩)
          rw [List.lookup_cons, beq_false_of_ne hne]
          exact ih hrest hmem

end Pairs

/-! ## Members -/

namespace Members

/-- The field is absent or null. -/
def Lacks (members : Members) (field : String) : Prop :=
  members.lookup field = none ∨ members.lookup field = some .null

theorem Lacks.eq_null {members : Members} {field : String} {value : Json}
    (hlacks : members.Lacks field) (hfield : members.lookup field = some value) :
    value = .null := by
  rcases hlacks with habsent | hnull
  · cases hfield.symm.trans habsent
  · exact Option.some.inj (hfield.symm.trans hnull)

theorem mem_of_lookup {members : Members} {key : String} {value : Json}
    (hlookup : members.lookup key = some value) : (key, value) ∈ members :=
  mem_of_lookup_eq_some hlookup

theorem lookup_eq_none_iff {members : Members} {key : String} :
    members.lookup key = none ↔ key ∉ members.keys := by
  simp only [List.lookup_eq_none_iff, Members.keys, List.mem_map]
  constructor
  · rintro habsent ⟨member, hmember, rfl⟩
    simpa using habsent member hmember
  · intro hkey member hmember
    refine bne_iff_ne.mpr fun hsame => hkey ⟨member, hmember, hsame.symm⟩

theorem lookup_isSome_iff {members : Members} {key : String} :
    (members.lookup key).isSome ↔ key ∈ members.keys := by
  rw [Option.isSome_iff_ne_none, Ne, lookup_eq_none_iff, not_not]

theorem lookup_of_mem {members : Members} (hdistinct : members.keys.Nodup)
    {key : String} {value : Json} (hmember : (key, value) ∈ members) :
    members.lookup key = some value :=
  lookup_eq_some_of_mem hdistinct hmember

theorem lookup_eq_some_iff {members : Members} (hdistinct : members.keys.Nodup)
    {key : String} {value : Json} :
    members.lookup key = some value ↔ (key, value) ∈ members :=
  ⟨mem_of_lookup, lookup_of_mem hdistinct⟩

/-- The order of members does not matter where no key is repeated. -/
theorem lookup_eq_of_perm {members members' : Members} (hperm : members.Perm members')
    (hdistinct : members.keys.Nodup) (key : String) :
    members'.lookup key = members.lookup key := by
  have hdistinct' : members'.keys.Nodup := (hperm.map Prod.fst).nodup_iff.mp hdistinct
  apply Option.ext
  intro value
  rw [lookup_eq_some_iff hdistinct, lookup_eq_some_iff hdistinct', hperm.mem_iff]

@[simp] theorem keys_cons (key : String) (value : Json) (rest : Members) :
    Members.keys ((key, value) :: rest) = key :: Members.keys rest := rfl

theorem keys_append (left right : Members) :
    Members.keys (left ++ right) = left.keys ++ right.keys := by
  simp [Members.keys]

/-- There are these two keys and no others. -/
def HasExactly (members : Members) (first second : String) : Prop :=
  ∀ key, key ∈ members.keys ↔ key = first ∨ key = second

/-- The value of a member, or an item of the list that is the value of a member. -/
inductive Holds (members : Members) : Json → Prop
  | field {key : String} {value : Json} (hmember : (key, value) ∈ members) : Holds members value
  | item {key : String} {items : List Json} {value : Json}
      (hmember : (key, .array items) ∈ members) (hitem : value ∈ items) : Holds members value

end Members

namespace Json

@[simp] theorem isNull_iff {value : Json} : value.isNull = true ↔ value = .null := by
  cases value <;> simp [isNull, kind]

/-- No object of the tree has a key twice. -/
inductive Distinct : Json → Prop
  | null : Distinct .null
  | bool (value : Bool) : Distinct (.bool value)
  | number (value : Number) : Distinct (.number value)
  | string (value : String) : Distinct (.string value)
  | array {items : List Json} (hitems : ∀ item ∈ items, Distinct item) : Distinct (.array items)
  | object {members : Members} (hkeys : members.keys.Nodup)
      (hmembers : ∀ member ∈ members, Distinct member.2) : Distinct (.object members)

theorem Distinct.keys_nodup {members : Members} (hdistinct : Json.Distinct (.object members)) :
    members.keys.Nodup := by
  cases hdistinct
  assumption

theorem Distinct.of_holds {members : Members} (hdistinct : Json.Distinct (.object members))
    {value : Json} (hholds : members.Holds value) : value.Distinct := by
  cases hdistinct with
  | object _ hmembers =>
      cases hholds with
      | field hmember => exact hmembers _ hmember
      | item hmember hitem =>
          cases hmembers _ hmember with
          | array hitems => exact hitems _ hitem

theorem sizeOf_lt_of_holds {members : Members} {value : Json} (hholds : members.Holds value) :
    sizeOf value < sizeOf (object members) := by
  cases hholds with
  | field hmember =>
      have hlt := List.sizeOf_lt_of_mem hmember
      simp only [Prod.mk.sizeOf_spec, object.sizeOf_spec] at hlt ⊢
      omega
  | item hmember hitem =>
      have hlt := List.sizeOf_lt_of_mem hmember
      have hlt' := List.sizeOf_lt_of_mem hitem
      simp only [Prod.mk.sizeOf_spec, object.sizeOf_spec, array.sizeOf_spec] at hlt ⊢
      omega

/-- From what the fields of an object hold to the object. -/
@[elab_as_elim]
theorem fieldInduction {motive : Json → Prop}
    (object : ∀ members : Members, (∀ value, members.Holds value → motive value) →
      motive (.object members))
    (other : ∀ value : Json, value.members? = none → motive value) (value : Json) :
    motive value := by
  induction hsize : sizeOf value using Nat.strongRecOn generalizing value with
  | ind size ih =>
      cases value with
      | object members =>
          apply object
          intro value hholds
          exact ih _ (hsize ▸ sizeOf_lt_of_holds hholds) value rfl
      | null | bool | number | string | array => exact other _ rfl

end Json

end BuilderCalls
