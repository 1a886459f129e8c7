import BuilderCalls.Path
import BuilderCalls.Proofs.Json.Members
import BuilderCalls.Proofs.Signature

/-!
# Paths in trees

`Json.at?` follows a path through fields and list places, and `Json.put` puts another
value at its end.  A member of an object is changed where its key stands first, which
is where it is looked up, and the other keys keep their values.

`Leads` is about the paths that conversion takes: from a node of a registered type by
a slot that holds nodes to the value in the slot, or to an item of the list in it.
-/

namespace BuilderCalls

namespace Members

/-- Changes the value of the first member of a key, if there is one. -/
def modify (members : Members) (key : String) (change : Json → Json) : Members :=
  match members with
  | [] => []
  | (key', value) :: rest =>
      if key' = key then (key', change value) :: rest
      else (key', value) :: Members.modify rest key change

variable {members : Members} {key : String} {change : Json → Json}

theorem lookup_modify_self :
    (members.modify key change).lookup key = (members.lookup key).map change := by
  induction members with
  | nil => rfl
  | cons member rest ih =>
      obtain ⟨key', value⟩ := member
      unfold modify
      by_cases hkey : key' = key
      · simp [hkey]
      · rw [if_neg hkey, List.lookup_cons, List.lookup_cons, beq_false_of_ne (Ne.symm hkey)]
        exact ih

theorem lookup_modify_of_ne {other : String} (hother : other ≠ key) :
    (members.modify key change).lookup other = members.lookup other := by
  induction members with
  | nil => rfl
  | cons member rest ih =>
      obtain ⟨key', value⟩ := member
      unfold modify
      by_cases hkey : key' = key
      · rw [if_pos hkey, List.lookup_cons, List.lookup_cons, hkey, beq_false_of_ne hother]
      · rw [if_neg hkey, List.lookup_cons, List.lookup_cons, ih]

theorem modify_eq_self {value : Json} (hfield : members.lookup key = some value)
    (hvalue : change value = value) : members.modify key change = members := by
  induction members with
  | nil => cases hfield
  | cons member rest ih =>
      obtain ⟨key', value'⟩ := member
      unfold modify
      by_cases hkey : key' = key
      · subst hkey
        rw [List.lookup_cons_self, Option.some.injEq] at hfield
        rw [if_pos rfl, hfield, hvalue]
      · rw [List.lookup_cons, beq_false_of_ne (Ne.symm hkey)] at hfield
        rw [if_neg hkey, ih hfield]

end Members

namespace Json

/-- The value to which a path leads; none when one of its steps is not there. -/
def at? (value : Json) (path : Path) : Option Json :=
  match path, value with
  | [], value => some value
  | .field name :: rest, .object members => (members.lookup name).bind fun value => at? value rest
  | .index place :: rest, .array items => items[place]?.bind fun item => at? item rest
  | _ :: _, _ => none

/-- The value with another one at the end of a path; unchanged when a step is not there. -/
def put (value : Json) (path : Path) (new : Json) : Json :=
  match path, value with
  | [], _ => new
  | .field name :: rest, .object members =>
      .object (Members.modify members name fun value => put value rest new)
  | .index place :: rest, .array items =>
      .array (items.modify place fun item => put item rest new)
  | _ :: _, value => value

section At

variable {members : Members} {items : List Json} {value : Json} {path : Path}

@[simp] theorem at?_nil : value.at? [] = some value := by
  simp [at?]

theorem at?_field {name : String} (hfield : members.lookup name = some value) :
    (object members).at? (.field name :: path) = value.at? path := by
  simp [at?, hfield]

theorem at?_index {place : Nat} (hitem : items[place]? = some value) :
    (array items).at? (.index place :: path) = value.at? path := by
  simp [at?, hitem]

variable {new : Json}

@[simp] theorem put_nil : value.put [] new = new := by
  simp [put]

@[simp] theorem put_field {name : String} :
    (object members).put (.field name :: path) new =
      .object (members.modify name fun value => value.put path new) := by
  simp [put]

@[simp] theorem put_index {place : Nat} :
    (array items).put (.index place :: path) new =
      .array (items.modify place fun item => item.put path new) := by
  simp [put]

/-- Putting a value where it is changes nothing. -/
theorem put_eq_self {found : Json} (hfound : value.at? path = some found) :
    value.put path found = value := by
  induction path generalizing value with
  | nil =>
      rw [at?_nil, Option.some.injEq] at hfound
      rw [put_nil, hfound]
  | cons step rest ih =>
      cases step with
      | field name =>
          cases value with
          | object members =>
              simp only [at?, Option.bind_eq_some_iff] at hfound
              obtain ⟨value, hfield, hrest⟩ := hfound
              rw [put_field, Members.modify_eq_self hfield (ih hrest)]
          | _ => simp [at?] at hfound
      | index place =>
          cases value with
          | array items =>
              simp only [at?, Option.bind_eq_some_iff] at hfound
              obtain ⟨item, hitem, hrest⟩ := hfound
              rw [put_index]
              congr 1
              refine List.ext_getElem? fun other => ?_
              rw [List.getElem?_modify]
              by_cases hplace : place = other
              · subst hplace
                simp [hitem, ih hrest]
              · simp [hplace]
          | _ => simp [at?] at hfound

/-- Only at the very place is null put by putting something else than null. -/
theorem put_ne_null (hvalue : value ≠ .null) (hnew : new ≠ .null) :
    value.put path new ≠ .null := by
  cases path with
  | nil => simpa using hnew
  | cons step rest =>
      cases step <;> cases value <;> simp_all [put]

end At

end Json

/-! ## Paths through slots -/

/-- The steps from a node to what a slot of it holds, alone or in a list. -/
inductive Members.LeadsTo (members : Members) (slot : Slot) : Path → Json → Prop
  | child {value : Json} (hkind : slot.kind.HoldsNode)
      (hfield : members.lookup slot.field = some value) (hvalue : value ≠ .null) :
      LeadsTo members slot [.field slot.field] value
  | item {items : List Json} {index : Nat} {value : Json} (hkind : slot.kind.isList = true)
      (hfield : members.lookup slot.field = some (.array items))
      (hitem : items[index]? = some value) (hvalue : value ≠ .null) :
      LeadsTo members slot [.field slot.field, .index index] value

/-- The path leads through slots of nodes; each node on the way has a registered type. -/
inductive Leads : Json → Path → Json → Prop
  | self (value : Json) : Leads value [] value
  | slot {members : Members} {nodeType : NodeType} {slot : Slot} {steps path : Path}
      {value found : Json} (htag : members.lookup "type" = some (.string nodeType.tag))
      (hslot : slot ∈ nodeType.slots) (hsteps : members.LeadsTo slot steps value)
      (hpath : Leads value path found) : Leads (.object members) (steps ++ path) found

theorem Members.LeadsTo.holds {members : Members} {slot : Slot} {steps : Path} {value : Json}
    (hsteps : members.LeadsTo slot steps value) : members.Holds value := by
  cases hsteps with
  | child _ hfield => exact .field (mem_of_lookup hfield)
  | item _ hfield hitem => exact .item (mem_of_lookup hfield) (List.mem_of_getElem? hitem)

theorem Members.LeadsTo.ne_null {members : Members} {slot : Slot} {steps : Path} {value : Json}
    (hsteps : members.LeadsTo slot steps value) : value ≠ .null := by
  cases hsteps with
  | child _ _ hvalue => exact hvalue
  | item _ _ _ hvalue => exact hvalue

theorem Members.LeadsTo.at?_append {members : Members} {slot : Slot} {steps : Path}
    {value : Json} (hsteps : members.LeadsTo slot steps value) (path : Path) :
    (Json.object members).at? (steps ++ path) = value.at? path := by
  cases hsteps with
  | child _ hfield => exact Json.at?_field hfield
  | item _ hfield hitem =>
      rw [List.cons_append, Json.at?_field hfield]
      exact Json.at?_index hitem

theorem Leads.at? {value found : Json} {path : Path} (hleads : Leads value path found) :
    value.at? path = some found := by
  induction hleads with
  | self value => exact Json.at?_nil
  | slot _ _ hsteps _ ih => rw [hsteps.at?_append, ih]

end BuilderCalls
