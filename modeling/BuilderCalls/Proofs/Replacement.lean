import BuilderCalls.Proofs.BuiltNode
import BuilderCalls.Proofs.Refusal

/-!
# Replacing nodes

Another value is put in the place of a node that is converted as part of a tree.  If
the value is converted, so is the tree, and its call has the value's call at the place
that corresponds; if not, the tree fails as the value does, seen from the root.  For a
node is judged without regard to what is around it, and the slots of a node read
different fields: `SlotImage.congr` says of which fields a slot depends.
-/

namespace BuilderCalls

/-! ## Calls at places -/

/-- Changes the argument that stands for a field. -/
def Arg.change (field : String) (change : Arg Call → Arg Call) :
    List Slot → List (Arg Call) → List (Arg Call)
  | slot :: slots, arg :: args =>
      (if slot.field = field then change arg else arg) :: Arg.change field change slots args
  | _, args => args

/--
The argument with another call in the place that a path leads to: a field step goes to the
argument for the field, an index step to the item of a list.
-/
def Arg.put (arg : Arg Call) (path : Path) (new : Call) : Arg Call :=
  match path, arg with
  | [], _ => .node new
  | .field name :: rest, .node (.mk nodeType args) =>
      .node (.mk nodeType (Arg.change name (fun arg => Arg.put arg rest new) nodeType.slots args))
  | .index place :: rest, .list items =>
      .list (items.modify place fun item => Arg.put item rest new)
  | _ :: _, arg => arg

def Call.put (call : Call) (path : Path) (new : Call) : Call :=
  ((Arg.node call).put path new).node?.getD call

section Put

variable {call new : Call} {nodeType : NodeType} {args : List (Arg Call)} {path : Path}

@[simp] theorem Call.put_nil : call.put [] new = new := by
  simp [put, Arg.put, Arg.node?]

@[simp] theorem Call.put_field {name : String} :
    (Call.mk nodeType args).put (.field name :: path) new =
      .mk nodeType (Arg.change name (fun arg => arg.put path new) nodeType.slots args) := by
  simp [put, Arg.put, Arg.node?]

theorem Arg.put_node : (Arg.node call).put path new = .node (call.put path new) := by
  obtain ⟨nodeType, args⟩ := call
  cases path with
  | nil => simp [Arg.put]
  | cons step rest =>
      cases step with
      | field name => simp [Arg.put]
      | index place => simp [Call.put, Arg.put, Arg.node?]

theorem Arg.put_list {items : List (Arg Call)} {place : Nat} :
    (Arg.list items).put (.index place :: path) new =
      .list (items.modify place fun item => item.put path new) := by
  simp [Arg.put]

theorem forall₂_change {relation relation' : Slot → Arg Call → Prop} {field : String}
    {change : Arg Call → Arg Call} {slots : List Slot}
    (hfield : ∀ slot ∈ slots, ∀ arg, slot.field = field → relation slot arg →
      relation' slot (change arg))
    (hother : ∀ slot ∈ slots, ∀ arg, slot.field ≠ field → relation slot arg → relation' slot arg)
    (hslots : List.Forall₂ relation slots args) :
    List.Forall₂ relation' slots (Arg.change field change slots args) := by
  induction hslots with
  | nil => exact .nil
  | @cons slot arg slots args harg _ ih =>
      rw [List.forall_mem_cons] at hfield hother
      refine .cons ?_ (ih hfield.2 hother.2)
      split
      next hsame => exact hfield.1 arg hsame harg
      next hdiffer => exact hother.1 arg hdiffer harg

end Put

theorem forall₂_modify {α β : Type} {relation : α → β → Prop} {left : List α} {right : List β}
    (hitems : List.Forall₂ relation left right) {place : Nat} {change : α → α} {change' : β → β}
    (hplace : ∀ item, left[place]? = some item → ∀ item', relation item item' →
      relation (change item) (change' item')) :
    List.Forall₂ relation (left.modify place change) (right.modify place change') := by
  induction hitems generalizing place with
  | nil => cases place <;> exact .nil
  | @cons item item' left right hitem hitems ih =>
      cases place with
      | zero => exact .cons (hplace item rfl item' hitem) hitems
      | succ place => exact .cons hitem (ih hplace)

theorem take_modify_self {α : Type} (items : List α) (place : Nat) (change : α → α) :
    (items.modify place change).take place = items.take place := by
  induction items generalizing place with
  | nil => cases place <;> rfl
  | cons item rest ih => cases place <;> simp [ih]

/-! ## Slots read different fields -/

theorem LiteralImage.congr {members members' : Members} {literal : Literal}
    (hkeys : ∀ key ∈ ["value", "regex", "bigint"], members'.lookup key = members.lookup key)
    (himage : LiteralImage members literal) : LiteralImage members' literal := by
  have hlookup := hkeys "value" (by decide)
  have hregex' := hkeys "regex" (by decide)
  have hbigint' := hkeys "bigint" (by decide)
  cases himage with
  | regexp hregex hpattern hflags => exact .regexp (hregex'.trans hregex) hpattern hflags
  | bigint hregex hbigint =>
      exact .bigint (by rwa [Members.Lacks, hregex']) (hbigint'.trans hbigint)
  | plain hregex hbigint hvalue hplain =>
      exact .plain (by rwa [Members.Lacks, hregex']) (by rwa [Members.Lacks, hbigint'])
        (hlookup.trans hvalue) hplain

/-- What a slot is read as depends on the fields of its keys alone. -/
theorem SlotImage.congr {image : Json → Call → Prop} {members members' : Members} {slot : Slot}
    {arg : Arg Call} (hkeys : ∀ key ∈ slot.keys, members'.lookup key = members.lookup key)
    (himage : SlotImage image members slot arg) : SlotImage image members' slot arg := by
  have hlookup : slot.kind ≠ .literalValue →
      members'.lookup slot.field = members.lookup slot.field :=
    fun hkind => hkeys _ (Slot.field_mem_keys hkind)
  cases himage with
  | name hfield => exact .name ((hlookup (by simp)).trans hfield)
  | keyword hfield hword => exact .keyword ((hlookup (by simp)).trans hfield) hword
  | flag hfield => exact .flag ((hlookup (by simp)).trans hfield)
  | absentFlag hfield =>
      have hsame := hlookup (by simp)
      exact .absentFlag (by rwa [Members.Lacks, hsame])
  | child hkind hfield himage =>
      have hsame := hlookup (SlotKind.ne_of_holdsNodes hkind.holdsNodes rfl)
      exact .child hkind (hsame.trans hfield) himage
  | absentChild hkind hfield =>
      have hnodes := SlotKind.holdsNodes_of_isOptional hkind
      have hsame := hlookup (SlotKind.ne_of_holdsNodes hnodes rfl)
      exact .absentChild hkind (by rwa [Members.Lacks, hsame])
  | list hkind hfield hitems =>
      have hnodes := SlotKind.holdsNodes_of_isList hkind
      have hsame := hlookup (SlotKind.ne_of_holdsNodes hnodes rfl)
      exact .list hkind (hsame.trans hfield) hitems
  | literal hliteral => exact .literal (hliteral.congr hkeys)
  | template hfield htemplate => exact .template ((hlookup (by simp)).trans hfield) htemplate

theorem field_eq_of_mem_keys {nodeType : NodeType} {slot slot' : Slot}
    (hslot : slot ∈ nodeType.slots) (hslot' : slot' ∈ nodeType.slots)
    (hkey : slot.field ∈ slot'.keys) : slot'.field = slot.field := by
  by_cases hkind : slot'.kind = .literalValue
  · obtain rfl := NodeType.eq_literal_of_literalValue hslot' hkind
    simp only [NodeType.slots, List.mem_singleton] at hslot hslot'
    rw [hslot, hslot']
  · rw [Slot.keys_eq hkind, List.mem_singleton] at hkey
    exact hkey.symm

section Nodes

variable {members : Members} {nodeType : NodeType} {slot : Slot} {change : Json → Json}

/-- A change in the field of one slot leaves the other slots as they were. -/
theorem SlotImage.modify_other {image : Json → Call → Prop} {slot' : Slot} {arg : Arg Call}
    (hslot : slot ∈ nodeType.slots) (hslot' : slot' ∈ nodeType.slots)
    (hdiffer : slot'.field ≠ slot.field) (himage : SlotImage image members slot' arg) :
    SlotImage image (members.modify slot.field change) slot' arg := by
  refine himage.congr fun key hkey => Members.lookup_modify_of_ne ?_
  rintro rfl
  exact hdiffer (field_eq_of_mem_keys hslot hslot' hkey)

theorem NodeHead.nodeType_eq {nodeType' : NodeType} (hhead : NodeHead members nodeType)
    (htag : members.lookup "type" = some (.string nodeType'.tag)) : nodeType = nodeType' := by
  have hsame := hhead.tag.symm.trans htag
  exact NodeType.tag_injective (by simpa using hsame)

theorem NodeHead.modify (hhead : NodeHead members nodeType) (hslot : slot ∈ nodeType.slots) :
    NodeHead (members.modify slot.field change) nodeType := by
  refine ⟨?_, fun field hfield value hvalue => hhead.vacant field hfield value ?_⟩
  · rw [Members.lookup_modify_of_ne (NodeType.type_ne_field hslot)]
    exact hhead.tag
  · rwa [Members.lookup_modify_of_ne] at hvalue
    rintro rfl
    exact NodeType.field_not_mem_unslottedFields hslot hfield

/-! ## Within a slot -/

theorem Members.LeadsTo.steps_eq {steps : Path} {value : Json}
    (hsteps : members.LeadsTo slot steps value) : steps = .field slot.field :: steps.tail := by
  cases hsteps <;> rfl

/-- The members of a node with another value in the place below a slot. -/
def putBelow (members : Members) (slot : Slot) (steps path : Path) (new : Json) : Members :=
  members.modify slot.field fun value => value.put (steps.tail ++ path) new

variable {steps path : Path} {value new : Json} {arg : Arg Call}

theorem Members.LeadsTo.put (hsteps : members.LeadsTo slot steps value) :
    (Json.object members).put (steps ++ path) new =
      .object (putBelow members slot steps path new) := by
  rw [hsteps.steps_eq, List.cons_append, Json.put_field]
  rfl

theorem Members.LeadsTo.put_call {args : List (Arg Call)} {newCall : Call}
    (hsteps : members.LeadsTo slot steps value) :
    (Call.mk nodeType args).put (steps ++ path) newCall =
      .mk nodeType (Arg.change slot.field (fun arg => arg.put (steps.tail ++ path) newCall)
        nodeType.slots args) := by
  rw [hsteps.steps_eq, List.cons_append, Call.put_field]
  rfl

theorem lookup_putBelow_child (hfield : members.lookup slot.field = some value) :
    (putBelow members slot [.field slot.field] path new).lookup slot.field =
      some (value.put path new) := by
  rw [putBelow, Members.lookup_modify_self, hfield]
  rfl

theorem lookup_putBelow_item {items : List Json} {index : Nat}
    (hfield : members.lookup slot.field = some (.array items)) :
    (putBelow members slot [.field slot.field, .index index] path new).lookup slot.field =
      some (.array (items.modify index fun item => item.put path new)) := by
  rw [putBelow, Members.lookup_modify_self, hfield]
  simp

theorem SlotImage.put {newCall : Call} (hsteps : members.LeadsTo slot steps value)
    (himage : SlotImage Converts members slot arg)
    (hvalue : ∀ call, Converts value call → Converts (value.put path new) (call.put path newCall)) :
    SlotImage Converts (putBelow members slot steps path new) slot
      (arg.put (steps.tail ++ path) newCall) := by
  cases hsteps with
  | child hkind hfield hnull =>
      have hpresent : ¬members.Lacks slot.field := by simp [Members.Lacks, hfield, hnull]
      obtain ⟨value', call, hfield', hconverts, rfl⟩ := (child_iff hkind hpresent).mp himage
      cases hfield.symm.trans hfield'
      rw [List.tail_cons, List.nil_append, Arg.put_node]
      exact .child hkind (lookup_putBelow_child hfield) (hvalue call hconverts)
  | item hkind hfield hitem hnull =>
      obtain ⟨items, args, hfield', hitems, rfl⟩ := (list_iff hkind).mp himage
      cases hfield.symm.trans hfield'
      rw [List.tail_cons, List.singleton_append, Arg.put_list]
      refine .list hkind (lookup_putBelow_item hfield)
        (forall₂_modify hitems fun item hitem' arg harg => ?_)
      cases hitem.symm.trans hitem'
      cases harg with
      | hole => exact absurd rfl hnull
      | node hconverts =>
          rw [Arg.put_node]
          exact .node (hvalue _ hconverts)

/-- A failure below a slot that was converted before is the failure of the slot. -/
theorem convertArg_put_eq_error (tag : String) {failure : Failure}
    (hsteps : members.LeadsTo slot steps value) (himage : SlotImage Converts members slot arg)
    (hput : value.put path new ≠ .null) (hfails : Fails (value.put path new) failure) :
    (convertArg ⟨tag, putBelow members slot steps path new⟩ slot).result =
      .error (failure.under steps) := by
  cases hsteps with
  | child hkind hfield hnull =>
      rw [convertArg_of_lookup hkind.holdsNodes (lookup_putBelow_child hfield),
        convertField_child hkind hput, Traced.result_map, map_eq_error_iff,
        convertValue_under_eq_error_iff]
      exact ⟨failure, hfails, rfl⟩
  | @item _ index _ hkind hfield hitem hnull =>
      obtain ⟨items, args, hfield', hitems, rfl⟩ := (SlotImage.list_iff hkind).mp himage
      cases hfield.symm.trans hfield'
      rw [convertArg_of_lookup (SlotKind.holdsNodes_of_isList hkind)
        (lookup_putBelow_item hfield), convertField_array hkind, Traced.result_map,
        map_eq_error_iff, convertItems_eq_error_iff]
      refine ⟨index, value.put path new, by simp [hitem], ?_, ?_⟩
      · rw [take_modify_self]
        intro earlier hearlier
        exact exists_forall₂_iff.mp ⟨args, hitems⟩ earlier (List.mem_of_mem_take hearlier)
      · rw [convertItem_of_ne_null hput, Traced.result_map,
          map_eq_error_iff, convertValue_under_eq_error_iff]
        exact ⟨failure, hfails, rfl⟩

end Nodes

/-! ## Nodes -/

theorem convertValue_eq_error_of_slot {members : Members} {nodeType : NodeType} {slot : Slot}
    {failure : Failure} (hhead : NodeHead members nodeType) (hslot : slot ∈ nodeType.slots)
    (hother : ∀ slot' ∈ nodeType.slots, slot' ≠ slot →
      ∃ arg, SlotImage Converts members slot' arg)
    (hfailure : (convertArg ⟨nodeType.tag, members⟩ slot).result = .error failure) :
    (convertValue (.object members)).result = .error failure := by
  obtain ⟨before, after, hslots, hfirst⟩ := List.eq_append_cons_of_mem hslot
  rw [convertValue_of_head hhead]
  change Call.mk nodeType <$> (nodeType.slots.mapM (convertArg _)).result = _
  rw [map_eq_error_iff, Traced.mapM_result_eq_error_iff]
  refine ⟨before.length, slot, by simp [hslots], ?_, hfailure⟩
  rw [hslots, List.take_left]
  intro earlier hearlier
  have hmember : earlier ∈ nodeType.slots := by simp [hslots, hearlier]
  obtain ⟨arg, himage⟩ := hother earlier hmember (by rintro rfl; exact hfirst hearlier)
  exact ⟨arg, convertArg_eq_ok_iff.mpr himage⟩

/-- What a tree becomes when another value is put at a path through its slots. -/
structure Replaced (value : Json) (call : Call) (path : Path) (new : Json) : Prop where
  converts : ∀ newCall, Converts new newCall →
    Converts (value.put path new) (call.put path newCall)
  fails : ∀ failure, Fails new failure → Fails (value.put path new) (failure.under path)

theorem exists_image_of_slot {members : Members} {slots : List Slot} {args : List (Arg Call)}
    (hslots : List.Forall₂ (SlotImage Converts members) slots args) {slot : Slot}
    (hslot : slot ∈ slots) : ∃ arg, SlotImage Converts members slot arg :=
  exists_forall₂_iff.mp ⟨args, hslots⟩ slot hslot

theorem Members.LeadsTo.exists_converts {members : Members} {slot : Slot} {steps : Path}
    {value : Json} {arg : Arg Call} (hsteps : members.LeadsTo slot steps value)
    (himage : SlotImage Converts members slot arg) : ∃ call, Converts value call := by
  cases hsteps with
  | child hkind hfield hnull =>
      have hpresent : ¬members.Lacks slot.field := by simp [Members.Lacks, hfield, hnull]
      obtain ⟨value', call, hfield', hconverts, rfl⟩ :=
        (SlotImage.child_iff hkind hpresent).mp himage
      cases hfield.symm.trans hfield'
      exact ⟨call, hconverts⟩
  | item hkind hfield hitem hnull =>
      obtain ⟨items, args, hfield', hitems, rfl⟩ := (SlotImage.list_iff hkind).mp himage
      cases hfield.symm.trans hfield'
      obtain ⟨arg, harg⟩ := exists_forall₂_iff.mp ⟨args, hitems⟩ _ (List.mem_of_getElem? hitem)
      cases harg with
      | hole => exact absurd rfl hnull
      | node hconverts => exact ⟨_, hconverts⟩

theorem replaced_of_leads {value found new : Json} {path : Path} (hleads : Leads value path found)
    (hnew : new ≠ .null) {call : Call} (hcall : Converts value call) :
    Replaced value call path new := by
  induction hleads generalizing call with
  | self value =>
      refine ⟨fun newCall hnewCall => ?_, fun failure hfailure => ?_⟩
      · simpa using hnewCall
      · rw [Json.put_nil, hfailure.under_nil]
        exact hfailure
  | @slot members nodeType slot steps path value found htag hslot hsteps _ ih =>
      cases converts_iff.mp hcall with
      | @mk _ nodeType' args hhead hslots =>
          obtain rfl := hhead.nodeType_eq htag
          obtain ⟨arg, himage⟩ := exists_image_of_slot hslots hslot
          obtain ⟨call, hconverts⟩ := hsteps.exists_converts himage
          have hhead' : NodeHead (putBelow members slot steps path new) nodeType' :=
            hhead.modify hslot
          have hother : ∀ slot' ∈ nodeType'.slots, ∀ arg, slot'.field ≠ slot.field →
              SlotImage Converts members slot' arg →
                SlotImage Converts (putBelow members slot steps path new) slot' arg :=
            fun slot' hslot' arg => SlotImage.modify_other hslot hslot'
          have hbelow : (Json.object members).put (steps ++ path) new =
              .object (putBelow members slot steps path new) := hsteps.put
          refine ⟨fun newCall hnewCall => ?_, fun failure hfailure => ?_⟩
          · rw [hbelow, hsteps.put_call]
            refine converts_iff.mpr (.mk hhead' (forall₂_change ?_ hother hslots))
            intro slot' hslot' arg' hsame himage'
            obtain rfl := NodeType.slot_eq_of_field hslot' hslot hsame
            exact himage'.put hsteps fun call hcall => (ih hcall).converts newCall hnewCall
          · have hinner := (ih hconverts).fails failure hfailure
            have hput : value.put path new ≠ .null := Json.put_ne_null hsteps.ne_null hnew
            have harg := convertArg_put_eq_error nodeType'.tag hsteps himage hput hinner
            have hrest : ∀ slot' ∈ nodeType'.slots, slot' ≠ slot →
                ∃ arg, SlotImage Converts (putBelow members slot steps path new) slot' arg := by
              intro slot' hslot' hdiffer
              obtain ⟨arg', himage'⟩ := exists_image_of_slot hslots hslot'
              refine ⟨arg', hother slot' hslot' arg' (fun hsame => hdiffer ?_) himage'⟩
              exact NodeType.slot_eq_of_field hslot' hslot hsame
            rw [hbelow, fails_iff_convertValue]
            exact ⟨_, convertValue_eq_error_of_slot hhead' hslot hrest harg,
              by rw [Failure.under_under, Failure.under_under, List.nil_append]⟩

theorem Leads.exists_converts {value found : Json} {path : Path} {call : Call}
    (hleads : Leads value path found) (hcall : Converts value call) :
    ∃ foundCall, Converts found foundCall := by
  induction hleads generalizing call with
  | self value => exact ⟨call, hcall⟩
  | @slot members nodeType slot steps path value found htag hslot hsteps _ ih =>
      cases converts_iff.mp hcall with
      | @mk _ nodeType' args hhead hslots =>
          obtain rfl := hhead.nodeType_eq htag
          obtain ⟨arg, himage⟩ := exists_image_of_slot hslots hslot
          obtain ⟨inner, hinner⟩ := hsteps.exists_converts himage
          exact ih hinner

/-- The call in the place of a node is the call that the node is converted to. -/
theorem Leads.put_eq_self {value found : Json} {path : Path} {call foundCall : Call}
    (hleads : Leads value path found) (hcall : Converts value call)
    (hfound : Converts found foundCall) : call.put path foundCall = call := by
  have hobject : found ≠ .null := by
    obtain ⟨members, rfl⟩ := hfound.isObject
    simp
  have hsame := (replaced_of_leads hleads hobject hcall).converts foundCall hfound
  rw [Json.put_eq_self hleads.at?] at hsame
  exact Except.ok.inj (hsame.symm.trans hcall)

/--
A node is converted by itself: with another value in its place the tree is converted to the call
with the value's call in that place, or it fails as the value does, further in.
-/
theorem conversion_is_compositional {value found new : Json} {call : Call} {path : Path}
    (hcall : Converts value call) (hleads : Leads value path found) (hnew : new ≠ .null) :
    (∀ newCall, Converts new newCall →
      Converts (value.put path new) (call.put path newCall)) ∧
    ∀ failure, Fails new failure →
      ∃ inner, failure.path = some inner ∧
        Fails (value.put path new) { failure with path := some (path ++ inner) } := by
  have hreplaced := replaced_of_leads hleads hnew hcall
  refine ⟨hreplaced.converts, fun failure hfailure => ?_⟩
  obtain ⟨inner, hinner⟩ := hfailure.exists_path
  refine ⟨inner, hinner, ?_⟩
  simpa [Failure.under, hinner] using hreplaced.fails failure hfailure

def identifier (name : String) : Json :=
  .object [("type", .string "Identifier"), ("name", .string name)]

def spreadElement (argument : Json) : Json :=
  .object [("argument", argument), ("type", .string "SpreadElement")]

/-- `[, ...a]`; the name stands in a node that an item of a list holds. -/
def spreadTree : Json :=
  .object [("type", .string "ArrayExpression"),
    ("elements", .array [.null, spreadElement (identifier "a")])]

def spreadCall (argument : Call) : Call :=
  .mk .arrayExpression [.list [.null, .node (.mk .spreadElement [.node argument])]]

def spreadPath : Path :=
  [.field "elements", .index 1, .field "argument"]

theorem conversion_is_compositional_in_spread :
    Converts spreadTree (spreadCall (.mk .identifier [.string "a"])) ∧
    Leads spreadTree spreadPath (identifier "a") ∧
    Converts (spreadTree.put spreadPath (identifier "b"))
      (spreadCall (.mk .identifier [.string "b"])) ∧
    ∃ failure, Fails strayElement failure ∧ ∃ inner, failure.path = some inner ∧
      Fails (spreadTree.put spreadPath strayElement)
        { failure with path := some (spreadPath ++ inner) } := by
  have hcall : Converts spreadTree (spreadCall (.mk .identifier [.string "a"])) := rfl
  have hname : ∀ name, identifier name ≠ .null := nofun
  have hspread : spreadElement (identifier "a") ≠ .null := nofun
  have hstray : strayElement ≠ .null := nofun
  have hleads : Leads spreadTree spreadPath (identifier "a") :=
    @Leads.slot _ .arrayExpression _ _ _ _ _ rfl (.head _) (.item rfl rfl rfl hspread)
      (@Leads.slot _ .spreadElement _ _ _ _ _ rfl (.head _) (.child (.inl rfl) rfl (hname "a"))
        (.self _))
  refine ⟨hcall, hleads, ?_, _, rfl, ?_⟩
  · exact (conversion_is_compositional hcall hleads (hname "b")).1 _ rfl
  · exact (conversion_is_compositional hcall hleads hstray).2 _ rfl

end BuilderCalls
