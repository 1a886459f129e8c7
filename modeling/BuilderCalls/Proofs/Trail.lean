import BuilderCalls.Proofs.Cursor

/-!
# The trace of a conversion

A conversion that succeeds records each node of its result once, in the order of the text,
with the path to the object that the node was read from.
-/

namespace BuilderCalls

open Effectful

/-! ## Entries of traced computations -/

namespace Traced

variable {α β : Type}

theorem entries_bind_of_ok {traced : Traced α} {next : α → Traced β} {value : α}
    (hresult : traced.result = .ok value) :
    (traced >>= next).entries = traced.entries ++ (next value).entries := by
  change (Traced.bind traced next).entries = _
  rw [Traced.bind, hresult]

theorem entries_mapM_cons {action : α → Traced β} {item : α} {items : List α} {value : β}
    {values : List β} (hitem : (action item).result = .ok value)
    (hitems : (items.mapM action).result = .ok values) :
    ((item :: items).mapM action).entries =
      (action item).entries ++ (items.mapM action).entries := by
  rw [List.mapM_cons, entries_bind_of_ok hitem, entries_bind_of_ok hitems]
  exact congrArg _ (List.append_nil _)

end Traced

/-! ## Stops -/

/-- The path leads to an object with the tag of the node type. -/
def Json.HasNodeAt (value : Json) (path : Path) (nodeType : NodeType) : Prop :=
  ∃ members, value.at? path = some (.object members) ∧
    members.lookup "type" = some (.string nodeType.tag)

/-- A node of the result and the path to where it was read. -/
abbrev Stop := Path × Call

namespace Stop

def entry (stop : Stop) : TraceEntry :=
  .converting stop.2.nodeType stop.1

def under (steps : Path) (stop : Stop) : Stop :=
  (steps ++ stop.1, stop.2)

end Stop

/-- Stops at nodes of a value, no two at the same place. -/
structure Trail (value : Json) (stops : List Stop) : Prop where
  distinct : (stops.map Prod.fst).Nodup
  reaches : ∀ stop ∈ stops, value.HasNodeAt stop.1 stop.2.nodeType

namespace Trail

variable {value inner : Json} {left right stops : List Stop} {steps : Path}

theorem nil : Trail value [] :=
  ⟨List.nodup_nil, List.forall_mem_nil _⟩

theorem append (hleft : Trail value left) (hright : Trail value right)
    (hapart : ∀ stop ∈ left, ∀ stop' ∈ right, stop.1 ≠ stop'.1) : Trail value (left ++ right) := by
  refine ⟨?_, List.forall_mem_append.mpr ⟨hleft.reaches, hright.reaches⟩⟩
  rw [List.map_append, List.nodup_append]
  refine ⟨hleft.distinct, hright.distinct, ?_⟩
  simpa only [List.forall_mem_map] using hapart

theorem under (hat : ∀ path, value.at? (steps ++ path) = inner.at? path)
    (hstops : Trail inner stops) : Trail value (stops.map (Stop.under steps)) := by
  constructor
  · have hpaths : (stops.map (Stop.under steps)).map Prod.fst =
        (stops.map Prod.fst).map (steps ++ ·) := by
      simp [Stop.under]
    rw [hpaths]
    exact hstops.distinct.map (List.append_right_injective steps)
  · rw [List.forall_mem_map]
    intro stop hstop
    obtain ⟨members, hfound, htag⟩ := hstops.reaches stop hstop
    exact ⟨members, (hat stop.1).trans hfound, htag⟩

theorem root {members : Members} {call : Call}
    (htag : members.lookup "type" = some (.string call.nodeType.tag))
    (hstops : Trail (.object members) stops) (hinner : ∀ stop ∈ stops, stop.1 ≠ []) :
    Trail (.object members) (([], call) :: stops) := by
  constructor
  · rw [List.map_cons, List.nodup_cons]
    refine ⟨fun hmem => ?_, hstops.distinct⟩
    obtain ⟨stop, hstop, hpath⟩ := List.mem_map.mp hmem
    exact hinner stop hstop hpath
  · exact List.forall_mem_cons.mpr ⟨⟨members, Json.at?_nil, htag⟩, hstops.reaches⟩

end Trail

/-! ## Entries along a trail -/

/-- The entries are those of a trail through the value, with a stop for each of the calls and
all of them in the area. -/
def Tells (value : Json) (area : Path → Prop) (calls : List Call) (entries : List TraceEntry) :
    Prop :=
  ∃ stops : List Stop, entries = stops.map Stop.entry ∧ stops.map Prod.snd = calls ∧
    Trail value stops ∧ ∀ stop ∈ stops, area stop.1

namespace Tells

variable {α β : Type} {value inner : Json} {area area' : Path → Prop} {calls : List Call}
  {entries : List TraceEntry}

theorem nil : Tells value area [] [] :=
  ⟨[], rfl, rfl, .nil, List.forall_mem_nil _⟩

theorem mono (htells : Tells value area calls entries) (harea : ∀ path, area path → area' path) :
    Tells value area' calls entries := by
  obtain ⟨stops, hentries, hcalls, htrail, hstops⟩ := htells
  exact ⟨stops, hentries, hcalls, htrail, fun stop hstop => harea stop.1 (hstops stop hstop)⟩

theorem under {steps : Path} (hat : ∀ path, value.at? (steps ++ path) = inner.at? path)
    (htells : Tells inner area calls entries) :
    Tells value (steps <+: ·) calls (entries.map (TraceEntry.under steps)) := by
  obtain ⟨stops, rfl, rfl, htrail, -⟩ := htells
  refine ⟨stops.map (Stop.under steps), ?_, ?_, htrail.under hat, ?_⟩
  · simp [Stop.entry, Stop.under, TraceEntry.under]
  · simp [Stop.under]
  · rw [List.forall_mem_map]
    exact fun stop _ => List.prefix_append steps stop.1

/-- What a sequence of actions records: each action keeps to its own steps. -/
theorem mapM {action : α → Traced β} {items : List α} {values : List β}
    {calls : β → List Call} {steps : α → Path} {width : Nat}
    (hitems : List.Forall₂ (fun item result => (action item).result = .ok result ∧
      Tells value (steps item <+: ·) (calls result) (action item).entries) items values)
    (hwidth : ∀ item, (steps item).length = width) (hdistinct : (items.map steps).Nodup) :
    Tells value (fun path => ∃ item ∈ items, steps item <+: path) (values.flatMap calls)
      (items.mapM action).entries := by
  induction hitems with
  | nil => exact .nil
  | @cons item result items results hitem hitems ih =>
      rw [List.map_cons, List.nodup_cons] at hdistinct
      obtain ⟨hresult, stops, hentries, hcalls, htrail, hstops⟩ := hitem
      obtain ⟨stops', hentries', hcalls', htrail', hstops'⟩ := ih hdistinct.2
      have hresults : (items.mapM action).result = .ok results :=
        Traced.mapM_result_eq_ok_iff.mpr (hitems.imp fun _ _ hitem => hitem.1)
      have hapart : ∀ stop ∈ stops, ∀ stop' ∈ stops', stop.1 ≠ stop'.1 := by
        intro stop hstop stop' hstop' hpath
        obtain ⟨other, hother, hsteps'⟩ := hstops' stop' hstop'
        have hsteps := hpath ▸ hstops stop hstop
        have hsame := (hwidth item).trans (hwidth other).symm
        have hinitial := List.prefix_of_prefix_length_le hsteps hsteps' (Nat.le_of_eq hsame)
        have hequal := (hinitial.eq_of_length hsame).symm
        exact hdistinct.1 (List.mem_map.mpr ⟨other, hother, hequal⟩)
      refine ⟨stops ++ stops', ?_, ?_, htrail.append htrail' hapart, ?_⟩
      · rw [Traced.entries_mapM_cons hresult hresults, hentries, hentries', List.map_append]
      · rw [List.map_append, hcalls, hcalls', List.flatMap_cons]
      · rw [List.forall_mem_append]
        refine ⟨fun stop hstop => ⟨item, .head _, hstops stop hstop⟩, fun stop hstop => ?_⟩
        obtain ⟨other, hother, hsteps⟩ := hstops' stop hstop
        exact ⟨other, .tail _ hother, hsteps⟩

end Tells

/-- Converting the value to a call records its nodes. -/
def TellsNodes (value : Json) : Prop :=
  ∀ call, Converts value call →
    Tells value (fun _ => True) call.preorder (convertValue value).entries

section Slots

variable {node : Node} {slot : Slot} {arg : Arg Call}

theorem tells_child {value : Json} {steps : Path} {call : Call}
    (hsteps : node.members.LeadsTo slot steps value) (hconverts : Converts value call)
    (hinner : TellsNodes value) :
    Tells (.object node.members) (steps <+: ·) ((Arg.node call).children.flatMap Call.preorder)
      (Arg.node <$> (convertValue value).under steps).entries := by
  have hcalls : (Arg.node call).children.flatMap Call.preorder = call.preorder := by
    simp [Arg.children]
  rw [hcalls]
  exact (hinner call hconverts).under hsteps.at?_append

theorem tells_item {items : List Json} {index : Nat} {item : Json}
    (hkind : slot.kind.isList = true)
    (hfield : node.members.lookup slot.field = some (.array items))
    (hitem : items[index]? = some item) (himage : ItemImage Converts slot.kind item arg)
    (hinner : TellsNodes item) :
    Tells (.object node.members) ([.field slot.field, .index index] <+: ·)
      (arg.children.flatMap Call.preorder) (convertItem node slot index item).entries := by
  cases himage with
  | hole hsparse =>
      rw [convertItem, if_neg (by decide), if_pos hsparse]
      exact .nil
  | node hconverts =>
      rw [convertItem_of_ne_null hconverts.ne_null]
      exact tells_child (.item hkind hfield hitem hconverts.ne_null) hconverts hinner

/-- The nodes of a list are told of in the order of their places. -/
theorem tells_items {items : List Json} {args : List (Arg Call)}
    (hkind : slot.kind.isList = true)
    (hfield : node.members.lookup slot.field = some (.array items))
    (hitems : List.Forall₂ (ItemImage Converts slot.kind) items args)
    (hinner : ∀ item ∈ items, TellsNodes item) :
    Tells (.object node.members) ([.field slot.field] <+: ·)
      ((Arg.list args).children.flatMap Call.preorder)
      (Arg.list <$> convertItems node slot 0 items).entries := by
  have hnodes : ∀ arg ∈ args, arg.isNodeOrNull = true := by
    intro arg harg
    obtain ⟨item, -, himage⟩ := exists_mem_of_forall₂ hitems harg
    cases himage <;> rfl
  rw [← flatMap_children_of_items hnodes, List.flatMap_assoc]
  change Tells _ _ _ (convertItems node slot 0 items).entries
  rw [convertItems_eq_mapM]
  have htells : List.Forall₂ (fun placed arg =>
      (convertItem node slot placed.2 placed.1).result = .ok arg ∧
        Tells (.object node.members) ([.field slot.field, .index placed.2] <+: ·)
          (arg.children.flatMap Call.preorder) (convertItem node slot placed.2 placed.1).entries)
      items.zipIdx args := by
    refine forall₂_zipIdx hitems fun item place arg hitem himage => ?_
    refine ⟨convertItem_eq_ok_iff.mpr himage, tells_item hkind hfield hitem himage ?_⟩
    exact hinner item (List.mem_of_getElem? hitem)
  have hdistinct : (items.zipIdx.map fun placed : Json × Nat =>
      [Step.field slot.field, Step.index placed.2]).Nodup := by
    have hsteps := (List.nodup_range' (s := 0) (n := items.length)).map
      (f := fun place => [Step.field slot.field, Step.index place]) (by simp [Function.Injective])
    rwa [← List.zipIdx_map_snd, List.map_map] at hsteps
  have hwidth (placed : Json × Nat) :
      [Step.field slot.field, Step.index placed.2].length = 2 := rfl
  refine (Tells.mapM htells hwidth hdistinct).mono ?_
  rintro path ⟨placed, -, hsteps⟩
  exact (List.prefix_append [Step.field slot.field] [Step.index placed.2]).trans hsteps

theorem tells_slot (himage : SlotImage Converts node.members slot arg)
    (hinner : ∀ value, node.members.Holds value → TellsNodes value) :
    Tells (.object node.members) ([.field slot.field] <+: ·) (arg.children.flatMap Call.preorder)
      (convertArg node slot).entries := by
  cases himage with
  | name | keyword | flag | absentFlag | literal | template => exact .nil
  | @child field kind value call hkind hfield hconverts =>
      have hnull := hconverts.ne_null
      have hholds : node.members.Holds value := .field (Members.mem_of_lookup hfield)
      rw [convertArg_of_lookup hkind.holdsNodes hfield, convertField_child hkind hnull]
      exact tells_child (.child hkind hfield hnull) hconverts (hinner value hholds)
  | @absentChild field kind hkind hlacks =>
      have hnodes := SlotKind.holdsNodes_of_isOptional hkind
      rw [convertArg_of_holdsNodes hnodes, convertSlot_of_lacks hlacks, Node.absent, if_pos hkind]
      exact .nil
  | @list field kind items args hkind hfield hitems =>
      rw [convertArg_of_lookup (SlotKind.holdsNodes_of_isList hkind) hfield,
        convertField_array hkind]
      refine tells_items hkind hfield hitems fun item hitem => hinner item ?_
      exact .item (Members.mem_of_lookup hfield) hitem

end Slots

/-- A node tells of itself and then, slot by slot, of the nodes in it. -/
theorem tells_object {members : Members} {call : Call}
    (himage : NodeImage Converts (.object members) call)
    (hinner : ∀ value, members.Holds value → TellsNodes value) :
    Tells (.object members) (fun _ => True) call.preorder
      (convertValue (.object members)).entries := by
  cases himage with
  | @mk members nodeType args hhead hslots =>
      let node : Node := ⟨nodeType.tag, members⟩
      have hargs : List.Forall₂ (fun slot arg => (convertArg node slot).result = .ok arg ∧
          Tells (.object members) ([.field slot.field] <+: ·) (arg.children.flatMap Call.preorder)
            (convertArg node slot).entries) nodeType.slots args :=
        hslots.imp fun slot arg (himage : SlotImage Converts node.members slot arg) =>
          ⟨convertArg_eq_ok_iff.mpr himage, tells_slot himage hinner⟩
      have hdistinct : (nodeType.slots.map fun slot => [Step.field slot.field]).Nodup := by
        have hfields := nodeType.fields_nodup.map (f := fun field => [Step.field field])
          (by simp [Function.Injective])
        rwa [NodeType.fields, List.map_map] at hfields
      have hwidth (slot : Slot) : [Step.field slot.field].length = 1 := rfl
      obtain ⟨stops, hentries, hcalls, htrail, hsteps⟩ := Tells.mapM hargs hwidth hdistinct
      have hbelow : ∀ stop ∈ stops, stop.1 ≠ [] := by
        rintro stop hstop hpath
        obtain ⟨slot, -, hinitial⟩ := hsteps stop hstop
        rw [hpath, List.prefix_nil] at hinitial
        cases hinitial
      have hentry : (convertValue (.object members)).entries =
          Stop.entry ([], .mk nodeType args) :: stops.map Stop.entry := by
        rw [convertValue_of_head hhead, ← hentries]
        rfl
      have hpreorder : (Call.mk nodeType args).preorder =
          .mk nodeType args :: stops.map Prod.snd := by
        rw [hcalls, Call.preorder_eq, Call.children, List.flatMap_assoc]
        rfl
      exact ⟨([], .mk nodeType args) :: stops, hentry, hpreorder.symm,
        htrail.root hhead.tag hbelow, fun _ _ => trivial⟩

theorem tellsNodes (value : Json) : TellsNodes value := by
  induction value using Json.fieldInduction with
  | object members ih =>
      intro call hconverts
      exact tells_object (converts_iff.mp hconverts) ih
  | other value hvalue =>
      intro call hconverts
      obtain ⟨members, rfl⟩ := hconverts.isObject
      cases hvalue

/--
A conversion that succeeds records one entry for each node of its result, in pre-order; the
paths of the entries are distinct, and each leads from the value to the object with the tag of
the recorded type.  The converter with one path, wherever it stands, yields and records the
same from there on, and in either case its path is again what it was before.
-/
theorem conversions_are_traced_in_preorder (value : Json) :
    (∀ call, Converts value call → ∃ stops : List Stop,
      (convert value).entries = stops.map Stop.entry ∧ stops.map Prod.snd = call.preorder ∧
        Trail value stops) ∧
    ∀ cursor, perform (Cursor.convert value) cursor =
      (((convert value).under cursor.path).result,
        ⟨cursor.path, cursor.entries ++ ((convert value).under cursor.path).entries⟩) := by
  constructor
  · intro call hconverts
    have hat (path : Path) : value.at? ([] ++ path) = value.at? path := rfl
    obtain ⟨stops, hentries, hcalls, htrail, -⟩ := (tellsNodes value call hconverts).under hat
    exact ⟨stops, hentries, hcalls, htrail⟩
  · intro cursor
    rw [Cursor.perform_convert, convert, Traced.under_under, List.append_nil]

/-- `f([, a], b)`, with a hole before an item and an argument after one with nodes of its own. -/
def nestedArguments : Json :=
  .object [("type", .string "CallExpression"),
    ("callee", .object [("type", .string "Identifier"), ("name", .string "f")]),
    ("arguments", .array [
      .object [("type", .string "ArrayExpression"), ("elements", .array [.null,
        .object [("type", .string "Identifier"), ("name", .string "a")]])],
      .object [("type", .string "Identifier"), ("name", .string "b")]])]

def nestedArgumentsCall : Call :=
  .mk .callExpression [.node (.mk .identifier [.string "f"]),
    .list [.node (.mk .arrayExpression [.list [.null, .node (.mk .identifier [.string "a"])]]),
      .node (.mk .identifier [.string "b"])],
    .bool false]

theorem conversions_are_traced_in_preorder_nested :
    Converts nestedArguments nestedArgumentsCall ∧ ∃ stops : List Stop,
      (convert nestedArguments).entries = stops.map Stop.entry ∧
        stops.map Prod.snd = nestedArgumentsCall.preorder ∧ Trail nestedArguments stops := by
  have hcall : Converts nestedArguments nestedArgumentsCall := rfl
  exact ⟨hcall, (conversions_are_traced_in_preorder nestedArguments).1 nestedArgumentsCall hcall⟩

example : (convert nestedArguments).entries =
    [.converting .callExpression [],
      .converting .identifier [.field "callee"],
      .converting .arrayExpression [.field "arguments", .index 0],
      .converting .identifier [.field "arguments", .index 0, .field "elements", .index 1],
      .converting .identifier [.field "arguments", .index 1]] := rfl

end BuilderCalls
