import BuilderCalls.Call
import Mathlib.Data.List.Basic

/-!
# Calls and the calls in them

`Call.childInduction` goes from the children of a call to the call;
`Call.Contains` reaches every call at any depth, and `Call.preorder` lists them in the order
of the text.
-/

namespace BuilderCalls

namespace Arg

variable {ν : Type}

theorem mem_children_iff {arg : Arg ν} {child : ν} :
    child ∈ arg.children ↔
      arg = .node child ∨ ∃ items, arg = .list items ∧ .node child ∈ items := by
  cases arg with
  | node value => simp [children, eq_comm]
  | list items =>
      simp only [children, List.mem_filterMap, reduceCtorEq, false_or, list.injEq,
        exists_eq_left']
      constructor
      · rintro ⟨item, hitem, hnode⟩
        cases item <;> cases hnode
        exact hitem
      · intro hitem
        exact ⟨_, hitem, rfl⟩
  | _ => simp [children]

/-- The nodes among the items of a list are the children of the list. -/
theorem mem_children_of_item {items : List (Arg ν)} {item : Arg ν} {child : ν}
    (hitem : item ∈ items) (hnode : item.isNodeOrNull = true) (hchild : child ∈ item.children) :
    child ∈ (Arg.list items).children := by
  rcases mem_children_iff.mp hchild with rfl | ⟨nested, rfl, -⟩
  · exact mem_children_iff.mpr (.inr ⟨items, rfl, hitem⟩)
  · cases hnode

end Arg

namespace Call

theorem mem_children_iff {nodeType : NodeType} {args : List (Arg Call)} {child : Call} :
    child ∈ (Call.mk nodeType args).children ↔ ∃ arg ∈ args, child ∈ arg.children := by
  simp [children, Call.args]

theorem sizeOf_lt_of_mem_children {call child : Call} (hchild : child ∈ call.children) :
    sizeOf child < sizeOf call := by
  obtain ⟨nodeType, args⟩ := call
  obtain ⟨arg, harg, hchild⟩ := mem_children_iff.mp hchild
  have hlt := List.sizeOf_lt_of_mem harg
  rcases Arg.mem_children_iff.mp hchild with rfl | ⟨items, rfl, hitem⟩
  · simp only [Arg.node.sizeOf_spec, Call.mk.sizeOf_spec] at hlt ⊢
    omega
  · have hlt' := List.sizeOf_lt_of_mem hitem
    simp only [Arg.list.sizeOf_spec, Arg.node.sizeOf_spec, Call.mk.sizeOf_spec] at hlt hlt' ⊢
    omega

@[elab_as_elim]
theorem childInduction {motive : Call → Prop}
    (step : ∀ call : Call, (∀ child ∈ call.children, motive child) → motive call) (call : Call) :
    motive call := by
  induction hsize : sizeOf call using Nat.strongRecOn generalizing call with
  | ind size ih =>
      refine step call fun child hchild => ?_
      exact ih _ (hsize ▸ sizeOf_lt_of_mem_children hchild) child rfl

/-- The second call is the first or in one of its arguments, at any depth. -/
inductive Contains : Call → Call → Prop
  | self (call : Call) : Contains call call
  | child {call child inner : Call} (hchild : child ∈ call.children)
      (hinner : Contains child inner) : Contains call inner

/-- The call and all calls in it, each before those in it. -/
def preorder (call : Call) : List Call :=
  call :: call.children.attach.flatMap fun child => preorder child.1
termination_by sizeOf call
decreasing_by exact sizeOf_lt_of_mem_children child.2

theorem preorder_eq (call : Call) :
    call.preorder = call :: call.children.flatMap preorder := by
  rw [preorder, List.flatMap_subtype (g := preorder) fun _ _ => rfl, List.unattach_attach]

theorem mem_preorder_iff {call inner : Call} : inner ∈ call.preorder ↔ call.Contains inner := by
  induction call using Call.childInduction with
  | step call ih =>
      rw [preorder_eq, List.mem_cons, List.mem_flatMap]
      constructor
      · rintro (rfl | ⟨child, hchild, hinner⟩)
        · exact .self _
        · exact .child hchild ((ih child hchild).mp hinner)
      · intro hcontains
        cases hcontains with
        | self => exact .inl rfl
        | child hchild hinner => exact .inr ⟨_, hchild, (ih _ hchild).mpr hinner⟩

end Call

end BuilderCalls
