import BuilderCalls.Proofs.Call
import Mathlib.Data.List.Nodup

/-!
# Calls from the inside out

A place says which child to take at each step from the root.  `Call.postorder` lists the
calls in a call with their places, children before the call and from left to right; every
place that leads to a call is listed once (`mem_postorder_iff`, `postorder_nodup`).
-/

namespace BuilderCalls

namespace Call

abbrev Place := List Nat

/-- The call that a place leads to. -/
def at? (call : Call) : Place → Option Call
  | [] => some call
  | index :: place => do (← call.children[index]?).at? place

@[simp] theorem at?_nil (call : Call) : call.at? [] = some call :=
  rfl

theorem at?_cons (call : Call) (index : Nat) (place : Place) :
    call.at? (index :: place) = call.children[index]?.bind fun child => child.at? place :=
  rfl

theorem at?_append_singleton {call node : Call} {place : Place} (hnode : call.at? place = some node)
    (index : Nat) : call.at? (place ++ [index]) = node.children[index]? := by
  induction place generalizing call with
  | nil =>
      cases hnode
      simp [at?_cons]
  | cons first place ih =>
      rw [at?_cons, Option.bind_eq_some_iff] at hnode
      obtain ⟨child, hchild, hnode⟩ := hnode
      simpa [at?_cons, hchild] using ih hnode

def under (index : Nat) (stop : Place × Call) : Place × Call :=
  (index :: stop.1, stop.2)

/-- The calls in a call, each after those in it. -/
def postorder (call : Call) : List (Place × Call) :=
  (call.children.attach.zipIdx.flatMap fun child => (postorder child.1.1).map (under child.2)) ++
    [([], call)]
termination_by sizeOf call
decreasing_by exact sizeOf_lt_of_mem_children child.1.2

/-- The calls in several calls, one call after the other, which are counted from a number. -/
def postorderFrom (start : Nat) (calls : List Call) : List (Place × Call) :=
  (calls.zipIdx start).flatMap fun call => call.1.postorder.map (under call.2)

theorem postorder_eq (call : Call) :
    call.postorder = postorderFrom 0 call.children ++ [([], call)] := by
  rw [postorder, postorderFrom]
  conv_rhs => rw [← List.attach_map_subtype_val call.children, List.zipIdx_map, List.flatMap_map]
  rfl

@[simp] theorem postorderFrom_nil (start : Nat) : postorderFrom start [] = [] :=
  rfl

@[simp] theorem postorderFrom_cons (start : Nat) (call : Call) (calls : List Call) :
    postorderFrom start (call :: calls) =
      call.postorder.map (under start) ++ postorderFrom (start + 1) calls := by
  simp [postorderFrom]

theorem mem_postorderFrom_zero_iff {calls : List Call} {stop : Place × Call} :
    stop ∈ postorderFrom 0 calls ↔
      ∃ index call, calls[index]? = some call ∧
        ∃ inner ∈ call.postorder, under index inner = stop := by
  simp only [postorderFrom, List.mem_flatMap, List.mem_zipIdx_iff_getElem?, List.mem_map,
    Prod.exists]
  rw [exists_comm]

/-- A place leads to a call exactly when it is listed with it. -/
theorem mem_postorder_iff {call node : Call} {place : Place} :
    (place, node) ∈ call.postorder ↔ call.at? place = some node := by
  induction call using Call.childInduction generalizing place node with
  | step call ih =>
      rw [postorder_eq, List.mem_append, List.mem_singleton, mem_postorderFrom_zero_iff]
      cases place with
      | nil => simp [under, eq_comm]
      | cons first place =>
          rw [at?_cons, Option.bind_eq_some_iff]
          simp only [under, Prod.mk.injEq, List.cons.injEq, reduceCtorEq, false_and, or_false]
          constructor
          · rintro ⟨index, child, hchild, inner, hinner, ⟨rfl, rfl⟩, rfl⟩
            exact ⟨child, hchild, (ih child (List.mem_of_getElem? hchild)).mp hinner⟩
          · rintro ⟨child, hchild, hnode⟩
            have hinner := (ih child (List.mem_of_getElem? hchild)).mpr hnode
            exact ⟨first, child, hchild, _, hinner, ⟨rfl, rfl⟩, rfl⟩

theorem exists_le_of_mem_postorderFrom {start : Nat} {calls : List Call} {stop : Place × Call}
    (hstop : stop ∈ postorderFrom start calls) :
    ∃ index place, stop.1 = index :: place ∧ start ≤ index := by
  induction calls generalizing start with
  | nil => cases hstop
  | cons call calls ih =>
      rw [postorderFrom_cons, List.mem_append, List.mem_map] at hstop
      rcases hstop with ⟨inner, -, rfl⟩ | hstop
      · exact ⟨start, inner.1, rfl, Nat.le_refl start⟩
      · obtain ⟨index, place, hplace, hle⟩ := ih hstop
        exact ⟨index, place, hplace, by omega⟩

theorem nodup_postorderFrom {calls : List Call}
    (hcalls : ∀ call ∈ calls, (call.postorder.map Prod.fst).Nodup) (start : Nat) :
    ((postorderFrom start calls).map Prod.fst).Nodup := by
  induction calls generalizing start with
  | nil => exact .nil
  | cons call calls ih =>
      obtain ⟨hcall, hcalls⟩ := List.forall_mem_cons.mp hcalls
      rw [postorderFrom_cons, List.map_append, List.map_map]
      refine List.Nodup.append ?_ (ih hcalls (start + 1)) ?_
      · have hunder : Prod.fst ∘ under start =
            List.cons start ∘ (Prod.fst : Place × Call → Place) := rfl
        rw [hunder, ← List.map_map]
        exact hcall.map List.cons_injective
      · intro place hfirst hrest
        obtain ⟨inner, -, rfl⟩ := List.mem_map.mp hfirst
        obtain ⟨stop, hstop, hsame⟩ := List.mem_map.mp hrest
        obtain ⟨index, place, hplace, hle⟩ := exists_le_of_mem_postorderFrom hstop
        obtain ⟨rfl, -⟩ := List.cons.inj (hplace.symm.trans hsame)
        omega

/-- No place is listed twice. -/
theorem postorder_nodup (call : Call) : (call.postorder.map Prod.fst).Nodup := by
  induction call using Call.childInduction with
  | step call ih =>
      rw [postorder_eq, List.map_append]
      refine List.Nodup.append (nodup_postorderFrom ih 0) (List.nodup_singleton _) ?_
      intro place hinner hroot
      obtain ⟨stop, hstop, rfl⟩ := List.mem_map.mp hinner
      obtain ⟨index, place, hplace, -⟩ := exists_le_of_mem_postorderFrom hstop
      rw [hplace] at hroot
      simp at hroot

end Call

end BuilderCalls
