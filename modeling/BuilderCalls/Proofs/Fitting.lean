import BuilderCalls.Call.Check
import BuilderCalls.Proofs.Call
import BuilderCalls.Proofs.Result
import BuilderCalls.Proofs.Signature

/-!
# Fitting arguments

`Fitting` lists what may stand in a slot, by the kind of the slot.  It is the one
place where arguments and kinds are taken apart together: conversion, evaluation
and rendering go by its cases.
-/

namespace BuilderCalls

variable {ν : Type}

inductive FittingItem (kind : SlotKind) : Arg ν → Prop
  | hole (hkind : kind = .sparseList) : FittingItem kind .null
  | node (node : ν) : FittingItem kind (.node node)

inductive Fitting : SlotKind → Arg ν → Prop
  | name (text : String) : Fitting .name (.string text)
  | keyword {words : List String} {word : String} (hword : word ∈ words) :
      Fitting (.keyword words) (.string word)
  | flag (value : Bool) : Fitting .flag (.bool value)
  | child {kind : SlotKind} (hkind : kind.HoldsNode) (node : ν) : Fitting kind (.node node)
  | absent {kind : SlotKind} (hkind : kind.isOptional = true) : Fitting kind .null
  | list {kind : SlotKind} {items : List (Arg ν)} (hkind : kind.isList = true)
      (hitems : ∀ item ∈ items, FittingItem kind item) : Fitting kind (.list items)
  | literal (literal : Literal) : Fitting .literalValue (.literal literal)
  | template (cooked : Option String) (raw : String) :
      Fitting .templateValue (.template cooked raw)

namespace Arg

theorem isNode_iff {item : Arg ν} : item.isNode = true ↔ FittingItem .childList item := by
  constructor
  · intro hnode
    cases item with
    | node node => exact .node node
    | _ => cases hnode
  · intro hitem
    cases hitem with
    | hole hkind => cases hkind
    | node => rfl

theorem isNodeOrNull_iff {item : Arg ν} :
    item.isNodeOrNull = true ↔ FittingItem .sparseList item := by
  constructor
  · intro hitem
    cases item with
    | node node => exact .node node
    | null => exact .hole rfl
    | _ => cases hitem
  · intro hitem
    cases hitem <;> rfl

theorem fitting_optional_iff {kind : SlotKind} (hkind : kind.isOptional = true) {arg : Arg ν} :
    arg.isNodeOrNull = true ↔ Fitting kind arg := by
  constructor
  · intro harg
    cases arg with
    | node node => exact .child (.inr hkind) node
    | null => exact .absent hkind
    | _ => cases harg
  · intro hfitting
    cases hfitting with
    | child | absent => rfl
    | list hlist => simp [SlotKind.isList_eq_false_of_isOptional hkind] at hlist
    | _ => cases hkind

theorem fitting_list_iff {kind : SlotKind} (hkind : kind.isList = true) {items : List (Arg ν)} :
    (Arg.list items).fits kind = true ↔ ∀ item ∈ items, FittingItem kind item := by
  cases kind with
  | childList => exact List.all_eq_true.trans (forall₂_congr fun _ _ => isNode_iff)
  | sparseList => exact List.all_eq_true.trans (forall₂_congr fun _ _ => isNodeOrNull_iff)
  | _ => cases hkind

theorem fits_iff {kind : SlotKind} {arg : Arg ν} : arg.fits kind = true ↔ Fitting kind arg := by
  constructor
  · intro hfits
    cases kind with
    | name =>
        cases arg with
        | string text => exact .name text
        | _ => cases hfits
    | keyword words =>
        cases arg with
        | string word => exact .keyword (List.contains_iff_mem.mp hfits)
        | _ => cases hfits
    | flag =>
        cases arg with
        | bool value => exact .flag value
        | _ => cases hfits
    | child =>
        cases arg with
        | node node => exact .child (.inl rfl) node
        | _ => cases hfits
    | optionalChild | legacyChild => exact (fitting_optional_iff rfl).mp hfits
    | childList | sparseList =>
        cases arg with
        | list items => exact .list rfl ((fitting_list_iff rfl).mp hfits)
        | _ => cases hfits
    | literalValue =>
        cases arg with
        | literal literal => exact .literal literal
        | _ => cases hfits
    | templateValue =>
        cases arg with
        | template cooked raw => exact .template cooked raw
        | _ => cases hfits
  · intro hfitting
    cases hfitting with
    | name | flag | literal | template => rfl
    | keyword hword => exact List.contains_iff_mem.mpr hword
    | child hkind =>
        rcases hkind with rfl | hkind
        · rfl
        · cases kind <;> first | rfl | cases hkind
    | absent hkind => cases kind <;> first | rfl | cases hkind
    | list hkind hitems => exact (fitting_list_iff hkind).mpr hitems

end Arg

/-! ## Checks -/

namespace NodeType

theorem checkArity_eq_ok_iff {nodeType : NodeType} {args : List (Arg ν)} {checked : Unit} :
    nodeType.checkArity args = .ok checked ↔ args.length = nodeType.slots.length := by
  unfold checkArity arity
  split
  next hlength => exact iff_of_true rfl hlength
  next hlength => exact iff_of_false nofun hlength

theorem checkSlots_eq_ok_iff {nodeType : NodeType} {slots : List Slot} {args : List (Arg ν)}
    (hlength : args.length = slots.length) :
    nodeType.checkSlots slots args = .ok () ↔
      List.Forall₂ (fun slot arg => Fitting slot.kind arg) slots args := by
  induction slots generalizing args with
  | nil =>
      cases List.length_eq_zero_iff.mp hlength
      simp [checkSlots]
  | cons slot slots ih =>
      cases args with
      | nil => cases hlength
      | cons arg args =>
          rw [checkSlots, List.forall₂_cons, ← ih (Nat.succ.inj hlength), ← Arg.fits_iff]
          split
          next hfits => simp [hfits]
          next hfits => simp [hfits]

/-- A call fits its signature when each argument fits its slot. -/
theorem check_eq_ok_iff {nodeType : NodeType} {args : List (Arg ν)} {checked : Unit} :
    nodeType.check args = .ok checked ↔
      List.Forall₂ (fun slot arg => Fitting slot.kind arg) nodeType.slots args := by
  simp only [check, bind_eq_ok_iff, checkArity_eq_ok_iff]
  constructor
  · rintro ⟨-, hlength, hslots⟩
    exact (checkSlots_eq_ok_iff hlength).mp hslots
  · intro hfitting
    have hlength := hfitting.length_eq.symm
    exact ⟨(), hlength, (checkSlots_eq_ok_iff hlength).mpr hfitting⟩

end NodeType

end BuilderCalls
