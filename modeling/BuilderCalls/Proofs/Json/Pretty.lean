import BuilderCalls.Proofs.Json.Lexing
import BuilderCalls.Proofs.LineDiff
import BuilderCalls.Proofs.Rendering.Lines

/-!
# The lines of an indented text

Whatever strings a value holds, its indented text has no empty line and no control character
besides the line breaks: those in strings are escaped, each break is followed by a bracket, a
key or an item, and numbers are written with visible characters.
-/

namespace BuilderCalls

/-- A text that starts with a printable character and goes on with one after each break, with
no break right after another and no other control character. -/
inductive Gapless : List Char → Prop
  | single {char : Char} : 0x20 ≤ char.toNat → Gapless [char]
  | cons {char : Char} {text : List Char} : 0x20 ≤ char.toNat → Gapless text →
      Gapless (char :: text)
  | newline {char : Char} {text : List Char} : 0x20 ≤ char.toNat → Gapless text →
      Gapless (char :: '\n' :: text)

namespace Gapless

variable {left right text : List Char}

theorem append (hleft : Gapless left) (hright : Gapless right) : Gapless (left ++ right) := by
  induction hleft with
  | single hchar => exact .cons hchar hright
  | cons hchar _ ih => exact .cons hchar ih
  | newline hchar _ ih => exact .newline hchar ih

theorem append_break (hleft : Gapless left) (hright : Gapless right) :
    Gapless (left ++ '\n' :: right) := by
  induction hleft with
  | single hchar => exact .newline hchar hright
  | cons hchar _ ih => exact .cons hchar ih
  | newline hchar _ ih => exact .newline hchar ih

theorem of_printable (hne : text ≠ []) (htext : ∀ char ∈ text, 0x20 ≤ char.toNat) :
    Gapless text := by
  induction text with
  | nil => exact absurd rfl hne
  | cons char text ih =>
      obtain ⟨hchar, htext⟩ := List.forall_mem_cons.mp htext
      cases text with
      | nil => exact .single hchar
      | cons next others => exact .cons hchar (ih (List.cons_ne_nil next others) htext)

theorem fullLine (htext : Gapless text) : ∀ line ∈ splitLines text, FullLine line := by
  have hne {char : Char} (hchar : 0x20 ≤ char.toNat) : char ≠ '\n' := by
    rintro rfl
    cases Nat.not_le.mpr (by decide) hchar
  have hsingle {char : Char} (hchar : 0x20 ≤ char.toNat) : FullLine [char] :=
    ⟨List.cons_ne_nil char [], List.forall_mem_singleton.mpr hchar⟩
  induction htext with
  | @single char hchar =>
      have hbreak : '\n' ∉ [char] := by simpa using (hne hchar).symm
      rw [splitLines_of_not_mem hbreak]
      exact List.forall_mem_singleton.mpr (hsingle hchar)
  | @cons char text hchar _ ih =>
      rw [splitLines, if_neg (hne hchar)]
      cases hlines : splitLines text with
      | nil => exact List.forall_mem_singleton.mpr (hsingle hchar)
      | cons line lines =>
          rw [hlines] at ih
          obtain ⟨hline, hlines⟩ := List.forall_mem_cons.mp ih
          refine List.forall_mem_cons.mpr ⟨⟨List.cons_ne_nil char line, ?_⟩, hlines⟩
          exact List.forall_mem_cons.mpr ⟨hchar, hline.printable⟩
  | @newline char text hchar _ ih =>
      have hbreak : '\n' ∉ [char] := by simpa using (hne hchar).symm
      have hlines := splitLines_append [char] text
      rw [splitLines_of_not_mem hbreak] at hlines
      rw [List.singleton_append] at hlines
      rw [hlines]
      exact List.forall_mem_cons.mpr ⟨hsingle hchar, ih⟩

end Gapless

theorem printable_of_all {text : List Char}
    (htext : text.all (fun char => Nat.ble 0x20 char.toNat) = true) :
    ∀ char ∈ text, 0x20 ≤ char.toNat := fun char hchar =>
  Nat.le_of_ble_eq_true (List.all_eq_true.mp htext char hchar)

/-- Control characters need only be looked for among the characters that a text is made of. -/
theorem printable_of_class (class? : Char → Bool)
    (hclass : (List.range 0x20).all (fun code => !class? (Char.ofNat code)) = true) {char : Char}
    (hchar : class? char = true) : 0x20 ≤ char.toNat := by
  by_contra hcontrol
  have hcode := List.all_eq_true.mp hclass char.toNat (List.mem_range.mpr (Nat.not_le.mp hcontrol))
  rw [Char.ofNat_toNat, hchar] at hcode
  cases hcode

theorem printable_hexText (width value : Nat) :
    ∀ char ∈ hexText width value, 0x20 ≤ char.toNat := fun char hchar =>
  printable_of_class (fun char => (hexDigit? char).isSome) (by decide)
    (hexDigit?_isSome_of_foldlM (hexValue?_hexText width value) char hchar)

namespace Json

theorem gapless_null : Gapless "null".toList :=
  .of_printable (by decide) (printable_of_all rfl)

theorem gapless_boolText (value : Bool) : Gapless (boolText value) := by
  cases value <;> exact .of_printable (by decide) (printable_of_all rfl)

theorem gapless_numberText (number : Number) : Gapless (numberText number) := by
  obtain ⟨first, rest, htext, hfirst, hrest⟩ := exists_numberText_cons number
  have hprintable {char : Char} (hchar : isNumberChar char = true) : 0x20 ≤ char.toNat :=
    printable_of_class isNumberChar (by decide) hchar
  rw [htext]
  have hfirst := hprintable (Bool.and_eq_true_iff.mp hfirst).1
  apply Gapless.of_printable (List.cons_ne_nil first rest)
  exact List.forall_mem_cons.mpr ⟨hfirst, fun char hchar => hprintable (hrest char hchar)⟩

theorem printable_escapeChar (char : Char) : ∀ escaped ∈ escapeChar char, 0x20 ≤ escaped.toNat := by
  unfold escapeChar
  split_ifs with _ _ _ _ _ _ _ hcontrol
  iterate 7 exact printable_of_all rfl
  · have hdigits := printable_hexText 4 char.toNat
    exact List.forall_mem_cons.mpr ⟨by decide, List.forall_mem_cons.mpr ⟨by decide, hdigits⟩⟩
  · exact List.forall_mem_singleton.mpr (Nat.not_lt.mp hcontrol)

/-- A string stays on one line, with its control characters escaped. -/
theorem gapless_quoted (text : String) : Gapless (quoted text) := by
  apply Gapless.of_printable (List.append_ne_nil_of_right_ne_nil _ (List.cons_ne_nil _ _))
  refine List.forall_mem_append.mpr ⟨List.forall_mem_cons.mpr ⟨by decide, ?_⟩, printable_of_all rfl⟩
  intro escaped hescaped
  obtain ⟨char, -, hescaped⟩ := List.mem_flatMap.mp hescaped
  exact printable_escapeChar char escaped hescaped

/-! ## Values -/

/-- What follows a break may be moved to the right. -/
theorem gapless_append_newline {left right : List Char} (hleft : Gapless left)
    (hright : Gapless right) (level : Nat) : Gapless (left ++ (newline level ++ right)) := by
  have hindented (width : Nat) : Gapless (List.replicate width ' ' ++ right) := by
    induction width with
    | zero => exact hright
    | succ width ih => exact .cons (by decide) ih
  exact hleft.append_break (hindented (2 * level))

theorem gapless_key (key : String) {text : List Char} (htext : Gapless text) :
    Gapless (quoted key ++ ':' :: ' ' :: text) :=
  (gapless_quoted key).append (.cons (by decide) (.cons (by decide) htext))

mutual

theorem gapless_indented (level : Nat) : (value : Json) → Gapless (indented level value)
  | .null => gapless_null
  | .bool value => gapless_boolText value
  | .number value => gapless_numberText value
  | .string value => gapless_quoted value
  | .array [] => .cons (by decide) (.single (by decide))
  | .array (item :: items) => by
      have hopen : Gapless ['['] := .single (by decide)
      have hitem := gapless_append_newline hopen (gapless_indented (level + 1) item) (level + 1)
      exact gapless_indentedItems level items hitem
  | .object [] => .cons (by decide) (.single (by decide))
  | .object ((key, value) :: members) => by
      have hopen : Gapless ['\x7b'] := .single (by decide)
      have hmember := gapless_key key (gapless_indented (level + 1) value)
      have hfirst := gapless_append_newline hopen hmember (level + 1)
      simpa [indented] using gapless_indentedMembers level members hfirst

/-- The rest of an array goes on from the item before it. -/
theorem gapless_indentedItems (level : Nat) : (items : List Json) → {before : List Char} →
    Gapless before → Gapless (before ++ indentedItems level items)
  | [], _, hbefore => gapless_append_newline hbefore (.single (by decide)) level
  | item :: items, _, hbefore => by
      have hcomma := hbefore.append (.single (show 0x20 ≤ ','.toNat by decide))
      have hitem := gapless_append_newline hcomma (gapless_indented (level + 1) item) (level + 1)
      simpa [indentedItems] using gapless_indentedItems level items hitem

theorem gapless_indentedMembers (level : Nat) : (members : Members) → {before : List Char} →
    Gapless before → Gapless (before ++ indentedMembers level members)
  | [], _, hbefore => gapless_append_newline hbefore (.single (by decide)) level
  | (key, value) :: members, _, hbefore => by
      have hcomma := hbefore.append (.single (show 0x20 ≤ ','.toNat by decide))
      have hmember := gapless_key key (gapless_indented (level + 1) value)
      have hnext := gapless_append_newline hcomma hmember (level + 1)
      simpa [indentedMembers] using gapless_indentedMembers level members hnext

end

theorem fullLine_pretty (value : Json) : ∀ line ∈ splitLines value.pretty, FullLine line :=
  (gapless_indented 0 value).fullLine

end Json

end BuilderCalls
