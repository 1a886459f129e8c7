import BuilderCalls.Rendering
import Mathlib.Tactic.NormNum
import Mathlib.Tactic.SplitIfs

/-!
# Reading strings back

`readString?` reads source text after an opening quote as JavaScript does: up to the
first quote of the style that no backslash stands before, with no end of a line on the way.
Of the escapes it knows those of one letter and those of four hexadecimal digits.  What the
renderer puts between quotes is read back to the string, and the text after the closing
quote is left.
-/

namespace BuilderCalls

/-! ## Hexadecimal digits -/

def hexValue? (digits : List Char) : Option Nat :=
  digits.foldlM (fun value digit => (hexDigit? digit).map (16 * value + ·)) 0

theorem hexDigit?_digitChar :
    ∀ digit < 16, hexDigit? (Nat.digitChar digit) = some digit := by
  decide

theorem hexValue?_toDigits (value : Nat) : hexValue? (Nat.toDigits 16 value) = some value := by
  induction value using Nat.strongRecOn with
  | ind value ih =>
      by_cases hsmall : value < 16
      · rw [Nat.toDigits_of_lt_base hsmall]
        simp [hexValue?, hexDigit?_digitChar value hsmall]
      · have hdigit := hexDigit?_digitChar (value % 16) (Nat.mod_lt _ (by decide))
        have hinit := ih (value / 16) (by omega)
        rw [hexValue?] at hinit
        rw [Nat.toDigits_of_base_le (by decide) (by omega), hexValue?, List.foldlM_append, hinit]
        simp [hdigit, Nat.div_add_mod]

theorem hexValue?_replicate_zero_append (count : Nat) (digits : List Char) :
    hexValue? (List.replicate count '0' ++ digits) = hexValue? digits := by
  induction count with
  | zero => rfl
  | succ count ih => exact ih

theorem hexValue?_hexText (width value : Nat) : hexValue? (hexText width value) = some value := by
  unfold hexText
  rw [hexValue?_replicate_zero_append, hexValue?_toDigits]

theorem length_hexText {width value : Nat} (hwidth : 0 < width) (hvalue : value < 16 ^ width) :
    (hexText width value).length = width := by
  have hlength := (Nat.length_toDigits_le_iff (by decide) hwidth).mpr hvalue
  simp only [hexText, List.length_append, List.length_replicate]
  omega

/-! ## Reading -/

/-- The character that a backslash and one more character stand for. -/
def escapeMeaning? (quote mark : Char) : Option Char :=
  if mark = '\\' then some '\\'
  else if mark = 'n' then some '\n'
  else if mark = 'r' then some '\r'
  else if mark = 't' then some '\t'
  else if mark = 'b' then some '\x08'
  else if mark = 'v' then some '\x0b'
  else if mark = 'f' then some '\x0c'
  else if mark = quote then some quote
  else none

/-- The character that a code unit stands for; half of a surrogate pair stands for none. -/
def scalar? (value : Nat) : Option Char :=
  if value.isValidChar then some (Char.ofNat value) else none

theorem scalar?_toNat (char : Char) : scalar? char.toNat = some char := by
  rw [scalar?, if_pos (show char.toNat.isValidChar from char.valid), Char.ofNat_toNat]

def precede (char : Char) (found : List Char × List Char) : List Char × List Char :=
  (char :: found.1, found.2)

/-- The characters up to the closing quote and the text after it. -/
def readString? (quote : Char) : List Char → Option (List Char × List Char)
  | [] => none
  | char :: text =>
      if char = quote then some ([], text)
      else if char = '\\' then
        match text with
        | 'u' :: first :: second :: third :: fourth :: text =>
            ((hexValue? [first, second, third, fourth]).bind scalar?).bind fun meant =>
              (readString? quote text).map (precede meant)
        | mark :: text =>
            (escapeMeaning? quote mark).bind fun meant =>
              (readString? quote text).map (precede meant)
        | [] => none
      else if isLineEnd char then none
      else (readString? quote text).map (precede char)

section Escapes

variable {quote : Char} {text : List Char}

theorem readString?_escape {mark meant : Char} (hquote : quote ≠ '\\') (hmark : mark ≠ 'u')
    (hmeant : escapeMeaning? quote mark = some meant) :
    readString? quote ('\\' :: mark :: text) = (readString? quote text).map (precede meant) := by
  rw [readString?.eq_def]
  simp [hquote.symm, hmark, hmeant]

theorem readString?_unit {char : Char} (hquote : quote ≠ '\\') (hchar : char.toNat < 0x10000) :
    readString? quote (unicodeEscape char ++ text) =
      (readString? quote text).map (precede char) := by
  have hlength := length_hexText (show 0 < 4 by decide) hchar
  have hvalue := hexValue?_hexText 4 char.toNat
  match hdigits : hexText 4 char.toNat, hlength with
  | [first, second, third, fourth], _ =>
    rw [hdigits] at hvalue
    rw [unicodeEscape, hdigits, readString?.eq_def]
    simp [hquote.symm, hvalue, scalar?_toNat]

theorem readString?_plain {char : Char} (hquote : char ≠ quote) (hescape : char ≠ '\\')
    (hline : isLineEnd char = false) :
    readString? quote (char :: text) = (readString? quote text).map (precede char) := by
  rw [readString?.eq_def]
  simp [hquote, hescape, hline]

end Escapes

namespace Quote

variable (quote : Quote)

theorem char_ne_backslash : quote.char ≠ '\\' := by
  cases quote <;> decide

theorem char_ne_u : quote.char ≠ 'u' := by
  cases quote <;> decide

theorem escapeMeaning?_char : escapeMeaning? quote.char quote.char = some quote.char := by
  cases quote <;> decide

/-- The texts that may stand for a character between quotes. -/
inductive Escaped (char : Char) : List Char → Prop
  | mark {mark : Char} (hmark : mark ≠ 'u')
      (hmeant : escapeMeaning? quote.char mark = some char) : Escaped char ['\\', mark]
  | unit (hchar : char.toNat < 0x10000) : Escaped char (unicodeEscape char)
  | plain (hquote : char ≠ quote.char) (hescape : char ≠ '\\')
      (hline : isLineEnd char = false) : Escaped char [char]

theorem escaped_escapeChar (char : Char) : quote.Escaped char (quote.escapeChar char) := by
  unfold escapeChar
  split_ifs with hbackslash hnewline hreturn htab hbackspace hvertical hfeed hquote hcontrol
  · subst hbackslash
    exact .mark (by decide) rfl
  · subst hnewline
    exact .mark (by decide) rfl
  · subst hreturn
    exact .mark (by decide) rfl
  · subst htab
    exact .mark (by decide) rfl
  · subst hbackspace
    exact .mark (by decide) rfl
  · subst hvertical
    exact .mark (by decide) rfl
  · subst hfeed
    exact .mark (by decide) rfl
  · subst hquote
    exact .mark quote.char_ne_u quote.escapeMeaning?_char
  · refine .unit ?_
    simp only [isControl, Bool.or_eq_true, Bool.and_eq_true, decide_eq_true_eq] at hcontrol
    rcases hcontrol with ((hlow | ⟨-, hhigh⟩) | rfl) | rfl
    · omega
    · omega
    · decide
    · decide
  · refine .plain hquote hbackslash ?_
    simp_all [isLineEnd]

variable {quote}

/-- One character is read back, whatever text it was escaped to. -/
theorem Escaped.readString? {char : Char} {escaped : List Char}
    (hescaped : quote.Escaped char escaped) (text : List Char) :
    readString? quote.char (escaped ++ text) =
      (BuilderCalls.readString? quote.char text).map (precede char) := by
  cases hescaped with
  | mark hmark hmeant => exact readString?_escape quote.char_ne_backslash hmark hmeant
  | unit hchar => exact readString?_unit quote.char_ne_backslash hchar
  | plain hquote hescape hline => exact readString?_plain hquote hescape hline

theorem readString?_escaped (chars rest : List Char) :
    readString? quote.char (chars.flatMap quote.escapeChar ++ quote.char :: rest) =
      some (chars, rest) := by
  induction chars with
  | nil =>
      rw [List.flatMap_nil, List.nil_append, readString?.eq_def]
      simp
  | cons char chars ih =>
      rw [List.flatMap_cons, List.append_assoc, (quote.escaped_escapeChar char).readString?, ih]
      rfl

/-- A string in quotes shows where it ends, and which string it is. -/
theorem quoted_append_inj {left right : String} {rest rest' : List Char}
    (hsame : quote.quoted left ++ rest = quote.quoted right ++ rest') :
    left = right ∧ rest = rest' := by
  simp only [quoted, List.cons_append, List.append_assoc, List.nil_append, List.cons.injEq,
    true_and] at hsame
  have hread := congrArg (readString? quote.char) hsame
  rw [readString?_escaped, readString?_escaped, Option.some.injEq, Prod.mk.injEq,
    String.toList_inj] at hread
  exact hread

/-- Source text read as a string literal of the style: the string, and the text after it. -/
def readQuoted? (quote : Quote) : List Char → Option (String × List Char)
  | [] => none
  | char :: source =>
      if char = quote.char then
        (readString? quote.char source).map fun found => (String.ofList found.1, found.2)
      else none

/--
A string in quotes, whatever text follows, is read as that very string, and the reading stops
where the string was written to end.
-/
theorem quoted_strings_are_read_back (quote : Quote) (text : String) (rest : List Char) :
    quote.readQuoted? (quote.quoted text ++ rest) = some (text, rest) := by
  have hsplit : quote.quoted text ++ rest =
      quote.char :: (text.toList.flatMap quote.escapeChar ++ quote.char :: rest) := by
    simp only [quoted, List.cons_append, List.append_assoc, List.nil_append]
  rw [hsplit, readQuoted?, if_pos rfl, readString?_escaped, Option.map_some, String.ofList_toList]

-- The escape takes four digits, so the digit that follows it is read as a character.
example : Quote.single.quoted "\u20281'" = "'\\u20281\\''".toList := by
  decide +kernel

end Quote

end BuilderCalls
