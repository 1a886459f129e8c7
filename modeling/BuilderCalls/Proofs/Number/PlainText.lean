import BuilderCalls.Json.Token
import BuilderCalls.Proofs.Number.Decimal
import Mathlib.Data.List.TakeWhile

/-!
# Numbers in plain notation

The text of a finite double is a sign, digits and, unless the number is whole, a point and
more digits.  `Plain` is such a text without its sign, cut at the point; its digits, read
as a decimal, are rounded to the double.  So the text determines the double, also when
other text follows that cannot belong to a number.
-/

namespace BuilderCalls

/-! ## Runs of characters -/

/-- No run of characters of the class goes on into the text. -/
def Stops (class? : Char → Bool) (text : List Char) : Prop :=
  ∀ char ∈ text.head?, class? char = false

theorem stops_cons {class? : Char → Bool} {char : Char} (hchar : class? char = false)
    (rest : List Char) : Stops class? (char :: rest) := by
  rintro first ⟨⟩
  exact hchar

theorem Stops.ne_cons {class? : Char → Bool} {text : List Char} (htext : Stops class? text)
    {char : Char} (hchar : class? char = true) (rest : List Char) : text ≠ char :: rest := by
  rintro rfl
  cases hchar.symm.trans (htext char rfl)

/-- What stops a class of characters stops each part of the class. -/
theorem Stops.part {class? part? : Char → Bool} {text : List Char} (htext : Stops class? text)
    (hpart : ∀ char, part? char = true → class? char = true) : Stops part? text := by
  intro char hchar
  refine Bool.eq_false_iff.mpr fun hmember => ?_
  cases (hpart char hmember).symm.trans (htext char hchar)

theorem Stops.takeWhile {class? : Char → Bool} {run text : List Char}
    (hrun : ∀ char ∈ run, class? char = true) (htext : Stops class? text) :
    (run ++ text).takeWhile class? = run := by
  rw [List.takeWhile_append_of_pos hrun]
  cases text with
  | nil => simp
  | cons char rest => simp [htext char rfl]

/-- Where two runs stop is where they end. -/
theorem Stops.append_inj {class? : Char → Bool} {left right rest rest' : List Char}
    (hleft : ∀ char ∈ left, class? char = true) (hright : ∀ char ∈ right, class? char = true)
    (hrest : Stops class? rest) (hrest' : Stops class? rest')
    (hsame : left ++ rest = right ++ rest') : left = right ∧ rest = rest' := by
  have hruns : left = right := by
    rw [← hrest.takeWhile hleft, hsame, hrest'.takeWhile hright]
  subst hruns
  exact ⟨rfl, List.append_cancel_left hsame⟩

/-! ## Digits -/

namespace Json

theorem digitsValue_append (left right : List Char) :
    digitsValue (left ++ right) = digitsValue left * tenTo right.length + digitsValue right := by
  change Nat.ofDigitChars 10 (left ++ right) 0 = _
  rw [Nat.ofDigitChars_append, Nat.ofDigitChars_eq_ofDigitChars_zero, Nat.mul_comm]
  rfl

theorem digitsValue_replicate_zero (count : Nat) :
    digitsValue (List.replicate count '0') = 0 := by
  change Nat.ofDigitChars 10 (List.replicate count '0') 0 = 0
  simp [Nat.ofDigitChars_replicate_zero]

theorem digitsValue_natText (value : Nat) : digitsValue (natText value) = value :=
  Nat.ofDigitChars_ten_toDigits

theorem digitsValue_append_zeros (digits : List Char) (count : Nat) :
    digitsValue (digits ++ List.replicate count '0') = digitsValue digits * tenTo count := by
  rw [digitsValue_append, digitsValue_replicate_zero, List.length_replicate, Nat.add_zero]

theorem digitsValue_zeros_append (count : Nat) (digits : List Char) :
    digitsValue (List.replicate count '0' ++ digits) = digitsValue digits := by
  rw [digitsValue_append, digitsValue_replicate_zero, Nat.zero_mul, Nat.zero_add]

end Json

theorem exists_trailingZeros (digits : List Char) :
    ∃ count, digits = dropTrailingZeros digits ++ List.replicate count '0' := by
  have hzeros : digits.reverse.takeWhile (· == '0') =
      List.replicate (digits.reverse.takeWhile (· == '0')).length '0' := by
    refine List.eq_replicate_iff.mpr ⟨rfl, fun char hchar => ?_⟩
    have hzero := List.mem_takeWhile_imp hchar
    simpa using hzero
  refine ⟨(digits.reverse.takeWhile (· == '0')).length, ?_⟩
  calc digits
      = (digits.reverse.takeWhile (· == '0') ++ digits.reverse.dropWhile (· == '0')).reverse := by
        rw [List.takeWhile_append_dropWhile, List.reverse_reverse]
    _ = dropTrailingZeros digits ++ (digits.reverse.takeWhile (· == '0')).reverse :=
        List.reverse_append
    _ = _ := by rw [hzeros, List.reverse_replicate, List.length_replicate]

/-! ## Plain texts -/

def isPlainChar (char : Char) : Bool :=
  char.isDigit || char = '.' || char = '-'

/-- Digits before and after the point; where none come after it there is no point. -/
structure Plain where
  whole : List Char
  fraction : List Char
  whole_ne_nil : whole ≠ []
  digits : ∀ char ∈ whole ++ fraction, char.isDigit = true

namespace Plain

def text (plain : Plain) : List Char :=
  plain.whole ++ if plain.fraction = [] then [] else '.' :: plain.fraction

def decimal (plain : Plain) : Decimal :=
  ⟨Json.digitsValue (plain.whole ++ plain.fraction), -plain.fraction.length⟩

theorem exists_cons (plain : Plain) : ∃ digit rest, digit.isDigit = true ∧
    plain.text = digit :: rest := by
  obtain ⟨digit, rest, hwhole⟩ := List.exists_cons_of_ne_nil plain.whole_ne_nil
  exact ⟨digit, _, plain.digits digit (by simp [hwhole]), by rw [text, hwhole]; rfl⟩

theorem isPlainChar_of_mem {plain : Plain} {char : Char} (hchar : char ∈ plain.text) :
    isPlainChar char = true := by
  have hdigit : ∀ digit ∈ plain.whole ++ plain.fraction, isPlainChar digit = true := by
    intro digit hmem
    simp [isPlainChar, plain.digits digit hmem]
  rw [text, List.mem_append] at hchar
  rcases hchar with hchar | hchar
  · exact hdigit char (List.mem_append_left _ hchar)
  · split at hchar
    · cases hchar
    · rcases List.mem_cons.mp hchar with rfl | hchar
      · rfl
      · exact hdigit char (List.mem_append_right _ hchar)

variable {left right : Plain} {rest rest' : List Char}

/-- What follows the whole digits begins with no digit. -/
theorem stops_fraction (plain : Plain) (hrest : Stops isPlainChar rest) :
    Stops Char.isDigit
      ((if plain.fraction = [] then [] else '.' :: plain.fraction) ++ rest) := by
  split
  · exact hrest.part fun char hchar => by simp [isPlainChar, hchar]
  · exact stops_cons rfl _

theorem append_inj (hrest : Stops isPlainChar rest) (hrest' : Stops isPlainChar rest')
    (hsame : left.text ++ rest = right.text ++ rest') :
    left.decimal = right.decimal ∧ rest = rest' := by
  rw [text, text, List.append_assoc, List.append_assoc] at hsame
  obtain ⟨hwhole, hsame⟩ := Stops.append_inj
    (fun char hchar => left.digits char (List.mem_append_left _ hchar))
    (fun char hchar => right.digits char (List.mem_append_left _ hchar))
    (left.stops_fraction hrest) (right.stops_fraction hrest') hsame
  split at hsame <;> split at hsame
  next hleft hright => exact ⟨by rw [decimal, decimal, hwhole, hleft, hright], hsame⟩
  next => exact absurd hsame (hrest.ne_cons rfl _)
  next => exact absurd hsame.symm (hrest'.ne_cons rfl _)
  next =>
    obtain ⟨hfraction, hsame⟩ := Stops.append_inj
      (fun char hchar => left.digits char (List.mem_append_right _ hchar))
      (fun char hchar => right.digits char (List.mem_append_right _ hchar))
      (hrest.part fun char hchar => by simp [isPlainChar, hchar])
      (hrest'.part fun char hchar => by simp [isPlainChar, hchar]) (List.cons.inj hsame).2
    exact ⟨by rw [decimal, decimal, hwhole, hfraction], hsame⟩

/-- A digit comes first, so a sign is seen. -/
theorem signText_append_inj {negative negative' : Bool}
    (hsame : signText negative ++ left.text ++ rest = signText negative' ++ right.text ++ rest') :
    negative = negative' ∧ left.text ++ rest = right.text ++ rest' := by
  obtain ⟨digit, digits, hdigit, hleft⟩ := left.exists_cons
  obtain ⟨digit', digits', hdigit', hright⟩ := right.exists_cons
  cases negative <;> cases negative'
  case false.false => exact ⟨rfl, hsame⟩
  case true.true => exact ⟨rfl, (List.cons.inj hsame).2⟩
  case false.true =>
    rw [hleft] at hsame
    cases (List.cons.inj hsame).1
    cases hdigit
  case true.false =>
    rw [hright] at hsame
    cases (List.cons.inj hsame).1
    cases hdigit'

end Plain

namespace Significant

/-- Some digits, and nothing else. -/
structure Proper (number : Significant) : Prop where
  ne_nil : number.digits ≠ []
  digits : ∀ char ∈ number.digits, char.isDigit = true

/-- The number that significant digits stand for. -/
def decimal (number : Significant) : Decimal :=
  ⟨Json.digitsValue number.digits, number.point - number.digits.length⟩

variable {decimal : Decimal}

theorem proper_ofDecimal (hpos : 0 < decimal.digits) : (ofDecimal decimal).Proper := by
  obtain ⟨count, hdigits⟩ := exists_trailingZeros (natText decimal.digits)
  refine ⟨fun hnil => ?_, fun char hchar => ?_⟩
  · have hvalue := Json.digitsValue_natText decimal.digits
    rw [hdigits, Json.digitsValue_append_zeros, show dropTrailingZeros _ = [] from hnil] at hvalue
    simp [Json.digitsValue] at hvalue
    omega
  · have hmem : char ∈ natText decimal.digits := by
      rw [hdigits]
      exact List.mem_append_left _ hchar
    exact Nat.isDigit_of_mem_toDigits (by decide) (by decide) hmem

theorem toDouble_ofDecimal (negative : Bool) (decimal : Decimal) :
    (ofDecimal decimal).decimal.toDouble negative = decimal.toDouble negative := by
  obtain ⟨count, hdigits⟩ := exists_trailingZeros (natText decimal.digits)
  have hvalue := Json.digitsValue_natText decimal.digits
  rw [hdigits, Json.digitsValue_append_zeros] at hvalue
  have hlength := congrArg List.length hdigits
  rw [List.length_append, List.length_replicate] at hlength
  have hexponent : (ofDecimal decimal).decimal.exponent = decimal.exponent + count := by
    simp only [ofDecimal, Significant.decimal]
    omega
  calc (ofDecimal decimal).decimal.toDouble negative
      = Decimal.toDouble negative ⟨Json.digitsValue (dropTrailingZeros (natText decimal.digits)),
          decimal.exponent + count⟩ := by
        rw [← hexponent]
        rfl
    _ = Decimal.toDouble negative ⟨decimal.digits, decimal.exponent⟩ := by
        rw [← Decimal.toDouble_mul_tenTo, hvalue]

variable {number : Significant}

/-- The number is written as the plain text, with no change of its value. -/
def WrittenAs (number : Significant) (plain : Plain) : Prop :=
  number.positional = plain.text ∧
    ∀ negative, plain.decimal.toDouble negative = number.decimal.toDouble negative

namespace Proper

variable (hproper : number.Proper)

include hproper

theorem exists_plain_of_small (hpoint : number.point ≤ 0) :
    ∃ plain, number.WrittenAs plain := by
  have hdigits : ∀ char ∈ ['0'] ++ (List.replicate (-number.point).toNat '0' ++ number.digits),
      char.isDigit = true := by
    intro char hchar
    simp only [List.mem_append, List.mem_singleton, List.mem_replicate] at hchar
    rcases hchar with rfl | ⟨-, rfl⟩ | hchar
    · rfl
    · rfl
    · exact hproper.digits char hchar
  have hvalue : Json.digitsValue
      (['0'] ++ (List.replicate (-number.point).toNat '0' ++ number.digits)) =
        Json.digitsValue number.digits := by
    rw [show ['0'] = List.replicate 1 '0' from rfl, Json.digitsValue_zeros_append,
      Json.digitsValue_zeros_append]
  refine ⟨⟨['0'], _, nofun, hdigits⟩, ?_, fun negative => ?_⟩
  · simp [positional, hpoint, Plain.text, hproper.ne_nil]
  · simp only [Plain.decimal, decimal, hvalue, List.length_append, List.length_replicate]
    congr 2
    omega

theorem exists_plain_of_whole (hpoint : 0 < number.point)
    (hwhole : number.digits.length ≤ number.point.toNat) :
    ∃ plain, number.WrittenAs plain := by
  have hne : number.digits ++
      List.replicate (number.point.toNat - number.digits.length) '0' ≠ [] :=
    List.append_ne_nil_of_left_ne_nil hproper.ne_nil _
  have hdigits : ∀ char ∈ number.digits ++
      List.replicate (number.point.toNat - number.digits.length) '0' ++ [],
        char.isDigit = true := by
    intro char hchar
    simp only [List.append_nil, List.mem_append, List.mem_replicate] at hchar
    rcases hchar with hchar | ⟨-, rfl⟩
    · exact hproper.digits char hchar
    · rfl
  refine ⟨⟨_, [], hne, hdigits⟩, ?_, fun negative => ?_⟩
  · simp [positional, Int.not_le.mpr hpoint, hwhole, Plain.text]
  · simp only [Plain.decimal, decimal, List.append_nil, Json.digitsValue_append_zeros]
    rw [Decimal.toDouble_mul_tenTo]
    congr 2
    simp only [List.length_nil]
    omega

theorem exists_plain_of_mixed (hpoint : 0 < number.point)
    (hmixed : number.point.toNat < number.digits.length) :
    ∃ plain, number.WrittenAs plain := by
  have hne : number.digits.take number.point.toNat ≠ [] := by
    rw [ne_eq, List.take_eq_nil_iff]
    rintro (hzero | hnil)
    · omega
    · exact hproper.ne_nil hnil
  have hdigits : ∀ char ∈ number.digits.take number.point.toNat ++
      number.digits.drop number.point.toNat, char.isDigit = true := by
    rw [List.take_append_drop]
    exact hproper.digits
  have hfraction : number.digits.drop number.point.toNat ≠ [] := by
    rw [ne_eq, List.drop_eq_nil_iff]
    omega
  refine ⟨⟨_, _, hne, hdigits⟩, ?_, fun negative => ?_⟩
  · simp [positional, Int.not_le.mpr hpoint, Nat.not_le.mpr hmixed, Plain.text, hfraction]
  · simp only [Plain.decimal, decimal, List.take_append_drop, List.length_drop]
    congr 2
    omega

theorem exists_plain : ∃ plain, number.WrittenAs plain := by
  by_cases hpoint : number.point ≤ 0
  · exact hproper.exists_plain_of_small hpoint
  · by_cases hwhole : number.digits.length ≤ number.point.toNat
    · exact hproper.exists_plain_of_whole (by omega) hwhole
    · exact hproper.exists_plain_of_mixed (by omega) (by omega)

end Proper

end Significant

namespace Double

/-- The text of a finite double is its sign and a plain text that reads back to it. -/
theorem exists_plain {double : Double} (hfinite : double.isFinite = true) :
    ∃ plain : Plain, double.plainText = signText double.negative ++ plain.text ∧
      plain.decimal.toDouble double.negative = double := by
  have hlt : double.magnitude < infiniteMagnitude := of_decide_eq_true hfinite
  have hnumber : double.isNaN = false := by
    simp only [isNaN, decide_eq_false_iff_not]
    omega
  rcases Nat.eq_zero_or_pos double.magnitude with hzero | hpos
  · have hdigits : ['0'].all Char.isDigit = true := rfl
    refine ⟨⟨['0'], [], nofun, List.all_eq_true.mp hdigits⟩, ?_, ?_⟩
    · simp [plainText, hnumber, hfinite, isZero, hzero, Plain.text]
    · cases double
      simp_all [Decimal.toDouble_eq, Plain.decimal, Json.digitsValue, zero]
  · have hreads := Decimal.readsBack_shortest .up hpos hlt
    have hdigits : 0 < (Decimal.shortest .up double.magnitude).digits :=
      Decimal.digits_pos_of_readsBack hpos hreads
    obtain ⟨plain, htext, hvalue⟩ := (Significant.proper_ofDecimal hdigits).exists_plain
    refine ⟨plain, ?_, ?_⟩
    · simp [plainText, hnumber, hfinite, isZero, hpos.ne', htext]
    · rw [hvalue, Significant.toDouble_ofDecimal, Decimal.toDouble_of_readsBack hreads]

theorem isPlainChar_of_mem {double : Double} (hfinite : double.isFinite = true) {char : Char}
    (hchar : char ∈ double.plainText) : isPlainChar char = true := by
  obtain ⟨plain, htext, -⟩ := exists_plain hfinite
  rw [htext, List.mem_append] at hchar
  rcases hchar with hsign | hchar
  · cases hnegative : double.negative <;> simp_all [signText, isPlainChar]
  · exact Plain.isPlainChar_of_mem hchar

theorem plainText_ne_nil {double : Double} (hfinite : double.isFinite = true) :
    double.plainText ≠ [] := by
  obtain ⟨plain, htext, -⟩ := exists_plain hfinite
  obtain ⟨digit, rest, -, hcons⟩ := plain.exists_cons
  simp [htext, hcons]

/-- The text of a finite double ends where no more of a number follows, and determines it. -/
theorem plainText_append_inj {left right : Double} (hleft : left.isFinite = true)
    (hright : right.isFinite = true) {rest rest' : List Char} (hrest : Stops isPlainChar rest)
    (hrest' : Stops isPlainChar rest') (hsame : left.plainText ++ rest = right.plainText ++ rest') :
    left = right ∧ rest = rest' := by
  obtain ⟨plain, htext, hvalue⟩ := exists_plain hleft
  obtain ⟨plain', htext', hvalue'⟩ := exists_plain hright
  have hsign : left.negative = right.negative ∧ plain.text ++ rest = plain'.text ++ rest' :=
    Plain.signText_append_inj (by rwa [htext, htext'] at hsame)
  obtain ⟨hdecimal, hrest⟩ := Plain.append_inj hrest hrest' hsign.2
  rw [← hvalue, ← hvalue', hsign.1, hdecimal]
  exact ⟨rfl, hrest⟩

end Double

end BuilderCalls
