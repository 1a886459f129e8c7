import BuilderCalls.Json.Printer
import BuilderCalls.Proofs.Number.PlainText

/-!
# Numbers in JSON texts

A number in a JSON text is a sign and a numeral: whole digits without a leading zero, perhaps
a point and more digits, and perhaps an exponent.  The reader takes the text of a numeral
apart where the printer put it together.  An integer is printed without a point and an
exponent and a double with one of the two, so every number is read back as it was.
-/

namespace BuilderCalls

/-- No zero stands in front of another character. -/
def NoLeadingZero (digits : List Char) : Prop :=
  ∀ next rest, digits ≠ '0' :: next :: rest

theorem noLeadingZero_of_head? {digits : List Char} (hhead : digits.head? ≠ some '0') :
    NoLeadingZero digits := by
  rintro next rest rfl
  exact hhead rfl

theorem noLeadingZero_singleton (digit : Char) : NoLeadingZero [digit] := by
  intro next rest hdigits
  cases (List.cons.inj hdigits).2

theorem head?_append_of_ne_nil {left : List Char} (hne : left ≠ []) (right : List Char) :
    (left ++ right).head? = left.head? := by
  obtain ⟨first, rest, rfl⟩ := List.exists_cons_of_ne_nil hne
  rfl

theorem digitChar_ne_zero : ∀ digit < 10, 0 < digit → Nat.digitChar digit ≠ '0' := by
  decide

theorem head?_natText_ne_zero {value : Nat} (hpos : 0 < value) :
    (natText value).head? ≠ some '0' := by
  induction value using Nat.strongRecOn with
  | ind value ih =>
      by_cases hsmall : value < 10
      · rw [natText, Nat.toDigits_of_lt_base hsmall]
        exact fun hzero => digitChar_ne_zero value hsmall hpos (Option.some.inj hzero)
      · have hlead : (natText (value / 10)).head? ≠ some '0' := ih _ (by omega) (by omega)
        rw [natText, Nat.toDigits_of_base_le (by decide) (by omega),
          head?_append_of_ne_nil Nat.toDigits_ne_nil]
        exact hlead

/-- The last zeros are no leading ones. -/
theorem head?_dropTrailingZeros {digits : List Char} (hne : dropTrailingZeros digits ≠ []) :
    (dropTrailingZeros digits).head? = digits.head? := by
  obtain ⟨count, hdigits⟩ := exists_trailingZeros digits
  conv_rhs => rw [hdigits, head?_append_of_ne_nil hne]

theorem noLeadingZero_natText (value : Nat) : NoLeadingZero (natText value) := by
  rcases Nat.eq_zero_or_pos value with rfl | hpos
  · intro next rest hzero
    simp [natText, Nat.toDigits_zero] at hzero
  · exact noLeadingZero_of_head? (head?_natText_ne_zero hpos)

theorem isDigit_of_mem_natText {value : Nat} {char : Char} (hchar : char ∈ natText value) :
    char.isDigit = true :=
  Nat.isDigit_of_mem_toDigits (by decide) (by decide) hchar

namespace Json

/-! ## Numerals -/

/-- A JSON number without its sign, taken apart at its point and at its exponent. -/
structure Numeral where
  whole : List Char
  fraction : Option (List Char)
  exponent : Option Int

def fractionText : Option (List Char) → List Char
  | none => []
  | some digits => '.' :: digits

def exponentText : Option Int → List Char
  | none => []
  | some exponent => 'e' :: (if exponent < 0 then '-' else '+') :: natText exponent.natAbs

namespace Numeral

def text (numeral : Numeral) : List Char :=
  numeral.whole ++ (fractionText numeral.fraction ++ exponentText numeral.exponent)

def digits (numeral : Numeral) : List Char :=
  numeral.whole ++ numeral.fraction.getD []

def decimal (numeral : Numeral) : Decimal :=
  ⟨digitsValue numeral.digits,
    numeral.exponent.getD 0 - (numeral.fraction.getD []).length⟩

structure Proper (numeral : Numeral) : Prop where
  whole_ne_nil : numeral.whole ≠ []
  fraction_ne_nil : numeral.fraction ≠ some []
  digits : ∀ char ∈ numeral.digits, char.isDigit = true
  leading : NoLeadingZero numeral.whole

theorem none_ne_some_nil : (none : Option (List Char)) ≠ some [] :=
  (Option.some_ne_none []).symm

theorem some_cons_ne_some_nil (first : Char) (rest : List Char) :
    some (first :: rest) ≠ some [] :=
  fun hnil => List.cons_ne_nil first rest (Option.some.inj hnil)

/-- A numeral with a point or an exponent, which cannot be taken for an integer. -/
def IsDouble (numeral : Numeral) : Prop :=
  numeral.fraction.isSome || numeral.exponent.isSome

end Numeral

/-! ## Reading numerals -/

section Reading

variable {run rest : List Char}

theorem digits?_append (hne : run ≠ []) (hrun : ∀ char ∈ run, char.isDigit = true)
    (hrest : Stops Char.isDigit rest) : digits? (run ++ rest) = some (run, rest) := by
  have htake : (run ++ rest).takeWhile Char.isDigit = run := hrest.takeWhile hrun
  have hdrop : (run ++ rest).dropWhile Char.isDigit = rest := by
    have hparts := List.takeWhile_append_dropWhile (p := Char.isDigit) (l := run ++ rest)
    rw [htake] at hparts
    exact List.append_cancel_left hparts
  unfold digits?
  split
  · next hnil => exact absurd (htake.symm.trans hnil) hne
  · rw [htake, hdrop]

theorem wholePart?_append (hne : run ≠ []) (hrun : ∀ char ∈ run, char.isDigit = true)
    (hleading : NoLeadingZero run) (hrest : Stops Char.isDigit rest) :
    wholePart? (run ++ rest) = some (run, rest) := by
  unfold wholePart?
  rw [digits?_append hne hrun hrest]
  split
  · next _ hfound =>
      exact absurd (Prod.mk.inj (Option.some.inj hfound)).1 (hleading _ _)
  · rfl

theorem stops_exponentText (exponent : Option Int) :
    Stops Char.isDigit (exponentText exponent) := by
  cases exponent with
  | none => nofun
  | some exponent => exact stops_cons rfl _

theorem stops_fractionText (fraction : Option (List Char)) (exponent : Option Int) :
    Stops Char.isDigit (fractionText fraction ++ exponentText exponent) := by
  cases fraction with
  | none => exact stops_exponentText exponent
  | some digits => exact stops_cons rfl _

theorem fraction?_fractionText {fraction : Option (List Char)} (exponent : Option Int)
    (hne : fraction ≠ some []) (hdigits : ∀ char ∈ fraction.getD [], char.isDigit = true) :
    fraction? (fractionText fraction ++ exponentText exponent) =
      some (fraction, exponentText exponent) := by
  cases fraction with
  | none => cases exponent <;> rfl
  | some digits =>
      have hread : digits? (digits ++ exponentText exponent) =
          some (digits, exponentText exponent) :=
        digits?_append (fun hnil => hne (congrArg some hnil)) hdigits (stops_exponentText exponent)
      simp [fractionText, fraction?, hread]

theorem exponentDigits?_natText (negative : Bool) (value : Nat) :
    exponentDigits? negative (natText value) =
      some (if negative then -(value : Int) else value) := by
  have hread : digits? (natText value) = some (natText value, []) := by
    have happend : digits? (natText value ++ []) = some (natText value, []) :=
      digits?_append Nat.toDigits_ne_nil (fun char => isDigit_of_mem_natText) nofun
    rwa [List.append_nil] at happend
  simp [exponentDigits?, hread, digitsValue_natText]

theorem exponent?_exponentText (exponent : Option Int) :
    exponent? (exponentText exponent) = some exponent := by
  cases exponent with
  | none => rfl
  | some exponent =>
      by_cases hnegative : exponent < 0
      · simp only [exponentText, exponent?, hnegative, if_true, exponentDigits?_natText,
          Option.map_some, decide_true, Bool.true_or]
        congr
        omega
      · simp only [exponentText, exponent?, hnegative, if_false, exponentDigits?_natText,
          Option.map_some, decide_true, Bool.true_or, if_true, Bool.false_eq_true]
        congr
        omega

end Reading

namespace Numeral

variable {numeral : Numeral}

/-- The reader finds the parts that the text was made of. -/
theorem Proper.unsignedNumber?_text (hproper : numeral.Proper) (negative : Bool) :
    unsignedNumber? negative numeral.text =
      numberOfParts? negative numeral.whole numeral.fraction numeral.exponent := by
  have hwhole : ∀ char ∈ numeral.whole, char.isDigit = true := fun char hchar =>
    hproper.digits char (List.mem_append_left _ hchar)
  have hfraction : ∀ char ∈ numeral.fraction.getD [], char.isDigit = true := fun char hchar =>
    hproper.digits char (List.mem_append_right _ hchar)
  simp only [unsignedNumber?, text, wholePart?_append hproper.whole_ne_nil hwhole hproper.leading
    (stops_fractionText _ _), fraction?_fractionText _ hproper.fraction_ne_nil hfraction,
    exponent?_exponentText, Option.bind_eq_bind, Option.bind_some]

/-- A digit comes first. -/
theorem Proper.exists_cons (hproper : numeral.Proper) :
    ∃ digit rest, digit.isDigit = true ∧ numeral.text = digit :: rest := by
  obtain ⟨digit, rest, hwhole⟩ := List.exists_cons_of_ne_nil hproper.whole_ne_nil
  have hdigit := hproper.digits digit (by simp [Numeral.digits, hwhole])
  exact ⟨digit, _, hdigit, by rw [text, hwhole]; rfl⟩

theorem Proper.numberOfText?_text (hproper : numeral.Proper) (negative : Bool) :
    numberOfText? (signText negative ++ numeral.text) =
      numberOfParts? negative numeral.whole numeral.fraction numeral.exponent := by
  rw [← hproper.unsignedNumber?_text]
  cases negative with
  | true => rfl
  | false =>
      obtain ⟨digit, rest, hdigit, htext⟩ := hproper.exists_cons
      rw [signText, htext]
      unfold numberOfText?
      split
      · next hsame =>
          cases (List.cons.inj hsame).1
          cases hdigit
      · rfl

theorem IsDouble.numberOfParts? (hdouble : numeral.IsDouble) (negative : Bool) :
    numberOfParts? negative numeral.whole numeral.fraction numeral.exponent =
      Number.ofDouble? (numeral.decimal.toDouble negative) := by
  have hnone : (numeral.fraction.isNone && numeral.exponent.isNone) = false := by
    unfold IsDouble at hdouble
    cases hfraction : numeral.fraction <;> cases hexponent : numeral.exponent <;>
      simp_all
  simp [Json.numberOfParts?, hnone, decimal, digits]

end Numeral

end Json

/-! ## Doubles -/

namespace Significant

/-- The numeral is a JSON form of the number in which it is seen to be a double. -/
structure SpelledBy (number : Significant) (numeral : Json.Numeral) : Prop where
  proper : numeral.Proper
  double : numeral.IsDouble
  value : ∀ negative, numeral.decimal.toDouble negative = number.decimal.toDouble negative

variable {number : Significant}

theorem head?_ofDecimal {decimal : Decimal} (hpos : 0 < decimal.digits) :
    (ofDecimal decimal).digits.head? ≠ some '0' := by
  have hhead : (ofDecimal decimal).digits.head? = (natText decimal.digits).head? :=
    head?_dropTrailingZeros (proper_ofDecimal hpos).ne_nil
  rw [hhead]
  exact head?_natText_ne_zero hpos

theorem point_mem_positional_iff (hproper : number.Proper) :
    '.' ∈ number.positional ↔ number.point < number.digits.length := by
  have hdigits : '.' ∉ number.digits := fun hpoint => by cases hproper.digits _ hpoint
  have hlength := List.length_pos_iff.mpr hproper.ne_nil
  simp only [positional]
  split_ifs with hpoint hwhole
  · simp
    omega
  · simp [hdigits]
    omega
  · simp
    omega

/-- The digits before the point begin with zero only if zero is all there is. -/
theorem WrittenAs.leading {plain : Plain} (hwritten : number.WrittenAs plain)
    (hproper : number.Proper) (hhead : number.digits.head? ≠ some '0') :
    NoLeadingZero plain.whole := by
  intro next rest hwhole
  have hnext : next.isDigit = true := plain.digits next (by simp [hwhole])
  obtain ⟨tail, htext⟩ : ∃ tail, number.positional = '0' :: next :: tail :=
    ⟨_, by rw [hwritten.1, Plain.text, hwhole]; rfl⟩
  obtain ⟨first, others, hdigits⟩ := List.exists_cons_of_ne_nil hproper.ne_nil
  have hfirst : first ≠ '0' := fun hzero => hhead (by rw [hdigits, hzero]; rfl)
  by_cases hpoint : number.point ≤ 0
  · simp only [positional, hpoint, if_true] at htext
    cases (List.cons.inj (List.cons.inj htext).2).1
    cases hnext
  · obtain ⟨count, hcount⟩ : ∃ count, number.point.toNat = count + 1 :=
      ⟨number.point.toNat - 1, by omega⟩
    simp only [positional, hpoint, if_false, hdigits, hcount] at htext
    split at htext
    · exact hfirst (List.cons.inj htext).1
    · exact hfirst (List.cons.inj htext).1

theorem WrittenAs.fraction_eq_nil_iff {plain : Plain} (hwritten : number.WrittenAs plain)
    (hproper : number.Proper) : plain.fraction = [] ↔ number.digits.length ≤ number.point := by
  have hpoint := point_mem_positional_iff hproper
  have hwhole : '.' ∉ plain.whole := fun hpoint => by
    cases plain.digits _ (List.mem_append_left _ hpoint)
  rw [hwritten.1, Plain.text, List.mem_append] at hpoint
  rw [← not_lt, ← hpoint]
  split <;> simp_all

theorem exists_positional (hproper : number.Proper) (hhead : number.digits.head? ≠ some '0') :
    ∃ numeral, number.SpelledBy numeral ∧ numeral.text =
      if number.digits.length ≤ number.point then number.positional ++ ".0".toList
      else number.positional := by
  obtain ⟨plain, hwritten⟩ := hproper.exists_plain
  have hleading := hwritten.leading hproper hhead
  have hpoint := hwritten.fraction_eq_nil_iff hproper
  obtain ⟨htext, hvalue⟩ := hwritten
  rw [htext, Plain.text]
  by_cases hfraction : plain.fraction = []
  · have hpoint := hpoint.mp hfraction
    refine ⟨⟨plain.whole, some ['0'], none⟩,
      ⟨⟨plain.whole_ne_nil, Json.Numeral.some_cons_ne_some_nil _ _, ?_, hleading⟩, rfl, ?_⟩, ?_⟩
    · intro char hchar
      rcases List.mem_append.mp hchar with hchar | hchar
      · exact plain.digits char (List.mem_append_left _ hchar)
      · cases List.mem_singleton.mp hchar
        rfl
    · intro negative
      rw [← hvalue]
      have hshift : Json.digitsValue (plain.whole ++ ['0']) =
          Json.digitsValue plain.whole * tenTo 1 := Json.digitsValue_append_zeros plain.whole 1
      simp only [Json.Numeral.decimal, Json.Numeral.digits, Option.getD_some, hshift,
        Decimal.toDouble_mul_tenTo, Plain.decimal, hfraction, List.append_nil]
      rfl
    · simp [Json.Numeral.text, Json.fractionText, Json.exponentText, hfraction, hpoint]
  · have hpoint := mt hpoint.mpr hfraction
    refine ⟨⟨plain.whole, some plain.fraction, none⟩,
      ⟨⟨plain.whole_ne_nil, ?_, plain.digits, hleading⟩, rfl, ?_⟩, ?_⟩
    · exact fun hnil => hfraction (Option.some.inj hnil)
    · intro negative
      rw [← hvalue]
      simp [Json.Numeral.decimal, Json.Numeral.digits, Plain.decimal]
    · simp [Json.Numeral.text, Json.fractionText, Json.exponentText, hfraction, hpoint]

theorem exists_scientific (hproper : number.Proper) :
    ∃ numeral, number.SpelledBy numeral ∧ numeral.text = number.scientific := by
  obtain ⟨first, others, hdigits⟩ := List.exists_cons_of_ne_nil hproper.ne_nil
  have hfirst : first.isDigit = true := hproper.digits first (by simp [hdigits])
  have hleading := noLeadingZero_singleton first
  cases others with
  | nil =>
      refine ⟨⟨[first], none, some (number.point - 1)⟩,
        ⟨⟨List.cons_ne_nil _ _, Json.Numeral.none_ne_some_nil, ?_, hleading⟩, rfl, ?_⟩, ?_⟩
      · intro char hchar
        cases List.mem_singleton.mp hchar
        exact hfirst
      · intro negative
        simp [Json.Numeral.decimal, Json.Numeral.digits, Significant.decimal, hdigits]
      · simp [Json.Numeral.text, Json.fractionText, Json.exponentText, scientific, hdigits]
  | cons second rest =>
      refine ⟨⟨[first], some (second :: rest), some (number.point - 1)⟩,
        ⟨⟨List.cons_ne_nil _ _, Json.Numeral.some_cons_ne_some_nil _ _, ?_, hleading⟩, rfl, ?_⟩,
        ?_⟩
      · intro char hchar
        exact hproper.digits char (by rw [hdigits]; exact hchar)
      · intro negative
        simp only [Json.Numeral.decimal, Json.Numeral.digits, Significant.decimal, hdigits,
          Option.getD_some, List.length_cons, List.singleton_append]
        congr 2
        omega
      · simp [Json.Numeral.text, Json.fractionText, Json.exponentText, scientific, hdigits]

end Significant

namespace Double

theorem exists_numeral {double : Double} (hfinite : double.isFinite = true) :
    ∃ numeral : Json.Numeral, double.jsonText = signText double.negative ++ numeral.text ∧
      numeral.Proper ∧ numeral.IsDouble ∧ numeral.decimal.toDouble double.negative = double := by
  have hlt : double.magnitude < infiniteMagnitude := of_decide_eq_true hfinite
  rcases Nat.eq_zero_or_pos double.magnitude with hzero | hpos
  · refine ⟨⟨['0'], some ['0'], none⟩, ?_,
      ⟨List.cons_ne_nil _ _, Json.Numeral.some_cons_ne_some_nil _ _, ?_,
        noLeadingZero_singleton '0'⟩, rfl, ?_⟩
    · simp [jsonText, isZero, hzero, Json.Numeral.text, Json.fractionText, Json.exponentText]
    · exact List.all_eq_true.mp (show ['0', '0'].all Char.isDigit = true from rfl)
    · cases double
      simp_all [Decimal.toDouble_eq, Json.Numeral.decimal, Json.Numeral.digits,
        Json.digitsValue, zero]
  · have hreads := Decimal.readsBack_shortest .even hpos hlt
    have hdigits : 0 < (Decimal.shortest .even double.magnitude).digits :=
      Decimal.digits_pos_of_readsBack hpos hreads
    have hproper := Significant.proper_ofDecimal hdigits
    have hvalue : ∀ numeral, (Significant.ofDecimal
        (Decimal.shortest .even double.magnitude)).SpelledBy numeral →
        numeral.decimal.toDouble double.negative = double := by
      intro numeral hspelled
      rw [hspelled.value, Significant.toDouble_ofDecimal, Decimal.toDouble_of_readsBack hreads]
    unfold jsonText
    rw [isZero, beq_false_of_ne hpos.ne']
    simp only [Bool.false_eq_true, if_false]
    split
    · obtain ⟨numeral, hspelled, htext⟩ :=
        Significant.exists_positional hproper (Significant.head?_ofDecimal hdigits)
      exact ⟨numeral, by rw [htext], hspelled.proper, hspelled.double, hvalue numeral hspelled⟩
    · obtain ⟨numeral, hspelled, htext⟩ := Significant.exists_scientific hproper
      exact ⟨numeral, by rw [htext], hspelled.proper, hspelled.double, hvalue numeral hspelled⟩

end Double

/-! ## Numbers -/

namespace Json

/-- What the printer writes for a number is a sign and a numeral that reads back to it. -/
theorem exists_numberText (number : Number) : ∃ negative, ∃ numeral : Numeral,
    numberText number = signText negative ++ numeral.text ∧ numeral.Proper ∧
      numberOfParts? negative numeral.whole numeral.fraction numeral.exponent = some number := by
  cases number with
  | integer value fits =>
      have hvalue : (if value < 0 then -(value.natAbs : Int) else value.natAbs) = value := by omega
      have hzero : (decide (value < 0) && (value.natAbs : Int) == 0) = false := by
        simp
        omega
      refine ⟨decide (value < 0), ⟨natText value.natAbs, none, none⟩, ?_,
        ⟨Nat.toDigits_ne_nil, Numeral.none_ne_some_nil, ?_, noLeadingZero_natText _⟩, ?_⟩
      · by_cases hnegative : value < 0 <;>
          simp [numberText, intText, hnegative, signText, Numeral.text, fractionText, exponentText]
      · intro char hchar
        rw [Numeral.digits, Option.getD_none, List.append_nil] at hchar
        exact isDigit_of_mem_natText hchar
      · simp only [numberOfParts?, digitsValue_natText, hzero, decide_eq_true_eq, hvalue,
          Number.ofInt?, dif_pos fits]
        rfl
  | double value hfinite =>
      obtain ⟨numeral, htext, hproper, hdouble, hvalue⟩ := Double.exists_numeral hfinite
      refine ⟨value.negative, numeral, htext, hproper, ?_⟩
      rw [hdouble.numberOfParts?, hvalue, Number.ofDouble?, dif_pos hfinite]

theorem numberOfText?_numberText (number : Number) :
    numberOfText? (numberText number) = some number := by
  obtain ⟨negative, numeral, htext, hproper, hparts⟩ := exists_numberText number
  rw [htext, hproper.numberOfText?_text, hparts]

theorem isNumberChar_of_isDigit {char : Char} (hdigit : char.isDigit = true) :
    isNumberChar char = true := by
  simp [isNumberChar, hdigit]

theorem Numeral.Proper.isNumberChar_of_mem {numeral : Numeral} (hproper : numeral.Proper)
    {char : Char} (hchar : char ∈ numeral.text) : isNumberChar char = true := by
  rcases List.mem_append.mp hchar with hchar | hchar
  · exact isNumberChar_of_isDigit (hproper.digits char (List.mem_append_left _ hchar))
  rcases List.mem_append.mp hchar with hchar | hchar
  · cases hfraction : numeral.fraction with
    | none =>
        rw [hfraction] at hchar
        cases hchar
    | some digits =>
        rw [hfraction] at hchar
        rcases List.mem_cons.mp hchar with rfl | hchar
        · rfl
        · refine isNumberChar_of_isDigit (hproper.digits char (List.mem_append_right _ ?_))
          rwa [hfraction]
  · cases hexponent : numeral.exponent with
    | none =>
        rw [hexponent] at hchar
        cases hchar
    | some exponent =>
        rw [hexponent, exponentText] at hchar
        rcases List.mem_cons.mp hchar with rfl | hchar
        · rfl
        rcases List.mem_cons.mp hchar with rfl | hchar
        · split <;> rfl
        · exact isNumberChar_of_isDigit (isDigit_of_mem_natText hchar)

/-- A number is spelled in number characters, and it does not begin like an exponent. -/
theorem exists_numberText_cons (number : Number) : ∃ first rest,
    numberText number = first :: rest ∧ (isNumberChar first && first != 'e') = true ∧
      ∀ char ∈ rest, isNumberChar char = true := by
  obtain ⟨negative, numeral, htext, hproper, -⟩ := exists_numberText number
  cases negative with
  | true => exact ⟨'-', numeral.text, htext, rfl, fun char => hproper.isNumberChar_of_mem⟩
  | false =>
      obtain ⟨digit, rest, hdigit, hnumeral⟩ := hproper.exists_cons
      have hne : digit ≠ 'e' := by
        rintro rfl
        cases hdigit
      refine ⟨digit, rest, htext.trans hnumeral, ?_, fun char hchar => ?_⟩
      · simp [isNumberChar_of_isDigit hdigit, hne]
      · exact hproper.isNumberChar_of_mem (by rw [hnumeral]; exact .tail _ hchar)

end Json

end BuilderCalls
