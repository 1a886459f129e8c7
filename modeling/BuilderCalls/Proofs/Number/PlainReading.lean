import BuilderCalls.Proofs.Number.JsonText

/-!
# Plain texts read as JSON

The plain text of a double has no point exactly when the double is whole, and then its digits
are those of the integer that the double becomes in a tree.  So a JSON reader that meets the
plain text reads the very number that stands in the tree, an integer or a double, and this
number is rounded to the double again.
-/

namespace BuilderCalls

/-! ## Whole doubles -/

namespace Double

theorem isIntegral_iff {double : Double} :
    double.isIntegral = true ↔ ∃ whole, units double.magnitude = whole <<< 1074 := by
  rw [isIntegral, beq_iff_eq]
  constructor
  · exact fun hsame => ⟨_, hsame.symm⟩
  · rintro ⟨whole, hwhole⟩
    rw [hwhole, Nat.shiftLeft_shiftRight]

private theorem exists_shiftLeft_of_le {places shift : Nat} (hplaces : places ≤ shift)
    (value : Nat) : ∃ whole, value * 2 ^ shift = whole <<< places := by
  obtain ⟨more, rfl⟩ := Nat.exists_eq_add_of_le hplaces
  refine ⟨value * 2 ^ more, ?_⟩
  rw [Nat.shiftLeft_eq, Nat.pow_add]
  ring

private theorem shiftLeft_shiftRight_mul {places shift : Nat} (hplaces : shift ≤ places)
    (value : Nat) : value <<< places >>> shift * 2 ^ shift = value <<< places := by
  rw [Nat.shiftRight_eq_div_pow, Nat.shiftLeft_eq]
  exact Nat.div_mul_cancel (Dvd.dvd.mul_left (Nat.pow_dvd_pow 2 hplaces) _)

private theorem log2_shiftLeft {value : Nat} (hpos : 0 < value) (places : Nat) :
    Nat.log2 (value <<< places) = Nat.log2 value + places := by
  rw [Nat.shiftLeft_eq]
  refine (Nat.log2_eq_iff (Nat.mul_ne_zero hpos.ne' (Nat.two_pow_pos _).ne')).mpr ⟨?_, ?_⟩
  · rw [Nat.pow_add]
    exact Nat.mul_le_mul_right _ (Nat.log2_self_le hpos.ne')
  · rw [Nat.add_right_comm, Nat.pow_add]
    exact Nat.mul_lt_mul_of_pos_right Nat.lt_log2_self (Nat.two_pow_pos _)

/-- The first 53 bits of a count that has as many. -/
theorem scaled_shiftRight {count shift : Nat} (hlog : Nat.log2 count = shift + 52) :
    Scaled shift (count >>> shift) := by
  have hbit : scaleBit = 2 ^ 52 := by decide
  have hne : count ≠ 0 := by
    rintro rfl
    simp at hlog
  rw [Nat.shiftRight_eq_div_pow]
  refine ⟨.inr ?_, Nat.div_lt_of_lt_mul ?_⟩
  · rw [Nat.le_div_iff_mul_le (Nat.two_pow_pos _), hbit, ← Nat.pow_add, Nat.add_comm, ← hlog]
    exact Nat.log2_self_le hne
  · calc count < 2 ^ (shift + 52 + 1) := hlog ▸ Nat.lt_log2_self
      _ = 2 ^ shift * (2 * scaleBit) := by rw [hbit]; ring

/-- Both neighbours of a great whole number are whole, and a small one is not rounded at all. -/
theorem exists_units_nearest (value : Nat) :
    ∃ whole, units (nearest value 1) = whole <<< 1074 := by
  rcases Nat.eq_zero_or_pos value with rfl | hpos
  · exact ⟨0, by decide⟩
  · have hlog : Nat.log2 (value <<< 1074) = Nat.log2 value + 1022 + 52 :=
      log2_shiftLeft hpos 1074
    have hscaled := scaled_shiftRight hlog
    have hlow : floorMagnitude (value <<< 1074) = (Nat.log2 value + 1022) * scaleBit +
        value <<< 1074 >>> (Nat.log2 value + 1022) := by
      rw [floorMagnitude, hlog, Nat.add_sub_cancel]
    by_cases hgreat : 52 ≤ Nat.log2 value
    · rcases nearest_eq_or value 1 with hnearest | hnearest
      · rw [hnearest, Nat.div_one, hlow, units_scaled hscaled]
        exact exists_shiftLeft_of_le (by omega) _
      · rw [hnearest, Nat.div_one, hlow, units_scaled_succ hscaled]
        exact exists_shiftLeft_of_le (by omega) _
    · have hexact : units (floorMagnitude (value <<< 1074)) = value <<< 1074 := by
        rw [hlow, units_scaled hscaled]
        exact shiftLeft_shiftRight_mul (by omega) value
      rw [nearest_of_units Nat.one_pos (by rw [hexact, Nat.mul_one])]
      exact ⟨value, hexact⟩

/-- A finite double that a decimal without places below the point is rounded to. -/
theorem isIntegral_toDouble {negative : Bool} {decimal : Decimal}
    (hexponent : 0 ≤ decimal.exponent)
    (hfinite : (decimal.toDouble negative).isFinite = true) :
    (decimal.toDouble negative).isIntegral = true := by
  have hbelow : (-decimal.exponent).toNat = 0 := by omega
  rw [isIntegral_iff]
  rw [Decimal.toDouble_eq, hbelow, Nat.pow_zero] at hfinite ⊢
  split at hfinite
  next hzero =>
    rw [if_pos hzero]
    exact ⟨0, show units 0 = 0 <<< 1074 by decide⟩
  next hzero =>
    split at hfinite
    next => cases hfinite
    next hinfinite =>
      rw [if_neg hzero, if_neg hinfinite]
      have hmagnitude := of_decide_eq_true hfinite
      simp only [ofRatio] at hmagnitude ⊢
      rw [Nat.min_eq_left (by omega)]
      exact exists_units_nearest _

end Double

/-! ## Digits of whole numbers -/

theorem natText_mul_tenTo {value : Nat} (hpos : 0 < value) (power : Nat) :
    natText (value * tenTo power) = natText value ++ List.replicate power '0' := by
  induction power with
  | zero => simp [tenTo_eq]
  | succ power ih =>
      have hproduct : 0 < value * tenTo power := Nat.mul_pos hpos (Nat.pow_pos (by decide))
      have hshift : value * tenTo (power + 1) = 10 * (value * tenTo power) + 0 := by
        simp only [tenTo_eq, Nat.pow_succ]
        ring
      calc natText (value * tenTo (power + 1))
          = natText (value * tenTo power) ++ ['0'] := by
            rw [hshift, natText, ← Nat.toDigits_append_toDigits (by decide) hproduct (by decide)]
            rfl
        _ = natText value ++ List.replicate (power + 1) '0' := by
            rw [ih, List.append_assoc, List.replicate_succ']

theorem dropTrailingZeros_append_zeros (digits : List Char) (count : Nat) :
    dropTrailingZeros (digits ++ List.replicate count '0') = dropTrailingZeros digits := by
  unfold dropTrailingZeros
  rw [List.reverse_append, List.reverse_replicate, List.dropWhile_append_of_pos]
  simp [List.mem_replicate]

theorem length_dropTrailingZeros_le (digits : List Char) :
    (dropTrailingZeros digits).length ≤ digits.length := by
  obtain ⟨count, hdigits⟩ := exists_trailingZeros digits
  have hlength := congrArg List.length hdigits
  rw [List.length_append] at hlength
  omega

namespace Decimal

/-- The digits below the point are zeros. -/
def IsWhole (decimal : Decimal) : Prop :=
  ∃ whole, decimal.digits = whole * tenTo (-decimal.exponent).toNat

theorem IsWhole.of_nonneg {decimal : Decimal} (hexponent : 0 ≤ decimal.exponent) :
    decimal.IsWhole := by
  refine ⟨decimal.digits, ?_⟩
  rw [show (-decimal.exponent).toNat = 0 by omega, tenTo_eq, Nat.pow_zero, Nat.mul_one]

theorem IsWhole.exact {magnitude value : Nat} (hwhole : Whole magnitude value) :
    (exact magnitude).IsWhole := by
  refine ⟨value, ?_⟩
  change Double.units magnitude * Nat.pow 5 1074 = value * tenTo 1074
  rw [hwhole.units]
  generalize 1074 = places
  rw [Nat.shiftLeft_eq, Nat.mul_assoc]
  exact congrArg _ (Nat.mul_pow 2 5 places).symm

theorem isWhole_shortest {double : Double} (hfinite : double.isFinite = true)
    (hintegral : double.isIntegral = true) (hpos : 0 < double.magnitude) (tie : Tie) :
    (shortest tie double.magnitude).IsWhole := by
  have hwhole := whole_of_isIntegral hfinite hintegral hpos
  rcases hwhole.shortest_cases tie with hexact | ⟨-, hexponent⟩
  · rw [hexact]
    exact .exact hwhole
  · exact .of_nonneg hexponent

theorem floor_eq (decimal : Decimal) : decimal.floor =
    decimal.digits * tenTo decimal.exponent.toNat / tenTo (-decimal.exponent).toNat := by
  obtain ⟨digits, exponent⟩ := decimal
  cases exponent with
  | ofNat power => simp [floor, tenTo_eq]
  | negSucc power => simp [floor, tenTo_eq, Int.neg_negSucc]

end Decimal

namespace Significant

variable {decimal : Decimal}

theorem length_le_point (hpos : 0 < decimal.digits) (hwhole : decimal.IsWhole) :
    (ofDecimal decimal).digits.length ≤ (ofDecimal decimal).point := by
  obtain ⟨whole, hdigits⟩ := hwhole
  have hwhole : 0 < whole := by
    rw [hdigits] at hpos
    exact Nat.pos_of_mul_pos_right hpos
  have htext : natText decimal.digits =
      natText whole ++ List.replicate (-decimal.exponent).toNat '0' := by
    rw [hdigits, natText_mul_tenTo hwhole]
  have hshort := length_dropTrailingZeros_le (natText whole)
  simp only [ofDecimal, htext, dropTrailingZeros_append_zeros, List.length_append,
    List.length_replicate]
  omega

/-- The digits that are written for a whole number are those of its floor. -/
theorem digitsValue_positional (hpos : 0 < decimal.digits)
    (hpoint : (ofDecimal decimal).digits.length ≤ (ofDecimal decimal).point) :
    Json.digitsValue (ofDecimal decimal).positional = decimal.floor := by
  obtain ⟨count, hdigits⟩ := exists_trailingZeros (natText decimal.digits)
  have hvalue := Json.digitsValue_natText decimal.digits
  rw [hdigits, Json.digitsValue_append_zeros] at hvalue
  have hlength := congrArg List.length hdigits
  rw [List.length_append, List.length_replicate] at hlength
  have hne := List.length_pos_iff.mpr (proper_ofDecimal hpos).ne_nil
  simp only [ofDecimal] at hpoint hne ⊢
  obtain ⟨digits, hname⟩ : ∃ digits, dropTrailingZeros (natText decimal.digits) = digits :=
    ⟨_, rfl⟩
  rw [hname] at hvalue hlength hpoint hne ⊢
  generalize (natText decimal.digits).length = size at hlength hpoint ⊢
  have hplaces : (size + decimal.exponent).toNat - digits.length + (-decimal.exponent).toNat =
      count + decimal.exponent.toNat := by omega
  simp only [positional]
  rw [if_neg (by omega), if_pos (by omega), Json.digitsValue_append_zeros, Decimal.floor_eq,
    ← hvalue, Nat.mul_assoc]
  simp only [tenTo_eq, ← Nat.pow_add, ← hplaces]
  rw [Nat.pow_add, ← Nat.mul_assoc, Nat.mul_div_cancel _ (Nat.pow_pos (by decide))]

end Significant

/-! ## Plain texts -/

/-- The text of a double that is read as an integer or a double, as the double is whole or not. -/
structure Double.SpelledBy (double : Double) (numeral : Json.Numeral) : Prop where
  text : double.plainText = signText double.negative ++ numeral.text
  proper : numeral.Proper
  exponent : numeral.exponent = none
  value : numeral.decimal.toDouble double.negative = double
  whole : numeral.fraction = none ↔ double.isIntegral = true
  floor : double.isIntegral = true →
    Json.digitsValue numeral.whole = (Decimal.shortest .up double.magnitude).floor

namespace Plain

/-- The same text taken for a JSON number. -/
def numeral (plain : Plain) : Json.Numeral :=
  ⟨plain.whole, if plain.fraction = [] then none else some plain.fraction, none⟩

variable {plain : Plain}

theorem fraction_numeral : plain.numeral.fraction.getD [] = plain.fraction := by
  unfold numeral
  dsimp only
  split <;> simp_all

theorem text_numeral : plain.numeral.text = plain.text := by
  simp only [Json.Numeral.text, numeral, text, Json.exponentText, List.append_nil]
  split <;> rfl

theorem decimal_numeral : plain.numeral.decimal = plain.decimal := by
  simp only [Json.Numeral.decimal, Json.Numeral.digits, fraction_numeral, decimal]
  simp [numeral]

theorem proper_numeral (hleading : NoLeadingZero plain.whole) : plain.numeral.Proper := by
  refine ⟨plain.whole_ne_nil, ?_, ?_, hleading⟩
  · unfold numeral
    dsimp only
    split <;> simp_all
  · rw [Json.Numeral.digits, fraction_numeral]
    exact plain.digits

theorem fraction_numeral_eq_none_iff : plain.numeral.fraction = none ↔ plain.fraction = [] := by
  simp [numeral]

end Plain

namespace Double

theorem exists_spelling {double : Double} (hfinite : double.isFinite = true) :
    ∃ numeral, double.SpelledBy numeral := by
  have hlt : double.magnitude < infiniteMagnitude := of_decide_eq_true hfinite
  have hnumber : double.isNaN = false := by
    simp only [isNaN, decide_eq_false_iff_not]
    omega
  rcases Nat.eq_zero_or_pos double.magnitude with hzero | hpos
  · refine ⟨⟨['0'], none, none⟩, ?_, ?_, rfl, ?_, ?_, ?_⟩
    · simp [plainText, hnumber, hfinite, isZero, hzero, Json.Numeral.text, Json.fractionText,
        Json.exponentText]
    · refine ⟨List.cons_ne_nil _ _, Json.Numeral.none_ne_some_nil, ?_, noLeadingZero_singleton '0'⟩
      exact List.all_eq_true.mp (show ['0'].all Char.isDigit = true from rfl)
    · cases double
      simp_all [Decimal.toDouble_eq, Json.Numeral.decimal, Json.Numeral.digits,
        Json.digitsValue, zero]
    · refine iff_of_true rfl (isIntegral_iff.mpr ⟨0, ?_⟩)
      rw [hzero]
      decide
    · intro _
      rw [hzero, Decimal.floor_shortest_zero]
      rfl
  · have hreads := Decimal.readsBack_shortest .up hpos hlt
    have hdigits : 0 < (Decimal.shortest .up double.magnitude).digits :=
      Decimal.digits_pos_of_readsBack hpos hreads
    have hproper := Significant.proper_ofDecimal hdigits
    obtain ⟨plain, hwritten⟩ := hproper.exists_plain
    have hpoint := hwritten.fraction_eq_nil_iff hproper
    have hvalue : plain.decimal.toDouble double.negative = double := by
      rw [hwritten.2, Significant.toDouble_ofDecimal, Decimal.toDouble_of_readsBack hreads]
    have hwhole : plain.fraction = [] ↔ double.isIntegral = true := by
      constructor
      · intro hfraction
        have hexponent : 0 ≤ plain.decimal.exponent := by simp [Plain.decimal, hfraction]
        rw [← hvalue] at hfinite ⊢
        exact isIntegral_toDouble hexponent hfinite
      · intro hintegral
        exact hpoint.mpr (Significant.length_le_point hdigits
          (Decimal.isWhole_shortest hfinite hintegral hpos .up))
    refine ⟨plain.numeral, ?_, ?_, rfl, ?_, ?_, ?_⟩
    · rw [Plain.text_numeral, ← hwritten.1]
      simp [plainText, hnumber, hfinite, isZero, hpos.ne']
    · exact Plain.proper_numeral (hwritten.leading hproper (Significant.head?_ofDecimal hdigits))
    · rw [Plain.decimal_numeral, hvalue]
    · rw [Plain.fraction_numeral_eq_none_iff, hwhole]
    · intro hintegral
      have hfraction := hwhole.mpr hintegral
      rw [← Significant.digitsValue_positional hdigits (hpoint.mp hfraction), hwritten.1,
        Plain.text, if_pos hfraction, List.append_nil]
      rfl

end Double

/-! ## Numbers of trees -/

namespace Estree

theorem floor_eq_zero_iff {value : Double} (hfinite : value.isFinite = true)
    (hintegral : value.isIntegral = true) :
    (Decimal.shortest .up value.magnitude).floor = 0 ↔ value.isZero = true := by
  rw [Double.isZero, beq_iff_eq]
  constructor
  · intro hfloor
    have hnearest := Decimal.nearest_floor_shortest hfinite hintegral
    rw [hfloor, show Double.nearest 0 1 = 0 by decide] at hnearest
    exact hnearest.symm
  · intro hzero
    rw [hzero, Decimal.floor_shortest_zero]

/-- A text without a point is read as the integer that a whole double becomes in a tree. -/
theorem number?_of_integral {value : Double} (hfinite : value.isFinite = true)
    (hintegral : value.isIntegral = true) {numeral : Json.Numeral}
    (hspelled : value.SpelledBy numeral) :
    Json.numberOfParts? value.negative numeral.whole none none = number? value := by
  have hzero := floor_eq_zero_iff hfinite hintegral
  have hfloor := hspelled.floor hintegral
  have hdouble : Decimal.toDouble value.negative ⟨Json.digitsValue numeral.whole, 0⟩ = value := by
    have hvalue := hspelled.value
    simp only [Json.Numeral.decimal, Json.Numeral.digits, hspelled.exponent,
      hspelled.whole.mpr hintegral] at hvalue
    simpa using hvalue
  -- the floor is named before it is looked at, so that no step computes it
  obtain ⟨floor, hname⟩ : ∃ floor, (Decimal.shortest .up value.magnitude).floor = floor :=
    ⟨_, rfl⟩
  rw [hname] at hzero hfloor
  have hsame : ((floor : Int) == 0) = value.isZero := by
    rw [Bool.eq_iff_iff, ← hzero]
    simp
  have hwhole : wholeNumber value = if value.negative then -(floor : Int) else floor := by
    simp only [wholeNumber, hname]
  rw [hfloor] at hdouble
  simp only [Json.numberOfParts?, number?, Option.getD_none, List.append_nil, List.length_nil,
    Int.natCast_zero, Int.sub_zero, hdouble, hfloor, hwhole, hintegral, hsame,
    Bool.and_comm value.negative, Option.isNone_none, Bool.true_and, Number.ofDouble?,
    dif_pos hfinite, Option.map_some]
  cases value.isZero && value.negative with
  | true => rfl
  | false =>
      simp only [Bool.not_false, if_true]
      cases Number.ofInt? (if value.negative then -(floor : Int) else floor) <;> rfl

/-- A text with a point is read as the double itself. -/
theorem number?_of_fraction {value : Double} (hfinite : value.isFinite = true)
    (hintegral : value.isIntegral = false) {numeral : Json.Numeral}
    (hspelled : value.SpelledBy numeral) :
    Json.numberOfParts? value.negative numeral.whole numeral.fraction numeral.exponent =
      number? value := by
  have hfraction : numeral.fraction ≠ none := by
    rw [Ne, hspelled.whole, hintegral]
    exact Bool.false_ne_true
  have hdouble : numeral.IsDouble := by
    simp [Json.Numeral.IsDouble, Option.isSome_iff_ne_none, hfraction]
  rw [hdouble.numberOfParts?, hspelled.value]
  simp [number?, hintegral, Number.ofDouble?, hfinite]

theorem numberOfText?_plainText {value : Double} (hfinite : value.isFinite = true) :
    Json.numberOfText? value.plainText = number? value := by
  obtain ⟨numeral, hspelled⟩ := Double.exists_spelling hfinite
  rw [hspelled.text, hspelled.proper.numberOfText?_text]
  cases hintegral : value.isIntegral with
  | true =>
      rw [hspelled.whole.mpr hintegral, hspelled.exponent]
      exact number?_of_integral hfinite hintegral hspelled
  | false => exact number?_of_fraction hfinite hintegral hspelled

/--
A number in a tree and the number read from its source text are the same, of the same kind,
and rounded to the double they were made from; there are none where the double is not finite.
-/
theorem source_texts_and_trees_agree_on_numbers (value : Double) :
    (number? value = none ↔ value.isFinite = false) ∧
    (formatNumber value = none ↔ value.isFinite = false) ∧
    (formatNumber value).bind Json.numberOfText? = number? value ∧
    ∀ number, number? value = some number → number.toDouble = value := by
  have hnone : number? value = none ↔ value.isFinite = false := by
    simp [number?, Number.ofDouble?]
  refine ⟨hnone, ?_, ?_, fun number => toDouble_of_number?⟩
  · simp [formatNumber]
  · cases hfinite : value.isFinite with
    | true =>
        rw [formatNumber, if_pos hfinite, Option.bind_some]
        exact numberOfText?_plainText hfinite
    | false =>
        rw [formatNumber, hfinite, if_neg Bool.false_ne_true, Option.bind_none]
        exact (hnone.mpr hfinite).symm

-- the digits that are shortest for the least integer of 64 bits no longer fit them
example :
    formatNumber (.ofInt (-0x8000000000000000)) = some "-9223372036854776000".toList ∧
      number? (.ofInt (-0x8000000000000000)) =
        Number.ofDouble? (.ofInt (-0x8000000000000000)) := by
  decide +kernel

end Estree

end BuilderCalls
