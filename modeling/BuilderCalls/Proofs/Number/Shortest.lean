import BuilderCalls.Estree
import BuilderCalls.Proofs.Number.Nearest
import Mathlib.Tactic.NormNum

/-!
# Whole numbers and their shortest digits

The digits that are shortest for a whole double never reach below the decimal
point: the candidate with as many digits as the number has is the number itself,
and it reads back.  So the integer that these digits spell is rounded to the
double they were made from.
-/

namespace BuilderCalls

/-! ## Digits -/

theorem tenTo_eq (power : Nat) : tenTo power = 10 ^ power := rfl

theorem digitCount_pos (value : Nat) : 0 < digitCount value :=
  Nat.length_toDigits_pos

theorem lt_tenTo_digitCount (value : Nat) : value < 10 ^ digitCount value :=
  (Nat.length_toDigits_le_iff (by decide) (digitCount_pos value)).mp le_rfl

theorem tenTo_le_of_pos {value : Nat} (hpos : 0 < value) : 10 ^ (digitCount value - 1) ≤ value := by
  by_cases hone : digitCount value = 1
  · simpa [hone, Nat.one_le_iff_ne_zero, Nat.pos_iff_ne_zero] using hpos
  · have hcount := digitCount_pos value
    by_contra hsmall
    have hfewer : digitCount value ≤ digitCount value - 1 :=
      (Nat.length_toDigits_le_iff (by decide) (by omega)).mpr (Nat.lt_of_not_le hsmall)
    omega

theorem digitCount_eq {value count : Nat} (hlow : 10 ^ count ≤ value)
    (hhigh : value < 10 ^ (count + 1)) : digitCount value = count + 1 := by
  have hle : digitCount value ≤ count + 1 :=
    (Nat.length_toDigits_le_iff (by decide) (Nat.succ_pos _)).mpr hhigh
  have hge : 10 ^ count < 10 ^ digitCount value := hlow.trans_lt (lt_tenTo_digitCount value)
  have := (Nat.pow_lt_pow_iff_right (by decide)).mp hge
  omega

theorem digitCount_mul_tenTo {value : Nat} (hpos : 0 < value) (power : Nat) :
    digitCount (value * tenTo power) = digitCount value + power := by
  have hcount := digitCount_pos value
  rw [show digitCount value + power = digitCount value - 1 + power + 1 by omega]
  apply digitCount_eq
  · rw [Nat.pow_add]
    exact Nat.mul_le_mul_right _ (tenTo_le_of_pos hpos)
  · rw [show digitCount value - 1 + power + 1 = digitCount value + power by omega, Nat.pow_add]
    exact Nat.mul_lt_mul_of_pos_right (lt_tenTo_digitCount value) (by simp [tenTo_eq])

theorem digitCount_le_of_lt {value power : Nat} (hpower : 0 < power) (hvalue : value < 10 ^ power) :
    digitCount value ≤ power :=
  (Nat.length_toDigits_le_iff (by decide) hpower).mpr hvalue

namespace Decimal

/-! ## Reading back -/

variable {magnitude : Nat}

theorem magnitude_ofRatio {negative : Bool} {numerator denominator : Nat}
    (hfinite : magnitude < infiniteMagnitude) :
    (Double.ofRatio negative numerator denominator).magnitude = magnitude ↔
      Double.nearest numerator denominator = magnitude := by
  simp only [Double.ofRatio]
  omega

theorem nearest_floor_of_readsBack {decimal : Decimal} (hpos : 0 < magnitude)
    (hfinite : magnitude < infiniteMagnitude) (hexponent : 0 ≤ decimal.exponent)
    (hreads : readsBack magnitude decimal = true) :
    Double.nearest decimal.floor 1 = magnitude := by
  obtain ⟨digits, exponent⟩ := decimal
  obtain ⟨power, rfl⟩ := Int.eq_ofNat_of_zero_le hexponent
  simp only [readsBack, toDouble, beq_iff_eq] at hreads
  split at hreads
  next =>
    simp only [Double.zero] at hreads
    omega
  next =>
    split at hreads
    next =>
      simp only [Double.infinity] at hreads
      omega
    next => exact (magnitude_ofRatio hfinite).mp hreads

theorem toDouble_of_whole {value : Nat} (hpos : 0 < value) (hcount : digitCount value ≤ 310) :
    toDouble false ⟨value, 0⟩ = .ofRatio false (value * tenTo 0) 1 := by
  have hcount' := digitCount_pos value
  have hlead : (digitCount value : Int) + 0 = digitCount value := Int.add_zero _
  unfold toDouble
  dsimp only
  rw [hlead, if_neg (by simp; omega), if_neg (by omega)]

/-! ## Candidates -/

variable {tie : Tie} {exponent : Int} {quotient : Nat × Nat} {count : Nat}

theorem neighbour_eq_some {decimal : Decimal}
    (hneighbour : neighbour tie magnitude exponent quotient = some decimal) :
    readsBack magnitude decimal = true ∧ decimal.exponent = exponent := by
  obtain ⟨numerator, denominator⟩ := quotient
  unfold neighbour at hneighbour
  dsimp only at hneighbour
  split at hneighbour
  next hbelow habove =>
    cases hneighbour
    split
    · exact ⟨hbelow, rfl⟩
    · exact ⟨habove, rfl⟩
  next hbelow _ =>
    cases hneighbour
    exact ⟨hbelow, rfl⟩
  next _ habove =>
    cases hneighbour
    exact ⟨habove, rfl⟩
  next => cases hneighbour

theorem neighbour_isSome
    (hbelow : readsBack magnitude ⟨quotient.1 / quotient.2, exponent⟩ = true) :
    (neighbour tie magnitude exponent quotient).isSome = true := by
  obtain ⟨numerator, denominator⟩ := quotient
  unfold neighbour
  dsimp only at hbelow ⊢
  rw [hbelow]
  cases readsBack magnitude ⟨numerator / denominator + 1, exponent⟩ <;> rfl

theorem candidate_eq_some {decimal : Decimal}
    (hcandidate : candidate tie magnitude count = some decimal) :
    readsBack magnitude decimal = true ∧
      decimal.exponent = leadingExponent magnitude - count + 1 := by
  unfold candidate at hcandidate
  exact neighbour_eq_some hcandidate

/-- The candidate found is the one with the fewest digits. -/
theorem exists_of_findSome?_range {α : Type} {search : Nat → Option α} {size : Nat} {found : α}
    (hfind : (List.range size).findSome? search = some found) :
    ∃ index, search index = some found ∧ ∀ earlier < index, search earlier = none := by
  induction size with
  | zero => cases hfind
  | succ size ih =>
      rw [List.range_succ, List.findSome?_append, Option.or_eq_some_iff] at hfind
      rcases hfind with hfind | ⟨hnone, hlast⟩
      · exact ih hfind
      · refine ⟨size, by simpa using hlast, fun earlier hearlier => ?_⟩
        exact List.findSome?_eq_none_iff.mp hnone earlier (List.mem_range.mpr hearlier)

/-! ## Whole numbers -/

/-- A finite magnitude above zero that stands for a whole number. -/
structure Whole (magnitude value : Nat) : Prop where
  units : Double.units magnitude = value <<< 1074
  pos : 0 < value
  finite : magnitude < infiniteMagnitude

private theorem shiftLeft_mul_shiftRight (value factor places : Nat) :
    (value <<< places * factor) >>> places = value * factor := by
  rw [Nat.shiftRight_eq_div_pow, Nat.shiftLeft_eq, Nat.mul_right_comm,
    Nat.mul_div_cancel _ (Nat.two_pow_pos _)]

private theorem shiftLeft_div_one_shiftLeft (value places : Nat) :
    value <<< places / 1 <<< places = value := by
  rw [Nat.shiftLeft_eq, Nat.one_shiftLeft, Nat.mul_div_cancel _ (Nat.two_pow_pos _)]

private theorem shiftLeft_mul_pow_div (value places : Nat) :
    value <<< places * Nat.pow 5 places / tenTo places = value := by
  have hten : tenTo places = 2 ^ places * 5 ^ places := (Nat.mul_pow 2 5 places)
  rw [hten, Nat.shiftLeft_eq, Nat.mul_assoc]
  exact Nat.mul_div_cancel _ (Nat.mul_pos (Nat.two_pow_pos _) (Nat.pow_pos (by decide)))

private theorem lt_of_shiftLeft_lt_mul {value bound places : Nat}
    (hvalue : value <<< places < bound * 2 ^ places) : value < bound := by
  rw [Nat.shiftLeft_eq] at hvalue
  exact Nat.lt_of_mul_lt_mul_right hvalue

namespace Whole

variable {value : Nat} (hwhole : Whole magnitude value)

include hwhole

theorem magnitude_pos : 0 < magnitude := by
  rcases Nat.eq_zero_or_pos magnitude with rfl | hpos
  · have hsmall : value <<< 1074 < 1 := by
      rw [← hwhole.units]
      decide
    have := Nat.lt_of_shiftLeft_lt hsmall
    have := hwhole.pos
    omega
  · exact hpos

theorem nearest : Double.nearest value 1 = magnitude :=
  Double.nearest_of_units Nat.one_pos (by rw [hwhole.units, Nat.mul_one])

theorem digitCount_le : digitCount value ≤ 310 := by
  have hvalue : value < 2 ^ 1024 := by
    apply lt_of_shiftLeft_lt_mul
    rw [← hwhole.units]
    exact Double.units_lt hwhole.finite
  exact digitCount_le_of_lt (by decide) (hvalue.trans_le (by decide +kernel))

theorem leadingExponent : Decimal.leadingExponent magnitude = digitCount value - 1 := by
  rw [Decimal.leadingExponent, hwhole.units, shiftLeft_mul_shiftRight,
    digitCount_mul_tenTo hwhole.pos]
  omega

theorem readsBack : Decimal.readsBack magnitude ⟨value, 0⟩ = true := by
  unfold Decimal.readsBack
  rw [toDouble_of_whole hwhole.pos hwhole.digitCount_le, beq_iff_eq,
    magnitude_ofRatio hwhole.finite, tenTo_eq, Nat.pow_zero, Nat.mul_one, hwhole.nearest]

theorem candidate_isSome (tie : Tie) :
    (candidate tie magnitude (digitCount value)).isSome = true := by
  have hexponent : Decimal.leadingExponent magnitude - digitCount value + 1 = 0 := by
    rw [hwhole.leadingExponent]
    omega
  have hquotient : (grid magnitude 0).1 / (grid magnitude 0).2 = value := by
    change Double.units magnitude / tenTo 0 <<< 1074 = value
    rw [hwhole.units, tenTo_eq, Nat.pow_zero, shiftLeft_div_one_shiftLeft]
  unfold candidate
  dsimp only
  rw [hexponent]
  exact neighbour_isSome (hquotient ▸ hwhole.readsBack)

theorem floor_exact : (exact magnitude).floor = value := by
  change Double.units magnitude * Nat.pow 5 1074 / tenTo 1074 = value
  rw [hwhole.units]
  generalize 1074 = places
  exact shiftLeft_mul_pow_div value places

/-- The shortest digits of a whole number end before the point, unless they are the exact ones. -/
theorem shortest_cases (tie : Tie) :
    shortest tie magnitude = exact magnitude ∨
      Decimal.readsBack magnitude (shortest tie magnitude) = true ∧
        0 ≤ (shortest tie magnitude).exponent := by
  unfold shortest
  cases hfind : (List.range 17).findSome? fun index => candidate tie magnitude (index + 1) with
  | none => exact .inl rfl
  | some decimal =>
      rw [Option.getD_some]
      obtain ⟨index, hcandidate, hearlier⟩ := exists_of_findSome?_range hfind
      obtain ⟨hreads, hexponent⟩ := candidate_eq_some hcandidate
      -- with as many digits as the number has there would have been a candidate before
      have hfew : index + 1 ≤ digitCount value := by
        by_contra hmany
        have hcount := digitCount_pos value
        have hnone := hearlier (digitCount value - 1) (by omega)
        rw [show digitCount value - 1 + 1 = digitCount value by omega] at hnone
        simpa [hnone] using hwhole.candidate_isSome tie
      rw [hwhole.leadingExponent] at hexponent
      exact .inr ⟨hreads, by omega⟩

theorem nearest_floor_shortest (tie : Tie) :
    Double.nearest (shortest tie magnitude).floor 1 = magnitude := by
  rcases hwhole.shortest_cases tie with hexact | ⟨hreads, hexponent⟩
  · rw [hexact, hwhole.floor_exact]
    exact hwhole.nearest
  · exact nearest_floor_of_readsBack hwhole.magnitude_pos hwhole.finite hexponent hreads

end Whole

theorem whole_of_isIntegral {double : Double} (hfinite : double.isFinite = true)
    (hintegral : double.isIntegral = true) (hpos : 0 < double.magnitude) :
    Whole double.magnitude (Double.units double.magnitude >>> 1074) := by
  have hunits := (beq_iff_eq.mp hintegral).symm
  refine ⟨hunits, Nat.pos_of_ne_zero fun hzero => ?_, of_decide_eq_true hfinite⟩
  rw [hzero, Nat.zero_shiftLeft] at hunits
  have hmagnitude := Double.floorMagnitude_units double.magnitude
  rw [hunits, show Double.floorMagnitude 0 = 0 by decide] at hmagnitude
  omega

theorem floor_shortest_zero : (shortest .up 0).floor = 0 := by
  decide +kernel

theorem nearest_floor_shortest {double : Double} (hfinite : double.isFinite = true)
    (hintegral : double.isIntegral = true) :
    Double.nearest (shortest .up double.magnitude).floor 1 = double.magnitude := by
  rcases Nat.eq_zero_or_pos double.magnitude with hzero | hpos
  · rw [hzero, floor_shortest_zero]
    decide
  · exact (whole_of_isIntegral hfinite hintegral hpos).nearest_floor_shortest .up

end Decimal

/-! ## Numbers of trees -/

namespace Estree

-- the floor is named before it is looked at, so that no step computes it
private theorem natAbs_wholeNumber (value : Double) :
    (wholeNumber value).natAbs = (Decimal.shortest .up value.magnitude).floor := by
  obtain ⟨floor, hfloor⟩ : ∃ floor, (Decimal.shortest .up value.magnitude).floor = floor :=
    ⟨_, rfl⟩
  unfold wholeNumber
  rw [hfloor]
  dsimp only
  split
  · exact Int.natAbs_neg _
  · rfl

private theorem wholeNumber_lt_zero_iff {value : Double}
    (hfloor : value.negative = true → (Decimal.shortest .up value.magnitude).floor ≠ 0) :
    wholeNumber value < 0 ↔ value.negative = true := by
  obtain ⟨floor, hname⟩ : ∃ floor, (Decimal.shortest .up value.magnitude).floor = floor :=
    ⟨_, rfl⟩
  rw [hname] at hfloor
  unfold wholeNumber
  rw [hname]
  dsimp only
  split
  next hsign =>
    have := hfloor hsign
    exact iff_of_true (by omega) hsign
  next hsign => exact iff_of_false (by omega) hsign

theorem ofInt_wholeNumber {value : Double} (hfinite : value.isFinite = true)
    (hintegral : value.isIntegral = true)
    (hsign : value.isZero = true → value.negative = false) :
    Double.ofInt (wholeNumber value) = value := by
  have hnearest := Decimal.nearest_floor_shortest hfinite hintegral
  have hlt : value.magnitude < infiniteMagnitude := of_decide_eq_true hfinite
  have hfloor : value.negative = true → (Decimal.shortest .up value.magnitude).floor ≠ 0 := by
    intro hnegative hzero
    rw [hzero, show Double.nearest 0 1 = 0 by decide] at hnearest
    rw [hsign (beq_iff_eq.mpr hnearest.symm)] at hnegative
    cases hnegative
  unfold Double.ofInt Double.ofRatio
  simp only [natAbs_wholeNumber, hnearest, wholeNumber_lt_zero_iff hfloor, Bool.decide_eq_true,
    Nat.min_eq_left hlt.le]

/-- A number is written so that it reads back to the same double. -/
theorem toDouble_of_number? {value : Double} {number : Number}
    (hnumber : number? value = some number) : number.toDouble = value := by
  simp only [number?, Number.ofDouble?, Option.map_eq_some_iff, Option.dite_none_right_eq_some,
    Option.some.injEq] at hnumber
  obtain ⟨_, ⟨hfinite, rfl⟩, hnumber⟩ := hnumber
  split at hnumber
  next hwhole =>
    simp only [Bool.and_eq_true, Bool.not_eq_true', Bool.and_eq_false_imp] at hwhole
    cases hint : Number.ofInt? (wholeNumber value) with
    | none =>
        rw [hint] at hnumber
        subst hnumber
        rfl
    | some integer =>
        rw [hint, Option.getD_some] at hnumber
        subst hnumber
        simp only [Number.ofInt?, Option.dite_none_right_eq_some, Option.some.injEq] at hint
        obtain ⟨_, rfl⟩ := hint
        exact ofInt_wholeNumber hfinite hwhole.1 hwhole.2
  next =>
    subst hnumber
    rfl

theorem exists_number?_iff {value : Double} :
    (∃ number, number? value = some number) ↔ value.isFinite = true := by
  simp [number?, Number.ofDouble?]

end Estree

end BuilderCalls
