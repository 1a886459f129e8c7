import BuilderCalls.Proofs.Number.Shortest

/-!
# Decimals that stand for one number

A decimal is rounded by its value: trailing zeros may be written as digits or counted in
the exponent.  The shortest decimal of a finite magnitude reads back to the magnitude;
where no candidate of few digits does, the exact decimal is taken, and it does.
-/

namespace BuilderCalls

namespace Double

variable {numerator denominator : Nat}

theorem nearest_mul_right {factor : Nat} (hfactor : 0 < factor) :
    nearest (numerator * factor) (denominator * factor) = nearest numerator denominator := by
  have hscaled : (numerator * factor) <<< 1074 = numerator <<< 1074 * factor := by
    simp only [Nat.shiftLeft_eq, Nat.mul_right_comm]
  have hbelow : ∀ left right : Nat, 2 * (left * factor) < right * (denominator * factor) ↔
      2 * left < right * denominator := by
    intro left right
    rw [← Nat.mul_assoc, ← Nat.mul_assoc, Nat.mul_lt_mul_right hfactor]
  have habove : ∀ left right : Nat, right * (denominator * factor) < 2 * (left * factor) ↔
      right * denominator < 2 * left := by
    intro left right
    rw [← Nat.mul_assoc, ← Nat.mul_assoc, Nat.mul_lt_mul_right hfactor]
  simp only [nearest, hscaled, Nat.mul_div_mul_right _ _ hfactor, hbelow, habove]

/-- Equal quotients have the same nearest magnitude. -/
theorem nearest_congr {numerator' denominator' : Nat} (hpos : 0 < denominator)
    (hpos' : 0 < denominator')
    (hcross : numerator * denominator' = numerator' * denominator) :
    nearest numerator denominator = nearest numerator' denominator' :=
  calc nearest numerator denominator
      = nearest (numerator * denominator') (denominator * denominator') :=
        (nearest_mul_right hpos').symm
    _ = nearest (numerator' * denominator) (denominator' * denominator) := by
        rw [hcross, Nat.mul_comm denominator]
    _ = nearest numerator' denominator' := nearest_mul_right hpos

theorem units_pos {magnitude : Nat} (hpos : 0 < magnitude) : 0 < units magnitude := by
  obtain ⟨previous, rfl⟩ := Nat.exists_eq_succ_of_ne_zero hpos.ne'
  exact (Nat.zero_le _).trans_lt (units_lt_units_succ previous)

end Double

namespace Decimal

/-! ## Shifted digits -/

theorem toDouble_eq (negative : Bool) (decimal : Decimal) :
    decimal.toDouble negative =
      if decimal.digits = 0 ∨ digitCount decimal.digits + decimal.exponent < -330 then
        .zero negative
      else if 310 < digitCount decimal.digits + decimal.exponent then .infinity negative
      else .ofRatio negative (decimal.digits * 10 ^ decimal.exponent.toNat)
        (10 ^ (-decimal.exponent).toNat) := by
  obtain ⟨digits, exponent⟩ := decimal
  simp only [toDouble, Bool.or_eq_true, decide_eq_true_eq]
  cases exponent with
  | ofNat power => simp [tenTo_eq]
  | negSucc power => simp [tenTo_eq, Int.neg_negSucc]

/-- Zeros at the end of the digits count as tens of the exponent. -/
theorem toDouble_mul_tenTo (negative : Bool) (digits power : Nat) (exponent : Int) :
    toDouble negative ⟨digits * tenTo power, exponent⟩ =
      toDouble negative ⟨digits, exponent + power⟩ := by
  rcases Nat.eq_zero_or_pos digits with rfl | hpos
  · simp [toDouble_eq]
  · have hdigits : digits * tenTo power ≠ 0 :=
      (Nat.mul_pos hpos (Nat.pow_pos (by decide))).ne'
    have hlead : ((digitCount (digits * tenTo power) : Nat) : Int) + exponent =
        digitCount digits + (exponent + power) := by
      rw [digitCount_mul_tenTo hpos]
      omega
    have hnearest : Double.nearest (digits * tenTo power * 10 ^ exponent.toNat)
          (10 ^ (-exponent).toNat) =
        Double.nearest (digits * 10 ^ (exponent + power).toNat)
          (10 ^ (-(exponent + power)).toNat) := by
      apply Double.nearest_congr (Nat.pow_pos (by decide)) (Nat.pow_pos (by decide))
      simp only [tenTo_eq, Nat.mul_assoc, ← Nat.pow_add]
      congr 2
      omega
    rw [toDouble_eq, toDouble_eq]
    simp only [hdigits, hpos.ne', hlead, Double.ofRatio, hnearest]

/-! ## Reading back -/

theorem toDouble_negative (negative : Bool) (decimal : Decimal) :
    decimal.toDouble negative =
      ⟨negative, (decimal.toDouble false).magnitude, (decimal.toDouble false).magnitude_lt⟩ := by
  rw [toDouble_eq, Double.mk.injEq]
  simp only [toDouble_eq]
  split
  · exact ⟨rfl, rfl⟩
  · split
    · exact ⟨rfl, rfl⟩
    · exact ⟨rfl, rfl⟩

theorem toDouble_of_readsBack {double : Double} {decimal : Decimal}
    (hreads : readsBack double.magnitude decimal = true) :
    decimal.toDouble double.negative = double := by
  have hmagnitude : (decimal.toDouble false).magnitude = double.magnitude := beq_iff_eq.mp hreads
  rw [toDouble_negative]
  cases double
  simp_all

variable {magnitude : Nat}

theorem digits_pos_of_readsBack {decimal : Decimal} (hpos : 0 < magnitude)
    (hreads : readsBack magnitude decimal = true) : 0 < decimal.digits := by
  rw [Nat.pos_iff_ne_zero]
  intro hzero
  rw [readsBack, beq_iff_eq, toDouble_eq, if_pos (.inl hzero)] at hreads
  exact hpos.ne hreads

theorem lt_digitCount {value power : Nat} (hvalue : 10 ^ power ≤ value) :
    power < digitCount value :=
  (Nat.pow_lt_pow_iff_right (by decide)).mp (hvalue.trans_lt (lt_tenTo_digitCount value))

/-- The exact digits of a finite magnitude are neither too many nor too few. -/
theorem digitCount_exact (hpos : 0 < magnitude) (hfinite : magnitude < infiniteMagnitude) :
    743 < digitCount (exact magnitude).digits ∧ digitCount (exact magnitude).digits ≤ 1384 := by
  have hlow : 10 ^ 743 ≤ (exact magnitude).digits :=
    calc 10 ^ 743 ≤ Nat.pow 5 1074 := by decide +kernel
      _ ≤ Double.units magnitude * Nat.pow 5 1074 :=
          Nat.le_mul_of_pos_left _ (Double.units_pos hpos)
  have hfives : 0 < Nat.pow 5 1074 := by decide +kernel
  have hhigh : (exact magnitude).digits < 10 ^ 1384 :=
    calc Double.units magnitude * Nat.pow 5 1074
        < 2 ^ 1024 * 2 ^ 1074 * Nat.pow 5 1074 :=
          Nat.mul_lt_mul_of_pos_right (Double.units_lt hfinite) hfives
      _ ≤ 10 ^ 1384 := by decide +kernel
  exact ⟨lt_digitCount hlow, digitCount_le_of_lt (by decide) hhigh⟩

theorem nearest_exact (magnitude : Nat) :
    Double.nearest (exact magnitude).digits (10 ^ 1074) = magnitude := by
  apply Double.nearest_of_units (Nat.pow_pos (by decide))
  change (Double.units magnitude * Nat.pow 5 1074) <<< 1074 = _
  generalize 1074 = places
  rw [Nat.shiftLeft_eq, Nat.mul_assoc, Nat.mul_comm (Nat.pow 5 places)]
  exact congrArg _ (Nat.mul_pow 2 5 places).symm

theorem readsBack_exact (hpos : 0 < magnitude) (hfinite : magnitude < infiniteMagnitude) :
    readsBack magnitude (exact magnitude) = true := by
  obtain ⟨hmany, hfew⟩ := digitCount_exact hpos hfinite
  have hdigits : (exact magnitude).digits ≠ 0 := by
    intro hzero
    rw [hzero] at hmany
    exact absurd hmany (by decide)
  have hexponent : (exact magnitude).exponent = -1074 := rfl
  have htens : (-1074 : Int).toNat = 0 := rfl
  have htenths : (-(-1074) : Int).toNat = 1074 := rfl
  unfold readsBack
  rw [beq_iff_eq, toDouble_eq, hexponent, if_neg (by omega), if_neg (by omega),
    magnitude_ofRatio hfinite, htens, htenths, Nat.pow_zero, Nat.mul_one, nearest_exact]

theorem readsBack_shortest (tie : Tie) (hpos : 0 < magnitude)
    (hfinite : magnitude < infiniteMagnitude) :
    readsBack magnitude (shortest tie magnitude) = true := by
  unfold shortest
  cases hfind : (List.range 17).findSome? fun index => candidate tie magnitude (index + 1) with
  | none => exact readsBack_exact hpos hfinite
  | some decimal =>
      obtain ⟨index, -, hcandidate⟩ := List.exists_of_findSome?_eq_some hfind
      exact (candidate_eq_some hcandidate).1

end Decimal

end BuilderCalls
