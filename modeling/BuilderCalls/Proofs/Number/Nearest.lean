import BuilderCalls.Json.Basic
import Mathlib.Data.Nat.Bitwise
import Mathlib.Tactic.Ring

/-!
# Rounding to nearest

Every magnitude is a scale and a significand: `shift * scaleBit + significand`
stands for `significand * 2 ^ shift` units.  In these terms `floorMagnitude`
undoes `units`, the units grow with the magnitude, and so a quotient that is
exactly the units of a magnitude is rounded to this magnitude.
-/

namespace BuilderCalls.Double

/-! ## Scale and significand -/

/-- Significands take 53 bits, and all of them unless the scale is the lowest. -/
structure Scaled (shift significand : Nat) : Prop where
  full : shift = 0 ∨ scaleBit ≤ significand
  lt : significand < 2 * scaleBit

theorem exists_scaled (magnitude : Nat) :
    ∃ shift significand, Scaled shift significand ∧
      magnitude = shift * scaleBit + significand := by
  have hsplit := Nat.div_add_mod magnitude scaleBit
  have hmod := Nat.mod_lt magnitude (show scaleBit > 0 by decide)
  by_cases hscale : magnitude / scaleBit = 0
  · refine ⟨0, magnitude, ⟨.inl rfl, ?_⟩, by omega⟩
    rw [hscale] at hsplit
    omega
  · obtain ⟨shift, hshift⟩ := Nat.exists_eq_succ_of_ne_zero hscale
    refine ⟨shift, scaleBit + magnitude % scaleBit, ⟨.inr (Nat.le_add_right _ _), by omega⟩, ?_⟩
    rw [hshift, Nat.mul_succ] at hsplit
    rw [Nat.mul_comm]
    omega

variable {shift significand : Nat}

theorem units_scaled (hscaled : Scaled shift significand) :
    units (shift * scaleBit + significand) = significand * 2 ^ shift := by
  obtain ⟨hfull, hlt⟩ := hscaled
  have hscale : (shift * scaleBit + significand) / scaleBit - 1 = shift := by
    rw [Nat.add_comm, Nat.add_mul_div_right _ _ (by decide)]
    rcases hfull with rfl | hfull
    · have hdiv : significand / scaleBit < 2 := Nat.div_lt_of_lt_mul (by omega)
      omega
    · have hdiv : significand / scaleBit = 1 :=
        Nat.div_eq_of_lt_le (by omega) (by omega)
      omega
  simp only [units, hscale, Nat.add_sub_cancel_left, Nat.shiftLeft_eq]

theorem floorMagnitude_scaled (hscaled : Scaled shift significand) :
    floorMagnitude (significand * 2 ^ shift) = shift * scaleBit + significand := by
  obtain ⟨hfull, hlt⟩ := hscaled
  have hbit : scaleBit = 2 ^ 52 := by decide
  have hlog : Nat.log2 (significand * 2 ^ shift) - 52 = shift := by
    rcases hfull with rfl | hfull
    · by_cases hzero : significand = 0
      · simp [hzero]
      · have hsmall : significand < 2 ^ 53 := by omega
        have := (Nat.log2_lt hzero).mpr hsmall
        simp only [Nat.pow_zero, Nat.mul_one]
        omega
    · have hlog : Nat.log2 (significand * 2 ^ shift) = 52 + shift := by
        refine (Nat.log2_eq_iff (Nat.mul_ne_zero (by omega) (by simp))).mpr ⟨?_, ?_⟩
        · rw [Nat.pow_add, ← hbit]
          exact Nat.mul_le_mul_right _ hfull
        · rw [show 52 + shift + 1 = 53 + shift by omega, Nat.pow_add]
          exact Nat.mul_lt_mul_of_pos_right (by omega) (by simp)
      omega
  simp only [floorMagnitude, hlog, Nat.shiftRight_eq_div_pow]
  rw [Nat.mul_div_cancel _ (by simp)]

/-! ## Units -/

theorem floorMagnitude_units (magnitude : Nat) : floorMagnitude (units magnitude) = magnitude := by
  obtain ⟨shift, significand, hscaled, rfl⟩ := exists_scaled magnitude
  rw [units_scaled hscaled, floorMagnitude_scaled hscaled]

/-- After the last significand of a scale comes the first one of the next. -/
theorem units_scaled_succ (hscaled : Scaled shift significand) :
    units (shift * scaleBit + significand + 1) = (significand + 1) * 2 ^ shift := by
  by_cases hlast : significand + 1 = 2 * scaleBit
  · have hnext : Scaled (shift + 1) scaleBit := ⟨.inr le_rfl, by decide⟩
    have hcarry : shift * scaleBit + significand + 1 = (shift + 1) * scaleBit + scaleBit := by
      rw [Nat.add_mul]
      omega
    rw [hcarry, units_scaled hnext, hlast, Nat.pow_succ]
    ring
  · have hnext : Scaled shift (significand + 1) :=
      ⟨hscaled.full.imp_right (by omega), by have := hscaled.lt; omega⟩
    rw [Nat.add_assoc, units_scaled hnext]

theorem units_lt_units_succ (magnitude : Nat) : units magnitude < units (magnitude + 1) := by
  obtain ⟨shift, significand, hscaled, rfl⟩ := exists_scaled magnitude
  rw [units_scaled hscaled, units_scaled_succ hscaled]
  exact Nat.mul_lt_mul_of_pos_right (Nat.lt_succ_self _) (by simp)

theorem units_lt {magnitude : Nat} (hfinite : magnitude < infiniteMagnitude) :
    units magnitude < 2 ^ 1024 * 2 ^ 1074 := by
  obtain ⟨shift, significand, hscaled, rfl⟩ := exists_scaled magnitude
  have hbit : 2 * scaleBit = 2 ^ 53 := by decide
  have hshift : shift ≤ 2045 := by
    rcases hscaled.full with rfl | hfull
    · omega
    · by_contra hlarge
      have hmul : 2046 * scaleBit ≤ shift * scaleBit := Nat.mul_le_mul_right _ (by omega)
      have hbound : infiniteMagnitude = 2046 * scaleBit + scaleBit := by decide
      omega
  rw [units_scaled hscaled, ← Nat.pow_add]
  calc significand * 2 ^ shift < 2 ^ 53 * 2 ^ shift :=
        Nat.mul_lt_mul_of_pos_right (hbit ▸ hscaled.lt) (by simp)
    _ = 2 ^ (53 + shift) := (Nat.pow_add _ _ _).symm
    _ ≤ 2 ^ (1024 + 1074) := Nat.pow_le_pow_right (by decide) (by omega)

/-! ## Rounding -/

theorem nearest_of_units {magnitude numerator denominator : Nat} (hpos : 0 < denominator)
    (hexact : numerator <<< 1074 = units magnitude * denominator) :
    nearest numerator denominator = magnitude := by
  have hlow : numerator <<< 1074 / denominator = units magnitude := by
    rw [hexact, Nat.mul_div_cancel _ hpos]
  have hbelow : 2 * (numerator <<< 1074) <
      (units magnitude + units (magnitude + 1)) * denominator := by
    rw [hexact, ← Nat.mul_assoc]
    refine Nat.mul_lt_mul_of_pos_right ?_ hpos
    have := units_lt_units_succ magnitude
    omega
  simp only [nearest, hlow, floorMagnitude_units, if_pos hbelow]

/-- A quotient is rounded to one of its two neighbours. -/
theorem nearest_eq_or (numerator denominator : Nat) :
    nearest numerator denominator = floorMagnitude (numerator <<< 1074 / denominator) ∨
      nearest numerator denominator =
        floorMagnitude (numerator <<< 1074 / denominator) + 1 := by
  unfold nearest
  dsimp only
  split
  · exact .inl rfl
  · split
    · exact .inr rfl
    · split
      · exact .inl rfl
      · exact .inr rfl

theorem nearest_le (numerator denominator : Nat) :
    nearest numerator denominator ≤
      floorMagnitude (numerator <<< 1074 / denominator) + 1 := by
  rcases nearest_eq_or numerator denominator with hlow | hhigh <;> omega

theorem floorMagnitude_lt {count power : Nat} (hcount : count < 2 ^ (power + 53)) :
    floorMagnitude count < (power + 2) * scaleBit := by
  have hbit : 2 * scaleBit = 2 ^ 53 := by decide
  have hshift : Nat.log2 count - 52 ≤ power := by
    by_cases hzero : count = 0
    · simp [hzero]
    · have := (Nat.log2_lt hzero).mpr hcount
      omega
  have hsignificand : count >>> (Nat.log2 count - 52) < 2 * scaleBit := by
    rw [Nat.shiftRight_eq_div_pow, hbit]
    refine Nat.div_lt_of_lt_mul (Nat.lt_log2_self.trans_le ?_)
    rw [← Nat.pow_add]
    exact Nat.pow_le_pow_right (by decide) (by omega)
  calc floorMagnitude count
      < (Nat.log2 count - 52) * scaleBit + 2 * scaleBit := Nat.add_lt_add_left hsignificand _
    _ ≤ power * scaleBit + 2 * scaleBit := by gcongr
    _ = (power + 2) * scaleBit := (Nat.add_mul _ _ _).symm

end Double

/-- Integers of 64 bits are far below the greatest double. -/
theorem Number.isFinite_toDouble (number : Number) : number.toDouble.isFinite = true := by
  cases number with
  | double value finite => exact finite
  | integer value fits =>
      have hword : value.natAbs < 2 ^ 64 := by
        obtain ⟨hlow, hhigh⟩ := fits
        omega
      have hcount : value.natAbs <<< 1074 / 1 < 2 ^ (1085 + 53) := by
        rw [Nat.div_one, show 1085 + 53 = 64 + 1074 from rfl]
        exact Nat.shiftLeft_lt hword
      have hbound : (1085 + 2) * scaleBit < infiniteMagnitude := by decide
      have hnearest : Double.nearest value.natAbs 1 < infiniteMagnitude :=
        calc Double.nearest value.natAbs 1
            ≤ Double.floorMagnitude (value.natAbs <<< 1074 / 1) + 1 := Double.nearest_le _ _
          _ ≤ (1085 + 2) * scaleBit := Double.floorMagnitude_lt hcount
          _ < infiniteMagnitude := hbound
      exact decide_eq_true ((Nat.min_le_left _ _).trans_lt hnearest)

end BuilderCalls
