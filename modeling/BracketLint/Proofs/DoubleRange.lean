import Mathlib.Algebra.Order.Field.Power
import Mathlib.Data.Nat.Digits.Defs
import Mathlib.Data.Rat.Floor
import Mathlib.Tactic.FieldSimp
import Mathlib.Tactic.Linarith
import Mathlib.Tactic.Positivity
import Mathlib.Tactic.Ring
import BracketLint.Decimal

/-! A numeral has a double nearest to it exactly if it is below `2 ^ 1024 - 2 ^ 970`, which lies half
a step above the greatest double. From there on rounding leads to a double that is none. -/

namespace BracketLint

namespace Double

theorem power_pos {base : Nat} (hb : 0 < base) (n : Int) :
    0 < (power base n).1 ∧ 0 < (power base n).2 := by
  unfold power
  split
  · exact ⟨Nat.pow_pos hb, Nat.one_pos⟩
  · exact ⟨Nat.one_pos, Nat.pow_pos hb⟩

theorem power_eq (base : Nat) (n : Int) :
    ((power base n).1 : ℚ) / (power base n).2 = (base : ℚ) ^ n := by
  unfold power
  split
  · rename_i hn
    obtain ⟨k, rfl⟩ := Int.eq_ofNat_of_zero_le hn
    simp
  · rename_i hn
    obtain ⟨k, hk⟩ := Int.eq_ofNat_of_zero_le (show 0 ≤ -n by omega)
    rw [hk, Int.toNat_natCast, show n = -(k : Int) by omega, zpow_neg, zpow_natCast]
    simp

/-- Rounding reaches an even number from half a unit below it on. -/
theorem roundHalfEven_eq_iff {num den n : Nat} (hn : n % 2 = 0) (h : num < n * den) :
    roundHalfEven num den = n ↔ (2 * n - 1) * den ≤ 2 * num := by
  have hpos : 0 < n * den := by omega
  have hden : 0 < den := Nat.pos_of_mul_pos_left hpos
  have hsplit := Nat.div_add_mod num den
  have hmod := Nat.mod_lt num hden
  have hq : num / den < n := (Nat.div_lt_iff_lt_mul hden).mpr h
  obtain ⟨m, rfl⟩ := Nat.exists_eq_add_one.mpr (Nat.zero_lt_of_lt hq)
  have hhalf : (2 * (m + 1) - 1) * den = 2 * (den * m) + den := by
    rw [show 2 * (m + 1) - 1 = 2 * m + 1 by omega]
    ring
  rw [hhalf]
  unfold roundHalfEven
  dsimp only
  by_cases hlast : num / den = m
  · rw [hlast] at hsplit ⊢
    split <;> omega
  · have hbelow : den * (num / den) + den ≤ den * m := by
      calc den * (num / den) + den = den * (num / den + 1) := by ring
        _ ≤ den * m := Nat.mul_le_mul_left den (by omega)
    split <;> omega

section Fraction

variable {num den : Nat}

theorem scaled_le_iff (num : Nat) (hden : 0 < den) (j k : Nat) (q : Int) :
    j * (den * (power 2 (-q)).2) ≤ k * (num * (power 2 (-q)).1) ↔
      (j : ℚ) * 2 ^ q ≤ k * (num / den) := by
  obtain ⟨hup, hdown⟩ := power_pos (show 0 < 2 by decide) (-q)
  have hpower := power_eq 2 (-q)
  generalize (power 2 (-q)).1 = up at *
  generalize (power 2 (-q)).2 = down at *
  have hq : (2 : ℚ) ^ q = down / up := by
    rw [Nat.cast_ofNat, zpow_neg] at hpower
    rw [← inv_inv ((2 : ℚ) ^ q), ← hpower, inv_div]
  have hup' : (0 : ℚ) < up := by exact_mod_cast hup
  have hden' : (0 : ℚ) < den := by exact_mod_cast hden
  rw [hq, ← mul_div_assoc, ← mul_div_assoc, div_le_div_iff₀ hup' hden']
  constructor
  · intro h
    have h' : (j : ℚ) * (den * down) ≤ k * (num * up) := by exact_mod_cast h
    linarith
  · intro h
    have h' : (j : ℚ) * (den * down) ≤ k * (num * up) := by linarith
    exact_mod_cast h'

/-- A fraction lies within a factor of two of what the binary digits of its parts say. -/
theorem log2_bounds (hnum : 0 < num) (hden : 0 < den) :
    (2 : ℚ) ^ ((num.log2 : Int) - den.log2 - 1) < num / den ∧
      (num : ℚ) / den < 2 ^ ((num.log2 : Int) - den.log2 + 1) := by
  have hn : (2 : ℚ) ^ num.log2 ≤ num := by exact_mod_cast Nat.log2_self_le hnum.ne'
  have hn' : (num : ℚ) < 2 ^ (num.log2 + 1) := by exact_mod_cast @Nat.lt_log2_self num
  have hd : (2 : ℚ) ^ den.log2 ≤ den := by exact_mod_cast Nat.log2_self_le hden.ne'
  have hd' : (den : ℚ) < 2 ^ (den.log2 + 1) := by exact_mod_cast @Nat.lt_log2_self den
  have hden' : (0 : ℚ) < den := by exact_mod_cast hden
  have hlow : (2 : ℚ) ^ ((num.log2 : Int) - den.log2 - 1) = 2 ^ num.log2 / 2 ^ (den.log2 + 1) := by
    rw [sub_sub, zpow_sub₀ two_ne_zero, zpow_natCast]
    norm_cast
  have hhigh : (2 : ℚ) ^ ((num.log2 : Int) - den.log2 + 1) = 2 ^ (num.log2 + 1) / 2 ^ den.log2 := by
    rw [sub_add_eq_add_sub, zpow_sub₀ two_ne_zero, zpow_natCast]
    norm_cast
  rw [hlow, hhigh, div_lt_div_iff₀ (by positivity) hden', div_lt_div_iff₀ hden' (by positivity)]
  constructor
  · calc (2 : ℚ) ^ num.log2 * den ≤ num * den := by gcongr
      _ < num * 2 ^ (den.log2 + 1) := by gcongr
  · calc (num : ℚ) * 2 ^ den.log2 ≤ num * den := by gcongr
      _ < 2 ^ (num.log2 + 1) * den := by gcongr

/-- The exponent at which a fraction has 53 bits before the point. -/
def fitted (num den : Nat) : Int :=
  let guess : Int := (num.log2 : Int) - (den.log2 : Int) - 52
  if (num * (power 2 (-guess)).1) / (den * (power 2 (-guess)).2) < Nat.pow 2 52 then guess - 1
  else guess

theorem fitted_bounds (hnum : 0 < num) (hden : 0 < den) :
    (2 : ℚ) ^ (fitted num den + 52) ≤ num / den ∧ (num : ℚ) / den < 2 ^ (fitted num den + 53) := by
  obtain ⟨hlow, hhigh⟩ := log2_bounds hnum hden
  obtain ⟨guess, hguess⟩ : ∃ guess : Int, guess = (num.log2 : Int) - den.log2 - 52 := ⟨_, rfl⟩
  rw [show (num.log2 : Int) - den.log2 - 1 = guess + 51 by omega] at hlow
  rw [show (num.log2 : Int) - den.log2 + 1 = guess + 53 by omega] at hhigh
  have hscaled : (num * (power 2 (-guess)).1) / (den * (power 2 (-guess)).2) < Nat.pow 2 52 ↔
      (num : ℚ) / den < 2 ^ (guess + 52) := by
    have hle := scaled_le_iff num hden (Nat.pow 2 52) 1 guess
    have hpos : 0 < den * (power 2 (-guess)).2 := Nat.mul_pos hden (power_pos (by decide) _).2
    have hpow : ((Nat.pow 2 52 : Nat) : ℚ) * 2 ^ guess = 2 ^ (guess + 52) := by
      rw [zpow_add₀ two_ne_zero, mul_comm]
      norm_num
    rw [Nat.div_lt_iff_lt_mul hpos, ← not_le, ← not_le, not_iff_not, ← hpow]
    simpa only [one_mul, Nat.cast_one] using hle
  have hfitted : fitted num den =
      if (num * (power 2 (-guess)).1) / (den * (power 2 (-guess)).2) < Nat.pow 2 52 then guess - 1
      else guess := by
    rw [hguess]
    rfl
  rw [hfitted]
  split
  · rename_i h
    rw [show guess - 1 + 52 = guess + 51 by omega, show guess - 1 + 53 = guess + 52 by omega]
    exact ⟨hlow.le, hscaled.mp h⟩
  · rename_i h
    exact ⟨not_lt.mp ((not_congr hscaled).mp h), hhigh⟩

theorem isSome_ofFraction?_eq (num den : Nat) :
    (ofFraction? num den).isSome ↔
      let q := max (fitted num den) leastExponent
      if roundHalfEven (num * (power 2 (-q)).1) (den * (power 2 (-q)).2) = Nat.pow 2 53 then
        q + 1 ≤ greatestExponent
      else q ≤ greatestExponent := by
  obtain ⟨q, hq⟩ : ∃ q, q = max (fitted num den) leastExponent := ⟨_, rfl⟩
  obtain ⟨m, hm⟩ : ∃ m, m = roundHalfEven (num * (power 2 (-q)).1) (den * (power 2 (-q)).2) :=
    ⟨_, rfl⟩
  have hdef : ofFraction? num den =
      let p := if m = Nat.pow 2 53 then (Nat.pow 2 52, q + 1) else (m, q)
      if greatestExponent < p.2 then none else some ⟨p.1, p.2⟩ := by
    rw [hm, hq]
    rfl
  rw [hdef, ← hq]
  dsimp only
  rw [← hm]
  by_cases h : m = Nat.pow 2 53
  · rw [if_pos h, if_pos h]
    split <;> simp <;> omega
  · rw [if_neg h, if_neg h]
    split <;> simp <;> omega

/-- Where numerals leave the doubles. -/
def overflow : ℚ := 2 ^ 1024 - 2 ^ 970

-- Numbers of this size are counted in steps of `2 ^ 970`, because their digits are many.

theorem overflow_eq : overflow = (2 ^ 54 - 1) * 2 ^ 970 := by
  rw [overflow, sub_mul, ← pow_add, one_mul]

theorem zpow_two_add (k : Nat) : (2 : ℚ) ^ (970 + k : Int) = 2 ^ k * 2 ^ 970 := by
  rw [zpow_add₀ two_ne_zero, zpow_natCast, mul_comm, zpow_ofNat]

theorem roundHalfEven_greatest_iff (hden : 0 < den)
    (h : (num : ℚ) / den < 2 ^ (greatestExponent + 53)) :
    roundHalfEven (num * (power 2 (-greatestExponent)).1) (den * (power 2 (-greatestExponent)).2) =
      Nat.pow 2 53 ↔ overflow ≤ num / den := by
  have hwhole := scaled_le_iff num hden (Nat.pow 2 53) 1 greatestExponent
  have hhalf := scaled_le_iff num hden (2 * Nat.pow 2 53 - 1) 2 greatestExponent
  rw [show (2 : ℚ) ^ greatestExponent = 2 * 2 ^ 970 from zpow_two_add 1] at hwhole hhalf
  rw [show (2 : ℚ) ^ (greatestExponent + 53) = 2 ^ 54 * 2 ^ 970 from zpow_two_add 54] at h
  rw [overflow_eq]
  generalize (2 : ℚ) ^ 970 = step at *
  have hbelow : num * (power 2 (-greatestExponent)).1 <
      Nat.pow 2 53 * (den * (power 2 (-greatestExponent)).2) := by
    rw [one_mul, Nat.cast_one, one_mul] at hwhole
    rw [← not_le, hwhole, not_le]
    norm_num at h ⊢
    linarith
  rw [roundHalfEven_eq_iff (by decide) hbelow, hhalf]
  norm_num
  constructor <;> intro hle <;> linarith

/-- A fraction has a nearest double if it is below the place where rounding leaves the doubles. -/
theorem isSome_ofFraction?_iff (hnum : 0 < num) (hden : 0 < den) :
    (ofFraction? num den).isSome ↔ (num : ℚ) / den < overflow := by
  obtain ⟨hlow, hhigh⟩ := fitted_bounds hnum hden
  have hleast : leastExponent < greatestExponent := by decide
  have hpos : (0 : ℚ) < 2 ^ 970 := by positivity
  have hmono {m n : Int} (h : m ≤ n) : (2 : ℚ) ^ m ≤ 2 ^ n := zpow_le_zpow_right₀ one_le_two h
  rw [isSome_ofFraction?_eq]
  generalize fitted num den = f at *
  dsimp only
  rcases lt_trichotomy f greatestExponent with hf | rfl | hf
  · have hsteps := hmono (show f + 53 ≤ 970 + (53 : Nat) by unfold greatestExponent at hf; omega)
    rw [zpow_two_add] at hsteps
    rw [overflow_eq]
    generalize (2 : ℚ) ^ 970 = step at *
    refine iff_of_true ?_ (by linarith)
    split <;> omega
  · rw [max_eq_left hleast.le]
    have hup := roundHalfEven_greatest_iff hden hhigh
    split
    · rename_i h
      exact iff_of_false (by omega) (not_lt.mpr (hup.mp h))
    · rename_i h
      exact iff_of_true le_rfl (not_le.mp ((not_congr hup).mp h))
  · have hsteps := hmono (show 970 + (54 : Nat) ≤ f + 52 by unfold greatestExponent at hf; omega)
    rw [zpow_two_add] at hsteps
    rw [overflow_eq]
    generalize (2 : ℚ) ^ 970 = step at *
    refine iff_of_false ?_ (by linarith)
    split <;> omega

end Fraction

section Numeral

variable {n : Nat}

/-- The places of a numeral tell its size up to a factor of ten. -/
theorem toDigits_bounds (hn : 0 < n) :
    10 ^ ((Nat.toDigits 10 n).length - 1) ≤ n ∧ n < 10 ^ (Nat.toDigits 10 n).length := by
  have hlength : 0 < (Nat.toDigits 10 n).length := Nat.length_toDigits_pos
  refine ⟨?_, (Nat.length_toDigits_le_iff (by decide) hlength).mp le_rfl⟩
  by_cases hone : (Nat.toDigits 10 n).length = 1
  · rw [hone]
    exact hn
  · have hle := Nat.length_toDigits_le_iff (by decide : 1 < 10) (n := n)
      (show 0 < (Nat.toDigits 10 n).length - 1 by omega)
    by_contra h
    have hfewer := hle.mpr (not_le.mp h)
    omega

theorem scaled_bounds (hn : 0 < n) (k : Int) :
    (10 : ℚ) ^ (k + (Nat.toDigits 10 n).length - 1) ≤ n * 10 ^ k ∧
      (n : ℚ) * 10 ^ k < 10 ^ (k + (Nat.toDigits 10 n).length) := by
  have hlength : 0 < (Nat.toDigits 10 n).length := Nat.length_toDigits_pos
  have hpos : (0 : ℚ) < 10 ^ k := by positivity
  obtain ⟨hlow, hhigh⟩ := toDigits_bounds hn
  obtain ⟨m, hm⟩ := Nat.exists_eq_add_one.mpr hlength
  rw [hm] at hlow hhigh ⊢
  have hlow' : (10 : ℚ) ^ m ≤ n := by exact_mod_cast hlow
  have hhigh' : (n : ℚ) < 10 ^ (m + 1) := by exact_mod_cast hhigh
  rw [show k + (m + 1 : Nat) - 1 = m + k by omega, show k + (m + 1 : Nat) = (m + 1 : Nat) + k by omega,
    zpow_add₀ (by norm_num), zpow_add₀ (by norm_num), zpow_natCast, zpow_natCast]
  exact ⟨by gcongr, by gcongr⟩

end Numeral

theorem one_le_overflow : 1 ≤ overflow := by
  rw [overflow_eq]
  exact one_le_mul_of_one_le_of_one_le (by norm_num) (one_le_pow₀ one_le_two)

theorem overflow_le : overflow ≤ 10 ^ 310 := by
  have h : (2 : ℚ) ^ 1024 ≤ 10 ^ 310 := by
    exact_mod_cast (by decide +kernel : 2 ^ 1024 ≤ 10 ^ 310)
  exact (sub_le_self _ (by positivity)).trans h

/-- A numeral has a nearest double if its size is below the place where rounding leaves the
doubles. -/
theorem isSome_ofDecimal?_iff (d : Decimal) :
    (ofDecimal? d).isSome ↔ (d.digits : ℚ) * 10 ^ d.exponent < overflow := by
  unfold ofDecimal?
  dsimp only
  split
  · rename_i h
    rw [h, Nat.cast_zero, zero_mul]
    exact iff_of_true rfl (zero_lt_one.trans_le one_le_overflow)
  · rename_i h
    have hpos := Nat.pos_of_ne_zero h
    obtain ⟨hlow, hhigh⟩ := scaled_bounds hpos d.exponent
    split
    · rename_i hlarge
      refine iff_of_false Bool.false_ne_true (not_lt.mpr ?_)
      calc overflow ≤ (10 : ℚ) ^ (310 : Int) := overflow_le
        _ ≤ 10 ^ (d.exponent + (Nat.toDigits 10 d.digits).length - 1) :=
          zpow_le_zpow_right₀ (by norm_num) (by omega)
        _ ≤ _ := hlow
    · split
      · rename_i hsmall
        refine iff_of_true rfl (hhigh.trans_le ?_)
        calc (10 : ℚ) ^ (d.exponent + (Nat.toDigits 10 d.digits).length) ≤ 10 ^ (0 : Int) :=
              zpow_le_zpow_right₀ (by norm_num) (by omega)
          _ ≤ overflow := one_le_overflow
      · obtain ⟨hup, hdown⟩ := power_pos (show 0 < 10 by decide) d.exponent
        rw [isSome_ofFraction?_iff (Nat.mul_pos hpos hup) hdown, Nat.cast_mul, mul_div_assoc, power_eq,
          Nat.cast_ofNat]

/-- A numeral can be told if it has a nearest double. -/
theorem isSome_doubleText?_iff (d : Decimal) :
    d.doubleText?.isSome ↔ (d.digits : ℚ) * 10 ^ d.exponent < overflow := by
  rw [Decimal.doubleText?, Option.isSome_map, isSome_ofDecimal?_iff]

end Double
end BracketLint
