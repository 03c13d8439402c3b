import Mathlib
import DescriptorSql.Number.Decimal

/-!
# `Proofs/Number/Range.lean` — which numbers have a nearest finite value

Rounding fails for a number only if it is too great: at `2 ^ 1024 - 2 ^ 970`, which is as far from
the greatest finite value as from the power of two behind it, the tie goes to the power of two,
which is not finite (`nearest?_isSome_iff`). Reading a decimal number decides most magnitudes from
the number of digits alone, and decides them as rounding does (`toBinary64?_isSome_iff`).
-/

set_option autoImplicit false

namespace DescriptorSql

/-- An integer power as a quotient of two natural ones. -/
theorem zpow_eq_div {b : ℚ} (e : Int) : b ^ e = b ^ e.toNat / b ^ (-e).toNat := by
  cases e with
  | ofNat n => simp
  | negSucc n => simp [zpow_negSucc]

namespace Binary64

/-- The least number that is rounded to no finite value, `2 ^ 1024 - 2 ^ 970`. -/
def limit : ℚ := (2 ^ 54 - 1) * 2 ^ (970 : Int)

/-- The limit lies between two powers of two. -/
theorem limit_bounds : (2 : ℚ) ^ (1023 : Int) < limit ∧ limit < (2 : ℚ) ^ (1024 : Int) := by
  have hpos : (0 : ℚ) < 2 ^ (970 : Int) := zpow_pos (by norm_num) _
  rw [limit, show (1023 : Int) = 53 + 970 from rfl, show (1024 : Int) = 54 + 970 from rfl,
    zpow_add₀ two_ne_zero, zpow_add₀ two_ne_zero]
  generalize (2 : ℚ) ^ (970 : Int) = unit at hpos ⊢
  constructor
  · exact mul_lt_mul_of_pos_right (by norm_num) hpos
  · exact mul_lt_mul_of_pos_right (by norm_num) hpos

theorem two_zpow_lt_limit {e : Int} (he : e ≤ 1023) : (2 : ℚ) ^ e < limit :=
  (zpow_le_zpow_right₀ one_le_two he).trans_lt limit_bounds.1

theorem limit_lt_two_zpow {e : Int} (he : 1024 ≤ e) : limit < (2 : ℚ) ^ e :=
  limit_bounds.2.trans_le (zpow_le_zpow_right₀ one_le_two he)

theorem two_zpow_le_div_iff {num den : Nat} (hden : 0 < den) (e : Int) :
    (2 : ℚ) ^ e ≤ num / den ↔ den * Nat.pow 2 e.toNat ≤ num * Nat.pow 2 (-e).toNat := by
  have hden' : (0 : ℚ) < den := by exact_mod_cast hden
  rw [zpow_eq_div, div_le_div_iff₀ (by positivity) hden', mul_comm _ (den : ℚ)]
  exact_mod_cast Iff.rfl

/-- The floor of the logarithm is what it is called. -/
theorem floorLog2_bounds {num den : Nat} (hnum : 0 < num) (hden : 0 < den) :
    (2 : ℚ) ^ floorLog2 num den ≤ num / den ∧ (num / den : ℚ) < 2 ^ (floorLog2 num den + 1) := by
  have hnum' : (0 : ℚ) < num := by exact_mod_cast hnum
  have hden' : (0 : ℚ) < den := by exact_mod_cast hden
  have hnumLow : (2 : ℚ) ^ num.log2 ≤ num := by exact_mod_cast Nat.log2_self_le hnum.ne'
  have hnumHigh : (num : ℚ) < 2 ^ (num.log2 + 1) := by exact_mod_cast Nat.lt_log2_self
  have hdenLow : (2 : ℚ) ^ den.log2 ≤ den := by exact_mod_cast Nat.log2_self_le hden.ne'
  have hdenHigh : (den : ℚ) < 2 ^ (den.log2 + 1) := by exact_mod_cast Nat.lt_log2_self
  -- the quotient lies between the quotients of the powers around its two parts
  have hlow : (2 : ℚ) ^ ((num.log2 : Int) - den.log2 - 1) ≤ num / den := by
    rw [show ((num.log2 : Int) - den.log2 - 1) = num.log2 - (den.log2 + 1 : Nat) by push_cast; ring,
      zpow_sub₀ (by norm_num), zpow_natCast, zpow_natCast]
    gcongr
  have hhigh : (num / den : ℚ) < 2 ^ ((num.log2 : Int) - den.log2 + 1) := by
    rw [show ((num.log2 : Int) - den.log2 + 1) = (num.log2 + 1 : Nat) - den.log2 by push_cast; ring,
      zpow_sub₀ (by norm_num), zpow_natCast, zpow_natCast]
    gcongr
  unfold floorLog2
  dsimp only
  split
  · next hle => exact ⟨(two_zpow_le_div_iff hden _).mpr hle, hhigh⟩
  · next hgt =>
    refine ⟨hlow, ?_⟩
    rw [sub_add_cancel]
    exact not_le.mp (mt (two_zpow_le_div_iff hden _).mp hgt)

/-- A quotient is rounded up to an even number from half a unit below it. -/
theorem even_le_roundHalfEven_iff {n num den : Nat} (hn : n % 2 = 0) (hden : 0 < den) :
    n ≤ roundHalfEven num den ↔ 2 * (n * den) ≤ 2 * num + den := by
  have hdivision : num / den * den + num % den = num := Nat.div_add_mod' num den
  have hmod : num % den < den := Nat.mod_lt num hden
  -- a step of the quotient is a step of the divisor
  have hle : ∀ m, m ≤ num / den + 1 → m * den ≤ num / den * den + den := by
    intro m hm
    calc m * den ≤ (num / den + 1) * den := Nat.mul_le_mul_right den hm
      _ = num / den * den + den := by ring
  have hgt : ∀ m, num / den + 1 < m → num / den * den + 2 * den ≤ m * den := by
    intro m hm
    calc num / den * den + 2 * den = (num / den + 2) * den := by ring
      _ ≤ m * den := Nat.mul_le_mul_right den hm
  unfold roundHalfEven
  dsimp only
  split
  · constructor
    · intro h
      have := Nat.mul_le_mul_right den h
      omega
    · intro h
      by_contra hlt
      have := Nat.mul_le_mul_right den (show num / den + 1 ≤ n by omega)
      rw [Nat.add_mul, Nat.one_mul] at this
      omega
  split
  · constructor
    · intro h
      have := hle n h
      omega
    · intro h
      by_contra hlt
      have := hgt n (by omega)
      omega
  · constructor
    · intro h
      have := hle n (by omega)
      omega
    · intro h
      by_contra hlt
      have := hgt n (by omega)
      omega

theorem roundHalfEven_le {n num den : Nat} (h : num < n * den) : roundHalfEven num den ≤ n := by
  have hquotient : num / den < n := Nat.div_lt_of_lt_mul (by rwa [Nat.mul_comm])
  unfold roundHalfEven
  dsimp only
  split
  · exact hquotient.le
  split
  · exact hquotient
  · omega

/-- The exponent that a quotient is rounded at, its significand having 53 bits. -/
def roundingExponent (num den : Nat) : Int := max (floorLog2 num den - 52) leastExponent

/-- The significand that a quotient is rounded to at that exponent. -/
def roundedSignificand (num den : Nat) : Nat :=
  roundHalfEven (num * Nat.pow 2 (-roundingExponent num den).toNat)
    (den * Nat.pow 2 (roundingExponent num den).toNat)

/-- Rounding fails beyond the greatest exponent, and at it if the significand is rounded up to the
next power of two. -/
theorem nearest?_isSome_iff_exponent {negative : Bool} {num den : Nat} (hnum : num ≠ 0) :
    (nearest? negative num den).isSome = true ↔
      roundingExponent num den < greatestExponent ∨
        roundingExponent num den = greatestExponent ∧ roundedSignificand num den ≠ 2 ^ 53 := by
  have hunfold : nearest? negative num den =
      let rounded : Binary64 :=
        if roundedSignificand num den = 2 ^ 53 then
          ⟨negative, Nat.pow 2 52, roundingExponent num den + 1⟩
        else ⟨negative, roundedSignificand num den, roundingExponent num den⟩
      if greatestExponent < rounded.exponent then none else some rounded := by
    rw [nearest?, if_neg hnum]
    rfl
  rw [hunfold]
  generalize roundedSignificand num den = significand
  generalize roundingExponent num den = exponent
  by_cases hcarry : significand = 2 ^ 53
  · rw [if_pos hcarry]
    simp only [hcarry, ne_eq, not_true_eq_false, and_false, or_false]
    split
    · next hlt => exact iff_of_false (by simp) (by omega)
    · next hle => exact iff_of_true rfl (by omega)
  · rw [if_neg hcarry]
    simp only [hcarry, ne_eq, not_false_eq_true, and_true]
    split
    · next hlt => exact iff_of_false (by simp) (by omega)
    · next hle => exact iff_of_true rfl (by omega)

/-- At the greatest exponent a significand counts units of twice `2 ^ 970`. -/
theorem exists_halfUnit : ∃ half : Nat, 0 < half ∧ Nat.pow 2 greatestExponent.toNat = 2 * half ∧
    (2 : ℚ) ^ (970 : Int) = half := by
  have hpow : ∀ k n : Nat, n = k + 1 → ∃ half : Nat, 0 < half ∧ Nat.pow 2 n = 2 * half ∧
      (2 : ℚ) ^ (k : Int) = half := by
    rintro k _ rfl
    exact ⟨2 ^ k, Nat.two_pow_pos k, Nat.pow_succ', by simp⟩
  exact hpow 970 greatestExponent.toNat rfl

theorem div_lt_halves_iff {num den half : Nat} (hden : 0 < den) :
    (num / den : ℚ) < (2 ^ 54 - 1) * half ↔ num + den * half < 2 ^ 54 * (den * half) := by
  have hden' : (0 : ℚ) < den := by exact_mod_cast hden
  rw [div_lt_iff₀ hden',
    show ((2 ^ 54 - 1) * half * den : ℚ) = 2 ^ 54 * (den * half) - den * half by ring,
    lt_sub_iff_add_lt]
  exact_mod_cast Iff.rfl

/-- At the greatest exponent, the significand is rounded up to the next power of two from the limit
on. -/
theorem roundedSignificand_ne_iff {num den : Nat} (hden : 0 < den)
    (hexponent : roundingExponent num den = greatestExponent)
    (hhigh : (num / den : ℚ) < 2 ^ (1024 : Int)) :
    roundedSignificand num den ≠ 2 ^ 53 ↔ (num / den : ℚ) < limit := by
  obtain ⟨half, hpos, hunit, hhalf⟩ := exists_halfUnit
  have hdoubled : den * (2 * half) = 2 * (den * half) := by ring
  have hsignificand : roundedSignificand num den = roundHalfEven num (2 * (den * half)) := by
    have hone : num * Nat.pow 2 (-greatestExponent).toNat = num := Nat.mul_one num
    rw [roundedSignificand, hexponent, hunit, hdoubled, hone]
  have hlt : num < 2 ^ 53 * (2 * (den * half)) := by
    have hden' : (0 : ℚ) < den := by exact_mod_cast hden
    rw [show (1024 : Int) = 54 + 970 from rfl, zpow_add₀ two_ne_zero, hhalf, div_lt_iff₀ hden']
      at hhigh
    have hscaled : (num : ℚ) < 2 ^ 53 * (2 * (den * half)) := by
      refine hhigh.trans_eq ?_
      norm_num
      ring
    exact_mod_cast hscaled
  have hle := roundHalfEven_le hlt
  have heven : 2 ^ 53 ≤ roundHalfEven num (2 * (den * half)) ↔
      2 * (2 ^ 53 * (2 * (den * half))) ≤ 2 * num + 2 * (den * half) :=
    even_le_roundHalfEven_iff (by norm_num) (by positivity)
  rw [limit, hhalf, div_lt_halves_iff hden, hsignificand]
  constructor
  · intro hne
    have := mt heven.mpr (by omega)
    omega
  · intro hbelow heq
    have := heven.mp heq.ge
    omega

/-- There is a nearest finite value below the limit. -/
theorem nearest?_isSome_iff {negative : Bool} {num den : Nat} (hden : 0 < den) :
    (nearest? negative num den).isSome = true ↔ (num / den : ℚ) < limit := by
  rcases Nat.eq_zero_or_pos num with rfl | hnum
  · have hpos : 0 < limit := (zpow_pos two_pos _).trans limit_bounds.1
    simpa [nearest?] using hpos
  obtain ⟨hlow, hhigh⟩ := floorLog2_bounds hnum hden
  have hexponent : roundingExponent num den = max (floorLog2 num den - 52) (-1074) := rfl
  have hgreatest : greatestExponent = 971 := rfl
  rw [nearest?_isSome_iff_exponent hnum.ne']
  rcases lt_trichotomy (floorLog2 num den) 1023 with he | he | he
  · exact iff_of_true (Or.inl (by omega)) (hhigh.trans (two_zpow_lt_limit (by omega)))
  · rw [he] at hhigh
    have hne := roundedSignificand_ne_iff hden (by omega) hhigh
    rw [hne]
    constructor
    · rintro (hlt | ⟨-, hlt⟩)
      · omega
      · exact hlt
    · exact fun hlt => Or.inr ⟨by omega, hlt⟩
  · refine iff_of_false ?_ ((limit_lt_two_zpow (by omega)).trans_le hlow).not_gt
    omega

end Binary64

namespace Decimal

/-- The number, its sign aside. -/
def magnitude (d : Decimal) : ℚ := d.coefficient * 10 ^ d.exponent

theorem digitCount_bounds {n : Nat} (hn : n ≠ 0) :
    10 ^ (digitCount n - 1) ≤ n ∧ n < 10 ^ digitCount n := by
  have hcount : 0 < digitCount n := Nat.length_toDigits_pos
  refine ⟨?_, (Nat.length_toDigits_le_iff (by decide) hcount).mp le_rfl⟩
  rcases Nat.eq_zero_or_pos (digitCount n - 1) with hone | hmore
  · rw [hone]
    omega
  · by_contra hlt
    have := (Nat.length_toDigits_le_iff (b := 10) (by decide) hmore).mpr (not_le.mp hlt)
    rw [← digitCount] at this
    omega

/-- A decimal number that is read has a nearest finite value exactly if it is below the limit. -/
theorem toBinary64?_isSome_iff {d : Decimal} :
    d.toBinary64?.isSome = true ↔ d.magnitude < Binary64.limit := by
  have hlimit : (10 : ℚ) ^ (0 : Int) < Binary64.limit := by
    simpa using Binary64.two_zpow_lt_limit (show (0 : Int) ≤ 1023 by decide)
  have hten : (1 : ℚ) ≤ 10 := by norm_num
  by_cases hzero : d.coefficient = 0
  · have hpos : 0 < Binary64.limit := (zpow_pos (by norm_num) _).trans hlimit
    simpa [toBinary64?, magnitude, hzero] using hpos
  obtain ⟨hlow, hhigh⟩ := digitCount_bounds hzero
  -- the number of digits gives the magnitude up to a factor of ten
  have hbelow : d.magnitude < 10 ^ ((digitCount d.coefficient : Int) + d.exponent) := by
    rw [zpow_add₀ (by norm_num), magnitude, zpow_natCast]
    gcongr
    exact_mod_cast hhigh
  have habove : 10 ^ ((digitCount d.coefficient : Int) + d.exponent - 1) ≤ d.magnitude := by
    have hcount : 0 < digitCount d.coefficient := Nat.length_toDigits_pos
    rw [show (digitCount d.coefficient : Int) + d.exponent - 1 =
        (digitCount d.coefficient - 1 : Nat) + d.exponent by omega,
      zpow_add₀ (by norm_num), magnitude, zpow_natCast]
    gcongr
    exact_mod_cast hlow
  unfold toBinary64?
  dsimp only
  split
  · next hsmall =>
    simp only [hzero, decide_false, Bool.false_or, decide_eq_true_eq] at hsmall
    refine iff_of_true rfl (hbelow.trans_le ?_)
    exact (zpow_le_zpow_right₀ hten (by omega)).trans hlimit.le
  split
  · next hgreat =>
    refine iff_of_false (by simp) (not_lt.mpr (le_trans ?_ habove))
    have hpow : ∀ a b : Nat, Nat.pow 2 a ≤ Nat.pow 10 b → (2 : ℚ) ^ (a : Int) ≤ 10 ^ (b : Int) := by
      intro a b h
      rw [zpow_natCast, zpow_natCast]
      exact_mod_cast h
    calc Binary64.limit ≤ 2 ^ (1024 : Int) := Binary64.limit_bounds.2.le
      _ ≤ 10 ^ (309 : Int) := hpow 1024 309 (by decide +kernel)
      _ ≤ _ := zpow_le_zpow_right₀ hten (by omega)
  · have hden : 0 < Nat.pow 10 (-d.exponent).toNat := Nat.pow_pos (by decide)
    have hvalue : d.magnitude =
        (d.coefficient * Nat.pow 10 d.exponent.toNat : Nat) /
          (Nat.pow 10 (-d.exponent).toNat : Nat) := by
      rw [magnitude, zpow_eq_div, ← mul_div_assoc]
      simp
    rw [Binary64.nearest?_isSome_iff hden, hvalue]

end Decimal

end DescriptorSql
