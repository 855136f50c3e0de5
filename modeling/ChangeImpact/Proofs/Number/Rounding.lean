import ChangeImpact.Number.Timestamp
import Mathlib.Algebra.Order.Field.Basic
import Mathlib.Algebra.Order.Floor.Semifield
import Mathlib.Data.Int.Log
import Mathlib.Data.Rat.Floor
import Mathlib.Tactic.FieldSimp
import Mathlib.Tactic.Linarith
import Mathlib.Tactic.NormNum
import Mathlib.Tactic.Positivity
import Mathlib.Tactic.Ring

/-!
# Rounding to binary numbers

A quotient is rounded with integer arithmetic alone.  What comes out depends on the value of the quotient
and not on its numerator and denominator (`ofRatio_eq_nearest`, `ofDecimal_eq_nearest`), it has the one
form that its value has (`canonical_nearest`), and a value that is near enough to a binary number is
rounded to it (`nearest_of_close`).

A binary number has gaps of different sizes on its two sides if its significand is the least one.  The
distance that is near enough is therefore measured by the number itself, as the part `2 ^ -54` of it: this
is at most half of the larger gap and half of the smaller one.
-/

namespace ChangeImpact.Binary64

variable {q y : ℚ} {num den n m : ℕ} {e : ℤ} {negative : Bool}

/-! ## Powers -/

theorem zpow_eq_div (b : ℚ) (e : ℤ) : b ^ e = b ^ e.toNat / b ^ (-e).toNat := by
  rcases Int.eq_nat_or_neg e with ⟨n, rfl | rfl⟩
  · simp
  · rw [zpow_neg, zpow_natCast, neg_neg, Int.toNat_natCast, Int.toNat_neg_natCast, pow_zero, one_div]

section Quotients

variable {b x z : ℚ} {i j : ℤ}

theorem zpow_le_div (hb : 0 < b) (hz : 0 < z) (hx : b ^ i ≤ x) (hhigh : z < b ^ (j + 1)) :
    b ^ (i - j - 1) ≤ x / z := by
  rw [le_div_iff₀ hz]
  calc b ^ (i - j - 1) * z
      ≤ b ^ (i - j - 1) * b ^ (j + 1) := mul_le_mul_of_nonneg_left hhigh.le (zpow_pos hb _).le
    _ = b ^ i := by
        rw [← zpow_add₀ hb.ne']
        congr 1
        ring
    _ ≤ x := hx

theorem div_lt_zpow (hb : 0 < b) (hx : x < b ^ (i + 1)) (hlow : b ^ j ≤ z) : x / z < b ^ (i - j + 1) := by
  have hz : 0 < z := lt_of_lt_of_le (zpow_pos hb j) hlow
  rw [div_lt_iff₀ hz]
  calc x < b ^ (i + 1) := hx
    _ = b ^ (i - j + 1) * b ^ j := by
        rw [← zpow_add₀ hb.ne']
        congr 1
        ring
    _ ≤ b ^ (i - j + 1) * z := mul_le_mul_of_nonneg_left hlow (zpow_pos hb _).le

end Quotients

/-- The logarithm of a quotient, from those of its numerator and denominator. -/
theorem log_div_eq {b : ℕ} (hb : 1 < b) {i j : ℕ} (hnum : b ^ i ≤ num ∧ num < b ^ (i + 1))
    (hden : b ^ j ≤ den ∧ den < b ^ (j + 1)) :
    Int.log b (num / den : ℚ) =
      if (num / den : ℚ) < (b : ℚ) ^ ((i : ℤ) - j) then (i : ℤ) - j - 1 else (i : ℤ) - j := by
  have hbpos : (0 : ℚ) < b := by exact_mod_cast Nat.lt_trans Nat.zero_lt_one hb
  have hnumlow : (b : ℚ) ^ (i : ℤ) ≤ num := by exact_mod_cast hnum.1
  have hnumhigh : (num : ℚ) < (b : ℚ) ^ ((i : ℤ) + 1) := by exact_mod_cast hnum.2
  have hdenlow : (b : ℚ) ^ (j : ℤ) ≤ den := by exact_mod_cast hden.1
  have hdenhigh : (den : ℚ) < (b : ℚ) ^ ((j : ℤ) + 1) := by exact_mod_cast hden.2
  have hdenpos : (0 : ℚ) < den := lt_of_lt_of_le (zpow_pos hbpos _) hdenlow
  have hpos : (0 : ℚ) < num / den := div_pos (lt_of_lt_of_le (zpow_pos hbpos _) hnumlow) hdenpos
  -- so the logarithm is one of two numbers, and the comparison tells which
  have hlow := zpow_le_div hbpos hdenpos hnumlow hdenhigh
  have hhigh := div_lt_zpow hbpos hnumhigh hdenlow
  rw [Int.zpow_le_iff_le_log hb hpos] at hlow
  rw [Int.lt_zpow_iff_log_lt hb hpos] at hhigh
  split
  · rename_i hsmall
    rw [Int.lt_zpow_iff_log_lt hb hpos] at hsmall
    omega
  · rename_i hlarge
    rw [Int.lt_zpow_iff_log_lt hb hpos] at hlarge
    omega

/-! ## Natural numbers -/

/-- The natural number nearest to a rational one; of two the even one. -/
def roundEven (q : ℚ) : ℕ :=
  if 2 * (q - ⌊q⌋₊) < 1 then ⌊q⌋₊
  else if 1 < 2 * (q - ⌊q⌋₊) then ⌊q⌋₊ + 1
  else ⌊q⌋₊ + ⌊q⌋₊ % 2

theorem divideToEven_eq_roundEven (hden : 0 < den) : divideToEven num den = roundEven (num / den) := by
  have hdenpos : (0 : ℚ) < den := by exact_mod_cast hden
  have hfloor : ⌊(num / den : ℚ)⌋₊ = num / den := Nat.floor_div_eq_div num den
  have hrest : (num / den : ℚ) - (num / den : ℕ) = (num % den : ℕ) / den := by
    have hsum : (num : ℚ) = den * (num / den : ℕ) + (num % den : ℕ) := by
      exact_mod_cast (Nat.div_add_mod num den).symm
    rw [eq_div_iff hdenpos.ne', sub_mul, div_mul_cancel₀ _ hdenpos.ne']
    linarith
  have hless : 2 * ((num % den : ℕ) / den : ℚ) < 1 ↔ 2 * (num % den) < den := by
    rw [← mul_div_assoc, div_lt_one hdenpos]
    exact_mod_cast Iff.rfl
  have hmore : 1 < 2 * ((num % den : ℕ) / den : ℚ) ↔ den < 2 * (num % den) := by
    rw [← mul_div_assoc, one_lt_div hdenpos]
    exact_mod_cast Iff.rfl
  simp only [divideToEven, roundEven, hfloor, hrest, hless, hmore]

theorem abs_roundEven_sub_le (hq : 0 ≤ q) : |(roundEven q : ℚ) - q| ≤ 1 / 2 := by
  have hlow := Nat.floor_le hq
  have hhigh := Nat.lt_floor_add_one q
  rw [abs_le, roundEven]
  split
  · constructor
    · linarith
    · linarith
  · split
    · push_cast
      constructor
      · linarith
      · linarith
    · have hmod : (⌊q⌋₊ % 2 : ℕ) = 0 ∨ (⌊q⌋₊ % 2 : ℕ) = 1 := Nat.mod_two_eq_zero_or_one _
      rcases hmod with hmod | hmod
      · rw [hmod]
        push_cast
        constructor
        · linarith
        · linarith
      · rw [hmod]
        push_cast
        constructor
        · linarith
        · linarith

/-- A number that is nearer than one half is the one that is rounded to. -/
theorem roundEven_eq_of_abs_lt (hq : 0 ≤ q) (h : |q - n| < 1 / 2) : roundEven q = n := by
  have hround := abs_roundEven_sub_le hq
  rw [abs_le] at hround
  rw [abs_lt] at h
  have hlow : (roundEven q : ℚ) < n + 1 := by linarith
  have hhigh : (n : ℚ) < roundEven q + 1 := by linarith
  have hlow' : roundEven q < n + 1 := by exact_mod_cast hlow
  have hhigh' : n < roundEven q + 1 := by exact_mod_cast hhigh
  omega

theorem roundEven_le (hq : 0 ≤ q) (h : q < n) : roundEven q ≤ n := by
  have hround := (abs_le.mp (abs_roundEven_sub_le hq)).2
  have hlow : (roundEven q : ℚ) < n + 1 := by linarith
  have hlow' : roundEven q < n + 1 := by exact_mod_cast hlow
  omega

theorem le_roundEven (h : (n : ℚ) ≤ q) : n ≤ roundEven q := by
  have hq : 0 ≤ q := le_trans (Nat.cast_nonneg n) h
  have hround := (abs_le.mp (abs_roundEven_sub_le hq)).1
  have hhigh : (n : ℚ) < roundEven q + 1 := by linarith
  have hhigh' : n < roundEven q + 1 := by exact_mod_cast hhigh
  omega

/-! ## Binary numbers -/

/-- The exponent of the binary numbers around a positive rational. -/
def exponentAt (q : ℚ) : ℤ :=
  max leastExponent (Int.log 2 q - 52)

/-- The binary number nearest to a positive rational. -/
def nearest (negative : Bool) (q : ℚ) : Binary64 :=
  let (significand, exponent) :=
    if roundEven (q / 2 ^ exponentAt q) = 2 ^ 53 then (2 ^ 52, exponentAt q + 1)
    else (roundEven (q / 2 ^ exponentAt q), exponentAt q)
  if greatestExponent < exponent then infinite negative else finite negative significand exponent

theorem scaleDown_div (num : ℕ) {den : ℕ} (hden : 0 < den) (e : ℤ) :
    0 < (scaleDown num den e).2 ∧
      ((scaleDown num den e).1 / (scaleDown num den e).2 : ℚ) = num / den / 2 ^ e := by
  have hdenpos : (den : ℚ) ≠ 0 := by exact_mod_cast hden.ne'
  refine ⟨Nat.mul_pos hden (Nat.pow_pos (by decide)), ?_⟩
  rw [zpow_eq_div]
  simp only [scaleDown, Nat.pow_eq, Nat.cast_mul, Nat.cast_pow, Nat.cast_ofNat]
  field_simp

theorem exponentOf_eq (hnum : 0 < num) (hden : 0 < den) :
    exponentOf num den = exponentAt (num / den) := by
  have hpos : (0 : ℚ) < num / den := div_pos (by exact_mod_cast hnum) (by exact_mod_cast hden)
  have hlog := log_div_eq one_lt_two ⟨Nat.log2_self_le hnum.ne', Nat.lt_log2_self⟩
    ⟨Nat.log2_self_le hden.ne', Nat.lt_log2_self⟩
  obtain ⟨hscaled, hvalue⟩ := scaleDown_div num hden ((num.log2 : ℤ) - den.log2 - 52)
  have hless : (scaleDown num den ((num.log2 : ℤ) - den.log2 - 52)).1 <
      Nat.pow 2 52 * (scaleDown num den ((num.log2 : ℤ) - den.log2 - 52)).2 ↔
      (num / den : ℚ) < 2 ^ ((num.log2 : ℤ) - den.log2) := by
    have hsplit : (2 : ℚ) ^ ((num.log2 : ℤ) - den.log2) =
        2 ^ 52 * 2 ^ ((num.log2 : ℤ) - den.log2 - 52) := by
      rw [← zpow_natCast, ← zpow_add₀ two_ne_zero]
      congr 1
      push_cast
      ring
    rw [hsplit, ← div_lt_iff₀ (zpow_pos two_pos _), ← hvalue, div_lt_iff₀ (by exact_mod_cast hscaled)]
    exact_mod_cast Iff.rfl
  rw [exponentOf, exponentAt, hlog]
  simp only [hless, Nat.cast_ofNat]
  congr 1
  split
  · ring
  · rfl

/-- The number nearest to a quotient depends on the value of the quotient alone. -/
theorem ofRatio_eq_nearest (hnum : 0 < num) (hden : 0 < den) :
    ofRatio negative num den = nearest negative (num / den) := by
  obtain ⟨hscaled, hvalue⟩ := scaleDown_div num hden (exponentAt (num / den))
  have hzero : ¬ (num = 0 ∨ den = 0) := by omega
  rw [ofRatio, if_neg hzero, nearest]
  simp only [exponentOf_eq hnum hden, divideToEven_eq_roundEven hscaled, hvalue, Nat.pow_eq]

/-! ## The form of a number -/

/-- A number in the one form that its value has. -/
def Canonical : Binary64 → Prop
  | finite _ significand exponent =>
    significand < 2 ^ 53 ∧ (2 ^ 52 ≤ significand ∨ exponent = leastExponent) ∧
      leastExponent ≤ exponent ∧ exponent ≤ greatestExponent
  | _ => True

theorem div_zpow_exponentAt_lt (q : ℚ) : q / 2 ^ exponentAt q < 2 ^ 53 := by
  have hlog := Int.lt_zpow_succ_log_self one_lt_two q
  rw [div_lt_iff₀ (zpow_pos two_pos _)]
  calc q < 2 ^ (Int.log 2 q + 1) := hlog
    _ ≤ 2 ^ (53 + exponentAt q) := zpow_le_zpow_right₀ one_le_two (by rw [exponentAt]; omega)
    _ = 2 ^ 53 * 2 ^ exponentAt q := by rw [zpow_add₀ two_ne_zero]; rfl

theorem le_div_zpow_exponentAt (hq : 0 < q) (h : leastExponent < exponentAt q) :
    2 ^ 52 ≤ q / 2 ^ exponentAt q := by
  have hlog := Int.zpow_log_le_self one_lt_two hq
  have hexponent : exponentAt q = Int.log 2 q - 52 := by
    rw [exponentAt] at h ⊢
    omega
  rw [le_div_iff₀ (zpow_pos two_pos _), hexponent]
  calc (2 : ℚ) ^ 52 * 2 ^ (Int.log 2 q - 52) = 2 ^ (52 : ℤ) * 2 ^ (Int.log 2 q - 52) := rfl
    _ = 2 ^ Int.log 2 q := by
        rw [← zpow_add₀ two_ne_zero]
        congr 1
        ring
    _ ≤ q := hlog

theorem canonical_nearest (hq : 0 < q) : Canonical (nearest negative q) := by
  have hnonneg : 0 ≤ q / 2 ^ exponentAt q := (div_pos hq (zpow_pos two_pos _)).le
  have hle : roundEven (q / 2 ^ exponentAt q) ≤ 2 ^ 53 :=
    roundEven_le hnonneg (by exact_mod_cast div_zpow_exponentAt_lt q)
  have hleast : leastExponent ≤ exponentAt q := le_max_left _ _
  unfold nearest
  by_cases hcarry : roundEven (q / 2 ^ exponentAt q) = 2 ^ 53
  · simp only [hcarry, if_true]
    split
    · trivial
    · exact ⟨by decide, .inl (le_refl _), by omega, by omega⟩
  · simp only [hcarry, if_false]
    split
    · trivial
    · refine ⟨by omega, ?_, hleast, by omega⟩
      rcases hleast.lt_or_eq with hlt | heq
      · exact .inl (le_roundEven (by exact_mod_cast le_div_zpow_exponentAt hq hlt))
      · exact .inr heq.symm

theorem canonical_zero : Canonical (finite negative 0 leastExponent) :=
  ⟨by decide, .inr rfl, le_refl _, by decide⟩

theorem canonical_ofRatio (negative : Bool) (num den : ℕ) : Canonical (ofRatio negative num den) := by
  by_cases hzero : num = 0 ∨ den = 0
  · rw [ofRatio, if_pos hzero]
    exact canonical_zero
  · rw [ofRatio_eq_nearest (by omega) (by omega)]
    refine canonical_nearest (div_pos ?_ ?_)
    · exact_mod_cast Nat.pos_of_ne_zero fun hnum => hzero (.inl hnum)
    · exact_mod_cast Nat.pos_of_ne_zero fun hden => hzero (.inr hden)

theorem canonical_ofDecimal (negative : Bool) (digits : ℕ) (e : ℤ) :
    Canonical (ofDecimal negative digits e) := by
  unfold ofDecimal
  dsimp only
  split
  · exact canonical_zero
  · split
    · trivial
    · split
      · exact canonical_zero
      · exact canonical_ofRatio _ _ _

/-- The seconds of a point in time are a number in its form. -/
theorem canonical_seconds (time : Timestamp) : Canonical time.seconds := by
  unfold Timestamp.seconds
  split
  · dsimp only
    split
    · exact canonical_ofRatio _ _ _
    · exact canonical_ofRatio _ _ _
  · exact canonical_ofDecimal _ _ _

/-! ## Near numbers -/

theorem two_zpow_add (k : ℕ) (e : ℤ) : (2 : ℚ) ^ ((k : ℤ) + e) = 2 ^ k * 2 ^ e := by
  rw [zpow_add₀ two_ne_zero, zpow_natCast]

/-- A value less than half a place away from a number with the exponent of the value is rounded to it. -/
theorem nearest_of_exponentAt_eq {t : ℚ} (ht : 0 ≤ t) (hexponent : exponentAt (t * 2 ^ e) = e)
    (hclose : |t - m| < 1 / 2) (hcarry : m ≠ 2 ^ 53) (hgreatest : e ≤ greatestExponent) :
    nearest negative (t * 2 ^ e) = finite negative m e := by
  have hdiv : t * 2 ^ e / 2 ^ e = t := mul_div_cancel_right₀ t (zpow_pos two_pos e).ne'
  have hround : roundEven t = m := roundEven_eq_of_abs_lt ht hclose
  unfold nearest
  simp only [hexponent, hdiv, hround, hcarry, if_false, not_lt.mpr hgreatest]

/-- In the smaller gap below the least significand the places are half as large, and rounding carries. -/
theorem nearest_of_exponentAt_pred {t : ℚ} (ht : 0 ≤ t) (hexponent : exponentAt (t * 2 ^ e) = e - 1)
    (hclose : |2 * t - (2 ^ 53 : ℕ)| < 1 / 2) (hgreatest : e ≤ greatestExponent) :
    nearest negative (t * 2 ^ e) = finite negative (2 ^ 52) e := by
  have hdiv : t * 2 ^ e / 2 ^ (e - 1) = 2 * t := by
    rw [zpow_sub_one₀ two_ne_zero]
    field_simp
  have hround : roundEven (2 * t) = 2 ^ 53 := roundEven_eq_of_abs_lt (by linarith) hclose
  unfold nearest
  simp only [hexponent, hdiv, hround, if_true, sub_add_cancel, not_lt.mpr hgreatest, if_false]

/-- A value near a number has the exponent of the number, unless it lies in the smaller gap, which is below the
least significand. -/
theorem exponentAt_of_close {t : ℚ} (hcanonical : Canonical (finite negative m e)) (hm : 0 < m)
    (hclose : |t - m| < m / 2 ^ 54) :
    exponentAt (t * 2 ^ e) = e ∨ m = 2 ^ 52 ∧ exponentAt (t * 2 ^ e) = e - 1 := by
  obtain ⟨hsignificand, hnormal, hleast, -⟩ := hcanonical
  have hunit : (0 : ℚ) < 2 ^ e := zpow_pos two_pos e
  have hcast : ((2 : ℕ) : ℚ) = 2 := Nat.cast_ofNat
  have hmpos : (1 : ℚ) ≤ m := by exact_mod_cast hm
  have hmsmall : (m : ℚ) + 1 ≤ 2 ^ 53 := by exact_mod_cast hsignificand
  have hlow := (abs_lt.mp hclose).1
  have hhigh := (abs_lt.mp hclose).2
  have hypos : 0 < t * 2 ^ e := mul_pos (by linarith) hunit
  have hupper : Int.log 2 (t * 2 ^ e) < 53 + e := by
    rw [← Int.lt_zpow_iff_log_lt one_lt_two hypos]
    have hless : t * 2 ^ e < 2 ^ 53 * 2 ^ e := mul_lt_mul_of_pos_right (by linarith) hunit
    exact_mod_cast hless.trans_eq (two_zpow_add 53 e).symm
  refine or_iff_not_imp_left.mpr fun hother => ?_
  have hbelow : exponentAt (t * 2 ^ e) < e := by
    rw [exponentAt] at hother ⊢
    omega
  have habove : leastExponent ≤ exponentAt (t * 2 ^ e) := le_max_left _ _
  have hleastSignificand : 2 ^ 52 ≤ m := hnormal.resolve_right (by omega)
  have hleastSignificand' : (2 : ℚ) ^ 52 ≤ m := by exact_mod_cast hleastSignificand
  have hlower : 51 + e ≤ Int.log 2 (t * 2 ^ e) := by
    rw [← Int.zpow_le_iff_le_log one_lt_two hypos, hcast]
    have hless : (2 : ℚ) ^ 51 * 2 ^ e ≤ t * 2 ^ e := mul_le_mul_of_nonneg_right (by linarith) hunit.le
    exact (two_zpow_add 51 e).trans_le hless
  have hexponent : exponentAt (t * 2 ^ e) = e - 1 := by
    rw [exponentAt] at hbelow ⊢
    omega
  have htsmall : t < 2 ^ 52 := by
    have hless : Int.log 2 (t * 2 ^ e) < 52 + e := by
      rw [exponentAt] at hexponent
      omega
    rw [← Int.lt_zpow_iff_log_lt one_lt_two hypos, hcast] at hless
    exact lt_of_mul_lt_mul_right (hless.trans_eq (two_zpow_add 52 e)) hunit.le
  have hless : (m : ℚ) < 2 ^ 52 + 1 := by linarith
  have hless' : m < 2 ^ 52 + 1 := by exact_mod_cast hless
  exact ⟨by omega, hexponent⟩

/-- A value that differs from a positive number by less than the part `2 ^ -54` of it is rounded to it. -/
theorem nearest_of_close (hcanonical : Canonical (finite negative m e)) (hm : 0 < m)
    (h : |y - m * 2 ^ e| < m * 2 ^ e / 2 ^ 54) : nearest negative y = finite negative m e := by
  have hunit : (0 : ℚ) < 2 ^ e := zpow_pos two_pos e
  -- measured by the last binary place of the number
  obtain ⟨t, rfl⟩ : ∃ t, y = t * 2 ^ e := ⟨y / 2 ^ e, (div_mul_cancel₀ y hunit.ne').symm⟩
  have hclose : |t - m| < m / 2 ^ 54 := by
    rw [← sub_mul, abs_mul, abs_of_pos hunit, mul_div_right_comm] at h
    exact lt_of_mul_lt_mul_right h hunit.le
  have hcases := exponentAt_of_close hcanonical hm hclose
  obtain ⟨hsignificand, -, -, hgreatest⟩ := hcanonical
  have hmpos : (1 : ℚ) ≤ m := by exact_mod_cast hm
  have hmsmall : (m : ℚ) + 1 ≤ 2 ^ 53 := by exact_mod_cast hsignificand
  have ht : 0 ≤ t := by linarith [(abs_lt.mp hclose).1]
  rcases hcases with hsame | ⟨rfl, hsmaller⟩
  · exact nearest_of_exponentAt_eq ht hsame (by linarith) (by omega) hgreatest
  · refine nearest_of_exponentAt_pred ht hsmaller ?_ hgreatest
    rw [abs_lt] at hclose ⊢
    push_cast at hclose ⊢
    constructor
    · linarith
    · linarith

/-! ## Numbers out of range -/

theorem nearest_eq_infinite (h : 2 ^ (1024 : ℤ) ≤ q) : nearest negative q = infinite negative := by
  have hq : 0 < q := lt_of_lt_of_le (zpow_pos two_pos _) h
  have hlog : 1024 ≤ Int.log 2 q := (Int.zpow_le_iff_le_log one_lt_two hq).mp h
  have hexponent : greatestExponent < exponentAt q := by
    rw [greatestExponent, exponentAt]
    omega
  unfold nearest
  by_cases hcarry : roundEven (q / 2 ^ exponentAt q) = 2 ^ 53
  · have hnext : greatestExponent < exponentAt q + 1 := by omega
    simp only [hcarry, if_true, hnext]
  · simp only [hcarry, if_false, hexponent, if_true]

theorem nearest_eq_zero (hq : 0 < q) (h : q < 2 ^ (-1075 : ℤ)) :
    nearest negative q = finite negative 0 leastExponent := by
  have hlog : Int.log 2 q < -1075 := (Int.lt_zpow_iff_log_lt one_lt_two hq).mp h
  have hexponent : exponentAt q = leastExponent := by
    refine max_eq_left ?_
    rw [leastExponent]
    omega
  have hunit : (0 : ℚ) < 2 ^ leastExponent := zpow_pos two_pos _
  have hround : roundEven (q / 2 ^ leastExponent) = 0 := by
    refine roundEven_eq_of_abs_lt (div_pos hq hunit).le ?_
    rw [Nat.cast_zero, sub_zero, abs_of_pos (div_pos hq hunit), div_lt_iff₀ hunit]
    calc q < 2 ^ (-1075 : ℤ) := h
      _ = 2 ^ (-1 + leastExponent) := rfl
      _ = 1 / 2 * 2 ^ leastExponent := by rw [zpow_add₀ two_ne_zero, zpow_neg_one, one_div]
  unfold nearest
  rw [hexponent, hround]
  rfl

theorem two_pow_le_of_large (h : 384 ≤ e) : (2 : ℚ) ^ (1024 : ℤ) ≤ 10 ^ e := by
  calc (2 : ℚ) ^ (1024 : ℤ) = (2 ^ (8 : ℤ)) ^ (128 : ℤ) := by rw [← zpow_mul]; rfl
    _ ≤ (10 ^ (3 : ℤ)) ^ (128 : ℤ) := zpow_le_zpow_left₀ (by decide) (by norm_num) (by norm_num)
    _ = 10 ^ (384 : ℤ) := by rw [← zpow_mul]; rfl
    _ ≤ 10 ^ e := zpow_le_zpow_right₀ (by norm_num) h

theorem lt_two_pow_of_small (h : e ≤ -401) : (10 : ℚ) ^ e < 2 ^ (-1075 : ℤ) := by
  calc (10 : ℚ) ^ e ≤ 10 ^ (-381 : ℤ) := zpow_le_zpow_right₀ (by norm_num) (by omega)
    _ = ((10 ^ (3 : ℤ)) ^ (127 : ℤ))⁻¹ := by rw [← zpow_mul, ← zpow_neg]; rfl
    _ ≤ ((2 ^ (9 : ℤ)) ^ (127 : ℤ))⁻¹ :=
        inv_anti₀ (zpow_pos (by norm_num) _) (zpow_le_zpow_left₀ (by decide) (by norm_num) (by norm_num))
    _ = 2 ^ (-1143 : ℤ) := by rw [← zpow_mul, ← zpow_neg]; rfl
    _ < 2 ^ (-1075 : ℤ) := zpow_lt_zpow_right₀ one_lt_two (by norm_num)

/-! ## Decimals -/

/-- Four bits make up more than a decimal digit. -/
theorem ten_pow_le (hn : 0 < n) : 10 ^ (n.log2 / 4) ≤ n := by
  calc 10 ^ (n.log2 / 4) ≤ (2 ^ 4) ^ (n.log2 / 4) := Nat.pow_le_pow_left (by decide) _
    _ = 2 ^ (4 * (n.log2 / 4)) := (pow_mul 2 4 _).symm
    _ ≤ 2 ^ n.log2 := Nat.pow_le_pow_right (by decide) (Nat.mul_div_le _ _)
    _ ≤ n := Nat.log2_self_le hn.ne'

/-- Three bits make up less than a decimal digit. -/
theorem lt_ten_pow (n : ℕ) : n < 10 ^ (n.log2 / 3 + 1) := by
  calc n < 2 ^ (n.log2 + 1) := Nat.lt_log2_self
    _ ≤ 2 ^ (3 * (n.log2 / 3 + 1)) := Nat.pow_le_pow_right (by decide) (by omega)
    _ = (2 ^ 3) ^ (n.log2 / 3 + 1) := pow_mul 2 3 _
    _ ≤ 10 ^ (n.log2 / 3 + 1) := Nat.pow_le_pow_left (by decide) _

/-- The number nearest to a decimal depends on the value of the decimal alone. -/
theorem ofDecimal_eq_nearest (hn : 0 < n) : ofDecimal negative n e = nearest negative (n * 10 ^ e) := by
  have hnpos : (0 : ℚ) < n := by exact_mod_cast hn
  have hten : (0 : ℚ) < 10 ^ e := zpow_pos (by norm_num) e
  unfold ofDecimal
  simp only [hn.ne', if_false]
  split
  · rename_i hlarge
    have hlow : ((10 ^ (n.log2 / 4) : ℕ) : ℚ) ≤ n := by exact_mod_cast ten_pow_le hn
    have hvalue : (2 : ℚ) ^ (1024 : ℤ) ≤ n * 10 ^ e := by
      calc (2 : ℚ) ^ (1024 : ℤ) ≤ 10 ^ (((n.log2 / 4 : ℕ) : ℤ) + e) := two_pow_le_of_large (by omega)
        _ = (10 ^ (n.log2 / 4) : ℕ) * 10 ^ e := by
            rw [zpow_add₀ (by norm_num), zpow_natCast, Nat.cast_pow, Nat.cast_ofNat]
        _ ≤ n * 10 ^ e := mul_le_mul_of_nonneg_right hlow hten.le
    exact (nearest_eq_infinite hvalue).symm
  · split
    · rename_i hsmall
      have hhigh : (n : ℚ) < (10 ^ (n.log2 / 3 + 1) : ℕ) := by exact_mod_cast lt_ten_pow n
      have hvalue : (n : ℚ) * 10 ^ e < 2 ^ (-1075 : ℤ) := by
        calc (n : ℚ) * 10 ^ e < (10 ^ (n.log2 / 3 + 1) : ℕ) * 10 ^ e := mul_lt_mul_of_pos_right hhigh hten
          _ = 10 ^ (((n.log2 / 3 + 1 : ℕ) : ℤ) + e) := by
              rw [zpow_add₀ (by norm_num), zpow_natCast, Nat.cast_pow, Nat.cast_ofNat]
          _ < 2 ^ (-1075 : ℤ) := lt_two_pow_of_small (by omega)
      exact (nearest_eq_zero (mul_pos hnpos hten) hvalue).symm
    · have hvalue : ((n * Nat.pow 10 e.toNat : ℕ) / (Nat.pow 10 (-e).toNat : ℕ) : ℚ) = n * 10 ^ e := by
        rw [zpow_eq_div, Nat.pow_eq, Nat.pow_eq]
        push_cast
        ring
      have hnum : 0 < n * Nat.pow 10 e.toNat := Nat.mul_pos hn (Nat.pow_pos (by decide))
      have hden : 0 < Nat.pow 10 (-e).toNat := Nat.pow_pos (by decide)
      rw [ofRatio_eq_nearest hnum hden, hvalue]

end ChangeImpact.Binary64
