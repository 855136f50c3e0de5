import ChangeImpact.Number.Shortest
import ChangeImpact.Proofs.Number.Rounding

/-!
# The shortest digits of a number

The search for the shortest digits takes nothing that is not read back, so all that has to be shown is that
it finds something.  Seventeen digits are enough (`readsBack_nearest`): the decimals with seventeen digits
around a number are less than `2 ^ -53` of it apart, and a binary number is the nearest one to whatever is
within `2 ^ -54` of it.
-/

namespace ChangeImpact.Binary64

variable {q : ℚ} {num den n m count : ℕ} {e : ℤ} {d : Decimal} {negative : Bool}

/-! ## Decimals -/

/-- The value of a decimal. -/
def Decimal.value (d : Decimal) : ℚ :=
  d.digits * 10 ^ d.exponent

theorem digitCount_spec (hn : 0 < n) : 10 ^ (digitCount n - 1) ≤ n ∧ n < 10 ^ (digitCount n - 1 + 1) := by
  have hpos : 0 < digitCount n := Nat.length_toDigits_pos
  constructor
  · rcases Nat.eq_zero_or_pos (digitCount n - 1) with hzero | hmore
    · rw [hzero, pow_zero]
      exact hn
    · refine le_of_not_gt fun hless => ?_
      have hle := (Nat.length_toDigits_le_iff (by decide) hmore).mpr hless
      rw [← digitCount] at hle
      omega
  · rw [Nat.sub_add_cancel hpos]
    exact (Nat.length_toDigits_le_iff (by decide) hpos).mp (le_refl _)

theorem decimalExponent_eq (hnum : 0 < num) (hden : 0 < den) :
    decimalExponent num den = Int.log 10 (num / den : ℚ) := by
  have hdenpos : (0 : ℚ) < den := by exact_mod_cast hden
  have hlog := log_div_eq (by decide) (digitCount_spec hnum) (digitCount_spec hden)
  have hguess : ((digitCount num - 1 : ℕ) : ℤ) - (digitCount den - 1 : ℕ) =
      (digitCount num : ℤ) - digitCount den := by
    have hfirst : 0 < digitCount num := Nat.length_toDigits_pos
    have hsecond : 0 < digitCount den := Nat.length_toDigits_pos
    omega
  have hle : ∀ guess : ℤ, den * Nat.pow 10 guess.toNat ≤ num * Nat.pow 10 (-guess).toNat ↔
      ¬ (num / den : ℚ) < 10 ^ guess := by
    intro guess
    have hscale : (0 : ℚ) < 10 ^ (-guess).toNat := by positivity
    rw [not_lt, zpow_eq_div, div_le_div_iff₀ hscale hdenpos, mul_comm (den : ℕ), Nat.pow_eq, Nat.pow_eq]
    exact_mod_cast Iff.rfl
  rw [decimalExponent, hlog, hguess]
  simp only [hle, ite_not, Nat.cast_ofNat]

/-- Dropping zeros leaves the value of a decimal. -/
theorem dropZeros_spec (fuel : ℕ) (hd : 0 < d.digits) :
    (dropZeros fuel d).value = d.value ∧ 0 < (dropZeros fuel d).digits := by
  induction fuel generalizing d with
  | zero => exact ⟨rfl, hd⟩
  | succ fuel ih =>
      rw [dropZeros]
      split
      · rename_i hzero
        have hten : d.digits / 10 * 10 = d.digits := Nat.div_mul_cancel (Nat.dvd_of_mod_eq_zero hzero.2)
        obtain ⟨hvalue, hpos⟩ := ih (d := ⟨d.digits / 10, d.exponent + 1⟩) (by
          show 0 < d.digits / 10
          omega)
        -- the zero that is dropped is made up for by the exponent
        refine ⟨hvalue.trans ?_, hpos⟩
        have hcast : ((d.digits / 10 : ℕ) : ℚ) * 10 = d.digits := by exact_mod_cast hten
        rw [Decimal.value, Decimal.value, ← hcast, zpow_add_one₀ (by norm_num)]
        ring
      · exact ⟨rfl, hd⟩

/-! ## Neighbours -/

/-- The numerator and the denominator of a number have its value. -/
theorem ratio_spec (m : ℕ) (e : ℤ) : 0 < (ratio m e).2 ∧ ((ratio m e).1 / (ratio m e).2 : ℚ) = m * 2 ^ e := by
  refine ⟨Nat.pow_pos (by decide), ?_⟩
  rw [zpow_eq_div]
  simp only [ratio, Nat.pow_eq]
  push_cast
  ring

/-- The exponent of the grid of decimals with a count of digits around a number. -/
def gridAt (q : ℚ) (count : ℕ) : ℤ :=
  Int.log 10 q - count + 1

theorem le_div_gridAt (hq : 0 < q) (count : ℕ) : 10 ^ ((count : ℤ) - 1) ≤ q / 10 ^ gridAt q count := by
  have hten : (0 : ℚ) < 10 ^ gridAt q count := zpow_pos (by norm_num) _
  have hlow := Int.zpow_log_le_self (b := 10) (by decide) hq
  have hcast : ((10 : ℕ) : ℚ) = 10 := Nat.cast_ofNat
  have hexponent : (count : ℤ) - 1 + gridAt q count = Int.log 10 q := by
    rw [gridAt]
    ring
  rw [hcast] at hlow
  rwa [le_div_iff₀ hten, ← zpow_add₀ (by norm_num), hexponent]

/-- Of the two decimals that are tried one is the nearest on the grid. -/
theorem exists_neighbour?_eq (hm : 0 < m) (e : ℤ) (count : ℕ) :
    ∃ other, neighbour? m e count =
      ([roundEven (m * 2 ^ e / 10 ^ gridAt (m * 2 ^ e) count), other].map
        (Decimal.mk · (gridAt (m * 2 ^ e) count))).find? (readsBack m e) := by
  obtain ⟨hden, hvalue⟩ := ratio_spec m e
  have hnum : 0 < (ratio m e).1 := Nat.mul_pos hm (Nat.pow_pos (by decide))
  have hgrid : decimalExponent (ratio m e).1 (ratio m e).2 - count + 1 = gridAt (m * 2 ^ e) count := by
    rw [decimalExponent_eq hnum hden, hvalue, gridAt]
  have hscaledDen : 0 < (ratio m e).2 * Nat.pow 10 (gridAt (m * 2 ^ e) count).toNat :=
    Nat.mul_pos hden (Nat.pow_pos (by decide))
  have hscaled : (((ratio m e).1 * Nat.pow 10 (-gridAt (m * 2 ^ e) count).toNat : ℕ) /
      ((ratio m e).2 * Nat.pow 10 (gridAt (m * 2 ^ e) count).toNat : ℕ) : ℚ) =
      m * 2 ^ e / 10 ^ gridAt (m * 2 ^ e) count := by
    have hdenpos : ((ratio m e).2 : ℚ) ≠ 0 := by exact_mod_cast hden.ne'
    rw [← hvalue, zpow_eq_div 10, Nat.pow_eq, Nat.pow_eq]
    push_cast
    field_simp
  unfold neighbour?
  simp only [hgrid, divideToEven_eq_roundEven hscaledDen, hscaled]
  exact ⟨_, rfl⟩

/-- What a search for digits finds is read back. -/
theorem of_neighbour?_eq_some (hm : 0 < m) (h : neighbour? m e count = some d) : readsBack m e d = true := by
  obtain ⟨other, heq⟩ := exists_neighbour?_eq hm e count
  rw [heq] at h
  exact List.find?_some h

/-- A decimal is read back if it is near enough to the number. -/
theorem readsBack_of_close (hcanonical : Canonical (finite false m e)) (hm : 0 < m) (hd : 0 < d.digits)
    (h : |d.value - m * 2 ^ e| < m * 2 ^ e / 2 ^ 54) :
    readsBack m e d = true := by
  have hread : ofDecimal false d.digits d.exponent = finite false m e := by
    rw [ofDecimal_eq_nearest hd]
    exact nearest_of_close hcanonical hm h
  rw [readsBack, hread]
  exact beq_self_eq_true _

/-- Seventeen digits are enough. -/
theorem readsBack_nearest (hcanonical : Canonical (finite false m e)) (hm : 0 < m) :
    readsBack m e ⟨roundEven (m * 2 ^ e / 10 ^ gridAt (m * 2 ^ e) 17), gridAt (m * 2 ^ e) 17⟩ = true := by
  have hq : (0 : ℚ) < m * 2 ^ e := mul_pos (by exact_mod_cast hm) (zpow_pos two_pos e)
  have hlow := le_div_gridAt hq 17
  have hten : (0 : ℚ) < 10 ^ gridAt (m * 2 ^ e) 17 := zpow_pos (by norm_num) _
  have hdigits : (10 : ℚ) ^ 16 ≤ m * 2 ^ e / 10 ^ gridAt (m * 2 ^ e) 17 := by exact_mod_cast hlow
  have hpos : 10 ^ 16 ≤ roundEven (m * 2 ^ e / 10 ^ gridAt (m * 2 ^ e) 17) :=
    le_roundEven (by exact_mod_cast hdigits)
  have hleast : 0 < roundEven (m * 2 ^ e / 10 ^ gridAt (m * 2 ^ e) 17) := by omega
  refine readsBack_of_close hcanonical hm hleast ?_
  have hround := abs_roundEven_sub_le (div_pos hq hten).le
  rw [le_div_iff₀ hten] at hdigits
  have hscaled : (m * 2 ^ e : ℚ) = m * 2 ^ e / 10 ^ gridAt (m * 2 ^ e) 17 * 10 ^ gridAt (m * 2 ^ e) 17 :=
    (div_mul_cancel₀ _ hten.ne').symm
  calc |(⟨roundEven (m * 2 ^ e / 10 ^ gridAt (m * 2 ^ e) 17), gridAt (m * 2 ^ e) 17⟩ : Decimal).value
          - m * 2 ^ e|
      = |(roundEven (m * 2 ^ e / 10 ^ gridAt (m * 2 ^ e) 17) : ℚ)
          - m * 2 ^ e / 10 ^ gridAt (m * 2 ^ e) 17| * 10 ^ gridAt (m * 2 ^ e) 17 := by
        rw [← abs_of_pos hten, ← abs_mul, abs_of_pos hten, sub_mul, ← hscaled, Decimal.value]
    _ ≤ 1 / 2 * 10 ^ gridAt (m * 2 ^ e) 17 := mul_le_mul_of_nonneg_right hround hten.le
    _ < m * 2 ^ e / 2 ^ 54 := by
        rw [lt_div_iff₀ (by positivity)]
        linarith

/-! ## The digits that are found -/

theorem exists_shortest (hcanonical : Canonical (finite false m e)) (hm : 0 < m) :
    ∃ found, shortest m e = dropZeros 20 found ∧ readsBack m e found = true := by
  unfold shortest
  cases hfound : (List.range' 1 17).findSome? (neighbour? m e) with
  | none =>
      have hnone := List.findSome?_eq_none_iff.mp hfound 17 (by decide)
      obtain ⟨other, heq⟩ := exists_neighbour?_eq hm e 17
      rw [heq, List.find?_eq_none] at hnone
      exact absurd (readsBack_nearest hcanonical hm) (hnone _ List.mem_cons_self)
  | some found =>
      obtain ⟨count, -, hsome⟩ := List.exists_of_findSome?_eq_some hfound
      exact ⟨found, rfl, of_neighbour?_eq_some hm hsome⟩

theorem digits_pos_of_readsBack (hm : 0 < m) (h : readsBack m e d = true) : 0 < d.digits := by
  refine Nat.pos_of_ne_zero fun hzero => ?_
  have hread := eq_of_beq h
  rw [ofDecimal, hzero] at hread
  simp only [if_true, finite.injEq] at hread
  omega

/-- The number has the value of its shortest digits. -/
theorem shortest_spec (hcanonical : Canonical (finite false m e)) (hm : 0 < m) :
    0 < (shortest m e).digits ∧ nearest false (shortest m e).value = finite false m e := by
  obtain ⟨found, heq, hreads⟩ := exists_shortest hcanonical hm
  have hpos := digits_pos_of_readsBack hm hreads
  obtain ⟨hvalue, hleast⟩ := dropZeros_spec 20 hpos
  rw [heq]
  refine ⟨hleast, ?_⟩
  rw [hvalue, Decimal.value, ← ofDecimal_eq_nearest hpos]
  exact eq_of_beq hreads

/-- The sign has no influence on the digits of a number. -/
theorem nearest_negative (h : nearest false q = finite false m e) :
    nearest negative q = finite negative m e := by
  have hsign : ∀ (significand : ℕ) (exponent : ℤ),
      (if greatestExponent < exponent then infinite false else finite false significand exponent) =
        finite false m e →
      (if greatestExponent < exponent then infinite negative else finite negative significand exponent) =
        finite negative m e := by
    intro significand exponent heq
    by_cases hrange : greatestExponent < exponent
    · rw [if_pos hrange] at heq
      cases heq
    · rw [if_neg hrange] at heq ⊢
      cases heq
      rfl
  exact hsign _ _ h

end ChangeImpact.Binary64
