import ChangeImpact.Json.Key
import ChangeImpact.Proofs.Graph.Equality
import ChangeImpact.Proofs.Json.Strings
import ChangeImpact.Proofs.Number.Rounding

/-!
# Equal values are the same key

Two values are the same key exactly if they are equal (`Json.key_eq_iff_same`), so a table that is keyed by
values finds them as it would by comparing them one by one.

Strings keep their order as keys (`Key.ofString_lt_iff`).

For numbers this takes an argument.  A binary number that is an integer is that integer as a key
(`Binary64.integer?_eq_some_iff`), and two binary numbers in their forms that are the same integer are the same
number (`Binary64.same_of_integer?`).
-/

namespace ChangeImpact

namespace Binary64

variable {x y : Binary64} {n : ℤ} {m : ℕ} {e : ℤ} {negative : Bool}

/-! ## Binary numbers that are integers -/

theorem natCast_eq_mul_iff {num den : ℕ} (hden : 0 < den) :
    (num : ℤ) = n * den ↔ num % den = 0 ∧ ((num / den : ℕ) : ℤ) = n := by
  constructor
  · intro h
    have hmod : (num : ℤ) % den = 0 := by rw [h, Int.mul_emod_left]
    have hdiv : (num : ℤ) / den = n := by rw [h, Int.mul_ediv_cancel _ (by omega)]
    exact ⟨by exact_mod_cast hmod, by exact_mod_cast hdiv⟩
  · rintro ⟨hmod, rfl⟩
    exact_mod_cast (Nat.div_mul_cancel (Nat.dvd_of_mod_eq_zero hmod)).symm

theorem integer?_eq_some_iff : x.integer? = some n ↔ x.equalsInt n = true := by
  cases x with
  | infinite negative => simp [integer?, equalsInt]
  | nan => simp [integer?, equalsInt]
  | finite negative m e =>
      have hden : 0 < (ratio m e).2 := Nat.pow_pos two_pos
      simp only [integer?, equalsInt, beq_iff_eq, Option.ite_none_right_eq_some, Option.some.injEq]
      cases negative with
      | false => exact (natCast_eq_mul_iff hden).symm
      | true =>
          simp only [if_true]
          rw [neg_eq_iff_eq_neg, neg_eq_iff_eq_neg, ← neg_mul]
          exact (natCast_eq_mul_iff hden).symm

theorem ratio_div (m : ℕ) (e : ℤ) : ((ratio m e).1 / (ratio m e).2 : ℚ) = m * 2 ^ e := by
  rw [ratio, zpow_eq_div 2 e]
  push_cast [Nat.pow_eq]
  rw [mul_div_assoc]

/-- The value of a number that is an integer. -/
theorem eq_of_integer? (h : (finite negative m e).integer? = some n) :
    (if negative then -(m * 2 ^ e) else m * 2 ^ e : ℚ) = n := by
  have hden : (0 : ℚ) < (ratio m e).2 := by
    exact_mod_cast Nat.pow_pos two_pos
  rw [integer?_eq_some_iff, equalsInt, beq_iff_eq] at h
  rw [← ratio_div]
  have hvalue : ((if negative then -((ratio m e).1 : ℤ) else (ratio m e).1 : ℤ) : ℚ) = n * (ratio m e).2 := by
    exact_mod_cast h
  cases negative with
  | false =>
      simp only [Bool.false_eq_true, if_false] at hvalue ⊢
      rw [div_eq_iff hden.ne']
      exact_mod_cast hvalue
  | true =>
      simp only [if_true] at hvalue ⊢
      rw [neg_eq_iff_eq_neg, div_eq_iff hden.ne', neg_mul, ← neg_eq_iff_eq_neg]
      exact_mod_cast hvalue

theorem nearest_self (hx : Canonical (finite negative m e)) (hm : 0 < m) :
    nearest negative (m * 2 ^ e) = finite negative m e := by
  refine nearest_of_close hx hm ?_
  have hvalue : (0 : ℚ) < m * 2 ^ e := mul_pos (by exact_mod_cast hm) (zpow_pos two_pos e)
  rw [sub_self, abs_zero]
  positivity

/-- Numbers in their forms that are the same integer are the same number. -/
theorem same_of_integer? (hx : Canonical x) (hy : Canonical y) (hxn : x.integer? = some n)
    (hyn : y.integer? = some n) : x.same y = true := by
  cases x with
  | infinite _ => cases hxn
  | nan => cases hxn
  | finite negative m e =>
      cases y with
      | infinite _ => cases hyn
      | nan => cases hyn
      | finite negative' m' e' =>
          have hunit : (0 : ℚ) < 2 ^ e := zpow_pos two_pos e
          have hunit' : (0 : ℚ) < 2 ^ e' := zpow_pos two_pos e'
          have hvalue := (eq_of_integer? hxn).trans (eq_of_integer? hyn).symm
          rcases Nat.eq_zero_or_pos m with rfl | hm
          · have hm' : m' = 0 := by
              have hzero : (m' * 2 ^ e' : ℚ) = 0 := by
                cases negative <;> cases negative' <;> simpa using hvalue.symm
              exact_mod_cast (mul_eq_zero.mp hzero).resolve_right hunit'.ne'
            subst hm'
            rfl
          · have hpos : (0 : ℚ) < m * 2 ^ e := mul_pos (by exact_mod_cast hm) hunit
            have hnonneg : (0 : ℚ) ≤ m' * 2 ^ e' := by positivity
            -- the values are not zero, so they have the same sign
            have hsame : negative = negative' ∧ (m * 2 ^ e : ℚ) = m' * 2 ^ e' := by
              cases negative <;> cases negative' <;> simp at hvalue ⊢ <;> linarith
            obtain ⟨rfl, hequal⟩ := hsame
            have hm' : 0 < m' := by
              refine Nat.pos_of_ne_zero fun hzero => ?_
              rw [hequal, hzero, Nat.cast_zero, zero_mul] at hpos
              exact hpos.false
            rw [← nearest_self hx hm, hequal, nearest_self hy hm']
            exact same_self _

end Binary64

/-! ## Numbers as keys -/

namespace Key

variable {x y : Binary64} {n : ℤ}

theorem integer_eq_ofNumber_iff : integer n = ofNumber x ↔ x.equalsInt n = true := by
  rw [← Binary64.integer?_eq_some_iff, ofNumber]
  cases x.integer? with
  | none => simp
  | some m => simp [eq_comm]

theorem ofNumber_eq_iff (hx : x.Canonical) (hy : y.Canonical) :
    ofNumber x = ofNumber y ↔ x.same y = true := by
  constructor
  · intro h
    unfold ofNumber at h
    cases hxn : x.integer? with
    | none =>
        cases hyn : y.integer? with
        | none =>
            simp only [hxn, hyn, number.injEq] at h
            exact h ▸ Binary64.same_self x
        | some n => simp [hxn, hyn] at h
    | some n =>
        cases hyn : y.integer? with
        | none => simp [hxn, hyn] at h
        | some m =>
            simp only [hxn, hyn, integer.injEq] at h
            exact Binary64.same_of_integer? hx hy hxn (h ▸ hyn)
  · intro h
    unfold Binary64.same at h
    split at h
    · simp [ofNumber, Binary64.integer?, Binary64.ratio]
    · rw [of_decide_eq_true h]

/-- A number of either kind as a key. -/
def ofEither : Int ⊕ Binary64 → Key
  | .inl n => integer n
  | .inr x => ofNumber x

theorem ofEither_eq_iff {first second : Int ⊕ Binary64} (hfirst : ∀ x, first = .inr x → x.Canonical)
    (hsecond : ∀ y, second = .inr y → y.Canonical) :
    ofEither first = ofEither second ↔ Json.sameNumber first second = true := by
  cases first with
  | inl m =>
      cases second with
      | inl n => simp [ofEither, Json.sameNumber]
      | inr y => exact integer_eq_ofNumber_iff
  | inr x =>
      cases second with
      | inl n => exact eq_comm.trans integer_eq_ofNumber_iff
      | inr y => exact ofNumber_eq_iff (hfirst x rfl) (hsecond y rfl)

theorem ofEither_ne (value : Int ⊕ Binary64) :
    ofEither value ≠ null ∧ ∀ points, ofEither value ≠ text points := by
  cases value with
  | inl n => exact ⟨nofun, fun _ => nofun⟩
  | inr x =>
      rw [ofEither, ofNumber]
      cases x.integer? with
      | none => exact ⟨nofun, fun _ => nofun⟩
      | some n => exact ⟨nofun, fun _ => nofun⟩

end Key

/-! ## Texts as keys -/

theorem toNat_injective : Function.Injective Char.toNat := fun _ _ => Char.toNat_inj.mp

/-- A text has its code points for itself. -/
theorem Wording.points_injective : Function.Injective Wording.points := by
  have hapart : ∀ (s : String) (t : HalvedText), (whole s).points ≠ (halved t).points := by
    intro s t heq
    have hhalf := t.halved
    rw [show t.points = s.toList.map Char.toNat from heq.symm] at hhalf
    simp [List.any_map, Json.isHalf_toNat] at hhalf
  intro first second h
  cases first with
  | whole s =>
      cases second with
      | whole t =>
          rw [String.toList_injective (List.map_injective_iff.mpr toNat_injective h)]
      | halved t => exact absurd h (hapart s t)
  | halved s =>
      cases second with
      | whole t => exact absurd h.symm (hapart t s)
      | halved t =>
          cases s
          cases t
          cases h
          rfl

theorem Json.same_ofWording (s t : Wording) : (ofWording s).same (ofWording t) = true ↔ s = t := by
  cases s with
  | whole s =>
      cases t with
      | whole t => simp [ofWording, same]
      | halved t => simp [ofWording, same, number?]
  | halved s =>
      cases t with
      | whole t => simp [ofWording, same, number?]
      | halved t => simp [ofWording, same]

/-! ## The order of texts as keys -/

theorem map_lt_map_iff {α β : Type} [LT α] [LT β] {f : α → β} (hlt : ∀ a b, f a < f b ↔ a < b)
    (hf : Function.Injective f) (first second : List α) : first.map f < second.map f ↔ first < second := by
  induction first generalizing second with
  | nil =>
      cases second with
      | nil => exact iff_of_false (List.not_lt_nil _) (List.not_lt_nil _)
      | cons head' tail' => exact iff_of_true (List.nil_lt_cons _ _) (List.nil_lt_cons _ _)
  | cons head tail ih =>
      cases second with
      | nil => exact iff_of_false (List.not_lt_nil _) (List.not_lt_nil _)
      | cons head' tail' =>
          rw [List.map_cons, List.map_cons, List.cons_lt_cons_iff, List.cons_lt_cons_iff, hlt, hf.eq_iff, ih]

namespace Key

/-- Strings are in the same order as their keys. -/
theorem ofString_lt_iff (first second : String) : ofString first < ofString second ↔ first < second := by
  show (5 :: (first.toList.map Char.toNat).map Nat.cast : List ℤ) <
    5 :: (second.toList.map Char.toNat).map Nat.cast ↔ _
  have hcode : ∀ a b : Char, a.toNat < b.toNat ↔ a < b := fun _ _ => Iff.rfl
  rw [List.cons_lt_cons_self, map_lt_map_iff (fun _ _ => Int.ofNat_lt) Int.ofNat_injective,
    map_lt_map_iff hcode toNat_injective, String.lt_iff]

theorem ofString_injective : Function.Injective ofString := by
  intro first second h
  have hpoints : (Wording.whole first).points = (Wording.whole second).points := Key.text.inj h
  exact Wording.whole.inj (Wording.points_injective hpoints)

theorem ofString_beq (first second : String) : (ofString first == ofString second) = (first == second) := by
  show (ofString first ≠ number .nan && decide (ofString first = ofString second)) = _
  have hnan : ofString first ≠ number .nan := nofun
  rw [decide_eq_true hnan, Bool.true_and, beq_eq_decide]
  exact decide_eq_decide.mpr ofString_injective.eq_iff

end Key

/-! ## Values as keys -/

namespace Json

variable {value other : Json} {key key' : Key}

/-- A value, if it is a binary number, has the one form of its number. -/
def InForm (value : Json) : Prop :=
  ∀ x, value.number? = some (.inr x) → x.Canonical

/-- A key is null, a number or a text. -/
theorem cases_of_key (h : Key.ofJson? value = some key) : value = .null ∧ key = .null ∨
    (∃ number, value.number? = some number ∧ key = .ofEither number) ∨
      ∃ text, value = ofWording text ∧ key = .text text.points := by
  cases value with
  | null => exact .inl ⟨rfl, (Option.some.inj h).symm⟩
  | bool value => exact .inr (.inl ⟨_, rfl, (Option.some.inj h).symm⟩)
  | int value => exact .inr (.inl ⟨_, rfl, (Option.some.inj h).symm⟩)
  | float value => exact .inr (.inl ⟨_, rfl, (Option.some.inj h).symm⟩)
  | string value => exact .inr (.inr ⟨.whole value, rfl, (Option.some.inj h).symm⟩)
  | halved value => exact .inr (.inr ⟨.halved value, rfl, (Option.some.inj h).symm⟩)
  | array items => cases h
  | object fields => cases h
  | halvedObject fields => cases h

theorem same_of_number? {first second : Int ⊕ Binary64} (hfirst : value.number? = some first)
    (hsecond : other.number? = some second) : value.same other = sameNumber first second := by
  unfold same
  split
  case h_7 => simp only [hfirst, hsecond]
  all_goals cases hfirst

theorem same_eq_false (h : value.number?.isSome ≠ other.number?.isSome) : value.same other = false := by
  unfold same
  split
  case h_7 =>
    split
    · rename_i hfirst hsecond
      rw [hfirst, hsecond] at h
      exact absurd rfl h
    · rfl
  all_goals exact absurd rfl h

theorem number?_ofWording (text : Wording) : (ofWording text).number? = none := by
  cases text with
  | whole text => rfl
  | halved text => rfl

/-- Two values that can be keys are the same key exactly if they are equal. -/
theorem key_eq_iff_same (hvalue : value.InForm) (hother : other.InForm) (hkey : Key.ofJson? value = some key)
    (hkey' : Key.ofJson? other = some key') : key = key' ↔ value.same other = true := by
  -- values of different kinds are neither equal nor the same key
  rcases cases_of_key hkey with ⟨rfl, rfl⟩ | ⟨first, hfirst, rfl⟩ | ⟨text, rfl, rfl⟩
  · rcases cases_of_key hkey' with ⟨rfl, rfl⟩ | ⟨second, hsecond, rfl⟩ | ⟨text', rfl, rfl⟩
    · exact iff_of_true rfl rfl
    · refine iff_of_false (Key.ofEither_ne second).1.symm ?_
      rw [same_eq_false (hsecond ▸ Bool.false_ne_true)]
      exact Bool.false_ne_true
    · cases text' with
      | whole _ => exact iff_of_false nofun nofun
      | halved _ => exact iff_of_false nofun nofun
  · rcases cases_of_key hkey' with ⟨rfl, rfl⟩ | ⟨second, hsecond, rfl⟩ | ⟨text', rfl, rfl⟩
    · refine iff_of_false (Key.ofEither_ne first).1 ?_
      rw [same_eq_false (hfirst ▸ Bool.false_ne_true.symm)]
      exact Bool.false_ne_true
    · rw [same_of_number? hfirst hsecond]
      exact Key.ofEither_eq_iff (fun x hx => hvalue x (hx ▸ hfirst)) fun y hy => hother y (hy ▸ hsecond)
    · refine iff_of_false ((Key.ofEither_ne first).2 _) ?_
      rw [same_eq_false (by rw [hfirst, number?_ofWording]; exact Bool.false_ne_true.symm)]
      exact Bool.false_ne_true
  · rcases cases_of_key hkey' with ⟨rfl, rfl⟩ | ⟨second, hsecond, rfl⟩ | ⟨text', rfl, rfl⟩
    · cases text with
      | whole _ => exact iff_of_false nofun nofun
      | halved _ => exact iff_of_false nofun nofun
    · refine iff_of_false ((Key.ofEither_ne second).2 _).symm ?_
      rw [same_eq_false (by rw [hsecond, number?_ofWording]; exact Bool.false_ne_true)]
      exact Bool.false_ne_true
    · rw [same_ofWording, Key.text.injEq, Wording.points_injective.eq_iff]

end Json
end ChangeImpact
