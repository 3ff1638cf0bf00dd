import Mathlib.Data.EReal.Basic
import Mathlib.Order.Compare
import Parley.Proofs.Number.Shortest

/-! Numbers are ordered by value. A rank stands for the more the higher it is, so the order of
places is the order of values wherever there are two values to compare, and it puts NaN below. -/
namespace Parley.Binary64

theorem magnitude_lt_magnitude (less : r < s) : (magnitude r).1 < (magnitude s).1 := by
  rcases significand_cases r with ⟨whole, low⟩ | ⟨m, k, split, above, below, scaled, rank⟩ <;>
    rcases significand_cases s with ⟨whole', low'⟩ | ⟨m', k', split', above', below', scaled', rank'⟩
  · rw [magnitude_eq whole, magnitude_eq whole']
    omega
  · rw [magnitude_eq whole, magnitude_eq split']
    have twice : 2 ≤ 2 ^ k' := Nat.le_self_pow scaled'.ne' 2
    have := Nat.mul_le_mul above' twice
    omega
  · have : 1 * binade ≤ k * binade := Nat.mul_le_mul_right binade scaled
    omega
  · rw [magnitude_eq split, magnitude_eq split']
    rcases Nat.lt_trichotomy k k' with lower | rfl | higher
    · calc m * 2 ^ k
          < 2 * binade * 2 ^ k := Nat.mul_lt_mul_of_pos_right below (Nat.two_pow_pos k)
        _ = binade * 2 ^ (k + 1) := by rw [Nat.pow_succ, Nat.mul_comm 2, Nat.mul_assoc,
              Nat.mul_comm 2]
        _ ≤ m' * 2 ^ k' := Nat.mul_le_mul above' (Nat.pow_le_pow_right Nat.two_pos lower)
    · exact Nat.mul_lt_mul_of_pos_right (by omega) (Nat.two_pow_pos k)
    · have : (k' + 1) * binade ≤ k * binade := Nat.mul_le_mul_right binade higher
      rw [Nat.succ_mul] at this
      omega

/-- A natural number with a sign. -/
def signed (negative : Bool) (n : Nat) : Int := if negative then -n else n

theorem place_number (negative : Bool) (r : Fin (infinityRank + 1)) :
    (number negative r).place = signed negative r.val := by
  cases negative <;> rfl

/-- Magnitudes with their signs are in the order of ranks with their signs. -/
theorem signed_magnitude_lt (less : signed a r < signed b s) :
    signed a (magnitude r).1 < signed b (magnitude s).1 := by
  have nothing : (magnitude 0).1 = 0 := rfl
  have grows (n : Nat) : n = 0 ∧ (magnitude n).1 = 0 ∨ 0 < n ∧ 0 < (magnitude n).1 := by
    rcases Nat.eq_zero_or_pos n with rfl | positive
    · exact .inl ⟨rfl, nothing⟩
    · exact .inr ⟨positive, magnitude_pos positive⟩
  have first := grows r
  have second := grows s
  cases a <;> cases b <;> simp only [signed, Bool.false_eq_true, if_true, if_false] at less ⊢
  · have := magnitude_lt_magnitude (show r < s by omega)
    omega
  · omega
  · omega
  · have := magnitude_lt_magnitude (show s < r by omega)
    omega

theorem signed_magnitude_congr (same : signed a r = signed b s) :
    signed a (magnitude r).1 = signed b (magnitude s).1 := by
  have nothing : (magnitude 0).1 = 0 := rfl
  cases a <;> cases b <;> simp only [signed, Bool.false_eq_true, if_true, if_false] at same ⊢
  · obtain rfl : r = s := by omega
    rfl
  · obtain ⟨rfl, rfl⟩ : r = 0 ∧ s = 0 := by omega
    rw [nothing, Int.natCast_zero, Int.neg_zero]
  · obtain ⟨rfl, rfl⟩ : r = 0 ∧ s = 0 := by omega
    rw [nothing, Int.natCast_zero, Int.neg_zero]
  · obtain rfl : r = s := by omega
    rfl

/-- The value of a number as an extended real. -/
noncomputable def value? : Binary64 → Option EReal
  | nan => none
  | number negative r => some <|
    match (number negative r).fraction? with
    | some (_, num, den) => (((if negative then -1 else 1) * (num / den) : ℝ) : EReal)
    | none => if negative then ⊥ else ⊤

/-- The infinities are at both ends of the line, finite numbers in between. -/
theorem value_cases {x : Binary64} (known : x.value? = some v) :
    v = ⊥ ∧ x.place = -infinityRank ∨ v = ⊤ ∧ x.place = infinityRank ∨
      ∃ negative r, x.place = signed negative r ∧ -(infinityRank : Int) < x.place ∧
        x.place < infinityRank ∧
        v = (((signed negative (magnitude r).1 : Int) / oneUnits : ℝ) : EReal) := by
  cases x with
  | nan => cases known
  | number negative r =>
    have bound := r.isLt
    by_cases last : r.val = infinityRank
    · have fraction : (number negative r).fraction? = none := if_pos last
      simp only [value?, fraction, Option.some.injEq] at known
      cases negative with
      | false => exact .inr (.inl ⟨known.symm, by rw [place, last]⟩)
      | true => exact .inl ⟨known.symm, by rw [place, last]⟩
    · have fraction : (number negative r).fraction? = some (negative, magnitude r.val) := if_neg last
      simp only [value?, fraction, magnitude_snd, Option.some.injEq] at known
      refine .inr (.inr ⟨negative, r.val, place_number negative r, ?_, ?_, ?_⟩)
      · cases negative <;> simp only [place] <;> omega
      · cases negative <;> simp only [place] <;> omega
      · rw [← known]
        cases negative <;> simp [signed, neg_div]

theorem value_lt {x y : Binary64} (first : x.value? = some v) (second : y.value? = some w)
    (less : x.place < y.place) : v < w := by
  rcases value_cases first with ⟨rfl, lowest⟩ | ⟨rfl, highest⟩ | ⟨a, r, at_, above, below, rfl⟩ <;>
    rcases value_cases second with ⟨rfl, lowest'⟩ | ⟨rfl, highest'⟩ | ⟨b, s, at', above', below', rfl⟩
  case inr.inr.inr.inr =>
    have units : (0 : ℝ) < oneUnits := Nat.cast_pos.mpr oneUnits_pos
    rw [at_, at'] at less
    rw [EReal.coe_lt_coe_iff, div_lt_div_iff_of_pos_right units]
    exact_mod_cast signed_magnitude_lt less
  case inl.inr.inl => exact bot_lt_top
  case inl.inr.inr => exact EReal.bot_lt_coe _
  case inr.inr.inr.inl => exact EReal.coe_lt_top _
  all_goals omega

theorem value_eq {x y : Binary64} (first : x.value? = some v) (second : y.value? = some w)
    (same : x.place = y.place) : v = w := by
  have apart : 0 < infinityRank := by decide
  rcases value_cases first with ⟨rfl, lowest⟩ | ⟨rfl, highest⟩ | ⟨a, r, at_, above, below, rfl⟩ <;>
    rcases value_cases second with ⟨rfl, lowest'⟩ | ⟨rfl, highest'⟩ | ⟨b, s, at', above', below', rfl⟩
  case inr.inr.inr.inr => rw [signed_magnitude_congr (at_.symm.trans (same.trans at'))]
  case inl.inl => rfl
  case inr.inl.inr.inl => rfl
  all_goals omega

/-- Numbers have the order of their values. -/
theorem order_of_values {x y : Binary64} (first : x.value? = some v) (second : y.value? = some w) :
    x.order y = compare v w := by
  rcases Int.lt_trichotomy x.place y.place with less | same | greater
  · rw [order, compare_lt_iff_lt.mpr less, compare_lt_iff_lt.mpr (value_lt first second less)]
  · rw [order, compare_eq_iff_eq.mpr same, compare_eq_iff_eq.mpr (value_eq first second same)]
  · rw [order, compare_gt_iff_gt.mpr greater, compare_gt_iff_gt.mpr (value_lt second first greater)]

/-- The order of two values, where there are two. -/
noncomputable def valueOrder? (x y : Binary64) : Option Ordering := do
  let v ← x.value?
  let w ← y.value?
  return compare v w

/-- Whatever has no value is below whatever has one. -/
theorem order_eq (x y : Binary64) :
    x.order y = (x.valueOrder? y).getD (match x, y with
      | nan, nan => .eq
      | nan, number .. => .lt
      | number .., _ => .gt) := by
  have above (negative : Bool) (r : Fin (infinityRank + 1)) :
      nan.place < (number negative r).place := by
    have := r.isLt
    cases negative <;> simp only [place] <;> omega
  cases x with
  | nan =>
    cases y with
    | nan => rfl
    | number b s => exact compare_lt_iff_lt.mpr (above b s)
  | number a r =>
    cases y with
    | nan => exact compare_gt_iff_gt.mpr (above a r)
    | number b s => exact order_of_values rfl rfl

theorem exists_value (negative : Bool) (r : Fin (infinityRank + 1)) :
    ∃ v, (number negative r).value? = some v := ⟨_, rfl⟩

theorem order_eq_lt_iff (x y : Binary64) : x.order y = .lt ↔
    x = nan ∧ y ≠ nan ∨ ∃ v w, x.value? = some v ∧ y.value? = some w ∧ v < w := by
  rw [order_eq]
  cases x with
  | nan => cases y <;> simp [valueOrder?, value?]
  | number a r =>
    obtain ⟨v, known⟩ := exists_value a r
    cases y with
    | nan => simp [valueOrder?, value?]
    | number b s =>
      obtain ⟨w, known'⟩ := exists_value b s
      simp [valueOrder?, known, known', compare_lt_iff_lt]

theorem order_eq_eq_iff (x y : Binary64) : x.order y = .eq ↔
    x = nan ∧ y = nan ∨ ∃ v, x.value? = some v ∧ y.value? = some v := by
  rw [order_eq]
  cases x with
  | nan => cases y <;> simp [valueOrder?, value?]
  | number a r =>
    obtain ⟨v, known⟩ := exists_value a r
    cases y with
    | nan => simp [valueOrder?, value?]
    | number b s =>
      obtain ⟨w, known'⟩ := exists_value b s
      simp [valueOrder?, known, known', @eq_comm EReal]

end Parley.Binary64
