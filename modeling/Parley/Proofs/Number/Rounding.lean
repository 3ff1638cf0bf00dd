import Mathlib.Tactic.Linarith
import Parley.Number.Binary64

/-! Rounding to binary numbers. It depends on the quotient alone; a magnitude that a rank stands for
is rounded to that rank, and so is every whole number close enough to a whole magnitude. -/
namespace Parley

theorem roundHalfEven_scale (num den : Nat) (positive : 0 < c) :
    roundHalfEven (num * c) (den * c) = roundHalfEven num den := by
  have cancel (a b : Nat) : a * c < b * c ↔ a < b := Nat.mul_lt_mul_right positive
  have twice : 2 * (num % den * c) = 2 * (num % den) * c := (Nat.mul_assoc 2 _ c).symm
  simp only [roundHalfEven, Nat.mul_div_mul_right _ _ positive, Nat.mul_mod_mul_right, twice, cancel]

/-- The nearest whole number, unless two are as near. -/
theorem roundHalfEven_eq {num den q : Nat} (above : 2 * (den * q) < 2 * num + den)
    (below : 2 * num < 2 * (den * q) + den) : roundHalfEven num den = q := by
  have whole := Nat.div_add_mod num den
  have part := Nat.mod_lt num (show den > 0 by omega)
  have atMost : num / den ≤ q := by
    by_contra more
    have := Nat.mul_le_mul_left den (Nat.not_le.mp more)
    rw [Nat.mul_succ] at this
    omega
  have atLeast : q ≤ num / den + 1 := by
    by_contra less
    have := Nat.mul_le_mul_left den (Nat.not_le.mp less)
    rw [Nat.mul_succ, Nat.mul_succ] at this
    omega
  rcases Nat.le_iff_lt_or_eq.mp atMost with up | down
  · obtain rfl : q = num / den + 1 := by omega
    rw [Nat.mul_succ] at above below
    simp only [roundHalfEven]
    rw [if_neg (by omega), if_pos (by omega)]
  · rw [← down] at above below ⊢
    simp only [roundHalfEven]
    rw [if_pos (by omega)]

namespace Binary64

/-- How many of the least units make one. -/
def oneUnits : Nat := 1 <<< 1074

theorem shiftLeft_eq_mul (n k : Nat) : n <<< k = n * 1 <<< k := by
  simp only [Nat.shiftLeft_eq, Nat.one_mul]

theorem one_shiftLeft_pos (k : Nat) : 0 < 1 <<< k := by
  rw [Nat.shiftLeft_eq, Nat.one_mul]
  exact Nat.two_pow_pos k

theorem oneUnits_pos : 0 < oneUnits := one_shiftLeft_pos 1074

theorem shiftLeft_oneUnits (n : Nat) : n <<< 1074 = n * oneUnits := shiftLeft_eq_mul n 1074

theorem binade_eq : binade = 4503599627370496 := rfl

/-- The rank nearest to a number of least units. -/
def nearestRank (units : Nat) : Nat :=
  (units.log2 - 52) * binade + roundHalfEven units (2 ^ (units.log2 - 52))

theorem ofRatio_scale (negative : Bool) (num den : Nat) (positive : 0 < c) :
    ofRatio negative (num * c) (den * c) = ofRatio negative num den := by
  have commutes (a k : Nat) : (a * c) <<< k = (a <<< k) * c := by
    rw [Nat.shiftLeft_eq, Nat.shiftLeft_eq, Nat.mul_right_comm]
  simp only [ofRatio, commutes, Nat.mul_div_mul_right _ _ positive, roundHalfEven_scale _ _ positive]

/-- Equal quotients are rounded alike. -/
theorem ofRatio_congr (negative : Bool) {a b a' b' : Nat} (same : a * b' = a' * b) (left : 0 < b)
    (right : 0 < b') : ofRatio negative a b = ofRatio negative a' b' := by
  rw [← ofRatio_scale negative a b right, ← ofRatio_scale negative a' b' left, same,
    Nat.mul_comm b b']

theorem ofRatio_units (negative : Bool) (units : Nat) :
    ofRatio negative units oneUnits = ofRank negative (nearestRank units) := by
  have commutes (k : Nat) : oneUnits <<< k = 2 ^ k * oneUnits := by
    rw [Nat.shiftLeft_eq, Nat.mul_comm]
  simp only [ofRatio, nearestRank, shiftLeft_oneUnits, Nat.mul_div_cancel _ oneUnits_pos, commutes,
    roundHalfEven_scale _ _ oneUnits_pos]

/-- The first binades hold their significands, every other rank one of a scale of its own. -/
theorem significand_cases (r : Nat) :
    significand r = (r, 0) ∧ r < 2 * binade ∨
      ∃ m k, significand r = (m, k) ∧ binade ≤ m ∧ m < 2 * binade ∧ 0 < k ∧
        r = k * binade + m := by
  by_cases low : r < 2 * binade
  · exact .inl ⟨if_pos low, low⟩
  · refine .inr ⟨_, _, if_neg low, Nat.le_add_right _ _, ?_, ?_, ?_⟩
    · have := Nat.mod_lt r (show binade > 0 by decide)
      omega
    · have : 2 ≤ r / binade := (Nat.le_div_iff_mul_le (by decide)).mpr (Nat.not_lt.mp low)
      omega
    · have whole := Nat.div_add_mod r binade
      have : 2 ≤ r / binade := (Nat.le_div_iff_mul_le (by decide)).mpr (Nat.not_lt.mp low)
      obtain ⟨k, quotient⟩ : ∃ k, r / binade = k + 1 := ⟨r / binade - 1, by omega⟩
      rw [quotient, Nat.mul_succ, Nat.mul_comm] at whole
      rw [quotient, Nat.add_sub_cancel]
      omega

theorem magnitude_eq (same : significand r = (m, k)) : (magnitude r).1 = m * 2 ^ k := by
  simp only [magnitude, same, Nat.shiftLeft_eq]

theorem log2_of_scale {units k : Nat} (above : 2 ^ (52 + k) ≤ units)
    (below : units < 2 ^ (53 + k)) : units.log2 = 52 + k := by
  have positive : units ≠ 0 := by
    have := Nat.two_pow_pos (52 + k)
    omega
  rw [Nat.log2_eq_iff positive]
  exact ⟨above, by rwa [Nat.add_right_comm]⟩

theorem nearestRank_eq (scale : units.log2 = 52 + k) (above : 2 * (2 ^ k * m) < 2 * units + 2 ^ k)
    (below : 2 * units < 2 * (2 ^ k * m) + 2 ^ k) : nearestRank units = k * binade + m := by
  rw [nearestRank, scale, Nat.add_sub_cancel_left, roundHalfEven_eq above below]

theorem nearestRank_magnitude (r : Nat) : nearestRank (magnitude r).1 = r := by
  rcases significand_cases r with ⟨whole, low⟩ | ⟨m, k, split, above, below, -, rank⟩
  · have scale : r.log2 - 52 = 0 := by
      by_cases zero : r = 0
      · simp [zero]
      · have := (Nat.log2_lt zero).mpr (show r < 2 ^ 53 from low)
        omega
    rw [magnitude_eq whole, Nat.pow_zero, Nat.mul_one, nearestRank, scale, Nat.zero_mul,
      Nat.zero_add]
    exact roundHalfEven_eq (by omega) (by omega)
  · have scale : (m * 2 ^ k).log2 = 52 + k := by
      apply log2_of_scale
      · rw [Nat.pow_add]
        exact Nat.mul_le_mul_right _ above
      · rw [Nat.pow_add]
        exact Nat.mul_lt_mul_of_pos_right below (Nat.two_pow_pos k)
    have unit := Nat.two_pow_pos k
    rw [Nat.mul_comm] at scale
    rw [magnitude_eq split, Nat.mul_comm, rank]
    exact nearestRank_eq scale (by omega) (by omega)

/-- A fraction that a rank stands for is rounded to it. -/
theorem ofRatio_exact (negative : Bool) {num den r : Nat} (positive : 0 < den)
    (same : num * oneUnits = (magnitude r).1 * den) :
    ofRatio negative num den = ofRank negative r := by
  rw [ofRatio_congr negative same positive oneUnits_pos, ofRatio_units,
    nearestRank_magnitude]

/-- Numbers that differ by less than seventeen digits tell apart. -/
structure Near (units near : Nat) : Prop where
  above : 20000000000000000 * near ≤ 20000000000000001 * units
  below : 19999999999999999 * units ≤ 20000000000000000 * near

theorem Near.scale (close : Near units near) (c : Nat) : Near (units * c) (near * c) := by
  obtain ⟨above, below⟩ := close
  constructor
  · rw [← Nat.mul_assoc, ← Nat.mul_assoc]
    exact Nat.mul_le_mul_right c above
  · rw [← Nat.mul_assoc, ← Nat.mul_assoc]
    exact Nat.mul_le_mul_right c below

section Neighbourhood

variable {m j near : Nat}

theorem nearestRank_same (least : binade ≤ m) (most : m < 2 * binade)
    (close : Near (m * 2 ^ (j + 1)) near) (same : 2 ^ (52 + (j + 1)) ≤ near) :
    nearestRank near = (j + 1) * binade + m := by
  obtain ⟨above, below⟩ := close
  have double : 2 ^ (j + 1) = 2 * 2 ^ j := Nat.pow_succ'
  have unit := Nat.two_pow_pos j
  have first : binade * 2 ^ (j + 1) ≤ m * 2 ^ (j + 1) := Nat.mul_le_mul_right _ least
  have last : (m + 1) * 2 ^ (j + 1) ≤ 2 * binade * 2 ^ (j + 1) := Nat.mul_le_mul_right _ most
  rw [Nat.succ_mul] at last
  simp only [binade_eq, double] at first last above below
  have scale : near.log2 = 52 + (j + 1) := by
    apply log2_of_scale same
    rw [Nat.pow_add, double]
    omega
  apply nearestRank_eq scale
  · rw [double, Nat.mul_comm _ m]
    omega
  · rw [double, Nat.mul_comm _ m]
    omega

/-- Only the first magnitude of a binade has a neighbour below the binade that is this close. -/
theorem first_of_lower (least : binade ≤ m) (close : Near (m * 2 ^ (j + 1)) near)
    (lower : near < 2 ^ (52 + (j + 1))) : m = binade := by
  by_contra other
  have next : (binade + 1) * 2 ^ (j + 1) ≤ m * 2 ^ (j + 1) :=
    Nat.mul_le_mul_right _ (Nat.lt_of_le_of_ne least (Ne.symm other))
  have below := close.below
  rw [Nat.pow_add] at lower
  rw [Nat.succ_mul, binade_eq] at next
  omega

theorem nearestRank_lower (close : Near (binade * 2 ^ (j + 1)) near)
    (lower : near < 2 ^ (52 + (j + 1))) : nearestRank near = (j + 1) * binade + binade := by
  obtain ⟨above, below⟩ := close
  have double : 2 ^ (j + 1) = 2 * 2 ^ j := Nat.pow_succ'
  have unit := Nat.two_pow_pos j
  rw [Nat.pow_add, double] at lower
  rw [binade_eq, double] at above below
  have scale : near.log2 = 52 + j := by
    apply log2_of_scale
    · rw [Nat.pow_add]
      omega
    · rw [Nat.pow_add]
      omega
  -- The neighbour lies in the binade below and is rounded up to the end of it.
  have rounded : nearestRank near = j * binade + 2 * binade := by
    apply nearestRank_eq scale
    · rw [binade_eq]
      omega
    · rw [binade_eq]
      omega
  rw [rounded, Nat.succ_mul j]
  omega

/-- What is near to a magnitude is rounded to its rank. -/
theorem nearestRank_near (large : 2 * binade ≤ r) (close : Near (magnitude r).1 near) :
    nearestRank near = r := by
  rcases significand_cases r with ⟨-, low⟩ | ⟨m, k, split, least, most, positive, rank⟩
  · omega
  · obtain ⟨j, rfl⟩ : ∃ j, k = j + 1 := ⟨k - 1, by omega⟩
    rw [magnitude_eq split] at close
    rw [rank]
    by_cases same : 2 ^ (52 + (j + 1)) ≤ near
    · exact nearestRank_same least most close same
    · have lower := Nat.not_le.mp same
      obtain rfl := first_of_lower least close lower
      exact nearestRank_lower close lower

end Neighbourhood

end Binary64
end Parley
