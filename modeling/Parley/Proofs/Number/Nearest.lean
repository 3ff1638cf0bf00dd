import Mathlib.Algebra.Order.Field.Basic
import Mathlib.Data.Rat.Cast.Order
import Mathlib.Tactic.FieldSimp
import Parley.Proofs.Number.Order

/-! Rounding is correct: of all numbers there are it finds the nearest to a value and, where two are
as near, the one with an even rank. The rank of infinity counts as the power of two at which finite
magnitudes end, so what is beyond the middle of the last gap is rounded to infinity. -/
namespace Parley

/-- The rounded quotient is off by half of the divisor at most, and only if it is even by that
much. -/
theorem roundHalfEven_error (num : Nat) {den : Nat} (positive : 0 < den) :
    2 * |(num : Int) - den * roundHalfEven num den| ≤ den ∧
      (2 * |(num : Int) - den * roundHalfEven num den| = den → Even (roundHalfEven num den)) := by
  have whole : (den : Int) * (num / den : Nat) + (num % den : Nat) = num := by
    exact_mod_cast Nat.div_add_mod num den
  have part := Nat.mod_lt num positive
  have split : (num : Int) - den * (num / den : Nat) = (num % den : Nat) := by omega
  have above : |(num : Int) - den * ((num / den + 1 : Nat) : Int)| = den - (num % den : Nat) := by
    rw [Nat.cast_add, Nat.cast_one, mul_add, mul_one, ← sub_sub, split, abs_of_nonpos (by omega)]
    omega
  have below : |(num : Int) - den * (num / den : Nat)| = (num % den : Nat) := by
    rw [split, Nat.abs_cast]
  unfold roundHalfEven
  dsimp only
  split
  case isTrue less =>
    rw [below]
    exact ⟨by omega, fun same => by omega⟩
  case isFalse =>
    split
    case isTrue more =>
      rw [above]
      exact ⟨by omega, fun same => by omega⟩
    case isFalse =>
      rcases Nat.mod_two_eq_zero_or_one (num / den) with even | odd
      · rw [even, Nat.add_zero, below]
        exact ⟨by omega, fun _ => Nat.even_iff.mpr even⟩
      · rw [odd, above]
        exact ⟨by omega, fun _ => Nat.even_iff.mpr (by omega)⟩

theorem roundHalfEven_le {num den n : Nat} (positive : 0 < den) (most : num ≤ n * den) :
    roundHalfEven num den ≤ n := by
  have error := (roundHalfEven_error num positive).1
  by_contra more
  have := Nat.mul_le_mul_right den (Nat.not_le.mp more)
  rw [Nat.succ_mul] at this
  have low := neg_abs_le ((num : Int) - den * roundHalfEven num den)
  have far : (num : Int) - den * roundHalfEven num den ≤ -den := by
    rw [mul_comm (den : Int)]
    omega
  omega

theorem le_roundHalfEven {num den n : Nat} (positive : 0 < den) (least : n * den ≤ num) :
    n ≤ roundHalfEven num den := by
  have error := (roundHalfEven_error num positive).1
  by_contra less
  have := Nat.mul_le_mul_right den (Nat.not_le.mp less)
  rw [Nat.succ_mul] at this
  have high := le_abs_self ((num : Int) - den * roundHalfEven num den)
  have far : (den : Int) ≤ num - den * roundHalfEven num den := by
    rw [mul_comm (den : Int)]
    omega
  omega

/-- Of all quotients the rounded one is nearest, and the even one of two that are as near. -/
theorem roundHalfEven_nearest (num : Nat) {den n : Nat} (positive : 0 < den)
    (other : n ≠ roundHalfEven num den) :
    |(num : Int) - den * roundHalfEven num den| ≤ |(num : Int) - den * n| ∧
      (|(num : Int) - den * n| = |(num : Int) - den * roundHalfEven num den| →
        Even (roundHalfEven num den)) := by
  obtain ⟨error, even⟩ := roundHalfEven_error num positive
  generalize roundHalfEven num den = r at *
  have apart : (1 : Int) ≤ |(r : Int) - n| := Int.one_le_abs (by omega)
  have wide : (den : Int) ≤ |(den : Int) * (r - n)| := by
    rw [abs_mul, Nat.abs_cast]
    exact le_mul_of_one_le_right (Int.natCast_nonneg den) apart
  have triangle := abs_sub ((num : Int) - den * n) (num - den * r)
  rw [show (num : Int) - den * n - (num - den * r) = den * (r - n) by ring] at triangle
  exact ⟨by omega, fun same => even (by omega)⟩

namespace Binary64

/-- At a scale of its own, a significand stands for so many least units. -/
theorem magnitude_of_scale {m k : Nat} (least : k = 0 ∨ binade ≤ m) (most : m ≤ 2 * binade) :
    (magnitude (k * binade + m)).1 = m * 2 ^ k := by
  rcases significand_cases (k * binade + m) with
    ⟨whole, low⟩ | ⟨n, j, split, above, below, scaled, rank⟩
  · rw [magnitude_eq whole]
    rw [binade_eq] at least low
    rcases least with rfl | least
    · rw [Nat.zero_mul, Nat.zero_add]
    · obtain rfl : k = 0 := by omega
      rw [Nat.zero_mul, Nat.zero_add]
  · rw [magnitude_eq split]
    rw [binade_eq] at least most above below rank
    rcases Nat.lt_or_eq_of_le most with inside | last
    · obtain ⟨rfl, rfl⟩ : k = j ∧ m = n := by omega
      rfl
    · obtain ⟨rfl, rfl⟩ : j = k + 1 ∧ n = 4503599627370496 := by omega
      rw [last, Nat.pow_succ', Nat.mul_left_comm, Nat.mul_assoc]

/-- A magnitude is a whole number of steps of a scale, or it lies below the binade of that scale. -/
theorem magnitude_cases (r k : Nat) :
    (∃ n, (magnitude r).1 = n * 2 ^ k) ∨ 0 < k ∧ (magnitude r).1 < binade * 2 ^ k := by
  have lower {m j : Nat} (small : m < 2 * binade) (less : j < k) : m * 2 ^ j < binade * 2 ^ k := by
    calc m * 2 ^ j
        < 2 * binade * 2 ^ j := Nat.mul_lt_mul_of_pos_right small (Nat.two_pow_pos j)
      _ = binade * 2 ^ (j + 1) := by rw [Nat.pow_succ', Nat.mul_left_comm, Nat.mul_assoc]
      _ ≤ binade * 2 ^ k := Nat.mul_le_mul_left _ (Nat.pow_le_pow_right Nat.two_pos less)
  rcases significand_cases r with ⟨whole, low⟩ | ⟨m, j, split, -, below, -, -⟩
  · rw [magnitude_eq whole]
    rcases Nat.eq_zero_or_pos k with rfl | positive
    · exact .inl ⟨r, rfl⟩
    · exact .inr ⟨positive, lower low positive⟩
  · rw [magnitude_eq split]
    rcases Nat.lt_or_ge j k with less | more
    · exact .inr ⟨by omega, lower below less⟩
    · obtain ⟨d, rfl⟩ := Nat.exists_eq_add_of_le more
      exact .inl ⟨m * 2 ^ d, by rw [Nat.pow_add, Nat.mul_assoc, Nat.mul_comm (2 ^ k)]⟩

/-- The scale at which a quotient of least units is rounded. -/
def scaleOf (units : Nat) : Nat := units.log2 - 52

/-- The rank that a quotient of least units is rounded to, before it is cut off at infinity. -/
def rankOf (num den : Nat) : Nat :=
  scaleOf (num / den) * binade + roundHalfEven num (den * 2 ^ scaleOf (num / den))

/-- The rounded significand fills its binade, unless it is in the first. -/
theorem significand_of_scale (num : Nat) {den : Nat} (positive : 0 < den) :
    (scaleOf (num / den) = 0 ∨ binade * (den * 2 ^ scaleOf (num / den)) ≤ num) ∧
      num < 2 * binade * (den * 2 ^ scaleOf (num / den)) := by
  have whole := Nat.div_mul_le_self num den
  have part := Nat.lt_div_mul_add positive (a := num)
  generalize units_eq : num / den = units at *
  have least : 2 ^ 52 = binade := rfl
  by_cases none : units = 0
  · subst none
    have scale : scaleOf 0 = 0 := rfl
    rw [scale]
    refine ⟨.inl rfl, ?_⟩
    rw [Nat.pow_zero, Nat.mul_one, binade_eq]
    omega
  · have top : units < 2 ^ (units.log2 + 1) := Nat.lt_log2_self
    constructor
    · by_cases low : units.log2 ≤ 52
      · exact .inl (by unfold scaleOf; omega)
      · right
        have bottom := Nat.log2_self_le none
        have scale : units.log2 = 52 + scaleOf units := by
          unfold scaleOf
          omega
        rw [scale, Nat.pow_add, least] at bottom
        calc binade * (den * 2 ^ scaleOf units)
            = binade * 2 ^ scaleOf units * den := by rw [Nat.mul_comm den, Nat.mul_assoc]
          _ ≤ units * den := Nat.mul_le_mul_right den bottom
          _ ≤ num := whole
    · have scale : units.log2 + 1 ≤ 53 + scaleOf units := by
        unfold scaleOf
        omega
      have below : units + 1 ≤ 2 * binade * 2 ^ scaleOf units := by
        calc units + 1
            ≤ 2 ^ (units.log2 + 1) := top
          _ ≤ 2 ^ (53 + scaleOf units) := Nat.pow_le_pow_right Nat.two_pos scale
          _ = 2 * binade * 2 ^ scaleOf units := Nat.pow_add 2 53 _
      calc num
          < units * den + den := part
        _ = (units + 1) * den := (Nat.succ_mul units den).symm
        _ ≤ 2 * binade * 2 ^ scaleOf units * den := Nat.mul_le_mul_right den below
        _ = 2 * binade * (den * 2 ^ scaleOf units) := by rw [Nat.mul_assoc, Nat.mul_comm den]

theorem magnitude_rankOf (num : Nat) {den : Nat} (positive : 0 < den) :
    (magnitude (rankOf num den)).1 =
      roundHalfEven num (den * 2 ^ scaleOf (num / den)) * 2 ^ scaleOf (num / den) := by
  obtain ⟨least, most⟩ := significand_of_scale num positive
  have step := Nat.mul_pos positive (Nat.two_pow_pos (scaleOf (num / den)))
  exact magnitude_of_scale (least.imp_right (le_roundHalfEven step)) (roundHalfEven_le step most.le)

theorem even_rankOf {num den : Nat}
    (even : Even (roundHalfEven num (den * 2 ^ scaleOf (num / den)))) : Even (rankOf num den) := by
  have binades : Even binade := ⟨2251799813685248, rfl⟩
  exact (binades.mul_left _).add even

theorem magnitude_injective (same : (magnitude r).1 = (magnitude s).1) : r = s := by
  rcases Nat.lt_trichotomy r s with less | equal | more
  · exact absurd same (magnitude_lt_magnitude less).ne
  · exact equal
  · exact absurd same (magnitude_lt_magnitude more).ne'

/-- How far a number of least units is from a rank. -/
def gap (num den r : Nat) : Int := |(num : Int) - den * (magnitude r).1|

/-- No rank is nearer than the one that is found. -/
theorem gap_rankOf (num : Nat) {den r : Nat} (positive : 0 < den) (other : r ≠ rankOf num den) :
    gap num den (rankOf num den) ≤ gap num den r ∧
      (gap num den r = gap num den (rankOf num den) → Even (rankOf num den)) := by
  have step := Nat.mul_pos positive (Nat.two_pow_pos (scaleOf (num / den)))
  have least := (significand_of_scale num positive).1
  have stepped (n : Nat) : (den : Int) * ((n * 2 ^ scaleOf (num / den) : Nat) : Int) =
      ((den * 2 ^ scaleOf (num / den) : Nat) : Int) * n := by
    push_cast
    ring
  unfold gap
  rw [magnitude_rankOf num positive, stepped]
  rcases magnitude_cases r (scaleOf (num / den)) with ⟨n, steps⟩ | ⟨scaled, lower⟩
  · have apart : n ≠ roundHalfEven num (den * 2 ^ scaleOf (num / den)) := by
      rintro rfl
      exact other (magnitude_injective (steps.trans (magnitude_rankOf num positive).symm))
    obtain ⟨nearer, tie⟩ := roundHalfEven_nearest num step apart
    rw [steps, stepped]
    exact ⟨nearer, fun same => even_rankOf (tie same)⟩
  -- A rank below the binade is farther away than the first one of the binade.
  · have first : binade * (den * 2 ^ scaleOf (num / den)) ≤ num := least.resolve_left scaled.ne'
    have nearer : |(num : Int) - (den * 2 ^ scaleOf (num / den) : Nat) *
        roundHalfEven num (den * 2 ^ scaleOf (num / den))| ≤
          num - (den * 2 ^ scaleOf (num / den) : Nat) * binade := by
      have inside : |(num : Int) - (den * 2 ^ scaleOf (num / den) : Nat) * binade| =
          num - (den * 2 ^ scaleOf (num / den) : Nat) * binade := by
        apply abs_of_nonneg
        rw [mul_comm] at first
        exact sub_nonneg.mpr (by exact_mod_cast first)
      rw [← inside]
      by_cases same : binade = roundHalfEven num (den * 2 ^ scaleOf (num / den))
      · rw [← same]
      · exact (roundHalfEven_nearest num step same).1
    have farther : (num : Int) - (den * 2 ^ scaleOf (num / den) : Nat) * binade <
        |(num : Int) - den * (magnitude r).1| := by
      refine lt_of_lt_of_le ?_ (le_abs_self _)
      have less : den * (magnitude r).1 < den * 2 ^ scaleOf (num / den) * binade := by
        rw [Nat.mul_assoc, Nat.mul_comm _ binade]
        exact Nat.mul_lt_mul_of_pos_left lower positive
      have less : (den : Int) * (magnitude r).1 <
          (den * 2 ^ scaleOf (num / den) : Nat) * binade := by exact_mod_cast less
      omega
    have strict := lt_of_le_of_lt nearer farther
    exact ⟨strict.le, fun same => absurd same strict.ne'⟩

/-- The same among the ranks up to infinity, whose magnitudes are all there are. -/
theorem gap_capped (num : Nat) {den r : Nat} (positive : 0 < den) (known : r ≤ infinityRank)
    (other : r ≠ min (rankOf num den) infinityRank) :
    gap num den (min (rankOf num den) infinityRank) ≤ gap num den r ∧
      (gap num den r = gap num den (min (rankOf num den) infinityRank) →
        Even (min (rankOf num den) infinityRank)) := by
  by_cases inside : rankOf num den ≤ infinityRank
  · rw [Nat.min_eq_left inside] at other ⊢
    exact gap_rankOf num positive other
  · have beyond := Nat.not_le.mp inside
    rw [Nat.min_eq_right beyond.le] at other ⊢
    have nearest := (gap_rankOf num positive beyond.ne).1
    have grows {a b : Nat} (less : a < b) :
        (den : Int) * (magnitude a).1 < den * (magnitude b).1 := by
      exact_mod_cast Nat.mul_lt_mul_of_pos_left (magnitude_lt_magnitude less) positive
    have last := grows beyond
    have inner := grows (Nat.lt_of_le_of_ne known other)
    unfold gap at nearest ⊢
    generalize (den : Int) * (magnitude (rankOf num den)).1 = c at nearest last
    generalize (den : Int) * (magnitude infinityRank).1 = b at nearest last inner ⊢
    generalize (den : Int) * (magnitude r).1 = a at inner ⊢
    have past : b ≤ num := by
      by_contra before
      rw [abs_of_neg (by omega), abs_of_neg (by omega)] at nearest
      omega
    rw [abs_of_nonneg (by omega), abs_of_nonneg (by omega)]
    exact ⟨by omega, fun same => by omega⟩

/-- What a rank is worth: a finite magnitude, and for the rank of infinity the power of two at which
the finite ones end. -/
def worth (r : Nat) : ℚ := (magnitude r).1 / oneUnits

/-- No rank is nearer to a value, and of two that are as near the even one is meant. -/
structure Nearest (q : ℚ) (r : Nat) : Prop where
  known : r ≤ infinityRank
  least : ∀ s ≤ infinityRank, |q - worth r| ≤ |q - worth s|
  even : ∀ s ≤ infinityRank, s ≠ r → |q - worth s| = |q - worth r| → Even r

/-- The number that a value with a sign is rounded to. -/
inductive Rounds (negative : Bool) (q : ℚ) : Binary64 → Prop
  | intro (r : Fin (infinityRank + 1)) (nearest : Nearest q r) :
    Rounds negative q (.number negative r)

theorem worth_lt_worth (less : r < s) : worth r < worth s := by
  have units : (0 : ℚ) < oneUnits := Nat.cast_pos.mpr oneUnits_pos
  exact (div_lt_div_iff_of_pos_right units).mpr (Nat.cast_lt.mpr (magnitude_lt_magnitude less))

/-- Ranks with another one between them are not both nearest, and neighbours are not both even. -/
theorem Nearest.unique (first : Nearest q r) (second : Nearest q s) : r = s := by
  wlog less : r < s generalizing r s
  · rcases Nat.lt_or_ge s r with more | most
    · exact (this second first more).symm
    · exact Nat.le_antisymm most (Nat.not_lt.mp less)
  have same : |q - worth s| = |q - worth r| :=
    le_antisymm (second.least r first.known) (first.least s second.known)
  have apart : r + 1 ≠ s := by
    rintro rfl
    have even := first.even _ second.known (Nat.succ_ne_self r) same
    have even' := second.even _ first.known (Nat.succ_ne_self r).symm same.symm
    exact Nat.even_add_one.mp even' even
  have between : r + 1 < s := Nat.lt_of_le_of_ne less apart
  have below : worth r < worth (r + 1) := worth_lt_worth (Nat.lt_succ_self r)
  have above := worth_lt_worth between
  have nearest := first.least (r + 1) (between.le.trans second.known)
  -- The value is in the middle of the two, and nearer to what is between them.
  have middle : q - worth s = -(q - worth r) := by
    refine (abs_eq_abs.mp same).resolve_left fun equal => ?_
    linarith
  have inside : |q - worth (r + 1)| < |q - worth r| := by
    rw [abs_of_pos (by linarith : 0 < q - worth r), abs_lt]
    constructor <;> linarith
  exact absurd nearest (not_le.mpr inside)

theorem Rounds.unique (first : Rounds negative q x) (second : Rounds negative q y) : x = y := by
  obtain ⟨r, nearest⟩ := first
  obtain ⟨s, nearest'⟩ := second
  exact congrArg _ (Fin.ext (nearest.unique nearest'))

theorem ofRatio_eq (negative : Bool) (num den : Nat) :
    ofRatio negative num den = ofRank negative (rankOf (num * oneUnits) den) := by
  simp only [ofRatio, rankOf, scaleOf, shiftLeft_oneUnits]
  rw [Nat.shiftLeft_eq]

theorem abs_sub_worth (num : Nat) {den : Nat} (positive : 0 < den) (r : Nat) :
    |(num / den : ℚ) - worth r| = gap (num * oneUnits) den r / (den * oneUnits) := by
  have units : (0 : ℚ) < oneUnits := Nat.cast_pos.mpr oneUnits_pos
  have divisor : (0 : ℚ) < den := Nat.cast_pos.mpr positive
  have common : (num / den : ℚ) - worth r =
      ((num * oneUnits : Nat) - den * (magnitude r).1) / (den * oneUnits) := by
    unfold worth
    field_simp
    push_cast
    ring
  rw [common, abs_div, abs_of_pos (mul_pos divisor units), gap]
  push_cast
  rfl

/-- A quotient is rounded to the nearest number. -/
theorem rounds_ofRatio (negative : Bool) (num : Nat) {den : Nat} (positive : 0 < den) :
    Rounds negative (num / den) (ofRatio negative num den) := by
  rw [ofRatio_eq]
  have scale : (0 : ℚ) < den * oneUnits :=
    mul_pos (Nat.cast_pos.mpr positive) (Nat.cast_pos.mpr oneUnits_pos)
  refine .intro ⟨min (rankOf (num * oneUnits) den) infinityRank, by omega⟩
    ⟨Nat.min_le_right _ _, fun s known => ?_, fun s known other same => ?_⟩
  · by_cases other : s = min (rankOf (num * oneUnits) den) infinityRank
    · rw [other]
    · rw [abs_sub_worth num positive, abs_sub_worth num positive, div_le_div_iff_of_pos_right scale]
      exact_mod_cast (gap_capped (num * oneUnits) positive known other).1
  · rw [abs_sub_worth num positive, abs_sub_worth num positive, div_left_inj' scale.ne'] at same
    exact (gap_capped (num * oneUnits) positive known other).2 (by exact_mod_cast same)

theorem rounds_ofInt (i : Int) : Rounds (i < 0) |(i : ℚ)| (ofInt i) := by
  have rounded := rounds_ofRatio (i < 0) i.natAbs Nat.one_pos
  rwa [Nat.cast_one, div_one, Nat.cast_natAbs, Int.cast_abs] at rounded

theorem worth_pos (positive : 0 < r) : 0 < worth r :=
  div_pos (Nat.cast_pos.mpr (magnitude_pos positive)) (Nat.cast_pos.mpr oneUnits_pos)

theorem worth_le_worth (atMost : r ≤ s) : worth r ≤ worth s := by
  rcases Nat.lt_or_eq_of_le atMost with less | rfl
  · exact (worth_lt_worth less).le
  · exact le_rfl

/-- What is nearer to nothing than to the least number is rounded to zero. -/
theorem nearest_zero (positive : 0 ≤ q) (small : 2 * q < worth 1) : Nearest q 0 := by
  have nothing : worth 0 = 0 := by simp [worth, magnitude_eq (r := 0) rfl]
  have farther {s : Nat} (other : s ≠ 0) : |q - worth 0| < |q - worth s| := by
    have least : worth 1 ≤ worth s := worth_le_worth (Nat.one_le_iff_ne_zero.mpr other)
    rw [nothing, sub_zero, abs_of_nonneg positive, abs_of_neg (by linarith)]
    linarith
  refine ⟨Nat.zero_le _, fun s _ => ?_, fun s _ other same => absurd same (farther other).ne'⟩
  by_cases same : s = 0
  · rw [same]
  · exact (farther same).le

/-- What is beyond all finite numbers by a gap is rounded to infinity. -/
theorem nearest_infinity (large : worth infinityRank ≤ q) : Nearest q infinityRank := by
  have farther {s : Nat} (known : s ≤ infinityRank) (other : s ≠ infinityRank) :
      |q - worth infinityRank| < |q - worth s| := by
    have less := worth_lt_worth (Nat.lt_of_le_of_ne known other)
    rw [abs_of_nonneg (by linarith), abs_of_nonneg (by linarith)]
    linarith
  refine ⟨le_rfl, fun s known => ?_, fun s known other same =>
    absurd same (farther known other).ne'⟩
  by_cases same : s = infinityRank
  · rw [same]
  · exact (farther known same).le

theorem rounds_of_nearest (negative : Bool) (nearest : Nearest q r) :
    Rounds negative q (ofRank negative r) := by
  have cut : min r infinityRank = r := Nat.min_eq_left nearest.known
  simp only [ofRank, cut]
  exact .intro ⟨r, by have := nearest.known; omega⟩ nearest

theorem rounds_nearestTo (negative : Bool) (digits : Nat) (exponent : Int) :
    Rounds negative (digits * 10 ^ exponent) (nearestTo negative digits exponent) := by
  cases exponent with
  | ofNat e =>
    have rounded := rounds_ofRatio negative (digits * Nat.pow 10 e) Nat.one_pos
    have same : ((digits * Nat.pow 10 e : Nat) / (1 : Nat) : ℚ) = digits * 10 ^ (Int.ofNat e) := by
      simp
    rwa [same] at rounded
  | negSucc e =>
    have rounded := rounds_ofRatio negative digits (Nat.pow_pos (n := e + 1) (show 0 < 10 by decide))
    have same : ((digits : Nat) / (10 ^ (e + 1) : Nat) : ℚ) = digits * 10 ^ (Int.negSucc e) := by
      rw [zpow_negSucc, div_eq_mul_inv]
      push_cast
      rfl
    rwa [same] at rounded

theorem worth_infinity_le : worth infinityRank ≤ 10 ^ (310 : Int) := by
  have units : (0 : ℚ) < oneUnits := Nat.cast_pos.mpr oneUnits_pos
  have bound : (magnitude infinityRank).1 ≤ 10 ^ 310 * oneUnits := by decide +kernel
  rw [worth, div_le_iff₀ units]
  exact_mod_cast bound

theorem lt_worth_one : 2 * 10 ^ (-331 : Int) < worth 1 := by
  have units : (0 : ℚ) < oneUnits := Nat.cast_pos.mpr oneUnits_pos
  have scale : (0 : ℚ) < 10 ^ (331 : Int) := zpow_pos (by norm_num) 331
  have bound : 2 * oneUnits < (magnitude 1).1 * 10 ^ 331 := by decide +kernel
  rw [worth, zpow_neg, ← div_eq_mul_inv, div_lt_div_iff₀ scale units]
  exact_mod_cast bound

/-- A decimal is rounded to the nearest number, however large its exponent is. -/
theorem rounds_ofDecimal (d : Decimal) :
    Rounds d.negative (d.digits * 10 ^ d.exponent) (ofDecimal d) := by
  obtain ⟨negative, digits, exponent⟩ := d
  have ten : (1 : ℚ) < 10 := by norm_num
  have scale : (0 : ℚ) < 10 ^ exponent := zpow_pos (by norm_num) exponent
  by_cases none : digits = 0
  · have zero : ofDecimal ⟨negative, digits, exponent⟩ = ofRank negative 0 := if_pos (.inl none)
    rw [zero, none, Nat.cast_zero, zero_mul]
    exact rounds_of_nearest negative (nearest_zero le_rfl (by simpa using worth_pos Nat.one_pos))
  · by_cases least : decimalFloor ≤ Decimal.digitCount digits + exponent
    · by_cases most : Decimal.digitCount digits + exponent ≤ decimalCeiling
      · rw [ofDecimal_eq negative none least most]
        exact rounds_nearestTo negative digits exponent
      · have last : ofDecimal ⟨negative, digits, exponent⟩ = ofRank negative infinityRank := by
          simp only [ofDecimal, none, false_or, if_neg (Int.not_lt.mpr least),
            if_pos (Int.not_le.mp most)]
        rw [last]
        refine rounds_of_nearest negative (nearest_infinity ?_)
        have large : (10 ^ (Decimal.digitCount digits - 1) : ℚ) ≤ digits := by
          exact_mod_cast Decimal.pow_le_of_digitCount (Nat.pos_of_ne_zero none)
        have count := Decimal.digitCount_pos digits
        have enough : (310 : Int) ≤ (Decimal.digitCount digits - 1 : Nat) + exponent := by
          simp only [decimalCeiling] at most
          omega
        calc worth infinityRank
            ≤ 10 ^ (310 : Int) := worth_infinity_le
          _ ≤ 10 ^ ((Decimal.digitCount digits - 1 : Nat) + exponent) :=
              zpow_le_zpow_right₀ ten.le enough
          _ = 10 ^ (Decimal.digitCount digits - 1) * 10 ^ exponent := by
              rw [zpow_add₀ (by norm_num), zpow_natCast]
          _ ≤ digits * 10 ^ exponent := mul_le_mul_of_nonneg_right large scale.le
    · have first : ofDecimal ⟨negative, digits, exponent⟩ = ofRank negative 0 :=
        if_pos (.inr (Int.not_le.mp least))
      rw [first]
      refine rounds_of_nearest negative (nearest_zero (by positivity) ?_)
      have small : (digits : ℚ) < 10 ^ Decimal.digitCount digits := by
        exact_mod_cast Decimal.lt_pow_digitCount digits
      have few : (Decimal.digitCount digits : Int) + exponent ≤ -331 := by
        simp only [decimalFloor] at least
        omega
      calc 2 * (digits * 10 ^ exponent : ℚ)
          < 2 * (10 ^ Decimal.digitCount digits * 10 ^ exponent) := by
            gcongr
        _ = 2 * 10 ^ ((Decimal.digitCount digits : Int) + exponent) := by
            rw [zpow_add₀ (by norm_num), zpow_natCast]
        _ ≤ 2 * 10 ^ (-331 : Int) := by
            gcongr
            exact ten.le
        _ < worth 1 := lt_worth_one

end Binary64
end Parley
