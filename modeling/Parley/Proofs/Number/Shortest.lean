import Parley.Proofs.Number.Digits

/-! The text of a number is read as that number. The exact expansion always reads back, so the
search for fewer digits never fails; for a whole number it ends before any text with a point. -/
namespace Parley.Binary64

/-- A bound on finite magnitudes, in least units. -/
def ceilingUnits : Nat := 2 * binade * 1 <<< 2045

theorem mul_pow_lt {m bound k top : Nat} (most : m < bound) (scale : k ≤ top) :
    m * 2 ^ k < bound * 1 <<< top := by
  rw [Nat.shiftLeft_eq, Nat.one_mul]
  exact Nat.mul_lt_mul_of_lt_of_le most (Nat.pow_le_pow_right Nat.two_pos scale)
    (Nat.two_pow_pos top)

theorem magnitude_snd (r : Nat) : (magnitude r).2 = oneUnits := rfl

theorem magnitude_lt (finite : r < infinityRank) : (magnitude r).1 < ceilingUnits := by
  have last : infinityRank = 2046 * binade + binade := rfl
  rcases significand_cases r with ⟨whole, low⟩ | ⟨m, k, split, least, most, -, rank⟩
  · rw [magnitude_eq whole]
    exact mul_pow_lt low (Nat.zero_le _)
  · have scale : k ≤ 2045 := by
      by_contra larger
      have : 2046 * binade ≤ k * binade := Nat.mul_le_mul_right binade (Nat.not_le.mp larger)
      omega
    rw [magnitude_eq split]
    exact mul_pow_lt most scale

theorem magnitude_pos (positive : 0 < r) : 0 < (magnitude r).1 := by
  rcases significand_cases r with ⟨whole, -⟩ | ⟨m, k, split, least, -⟩
  · rw [magnitude_eq whole, Nat.pow_zero, Nat.mul_one]
    exact positive
  · rw [magnitude_eq split]
    exact Nat.mul_pos (Nat.lt_of_lt_of_le (by decide) least) (Nat.two_pow_pos k)

theorem mul_five_pow (n k : Nat) : n * Nat.pow 5 k * 1 <<< k = n * Nat.pow 10 k := by
  rw [Nat.shiftLeft_eq, Nat.one_mul, Nat.mul_assoc]
  exact congrArg (n * ·) (Nat.mul_pow 5 2 k).symm

/-- The exact expansion of a magnitude reads back. -/
theorem expansion_reads (positive : 0 < r) (finite : r < infinityRank) :
    ofDecimal ⟨false, (magnitude r).1 * Nat.pow 5 1074, -1074⟩ = ofRank false r := by
  have fives : 10 ^ 743 ≤ Nat.pow 5 1074 := by decide +kernel
  have units : ceilingUnits * Nat.pow 5 1074 ≤ 10 ^ 1384 := by decide +kernel
  have some_ := Nat.mul_pos (magnitude_pos positive) (show 0 < Nat.pow 5 1074 by decide +kernel)
  have least : 743 < Decimal.digitCount ((magnitude r).1 * Nat.pow 5 1074) :=
    Decimal.le_digitCount (Nat.le_trans fives (Nat.le_mul_of_pos_left _ (magnitude_pos positive)))
  have most : Decimal.digitCount ((magnitude r).1 * Nat.pow 5 1074) ≤ 1384 := by
    apply (Decimal.digitCount_le_iff (by decide)).mpr
    refine Nat.lt_of_lt_of_le ?_ units
    exact Nat.mul_lt_mul_of_pos_right (magnitude_lt finite) (by decide +kernel)
  rw [ofDecimal_eq false (Nat.pos_iff_ne_zero.mp some_)]
  · apply ofRatio_exact false (by decide +kernel)
    have places : 1073 + 1 = 1074 := rfl
    rw [oneUnits, places]
    generalize 1074 = k
    exact mul_five_pow (magnitude r).1 k
  · rw [decimalFloor]
    omega
  · rw [decimalCeiling]
    omega

/-- A decimal as a candidate writes it. -/
def gridText (point : Nat × Int) : List Char :=
  let (digits, exponent) := Decimal.stripZeros digitLimit point.1 point.2
  Decimal.positional digits exponent

/-- The candidates of so many digits, the fewest first. -/
def gridTexts (num den count : Nat) : List (List Char) :=
  ((List.range count).flatMap fun n => neighbours num den (n + 1)).map gridText

theorem candidates_eq (num den : Nat) :
    candidates num den =
      gridTexts num den digitLimit ++ [Decimal.positional (num * Nat.pow 5 1074) (-1074)] := rfl

/-- Candidates of few digits come before all others. -/
theorem find?_candidates {num den count : Nat} {p : List Char → Bool} (few : count ≤ digitLimit)
    (found : (gridTexts num den count).find? p = some text) :
    (candidates num den).find? p = some text := by
  have split : List.range digitLimit =
      List.range count ++ (List.range (digitLimit - count)).map (count + ·) := by
    rw [← List.range_add, Nat.add_sub_cancel' few]
  have grids : ∃ others, gridTexts num den digitLimit = gridTexts num den count ++ others := by
    rw [gridTexts, split, List.flatMap_append, List.map_append]
    exact ⟨_, rfl⟩
  obtain ⟨others, grids⟩ := grids
  rw [candidates_eq, grids, List.append_assoc, List.find?_append, found, Option.some_or]

/-- A candidate has lost some zeros, and nothing of its value. -/
theorem gridText_eq (digits : Nat) (exponent : Int) : ∃ d k,
    gridText (digits, exponent) = Decimal.positional d (exponent + (k : Nat)) ∧
      ∀ negative, ofDecimal ⟨negative, d, exponent + (k : Nat)⟩ =
        ofDecimal ⟨negative, digits, exponent⟩ := by
  obtain ⟨d, k, stripped, value⟩ := Decimal.stripZeros_spec digitLimit digits exponent
  refine ⟨d, k, ?_, ?_⟩
  · simp only [gridText, stripped]
  · intro negative
    rw [value, ofDecimal_mul_pow]

/-- What is chosen is positional text that reads back. -/
theorem shortest_reads (positive : 0 < r) (finite : r < infinityRank) : ∃ digits exponent,
    shortest r = Decimal.positional digits exponent ∧
      ofDecimal ⟨false, digits, exponent⟩ = ofRank false r := by
  have last := (readsAs_positional r _ _).mpr (expansion_reads positive finite)
  have listed : Decimal.positional ((magnitude r).1 * Nat.pow 5 1074) (-1074) ∈
      candidates (magnitude r).1 (magnitude r).2 := by
    rw [candidates_eq]
    exact List.mem_append_right _ (List.mem_singleton_self _)
  obtain ⟨text, found⟩ := Option.isSome_iff_exists.mp (List.find?_isSome.mpr ⟨_, listed, last⟩)
  have chosen : shortest r = text := by
    simp only [shortest, found, Option.getD_some]
  have reads := List.find?_some found
  have written := List.mem_of_find?_eq_some found
  rw [candidates_eq] at written
  rcases List.mem_append.mp written with grid | expansion
  · obtain ⟨⟨d, e⟩, -, rfl⟩ := List.mem_map.mp grid
    obtain ⟨d', k, text, -⟩ := gridText_eq d e
    exact ⟨_, _, chosen.trans text, (readsAs_positional _ _ _).mp (text ▸ reads)⟩
  · cases List.mem_singleton.mp expansion
    exact ⟨_, _, chosen, (readsAs_positional _ _ _).mp reads⟩

section Whole

variable {whole den n : Nat}

/-- Around a whole number the grids of few digits hold whole numbers, the nearer one first. -/
theorem neighbours_whole (unit : 0 < den) (positive : 0 < whole)
    (few : n ≤ Decimal.digitCount whole) : ∃ near far zeros : Nat,
      zeros = Decimal.digitCount whole - n ∧
      neighbours (whole * den) den n = [(near, (zeros : Int)), (far, (zeros : Int))] ∧
      2 * (near * 10 ^ zeros) ≤ 2 * whole + 10 ^ zeros ∧
      2 * whole ≤ 2 * (near * 10 ^ zeros) + 10 ^ zeros := by
  generalize scale : Decimal.digitCount whole - n = zeros
  have leading : leadingExponent (whole * den) den - ((n : Int) - 1) = (zeros : Nat) := by
    rw [leadingExponent, if_pos (Nat.le_mul_of_pos_left _ positive), Nat.mul_div_cancel _ unit]
    omega
  have cell : Nat.pow 10 zeros = 10 ^ zeros := rfl
  have low : whole * den / (den * 10 ^ zeros) = whole / 10 ^ zeros := by
    rw [Nat.mul_comm den, Nat.mul_div_mul_right _ _ unit]
  have part : 2 * (whole * den % (den * 10 ^ zeros)) < den * 10 ^ zeros ↔
      2 * (whole % 10 ^ zeros) < 10 ^ zeros := by
    rw [Nat.mul_comm den, Nat.mul_mod_mul_right, ← Nat.mul_assoc, Nat.mul_lt_mul_right unit]
  have split := Nat.div_add_mod whole (10 ^ zeros)
  have rest := Nat.mod_lt whole (show 10 ^ zeros > 0 from Nat.pow_pos (by decide))
  have next : (whole / 10 ^ zeros + 1) * 10 ^ zeros =
      whole / 10 ^ zeros * 10 ^ zeros + 10 ^ zeros := Nat.succ_mul _ _
  rw [Nat.mul_comm] at split
  simp only [neighbours, leading, cell, low, part]
  by_cases lower : 2 * (whole % 10 ^ zeros) < 10 ^ zeros
  · refine ⟨whole / 10 ^ zeros, whole / 10 ^ zeros + 1, zeros, rfl, if_pos lower, ?_, ?_⟩
    · omega
    · omega
  · refine ⟨whole / 10 ^ zeros + 1, whole / 10 ^ zeros, zeros, rfl, if_neg lower, ?_, ?_⟩
    · omega
    · omega

theorem near_of_grid {near zeros : Nat} (positive : 0 < whole)
    (scale : zeros = Decimal.digitCount whole - min (Decimal.digitCount whole) digitLimit)
    (above : 2 * (near * 10 ^ zeros) ≤ 2 * whole + 10 ^ zeros)
    (below : 2 * whole ≤ 2 * (near * 10 ^ zeros) + 10 ^ zeros) :
    Near whole (near * 10 ^ zeros) ∧ 0 < near ∧ near < 10 ^ 18 := by
  rw [digitLimit] at scale
  by_cases short : Decimal.digitCount whole ≤ 17
  · obtain rfl : zeros = 0 := by omega
    have few : whole < 10 ^ 17 := (Decimal.digitCount_le_iff (by decide)).mp short
    refine ⟨⟨?_, ?_⟩, ?_, ?_⟩ <;> omega
  · have least := Decimal.pow_le_of_digitCount positive
    have most := Decimal.lt_pow_digitCount whole
    have digits : Decimal.digitCount whole = zeros + 17 := by omega
    rw [digits, Nat.pow_add] at most
    rw [digits, Nat.add_sub_assoc (by decide), Nat.pow_add] at least
    have cell : 0 < 10 ^ zeros := Nat.pow_pos (by decide)
    refine ⟨⟨?_, ?_⟩, ?_, ?_⟩
    · omega
    · omega
    · by_contra none
      obtain rfl : near = 0 := by omega
      omega
    · by_contra many
      have := Nat.mul_le_mul_right (10 ^ zeros) (Nat.not_lt.mp many)
      omega

theorem large_of_whole (same : (magnitude r).1 = whole * oneUnits) (positive : 0 < whole) :
    2 * binade ≤ r := by
  have unit : 2 * binade ≤ oneUnits := by decide +kernel
  have some_ := Nat.le_mul_of_pos_left oneUnits positive
  by_contra low
  have small : significand r = (r, 0) := if_pos (Nat.not_le.mp low)
  rw [magnitude_eq small, Nat.pow_zero, Nat.mul_one] at same
  omega

/-- Seventeen digits, or all that there are, tell a whole number from every other. -/
theorem near_reads {near zeros : Nat} (finite : r < infinityRank)
    (same : (magnitude r).1 = whole * oneUnits) (positive : 0 < whole)
    (scale : zeros = Decimal.digitCount whole - min (Decimal.digitCount whole) digitLimit)
    (above : 2 * (near * 10 ^ zeros) ≤ 2 * whole + 10 ^ zeros)
    (below : 2 * whole ≤ 2 * (near * 10 ^ zeros) + 10 ^ zeros) :
    ofDecimal ⟨false, near, (zeros : Nat)⟩ = ofRank false r := by
  obtain ⟨close, some_, few⟩ := near_of_grid positive scale above below
  have ceiling : ceilingUnits ≤ 10 ^ 309 * oneUnits := by decide +kernel
  have digits : Decimal.digitCount whole ≤ 309 := by
    apply (Decimal.digitCount_le_iff (by decide)).mpr
    apply Nat.lt_of_mul_lt_mul_right (a := oneUnits)
    rw [← same]
    exact Nat.lt_of_lt_of_le (magnitude_lt finite) ceiling
  have many : Decimal.digitCount near ≤ 18 := (Decimal.digitCount_le_iff (by decide)).mpr few
  have rounded : nearestTo false near (zeros : Nat) = ofRank false r := by
    have units : near * 10 ^ zeros * oneUnits = near * 10 ^ zeros * oneUnits * 1 :=
      (Nat.mul_one _).symm
    have rounds := ofRatio_congr false units Nat.one_pos oneUnits_pos
    have close := close.scale oneUnits
    rw [← same] at close
    rw [ofRatio_units, nearestRank_near (large_of_whole same positive) close] at rounds
    exact rounds
  rw [digitLimit] at scale
  rw [ofDecimal_eq false (Nat.pos_iff_ne_zero.mp some_), rounded]
  · rw [decimalFloor]
    omega
  · rw [decimalCeiling]
    omega

end Whole

/-- No candidate for a whole number has a point as long as it has at most as many digits. -/
theorem gridTexts_whole {count : Nat} (positive : 0 < whole)
    (few : count ≤ Decimal.digitCount whole)
    (listed : text ∈ gridTexts (whole * oneUnits) oneUnits count) : ∃ digits zeros : Nat,
      text = Decimal.positional digits zeros := by
  obtain ⟨⟨d, e⟩, inside, rfl⟩ := List.mem_map.mp listed
  obtain ⟨n, fewer, cell⟩ := List.mem_flatMap.mp inside
  have few : n + 1 ≤ Decimal.digitCount whole := by
    have := List.mem_range.mp fewer
    omega
  obtain ⟨near, far, zeros, -, both, -, -⟩ := neighbours_whole oneUnits_pos positive few
  have exponent : e = (zeros : Nat) := by
    rw [both] at cell
    simp only [List.mem_cons, Prod.mk.injEq, List.not_mem_nil, or_false] at cell
    omega
  obtain ⟨d', k, written, -⟩ := gridText_eq d e
  exact ⟨d', zeros + k, by rw [written, exponent, Int.natCast_add]⟩

theorem gridTexts_reads (finite : r < infinityRank) (same : (magnitude r).1 = whole * oneUnits)
    (positive : 0 < whole) :
    ∃ text ∈ gridTexts (whole * oneUnits) oneUnits (min (Decimal.digitCount whole) digitLimit),
      readsAs r text = true := by
  generalize scale : min (Decimal.digitCount whole) digitLimit = count
  have some_ : 0 < count := by
    rw [← scale]
    exact Nat.lt_min.mpr ⟨Decimal.digitCount_pos whole, by decide⟩
  have few : count ≤ Decimal.digitCount whole := scale ▸ Nat.min_le_left _ _
  obtain ⟨near, far, zeros, cell, both, above, below⟩ :=
    neighbours_whole oneUnits_pos positive few
  obtain ⟨d, k, written, value⟩ := gridText_eq near (zeros : Nat)
  have last : count - 1 + 1 = count := Nat.sub_add_cancel some_
  refine ⟨gridText (near, (zeros : Nat)), ?_, ?_⟩
  · refine List.mem_map_of_mem (List.mem_flatMap.mpr ⟨count - 1, ?_, ?_⟩)
    · exact List.mem_range.mpr (by omega)
    · rw [last, both]
      exact List.mem_cons_self
  · rw [written, readsAs_positional, value]
    exact near_reads finite same positive (scale ▸ cell) above below

/-- For a whole number the text that is chosen has no point. -/
theorem shortest_whole (finite : r < infinityRank) (same : (magnitude r).1 = whole * oneUnits)
    (positive : 0 < whole) : ∃ digits zeros : Nat,
      shortest r = Decimal.positional digits zeros ∧
        ofDecimal ⟨false, digits, zeros⟩ = ofRank false r := by
  have reads := gridTexts_reads finite same positive
  obtain ⟨text, found⟩ := Option.isSome_iff_exists.mp (List.find?_isSome.mpr reads)
  have chosen : shortest r = text := by
    have first := find?_candidates (Nat.min_le_right _ _) found
    simp only [shortest, same, magnitude_snd, first, Option.getD_some]
  obtain ⟨digits, zeros, rfl⟩ :=
    gridTexts_whole positive (Nat.min_le_left _ _) (List.mem_of_find?_eq_some found)
  exact ⟨digits, zeros, chosen, (readsAs_positional _ _ _).mp (List.find?_some found)⟩

/-- The sign of a number in front of its magnitude. -/
def signText (negative : Bool) : List Char := if negative then ['-'] else []

theorem toText_infinite (negative : Bool) {r : Fin (infinityRank + 1)}
    (infinite : r.val = infinityRank) :
    (number negative r).toText ++ (if (number negative r).isWhole then ['.', '0'] else []) =
      signText negative ++ "inf".toList := by
  have text : (number negative r).toText = signText negative ++ "inf".toList := by
    simp only [toText, if_pos infinite]
    rfl
  have fraction : (number negative r).fraction? = none := if_pos infinite
  have point : (number negative r).isWhole = false := by simp only [isWhole, fraction]
  rw [text, point, if_neg Bool.false_ne_true, List.append_nil]

/-- What is written of a finite number, with a point and a zero behind a whole one, is a numeral
behind a sign. -/
theorem toText_numeral (negative : Bool) {r : Fin (infinityRank + 1)}
    (finite : r.val ≠ infinityRank) :
    ∃ text, (number negative r).toText ++
        (if (number negative r).isWhole then ['.', '0'] else []) = signText negative ++ text ∧
      Numeral r text := by
  have below : r.val < infinityRank := by omega
  have fraction : (number negative r).fraction? = some (negative, magnitude r.val) := if_neg finite
  have wholly : (number negative r).isWhole = true ↔ (magnitude r.val).1 % oneUnits = 0 := by
    simp only [isWhole, fraction, magnitude_snd, beq_iff_eq]
  by_cases zero : r.val = 0
  · have text : (number negative r).toText = signText negative ++ ['0'] := by
      simp only [toText, if_neg finite, if_pos zero]
      rfl
    have whole : (number negative r).isWhole = true := by
      rw [wholly, zero]
      decide +kernel
    have reads : ofDecimal ⟨false, 0, (0 : Nat)⟩ = ofRank false r.val := by
      rw [zero]
      rfl
    rw [text, if_pos whole, List.append_assoc]
    exact ⟨_, rfl, (Numeral.positional reads).withPoint fun _ => Decimal.digit_of_mem_whole⟩
  · have text : (number negative r).toText = signText negative ++ shortest r.val := by
      simp only [toText, if_neg finite, if_neg zero]
      rfl
    rw [text]
    by_cases whole : (number negative r).isWhole = true
    · obtain ⟨n, same⟩ := Nat.dvd_of_mod_eq_zero (wholly.mp whole)
      rw [Nat.mul_comm] at same
      have some_ : 0 < n := by
        by_contra none
        rw [Nat.eq_zero_of_not_pos none, Nat.zero_mul] at same
        exact Nat.ne_of_gt (magnitude_pos (Nat.pos_of_ne_zero zero)) same
      obtain ⟨digits, zeros, written, reads⟩ := shortest_whole below same some_
      rw [if_pos whole, List.append_assoc, written]
      exact ⟨_, rfl, (Numeral.positional reads).withPoint fun _ => Decimal.digit_of_mem_whole⟩
    · rw [if_neg whole, List.append_nil]
      obtain ⟨digits, exponent, written, reads⟩ := shortest_reads (Nat.pos_of_ne_zero zero) below
      exact ⟨_, rfl, written ▸ .positional reads⟩

end Parley.Binary64
