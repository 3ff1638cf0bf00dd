import Mathlib.Data.List.TakeWhile
import Parley.Number.Decimal
import Parley.Proofs.Number.Rounding

/-! Decimal text and what it is read as. Positional text stands for its digits and exponent, and a
decimal is rounded by its value alone, however its zeros are split between the two. -/
namespace Parley

section Run

variable {p : Char → Bool} {run rest : List Char}

theorem takeWhile_run (inside : ∀ c ∈ run, p c = true)
    (ends : rest.head?.any p = false) : (run ++ rest).takeWhile p = run := by
  rw [List.takeWhile_append_of_pos inside]
  cases rest with
  | nil => simp
  | cons c rest =>
    have outside : p c = false := ends
    simp [outside]

theorem dropWhile_run (inside : ∀ c ∈ run, p c = true)
    (ends : rest.head?.any p = false) : (run ++ rest).dropWhile p = rest := by
  rw [List.dropWhile_append_of_pos inside]
  cases rest with
  | nil => rfl
  | cons c rest =>
    have outside : p c = false := ends
    simp [outside]

end Run

namespace Decimal

theorem value_toDigits (n : Nat) : value (Nat.toDigits 10 n) = n := Nat.ofDigitChars_ten_toDigits

theorem value_append (xs ys : List Char) :
    value (xs ++ ys) = 10 ^ ys.length * value xs + value ys := by
  have split : value (xs ++ ys) = Nat.ofDigitChars 10 ys (value xs) :=
    Nat.ofDigitChars_append 0
  rw [split, Nat.ofDigitChars_eq_ofDigitChars_zero]
  rfl

theorem value_zeros (n : Nat) : value (List.replicate n '0') = 0 := by
  have zeros : value (List.replicate n '0') = 10 ^ n * 0 := Nat.ofDigitChars_replicate_zero
  rw [zeros, Nat.mul_zero]

theorem digit_of_mem_toDigits (listed : c ∈ Nat.toDigits 10 n) : c.isDigit = true :=
  Nat.isDigit_of_mem_toDigits (by decide) (by decide) listed

theorem digitCount_pos (n : Nat) : 0 < digitCount n := Nat.length_toDigits_pos

theorem digitCount_le_iff (positive : 0 < k) : digitCount n ≤ k ↔ n < 10 ^ k :=
  Nat.length_toDigits_le_iff (by decide) positive

theorem lt_pow_digitCount (n : Nat) : n < 10 ^ digitCount n :=
  (digitCount_le_iff (digitCount_pos n)).mp (Nat.le_refl _)

theorem le_digitCount (large : 10 ^ k ≤ n) : k < digitCount n := by
  by_contra few
  have enough : digitCount n ≤ k := Nat.not_lt.mp few
  have positive : 0 < k := Nat.lt_of_lt_of_le (digitCount_pos n) enough
  exact absurd ((digitCount_le_iff positive).mp enough) (Nat.not_lt.mpr large)

theorem pow_le_of_digitCount (positive : 0 < n) : 10 ^ (digitCount n - 1) ≤ n := by
  by_contra small
  have below : n < 10 ^ (digitCount n - 1) := Nat.not_le.mp small
  by_cases one : digitCount n = 1
  · rw [one] at below
    omega
  · have := digitCount_pos n
    have := (digitCount_le_iff (show 0 < digitCount n - 1 by omega)).mpr below
    omega

theorem digitCount_ten_mul (positive : 0 < n) : digitCount (10 * n) = digitCount n + 1 := by
  have digits : Nat.toDigits 10 (10 * n) = Nat.toDigits 10 n ++ Nat.toDigits 10 0 := by
    rw [Nat.toDigits_append_toDigits (by decide) positive (by decide)]
    rfl
  rw [digitCount, digits, List.length_append]
  rfl

theorem splitSign_of_digit (digit : c.isDigit = true) (rest : List Char) :
    splitSign (c :: rest) = (false, c :: rest) := by
  unfold splitSign
  split
  case h_1 same => cases same; cases digit
  case h_2 same => cases same; cases digit
  case h_3 => rfl

theorem read?_digits {ds : List Char} (digits : ∀ c ∈ ds, c.isDigit = true) (some_ : ds ≠ []) :
    read? ds = some ⟨false, value ds, 0⟩ := by
  obtain ⟨c, rest, rfl⟩ := List.exists_cons_of_ne_nil some_
  have unsigned := splitSign_of_digit (digits c List.mem_cons_self) rest
  have taken := List.takeWhile_eq_self_iff.mpr digits
  have left := List.dropWhile_eq_nil_iff.mpr digits
  simp [read?, unsigned, taken, left, readExponent?]

theorem read?_point {ws fs : List Char} (whole : ∀ c ∈ ws, c.isDigit = true) (some_ : ws ≠ [])
    (fraction : ∀ c ∈ fs, c.isDigit = true) :
    read? (ws ++ '.' :: fs) = some ⟨false, value (ws ++ fs), -fs.length⟩ := by
  obtain ⟨c, rest, rfl⟩ := List.exists_cons_of_ne_nil some_
  have unsigned := splitSign_of_digit (whole c List.mem_cons_self) (rest ++ '.' :: fs)
  have taken : (c :: rest ++ '.' :: fs).takeWhile Char.isDigit = c :: rest :=
    takeWhile_run whole rfl
  have left : (c :: rest ++ '.' :: fs).dropWhile Char.isDigit = '.' :: fs :=
    dropWhile_run whole rfl
  have taken' := List.takeWhile_eq_self_iff.mpr fraction
  have left' := List.dropWhile_eq_nil_iff.mpr fraction
  simp only [List.cons_append] at unsigned taken left ⊢
  simp [read?, unsigned, taken, left, taken', left', readExponent?]

/-- The parts of a positional text: digits, and behind a point as many as the exponent says. -/
theorem positional_cases (digits : Nat) (exponent : Int) :
    (∃ zeros : Nat, exponent = zeros ∧
      positional digits exponent = Nat.toDigits 10 digits ++ List.replicate zeros '0') ∨
    ∃ ws fs, positional digits exponent = ws ++ '.' :: fs ∧ ws ≠ [] ∧
      (∀ c ∈ ws ++ fs, c.isDigit = true) ∧ value (ws ++ fs) = digits ∧
      exponent = -(fs.length : Int) := by
  cases exponent with
  | ofNat zeros => exact .inl ⟨zeros, rfl, rfl⟩
  | negSucc n =>
    right
    generalize text : Nat.toDigits 10 digits = ds
    have digit : ∀ c ∈ ds, c.isDigit = true := text ▸ fun _ => digit_of_mem_toDigits
    have read : value ds = digits := text ▸ value_toDigits digits
    by_cases inside : n + 1 < ds.length
    · refine ⟨ds.take (ds.length - (n + 1)), ds.drop (ds.length - (n + 1)), ?_, ?_, ?_, ?_, ?_⟩
      · simp only [positional, text, if_pos inside]
      · rw [← List.length_pos_iff, List.length_take]
        omega
      · rwa [List.take_append_drop]
      · rwa [List.take_append_drop]
      · rw [List.length_drop]
        omega
    · have zeros : ['0'] ++ (List.replicate (n + 1 - ds.length) '0' ++ ds) =
          List.replicate (n + 1 - ds.length + 1) '0' ++ ds := rfl
      refine ⟨['0'], List.replicate (n + 1 - ds.length) '0' ++ ds, ?_, by simp, ?_, ?_, ?_⟩
      · simp only [positional, text, if_neg inside]
        rfl
      · rw [zeros]
        intro c listed
        rcases List.mem_append.mp listed with zero | listed
        · rw [List.eq_of_mem_replicate zero]
          rfl
        · exact digit c listed
      · rw [zeros, value_append, value_zeros, read, Nat.mul_zero, Nat.zero_add]
      · rw [List.length_append, List.length_replicate]
        omega

theorem digit_of_mem_whole {digits zeros : Nat} (listed : c ∈ positional digits (zeros : Nat)) :
    c.isDigit = true := by
  have text : positional digits (zeros : Nat) =
      Nat.toDigits 10 digits ++ List.replicate zeros '0' := rfl
  rw [text] at listed
  rcases List.mem_append.mp listed with digit | zero
  · exact digit_of_mem_toDigits digit
  · rw [List.eq_of_mem_replicate zero]
    rfl

/-- Positional text stands for its digits; zeros behind them belong to it. -/
theorem read?_positional (digits : Nat) (exponent : Int) :
    read? (positional digits exponent) =
      some ⟨false, digits * 10 ^ exponent.toNat, min exponent 0⟩ := by
  rcases positional_cases digits exponent with ⟨zeros, rfl, text⟩ |
    ⟨ws, fs, text, some_, all, value, places⟩
  · rw [read?_digits fun _ => digit_of_mem_whole, text]
    · simp [value_append, value_toDigits, value_zeros, Nat.mul_comm]
    · rw [text]
      exact List.append_ne_nil_of_left_ne_nil Nat.toDigits_ne_nil _
  · rw [text, read?_point (fun c listed => all c (List.mem_append_left _ listed)) some_
      (fun c listed => all c (List.mem_append_right _ listed)), value]
    simp [places]

/-- Zeros that are moved into the exponent. -/
theorem stripZeros_spec (fuel digits : Nat) (exponent : Int) : ∃ d k,
    stripZeros fuel digits exponent = (d, exponent + (k : Nat)) ∧ digits = d * 10 ^ k := by
  induction fuel generalizing digits exponent with
  | zero => exact ⟨digits, 0, by simp [stripZeros], by simp⟩
  | succ fuel ih =>
    unfold stripZeros
    split
    case isTrue strips =>
      obtain ⟨d, k, stripped, value⟩ := ih (digits / 10) (exponent + 1)
      refine ⟨d, k + 1, ?_, ?_⟩
      · rw [stripped]
        simp [Int.add_assoc, Int.add_comm 1]
      · rw [Nat.pow_succ, ← Nat.mul_assoc, ← value]
        omega
    case isFalse => exact ⟨digits, 0, by simp, by simp⟩

end Decimal

namespace Binary64

/-- The number nearest to a decimal whose size is in reach. -/
def nearestTo (negative : Bool) (digits : Nat) : Int → Binary64
  | .ofNat e => ofRatio negative (digits * Nat.pow 10 e) 1
  | .negSucc e => ofRatio negative digits (Nat.pow 10 (e + 1))

theorem ofDecimal_eq (negative : Bool) {digits : Nat} {exponent : Int} (some_ : digits ≠ 0)
    (least : decimalFloor ≤ Decimal.digitCount digits + exponent)
    (most : Decimal.digitCount digits + exponent ≤ decimalCeiling) :
    ofDecimal ⟨negative, digits, exponent⟩ = nearestTo negative digits exponent := by
  simp only [ofDecimal, some_, false_or, if_neg (Int.not_lt.mpr least), if_neg (Int.not_lt.mpr most)]
  cases exponent with
  | ofNat e => rfl
  | negSucc e => rfl

theorem nearestTo_ten_mul (negative : Bool) (digits : Nat) (exponent : Int) :
    nearestTo negative (10 * digits) exponent = nearestTo negative digits (exponent + 1) := by
  match exponent with
  | .ofNat e =>
    show ofRatio negative (10 * digits * 10 ^ e) 1 = ofRatio negative (digits * 10 ^ (e + 1)) 1
    rw [Nat.pow_succ', ← Nat.mul_assoc, Nat.mul_comm 10]
  | .negSucc 0 =>
    have same : 10 * digits * 1 = digits * Nat.pow 10 0 * Nat.pow 10 1 := by
      show 10 * digits * 1 = digits * 1 * 10
      omega
    exact ofRatio_congr negative same (by decide) (by decide)
  | .negSucc (e + 1) =>
    show ofRatio negative (10 * digits) (10 ^ (e + 2)) = ofRatio negative digits (10 ^ (e + 1))
    rw [Nat.pow_succ, Nat.mul_comm 10]
    exact ofRatio_scale negative digits (10 ^ (e + 1)) (by decide)

/-- A zero is worth as much among the digits as in the exponent. -/
theorem ofDecimal_ten_mul (negative : Bool) (digits : Nat) (exponent : Int) :
    ofDecimal ⟨negative, 10 * digits, exponent⟩ = ofDecimal ⟨negative, digits, exponent + 1⟩ := by
  by_cases zero : digits = 0
  · simp [zero, ofDecimal]
  · have top : ((Decimal.digitCount (10 * digits) : Nat) : Int) + exponent =
        Decimal.digitCount digits + (exponent + 1) := by
      rw [Decimal.digitCount_ten_mul (Nat.pos_of_ne_zero zero)]
      omega
    have ten : 10 * digits ≠ 0 := by omega
    by_cases least : decimalFloor ≤ Decimal.digitCount digits + (exponent + 1)
    · by_cases most : Decimal.digitCount digits + (exponent + 1) ≤ decimalCeiling
      · rw [ofDecimal_eq negative zero least most, ofDecimal_eq negative ten (top ▸ least)
          (top ▸ most), nearestTo_ten_mul]
      · simp only [ofDecimal, zero, ten, top, false_or, if_neg (Int.not_lt.mpr least),
          if_pos (Int.not_le.mp most)]
    · simp only [ofDecimal, top, if_pos (Or.inr (Int.not_le.mp least))]

theorem ofDecimal_mul_pow (negative : Bool) (digits k : Nat) (exponent : Int) :
    ofDecimal ⟨negative, digits * 10 ^ k, exponent⟩ =
      ofDecimal ⟨negative, digits, exponent + k⟩ := by
  induction k generalizing exponent with
  | zero => simp
  | succ k ih =>
    rw [Nat.pow_succ', Nat.mul_left_comm, ofDecimal_ten_mul, ih]
    simp [Int.add_assoc, Int.add_comm 1]

theorem nearestTo_sign (digits : Nat) (exponent : Int) :
    ∃ r, ∀ negative, nearestTo negative digits exponent = ofRank negative r := by
  cases exponent with
  | ofNat e => exact ⟨_, fun _ => rfl⟩
  | negSucc e => exact ⟨_, fun _ => rfl⟩

/-- The sign of a decimal is carried over, whatever its size. -/
theorem ofDecimal_sign (digits : Nat) (exponent : Int) : ∃ r, ∀ negative,
    ofDecimal ⟨negative, digits, exponent⟩ = ofRank negative r := by
  by_cases zero : digits = 0
  · exact ⟨0, fun _ => if_pos (.inl zero)⟩
  · by_cases least : decimalFloor ≤ Decimal.digitCount digits + exponent
    · by_cases most : Decimal.digitCount digits + exponent ≤ decimalCeiling
      · obtain ⟨r, signed⟩ := nearestTo_sign digits exponent
        exact ⟨r, fun negative => (ofDecimal_eq negative zero least most).trans (signed negative)⟩
      · refine ⟨infinityRank, fun negative => ?_⟩
        simp only [ofDecimal, zero, false_or, if_neg (Int.not_lt.mpr least),
          if_pos (Int.not_le.mp most)]
    · exact ⟨0, fun _ => if_pos (.inr (Int.not_le.mp least))⟩

theorem ofDecimal_negative {digits r : Nat} {exponent : Int}
    (same : ofDecimal ⟨false, digits, exponent⟩ = ofRank false r) (negative : Bool) :
    ofDecimal ⟨negative, digits, exponent⟩ = ofRank negative r := by
  obtain ⟨r', signed⟩ := ofDecimal_sign digits exponent
  rw [signed] at same ⊢
  have equal : min r' infinityRank = min r infinityRank := by
    simpa [ofRank] using same
  simp only [ofRank, equal]

theorem ofDecimal_positional (negative : Bool) (digits : Nat) (exponent : Int) :
    ofDecimal ⟨negative, digits * 10 ^ exponent.toNat, min exponent 0⟩ =
      ofDecimal ⟨negative, digits, exponent⟩ := by
  have whole : min exponent 0 + (exponent.toNat : Int) = exponent := by omega
  rw [ofDecimal_mul_pow, whole]

/-- Positional text is read as a rank if its digits and exponent are. -/
theorem readsAs_positional (r digits : Nat) (exponent : Int) :
    readsAs r (Decimal.positional digits exponent) = true ↔
      ofDecimal ⟨false, digits, exponent⟩ = ofRank false r := by
  simp [readsAs, Decimal.read?_positional, ofDecimal_positional]

/-- Text without a sign that is read as the number of a rank. -/
structure Numeral (r : Nat) (text : List Char) : Prop where
  starts : ∃ c rest, text = c :: rest ∧ c.isDigit = true
  plain : ∀ c ∈ text, c.isDigit = true ∨ c = '.'
  reads : ∃ digits exponent, Decimal.read? text = some ⟨false, digits, exponent⟩ ∧
    ofDecimal ⟨false, digits, exponent⟩ = ofRank false r

namespace Numeral

theorem positional {digits : Nat} {exponent : Int}
    (reads : ofDecimal ⟨false, digits, exponent⟩ = ofRank false r) :
    Numeral r (Decimal.positional digits exponent) := by
  have value := (ofDecimal_positional false digits exponent).trans reads
  have starts {ws : List Char} (rest : List Char) (some_ : ws ≠ [])
      (digit : ∀ c ∈ ws, c.isDigit = true) : ∃ c tail, ws ++ rest = c :: tail ∧ c.isDigit = true := by
    obtain ⟨c, tail, rfl⟩ := List.exists_cons_of_ne_nil some_
    exact ⟨c, tail ++ rest, rfl, digit c List.mem_cons_self⟩
  refine ⟨?_, ?_, _, _, Decimal.read?_positional digits exponent, value⟩
  · rcases Decimal.positional_cases digits exponent with ⟨zeros, rfl, text⟩ |
      ⟨ws, fs, text, some_, digit, -, -⟩
    · rw [text]
      exact starts _ Nat.toDigits_ne_nil fun _ => Decimal.digit_of_mem_toDigits
    · rw [text]
      exact starts _ some_ fun c listed => digit c (List.mem_append_left _ listed)
  · intro c listed
    rcases Decimal.positional_cases digits exponent with ⟨zeros, rfl, text⟩ |
      ⟨ws, fs, text, -, digit, -, -⟩
    · exact .inl (Decimal.digit_of_mem_whole listed)
    · rw [text] at listed
      rcases List.mem_append.mp listed with whole | fraction
      · exact .inl (digit c (List.mem_append_left _ whole))
      · rcases List.mem_cons.mp fraction with rfl | fraction
        · exact .inr rfl
        · exact .inl (digit c (List.mem_append_right _ fraction))

/-- A point and a zero behind a whole number change nothing. -/
theorem withPoint (numeral : Numeral r text) (digits : ∀ c ∈ text, c.isDigit = true) :
    Numeral r (text ++ ['.', '0']) := by
  obtain ⟨⟨c, rest, starts, first⟩, plain, digits', exponent, read, value⟩ := numeral
  have some_ : text ≠ [] := by
    rw [starts]
    exact List.cons_ne_nil _ _
  rw [Decimal.read?_digits digits some_] at read
  cases read
  have zero : ∀ c ∈ ['0'], c.isDigit = true := List.forall_mem_singleton.mpr rfl
  have pointed := Decimal.read?_point digits some_ zero
  have shifted : Decimal.value (text ++ ['0']) = 10 * Decimal.value text :=
    Decimal.value_append text ['0']
  refine ⟨⟨c, rest ++ ['.', '0'], by rw [starts, List.cons_append], first⟩, ?_, _, _, pointed, ?_⟩
  · intro c listed
    rcases List.mem_append.mp listed with digit | point
    · exact .inl (digits c digit)
    · have either : ∀ c ∈ ['.', '0'], c.isDigit = true ∨ c = '.' :=
        List.forall_mem_cons.mpr ⟨.inr rfl, List.forall_mem_singleton.mpr (.inl rfl)⟩
      exact either c point
  · rw [shifted, ofDecimal_ten_mul]
    exact value

end Numeral
end Binary64
end Parley
