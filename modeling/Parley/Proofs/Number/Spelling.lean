import Mathlib.Data.List.Induction
import Mathlib.Data.Nat.Digits.Defs
import Parley.Proofs.Number.Nearest

/-! Which texts spell which numbers. A number is spelled by an optional sign, decimal digits with at
most one point among or around them, and an optional exponent, or by one of the names of the values
that have no digits; what is read is the number nearest to what is spelled. -/
namespace Parley

namespace Spelling

def tenDigits : List Char := "0123456789".toList

/-- Decimal digits, worth a number by their places. -/
structure Digits (ds : List Char) (n : Nat) : Prop where
  each : ∀ c ∈ ds, c ∈ tenDigits
  worth : n = Nat.ofDigits 10 (ds.reverse.map fun c => tenDigits.idxOf c)

/-- A sign, if there is one, and whether it is a minus. -/
inductive Sign : Bool → List Char → Prop
  | absent : Sign false []
  | plus : Sign false ['+']
  | minus : Sign true ['-']

/-- A whole number in decimal digits. -/
inductive Whole : Int → List Char → Prop
  | intro (sign : Sign negative s) (filled : ds ≠ []) (digits : Digits ds n) :
    Whole (if negative then -n else n) (s ++ ds)

/-- An exponent, if there is one. -/
inductive Exponent : Int → List Char → Prop
  | absent : Exponent 0 []
  | present (marked : e = 'e' ∨ e = 'E') (whole : Whole i text) : Exponent i (e :: text)

/-- Digits, and how many of them stand behind a point. -/
inductive Mantissa : Nat → Nat → List Char → Prop
  | whole (filled : ds ≠ []) (digits : Digits ds n) : Mantissa n 0 ds
  | point (filled : ws ++ fs ≠ []) (digits : Digits (ws ++ fs) n) :
    Mantissa n fs.length (ws ++ '.' :: fs)

/-- The values that have no digits, by their names in letters of any case. -/
inductive Name : Bool → Binary64 → List Char → Prop
  | infinity (name : letters.map Char.toLower = "inf".toList ∨
      letters.map Char.toLower = "infinity".toList) :
    Name negative (.ofRank negative Binary64.infinityRank) letters
  | nan (name : letters.map Char.toLower = "nan".toList) : Name negative .nan letters

/-- A number of 64 bits. -/
inductive Float : Binary64 → List Char → Prop
  | numeral (sign : Sign negative s) (mantissa : Mantissa n places m) (exponent : Exponent i e)
      (rounds : Binary64.Rounds negative (n * 10 ^ (i - places)) x) : Float x (s ++ m ++ e)
  | name (sign : Sign negative s) (name : Name negative x letters) : Float x (s ++ letters)

theorem digit_of_code : ∀ n < 128, (Char.ofNat n).isDigit = true → Char.ofNat n ∈ tenDigits := by
  decide

theorem isDigit_iff {c : Char} : c.isDigit = true ↔ c ∈ tenDigits := by
  constructor
  · intro digit
    have code : c.toNat < 128 := by
      simp only [Char.isDigit, Bool.and_eq_true, decide_eq_true_eq] at digit
      have := UInt32.le_iff_toNat_le.mp digit.2
      exact Nat.lt_of_le_of_lt this (by decide)
    have listed := digit_of_code c.toNat code
    rw [Char.ofNat_toNat] at listed
    exact listed digit
  · have each : tenDigits.all Char.isDigit = true := rfl
    exact List.all_eq_true.mp each c

theorem digit_value {c : Char} (listed : c ∈ tenDigits) :
    c.toNat - '0'.toNat = tenDigits.idxOf c := by
  have each : tenDigits.all (fun c => c.toNat - '0'.toNat = tenDigits.idxOf c) = true := rfl
  exact of_decide_eq_true (List.all_eq_true.mp each c listed)

theorem all_isDigit_iff {ds : List Char} : ds.all Char.isDigit = true ↔ ∀ c ∈ ds, c ∈ tenDigits := by
  simp only [List.all_eq_true, isDigit_iff]

theorem value_eq {ds : List Char} (each : ∀ c ∈ ds, c ∈ tenDigits) :
    Decimal.value ds = Nat.ofDigits 10 (ds.reverse.map fun c => tenDigits.idxOf c) := by
  induction ds using List.reverseRec with
  | nil => rfl
  | append_singleton ds c ih =>
    have last := digit_value (each c (by simp))
    have rest := ih fun d listed => each d (List.mem_append_left _ listed)
    have step : Decimal.value (ds ++ [c]) = 10 * Decimal.value ds + (c.toNat - '0'.toNat) := by
      simp [Decimal.value]
    rw [step, rest, last, List.reverse_concat, List.map_cons, Nat.ofDigits_cons]
    simp [Nat.add_comm]

theorem digits_iff {ds : List Char} :
    Digits ds n ↔ ds.all Char.isDigit = true ∧ n = Decimal.value ds := by
  rw [all_isDigit_iff]
  constructor
  · intro digits
    exact ⟨digits.each, digits.worth.trans (value_eq digits.each).symm⟩
  · rintro ⟨each, worth⟩
    exact ⟨each, worth.trans (value_eq each)⟩

/-- A text that begins with no sign of its own. -/
def Unsigned (text : List Char) : Prop := ∀ c ∈ text.head?, c ≠ '-' ∧ c ≠ '+'

theorem splitSign_of_sign (sign : Sign negative s) (unsigned : Unsigned text) :
    Decimal.splitSign (s ++ text) = (negative, text) := by
  cases sign with
  | plus => rfl
  | minus => rfl
  | absent =>
    unfold Decimal.splitSign
    split
    case h_1 same =>
      rw [List.nil_append] at same
      exact absurd rfl (unsigned '-' (by simp [same])).1
    case h_2 same =>
      rw [List.nil_append] at same
      exact absurd rfl (unsigned '+' (by simp [same])).2
    case h_3 => rfl

theorem sign_of_splitSign (split : Decimal.splitSign text = (negative, body)) :
    ∃ s, Sign negative s ∧ text = s ++ body := by
  unfold Decimal.splitSign at split
  split at split
  case h_1 =>
    cases split
    exact ⟨_, .minus, rfl⟩
  case h_2 =>
    cases split
    exact ⟨_, .plus, rfl⟩
  case h_3 =>
    cases split
    exact ⟨_, .absent, rfl⟩

/-- A text that begins as a number does: with a digit or a point. -/
def Begins (text : List Char) : Prop := ∃ c tail, text = c :: tail ∧ c ∈ '.' :: tenDigits

theorem begins_of_digits {ds : List Char} (each : ∀ c ∈ ds, c ∈ tenDigits) (filled : ds ≠ [])
    (rest : List Char) : Begins (ds ++ rest) := by
  obtain ⟨c, cs, rfl⟩ := List.exists_cons_of_ne_nil filled
  exact ⟨c, cs ++ rest, rfl, List.mem_cons_of_mem _ (each c List.mem_cons_self)⟩

theorem front_apart {c : Char} (listed : c ∈ '.' :: tenDigits) :
    (c ≠ '-' ∧ c ≠ '+') ∧ c.toLower ≠ 'i' ∧ c.toLower ≠ 'n' := by
  have each : ('.' :: tenDigits).all (fun c =>
      (c ≠ '-' ∧ c ≠ '+') ∧ c.toLower ≠ 'i' ∧ c.toLower ≠ 'n') = true := rfl
  exact of_decide_eq_true (List.all_eq_true.mp each c listed)

theorem Begins.unsigned (begins : Begins text) : Unsigned text := by
  obtain ⟨c, tail, rfl, listed⟩ := begins
  rintro d ⟨⟩
  exact (front_apart listed).1

/-- How whole numbers are read. -/
theorem whole_iff {i : Int} {text : List Char} :
    Whole i text ↔ ∃ negative ds, Decimal.splitSign text = (negative, ds) ∧ ds ≠ [] ∧
      ds.all Char.isDigit = true ∧
      i = if negative then -(Decimal.value ds : Int) else Decimal.value ds := by
  constructor
  · rintro ⟨sign, filled, digits⟩
    obtain ⟨each, rfl⟩ := digits_iff.mp digits
    have begins := begins_of_digits digits.each filled []
    rw [List.append_nil] at begins
    exact ⟨_, _, splitSign_of_sign sign begins.unsigned, filled, each, rfl⟩
  · rintro ⟨negative, ds, split, filled, each, rfl⟩
    obtain ⟨s, sign, rfl⟩ := sign_of_splitSign split
    exact .intro sign filled (digits_iff.mpr ⟨each, rfl⟩)

theorem readExponent?_iff {i : Int} {text : List Char} :
    Decimal.readExponent? text = some i ↔ Exponent i text := by
  constructor
  · intro read
    unfold Decimal.readExponent? at read
    split at read
    case h_1 =>
      cases read
      exact .absent
    case h_2 e rest =>
      split at read
      case isFalse => cases read
      case isTrue marked =>
        obtain ⟨negative, ds, split⟩ : ∃ negative ds, Decimal.splitSign rest = (negative, ds) :=
          ⟨_, _, rfl⟩
        simp only [split] at read
        split at read
        case isTrue => cases read
        case isFalse fit =>
          obtain ⟨filled, each⟩ := not_or.mp fit
          refine .present marked (whole_iff.mpr ⟨negative, ds, split, ?_, ?_, ?_⟩)
          · simpa using filled
          · simpa using each
          · exact (Option.some.inj read).symm
  · intro exponent
    cases exponent with
    | absent => rfl
    | present marked whole =>
      obtain ⟨negative, ds, split, filled, each, rfl⟩ := whole_iff.mp whole
      simp [Decimal.readExponent?, marked, split, filled, each]

/-- What stands behind a mantissa is no part of it. -/
theorem Exponent.ends (exponent : Exponent i text) :
    text.head?.any Char.isDigit = false ∧ ∀ rest, text ≠ '.' :: rest := by
  cases exponent with
  | absent => exact ⟨rfl, nofun⟩
  | present marked =>
    rcases marked with rfl | rfl
    · exact ⟨rfl, nofun⟩
    · exact ⟨rfl, nofun⟩

theorem Mantissa.begins (mantissa : Mantissa n places m) (rest : List Char) :
    Begins (m ++ rest) := by
  cases mantissa with
  | whole filled digits => exact begins_of_digits digits.each filled rest
  | @point ws fs _ filled digits =>
    cases ws with
    | nil => exact ⟨'.', fs ++ rest, rfl, List.mem_cons_self⟩
    | cons d ws =>
      rw [List.append_assoc]
      exact begins_of_digits (fun c listed => digits.each c (List.mem_append_left _ listed))
        (List.cons_ne_nil d ws) _

/-- What a decimal is spelled by. -/
inductive Numeral : Decimal → List Char → Prop
  | intro (sign : Sign negative s) (mantissa : Mantissa n places m) (exponent : Exponent i e) :
    Numeral ⟨negative, n, i - places⟩ (s ++ m ++ e)

theorem read?_of_numeral (numeral : Numeral d text) : Decimal.read? text = some d := by
  obtain @⟨negative, s, n, places, m, i, e, sign, mantissa, exponent⟩ := numeral
  obtain ⟨ends, plain⟩ := exponent.ends
  have read := readExponent?_iff.mpr exponent
  have split : Decimal.splitSign (s ++ m ++ e) = (negative, m ++ e) := by
    rw [List.append_assoc]
    exact splitSign_of_sign sign (mantissa.begins e).unsigned
  unfold Decimal.read?
  simp only [split]
  cases mantissa with
  | @whole _ ds filled digits =>
    obtain ⟨each, rfl⟩ := digits_iff.mp digits
    have inside := List.all_eq_true.mp each
    simp only [takeWhile_run inside ends, dropWhile_run inside ends]
    simp [filled, read]
  | @point ws fs _ filled digits =>
    obtain ⟨each, rfl⟩ := digits_iff.mp digits
    have inside := List.all_eq_true.mp each
    have before : ∀ c ∈ ws, c.isDigit = true := fun c listed =>
      inside c (List.mem_append_left _ listed)
    have behind : ∀ c ∈ fs, c.isDigit = true := fun c listed =>
      inside c (List.mem_append_right _ listed)
    have point : ('.' :: (fs ++ e)).head?.any Char.isDigit = false := rfl
    rw [List.append_assoc, List.cons_append]
    simp only [takeWhile_run before point, dropWhile_run before point, takeWhile_run behind ends,
      dropWhile_run behind ends]
    have some_digit : ¬(ws.isEmpty ∧ fs.isEmpty) := by simpa using filled
    rw [if_neg some_digit, read]
    rfl

/-- Where digits and an exponent are read, they are a numeral. -/
theorem numeral_of_parts (sign : Sign negative s)
    (mantissa : ws ++ fs ≠ [] → Mantissa (Decimal.value (ws ++ fs)) fs.length m)
    (read : (if ws.isEmpty ∧ fs.isEmpty then none
      else (Decimal.readExponent? e).map fun i =>
        (⟨negative, Decimal.value (ws ++ fs), i - fs.length⟩ : Decimal)) = some d) :
    Numeral d (s ++ (m ++ e)) := by
  split at read
  case isTrue => cases read
  case isFalse filled =>
    obtain ⟨i, exponent, rfl⟩ := Option.map_eq_some_iff.mp read
    have some_digit : ws ++ fs ≠ [] := by simpa using filled
    rw [← List.append_assoc]
    exact .intro sign (mantissa some_digit) (readExponent?_iff.mp exponent)

theorem numeral_of_read? (read : Decimal.read? text = some d) : Numeral d text := by
  obtain ⟨negative, body, split⟩ : ∃ negative body, Decimal.splitSign text = (negative, body) :=
    ⟨_, _, rfl⟩
  obtain ⟨s, sign, rfl⟩ := sign_of_splitSign split
  unfold Decimal.read? at read
  simp only [split] at read
  have whole := List.takeWhile_append_dropWhile (p := Char.isDigit) (l := body)
  have each := List.all_takeWhile (p := Char.isDigit) (l := body)
  generalize body.takeWhile Char.isDigit = ws at *
  generalize body.dropWhile Char.isDigit = rest at *
  subst whole
  by_cases point : ∃ tail, rest = '.' :: tail
  · obtain ⟨tail, rfl⟩ := point
    have fraction := List.takeWhile_append_dropWhile (p := Char.isDigit) (l := tail)
    have each' := List.all_takeWhile (p := Char.isDigit) (l := tail)
    simp only at read
    generalize tail.takeWhile Char.isDigit = fs at *
    generalize tail.dropWhile Char.isDigit = e at *
    subst fraction
    have digits : (ws ++ fs).all Char.isDigit = true := by
      rw [List.all_append, each, each']
      rfl
    have numeral := numeral_of_parts (m := ws ++ '.' :: fs) sign
      (fun filled => .point filled (digits_iff.mpr ⟨digits, rfl⟩)) read
    rw [List.append_assoc] at numeral
    exact numeral
  · have plain := not_exists.mp point
    simp only at read
    refine numeral_of_parts sign (fun filled => ?_) read
    rw [List.append_nil] at filled ⊢
    exact .whole filled (digits_iff.mpr ⟨each, rfl⟩)

theorem Name.front (name : Name negative x letters) :
    ∃ c tail, letters = c :: tail ∧ (c.toLower = 'i' ∨ c.toLower = 'n') := by
  have first {k : Char} {ks : List Char} (same : letters.map Char.toLower = k :: ks) :
      ∃ c tail, letters = c :: tail ∧ c.toLower = k := by
    obtain ⟨c, cs, rfl, lower, -⟩ := List.map_eq_cons_iff.mp same
    exact ⟨c, cs, rfl, lower⟩
  cases name with
  | infinity name =>
    rcases name with short | long
    · obtain ⟨c, tail, same, lower⟩ := first short
      exact ⟨c, tail, same, .inl lower⟩
    · obtain ⟨c, tail, same, lower⟩ := first long
      exact ⟨c, tail, same, .inl lower⟩
  | nan name =>
    obtain ⟨c, tail, same, lower⟩ := first name
    exact ⟨c, tail, same, .inr lower⟩

theorem Name.unsigned (name : Name negative x letters) : Unsigned letters := by
  obtain ⟨c, tail, rfl, lower⟩ := name.front
  rintro d ⟨⟩
  constructor
  · rintro rfl
    revert lower
    decide
  · rintro rfl
    revert lower
    decide

theorem chars_eq {letters : List Char} (same : String.ofList letters = word) :
    letters = word.toList := same ▸ String.toList_ofList.symm

theorem readName?_iff {x : Binary64} {text : List Char} :
    Binary64.readName? text = some x ↔
      ∃ s letters negative, Sign negative s ∧ Name negative x letters ∧ text = s ++ letters := by
  constructor
  · intro read
    obtain ⟨negative, letters, split⟩ :
        ∃ negative letters, Decimal.splitSign text = (negative, letters) := ⟨_, _, rfl⟩
    obtain ⟨s, sign, rfl⟩ := sign_of_splitSign split
    have named : Name negative x letters := by
      unfold Binary64.readName? at read
      simp only [split] at read
      split at read
      case h_1 same =>
        cases read
        exact .infinity (.inl (chars_eq same))
      case h_2 same =>
        cases read
        exact .infinity (.inr (chars_eq same))
      case h_3 same =>
        cases read
        exact .nan (chars_eq same)
      case h_4 => cases read
    exact ⟨s, letters, negative, sign, named, rfl⟩
  · rintro ⟨s, letters, negative, sign, name, rfl⟩
    have split := splitSign_of_sign sign name.unsigned
    unfold Binary64.readName?
    simp only [split]
    cases name with
    | infinity name =>
      rcases name with short | long
      · rw [short]
        rfl
      · rw [long]
        rfl
    | nan name =>
      rw [name]
      rfl

theorem readName?_numeral (numeral : Numeral d text) : Binary64.readName? text = none := by
  rw [Option.eq_none_iff_forall_ne_some]
  intro x read
  obtain ⟨s, letters, negative, sign, name, same⟩ := readName?_iff.mp read
  obtain @⟨_, s', _, _, m, _, e, sign', mantissa, -⟩ := numeral
  rw [List.append_assoc] at same
  have split := splitSign_of_sign sign' (mantissa.begins e).unsigned
  rw [same, splitSign_of_sign sign name.unsigned] at split
  obtain ⟨c, tail, rfl, lower⟩ := name.front
  obtain ⟨c', tail', front, listed⟩ := mantissa.begins e
  -- Behind the sign, one character would begin both a number and a name.
  rw [front] at split
  cases split
  obtain ⟨i, n⟩ := (front_apart listed).2
  exact lower.elim i n

/-- How numbers of 64 bits are read. -/
theorem read?_iff {x : Binary64} {text : List Char} :
    Binary64.read? text = some x ↔ Float x text := by
  constructor
  · intro read
    unfold Binary64.read? at read
    split at read
    case h_1 named =>
      cases read
      obtain ⟨s, letters, negative, sign, name, rfl⟩ := readName?_iff.mp named
      exact .name sign name
    case h_2 =>
      obtain ⟨d, numeral, rfl⟩ := Option.map_eq_some_iff.mp read
      obtain ⟨sign, mantissa, exponent⟩ := numeral_of_read? numeral
      exact .numeral sign mantissa exponent (Binary64.rounds_ofDecimal ⟨_, _, _⟩)
  · intro spelled
    cases spelled with
    | numeral sign mantissa exponent rounds =>
      have numeral := Numeral.intro sign mantissa exponent
      have same := rounds.unique (Binary64.rounds_ofDecimal ⟨_, _, _⟩)
      simp only [Binary64.read?, readName?_numeral numeral, read?_of_numeral numeral, same,
        Option.map_some]
    | name sign name =>
      simp only [Binary64.read?, readName?_iff.mpr ⟨_, _, _, sign, name, rfl⟩]

end Spelling
end Parley
