import Parley.Document.Codec
import Parley.Proofs.Number.Shortest

/-! What is written of a lexeme is read as that lexeme, and what stands behind it is left. -/
namespace Parley

namespace Ron

theorem ok_bind (a : α) (next : α → Except Fault β) : (Except.ok a >>= next) = next a := rfl

/-- What may stand behind a value: nothing, a comma or a closing bracket. -/
def Ends (rest : List Char) : Prop := ∀ c ∈ rest.head?, c = ',' ∨ c = ')'

variable {rest : List Char}

theorem Ends.comma : Ends (',' :: rest) := by
  rintro c ⟨⟩
  exact .inl rfl

theorem Ends.closing : Ends (')' :: rest) := by
  rintro c ⟨⟩
  exact .inr rfl

theorem Ends.nothing : Ends [] := nofun

/-- No run of characters without comma and bracket goes on into what stands behind a value. -/
theorem Ends.any_head? (ends : Ends rest) {p : Char → Bool} (comma : p ',' = false)
    (closing : p ')' = false) : rest.head?.any p = false := by
  cases rest with
  | nil => rfl
  | cons c rest =>
    rcases ends c rfl with rfl | rfl
    · exact comma
    · exact closing

section Blanks

/-- A character at which blanks and comments end. -/
def Solid (c : Char) : Prop := isSpace c = false ∧ c ≠ '/'

theorem skip_cons (notSlash : c ≠ '/') (rest : List Char) :
    skip (c :: rest) = if isSpace c then skip rest else .ok (c :: rest) := by
  unfold skip
  rw [skipFrom]
  all_goals simp [notSlash]

theorem skip_solid (solid : Solid c) (rest : List Char) : skip (c :: rest) = .ok (c :: rest) := by
  simp [skip_cons solid.2, solid.1]

theorem skip_space (space : isSpace c = true) (rest : List Char) :
    skip (c :: rest) = skip rest := by
  have notSlash : c ≠ '/' := by
    rintro rfl
    cases space
  rw [skip_cons notSlash, if_pos space]

theorem skip_newline (depth : Nat) (rest : List Char) :
    skip (Codec.newline depth ++ rest) = skip rest := by
  have spaces (n : Nat) : skip (List.replicate n ' ' ++ rest) = skip rest := by
    induction n with
    | zero => rfl
    | succ n ih =>
      rw [List.replicate_succ, List.cons_append, skip_space rfl, ih]
  rw [Codec.newline, List.cons_append, skip_space rfl, spaces]

end Blanks

theorem afterWord?_self (ends : rest.head?.any inName = false) (word : String) :
    afterWord? word (word.toList ++ rest) = some rest := by
  have drop : (word.toList ++ rest).drop word.length = rest := by
    rw [← String.length_toList, List.drop_left]
  have front : word.toList.isPrefixOf (word.toList ++ rest) = true :=
    List.isPrefixOf_iff_prefix.mpr (List.prefix_append _ _)
  simp only [afterWord?, drop, front, ends]
  simp

theorem bool_reads (b : Bool) (ends : Ends rest) :
    bool ((if b then "true" else "false").toList ++ rest) = .ok (b, rest) := by
  have word := afterWord?_self (ends.any_head? rfl rfl)
  cases b with
  | true => simp only [bool, if_pos, word]
  | false =>
    have other : afterWord? "true" ("false".toList ++ rest) = none := rfl
    simp only [bool, Bool.false_eq_true, if_false, other, word]

section Numbers

theorem mem_pair {a b c : α} (listed : c ∈ [a, b]) : c = a ∨ c = b := by
  simpa using listed

theorem hexValue?_digit (digit : c.isDigit = true) :
    Text.hexValue? c = some (c.toNat - '0'.toNat) := by
  have range : '0' ≤ c ∧ c ≤ '9' := by
    simpa [Char.isDigit, Char.le_def] using digit
  exact if_pos range

theorem digit_lt {c : Char} (digit : c.isDigit = true) : c.toNat - '0'.toNat < 10 := by
  have range : '0' ≤ c ∧ c ≤ '9' := by
    simpa [Char.isDigit, Char.le_def] using digit
  have last : c.toNat ≤ 57 := range.2
  have first : '0'.toNat = 48 := rfl
  omega

theorem digitsValue?_eq {ds : List Char} (digits : ∀ c ∈ ds, c.isDigit = true) :
    digitsValue? 10 ds = some (Decimal.value ds) := by
  have run (n : Nat) : ds.foldlM (fun n c => do
      let d ← Text.hexValue? c
      if d < 10 then some (10 * n + d) else none) n = some (Nat.ofDigitChars 10 ds n) := by
    induction ds generalizing n with
    | nil => rfl
    | cons c ds ih =>
      have digit := digits c List.mem_cons_self
      rw [List.foldlM_cons, hexValue?_digit digit, Nat.ofDigitChars_cons]
      simp only [Option.bind_eq_bind, Option.bind_some, if_pos (digit_lt digit)]
      exact ih (fun c listed => digits c (List.mem_cons_of_mem _ listed)) _
  exact run 0

theorem base_of_second {s : List Char}
    (second : ∀ c ∈ s.tail.head?, c ≠ 'x' ∧ c ≠ 'b' ∧ c ≠ 'o') : base s = (10, s) := by
  unfold base
  split
  · exact absurd rfl (second _ rfl).1
  · exact absurd rfl (second _ rfl).2.1
  · exact absurd rfl (second _ rfl).2.2
  · rfl

theorem natural_reads (n : Nat) (ends : Ends rest) :
    natural (Nat.toDigits 10 n ++ rest) = .ok (n, rest) := by
  generalize text : Nat.toDigits 10 n = ds
  have digits : ∀ c ∈ ds, c.isDigit = true := text ▸ fun _ => Decimal.digit_of_mem_toDigits
  have value : Decimal.value ds = n := text ▸ Decimal.value_toDigits n
  obtain ⟨d, tail, rfl⟩ := List.exists_cons_of_ne_nil (text ▸ Nat.toDigits_ne_nil : ds ≠ [])
  have second : base (d :: tail ++ rest) = (10, d :: tail ++ rest) := by
    apply base_of_second
    intro c head
    cases tail with
    | nil => rcases ends c head with rfl | rfl <;> decide
    | cons e tail =>
      cases head
      have digit := digits c (List.mem_cons_of_mem _ List.mem_cons_self)
      refine ⟨?_, ?_, ?_⟩
      all_goals
        rintro rfl
        cases digit
  have inside : ∀ c ∈ d :: tail, ((Text.hexValue? c).isSome || c = '_') = true := by
    intro c listed
    simp [hexValue?_digit (digits c listed)]
  have taken := takeWhile_run inside (ends.any_head? rfl rfl)
  have left := dropWhile_run inside (ends.any_head? rfl rfl)
  have plain : ∀ c ∈ d :: tail, c ≠ '_' := by
    rintro c listed rfl
    cases digits _ listed
  have kept : (d :: tail).filter (· ≠ '_') = d :: tail := by
    simpa [List.filter_eq_self] using plain
  simp only [natural, second, taken, left, kept, digitsValue?_eq digits, value]
  split
  case h_1 none => cases none
  case h_2 bar =>
    cases bar
    exact absurd rfl (plain '_' List.mem_cons_self)
  case h_3 => rfl

theorem signedWord?_toInt (i : Int64) : signedWord? i.toInt = some i := by
  have half : ((wordValues / 2 : Nat) : Int) = 2 ^ 63 := by decide
  simp only [signedWord?, half]
  rw [if_pos ⟨i.le_toInt, i.toInt_lt⟩, Int64.ofInt_toInt]

theorem splitSign_toDigits (n : Nat) (rest : List Char) :
    Decimal.splitSign (Nat.toDigits 10 n ++ rest) = (false, Nat.toDigits 10 n ++ rest) := by
  obtain ⟨d, tail, digits⟩ := List.exists_cons_of_ne_nil (Nat.toDigits_ne_nil (b := 10) (n := n))
  have digit : d.isDigit = true := Decimal.digit_of_mem_toDigits (digits ▸ List.mem_cons_self)
  rw [digits, List.cons_append, Decimal.splitSign_of_digit digit]

theorem signed_eq {s body : List Char} (sign : Decimal.splitSign s = (negative, body))
    (read : natural body = .ok (n, rest))
    (word : signedWord? (if negative then -(n : Int) else n) = some i) :
    signed s = .ok (i, rest) := by
  unfold signed
  split
  case h_1 same =>
    cases sign.symm.trans same
    rw [read, ok_bind]
    split
    case h_1 pair =>
      cases pair
      rw [word]
      rfl

theorem int_text (i : Int) : ∃ negative n, i = (if negative then -(n : Int) else n) ∧
    (toString i).toList = Binary64.signText negative ++ Nat.toDigits 10 n := by
  cases i with
  | ofNat n =>
    refine ⟨false, n, rfl, ?_⟩
    simp [Int.toString_eq_repr, Int.repr, Nat.repr_eq_ofList_toDigits, Binary64.signText]
  | negSucc n =>
    refine ⟨true, n + 1, rfl, ?_⟩
    simp [Int.toString_eq_repr, Int.repr, Nat.repr_eq_ofList_toDigits, Binary64.signText]

theorem signed_reads (i : Int64) (ends : Ends rest) :
    signed ((toString i.toInt).toList ++ rest) = .ok (i, rest) := by
  obtain ⟨negative, n, value, text⟩ := int_text i.toInt
  have word := signedWord?_toInt i
  rw [value] at word
  rw [text, List.append_assoc]
  cases negative with
  | false => exact signed_eq (splitSign_toDigits n rest) (natural_reads n ends) word
  | true => exact signed_eq rfl (natural_reads n ends) word

theorem afterWord?_other {word : String} {s : List Char}
    (other : word.toList.isPrefixOf s = false) : afterWord? word s = none := by
  simp [afterWord?, other]

theorem read?_minus {text : List Char} (unsigned : Decimal.splitSign text = (false, text)) :
    Decimal.read? ('-' :: text) =
      (Decimal.read? text).map fun d => { d with negative := true } := by
  have sign : Decimal.splitSign ('-' :: text) = (true, text) := rfl
  simp only [Decimal.read?, unsigned, sign]
  split
  all_goals
    split
    · rfl
    · rw [Option.map_map]
      rfl

theorem read?_signText {text : List Char}
    (reads : Decimal.read? text = some ⟨false, digits, exponent⟩)
    (unsigned : Decimal.splitSign text = (false, text)) (negative : Bool) :
    Decimal.read? (Binary64.signText negative ++ text) = some ⟨negative, digits, exponent⟩ := by
  cases negative with
  | false => exact reads
  | true =>
    show Decimal.read? ('-' :: text) = _
    rw [read?_minus unsigned, reads]
    rfl

/-- No number that is written with digits starts like one that is written by name. -/
theorem not_named (digit : c.isDigit = true) (negative : Bool) (t : List Char) :
    ∀ name ∈ namedFloats.map Prod.fst,
      afterWord? name (Binary64.signText negative ++ c :: t) = none := by
  have front {k : Char} (odd : k.isDigit = false) (ks : List Char) :
      (k :: ks).isPrefixOf (c :: t) = false := by
    have other : (k == c) = false := by
      rw [beq_eq_false_iff_ne]
      rintro rfl
      cases odd.symm.trans digit
    simp only [List.isPrefixOf, other, Bool.false_and]
  intro name listed
  apply afterWord?_other
  simp only [namedFloats, List.map_cons, List.map_nil, List.mem_cons, List.not_mem_nil,
    or_false] at listed
  cases negative with
  | false => rcases listed with rfl | rfl | rfl | rfl | rfl | rfl <;> exact front rfl _
  | true =>
    rcases listed with rfl | rfl | rfl | rfl | rfl | rfl
    · rfl
    · rfl
    · exact front (k := 'i') rfl ['n', 'f']
    · rfl
    · rfl
    · exact front (k := 'N') rfl ['a', 'N']

/-- What starts with no name is read by its digits. -/
theorem float_unnamed (other : ∀ name ∈ namedFloats.map Prod.fst, afterWord? name s = none)
    (reads : Decimal.read? (s.takeWhile inFloat) = some d) :
    float s = .ok (.ofDecimal d, s.dropWhile inFloat) := by
  unfold float
  split
  case h_1 found named =>
    obtain ⟨⟨name, x⟩, listed, named⟩ := List.exists_of_findSome?_eq_some named
    simp [other name (List.mem_map_of_mem (f := Prod.fst) listed)] at named
  case h_2 => simp only [reads]

theorem float_numeral (numeral : Binary64.Numeral r text) (ends : Ends rest) (negative : Bool) :
    float (Binary64.signText negative ++ text ++ rest) = .ok (.ofRank negative r, rest) := by
  obtain ⟨⟨c, tail, rfl, digit⟩, plain, digits, exponent, reads, value⟩ := numeral
  have inside : ∀ d ∈ Binary64.signText negative ++ c :: tail, inFloat d = true := by
    intro d listed
    rcases List.mem_append.mp listed with sign | body
    · cases negative with
      | false => cases sign
      | true =>
        cases List.mem_singleton.mp sign
        rfl
    · rcases plain d body with digit | rfl
      · simp [inFloat, digit]
      · rfl
  have taken := takeWhile_run inside (ends.any_head? rfl rfl)
  have left := dropWhile_run inside (ends.any_head? rfl rfl)
  have unnamed := not_named digit negative (tail ++ rest)
  rw [← List.cons_append, ← List.append_assoc] at unnamed
  have unsigned := Decimal.splitSign_of_digit digit tail
  have read := read?_signText reads unsigned negative
  rw [← taken] at read
  rw [float_unnamed unnamed read, left, Binary64.ofDecimal_negative value negative]

theorem float_word (word : String) (x : Binary64) (ends : Ends rest)
    (first : ∃ earlier later, namedFloats = earlier ++ (word, x) :: later ∧
      ∀ name ∈ earlier.map Prod.fst, name.toList.isPrefixOf (word.toList ++ rest) = false) :
    float (word.toList ++ rest) = .ok (x, rest) := by
  obtain ⟨earlier, later, split, other⟩ := first
  have found := afterWord?_self (ends.any_head? rfl rfl) word
  unfold float
  rw [split, List.findSome?_append, List.findSome?_eq_none_iff.mpr]
  · simp only [List.findSome?_cons, found, Option.map_some, Option.none_or]
  · rintro ⟨name, x⟩ listed
    simp [afterWord?_other (other name (List.mem_map_of_mem (f := Prod.fst) listed))]

/-- Every number is read as it was written. -/
theorem float_reads (x : Binary64) (ends : Ends rest) :
    float (x.toText ++ (if x.isWhole then ['.', '0'] else []) ++ rest) = .ok (x, rest) := by
  cases x with
  | nan =>
    refine float_word "NaN" .nan ends ⟨namedFloats.take 3, _, rfl, ?_⟩
    intro name listed
    rcases List.mem_cons.mp listed with rfl | listed
    · rfl
    · rcases mem_pair listed with rfl | rfl <;> rfl
  | number negative r =>
    have same : Binary64.ofRank negative r.val = .number negative r := by
      have least : min r.val Binary64.infinityRank = r.val :=
        Nat.min_eq_left (Nat.le_of_lt_succ r.isLt)
      simp only [Binary64.ofRank, least]
    by_cases infinite : r.val = Binary64.infinityRank
    · rw [Binary64.toText_infinite negative infinite, ← same, infinite]
      cases negative with
      | false =>
        refine float_word "inf" .infinity ends ⟨[], _, rfl, ?_⟩
        intro name listed
        cases listed
      | true =>
        refine float_word "-inf" _ ends ⟨namedFloats.take 2, _, rfl, ?_⟩
        intro name listed
        rcases mem_pair listed with rfl | rfl <;> rfl
    · obtain ⟨text, written, numeral⟩ := Binary64.toText_numeral negative infinite
      rw [written, float_numeral numeral ends, same]

end Numbers

section Strings

variable {tail : List Char}

theorem stringBody_digit {d count : Nat} (hex : d < 16) (few : count < 6) (value : Nat) :
    stringBody (some (value, count)) (d.digitChar :: tail) =
      stringBody (some (16 * value + d, count + 1)) tail := by
  have digits : ∀ d < 16, d.digitChar ≠ '}' ∧ Text.hexValue? d.digitChar = some d := by decide
  obtain ⟨open_, read⟩ := digits d hex
  rw [stringBody]
  simp only [if_neg open_, if_pos few, read]

theorem stringBody_digits (n : Nat) (few : (Nat.toDigits 16 n).length ≤ 6) (tail : List Char) :
    stringBody (some (0, 0)) (Nat.toDigits 16 n ++ tail) =
      stringBody (some (n, (Nat.toDigits 16 n).length)) tail := by
  induction n using Nat.strongRecOn generalizing tail with
  | _ n ih =>
    by_cases single : n < 16
    · rw [Nat.toDigits_of_lt_base single, List.singleton_append, stringBody_digit single (by decide)]
      simp
    · have split := Nat.toDigits_of_base_le (b := 16) (by decide) (Nat.not_lt.mp single)
      rw [split, List.length_append, List.length_singleton] at few
      have whole : 16 * (n / 16) + n % 16 = n := Nat.div_add_mod n 16
      rw [split, List.append_assoc, ih (n / 16) (by omega) (by omega), List.singleton_append,
        stringBody_digit (Nat.mod_lt n (by decide)) (by omega), whole]
      simp

theorem scalar?_toNat (c : Char) : scalar? c.toNat = some c := by
  have valid : c.toNat < 0xd800 ∨ 0xdfff < c.toNat ∧ c.toNat < 0x110000 := c.valid
  rw [scalar?, if_pos valid, Char.ofNat_toNat]

theorem stringBody_codePoint (c : Char) :
    stringBody none (Text.codePoint c ++ tail) = consTo c (stringBody none tail) := by
  have few : (Nat.toDigits 16 c.toNat).length ≤ 6 := by
    apply (Nat.length_toDigits_le_iff (by decide) (by decide)).mpr
    have valid : c.toNat < 0xd800 ∨ 0xdfff < c.toNat ∧ c.toNat < 0x110000 := c.valid
    omega
  have some_ : (Nat.toDigits 16 c.toNat).length ≠ 0 := Nat.ne_of_gt Nat.length_toDigits_pos
  have opened (digits : List Char) :
      stringBody none ('\\' :: 'u' :: '{' :: digits) = stringBody (some (0, 0)) digits := by
    rw [stringBody]
    rfl
  have closed : stringBody (some (c.toNat, (Nat.toDigits 16 c.toNat).length)) ('}' :: tail) =
      consTo c (stringBody none tail) := by
    rw [stringBody]
    simp only [if_pos, if_neg some_, scalar?_toNat]
  simp only [Text.codePoint, List.append_assoc, List.cons_append, List.nil_append]
  rw [opened, stringBody_digits _ few, closed]

theorem stringBody_escape (escape : unescape? e = some c) :
    stringBody none ('\\' :: e :: tail) = consTo c (stringBody none tail) := by
  rw [stringBody.eq_def]
  dsimp only
  rw [if_neg (by decide), if_pos rfl]
  split
  case h_1 same | h_2 same =>
    cases same
    cases escape
  case h_3 same =>
    cases same
    rw [escape]
  case h_4 none => cases none

theorem unescape?_of_name (named : Text.escapeName? c = some name) : unescape? name = some c := by
  unfold Text.escapeName? at named
  split at named
  case h_7 => cases named
  all_goals
    cases named
    rfl

theorem stringBody_self (quote : c ≠ '"') (backslash : c ≠ '\\') :
    stringBody none (c :: tail) = consTo c (stringBody none tail) := by
  rw [stringBody.eq_def]
  simp [quote, backslash]

/-- One written character is read as itself. -/
theorem stringBody_char (c : Char) :
    stringBody none (Text.literalChar c ++ tail) = consTo c (stringBody none tail) := by
  unfold Text.literalChar
  split
  case isTrue apostrophe =>
    rw [apostrophe]
    exact stringBody_escape rfl
  case isFalse =>
    unfold Text.quoteChar
    split
    case h_1 name named => exact stringBody_escape (unescape?_of_name named)
    case h_2 unnamed =>
      split
      case isTrue => exact stringBody_codePoint c
      case isFalse =>
        apply stringBody_self
        · rintro rfl
          cases unnamed
        · rintro rfl
          cases unnamed

theorem string_reads (s : String) (rest : List Char) :
    string (Text.literal s.toList ++ rest) = .ok (s, rest) := by
  have body (text : List Char) :
      stringBody none (text.flatMap Text.literalChar ++ '"' :: rest) = .ok (text, rest) := by
    induction text with
    | nil =>
      rw [List.flatMap_nil, List.nil_append, stringBody.eq_def]
      rfl
    | cons c text ih =>
      rw [List.flatMap_cons, List.append_assoc, stringBody_char, ih]
      rfl
  have text : Text.literal s.toList ++ rest =
      '"' :: (s.toList.flatMap Text.literalChar ++ '"' :: rest) := by
    simp [Text.literal]
  rw [text]
  unfold string
  simp only [body, ok_bind, String.ofList_toList]
  rfl

end Strings

/-- Names that are read as they stand. -/
def IsName (name : String) : Prop :=
  name.toList.head?.any (fun c => startsName c && c != 'r') = true ∧
    name.toList.tail.all inName = true

instance : DecidablePred IsName := fun _ => instDecidableAnd

theorem IsName.text {name : String} (plain : IsName name) :
    ∃ c cs, name.toList = c :: cs ∧ startsName c = true ∧ c ≠ 'r' ∧ ∀ c ∈ cs, inName c = true := by
  obtain ⟨first, inside⟩ := plain
  cases text : name.toList with
  | nil =>
    rw [text] at first
    cases first
  | cons c cs =>
    rw [text] at first inside
    have both : startsName c = true ∧ c ≠ 'r' := by simpa using first
    exact ⟨c, cs, rfl, both.1, both.2, List.all_eq_true.mp inside⟩

theorem identifier_reads {name : String} (plain : IsName name)
    (ends : rest.head?.any inRawName = false) :
    identifier (name.toList ++ rest) = .ok (name, rest) := by
  obtain ⟨c, cs, text, starts, notRaw, inside⟩ := plain.text
  have stops : rest.head?.any inName = false := by
    cases rest with
    | nil => rfl
    | cons d rest =>
      have outside : (inName d || d = '.' || d = '+' || d = '-') = false := ends
      simp only [Bool.or_eq_false_iff] at outside
      exact outside.1.1.1
  have taken := takeWhile_run inside stops
  have left := dropWhile_run inside stops
  have whole : String.ofList (c :: cs) = name := by rw [← text, String.ofList_toList]
  rw [text, List.cons_append]
  unfold identifier
  split
  case h_1 same | h_2 same | h_3 same => exact absurd (List.cons.inj same).1 notRaw
  case h_4 same =>
    obtain ⟨rfl, rfl⟩ := List.cons.inj same
    simp [taken, left, starts, ends, whole]
  case h_5 none => cases none

end Ron
end Parley
