import Mathlib.Data.Nat.Digits.Defs
import Parley.Proofs.Document.Codec
import Parley.Proofs.Slice

/-! Which texts are colors, and which colors they are. A reader that goes by bytes, and cuts out the
digits of a channel without looking for characters, never cuts one in two and finds the same. -/
namespace Parley

namespace Text

def hexDigits : List Char := "0123456789abcdefABCDEF".toList

/-- The place of a digit among those in lower case. -/
def digitValue (c : Char) : Nat := "0123456789abcdef".toList.idxOf c.toLower

/-- What is tried on each digit holds of the digits. Only they are run through here, not all
characters there are. -/
theorem hexDigits_forall {P : Char → Prop} [DecidablePred P]
    (all : hexDigits.all fun c => decide (P c)) : ∀ c ∈ hexDigits, P c := by
  intro c digit
  exact of_decide_eq_true (List.all_eq_true.mp all c digit)

theorem hexDigit_read : ∀ c ∈ hexDigits, hexValue? c = some (digitValue c) ∧ digitValue c < 16 ∧
    upperHex (digitValue c) = c.toUpper :=
  hexDigits_forall (by decide)

/-- What holds of the first codes holds of the characters that have them. -/
theorem ascii_forall {P : Char → Prop} (all : ∀ n < 128, P (Char.ofNat n)) {c : Char}
    (ascii : c.toNat < 128) : P c := by
  rw [← Char.ofNat_toNat c]
  exact all c.toNat ascii

theorem mem_hexDigits_iff {c : Char} : c ∈ hexDigits ↔ ∃ n, hexValue? c = some n := by
  constructor
  · intro digit
    exact ⟨_, (hexDigit_read c digit).1⟩
  · rintro ⟨n, read⟩
    have ascii : c.toNat < 128 := by
      have bound {last : Char} (within : c ≤ last) : c.toNat ≤ last.toNat := within
      unfold hexValue? at read
      split at read
      case isTrue decimal => exact Nat.lt_of_le_of_lt (bound decimal.2) (by decide)
      case isFalse =>
        split at read
        case isTrue lower => exact Nat.lt_of_le_of_lt (bound lower.2) (by decide)
        case isFalse =>
          split at read
          case isTrue upper => exact Nat.lt_of_le_of_lt (bound upper.2) (by decide)
          case isFalse => cases read
    have listed : (hexValue? c).isSome → c ∈ hexDigits :=
      ascii_forall (P := fun c => (hexValue? c).isSome → c ∈ hexDigits) (by decide) ascii
    exact listed (Option.isSome_of_eq_some read)

theorem mapM_hexValue?_of_digits {text : List Char} (digits : ∀ c ∈ text, c ∈ hexDigits) :
    text.mapM hexValue? = some (text.map digitValue) := by
  induction text with
  | nil => rfl
  | cons c rest ih =>
    obtain ⟨first, others⟩ := List.forall_mem_cons.mp digits
    rw [List.mapM_cons, (hexDigit_read c first).1, ih others]
    rfl

theorem digits_of_mapM_hexValue? {text : List Char} (read : text.mapM hexValue? = some values) :
    ∀ c ∈ text, c ∈ hexDigits := by
  induction text generalizing values with
  | nil => exact nofun
  | cons c rest ih =>
    rw [List.mapM_cons] at read
    obtain ⟨n, first, read⟩ := Option.bind_eq_some_iff.mp read
    obtain ⟨others, later, -⟩ := Option.bind_eq_some_iff.mp read
    exact List.forall_mem_cons.mpr ⟨mem_hexDigits_iff.mpr ⟨n, first⟩, ih later⟩

/-- Whether a byte is the code of a digit. -/
def isHexByte (b : UInt8) : Bool :=
  48 ≤ b && b ≤ 57 || 65 ≤ b && b ≤ 70 || 97 ≤ b && b ≤ 102

theorem lt_of_isHexByte (code : isHexByte b = true) : b.toNat < 128 := by
  simp only [isHexByte, Bool.or_eq_true, Bool.and_eq_true, decide_eq_true_eq,
    UInt8.le_iff_toNat_le] at code
  have most : (57 : UInt8).toNat ≤ 102 ∧ (70 : UInt8).toNat ≤ 102 ∧ (102 : UInt8).toNat ≤ 102 := by
    decide
  omega

/-- Every byte of a character outside of ASCII lies above all codes of digits. -/
theorem ascii_of_isHexByte {c : Char} (codes : (String.utf8EncodeChar c).all isHexByte) :
    c.toNat < 128 := by
  have tagged (n : Nat) (rest : List UInt8) (above : 128 ≤ n) (byte : n < 256) :
      ¬(UInt8.ofNat n :: rest).all isHexByte = true := by
    intro all
    have code := lt_of_isHexByte (List.all_eq_true.mp all _ List.mem_cons_self)
    rw [UInt8.toNat_ofNat', Nat.mod_eq_of_lt byte] at code
    omega
  by_contra wide
  have long : ¬c.val.toNat ≤ 127 := fun short => wide (Nat.lt_succ_of_le short)
  rw [String.utf8EncodeChar.eq_1, if_neg long] at codes
  split at codes
  · exact tagged _ _ (by omega) (by omega) codes
  · split at codes
    · exact tagged _ _ (by omega) (by omega) codes
    · exact tagged _ _ (by omega) (by omega) codes

/-- A character is a digit if all its bytes look like digits: no other character has such bytes. -/
theorem all_isHexByte_iff {c : Char} :
    (String.utf8EncodeChar c).all isHexByte ↔ c ∈ hexDigits := by
  constructor
  · intro codes
    exact ascii_forall (P := fun c => (String.utf8EncodeChar c).all isHexByte → c ∈ hexDigits)
      (by decide) (ascii_of_isHexByte codes) codes
  · have each : ∀ c ∈ hexDigits, (String.utf8EncodeChar c).all isHexByte :=
      hexDigits_forall (by decide)
    exact each c

theorem utf8Len_digits {text : List Char} (digits : ∀ c ∈ text, c ∈ hexDigits) :
    String.utf8Len text = text.length := by
  have single : ∀ c ∈ hexDigits, c.utf8Size = 1 := hexDigits_forall (by decide)
  induction text with
  | nil => rfl
  | cons c rest ih =>
    obtain ⟨first, others⟩ := List.forall_mem_cons.mp digits
    rw [String.utf8Len_cons, List.length_cons, ih others, single c first]

theorem slice?_digits (before middle after : List Char)
    (digits : ∀ c ∈ before ++ middle, c ∈ hexDigits) :
    slice? (String.ofList (before ++ middle ++ after)) before.length
      (before.length + middle.length) = some (String.ofList middle) := by
  have front := utf8Len_digits fun c listed => digits c (List.mem_append_left _ listed)
  have part := utf8Len_digits fun c listed => digits c (List.mem_append_right _ listed)
  rw [← front, ← part, slice?_append]

/-- A number of one byte. A plus may stand in front of its digits. -/
def readByte? (text : String) : Option UInt8 :=
  let digits := match text.toList with
    | '+' :: c :: rest => c :: rest
    | all => all
  match digits.mapM hexValue? with
  | none | some [] => none
  | some values =>
    let n := values.foldl (fun n d => 16 * n + d) 0
    if n < 256 then some (UInt8.ofNat n) else none

/-- The value of two digits. -/
def pairValue (high low : Char) : Nat := Nat.ofDigits 16 [digitValue low, digitValue high]

theorem pairValue_eq (high low : Char) :
    pairValue high low = 16 * digitValue high + digitValue low := by
  rw [pairValue, Nat.ofDigits_cons, Nat.ofDigits_singleton]
  omega

theorem pairValue_lt (first : high ∈ hexDigits) (second : low ∈ hexDigits) :
    pairValue high low < 256 := by
  have := (hexDigit_read high first).2.1
  have := (hexDigit_read low second).2.1
  rw [pairValue_eq]
  omega

/-- Of two digits neither is a sign. -/
theorem readByte?_pair (first : high ∈ hexDigits) (second : low ∈ hexDigits) :
    readByte? (String.ofList [high, low]) = some (UInt8.ofNat (pairValue high low)) := by
  have unsigned : '+' ∉ hexDigits := by decide
  have other : high ≠ '+' := fun same => unsigned (same ▸ first)
  have small := pairValue_lt first second
  rw [pairValue_eq] at small ⊢
  simp [readByte?, other, (hexDigit_read high first).1, (hexDigit_read low second).1, small]

end Text

namespace Color

open Text

/-- A text without a number sign in front. -/
def unsigned : List Char → List Char
  | '#' :: rest => rest
  | all => all

/-- Read a color by bytes. Nothing comes of a text in which a character is cut in two. -/
def slicedParse? (text : String) : Option (Except ColorFault Color) :=
  let digits := String.ofList (unsigned text.toList)
  if digits.utf8ByteSize ≠ 6 ∨ ¬digits.toByteArray.data.toList.all isHexByte then
    some (.error ⟨text⟩)
  else do
    let red ← slice? digits 0 2
    let green ← slice? digits 2 4
    let blue ← slice? digits 4 6
    some <| match readByte? red, readByte? green, readByte? blue with
      | some red, some green, some blue => .ok ⟨red, green, blue⟩
      | _, _, _ => .error ⟨text⟩

/-- A text is six hexadecimal digits with at most one number sign in front. -/
structure Spells (text : String) (digits : List Char) : Prop where
  sign : text.toList = digits ∨ text.toList = '#' :: digits
  six : digits.length = 6
  hex : ∀ c ∈ digits, c ∈ hexDigits

theorem Spells.unsigned (spells : Spells text digits) : Color.unsigned text.toList = digits := by
  have sign : '#' ∉ hexDigits := by decide
  rcases spells.sign with bare | signed
  · rw [bare]
    unfold Color.unsigned
    split
    case h_1 rest => exact absurd (spells.hex _ List.mem_cons_self) sign
    case h_2 => rfl
  · rw [signed, Color.unsigned]

theorem sign_unsigned (text : List Char) : text = unsigned text ∨ text = '#' :: unsigned text := by
  unfold unsigned
  split
  case h_1 => exact .inr rfl
  case h_2 => exact .inl rfl

theorem parse_eq (text : String) : parse text = match (unsigned text.toList).mapM hexValue? with
    | some [a, b, c, d, e, f] => .ok ⟨channel a b, channel c d, channel e f⟩
    | _ => .error ⟨text⟩ := rfl

theorem channel_digits (high low : Char) :
    channel (digitValue high) (digitValue low) = UInt8.ofNat (pairValue high low) := by
  rw [pairValue_eq, channel]

theorem parse_of_spells (spells : Spells text [a, b, c, d, e, f]) : parse text = .ok
    ⟨UInt8.ofNat (pairValue a b), UInt8.ofNat (pairValue c d), UInt8.ofNat (pairValue e f)⟩ := by
  rw [parse_eq, spells.unsigned, mapM_hexValue?_of_digits spells.hex]
  simp only [List.map_cons, List.map_nil, channel_digits]

theorem exists_of_six {digits : List α} (six : digits.length = 6) :
    ∃ a b c d e f, digits = [a, b, c, d, e, f] := by
  match digits, six with
  | [a, b, c, d, e, f], _ => exact ⟨a, b, c, d, e, f, rfl⟩

theorem parse_of_not_spells (other : ∀ digits, ¬Spells text digits) :
    parse text = .error ⟨text⟩ := by
  rw [parse_eq]
  split
  case h_1 a b c d e f read =>
    have hex := digits_of_mapM_hexValue? read
    have values := (mapM_hexValue?_of_digits hex).symm.trans read
    have six : (unsigned text.toList).length = 6 := by
      simpa using congrArg List.length (Option.some.inj values)
    exact absurd ⟨sign_unsigned text.toList, six, hex⟩ (other _)
  case h_2 => rfl

theorem parse_congr (first : Spells text digits) (second : Spells other digits) :
    (∃ c, parse text = .ok c ∧ parse other = .ok c) := by
  obtain ⟨a, b, c, d, e, f, rfl⟩ := exists_of_six first.six
  exact ⟨_, parse_of_spells first, parse_of_spells second⟩

/-- The bytes of a text look like digits only if its characters are digits. -/
theorem bytes_hex_iff {text : List Char} :
    (String.ofList text).toByteArray.data.toList.all isHexByte ↔ ∀ c ∈ text, c ∈ hexDigits := by
  rw [String.toByteArray_ofList, List.utf8Encode, List.toList_data_toByteArray, List.all_flatMap,
    List.all_eq_true]
  exact forall₂_congr fun c _ => all_isHexByte_iff

/-- To count bytes and look at each of them is to count digits. -/
theorem six_bytes_iff {text : List Char} :
    ((String.ofList text).utf8ByteSize = 6 ∧
      (String.ofList text).toByteArray.data.toList.all isHexByte) ↔
    text.length = 6 ∧ ∀ c ∈ text, c ∈ hexDigits := by
  rw [bytes_hex_iff, and_congr_left_iff]
  intro hex
  rw [String.utf8ByteSize_ofList, utf8Len_digits hex]

theorem slices_of_six (hex : ∀ x ∈ [a, b, c, d, e, f], x ∈ hexDigits) :
    slice? (String.ofList [a, b, c, d, e, f]) 0 2 = some (String.ofList [a, b]) ∧
      slice? (String.ofList [a, b, c, d, e, f]) 2 4 = some (String.ofList [c, d]) ∧
      slice? (String.ofList [a, b, c, d, e, f]) 4 6 = some (String.ofList [e, f]) := by
  have among {part : List Char} (within : part ⊆ [a, b, c, d, e, f]) :
      ∀ x ∈ part, x ∈ hexDigits := fun x listed => hex x (within listed)
  refine ⟨slice?_digits [] [a, b] [c, d, e, f] (among ?_),
    slice?_digits [a, b] [c, d] [e, f] (among ?_), slice?_digits [a, b, c, d] [e, f] [] (among ?_)⟩
  all_goals simp

/-- No text is cut inside of a character, and the color is that of the digits. -/
theorem slicedParse?_eq (text : String) : slicedParse? text = some (parse text) := by
  by_cases spelled : ∃ digits, Spells text digits
  · obtain ⟨digits, spells⟩ := spelled
    obtain ⟨size, bytes⟩ := six_bytes_iff.mpr ⟨spells.six, spells.hex⟩
    obtain ⟨a, b, c, d, e, f, rfl⟩ := exists_of_six spells.six
    obtain ⟨red, green, blue⟩ := slices_of_six spells.hex
    have hex := spells.hex
    simp only [List.forall_mem_cons] at hex
    obtain ⟨ha, hb, hc, hd, he, hf, -⟩ := hex
    have passes := not_or.mpr ⟨not_not.mpr size, not_not.mpr bytes⟩
    rw [parse_of_spells spells, slicedParse?, spells.unsigned, if_neg passes, red, green, blue]
    simp only [Option.bind_eq_bind, Option.bind_some, readByte?_pair ha hb, readByte?_pair hc hd,
      readByte?_pair he hf]
  · have other := not_exists.mp spelled
    rw [parse_of_not_spells other, slicedParse?, if_pos]
    by_contra passes
    obtain ⟨size, bytes⟩ := not_or.mp passes
    obtain ⟨six, hex⟩ := six_bytes_iff.mp ⟨not_not.mp size, not_not.mp bytes⟩
    exact other _ ⟨sign_unsigned text.toList, six, hex⟩

/-- The values of digits two by two. -/
def pairValues : List Char → List Nat
  | high :: low :: rest => pairValue high low :: pairValues rest
  | _ => []

/-- A text is answered with the color of its six digits, or with a fault that repeats it if it does
not consist of six digits. -/
def Answers (text : String) : Except ColorFault Color → Prop
  | .ok c => ∃ digits, Spells text digits ∧
      [c.red.toNat, c.green.toNat, c.blue.toNat] = pairValues digits ∧
      c.toText = "#" ++ String.ofList (digits.map Char.toUpper)
  | .error fault => fault.text = text ∧ ∀ digits, ¬Spells text digits

theorem channelText_pair (first : high ∈ hexDigits) (second : low ∈ hexDigits) :
    channelText (UInt8.ofNat (pairValue high low)) = [high.toUpper, low.toUpper] := by
  obtain ⟨-, -, upperHigh⟩ := hexDigit_read high first
  obtain ⟨-, lowSmall, upperLow⟩ := hexDigit_read low second
  have value : (UInt8.ofNat (pairValue high low)).toNat = 16 * digitValue high + digitValue low := by
    rw [UInt8.toNat_ofNat', Nat.mod_eq_of_lt (pairValue_lt first second), pairValue_eq]
  rw [channelText, value, Nat.mul_add_div (by decide), Nat.mul_add_mod, Nat.div_eq_of_lt lowSmall,
    Nat.mod_eq_of_lt lowSmall, Nat.add_zero, upperHigh, upperLow]

theorem answers_parse (text : String) : Answers text (parse text) := by
  by_cases spelled : ∃ digits, Spells text digits
  · obtain ⟨digits, spells⟩ := spelled
    obtain ⟨a, b, c, d, e, f, rfl⟩ := exists_of_six spells.six
    have hex := spells.hex
    simp only [List.forall_mem_cons] at hex
    obtain ⟨ha, hb, hc, hd, he, hf, -⟩ := hex
    rw [parse_of_spells spells]
    refine ⟨_, spells, ?_, ?_⟩
    · simp only [pairValues, UInt8.toNat_ofNat', Nat.mod_eq_of_lt (pairValue_lt ha hb),
        Nat.mod_eq_of_lt (pairValue_lt hc hd), Nat.mod_eq_of_lt (pairValue_lt he hf)]
    · simp only [toText, Color.hex, channelText_pair ha hb, channelText_pair hc hd,
        channelText_pair he hf, List.cons_append, List.nil_append, List.map_cons, List.map_nil]
  · have other := not_exists.mp spelled
    rw [parse_of_not_spells other]
    exact ⟨rfl, other⟩

/-- The number sign may be left out. -/
theorem parse_hex (c : Color) : parse c.hex = .ok c := by
  have signed : c.toText.toList = '#' :: c.hex.toList := String.toList_append
  by_cases spelled : ∃ digits, Spells c.toText digits
  · obtain ⟨digits, spells⟩ := spelled
    have same := spells.unsigned
    rw [signed, unsigned] at same
    have bare : Spells c.hex digits := ⟨.inl same, spells.six, spells.hex⟩
    obtain ⟨d, first, second⟩ := parse_congr spells bare
    rw [second, ← first, c.parse_self]
  · have refused := parse_of_not_spells (not_exists.mp spelled)
    cases c.parse_self.symm.trans refused

end Color

/-- Every text is answered with the color that its digits spell or, if it is no color, with itself;
to read it by bytes gives the same answer and cuts no character in two; and a color is read back
from its digits, with and without the number sign. -/
theorem colors_read_exactly :
    (∀ text, Color.Answers text (Color.parse text)) ∧
      (∀ text, Color.slicedParse? text = some (Color.parse text)) ∧
      ∀ c : Color, Color.parse c.hex = .ok c ∧ Color.parse c.toText = .ok c := by
  refine ⟨Color.answers_parse, Color.slicedParse?_eq, ?_⟩
  intro c
  exact ⟨c.parse_hex, c.parse_self⟩

end Parley
