import Parley.Number.Binary64

/-! Decimal text of binary numbers. `Decimal.read?` reads positional or exponent text,
`Binary64.ofDecimal` rounds it once, and `Binary64.toText` writes the fewest digits that read
back, positionally. What is written is checked against the reader before it is chosen. -/
namespace Parley

/-- The number `± digits * 10 ^ exponent`. -/
structure Decimal where
  negative : Bool
  digits : Nat
  exponent : Int
deriving DecidableEq

namespace Decimal

/-- The value of a run of decimal digits. -/
def value (digits : List Char) : Nat :=
  digits.foldl (fun n c => 10 * n + (c.toNat - '0'.toNat)) 0

def digitCount (n : Nat) : Nat := (Nat.toDigits 10 n).length

/-- A sign if there is one, and what follows it. -/
def splitSign : List Char → Bool × List Char
  | '-' :: rest => (true, rest)
  | '+' :: rest => (false, rest)
  | rest => (false, rest)

/-- The exponent part, or nothing at all. -/
def readExponent? : List Char → Option Int
  | [] => some 0
  | c :: rest =>
    if c = 'e' ∨ c = 'E' then
      let (negative, digits) := splitSign rest
      if digits.isEmpty ∨ !digits.all Char.isDigit then none
      else some (if negative then -(value digits : Int) else value digits)
    else none

/-- Digits with at most one point among or around them, and an optional exponent. -/
def read? (text : List Char) : Option Decimal :=
  let (negative, body) := splitSign text
  let whole := body.takeWhile Char.isDigit
  let afterWhole := body.dropWhile Char.isDigit
  let (fraction, rest) := match afterWhole with
    | '.' :: tail => (tail.takeWhile Char.isDigit, tail.dropWhile Char.isDigit)
    | _ => ([], afterWhole)
  if whole.isEmpty ∧ fraction.isEmpty then none
  else (readExponent? rest).map fun exponent =>
    ⟨negative, value (whole ++ fraction), exponent - fraction.length⟩

/-- Positional text of `digits * 10 ^ exponent`: no exponent part, no point without digits
behind it, a zero before a leading point. -/
def positional (digits : Nat) (exponent : Int) : List Char :=
  let ds := Nat.toDigits 10 digits
  match exponent with
  | .ofNat zeros => ds ++ List.replicate zeros '0'
  | .negSucc n =>
    let places := n + 1
    if places < ds.length then
      ds.take (ds.length - places) ++ '.' :: ds.drop (ds.length - places)
    else '0' :: '.' :: (List.replicate (places - ds.length) '0' ++ ds)

/-- Trailing zeros of the digits moved into the exponent. -/
def stripZeros : Nat → Nat → Int → Nat × Int
  | 0, digits, exponent => (digits, exponent)
  | fuel + 1, digits, exponent =>
    if digits ≠ 0 ∧ digits % 10 = 0 then stripZeros fuel (digits / 10) (exponent + 1)
    else (digits, exponent)

end Decimal

namespace Binary64

/-- Decimals of this many digits before the point are beyond the largest finite number. -/
def decimalCeiling : Int := 310

/-- Decimals that start this many places behind the point round to zero. -/
def decimalFloor : Int := -330

/-- The nearest number to a decimal. Magnitudes out of all reach are decided by their digit
count, so that a huge exponent costs nothing. -/
def ofDecimal (d : Decimal) : Binary64 :=
  let top := Decimal.digitCount d.digits + d.exponent
  if d.digits = 0 ∨ top < decimalFloor then ofRank d.negative 0
  else if decimalCeiling < top then ofRank d.negative infinityRank
  else match d.exponent with
    | .ofNat e => ofRatio d.negative (d.digits * Nat.pow 10 e) 1
    | .negSucc e => ofRatio d.negative d.digits (Nat.pow 10 (e + 1))

/-- The exponent of the leading decimal digit of a positive fraction. -/
def leadingExponent (num den : Nat) : Int :=
  if den ≤ num then Decimal.digitCount (num / den) - 1
  else -(Decimal.digitCount ((den - 1) / num) : Int)

/-- The two neighbours of `num / den` on the decimal grid of `n` digits, the nearer first; at
equal distance the upper one leads. -/
def neighbours (num den n : Nat) : List (Nat × Int) :=
  let unit := leadingExponent num den - (n - 1)
  let (scaledNum, scaledDen) := match unit with
    | .ofNat e => (num, den * Nat.pow 10 e)
    | .negSucc e => (num * Nat.pow 10 (e + 1), den)
  let low := scaledNum / scaledDen
  if 2 * (scaledNum % scaledDen) < scaledDen then [(low, unit), (low + 1, unit)]
  else [(low + 1, unit), (low, unit)]

/-- Seventeen digits always suffice. -/
def digitLimit : Nat := 17

/-- Texts for a positive fraction, in order of preference: fewer digits first, then the nearer
one. The exact expansion, which every fraction over a power of two has, stands last. -/
def candidates (num den : Nat) : List (List Char) :=
  let grids := (List.range digitLimit).flatMap fun n => neighbours num den (n + 1)
  (grids.map fun (digits, exponent) =>
    let (d, e) := Decimal.stripZeros digitLimit digits exponent
    Decimal.positional d e) ++ [Decimal.positional (num * Nat.pow 5 1074) (-1074)]

/-- Whether a text is read as the positive number of this rank. -/
def readsAs (r : Nat) (text : List Char) : Bool :=
  (Decimal.read? text).map ofDecimal = some (ofRank false r)

/-- The first candidate that reads back. -/
def shortest (r : Nat) : List Char :=
  let (num, den) := magnitude r
  ((candidates num den).find? (readsAs r)).getD []

/-- Positional text with the fewest digits that read back, without a point for whole numbers;
zero keeps its sign. -/
def toText : Binary64 → List Char
  | nan => "NaN".toList
  | number negative r =>
    let sign := if negative then ['-'] else []
    if r.val = infinityRank then sign ++ "inf".toList
    else if r.val = 0 then sign ++ ['0']
    else sign ++ shortest r.val

/-- Text with exactly `places` digits behind the point, a half rounded to the even digit. -/
def toFixed (places : Nat) (x : Binary64) : List Char :=
  match x.fraction? with
  | none => x.toText
  | some (negative, num, den) =>
    let units := roundHalfEven (num * Nat.pow 10 places) den
    let ds := Nat.toDigits 10 units
    let padded := List.replicate (places + 1 - ds.length) '0' ++ ds
    let point := padded.length - places
    (if negative then ['-'] else []) ++ padded.take point ++
      (if places = 0 then [] else '.' :: padded.drop point)

/-- The names of the values that have no digits, in any case of letters. -/
def readName? (text : List Char) : Option Binary64 :=
  let (negative, name) := Decimal.splitSign text
  match String.ofList (name.map Char.toLower) with
  | "inf" | "infinity" => some (ofRank negative infinityRank)
  | "nan" => some nan
  | _ => none

/-- A whole text as a number: decimal, or one of the names. -/
def read? (text : List Char) : Option Binary64 :=
  match readName? text with
  | some x => some x
  | none => (Decimal.read? text).map ofDecimal

end Binary64
end Parley
