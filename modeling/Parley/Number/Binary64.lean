/-! Binary floating-point numbers of 64 bits as values: one NaN, and otherwise a sign and a rank.
Ranks list the magnitudes in increasing order, zero first and infinity last, so that ranks compare
as magnitudes do and an encoding is its rank with a sign bit. Rounding is to nearest, ties to the
even significand, on exact natural numbers: `ofRatio`. -/
namespace Parley

/-- Significands of one binade. -/
def Binary64.binade : Nat := 1 <<< 52

/-- The rank of infinity, behind 2047 binades of finite magnitudes (the first holds zero and the
subnormal numbers). -/
def Binary64.infinityRank : Nat := 2047 * binade

/-- All NaNs are one value: nothing in this library tells them apart. -/
inductive Binary64
  | nan
  | number (negative : Bool) (rank : Fin (Binary64.infinityRank + 1))
deriving DecidableEq

/-- Round a quotient of natural numbers to the nearest one, a half to the even neighbour. -/
def roundHalfEven (num den : Nat) : Nat :=
  let low := num / den
  let twice := 2 * (num % den)
  if twice < den then low
  else if den < twice then low + 1
  else low + low % 2

namespace Binary64

/-- The rank `r`, read as an exponent field and a fraction, stands for `m * 2 ^ k / 2 ^ 1074`;
this is `(m, k)`. -/
def significand (r : Nat) : Nat × Nat :=
  if r < 2 * binade then (r, 0) else (binade + r % binade, r / binade - 1)

/-- The magnitude of a finite rank as a fraction. -/
def magnitude (r : Nat) : Nat × Nat :=
  let (m, k) := significand r
  (m <<< k, 1 <<< 1074)

/-- A rank cut off at infinity. -/
def ofRank (negative : Bool) (r : Nat) : Binary64 :=
  .number negative ⟨min r infinityRank, by omega⟩

def zero : Binary64 := ofRank false 0

def infinity : Binary64 := ofRank false infinityRank

instance : Inhabited Binary64 := ⟨zero⟩

/-- The number nearest to `num / den`, for `den` positive. The scale `k` is the least one at which
the significand has at most 53 bits; carrying into a 54th bit moves to the next binade by itself. -/
def ofRatio (negative : Bool) (num den : Nat) : Binary64 :=
  let scaled := num <<< 1074
  let k := (scaled / den).log2 - 52
  ofRank negative (k * binade + roundHalfEven scaled (den <<< k))

def ofInt (i : Int) : Binary64 := ofRatio (i < 0) i.natAbs 1

/-- The magnitude as a fraction with the sign apart, unless the value is infinite or NaN. -/
def fraction? : Binary64 → Option (Bool × Nat × Nat)
  | nan => none
  | number negative r => if r.val = infinityRank then none else some (negative, magnitude r.val)

def isFinite (x : Binary64) : Bool := x.fraction?.isSome

/-- Whether a finite value has no fractional part. -/
def isWhole (x : Binary64) : Bool :=
  match x.fraction? with
  | none => false
  | some (_, num, den) => num % den == 0

/-- Divide by a positive whole number, rounding once. -/
def divide (x : Binary64) (divisor : Nat) : Binary64 :=
  match x, x.fraction? with
  | _, some (negative, num, den) => ofRatio negative num (den * divisor)
  | x, none => x

/-- The value's place on the line of all values: NaN lies below every number, and the two zeros
share a place. -/
def place : Binary64 → Int
  | nan => -(infinityRank + 1 : Nat)
  | number false r => r.val
  | number true r => -(r.val : Int)

/-- The order of places, which is total. -/
def order (x y : Binary64) : Ordering := compare x.place y.place

/-- The bit in which a sign is encoded. -/
def signBit : Nat := 1 <<< 63

/-- The interchange encoding; every pattern of a NaN reads as `nan`. -/
def ofBits (bits : Nat) : Binary64 :=
  let r := bits % signBit
  if h : r ≤ infinityRank then .number (bits / signBit % 2 == 1) ⟨r, by omega⟩ else nan

def toBits : Binary64 → Nat
  | nan => 0x7ff8 <<< 48
  | number negative r => r.val + if negative then signBit else 0

end Binary64
end Parley
