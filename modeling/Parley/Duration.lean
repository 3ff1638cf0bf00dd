import Parley.Number.Decimal
import Parley.Number.Word

/-! Spans of time in whole nanoseconds, below 2⁶⁴ seconds. Sums stop at the longest span and
differences at zero. Seconds given as binary numbers round once, to the nearest nanosecond. -/
namespace Parley

namespace Duration

def nanosPerSecond : Nat := 1000000000

def longestNanos : Nat := wordValues * nanosPerSecond - 1

end Duration

structure Duration where
  nanos : Nat
  nanos_le : nanos ≤ Duration.longestNanos
deriving DecidableEq

namespace Duration

@[ext] theorem ext {a b : Duration} (h : a.nanos = b.nanos) : a = b := by
  cases a; cases b; simp_all

/-- A count of nanoseconds, cut off at the longest span. -/
def ofNanos (n : Nat) : Duration := ⟨min n longestNanos, Nat.min_le_right _ _⟩

def zero : Duration := ofNanos 0

instance : Inhabited Duration := ⟨zero⟩

def nanosPerMilli : Nat := 1000000

def nanosPerMicro : Nat := 1000

def ofMillis (ms : Nat) : Duration := ofNanos (ms * nanosPerMilli)

/-- Whole seconds and further nanoseconds. -/
def ofParts (seconds nanos : Nat) : Duration := ofNanos (seconds * nanosPerSecond + nanos)

def seconds (d : Duration) : Nat := d.nanos / nanosPerSecond

/-- Nanoseconds after the last whole second. -/
def subsecond (d : Duration) : Nat := d.nanos % nanosPerSecond

instance : Add Duration := ⟨fun a b => ofNanos (a.nanos + b.nanos)⟩

instance : Sub Duration := ⟨fun a b => ofNanos (a.nanos - b.nanos)⟩

instance : LE Duration := ⟨fun a b => a.nanos ≤ b.nanos⟩

instance : LT Duration := ⟨fun a b => a.nanos < b.nanos⟩

instance (a b : Duration) : Decidable (a ≤ b) := inferInstanceAs (Decidable (a.nanos ≤ b.nanos))

instance (a b : Duration) : Decidable (a < b) := inferInstanceAs (Decidable (a.nanos < b.nanos))

instance : Max Duration := ⟨fun a b => if a ≤ b then b else a⟩

theorem nanos_add (a b : Duration) : (a + b).nanos = min (a.nanos + b.nanos) longestNanos := rfl

theorem nanos_sub (a b : Duration) : (a - b).nanos = a.nanos - b.nanos :=
  Nat.min_eq_left (Nat.le_trans (Nat.sub_le _ _) a.nanos_le)

theorem nanos_max (a b : Duration) : (max a b).nanos = max a.nanos b.nanos := by
  show (if a.nanos ≤ b.nanos then b else a).nanos = _
  split <;> omega

theorem add_assoc (a b c : Duration) : a + b + c = a + (b + c) := by
  apply ext
  simp only [nanos_add]
  omega

theorem add_right_comm (a b c : Duration) : a + b + c = a + c + b := by
  apply ext
  simp only [nanos_add]
  omega

@[simp] theorem add_zero (a : Duration) : a + zero = a :=
  ext (Nat.min_eq_left a.nanos_le)

@[simp] theorem zero_add (a : Duration) : zero + a = a := by
  apply ext
  rw [nanos_add]
  show min (0 + a.nanos) longestNanos = a.nanos
  rw [Nat.zero_add]
  exact Nat.min_eq_left a.nanos_le

theorem le_add_right (a b : Duration) : a ≤ a + b := by
  have cut := a.nanos_le
  show a.nanos ≤ min (a.nanos + b.nanos) longestNanos
  omega

theorem add_le_add_left (h : b ≤ c) (a : Duration) : a + b ≤ a + c := by
  have less : b.nanos ≤ c.nanos := h
  show min (a.nanos + b.nanos) longestNanos ≤ min (a.nanos + c.nanos) longestNanos
  omega

/-- The way from one time to a later one, gone from the first, ends at the second. -/
theorem add_sub_of_le {a b : Duration} (early : a ≤ b) : a + (b - a) = b := by
  have less : a.nanos ≤ b.nanos := early
  have cut := b.nanos_le
  apply ext
  rw [nanos_add, nanos_sub]
  omega

theorem le_foldl_add (parts : List Duration) (first : Duration) :
    first ≤ parts.foldl (· + ·) first := by
  induction parts generalizing first with
  | nil => exact Nat.le_refl _
  | cons part parts ih => exact Nat.le_trans (le_add_right first part) (ih (first + part))

theorem le_max_left (a b : Duration) : a ≤ max a b := by
  show a.nanos ≤ (max a b).nanos
  rw [nanos_max]
  exact Nat.le_max_left _ _

theorem le_max_right (a b : Duration) : b ≤ max a b := by
  show b.nanos ≤ (max a b).nanos
  rw [nanos_max]
  exact Nat.le_max_right _ _

theorem max_le {a b c : Duration} (left : a ≤ c) (right : b ≤ c) : max a b ≤ c := by
  show (max a b).nanos ≤ c.nanos
  rw [nanos_max]
  exact Nat.max_le.mpr ⟨left, right⟩

theorem max_eq_right {a b : Duration} (h : a ≤ b) : max a b = b := if_pos h

theorem max_assoc (a b c : Duration) : max (max a b) c = max a (max b c) := by
  apply ext
  simp only [nanos_max]
  omega

/-- Seconds as a span, rounded to the nearest nanosecond, a half to the even one. Negative
numbers, numbers of 2⁶⁴ or more, infinities and NaN are no spans. -/
def ofSeconds? (x : Binary64) : Option Duration :=
  match x.fraction? with
  | none => none
  | some (negative, num, den) =>
    let n := roundHalfEven (num * nanosPerSecond) den
    if h : n ≤ longestNanos ∧ ¬(negative ∧ num ≠ 0) then some ⟨n, h.1⟩ else none

/-- What is no span counts as none. -/
def ofSeconds (x : Binary64) : Duration := (ofSeconds? x).getD zero

/-- The nearest number of seconds. -/
def toSeconds (d : Duration) : Binary64 := Binary64.ofRatio false d.nanos nanosPerSecond

/-- A whole part and a fraction of `places` digits, without trailing zeros. -/
def trimmed (whole fraction places : Nat) : List Char :=
  let ds := Nat.toDigits 10 fraction
  let padded := List.replicate (places - ds.length) '0' ++ ds
  let kept := (padded.reverse.dropWhile (· = '0')).reverse
  Nat.toDigits 10 whole ++ if kept.isEmpty then [] else '.' :: kept

/-- The text in the largest unit that leaves a whole part, as in `1.23s`, `20ms` or `0ns`. -/
def toText (d : Duration) : List Char :=
  if 0 < d.seconds then trimmed d.seconds d.subsecond 9 ++ ['s']
  else if nanosPerMilli ≤ d.nanos then
    trimmed (d.nanos / nanosPerMilli) (d.nanos % nanosPerMilli) 6 ++ ['m', 's']
  else if nanosPerMicro ≤ d.nanos then
    trimmed (d.nanos / nanosPerMicro) (d.nanos % nanosPerMicro) 3 ++ ['µ', 's']
  else Nat.toDigits 10 d.nanos ++ ['n', 's']

end Duration
end Parley
