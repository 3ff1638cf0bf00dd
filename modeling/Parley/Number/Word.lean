/-! Whole numbers that fit 64 bits. -/
namespace Parley

/-- How many values a word of 64 bits has. -/
def wordValues : Nat := 1 <<< 64

/-- A count that fits a word. -/
def word? (n : Nat) : Option Nat := if n < wordValues then some n else none

/-- A whole number that fits a word with a sign. -/
def signedWord? (i : Int) : Option Int64 :=
  let half : Nat := wordValues / 2
  if -(half : Int) ≤ i ∧ i < half then some (.ofInt i) else none

end Parley
