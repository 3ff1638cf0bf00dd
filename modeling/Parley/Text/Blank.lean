import Parley.Text.Escaped

/-! Blanks: the characters with the Unicode property `White_Space`, and the words they separate. -/
namespace Parley.Text

def blankRanges : List (Nat × Nat) :=
  [
    (9, 13), (32, 32), (133, 133), (160, 160), (0x1680, 0x1680), (0x2000, 0x200a),
    (0x2028, 0x2029), (0x202f, 0x202f), (0x205f, 0x205f), (0x3000, 0x3000)
  ]

def isBlank (c : Char) : Bool := inRanges blankRanges c.toNat

/-- The stretches before, between and after the blanks. -/
def splitBlanks : List Char → List (List Char)
  | [] => [[]]
  | c :: rest =>
    if isBlank c then [] :: splitBlanks rest
    else match splitBlanks rest with
      | word :: words => (c :: word) :: words
      | [] => [[c]]

/-- The stretches between blanks that are not empty. -/
def words (text : List Char) : List (List Char) := (splitBlanks text).filter (!·.isEmpty)

end Parley.Text
