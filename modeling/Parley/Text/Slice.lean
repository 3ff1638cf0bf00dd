/-! Parts of a text by byte offsets, as memory holds it. An offset inside of a character cuts it in
two, and nothing comes of that. -/
namespace Parley.Text

/-- The part of a text between two byte offsets; nothing if a character lies across one of them. -/
def slice? (text : String) (start stop : Nat) : Option String :=
  if String.Pos.Raw.isValid text ⟨start⟩ ∧ String.Pos.Raw.isValid text ⟨stop⟩ then
    some (String.Pos.Raw.extract text ⟨start⟩ ⟨stop⟩)
  else none

/-- The byte offset at which a character is found first. -/
def find? (c : Char) : List Char → Option Nat
  | [] => none
  | d :: rest => if d = c then some 0 else (find? c rest).map (d.utf8Size + ·)

theorem lt_of_slice? (cut : slice? text start stop = some part) (filled : part ≠ "") :
    start < stop := by
  apply Decidable.byContradiction
  intro late
  unfold slice? at cut
  split at cut
  case isFalse => cases cut
  case isTrue =>
    have empty : String.Pos.Raw.extract text ⟨start⟩ ⟨stop⟩ = "" := if_pos (Nat.not_lt.mp late)
    exact filled ((Option.some.inj cut).symm.trans empty)

end Parley.Text
