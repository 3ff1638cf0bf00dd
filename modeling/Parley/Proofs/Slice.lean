import Mathlib.Data.String.Basic
import Parley.Text.Slice

/-! A text cut between its characters. The offsets are the lengths in bytes of what stands before. -/
namespace Parley.Text

theorem isValid_append (before after : List Char) :
    String.Pos.Raw.isValid (String.ofList (before ++ after)) ⟨String.utf8Len before⟩ := by
  rw [String.Pos.Raw.isValid_eq_true_iff, String.Pos.Raw.isValid_iff_exists_append]
  exact ⟨String.ofList before, String.ofList after, String.ofList_append, by simp⟩

theorem slice?_append (before middle after : List Char) :
    slice? (String.ofList (before ++ middle ++ after)) (String.utf8Len before)
      (String.utf8Len before + String.utf8Len middle) = some (String.ofList middle) := by
  have start := isValid_append before (middle ++ after)
  have stop := isValid_append (before ++ middle) after
  rw [← List.append_assoc] at start
  rw [String.utf8Len_append] at stop
  rw [slice?, if_pos ⟨start, stop⟩, String.extract_of_valid]

theorem slice?_front (before after : List Char) :
    slice? (String.ofList (before ++ after)) 0 (String.utf8Len before) =
      some (String.ofList before) := by
  simpa using slice?_append [] before after

theorem slice?_back (before after : List Char) :
    slice? (String.ofList (before ++ after)) (String.utf8Len before)
      (String.ofList (before ++ after)).utf8ByteSize = some (String.ofList after) := by
  have whole := slice?_append before after []
  rw [List.append_nil, ← String.utf8Len_append] at whole
  rwa [String.utf8ByteSize_ofList]

theorem find?_of_mem (other : c ∉ before) (after : List Char) :
    find? c (before ++ c :: after) = some (String.utf8Len before) := by
  induction before with
  | nil => exact if_pos rfl
  | cons d before ih =>
    obtain ⟨first, others⟩ := not_or.mp (mt List.mem_cons.mpr other)
    rw [List.cons_append, find?, if_neg (Ne.symm first), ih others, String.utf8Len_cons]
    exact congrArg some (Nat.add_comm _ _)

theorem find?_of_not_mem (other : c ∉ text) : find? c text = none := by
  induction text with
  | nil => rfl
  | cons d text ih =>
    obtain ⟨first, others⟩ := not_or.mp (mt List.mem_cons.mpr other)
    rw [find?, if_neg (Ne.symm first), ih others]
    rfl

end Parley.Text
