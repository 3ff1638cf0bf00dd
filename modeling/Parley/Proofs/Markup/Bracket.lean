import Parley.Proofs.Number.Digits

/-! Text in pieces. Whatever makes a `<` open a tag, a text is empty, or begins with such a tag up
to the next `>`, or begins with a character that opens none. -/
namespace Parley.Markup

section Name

variable {name : List Char} (inside : '>' ∉ name)
include inside

theorem passes_name : ∀ c ∈ name, decide (c ≠ '>') = true := by
  intro c listed
  exact decide_eq_true fun same => inside (same ▸ listed)

theorem takeWhile_name (rest : List Char) :
    (name ++ '>' :: rest).takeWhile (· ≠ '>') = name :=
  takeWhile_run (passes_name inside) rfl

theorem dropWhile_name (rest : List Char) :
    (name ++ '>' :: rest).dropWhile (· ≠ '>') = '>' :: rest :=
  dropWhile_run (passes_name inside) rfl

end Name

/-- Piece by piece, for any rule by which the text behind a `<` makes it open a tag. -/
@[elab_as_elim]
theorem bracket_induction {opens : List Char → Prop}
    (closed : ∀ behind, opens behind → '>' ∈ behind) {motive : List Char → Prop}
    (nil : motive [])
    (tag : ∀ name rest, '>' ∉ name → opens (name ++ '>' :: rest) → motive rest →
      motive ('<' :: name ++ '>' :: rest))
    (char : ∀ c rest, ¬(c = '<' ∧ opens rest) → motive rest → motive (c :: rest))
    (text : List Char) : motive text := by
  induction measure : text.length using Nat.strongRecOn generalizing text with
  | ind length ih =>
    cases text with
    | nil => exact nil
    | cons c behind =>
      have shorter : behind.length < length := by
        rw [← measure]
        exact Nat.lt_succ_self _
      by_cases begins : c = '<' ∧ opens behind
      · obtain ⟨rfl, open_⟩ := begins
        obtain ⟨name, rest, rfl, inside⟩ := List.eq_append_cons_of_mem (closed behind open_)
        refine tag name rest inside open_ (ih rest.length ?_ rest rfl)
        simp only [List.length_append, List.length_cons] at shorter
        omega
      · exact char c behind begins (ih behind.length shorter behind rfl)

end Parley.Markup
