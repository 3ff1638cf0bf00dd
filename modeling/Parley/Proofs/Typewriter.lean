import Parley.Markup.Typewriter

/-! A step moves text from the hidden to the shown side and loses none of it. -/
namespace Parley.Typewriter

theorem passTags_append (inTag : Bool) (cs : List Char) :
    (passTags inTag cs).1 ++ (passTags inTag cs).2 = cs := by
  induction cs generalizing inTag with
  | nil => rfl
  | cons c rest ih =>
    simp only [passTags]
    split
    · simp only [List.cons_append, ih]
    · rfl

/-- The step that finds no more characters shows the tags behind the last one. -/
theorem step_finished {t u : Typewriter} (finished : t.step = (.finished, u)) : u = t.showAll := by
  have whole := passTags_append false t.hidden
  unfold step at finished
  split at finished
  case h_1 tags passed =>
    obtain ⟨-, rfl⟩ := Prod.mk.inj finished
    simp only [passed, List.append_nil] at whole
    simp only [showAll, total, whole]
  case h_2 => cases (Prod.mk.inj finished).1

/-- A step that finds a character brings a piece of the hidden text out. -/
theorem step_revealed {t u : Typewriter} (revealed : t.step = (.revealed c, u)) :
    ∃ piece, piece ≠ [] ∧ u.shown = t.shown ++ piece ∧ piece ++ u.hidden = t.hidden := by
  have whole := passTags_append false t.hidden
  unfold step at revealed
  split at revealed
  case h_1 => cases (Prod.mk.inj revealed).1
  case h_2 tags c rest passed =>
    obtain ⟨-, rfl⟩ := Prod.mk.inj revealed
    refine ⟨tags ++ [c], by simp, by simp, ?_⟩
    rw [passed] at whole
    simpa using whole

theorem total_of_piece {t u : Typewriter} (shown : u.shown = t.shown ++ piece)
    (hidden : piece ++ u.hidden = t.hidden) : u.total = t.total := by
  rw [total, total, shown, List.append_assoc, hidden]

end Parley.Typewriter
