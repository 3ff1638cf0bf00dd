import Parley.Markup.Style
import Parley.Proofs.Markup.Bracket

/-! Text without its color tags. Stripping goes over a text once and piece by piece: a color tag is
dropped whole, and any other `<` stays alone. So a bracket that is no color tag can become one when
a color tag inside it is dropped, and nothing else leaves a color tag behind. -/
namespace Parley.Markup

section Tag

variable {name : List Char} (inside : '>' ∉ name)
include inside

theorem opensColor_tag (rest : List Char) :
    opensColor (name ++ '>' :: rest) = isColorName name := by
  have closed : (name ++ '>' :: rest).contains '>' = true := by simp
  rw [opensColor, closed, Bool.true_and, takeWhile_name inside]

theorem stripFrom_inside (rest : List Char) :
    stripFrom true (name ++ '>' :: rest) = stripColors rest := by
  induction name with
  | nil => simp [stripFrom, stripColors]
  | cons c name ih =>
    obtain ⟨other, inside⟩ := not_or.mp (mt List.mem_cons.mpr inside)
    have goes : decide (c ≠ '>') = true := decide_eq_true (Ne.symm other)
    rw [List.cons_append, stripFrom, if_pos rfl, goes, ih inside]

theorem stripColors_tag (color : isColorName name = true) (rest : List Char) :
    stripColors ('<' :: name ++ '>' :: rest) = stripColors rest := by
  have opens := (opensColor_tag inside rest).trans color
  rw [List.cons_append, stripColors, stripFrom, if_neg nofun, if_pos ⟨rfl, opens⟩,
    stripFrom_inside inside]

end Tag

theorem closed_of_opensColor (opens : opensColor behind = true) : '>' ∈ behind :=
  List.contains_iff_mem.mp (Bool.and_eq_true_iff.mp opens).1

theorem opensColor_append (closed : '>' ∈ behind) (rest : List Char) :
    opensColor (behind ++ rest) = opensColor behind := by
  obtain ⟨name, more, rfl, inside⟩ := List.eq_append_cons_of_mem closed
  rw [List.append_assoc, List.cons_append, opensColor_tag inside, opensColor_tag inside]

theorem stripColors_cons (stays : ¬(c = '<' ∧ opensColor rest = true)) :
    stripColors (c :: rest) = c :: stripColors rest := by
  rw [stripColors, stripFrom, if_neg nofun, if_neg stays]
  rfl

/-- A text is empty, or begins with a color tag or with a character that stays. -/
@[elab_as_elim]
theorem strip_induction {motive : List Char → Prop} (nil : motive [])
    (tag : ∀ name rest, '>' ∉ name → isColorName name = true → motive rest →
      motive ('<' :: name ++ '>' :: rest))
    (char : ∀ c rest, ¬(c = '<' ∧ opensColor rest = true) → motive rest → motive (c :: rest))
    (text : List Char) : motive text := by
  refine bracket_induction (fun _ => closed_of_opensColor) nil ?_ char text
  intro name rest inside opens
  exact tag name rest inside ((opensColor_tag inside rest).symm.trans opens)

/-- Some bracket of the text is a color tag. -/
def HasColorTag (text : List Char) : Prop :=
  ∃ before name after, text = before ++ '<' :: name ++ '>' :: after ∧ '>' ∉ name ∧
    isColorName name = true

theorem hasColorTag_cons :
    HasColorTag (c :: rest) ↔ (c = '<' ∧ opensColor rest = true) ∨ HasColorTag rest := by
  constructor
  · rintro ⟨before, name, after, whole, inside, color⟩
    cases before with
    | nil =>
      cases whole
      exact .inl ⟨rfl, (opensColor_tag inside after).trans color⟩
    | cons _ before =>
      cases whole
      exact .inr ⟨before, name, after, rfl, inside, color⟩
  · rintro (⟨rfl, opens⟩ | ⟨before, name, after, rfl, inside, color⟩)
    · obtain ⟨name, after, rfl, inside⟩ := List.eq_append_cons_of_mem (closed_of_opensColor opens)
      exact ⟨[], name, after, rfl, inside, (opensColor_tag inside after).symm.trans opens⟩
    · exact ⟨c :: before, name, after, rfl, inside, color⟩

theorem length_stripColors_le (text : List Char) : (stripColors text).length ≤ text.length := by
  induction text using strip_induction with
  | nil => exact Nat.le_refl _
  | tag name rest inside color ih =>
    rw [stripColors_tag inside color]
    simp only [List.length_append, List.length_cons]
    omega
  | char c rest stays ih =>
    rw [stripColors_cons stays]
    exact Nat.succ_le_succ ih

/-- Stripping changes a text just where there is something to strip. -/
theorem stripColors_eq_self_iff : stripColors text = text ↔ ¬HasColorTag text := by
  induction text using strip_induction with
  | nil => simp [stripColors, stripFrom, HasColorTag]
  | tag name rest inside color ih =>
    have tagged : HasColorTag ('<' :: name ++ '>' :: rest) := ⟨[], name, rest, rfl, inside, color⟩
    simp only [tagged, not_true, iff_false]
    intro same
    have shorter := length_stripColors_le rest
    rw [stripColors_tag inside color] at same
    rw [same] at shorter
    simp only [List.length_append, List.length_cons] at shorter
    omega
  | char c rest stays ih =>
    rw [stripColors_cons stays, hasColorTag_cons, or_iff_right stays, ← ih, List.cons_inj_right]

/-- Up to the first `>`, stripping leaves everything, or drops a color tag that begins before. -/
theorem stripColors_name (text : List Char) :
    ('>' ∉ text ∧ stripColors text = text) ∨
      (∃ name rest, text = name ++ '>' :: rest ∧ '>' ∉ name ∧
        stripColors text = name ++ '>' :: stripColors rest) ∨
      ∃ outer inner rest, text = outer ++ '<' :: inner ++ '>' :: rest ∧ '>' ∉ outer ∧
        '>' ∉ inner ∧ isColorName inner = true ∧
        stripColors text = outer ++ stripColors rest := by
  induction text using strip_induction with
  | nil => exact .inl ⟨by simp, rfl⟩
  | tag name rest inside color =>
    exact .inr (.inr ⟨[], name, rest, rfl, by simp, inside, color, stripColors_tag inside color rest⟩)
  | char c rest stays ih =>
    have kept := stripColors_cons stays
    by_cases closes : '>' = c
    · subst closes
      exact .inr (.inl ⟨[], rest, rfl, by simp, kept⟩)
    · rcases ih with ⟨unclosed, same⟩ | ⟨name, more, rfl, inside, same⟩ |
        ⟨outer, inner, more, rfl, before, inside, color, same⟩
      · exact .inl ⟨by simp [closes, unclosed], by rw [kept, same]⟩
      · exact .inr (.inl ⟨c :: name, more, rfl, by simp [closes, inside], by rw [kept, same]; rfl⟩)
      · exact .inr (.inr ⟨c :: outer, inner, more, rfl, by simp [closes, before], inside, color,
          by rw [kept, same]; rfl⟩)

/-- A bracket that is no color tag has one inside, and is a color tag once that one is gone. -/
def JoinsColorTag (text : List Char) : Prop :=
  ∃ before outer inner after, text = before ++ '<' :: (outer ++ '<' :: inner ++ '>' :: after) ∧
    '>' ∉ outer ++ '<' :: inner ∧ isColorName inner = true ∧
    isColorName (outer ++ '<' :: inner) = false ∧ opensColor (outer ++ stripColors after) = true

theorem JoinsColorTag.append (joins : JoinsColorTag text) (front : List Char) :
    JoinsColorTag (front ++ text) := by
  obtain ⟨before, outer, inner, after, rfl, joined⟩ := joins
  exact ⟨front ++ before, outer, inner, after, (List.append_assoc ..).symm, joined⟩

/-- A bracket that stays, and is a color tag when stripping is done, had one inside. -/
theorem joinsColorTag_of_opens (stays : opensColor rest = false)
    (opens : opensColor (stripColors rest) = true) : JoinsColorTag ('<' :: rest) := by
  rcases stripColors_name rest with ⟨-, same⟩ | ⟨name, more, rfl, inside, same⟩ |
    ⟨outer, inner, after, rfl, before, inside, color, same⟩
  · rw [same] at opens
    cases stays.symm.trans opens
  · rw [opensColor_tag inside] at stays
    rw [same, opensColor_tag inside] at opens
    cases stays.symm.trans opens
  · have within : '>' ∉ outer ++ '<' :: inner := by simp [before, inside]
    rw [opensColor_tag within] at stays
    rw [same] at opens
    exact ⟨[], outer, inner, after, rfl, within, color, stays, opens⟩

theorem joinsColorTag_of_hasColorTag (left : HasColorTag (stripColors text)) :
    JoinsColorTag text := by
  induction text using strip_induction with
  | nil => simp [stripColors, stripFrom, HasColorTag] at left
  | tag name rest inside color ih =>
    rw [stripColors_tag inside color] at left
    simpa using (ih left).append ('<' :: name ++ ['>'])
  | char c rest stays ih =>
    rw [stripColors_cons stays] at left
    rcases hasColorTag_cons.mp left with ⟨rfl, opens⟩ | later
    · have shut : opensColor rest = false := eq_false_of_ne_true fun opens => stays ⟨rfl, opens⟩
      exact joinsColorTag_of_opens shut opens
    · exact (ih later).append [c]

/-- A stripped text has no color tag left, and a second stripping finds nothing to do, unless a
bracket became a color tag when one inside it was dropped. -/
theorem strip_leaves_joined_tags (text : List Char) :
    (¬HasColorTag (stripColors text) ∧ stripColors (stripColors text) = stripColors text) ∨
      JoinsColorTag text := by
  by_cases left : HasColorTag (stripColors text)
  · exact .inr (joinsColorTag_of_hasColorTag left)
  · exact .inl ⟨left, stripColors_eq_self_iff.mpr left⟩

/-- The first `<` was no color tag, and is one when the second is gone. -/
theorem strip_joins_tag :
    let text := "<<color>color>".toList
    stripColors text = "<color>".toList ∧ HasColorTag (stripColors text) ∧
      stripColors (stripColors text) ≠ stripColors text := by
  intro text
  have once : stripColors text = "<color>".toList := by decide
  refine ⟨once, ?_, by decide⟩
  rw [once]
  exact ⟨[], "color".toList, [], rfl, by decide, by decide⟩

end Parley.Markup
