import Parley.Proofs.Markup.Bracket
import Parley.Proofs.Typewriter

/-! What typing brings out. A tag runs from a `<` to the next `>`, and a `<` that nothing closes is
plain. Each step shows the tags ahead whole and one plain character behind them, so stepping to the
end reports the text without its tags, and leaves on screen what showing all at once would. -/
namespace Parley

namespace Markup

/-- Whole tags in a row. -/
inductive Tags : List Char → Prop
  | nil : Tags []
  | next (inside : '>' ∉ name) (more : Tags tags) : Tags ('<' :: name ++ '>' :: tags)

/-- A character that opens no tag, given the text behind it. -/
def IsPlain (c : Char) (rest : List Char) : Prop := c = '<' → '>' ∉ rest

/-- The text without its tags. -/
def plain : List Char → List Char
  | [] => []
  | c :: rest =>
    if c = '<' ∧ '>' ∈ rest then plain (rest.dropWhile (· ≠ '>')).tail else c :: plain rest
termination_by text => text.length
decreasing_by
  · have shorter := (rest.dropWhile_suffix (· ≠ '>')).length_le
    simp only [List.length_tail, List.length_cons]
    omega
  · exact Nat.lt_succ_self _

theorem plain_tag (inside : '>' ∉ name) (rest : List Char) :
    plain ('<' :: name ++ '>' :: rest) = plain rest := by
  rw [List.cons_append, plain, if_pos ⟨rfl, by simp⟩, dropWhile_name inside, List.tail_cons]

theorem plain_cons (opens : IsPlain c rest) : plain (c :: rest) = c :: plain rest := by
  rw [plain, if_neg fun tag => opens tag.1 tag.2]

/-- A text is empty, or begins with a tag or with a plain character. -/
@[elab_as_elim]
theorem plain_induction {motive : List Char → Prop} (nil : motive [])
    (tag : ∀ name rest, '>' ∉ name → motive rest → motive ('<' :: name ++ '>' :: rest))
    (char : ∀ c rest, IsPlain c rest → motive rest → motive (c :: rest)) (text : List Char) :
    motive text :=
  bracket_induction (fun _ closed => closed) nil (fun name rest inside _ => tag name rest inside)
    (fun c rest plainly => char c rest fun same closed => plainly ⟨same, closed⟩) text

end Markup

namespace Typewriter

open Markup

theorem passTags_inside (inside : '>' ∉ name) (rest : List Char) :
    passTags true (name ++ '>' :: rest) =
      (name ++ '>' :: (passTags false rest).1, (passTags false rest).2) := by
  induction name with
  | nil => simp [passTags]
  | cons c name ih =>
    obtain ⟨other, inside⟩ := not_or.mp (mt List.mem_cons.mpr inside)
    have goes : decide (c ≠ '>') = true := decide_eq_true (Ne.symm other)
    rw [List.cons_append, passTags, if_pos (.inl rfl), goes, ih inside]
    rfl

theorem passTags_tag (inside : '>' ∉ name) (rest : List Char) :
    passTags false ('<' :: name ++ '>' :: rest) =
      ('<' :: name ++ '>' :: (passTags false rest).1, (passTags false rest).2) := by
  have goes : decide ('<' ≠ '>') = true := rfl
  rw [List.cons_append, passTags, if_pos (.inr ⟨rfl, by simp⟩), goes, passTags_inside inside]
  rfl

theorem passTags_plain (opens : IsPlain c rest) :
    passTags false (c :: rest) = ([], c :: rest) := by
  rw [passTags, if_neg]
  rintro (inside | ⟨same, closed⟩)
  · cases inside
  · exact opens same (List.contains_iff_mem.mp closed)

/-- What a step passes is whole tags, and what it leaves begins with a plain character. -/
theorem passTags_pieces (text : List Char) :
    ∃ tags left, passTags false text = (tags, left) ∧ Tags tags ∧ tags ++ left = text ∧
      plain text = plain left ∧ ∀ c rest, left = c :: rest → IsPlain c rest := by
  induction text using plain_induction with
  | nil => exact ⟨[], [], rfl, .nil, rfl, rfl, nofun⟩
  | tag name rest inside ih =>
    obtain ⟨tags, left, passed, whole, rfl, same, opens⟩ := ih
    refine ⟨'<' :: name ++ '>' :: tags, left, ?_, .next inside whole, by simp, ?_, opens⟩
    · rw [passTags_tag inside, passed]
    · rw [plain_tag inside, same]
  | char c rest opens =>
    refine ⟨[], c :: rest, passTags_plain opens, .nil, rfl, rfl, ?_⟩
    rintro _ _ ⟨⟩
    exact opens

/-- A step meets the end with nothing but tags ahead, or a plain character behind some tags. -/
theorem step_cases (t : Typewriter) :
    (Tags t.hidden ∧ plain t.hidden = [] ∧ t.step = (.finished, t.showAll)) ∨
      ∃ tags c rest, Tags tags ∧ IsPlain c rest ∧ t.hidden = tags ++ c :: rest ∧
        plain t.hidden = c :: plain rest ∧
        t.step = (.revealed c, ⟨t.shown ++ tags ++ [c], rest⟩) := by
  obtain ⟨tags, left, passed, whole, hidden, same, opens⟩ := passTags_pieces t.hidden
  unfold step
  rw [passed]
  cases left with
  | nil =>
    rw [List.append_nil] at hidden
    refine .inl ⟨hidden ▸ whole, by rw [same, plain], ?_⟩
    simp only [showAll, total, hidden]
  | cons c rest =>
    have plainly := opens c rest rfl
    refine .inr ⟨tags, c, rest, whole, plainly, hidden.symm, ?_, rfl⟩
    rw [same, plain_cons plainly]

/-- Stepping up to the step that finds no more characters, with the characters reported before. -/
inductive RunsOut : Typewriter → List Char → Typewriter → Prop
  | last (finished : t.step = (.finished, u)) : RunsOut t [] u
  | next (revealed : t.step = (.revealed c, u)) (rest : RunsOut u cs v) : RunsOut t (c :: cs) v

theorem RunsOut.unique (first : RunsOut t cs u) (second : RunsOut t ds v) : cs = ds ∧ u = v := by
  induction first generalizing ds with
  | last finished =>
    cases second with
    | last finished' =>
      cases finished.symm.trans finished'
      exact ⟨rfl, rfl⟩
    | next revealed' => cases finished.symm.trans revealed'
  | next revealed rest ih =>
    cases second with
    | last finished' => cases revealed.symm.trans finished'
    | next revealed' rest' =>
      cases revealed.symm.trans revealed'
      obtain ⟨rfl, rfl⟩ := ih rest'
      exact ⟨rfl, rfl⟩

/-- Stepping comes to an end, since each character found leaves less to show. -/
theorem runsOut_plain (t : Typewriter) : t.RunsOut (plain t.hidden) t.showAll := by
  induction measure : t.hidden.length using Nat.strongRecOn generalizing t with
  | ind length ih =>
    rcases t.step_cases with ⟨-, none, finished⟩ | ⟨tags, c, rest, -, -, hidden, found, revealed⟩
    · rw [none]
      exact .last finished
    · let u : Typewriter := ⟨t.shown ++ tags ++ [c], rest⟩
      have shorter : u.hidden.length < length := by
        rw [← measure, hidden]
        simp only [u, List.length_append, List.length_cons]
        omega
      have whole : u.showAll = t.showAll := by
        simp [showAll, total, u, hidden]
      rw [found, ← whole]
      exact .next revealed (ih _ shorter u rfl)

/-- What can be done to a typewriter. -/
inductive Press
  | clear
  | feed (text : List Char)
  | step
  | showAll

def press (t : Typewriter) : Press → Typewriter
  | .clear => .empty
  | .feed text => t.feed text
  | .step => t.step.2
  | .showAll => t.showAll

def pressAll (t : Typewriter) (presses : List Press) : Typewriter := presses.foldl press t

/-- What becomes of the whole text. -/
def Press.onto (text : List Char) : Press → List Char
  | clear => []
  | feed more => text ++ more
  | step => text
  | showAll => text

theorem total_press (t : Typewriter) (p : Press) : (t.press p).total = p.onto t.total := by
  cases p with
  | clear | feed => rfl
  | showAll => exact List.append_nil _
  | step =>
    rcases t.step_cases with ⟨-, -, finished⟩ | ⟨tags, c, rest, -, -, hidden, -, revealed⟩
    · simp [press, Press.onto, finished, showAll, total]
    · simp [press, Press.onto, revealed, total, hidden]

theorem total_pressAll (t : Typewriter) (presses : List Press) :
    (t.pressAll presses).total = presses.foldl Press.onto t.total := by
  induction presses generalizing t with
  | nil => rfl
  | cons p presses ih =>
    rw [List.foldl_cons, ← total_press]
    exact ih (t.press p)

end Typewriter
end Parley
