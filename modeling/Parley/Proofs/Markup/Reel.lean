import Parley.Markup.Reel
import Parley.Proofs.Markup.Typing
import Parley.Proofs.Slice

/-! Typing by bytes. The cursor never comes to stand inside of a character, so no cut ever fails,
and what the bytes bring out is what the typewriter says: the plain characters one by one, each
behind the whole tags in front of it. -/
namespace Parley

namespace Reel

open Markup
open Typewriter (Press)

/-- What a typewriter holds, in bytes. -/
def ofTypewriter (t : Typewriter) : Reel := ⟨String.ofList t.total, String.utf8Len t.shown⟩

theorem visible?_ofTypewriter (t : Typewriter) :
    (ofTypewriter t).visible? = some (String.ofList t.shown) :=
  Text.slice?_front t.shown t.hidden

theorem rest?_ofTypewriter (t : Typewriter) :
    (ofTypewriter t).rest? = some (String.ofList t.hidden) :=
  Text.slice?_back t.shown t.hidden

/-- A step by the text ahead. -/
theorem step?_eq {r : Reel} (cut : r.rest? = some (String.ofList text)) :
    r.step? = match text with
      | [] => some (.finished, r)
      | c :: cs =>
        match if c = '<' then Text.find? '>' (c :: cs) else none with
        | some close => (r.forward (close + 1)).step?
        | none => some (.revealed c, r.forward c.utf8Size) := by
  rw [step?]
  split
  case h_1 none => cases none.symm.trans cut
  case h_2 rest found =>
    cases found.symm.trans cut
    split
    case h_1 ahead =>
      rw [String.toList_ofList] at ahead
      subst ahead
      rfl
    case h_2 c cs ahead =>
      rw [String.toList_ofList] at ahead
      subst ahead
      rfl

/-- To pass a text ahead is to show it. -/
theorem forward_ofTypewriter (shown passed rest : List Char) (bytes : String.utf8Len passed = n) :
    (ofTypewriter ⟨shown, passed ++ rest⟩).forward n = ofTypewriter ⟨shown ++ passed, rest⟩ := by
  simp [ofTypewriter, forward, Typewriter.total, ← bytes]

theorem step_tag (inside : '>' ∉ name) (shown rest : List Char) :
    Typewriter.step ⟨shown, '<' :: name ++ '>' :: rest⟩ =
      Typewriter.step ⟨shown ++ ('<' :: name ++ ['>']), rest⟩ := by
  unfold Typewriter.step
  simp only [Typewriter.passTags_tag inside]
  cases Typewriter.passTags false rest with
  | mk tags left =>
    cases left with
    | nil => simp
    | cons c left => simp

theorem step?_ofTypewriter (t : Typewriter) :
    (ofTypewriter t).step? = some (t.step.1, ofTypewriter t.step.2) := by
  obtain ⟨shown, hidden⟩ := t
  induction hidden using plain_induction generalizing shown with
  | nil =>
    rw [step?_eq (rest?_ofTypewriter _)]
    simp [Typewriter.step, Typewriter.passTags]
  | tag name rest inside ih =>
    have found : Text.find? '>' ('<' :: name ++ '>' :: rest) =
        some (String.utf8Len ('<' :: name)) :=
      Text.find?_of_mem (by simp [inside]) rest
    have bytes : String.utf8Len ('<' :: name ++ ['>']) = String.utf8Len ('<' :: name) + 1 := by
      rw [String.utf8Len_append]
      rfl
    have passed := forward_ofTypewriter shown ('<' :: name ++ ['>']) rest bytes
    have whole : '<' :: name ++ ['>'] ++ rest = '<' :: name ++ '>' :: rest := by simp
    rw [whole] at passed
    rw [step_tag inside, ← ih, ← passed, step?_eq (rest?_ofTypewriter _)]
    simp only [List.cons_append, if_pos] at found ⊢
    rw [found]
  | char c rest plainly =>
    have found : (if c = '<' then Text.find? '>' (c :: rest) else none) = none := by
      split
      case isTrue same =>
        subst same
        exact Text.find?_of_not_mem (by simpa using plainly rfl)
      case isFalse => rfl
    have passed := forward_ofTypewriter shown [c] rest (n := c.utf8Size) (by simp)
    rw [step?_eq (rest?_ofTypewriter _)]
    simp only [found]
    rw [show c :: rest = [c] ++ rest from rfl, passed]
    simp [Typewriter.step, Typewriter.passTags_plain plainly]

theorem feed_ofTypewriter (t : Typewriter) (text : List Char) :
    (ofTypewriter t).feed (String.ofList text) = ofTypewriter (t.feed text) := by
  simp [ofTypewriter, feed, Typewriter.feed, Typewriter.total, String.utf8ByteSize_ofList,
    String.append_assoc]

theorem showAll_ofTypewriter (t : Typewriter) :
    (ofTypewriter t).showAll = ofTypewriter t.showAll := by
  simp [ofTypewriter, showAll, Typewriter.showAll, Typewriter.total, String.utf8ByteSize_ofList]

/-- What is done to a reel. Only a step can fail. -/
def press? (r : Reel) : Press → Option Reel
  | .clear => some .empty
  | .feed text => some (r.feed (String.ofList text))
  | .step => r.step?.map Prod.snd
  | .showAll => some r.showAll

def pressAll? (r : Reel) (presses : List Press) : Option Reel := presses.foldlM press? r

theorem press?_ofTypewriter (t : Typewriter) (p : Press) :
    (ofTypewriter t).press? p = some (ofTypewriter (t.press p)) := by
  cases p with
  | clear => rfl
  | feed text => exact congrArg some (feed_ofTypewriter t text)
  | step =>
    rw [press?, step?_ofTypewriter]
    rfl
  | showAll => exact congrArg some (showAll_ofTypewriter t)

theorem pressAll?_ofTypewriter (t : Typewriter) (presses : List Press) :
    (ofTypewriter t).pressAll? presses = some (ofTypewriter (t.pressAll presses)) := by
  induction presses generalizing t with
  | nil => rfl
  | cons p presses ih =>
    rw [pressAll?, List.foldlM_cons, press?_ofTypewriter]
    exact ih (t.press p)

/-- Stepping up to the step that finds no more characters, with the characters reported before. -/
inductive RunsOut : Reel → List Char → Reel → Prop
  | last (finished : r.step? = some (.finished, q)) : RunsOut r [] q
  | next (revealed : r.step? = some (.revealed c, q)) (rest : RunsOut q cs p) :
    RunsOut r (c :: cs) p

theorem runsOut_of_typewriter {t u : Typewriter} (runs : t.RunsOut cs u) :
    (ofTypewriter t).RunsOut cs (ofTypewriter u) := by
  induction runs with
  | last finished => exact .last (by rw [step?_ofTypewriter, finished])
  | next revealed rest ih => exact .next (by rw [step?_ofTypewriter, revealed]) ih

theorem RunsOut.typewriter {t : Typewriter} (runs : (ofTypewriter t).RunsOut cs q) :
    ∃ u, q = ofTypewriter u ∧ t.RunsOut cs u := by
  generalize same : ofTypewriter t = r at runs
  induction runs generalizing t with
  | last finished =>
    subst same
    rw [step?_ofTypewriter] at finished
    cases step : t.step with
    | mk stroke u =>
      simp only [step] at finished
      cases finished
      exact ⟨u, rfl, .last step⟩
  | next revealed rest ih =>
    subst same
    rw [step?_ofTypewriter] at revealed
    cases step : t.step with
    | mk stroke u =>
      simp only [step] at revealed
      cases revealed
      obtain ⟨v, rfl, later⟩ := ih rfl
      exact ⟨v, rfl, .next step later⟩

/-- Stepping brings out the plain characters of what is hidden, and nothing else. -/
structure Exposes (r : Reel) (shown hidden : List Char) : Prop where
  boundary : String.Pos.Raw.IsValid r.total ⟨r.cursor⟩
  total : r.total = String.ofList (shown ++ hidden)
  visible : r.visible? = some (String.ofList shown)
  ends : r.RunsOut (plain hidden) r.showAll
  only : ∀ cs q, r.RunsOut cs q → cs = plain hidden ∧ q = r.showAll
  revealed : ∀ c q, r.step? = some (.revealed c, q) → ∃ tags rest, Tags tags ∧ IsPlain c rest ∧
    hidden = tags ++ c :: rest ∧ q.total = r.total ∧
    q.visible? = some (String.ofList (shown ++ tags ++ [c]))
  finished : ∀ q, r.step? = some (.finished, q) → Tags hidden ∧ q = r.showAll
  whole : r.showAll.visible? = some r.total
  still : r.showAll.step? = some (.finished, r.showAll)

theorem exposes_ofTypewriter (t : Typewriter) : (ofTypewriter t).Exposes t.shown t.hidden where
  boundary := String.Pos.Raw.isValid_eq_true_iff.mp (Text.isValid_append t.shown t.hidden)
  total := rfl
  visible := visible?_ofTypewriter t
  ends := by
    rw [showAll_ofTypewriter]
    exact runsOut_of_typewriter t.runsOut_plain
  only cs q runs := by
    obtain ⟨u, rfl, typed⟩ := runs.typewriter
    obtain ⟨rfl, rfl⟩ := typed.unique t.runsOut_plain
    exact ⟨rfl, (showAll_ofTypewriter t).symm⟩
  revealed c q stepped := by
    rw [step?_ofTypewriter] at stepped
    rcases t.step_cases with ⟨-, -, other⟩ | ⟨tags, _, rest, tagged, plainly, hidden, -, same⟩
    · rw [other] at stepped
      cases stepped
    · rw [same] at stepped
      cases stepped
      refine ⟨tags, rest, tagged, plainly, hidden, ?_, visible?_ofTypewriter _⟩
      simp [ofTypewriter, Typewriter.total, hidden]
  finished q stepped := by
    rw [step?_ofTypewriter] at stepped
    rcases t.step_cases with ⟨tagged, -, same⟩ | ⟨_, _, _, -, -, -, -, other⟩
    · rw [same] at stepped
      cases stepped
      exact ⟨tagged, (showAll_ofTypewriter t).symm⟩
    · rw [other] at stepped
      cases stepped
  whole := by
    rw [showAll_ofTypewriter]
    exact visible?_ofTypewriter t.showAll
  still := by
    rw [showAll_ofTypewriter, step?_ofTypewriter]
    rcases t.showAll.step_cases with ⟨-, -, same⟩ | ⟨tags, c, rest, -, -, hidden, -⟩
    · rw [same]
      simp [Typewriter.showAll, Typewriter.total]
    · cases tags <;> cases hidden

end Reel

/-- Whatever is done to a reel, no character is cut in two: the cursor stands between characters,
and on screen is a first part of what was fed since the reel was cleared last, the part that the
typewriter shows. Stepping brings out the rest: the plain characters one by one, each behind the
whole tags in front of it, up to the text that showing all at once gives. -/
theorem typing_exposes_plain (presses : List Typewriter.Press) :
    let t := Typewriter.empty.pressAll presses
    ∃ r, Reel.empty.pressAll? presses = some r ∧
      r.total = String.ofList (presses.foldl Typewriter.Press.onto []) ∧
      r.Exposes t.shown t.hidden := by
  intro t
  refine ⟨.ofTypewriter t, Reel.pressAll?_ofTypewriter .empty presses, ?_, ?_⟩
  · exact congrArg String.ofList (Typewriter.total_pressAll .empty presses)
  · exact Reel.exposes_ofTypewriter t

end Parley
