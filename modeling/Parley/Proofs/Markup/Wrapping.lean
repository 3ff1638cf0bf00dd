import Parley.Proofs.Markup.Styling
import Parley.Proofs.Markup.Typing

/-! How styled text is typed. The tags around a body come whole, so they cost no step, and a body
whose every `<` is closed is typed as it is without them. A `<` that the body leaves open is plain by
itself, but the first tag behind the body closes it: all from there on is then one tag, and none of
it is typed. -/
namespace Parley

namespace Markup

variable {body text : List Char}

/-- What stands behind a closed text does not change how it is typed. -/
theorem plain_append (closed : Closed text) (rest : List Char) :
    plain (text ++ rest) = plain text ++ plain rest := by
  induction text using plain_induction with
  | nil => rw [plain]; rfl
  | tag name more inside ih =>
    have later : Closed more :=
      @Closed.of_append ('<' :: name ++ ['>']) more (by simpa using closed)
    calc plain ('<' :: name ++ '>' :: more ++ rest)
        = plain ('<' :: name ++ '>' :: (more ++ rest)) := by simp
      _ = plain (more ++ rest) := plain_tag inside _
      _ = plain more ++ plain rest := ih later
      _ = plain ('<' :: name ++ '>' :: more) ++ plain rest := by rw [plain_tag inside]
  | char c more plainly ih =>
    obtain ⟨closes, later⟩ := closed_cons.mp closed
    -- A plain `<` would have to be closed within the text, where it is not.
    have other : c ≠ '<' := fun same => plainly same (closes same)
    have still : IsPlain c (more ++ rest) := fun same => absurd same other
    rw [List.cons_append, plain_cons still, plain_cons plainly, ih later]
    rfl

/-- Where nothing closes a tag there is none. -/
theorem plain_of_unclosed (unclosed : '>' ∉ text) : plain text = text := by
  induction text with
  | nil => rw [plain]
  | cons c rest ih =>
    have unclosed : '>' ∉ rest := fun later => unclosed (List.mem_cons_of_mem _ later)
    rw [plain_cons fun _ => unclosed, ih unclosed]

theorem closed_of_end (text : List Char) : Closed (text ++ ['>']) := by
  induction text with
  | nil => exact closed_of_free (by simp)
  | cons c text ih => exact closed_cons.mpr ⟨fun _ => by simp, ih⟩

/-- The text up to the first `<` that nothing closes. -/
def closedPart : List Char → List Char
  | [] => []
  | c :: rest => if c = '<' ∧ '>' ∉ rest then [] else c :: closedPart rest

theorem closing_mem_closedPart (closes : '>' ∈ text) : '>' ∈ closedPart text := by
  induction text with
  | nil => cases closes
  | cons c rest ih =>
    rcases List.mem_cons.mp closes with rfl | later
    · simp [closedPart]
    · simp [closedPart, later, ih later]

theorem closed_closedPart (text : List Char) : Closed (closedPart text) := by
  induction text with
  | nil => exact closed_nil
  | cons c rest ih =>
    rw [closedPart]
    split
    case isTrue => exact closed_nil
    case isFalse closes =>
      refine closed_cons.mpr ⟨fun same => ?_, ih⟩
      exact closing_mem_closedPart (Decidable.not_not.mp fun lost => closes ⟨same, lost⟩)

/-- A text is closed, or goes on behind its closed part with a `<` that nothing closes. -/
theorem closedPart_cases (text : List Char) :
    (Closed text ∧ closedPart text = text) ∨
      ∃ rest, text = closedPart text ++ '<' :: rest ∧ '>' ∉ rest := by
  induction text with
  | nil => exact .inl ⟨closed_nil, rfl⟩
  | cons c rest ih =>
    by_cases lost : c = '<' ∧ '>' ∉ rest
    · obtain ⟨rfl, unclosed⟩ := lost
      exact .inr ⟨rest, by simp [closedPart, unclosed], unclosed⟩
    · have step : closedPart (c :: rest) = c :: closedPart rest := if_neg lost
      rcases ih with ⟨closed, same⟩ | ⟨tail, whole, unclosed⟩
      · refine .inl ⟨closed_cons.mpr ⟨fun opens => ?_, closed⟩, by rw [step, same]⟩
        exact Decidable.not_not.mp fun unclosed => lost ⟨opens, unclosed⟩
      · refine .inr ⟨tail, ?_, unclosed⟩
        rw [step, List.cons_append, ← whole]

theorem not_closed_of_open (unclosed : '>' ∉ rest) : ¬Closed (text ++ '<' :: rest) :=
  fun closed => unclosed (closed text rest rfl)

section Wrap

variable {opening closing : String}

/-- The tag behind a text closes what the text left open. -/
theorem closed_wrap : Closed (wrap opening closing text) := closed_of_end _

theorem plain_wrap (front : '>' ∉ opening.toList) (back : '>' ∉ closing.toList) :
    plain (wrap opening closing text) = plain (closedPart text) := by
  have inside : '>' ∉ '/' :: closing.toList := by simp [back]
  have entered : plain (wrap opening closing text) =
      plain (text ++ ('<' :: ('/' :: closing.toList) ++ ['>'])) := by
    rw [wrap_eq, List.append_assoc]
    exact plain_tag front _
  rw [entered]
  rcases closedPart_cases text with ⟨closed, same⟩ | ⟨rest, whole, unclosed⟩
  · rw [plain_append closed, plain_tag inside, same, plain, List.append_nil]
  · have swallowed : '>' ∉ rest ++ '<' :: '/' :: closing.toList := by simp [unclosed, back]
    have joined : text ++ ('<' :: ('/' :: closing.toList) ++ ['>']) =
        closedPart text ++ ('<' :: (rest ++ '<' :: '/' :: closing.toList) ++ '>' :: []) := by
      conv_lhs => rw [whole]
      simp
    rw [joined, plain_append (closed_closedPart text), plain_tag swallowed, plain, List.append_nil]

end Wrap

/-- A text that tags were put around, or the body itself. -/
inductive Wrapped (body : List Char) : List Char → Prop
  | bare : Wrapped body body
  | tagged {text : List Char} (closed : Closed text)
      (typed : plain text = plain (closedPart body)) : Wrapped body text

namespace Wrapped

variable (wrapped : Wrapped body text)
include wrapped

theorem wrap {opening closing : String} (front : '>' ∉ opening.toList)
    (back : '>' ∉ closing.toList) : Wrapped body (Markup.wrap opening closing text) := by
  refine .tagged closed_wrap ?_
  cases wrapped with
  | bare => exact plain_wrap front back
  | tagged closed typed =>
    rcases closedPart_cases text with ⟨-, same⟩ | ⟨rest, whole, unclosed⟩
    · rw [plain_wrap front back, same, typed]
    · rw [whole] at closed
      exact absurd closed (not_closed_of_open unclosed)

theorem wrapIf (asked : Bool) (tag : String) (inside : '>' ∉ tag.toList) :
    Wrapped body (Markup.wrapIf asked tag text) := by
  cases asked with
  | true => exact wrapped.wrap inside inside
  | false => exact wrapped

theorem wrapWith (setting : Option String) (tag : String) (inside : '>' ∉ tag.toList)
    (value : ∀ v, setting = some v → '>' ∉ v.toList) :
    Wrapped body (Markup.wrapWith setting tag text) := by
  cases setting with
  | none => exact wrapped
  | some v => exact wrapped.wrap (by simp [inside, value v rfl]) inside

end Wrapped

theorem wrapped_style {settings : Presentation} {store : Store}
    (font : '>' ∉ (settings.font.resolve store).toList) :
    Wrapped body (style settings store body) := by
  have untouched : Wrapped body body := .bare
  have bold := untouched.wrapIf (settings.bold.resolve store) "b" (by decide)
  have italic := bold.wrapIf (settings.italic.resolve store) "i" (by decide)
  have underlined := italic.wrapIf (settings.underline.resolve store) "u" (by decide)
  have colored := underlined.wrapWith
    ((settings.color.resolveActive store).map Color.toText) "color" (by decide) fun v given => by
      obtain ⟨c, -, rfl⟩ := Option.map_eq_some_iff.mp given
      exact (bare_color c).closing
  refine colored.wrapWith _ "font" (by decide) fun v given => ?_
  obtain ⟨name, active, rfl⟩ := Option.map_eq_some_iff.mp given
  obtain ⟨-, resolved⟩ := Option.ite_none_right_eq_some.mp active
  obtain rfl := Option.some.inj resolved
  simp [font]

end Markup

open Markup in
/-- Styles cost no step just where every `<` of the body is closed or there are no styles at all: the
steps then report the same characters. Elsewhere those from the open `<` on are missing. -/
theorem styled_typed_as_body (settings : Presentation) (store : Store) (text : List Char)
    (font : '>' ∉ (settings.font.resolve store).toList) :
    let body := Typewriter.empty.feed text
    let styled := Typewriter.empty.feed (style settings store text)
    ∃ bare tagged, body.RunsOut bare body.showAll ∧ styled.RunsOut tagged styled.showAll ∧
      (tagged = bare ↔ Closed text ∨ style settings store text = text) ∧
      (tagged ≠ bare → ∃ front rest, text = front ++ '<' :: rest ∧ Closed front ∧ '>' ∉ rest ∧
        tagged = plain front ∧ bare = tagged ++ '<' :: rest) := by
  intro body styled
  refine ⟨plain text, plain (style settings store text), body.runsOut_plain,
    styled.runsOut_plain, ?_⟩
  have wrapped : Wrapped text (style settings store text) := wrapped_style font
  generalize style settings store text = out at wrapped
  cases wrapped with
  | bare => simp
  | tagged closed typed =>
    rcases closedPart_cases text with ⟨closed', same⟩ | ⟨rest, whole, unclosed⟩
    · rw [typed, same]
      simp [closed']
    · have typed' : plain text = plain (closedPart text) ++ '<' :: rest := by
        have tail : '>' ∉ '<' :: rest := by simp [unclosed]
        conv_lhs => rw [whole]
        rw [plain_append (closed_closedPart text), plain_of_unclosed tail]
      have left : ¬Closed text := by
        rw [whole]
        exact not_closed_of_open unclosed
      constructor
      · constructor
        · intro same
          rw [typed, typed'] at same
          simp at same
        · rintro (closed' | rfl)
          · exact absurd closed' left
          · exact absurd closed left
      · intro
        exact ⟨closedPart text, rest, whole, closed_closedPart text, unclosed, typed, typed ▸ typed'⟩

/-- In bold the `<` of the sum takes the tag behind it for its end, and two characters are lost. -/
theorem bold_swallows_plain :
    let settings : Presentation := { (default : Presentation) with bold := .fixed true }
    let body := Typewriter.empty.feed "1<2".toList
    let styled := Typewriter.empty.feed (Markup.style settings (.seed []) "1<2".toList)
    Markup.Bare (settings.font.resolve (.seed [])).toList ∧
      body.RunsOut ['1', '<', '2'] body.showAll ∧ styled.RunsOut ['1'] styled.showAll := by
  intro settings body styled
  refine ⟨⟨by decide, by decide⟩, ?_, ?_⟩
  · exact .next rfl (.next rfl (.next rfl (.last rfl)))
  · exact .next rfl (.last rfl)

namespace Story.Tavern

/-- The shout has every style there is, and takes as many steps as without any. -/
theorem shout_typed :
    let s := Session.ofGraph graph default
    let body := Typewriter.empty.feed shout.text.toList
    let styled := Typewriter.empty.feed (Markup.style shout.settings s.store shout.text.toList)
    '>' ∉ (shout.settings.font.resolve s.store).toList ∧ Markup.Closed shout.text.toList ∧
      ∃ cs, body.RunsOut cs body.showAll ∧ styled.RunsOut cs styled.showAll := by
  intro s body styled
  have font : '>' ∉ (shout.settings.font.resolve s.store).toList := by decide
  have closed : Markup.Closed shout.text.toList := by
    simp [shout, Markup.closed_cons, Markup.closed_nil]
  obtain ⟨cs, ds, plainly, decorated, same, -⟩ :=
    styled_typed_as_body shout.settings s.store shout.text.toList font
  obtain rfl := same.mpr (.inl closed)
  exact ⟨font, closed, ds, plainly, decorated⟩

end Story.Tavern

end Parley
