import Parley.Proofs.Markup.Stripping
import Parley.Session.Basic
import Parley.Story.Tavern

/-! What styles do to the markup of a body. Where every `<` of a text is closed, its pieces stay what
they are whatever stands behind it, so stripping goes through each tag that settings put around it:
it drops the color and leaves the others. -/
namespace Parley

/-- The settings with their color switched off. -/
def Presentation.uncolored (p : Presentation) : Presentation :=
  { p with color := { p.color with active := false } }

namespace Markup

/-- Every `<` is followed by some `>`. -/
def Closed (text : List Char) : Prop := ∀ before after, text = before ++ '<' :: after → '>' ∈ after

/-- A text without angle brackets. -/
structure Bare (text : List Char) : Prop where
  opening : '<' ∉ text
  closing : '>' ∉ text

variable {text more name : List Char}

theorem closed_nil : Closed [] := by
  intro before after whole
  simp at whole

theorem closed_cons : Closed (c :: rest) ↔ (c = '<' → '>' ∈ rest) ∧ Closed rest := by
  constructor
  · intro closed
    constructor
    · rintro rfl
      exact closed [] rest rfl
    · rintro before after rfl
      exact closed (c :: before) after rfl
  · rintro ⟨first, closed⟩ before after whole
    cases before with
    | nil =>
      cases whole
      exact first rfl
    | cons _ before =>
      cases whole
      exact closed before after rfl

theorem Closed.append (first : Closed text) (second : Closed more) : Closed (text ++ more) := by
  induction text with
  | nil => exact second
  | cons c text ih =>
    obtain ⟨closes, first⟩ := closed_cons.mp first
    exact closed_cons.mpr ⟨fun same => List.mem_append_left _ (closes same), ih first⟩

theorem Closed.of_append (whole : Closed (text ++ more)) : Closed more := by
  rintro before after rfl
  exact whole (text ++ before) after (List.append_assoc ..).symm

theorem closed_of_free (free : '<' ∉ text) : Closed text := by
  rintro before after rfl
  simp at free

theorem closed_tag (bare : Bare name) : Closed ('<' :: name ++ ['>']) :=
  closed_cons.mpr ⟨fun _ => by simp, closed_of_free (by simp [bare.opening])⟩

/-- What stands behind a closed text does not change what is stripped from it. -/
theorem stripColors_append (closed : Closed text) (rest : List Char) :
    stripColors (text ++ rest) = stripColors text ++ stripColors rest := by
  induction text using strip_induction with
  | nil => rfl
  | tag name more inside color ih =>
    have later : Closed more :=
      @Closed.of_append ('<' :: name ++ ['>']) more (by simpa using closed)
    calc stripColors ('<' :: name ++ '>' :: more ++ rest)
        = stripColors ('<' :: name ++ '>' :: (more ++ rest)) := by simp
      _ = stripColors (more ++ rest) := stripColors_tag inside color _
      _ = stripColors more ++ stripColors rest := ih later
      _ = stripColors ('<' :: name ++ '>' :: more) ++ stripColors rest := by
        rw [stripColors_tag inside color]
  | char c more stays ih =>
    obtain ⟨closes, later⟩ := closed_cons.mp closed
    -- If this is a `<`, the `>` that ends its name is still within the text.
    have stays' : ¬(c = '<' ∧ opensColor (more ++ rest) = true) := by
      rintro ⟨same, opens⟩
      rw [opensColor_append (closes same)] at opens
      exact stays ⟨same, opens⟩
    rw [List.cons_append, stripColors_cons stays', stripColors_cons stays, ih later]
    rfl

theorem stripColors_free (free : '<' ∉ text) : stripColors text = text := by
  rw [stripColors_eq_self_iff]
  rintro ⟨before, name, after, rfl, -⟩
  simp at free

theorem stripColors_kept (bare : Bare name) (other : isColorName name = false) :
    stripColors ('<' :: name ++ ['>']) = '<' :: name ++ ['>'] := by
  have stays : ¬('<' = '<' ∧ opensColor (name ++ ['>']) = true) := by
    rw [opensColor_tag bare.closing, other]
    nofun
  rw [List.cons_append, stripColors_cons stays, stripColors_free (by simp [bare.opening])]

theorem stripColors_dropped (bare : Bare name) (color : isColorName name = true) :
    stripColors ('<' :: name ++ ['>']) = [] :=
  stripColors_tag bare.closing color []

theorem wrap_eq (opening closing : String) (text : List Char) :
    wrap opening closing text = ('<' :: opening.toList ++ ['>']) ++
      (text ++ ('<' :: ('/' :: closing.toList) ++ ['>'])) := by
  simp [wrap]

/-- No digit of a color, and nothing else in its text, is a bracket. -/
theorem bare_color (c : Color) : Bare c.toText.toList := by
  have digit : ∀ n < 16, Text.upperHex n ≠ '<' ∧ Text.upperHex n ≠ '>' := by decide
  have channel (channel : UInt8) : '<' ∉ Color.channelText channel ∧
      '>' ∉ Color.channelText channel := by
    have low := digit (channel.toNat % 16) (by omega)
    have high := digit (channel.toNat / 16) (by have := channel.toNat_lt; omega)
    simp [Color.channelText, low.1.symm, low.2.symm, high.1.symm, high.2.symm]
  constructor
  · simp [Color.toText, Color.hex, channel]
  · simp [Color.toText, Color.hex, channel]

/-- A closed text, and what stripping leaves of it. -/
structure StripsTo (text left : List Char) : Prop where
  closed : Closed text
  strips : stripColors text = left

namespace StripsTo

variable {left : List Char} (strips : StripsTo text left)
include strips

/-- The two tags around a text are stripped apart from it. -/
theorem wrap {opening closing : String} (front : Bare opening.toList)
    (back : Bare ('/' :: closing.toList)) :
    StripsTo (wrap opening closing text) (stripColors ('<' :: opening.toList ++ ['>']) ++
      (left ++ stripColors ('<' :: ('/' :: closing.toList) ++ ['>']))) := by
  rw [wrap_eq]
  constructor
  · exact (closed_tag front).append (strips.closed.append (closed_tag back))
  · rw [stripColors_append (closed_tag front), stripColors_append strips.closed, strips.strips]

theorem wrap_kept {opening closing : String} (front : Bare opening.toList)
    (back : Bare ('/' :: closing.toList)) (other : isColorName opening.toList = false)
    (other' : isColorName ('/' :: closing.toList) = false) :
    StripsTo (Markup.wrap opening closing text) (Markup.wrap opening closing left) := by
  have around := strips.wrap front back
  rwa [stripColors_kept front other, stripColors_kept back other', ← wrap_eq] at around

theorem wrap_dropped {opening closing : String} (front : Bare opening.toList)
    (back : Bare ('/' :: closing.toList)) (color : isColorName opening.toList = true)
    (color' : isColorName ('/' :: closing.toList) = true) :
    StripsTo (Markup.wrap opening closing text) left := by
  have around := strips.wrap front back
  rwa [stripColors_dropped front color, stripColors_dropped back color', List.nil_append,
    List.append_nil] at around

theorem wrapIf (asked : Bool) (tag : String) (letter : tag ∈ ["b", "i", "u"]) :
    StripsTo (Markup.wrapIf asked tag text) (Markup.wrapIf asked tag left) := by
  have letters : ∀ tag ∈ ["b", "i", "u"], '<' ∉ tag.toList ∧ '>' ∉ tag.toList ∧
      isColorName tag.toList = false ∧ isColorName ('/' :: tag.toList) = false := by decide
  obtain ⟨opening, closing, other, other'⟩ := letters tag letter
  cases asked with
  | true =>
    exact strips.wrap_kept ⟨opening, closing⟩ ⟨by simp [opening], by simp [closing]⟩ other other'
  | false => exact strips

theorem color (color : Option Color) :
    StripsTo (wrapWith (color.map Color.toText) "color" text) left := by
  cases color with
  | none => exact strips
  | some c =>
    have bare := bare_color c
    refine strips.wrap_dropped ⟨?_, ?_⟩ ⟨by decide, by decide⟩ ?_ (by decide)
    · simp [bare.opening]
    · simp [bare.closing]
    · simp [isColorName]

theorem font {font : Option String} (bare : ∀ name, font = some name → Bare name.toList) :
    StripsTo (wrapWith (font.map fun name => "\"" ++ name ++ "\"") "font" text)
      (wrapWith (font.map fun name => "\"" ++ name ++ "\"") "font" left) := by
  cases font with
  | none => exact strips
  | some name =>
    have bare := bare name rfl
    refine strips.wrap_kept ⟨?_, ?_⟩ ⟨by decide, by decide⟩ ?_ (by decide)
    · simp [bare.opening]
    · simp [bare.closing]
    · simp [isColorName, List.isPrefixOf]

/-- Each style around a text is stripped apart from it, whatever settings asked for it. -/
theorem style {settings : Presentation} {store : Store}
    (font : Bare (settings.font.resolve store).toList) :
    StripsTo (style settings store text) (style settings.uncolored store left) := by
  have bold := strips.wrapIf (settings.bold.resolve store) "b" (by simp)
  have italic := bold.wrapIf (settings.italic.resolve store) "i" (by simp)
  have underlined := italic.wrapIf (settings.underline.resolve store) "u" (by simp)
  have colored := underlined.color (settings.color.resolveActive store)
  refine colored.font ?_
  intro name active
  obtain ⟨-, resolved⟩ := Option.ite_none_right_eq_some.mp active
  exact Option.some.inj resolved ▸ font

end StripsTo

end Markup

/-- Stripping goes past the styles of a closed text to the text itself and takes off the color, so
where a shadow is drawn it is the body in all styles but the color. -/
theorem strip_style_eq_style_strip (settings : Presentation) (store : Store) (text : List Char)
    (closed : Markup.Closed text) (font : Markup.Bare (settings.font.resolve store).toList) :
    Markup.stripColors (Markup.style settings store text) =
        Markup.style settings.uncolored store (Markup.stripColors text) ∧
      ∀ (s : Session) (d : Dialogue), s.store = store → d.settings = settings →
        d.text.toList = text → ∀ shadow, (s.frame d).shadowText = some shadow →
          shadow = Markup.style settings.uncolored store (Markup.stripColors text) := by
  have strips : Markup.StripsTo text (Markup.stripColors text) := ⟨closed, rfl⟩
  have styled := (strips.style font).strips
  refine ⟨styled, ?_⟩
  rintro s d rfl rfl rfl shadow drawn
  obtain ⟨-, stripped⟩ := Option.ite_none_right_eq_some.mp drawn
  exact (Option.some.inj stripped).symm.trans styled

namespace Story.Tavern

/-- Everyone shouts at once, in every style there is. -/
def shout : Dialogue where
  id := "shout"
  next := none
  text := "<Hear<color> ye</Color>, <wave>all</wave>>!"
  settings := { (default : Presentation) with
    bold := .inactive true
    italic := .fixed true
    underline := .following "unset" true
    color := .fixed ⟨0xC8, 0xA0, 0x40⟩
    font := .fixed "Blackletter" }
  speakers := [keeper, patron true true]
  choices := []

/-- The shadow of the shout keeps every style and every other tag. -/
theorem shout_shadow :
    let s := Session.ofGraph graph default
    let shadow := Markup.style shout.settings.uncolored s.store
      "<Hear ye, <wave>all</wave>>!".toList
    Markup.Closed shout.text.toList ∧
      Markup.Bare (shout.settings.font.resolve s.store).toList ∧
      Markup.stripColors (Markup.style shout.settings s.store shout.text.toList) = shadow ∧
      (s.frame shout).shadowText = some shadow := by
  intro s shadow
  have closed : Markup.Closed shout.text.toList := by
    simp [shout, Markup.closed_cons, Markup.closed_nil]
  have font : Markup.Bare (shout.settings.font.resolve s.store).toList := ⟨by decide, by decide⟩
  have body : Markup.stripColors shout.text.toList = "<Hear ye, <wave>all</wave>>!".toList := by
    decide
  obtain ⟨styled, drawn⟩ := strip_style_eq_style_strip shout.settings s.store _ closed font
  rw [body] at styled drawn
  refine ⟨closed, font, styled, ?_⟩
  cases found : (s.frame shout).shadowText with
  | none => exact absurd found (by decide)
  | some _ => rw [drawn s shout rfl rfl rfl _ found]

end Story.Tavern

end Parley
