import Parley.Presentation

/-! Rich text: the tags that settings put around a body, and text without its color tags. A tag
runs from a `<` to the next `>`. -/
namespace Parley.Markup

/-- The text between the tags `<opening>` and `</closing>`. -/
def wrap (opening closing : String) (text : List Char) : List Char :=
  '<' :: opening.toList ++ '>' :: text ++ '<' :: '/' :: closing.toList ++ ['>']

def wrapIf (asked : Bool) (tag : String) (text : List Char) : List Char :=
  if asked then wrap tag tag text else text

def wrapWith (setting : Option String) (tag : String) (text : List Char) : List Char :=
  match setting with
  | some value => wrap (tag ++ "=" ++ value) tag text
  | none => text

/-- A body in the tags its settings ask for, bold innermost and the font outermost. Bold, italic
and underline count whether or not they are active, color and font only if they are. -/
def style (settings : Presentation) (store : Store) (text : List Char) : List Char :=
  let bold := wrapIf (settings.bold.resolve store) "b" text
  let italic := wrapIf (settings.italic.resolve store) "i" bold
  let underlined := wrapIf (settings.underline.resolve store) "u" italic
  let colored := wrapWith ((settings.color.resolveActive store).map Color.toText) "color" underlined
  wrapWith ((settings.font.resolveActive store).map fun f => "\"" ++ f ++ "\"") "font" colored

/-- Whether the inside of a tag makes it a color tag, in any case of ASCII letters. -/
def isColorName (inside : List Char) : Bool :=
  let name := match inside with
    | '/' :: rest => rest
    | all => all
  let lowered := name.map Char.toLower
  lowered == "color".toList || "color=".toList.isPrefixOf lowered

/-- Whether the text behind a `<` closes a color tag. -/
def opensColor (behind : List Char) : Bool :=
  behind.contains '>' && isColorName (behind.takeWhile (· ≠ '>'))

/-- Drop color tags, from inside one if `inTag` is set. -/
def stripFrom (inTag : Bool) : List Char → List Char
  | [] => []
  | c :: rest =>
    if inTag then stripFrom (c ≠ '>') rest
    else if c = '<' ∧ opensColor rest then stripFrom true rest
    else c :: stripFrom false rest

/-- Text without its color tags; all else stays. -/
def stripColors (text : List Char) : List Char := stripFrom false text

end Parley.Markup
