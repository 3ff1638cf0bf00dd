import Parley.Color
import Parley.Enumerated
import Parley.Variable.Bindable

/-! How a dialogue node is paced, styled and accompanied. Three plain flags are fixed when the node
is written; every other setting is a field that may follow a variable. -/
namespace Parley

inductive TextAlign
  | left
  | center
  | right
  | justified
deriving DecidableEq, Inhabited

/-- How the dialogue box appears or changes. -/
inductive BoxTransition
  | none
  | fadeIn
  | slideUp
  | slideDown
  | slideLeft
  | slideRight
  | expandHorizontal
  | expandVertical
deriving DecidableEq, Inhabited

/-- How one background image gives way to the next. -/
inductive BackgroundTransition
  | none
  | fadeOutAndIn
  | slideLeft
  | slideRight
  | slideUp
  | slideDown
deriving DecidableEq, Inhabited

instance : Enumerated TextAlign where
  family := "TextAlign"
  members := [.left, .center, .right, .justified]
  label
    | .left => "Left"
    | .center => "Center"
    | .right => "Right"
    | .justified => "Justified"

instance : Enumerated BoxTransition where
  family := "BoxTransition"
  members := [.none, .fadeIn, .slideUp, .slideDown, .slideLeft, .slideRight, .expandHorizontal,
    .expandVertical]
  label
    | .none => "None"
    | .fadeIn => "FadeIn"
    | .slideUp => "SlideUp"
    | .slideDown => "SlideDown"
    | .slideLeft => "SlideLeft"
    | .slideRight => "SlideRight"
    | .expandHorizontal => "ExpandHorizontal"
    | .expandVertical => "ExpandVertical"

instance : Enumerated BackgroundTransition where
  family := "BackgroundTransition"
  members := [.none, .fadeOutAndIn, .slideLeft, .slideRight, .slideUp, .slideDown]
  label
    | .none => "None"
    | .fadeOutAndIn => "FadeOutAndIn"
    | .slideLeft => "SlideLeft"
    | .slideRight => "SlideRight"
    | .slideUp => "SlideUp"
    | .slideDown => "SlideDown"

instance : Storable Color where

instance : Storable TextAlign where

instance : Storable BoxTransition where

instance : Storable BackgroundTransition where

structure Presentation where
  /-- Stop behind the revealed text until the host says to go on. -/
  awaitContinue : Bool
  /-- Wait for a click behind the revealed text. -/
  advanceOnClick : Bool
  /-- Append this node's text to what is on screen. -/
  keepPreviousText : Bool
  /-- Seconds between two characters. -/
  printSpeed : Bindable Binary64
  /-- Seconds before anything of the node is shown. -/
  preDelay : Bindable Binary64
  /-- A message for the host when the node is shown. -/
  broadcast : Bindable String
  bold : Bindable Bool
  italic : Bindable Bool
  underline : Bindable Bool
  color : Bindable Color
  font : Bindable String
  textAlign : Bindable TextAlign
  wrapText : Bindable Bool
  musicQueue : Bindable (List String)
  musicLoop : Bindable Bool
  musicShuffle : Bindable Bool
  sounds : Bindable (List String)
  boxTransition : Bindable BoxTransition
  boxColor : Bindable Color
  boxImage : Bindable String
  namePlateColor : Bindable Color
  namePlateImage : Bindable String
  background : Bindable String
  backgroundTransition : Bindable BackgroundTransition
deriving DecidableEq, Inhabited

/-- The variables that the settings name. -/
def Presentation.sources (p : Presentation) : List String :=
  [p.printSpeed.source?, p.preDelay.source?, p.broadcast.source?, p.bold.source?,
    p.italic.source?, p.underline.source?, p.color.source?, p.font.source?, p.textAlign.source?,
    p.wrapText.source?, p.musicQueue.source?, p.musicLoop.source?, p.musicShuffle.source?,
    p.sounds.source?, p.boxTransition.source?, p.boxColor.source?, p.boxImage.source?,
    p.namePlateColor.source?, p.namePlateImage.source?, p.background.source?,
    p.backgroundTransition.source?].filterMap fun s => s

end Parley
