import Parley.Graph.Offer

/-! What a session tells its host: how the play proceeds, what to draw, and what to do with sound
and scene. -/
namespace Parley

/-- Requests to the host's audio and scene. -/
inductive Cue
  | broadcast (message : String)
  | background (image : String) (transition : BackgroundTransition)
  | musicQueue (tracks : List String) (looping shuffle : Bool)
  | playSounds (sounds : List String)
  | stopSounds
  | pauseMusic
  | resumeMusic
  | resetAudio
deriving DecidableEq

/-- Departures from the host's own text layout. -/
structure TextLayout where
  align : Option TextAlign
  wrap : Option Bool
deriving DecidableEq

/-- The look of the dialogue box; what is missing is left to the host. -/
structure BoxStyle where
  transition : BoxTransition
  boxColor : Option Color
  boxImage : Option String
  namePlateColor : Option Color
  namePlateImage : Option String
deriving DecidableEq

/-- All that is needed to draw a dialogue node. -/
structure Frame where
  node : NodeId
  /-- The names of those who talk, question marks for hidden ones. -/
  speakers : List String
  /-- The styled body of this node alone. -/
  text : List Char
  keepPreviousText : Bool
  choices : List Offer
  layout : TextLayout
  boxStyle : BoxStyle
  textShadow : Bool
  /-- The body without color tags, if a shadow is drawn. -/
  shadowText : Option (List Char)
deriving DecidableEq

inductive Event
  | sessionStarted
  | sessionEnded
  | nodeEntered (id : NodeId)
  | dialogueShown (frame : Frame)
  | textCleared
  /-- The text visible after a reveal step. -/
  | textRevealed (visible : List Char)
  | textCompleted (node : NodeId) (text : List Char)
  | choiceSelected (index : Nat) (next : Option NodeId)
  | held
  | resumed
  /-- A splitter without a way on: nothing moves any more. -/
  | stalled (id : NodeId)
  | cue (cue : Cue)
deriving DecidableEq

end Parley
