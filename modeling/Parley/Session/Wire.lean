import Parley.Json.Basic
import Parley.Session.Event
import Parley.Text.Quoted

/-! What hosts receive, as JSON, and cues as one line of text. Events and cues that carry nothing
are strings; the others are objects with one member, named after the event. -/
namespace Parley

/-- A name as JSON, for members of a family. -/
def Json.ofLabel [Enumerated α] (a : α) : Json := .string (Enumerated.label a)

def Json.ofColor (c : Color) : Json := .string c.toText

def Offer.toJson (o : Offer) : Json := .object [
  ("index", .nat o.index),
  ("text", .string o.text),
  ("enabled", .bool o.enabled),
  ("visible", .bool o.visible),
  ("next", .ofOption .string o.next)]

def TextLayout.toJson (l : TextLayout) : Json := .object [
  ("align", .ofOption .ofLabel l.align),
  ("wrap", .ofOption .bool l.wrap)]

def BoxStyle.toJson (b : BoxStyle) : Json := .object [
  ("transition", .ofLabel b.transition),
  ("box_color", .ofOption .ofColor b.boxColor),
  ("box_image", .ofOption .string b.boxImage),
  ("name_plate_color", .ofOption .ofColor b.namePlateColor),
  ("name_plate_image", .ofOption .string b.namePlateImage)]

def Frame.toJson (f : Frame) : Json := .object [
  ("node", .string f.node),
  ("speakers", .ofList .string f.speakers),
  ("text", .text f.text),
  ("keep_previous_text", .bool f.keepPreviousText),
  ("choices", .ofList Offer.toJson f.choices),
  ("layout", f.layout.toJson),
  ("box_style", f.boxStyle.toJson),
  ("text_shadow", .bool f.textShadow),
  ("shadow_text", .ofOption .text f.shadowText)]

namespace Cue

def name : Cue → String
  | broadcast _ => "Broadcast"
  | background .. => "Background"
  | musicQueue .. => "MusicQueue"
  | playSounds _ => "PlaySounds"
  | stopSounds => "StopSounds"
  | pauseMusic => "PauseMusic"
  | resumeMusic => "ResumeMusic"
  | resetAudio => "ResetAudio"

def toJson (c : Cue) : Json :=
  match c with
  | broadcast message => .tagged c.name (.string message)
  | background image transition =>
    .tagged c.name (.object [("image", .string image), ("transition", .ofLabel transition)])
  | musicQueue tracks looping shuffle =>
    .tagged c.name (.object [
      ("tracks", .ofList .string tracks),
      ("looping", .bool looping),
      ("shuffle", .bool shuffle)])
  | playSounds sounds => .tagged c.name (.ofList .string sounds)
  | _ => .string c.name

def quotedText (s : String) : String := String.ofList (Text.quoted s.toList)

def listText (items : List String) : String :=
  "[" ++ ", ".intercalate (items.map quotedText) ++ "]"

def boolText (b : Bool) : String := if b then "true" else "false"

/-- Named parts in braces. -/
def partsText (parts : List (String × String)) : String :=
  " \x7b " ++ ", ".intercalate (parts.map fun (name, value) => name ++ ": " ++ value) ++ " \x7d"

def toText (c : Cue) : String :=
  c.name ++ match c with
    | broadcast message => "(" ++ quotedText message ++ ")"
    | background image transition =>
      partsText [("image", quotedText image), ("transition", Enumerated.label transition)]
    | musicQueue tracks looping shuffle =>
      partsText [("tracks", listText tracks), ("looping", boolText looping),
        ("shuffle", boolText shuffle)]
    | playSounds sounds => "(" ++ listText sounds ++ ")"
    | _ => ""

end Cue

def Event.toJson : Event → Json
  | sessionStarted => .string "SessionStarted"
  | sessionEnded => .string "SessionEnded"
  | nodeEntered id => .tagged "NodeEntered" (.string id)
  | dialogueShown frame => .tagged "DialogueShown" frame.toJson
  | textCleared => .string "TextCleared"
  | textRevealed visible => .tagged "TextRevealed" (.text visible)
  | textCompleted node text =>
    .tagged "TextCompleted" (.object [("node", .string node), ("text", .text text)])
  | choiceSelected index next =>
    .tagged "ChoiceSelected" (.object [("index", .nat index), ("next", .ofOption .string next)])
  | held => .string "Held"
  | resumed => .string "Resumed"
  | stalled id => .tagged "Stalled" (.string id)
  | cue c => .tagged "Cue" c.toJson

end Parley
