import Parley.Document.Variable
import Parley.Graph.Basic

/-! Nodes and graphs in documents. Nodes are listed, and written in increasing order of id. -/
namespace Parley

/-- Every setting may be left out. -/
def Presentation.codec : Codec Presentation := Schema.codec {
  name := "DialogueSettings"
  blank := default
  slots := [
    Codec.bool.slot "await_continue" Presentation.awaitContinue
      fun p x => { p with awaitContinue := x },
    Codec.bool.slot "advance_on_click" Presentation.advanceOnClick
      fun p x => { p with advanceOnClick := x },
    Codec.bool.slot "keep_previous_text" Presentation.keepPreviousText
      fun p x => { p with keepPreviousText := x },
    (Bindable.codec .float).slot "print_speed" Presentation.printSpeed
      fun p x => { p with printSpeed := x },
    (Bindable.codec .float).slot "pre_delay" Presentation.preDelay
      fun p x => { p with preDelay := x },
    (Bindable.codec .string).slot "broadcast" Presentation.broadcast
      fun p x => { p with broadcast := x },
    (Bindable.codec .bool).slot "bold" Presentation.bold fun p x => { p with bold := x },
    (Bindable.codec .bool).slot "italic" Presentation.italic fun p x => { p with italic := x },
    (Bindable.codec .bool).slot "underline" Presentation.underline
      fun p x => { p with underline := x },
    (Bindable.codec .color).slot "color" Presentation.color fun p x => { p with color := x },
    (Bindable.codec .string).slot "font" Presentation.font fun p x => { p with font := x },
    (Bindable.codec (.enumerated TextAlign)).slot "text_align" Presentation.textAlign
      fun p x => { p with textAlign := x },
    (Bindable.codec .bool).slot "wrap_text" Presentation.wrapText
      fun p x => { p with wrapText := x },
    (Bindable.codec Codec.string.list).slot "music_queue" Presentation.musicQueue
      fun p x => { p with musicQueue := x },
    (Bindable.codec .bool).slot "music_loop" Presentation.musicLoop
      fun p x => { p with musicLoop := x },
    (Bindable.codec .bool).slot "music_shuffle" Presentation.musicShuffle
      fun p x => { p with musicShuffle := x },
    (Bindable.codec Codec.string.list).slot "sounds" Presentation.sounds
      fun p x => { p with sounds := x },
    (Bindable.codec (.enumerated BoxTransition)).slot "box_transition" Presentation.boxTransition
      fun p x => { p with boxTransition := x },
    (Bindable.codec .color).slot "box_color" Presentation.boxColor
      fun p x => { p with boxColor := x },
    (Bindable.codec .string).slot "box_image" Presentation.boxImage
      fun p x => { p with boxImage := x },
    (Bindable.codec .color).slot "name_plate_color" Presentation.namePlateColor
      fun p x => { p with namePlateColor := x },
    (Bindable.codec .string).slot "name_plate_image" Presentation.namePlateImage
      fun p x => { p with namePlateImage := x },
    (Bindable.codec .string).slot "background" Presentation.background
      fun p x => { p with background := x },
    (Bindable.codec (.enumerated BackgroundTransition)).slot "background_transition"
      Presentation.backgroundTransition fun p x => { p with backgroundTransition := x }] }

def Speaker.codec : Codec Speaker := Schema.codec {
  name := "Speaker"
  blank := default
  slots := [
    (Bindable.codec .string).slot "name" Speaker.name fun s x => { s with name := x },
    (Bindable.codec .bool).slot "talking" Speaker.talking fun s x => { s with talking := x },
    (Bindable.codec .bool).slot "hide_name" Speaker.hideName fun s x => { s with hideName := x }] }

def NodeId.codec : Codec NodeId := .string

def Choice.codec : Codec Choice := Schema.codec {
  name := "Choice"
  blank := default
  slots := [
    (Bindable.codec .string).slot "text" Choice.text fun c x => { c with text := x },
    Condition.codec.list.slot "conditions" Choice.conditions fun c x => { c with conditions := x },
    (Bindable.codec .bool).slot "show_if_unmet" Choice.showIfUnmet
      fun c x => { c with showIfUnmet := x },
    NodeId.codec.option.slot "next" Choice.next fun c x => { c with next := x }] }

/-- Of a dialogue node, as of any other, only the id must be there. -/
def Dialogue.codec : Codec Dialogue := Schema.codec {
  name := "DialogueNode"
  blank := default
  slots := [
    NodeId.codec.slot "id" Dialogue.id (fun d x => { d with id := x }) true,
    NodeId.codec.option.slot "next" Dialogue.next fun d x => { d with next := x },
    Codec.string.slot "text" Dialogue.text fun d x => { d with text := x },
    Presentation.codec.slot "settings" Dialogue.settings fun d x => { d with settings := x },
    Speaker.codec.list.slot "speakers" Dialogue.speakers fun d x => { d with speakers := x },
    Choice.codec.list.slot "choices" Dialogue.choices fun d x => { d with choices := x }] }

def Branch.codec : Codec Branch := Schema.codec {
  name := "SplitterBranch"
  blank := default
  slots := [
    Condition.codec.list.slot "conditions" Branch.conditions fun b x => { b with conditions := x },
    NodeId.codec.option.slot "next" Branch.next fun b x => { b with next := x }] }

def Splitter.codec : Codec Splitter := Schema.codec {
  name := "SplitterNode"
  blank := default
  slots := [
    NodeId.codec.slot "id" Splitter.id (fun s x => { s with id := x }) true,
    Branch.codec.list.slot "branches" Splitter.branches fun s x => { s with branches := x },
    NodeId.codec.option.slot "default" Splitter.fallback fun s x => { s with fallback := x }] }

def Interrupt.codec : Codec Interrupt := Schema.codec {
  name := "InterruptNode"
  blank := default
  slots := [
    NodeId.codec.slot "id" Interrupt.id (fun i x => { i with id := x }) true,
    NodeId.codec.option.slot "next" Interrupt.next fun i x => { i with next := x }] }

def Node.codec : Codec Node := .ofVariants "Node" [
  Dialogue.codec.variant "Dialogue" .dialogue fun
    | .dialogue d => some d
    | _ => none,
  Splitter.codec.variant "Splitter" .splitter fun
    | .splitter s => some s
    | _ => none,
  Interrupt.codec.variant "Interrupt" .interrupt fun
    | .interrupt i => some i
    | _ => none]

/-- Rules that are left out allow fast advance and nothing else. -/
def PlayRules.codec : Codec PlayRules := Schema.codec {
  name := "GraphSettings"
  blank := default
  slots := [
    Codec.bool.slot "allow_escape" PlayRules.allowEscape fun r x => { r with allowEscape := x },
    Codec.bool.slot "allow_fast_advance" PlayRules.allowFastAdvance
      fun r x => { r with allowFastAdvance := x },
    Codec.bool.slot "text_shadow_on_multiple_speakers" PlayRules.textShadowOnMultipleSpeakers
      fun r x => { r with textShadowOnMultipleSpeakers := x },
    (Codec.enumerated BoxTransition).slot "box_transition" PlayRules.boxTransition
      fun r x => { r with boxTransition := x }] }

def Graph.codec : Codec Graph := Schema.codec {
  name := "Graph"
  blank := default
  slots := [
    NodeId.codec.option.slot "entry" Graph.entry fun g x => { g with entry := x },
    PlayRules.codec.slot "settings" Graph.rules fun g x => { g with rules := x },
    Variable.codec.list.slot "variables" Graph.declarations
      fun g x => { g with declarations := x },
    Node.codec.list.slot "nodes" Graph.nodeList fun g x => { g with nodes := .ofList x }] }

end Parley
