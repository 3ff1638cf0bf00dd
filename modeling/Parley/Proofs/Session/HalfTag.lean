import Parley.Proofs.Markup.Wrapping
import Parley.Proofs.Session.Screen

/-! When a tag is seen in halves. What was on screen before a text is fed stays there, and the text is
then shown piece by piece, so no tag within one text is ever cut. A `<` that an earlier text left open
was plain when it was shown; a later text that holds a `>` makes a tag of it, of which the first half
is on screen until that `>` is. -/
namespace Parley

namespace Markup

theorem closed_append_iff (closed : Closed more) :
    Closed (text ++ more) ↔ Closed text ∨ '>' ∈ more := by
  induction text with
  | nil => simp [closed, closed_nil]
  | cons c text ih =>
    rw [List.cons_append, closed_cons, closed_cons, ih, List.mem_append]
    constructor
    · rintro ⟨first, later | within⟩
      · by_cases closes : '>' ∈ more
        · exact .inr closes
        · exact .inl ⟨fun same => (first same).resolve_right closes, later⟩
      · exact .inr within
    · rintro (⟨first, later⟩ | within)
      · exact ⟨fun same => .inl (first same), .inl later⟩
      · exact ⟨fun _ => .inr within, .inr within⟩

theorem closed_of_tags (tags : Tags text) : Closed text := by
  induction tags with
  | nil => exact closed_nil
  | @next name tags inside more ih =>
    have whole : '<' :: name ++ '>' :: tags = ('<' :: name ++ ['>']) ++ tags := by simp
    rw [whole]
    exact (closed_of_end _).append ih

end Markup

open Markup

namespace Typewriter

/-- A `<` is on screen, the `>` that closes it in the whole text is not. -/
def HasPartialTag (t : Typewriter) : Prop :=
  ∃ before after rest, t.shown = before ++ '<' :: after ∧ '>' ∉ after ∧
    t.total = before ++ '<' :: rest ∧ '>' ∈ rest

theorem hasPartialTag_iff {t : Typewriter} :
    t.HasPartialTag ↔ ¬Closed t.shown ∧ '>' ∈ t.hidden := by
  constructor
  · rintro ⟨before, after, rest, shown, unclosed, whole, closes⟩
    have rest_eq : after ++ t.hidden = rest := by
      rw [total, shown] at whole
      simpa using whole
    rw [← rest_eq] at closes
    rw [shown]
    exact ⟨not_closed_of_open unclosed, (List.mem_append.mp closes).resolve_left unclosed⟩
  · rintro ⟨open_, closes⟩
    rcases closedPart_cases t.shown with ⟨closed, -⟩ | ⟨after, shown, unclosed⟩
    · exact absurd closed open_
    · refine ⟨closedPart t.shown, after, after ++ t.hidden, shown, unclosed, ?_, by simp [closes]⟩
      rw [total]
      conv_lhs => rw [shown]
      simp

/-- The text that was there when the last one was fed, and the last one. -/
structure Layers where
  kept : List Char
  fed : List Char

def Layers.press (l : Layers) : Press → Layers
  | .clear => ⟨[], []⟩
  | .feed text => ⟨l.kept ++ l.fed, text⟩
  | .step | .showAll => l

/-- All that was kept is on screen, and a piece of the last text. The piece ends inside no tag: where
a `>` is still to come, every `<` of the piece is closed. -/
structure Cut (t : Typewriter) (l : Layers) (piece : List Char) : Prop where
  shown : t.shown = l.kept ++ piece
  rest : piece ++ t.hidden = l.fed
  between : '>' ∈ t.hidden → Closed piece

namespace Cut

theorem empty : Typewriter.empty.Cut ⟨[], []⟩ [] := ⟨rfl, rfl, fun _ => closed_nil⟩

variable {l : Layers} {t : Typewriter} {piece : List Char} (cut : t.Cut l piece)
include cut

theorem total : t.total = l.kept ++ l.fed := by
  rw [Typewriter.total, cut.shown, List.append_assoc, cut.rest]

theorem showAll : t.showAll.Cut l l.fed where
  shown := cut.total
  rest := List.append_nil _
  between := nofun

theorem step : ∃ piece', t.step.2.Cut l piece' := by
  rcases t.step_cases with ⟨-, -, finished⟩ | ⟨tags, c, rest, tagged, plainly, hidden, -, revealed⟩
  · rw [finished]
    exact ⟨l.fed, cut.showAll⟩
  · rw [revealed]
    refine ⟨piece ++ tags ++ [c], ?_, ?_, fun closes => ?_⟩
    · simp [cut.shown]
    · simp [← cut.rest, hidden]
    · have closes' : '>' ∈ t.hidden := by simp [hidden, closes]
      -- With a `>` still to come, the plain character is no `<`.
      have other : c ≠ '<' := fun same => plainly same closes
      have last : Closed [c] := closed_of_free (by simp [Ne.symm other])
      exact ((cut.between closes').append (closed_of_tags tagged)).append last

theorem press (p : Press) : ∃ piece', (t.press p).Cut (l.press p) piece' := by
  cases p with
  | clear => exact ⟨[], .empty⟩
  | feed text => exact ⟨[], by simp [Typewriter.press, feed, Layers.press, cut.total], rfl,
      fun _ => closed_nil⟩
  | step => exact cut.step
  | showAll => exact ⟨l.fed, cut.showAll⟩

theorem pressAll (presses : List Press) :
    ∃ piece', (t.pressAll presses).Cut (presses.foldl Layers.press l) piece' := by
  induction presses generalizing l t piece with
  | nil => exact ⟨piece, cut⟩
  | cons p presses ih =>
    obtain ⟨_, pressed⟩ := cut.press p
    exact ih pressed

/-- A half of a tag is on screen just where a `<` was kept open and the last text, which has a `>`,
has not shown one yet. -/
theorem hasPartialTag_iff :
    t.HasPartialTag ↔ ¬Closed l.kept ∧ '>' ∉ piece ∧ '>' ∈ t.hidden := by
  rw [Typewriter.hasPartialTag_iff, cut.shown]
  constructor
  · rintro ⟨left, closes⟩
    obtain ⟨kept, piece⟩ := not_or.mp (mt (closed_append_iff (cut.between closes)).mpr left)
    exact ⟨kept, piece, closes⟩
  · rintro ⟨kept, piece, closes⟩
    exact ⟨mt (closed_append_iff (cut.between closes)).mp (not_or.mpr ⟨kept, piece⟩), closes⟩

end Cut

end Typewriter

/-- Frames one behind the other: the texts of all but the last, and the text of the last. -/
def layersOf (frames : List Frame) : Typewriter.Layers :=
  frames.foldl (fun l frame => l.press (.feed frame.text)) ⟨[], []⟩

theorem layersOf_append (frames : List Frame) (frame : Frame) :
    layersOf (frames ++ [frame]) = (layersOf frames).press (.feed frame.text) :=
  List.foldl_append

theorem framesOn_quiet (quiet : ∀ e ∈ es, e.clearsText = false ∧ e.frame? = none)
    (stream : List Event) : framesOn (stream ++ es) = framesOn stream := by
  have none : es.filterMap Event.frame? = [] :=
    List.filterMap_eq_nil_iff.mpr fun e listed => (quiet e listed).2
  rw [framesOn_append fun e listed => (quiet e listed).1, none, List.append_nil]

/-- What a session has on screen ends between two pieces of its last frame. -/
def Layered (stream : List Event) (s : Session) : Prop :=
  s.phase ≠ .idle → ∃ piece, s.typewriter.Cut (layersOf (framesOn stream)) piece

namespace Layered

variable {s t : Session}

theorem bare (none : framesOn stream = []) (empty : s.typewriter = .empty) : Layered stream s := by
  intro _
  rw [none, empty]
  exact ⟨[], .empty⟩

theorem carry (kept : Layered past s) (active : t.phase ≠ .idle → s.phase ≠ .idle)
    (typewriter : t.typewriter = s.typewriter)
    (quiet : ∀ e ∈ es, e.clearsText = false ∧ e.frame? = none) : Layered (past ++ es) t := by
  intro playing
  rw [framesOn_quiet quiet, typewriter]
  exact kept (active playing)

theorem press (kept : Layered past s) (active : s.phase ≠ .idle) (p : Typewriter.Press)
    (layers : layersOf (framesOn (past ++ es)) = (layersOf (framesOn past)).press p)
    (typewriter : t.typewriter = s.typewriter.press p) : Layered (past ++ es) t := by
  intro _
  obtain ⟨piece, cut⟩ := kept active
  rw [layers, typewriter]
  exact cut.press p

/-- A frame is put behind those before it, and its text behind theirs. -/
theorem setUp (kept : Layered past s) (active : s.phase ≠ .idle) (d : Dialogue) :
    Layered (past ++ s.openingEvents d) (s.opened d) := by
  have lasts : ∀ e ∈ s.openingEvents d, e.clearsText = false := by
    intro e listed
    rcases Session.mem_openingEvents listed with rfl | ⟨c, rfl⟩
    · rfl
    · rfl
  refine kept.press active (.feed (s.frame d).text) ?_ rfl
  rw [framesOn_append lasts, Session.filterMap_openingEvents fun _ => rfl]
  exact layersOf_append _ _

theorem arrive (kept : Layered past s) (active : s.phase ≠ .idle) (id : NodeId) (d : Dialogue) :
    Layered (past ++ Session.arrivalEvents id d) ({ s with position := some id }.arrived id d) := by
  have frames := framesOn_arrival id d past
  rw [Session.arrived_eq]
  by_cases keeps : d.settings.keepPreviousText = true
  · rw [if_pos keeps] at frames
    intro _
    rw [frames]
    show ∃ piece, (if d.settings.keepPreviousText then s.typewriter else .empty).Cut _ piece
    rw [if_pos keeps]
    exact kept active
  · rw [if_neg keeps] at frames
    exact .bare frames (if_neg keeps)

end Layered

theorem Situation.active (here : Situation a s) (moving : a ≠ .resting) : s.phase ≠ .idle := by
  cases here with
  | speaking phase => exact phase ▸ Dialogue.phase_ne_idle _
  | leaving phase => simp [phase]
  | _ => exact absurd rfl moving

theorem Leg.layered (leg : Leg a s es b t) (here : Situation a s) (kept : Layered past s) :
    Layered (past ++ es) t := by
  cases leg with
  | clock | write | release | press => exact kept.carry id rfl (by simp)
  | autoAdvance on => cases on <;> exact kept.carry id rfl (by simp)
  | resumeMusic => exact kept.carry id rfl (by simp [Event.clearsText, Event.frame?])
  | pressOn waits =>
    exact kept.carry (by simp [waits.running]) rfl (by simp [Event.clearsText, Event.frame?])
  | hold active | depart active =>
    exact kept.carry (fun _ => Phase.ne_idle active) rfl
      (by simp [Event.clearsText, Event.frame?])
  | resume held =>
    exact kept.carry (by simp [held]) rfl (by simp [Event.clearsText, Event.frame?])
  | choose running =>
    exact kept.carry (by simp [running]) rfl (by simp [Event.clearsText, Event.frame?])
  | finish active | ended _ active =>
    rw [Session.finish_of_active active]
    exact fun playing => absurd rfl playing
  | start =>
    refine .bare ?_ rfl
    rw [framesOn, List.append_cons, stretch_cut rfl (by simp)]
    rfl
  | setUp delaying =>
    obtain ⟨-, -, running, -⟩ := here.of_delaying delaying
    exact kept.setUp (by simp [running]) _
  | speak => exact kept.carry id rfl (by simp)
  | showAll =>
    refine kept.press (here.active (by simp)) .showAll ?_ rfl
    rw [List.append_nil]
    rfl
  | stroke shown =>
    obtain ⟨speed, stroked⟩ := Session.stroked_eq s _
    refine kept.press (here.active (by simp)) .step ?_ ?_
    · rw [framesOn_quiet (by simp [Event.clearsText, Event.frame?])]
      rfl
    · rw [stroked, Typewriter.press, shown]
      rfl
  | stay | pause | pass | halt | stall =>
    exact kept.carry (fun _ => here.active (by simp)) rfl (by simp [Event.clearsText, Event.frame?])
  | arrive landed found => exact kept.arrive (here.active (by simp)) _ _

theorem layered_after (graph : Graph) (pacing : Pacing) (ops : List Operation) :
    Layered ((Session.ofGraph graph pacing).stream ops)
      ((Session.ofGraph graph pacing).after ops) :=
  holds_after (I := fun past _ s => Layered past s) (fun _ kept => kept)
    (fun here leg kept => leg.layered here kept) (fun active => absurd rfl active) ops

/-- Whatever is done to a typewriter, half of a tag is on screen just where an earlier text left a `<`
open and the last text has a `>` and has not shown one yet. In a session these are the texts of the
frames since the text was last cleared. -/
theorem partial_tag_iff_left_open (presses : List Typewriter.Press) (graph : Graph)
    (pacing : Pacing) (ops : List Operation) :
    (let t := Typewriter.empty.pressAll presses
      let l := presses.foldl Typewriter.Layers.press ⟨[], []⟩
      ∃ piece, t.shown = l.kept ++ piece ∧ piece ++ t.hidden = l.fed ∧
        (t.HasPartialTag ↔ ¬Closed l.kept ∧ '>' ∉ piece ∧ '>' ∈ t.hidden)) ∧
      let s := (Session.ofGraph graph pacing).after ops
      let l := layersOf (framesOn ((Session.ofGraph graph pacing).stream ops))
      if s.phase = .idle then s.visibleText = []
      else ∃ piece, s.visibleText = l.kept ++ piece ∧ piece ++ s.typewriter.hidden = l.fed ∧
        (s.typewriter.HasPartialTag ↔
          ¬Closed l.kept ∧ '>' ∉ piece ∧ '>' ∈ s.typewriter.hidden) := by
  constructor
  · intro t l
    obtain ⟨piece, cut⟩ := Typewriter.Cut.empty.pressAll presses
    exact ⟨piece, cut.shown, cut.rest, cut.hasPartialTag_iff⟩
  · intro s l
    split
    case isTrue idle =>
      have silent := ((situation_after graph pacing ops).of_idle idle).2.2.2
      exact congrArg Typewriter.shown silent
    case isFalse active =>
      obtain ⟨piece, cut⟩ := layered_after graph pacing ops active
      exact ⟨piece, cut.shown, cut.rest, cut.hasPartialTag_iff⟩

/-- A sum that holds a plain `<`, and one that is appended to it. -/
def sumsGraph : Graph :=
  .ofNodes (some "sum")
    [.dialogue { (default : Dialogue) with id := "sum", next := some "other", text := "1<2" },
      .dialogue { (default : Dialogue) with
        id := "other"
        text := ", 3>2"
        settings := { (default : Presentation) with keepPreviousText := true } }]

/-- The second sum makes a tag of the first one, which is on screen already. -/
theorem sums_cut_tag :
    let s := (Session.ofGraph sumsGraph default).after
      [.start, .tick .zero, .input .skip, .tick .zero]
    s.visibleText = "1<2,".toList ∧ s.typewriter.total = "1<2, 3>2".toList ∧
      s.typewriter.HasPartialTag := by
  intro s
  have stands : s.visibleText = "1<2,".toList ∧ s.typewriter.total = "1<2, 3>2".toList := by
    decide +kernel
  obtain ⟨shown, whole⟩ := stands
  exact ⟨shown, whole, ['1'], "2,".toList, "2, 3>2".toList, shown, by decide, whole, by decide⟩

end Parley
