import Parley.Proofs.Session.Later
import Parley.Proofs.Session.Ticking
import Parley.Proofs.Session.Visit
import Parley.Story.Tavern

/-! To skip the rest of a text is to wait for it: both ways lead to the same place, and only the
clock and the speed of typing tell them apart. -/
namespace Parley

/-- Events that tell of one more character. -/
def Event.isStroke : Event → Bool
  | textRevealed _ => true
  | _ => false

namespace Session

/-- The events of a later session that an earlier one does not have. -/
def newEvents (s t : Session) : List Event := t.events.toList.drop s.events.size

theorem newEvents_eq {s t : Session} (appended : t.events = s.events ++ new) :
    s.newEvents t = Array.toList new := by
  simp [newEvents, appended]

/-- The planned character falls due, and nothing else happens. -/
def Types (s t : Session) : Prop :=
  ∃ limit rest, s.timetable.take? limit = some (.reveal, rest) ∧
    t = { s with timetable := rest }.runTask .reveal

/-- Character after character falls due, until the text is reported complete. -/
inductive WaitsOut : Session → Session → Prop
  | last (types : s.Types t) (complete : ∃ e ∈ s.newEvents t, e.isCompletion = true) :
    WaitsOut s t
  | next (types : s.Types t) (incomplete : ∀ e ∈ s.newEvents t, e.isCompletion = false)
      (later : WaitsOut t u) : WaitsOut s u

/-- Sessions that differ in the clock, the speed of typing and the events to be fetched, and in
nothing else: what is pending in one is pending in the other, and as far ahead unless its due time
is cut off. -/
structure SameButPace (s t : Session) : Prop where
  same : t = { s with
    timetable := t.timetable, events := t.events, printSpeed := t.printSpeed }
  kinds : t.timetable.tasks.map Task.kind = s.timetable.tasks.map Task.kind
  remaining : ∀ kind ahead, s.timetable.remaining? kind = some ahead →
    t.timetable.now.Fits ahead → t.timetable.remaining? kind = some ahead

theorem Types.unique {s t u : Session} (first : s.Types t) (second : s.Types u) : t = u := by
  obtain ⟨limit, rest, taken, rfl⟩ := first
  obtain ⟨limit', rest', taken', rfl⟩ := second
  -- What is taken by the earlier limit is taken by the later one.
  have same : rest = rest' := by
    rcases Nat.le_total limit.nanos limit'.nanos with sooner | sooner
    · cases (Timetable.take?_mono sooner taken).symm.trans taken'
      rfl
    · cases (Timetable.take?_mono sooner taken').symm.trans taken
      rfl
  rw [same]

theorem WaitsOut.unique {s t u : Session} (first : s.WaitsOut t) (second : s.WaitsOut u) :
    t = u := by
  induction first with
  | last types complete =>
    cases second with
    | last types' => exact types.unique types'
    | next types' incomplete =>
      cases types.unique types'
      obtain ⟨e, listed, completes⟩ := complete
      cases completes.symm.trans (incomplete e listed)
  | next types incomplete later ih =>
    cases second with
    | last types' complete =>
      cases types.unique types'
      obtain ⟨e, listed, completes⟩ := complete
      cases completes.symm.trans (incomplete e listed)
    | next types' incomplete' later' =>
      cases types.unique types'
      exact ih later'

section Speed

variable (s : Session) (speed : Binary64)

def typingAt : Session := { s with printSpeed := speed }

theorem typingAt_finish : ∃ x, (s.typingAt speed).finish = s.finish.typingAt x := by
  by_cases idle : s.phase = .idle
  · have same : s.finish = s := if_pos idle
    have same' : (s.typingAt speed).finish = s.typingAt speed := if_pos idle
    exact ⟨speed, by rw [same, same']⟩
  · rw [finish_of_active idle, finish_of_active (s := s.typingAt speed) idle]
    exact ⟨s.pacing.printSpeed, rfl⟩

theorem typingAt_enterDialogue (id : NodeId) :
    ∃ x, (s.typingAt speed).enterDialogue id = (s.enterDialogue id).typingAt x := by
  cases found : s.graph.dialogue? id with
  | none =>
    rw [enterDialogue_of_none found, enterDialogue_of_none (s := s.typingAt speed) found]
    exact typingAt_finish s speed
  | some d =>
    rw [enterDialogue_eq found, enterDialogue_eq (s := s.typingAt speed) found, arrived_eq,
      arrived_eq]
    exact ⟨speed, rfl⟩

theorem typingAt_land (landing : Landing) :
    ∃ x, (s.typingAt speed).land landing = (s.land landing).typingAt x := by
  cases landing with
  | ended => exact typingAt_finish { s with position := none } speed
  | dialogue id => exact typingAt_enterDialogue { s with position := some id } speed id
  | hold id => exact ⟨speed, rfl⟩
  | stalled id => exact ⟨speed, rfl⟩

theorem typingAt_goNext : ∃ x, (s.typingAt speed).goNext = s.goNext.typingAt x :=
  typingAt_land (s.cue .stopSounds).leaveNode speed _

theorem typingAt_completeText :
    ∃ x, (s.typingAt speed).completeText = s.completeText.typingAt x := by
  cases current : s.currentDialogue? with
  | none =>
    rw [completeText_of_none current, completeText_of_none (s := s.typingAt speed) current]
    exact ⟨speed, rfl⟩
  | some d =>
    rw [completeText_eq current, completeText_eq (s := s.typingAt speed) current]
    show ∃ x, (if s.phase = .awaiting ∨ d.choices ≠ [] then (s.told d).typingAt speed
      else if s.autoAdvance then
        if s.nextKeepsText d then ((s.told d).typingAt speed).goNext
        else ((s.told d).typingAt speed).schedule .autoAdvance s.pacing.autoAdvanceInterval
      else if d.settings.advanceOnClick = false ∨ s.fastForward = true then
        ((s.told d).typingAt speed).goNext
      else (s.told d).typingAt speed) = _
    split
    · exact ⟨speed, rfl⟩
    · split
      · split
        · exact typingAt_goNext _ speed
        · exact ⟨speed, rfl⟩
      · split
        · exact typingAt_goNext _ speed
        · exact ⟨speed, rfl⟩

end Speed

theorem completeText_tells {s : Session} (current : s.currentDialogue? = some d) :
    ∃ new, s.completeText.events = s.events ++ new ∧
      ∃ e ∈ Array.toList new, e.isCompletion = true := by
  have told : (s.told d).events = s.events ++ #[.textCompleted d.id s.visibleText] :=
    Array.push_eq_append
  have completes (later : Array Event) :
      ∃ e ∈ Array.toList (#[.textCompleted d.id s.visibleText] ++ later),
        Event.isCompletion e = true :=
    ⟨.textCompleted d.id s.visibleText, by simp, rfl⟩
  rcases completeText_cases current with stays | pauses | goes
  · rw [stays]
    exact ⟨_, told, completes #[]⟩
  · rw [pauses]
    exact ⟨_, told, completes #[]⟩
  · have passes := appends_of_told Retelling.session_goNext (s.told d)
    refine ⟨_, ?_, completes (s.told d).quiet.goNext.events⟩
    rw [goes, passes, told, Array.append_assoc]

/-- The whole text is shown, at some time and speed and behind some more events. -/
def shownBy (s : Session) (clock : Duration) (speed : Binary64) (new : Array Event) : Session :=
  { s with
    timetable := ⟨clock, []⟩
    typewriter := s.typewriter.showAll
    printSpeed := speed
    events := s.events ++ new }

/-- When the planned character falls due, it is shown and leaves less to show, or there is none and
the text is complete. -/
theorem types_cases {s : Session} (tasks : s.timetable.tasks = [⟨.reveal, due⟩]) :
    s.Types (s.shownBy (max s.timetable.now due) s.printSpeed #[]).completeText ∨
      ∃ u speed next, u.total = s.typewriter.total ∧
        u.hidden.length < s.typewriter.hidden.length ∧
        s.Types { s with
          timetable := ⟨max s.timetable.now due, [⟨.reveal, next⟩]⟩
          typewriter := u
          printSpeed := speed
          events := s.events ++ #[.textRevealed u.shown] } := by
  let stands := { s with timetable := ⟨max s.timetable.now due, []⟩ }
  have types : s.Types stands.revealStep :=
    ⟨due, _, (Timetable.take?_of_single tasks due).trans (if_pos (Nat.le_refl _)), rfl⟩
  rcases stepped : s.typewriter.step with ⟨stroke, u⟩
  have step : stands.typewriter.step = (stroke, u) := stepped
  unfold revealStep at types
  rw [step] at types
  cases stroke with
  | finished =>
    cases Typewriter.step_finished stepped
    have same : { stands with typewriter := s.typewriter.showAll } =
        s.shownBy (max s.timetable.now due) s.printSpeed #[] := by
      rw [shownBy, Array.append_empty]
    exact .inl (same ▸ types)
  | revealed c =>
    obtain ⟨piece, filled, shown, left⟩ := Typewriter.step_revealed stepped
    obtain ⟨speed, stroked⟩ := stroked_eq stands u
    have shorter : u.hidden.length < s.typewriter.hidden.length := by
      have nonempty := List.length_pos_iff.mpr filled
      rw [← left, List.length_append]
      omega
    have struck : s.Types (stands.stroked u) := types
    rw [stroked, emit, Array.push_eq_append] at struck
    exact .inr ⟨u, speed, _, Typewriter.total_of_piece shown left, shorter, struck⟩

/-- Every character shortens the hidden text, so the wait comes to an end. -/
theorem exists_waitsOut {s : Session} (current : s.currentDialogue? = some d)
    (tasks : s.timetable.tasks = [⟨.reveal, due⟩]) :
    ∃ clock speed new, s.timetable.now ≤ clock ∧
      (∀ e ∈ Array.toList new, Event.isStroke e = true) ∧
      s.WaitsOut (s.shownBy clock speed new).completeText := by
  induction hidden : s.typewriter.hidden.length using Nat.strongRecOn generalizing s due with
  | ind length ih =>
    have later : s.timetable.now ≤ max s.timetable.now due := Duration.le_max_left _ _
    rcases types_cases tasks with types | ⟨u, speed, next, total, shorter, types⟩
    · refine ⟨_, _, #[], later, by simp, .last types ?_⟩
      obtain ⟨new, appended, complete⟩ := completeText_tells
        (s := s.shownBy (max s.timetable.now due) s.printSpeed #[]) current
      have same : (s.shownBy (max s.timetable.now due) s.printSpeed #[]).events = s.events :=
        Array.append_empty
      rw [same] at appended
      rw [newEvents_eq appended]
      exact complete
    · obtain ⟨clock, speed', new, after, strokes, waits⟩ := ih u.hidden.length (hidden ▸ shorter)
        (s := { s with
          timetable := ⟨max s.timetable.now due, [⟨.reveal, next⟩]⟩
          typewriter := u
          printSpeed := speed
          events := s.events ++ #[.textRevealed u.shown] }) current rfl rfl
      refine ⟨clock, speed', #[.textRevealed u.shown] ++ new, Nat.le_trans later after, ?_,
        .next types ?_ ?_⟩
      · simpa [Event.isStroke] using strokes
      · rw [newEvents_eq rfl]
        simp [Event.isCompletion]
      · have whole : u.showAll = s.typewriter.showAll := by
          rw [Typewriter.showAll, Typewriter.showAll, total]
        simpa only [shownBy, whole, Array.append_assoc] using waits

theorem finishReveal_eq {s : Session} (tasks : s.timetable.tasks = [⟨.reveal, due⟩]) :
    s.finishReveal = (s.shownBy s.timetable.now s.printSpeed #[]).completeText := by
  have none := Timetable.tasks_cancel_of_single tasks
  have timetable : s.timetable.cancel .reveal = ⟨s.timetable.now, []⟩ := by
    rw [← none]
    rfl
  unfold finishReveal
  rw [shownBy, Array.append_empty, cancel, timetable]

/-- What follows the end of a text is the same at a later time and another speed. -/
theorem completeText_shownBy (s : Session) {clock : Duration} (later : s.timetable.now ≤ clock)
    (speed : Binary64) (new : Array Event) :
    let skipped := (s.shownBy s.timetable.now s.printSpeed #[]).completeText
    let waited := (s.shownBy clock speed new).completeText
    skipped.SameButPace waited ∧ ∃ es, skipped.events = s.events ++ es ∧
      waited.events = s.events ++ (new ++ es) := by
  intro skipped waited
  let shown := s.shownBy s.timetable.now s.printSpeed #[]
  let span := clock - s.timetable.now
  have reached : s.timetable.now + span = clock := Duration.add_sub_of_le later
  have moves : s.shownBy clock speed new =
      (shown.moved span (s.events ++ new)).typingAt speed := by
    simp only [shownBy, shown, moved, typingAt, Timetable.retime, reached, List.map_nil]
  obtain ⟨x, typed⟩ := typingAt_completeText (shown.moved span (s.events ++ new)) speed
  rw [moved_of_told Retelling.session_completeText, ← moves] at typed
  have same : waited = (skipped.moved span
      (s.events ++ new ++ shown.quiet.completeText.events)).typingAt x := typed
  have now : skipped.timetable.now = s.timetable.now := (steady_completeText shown).now
  have timetable : waited.timetable = skipped.timetable.retime (· + span) :=
    congrArg Session.timetable same
  refine ⟨⟨?_, ?_, ?_⟩, shown.quiet.completeText.events, ?_, ?_⟩
  · rw [same]
    rfl
  · rw [timetable]
    simp only [Timetable.retime, List.map_map, Function.comp_def]
  · intro kind ahead planned fits
    rw [timetable] at fits ⊢
    have within : skipped.timetable.now.Fits span := now ▸ Duration.fits_sub later
    exact Timetable.remaining?_retime within planned fits
  · have appends := appends_of_told Retelling.session_completeText shown
    rw [show shown.events = s.events from Array.append_empty] at appends
    exact appends
  · rw [← Array.append_assoc]
    exact congrArg Session.events same

end Session

/-- To skip the rest of a text is to wait until its characters have all fallen due. The wait comes
to an end, and there is one end only: it differs from the skip in the clock and the speed of typing
alone, and has told the same but for the characters. -/
theorem skip_waits_out {s : Session} (reached : s = (Session.ofGraph graph pacing).after ops)
    (accepts : s.acceptsPlayerInput = true) (typing : s.isTyping = true) :
    ∃ skipped, s.perform (.input .skip) = (.accepted true, skipped) ∧
      (∃ waited, s.WaitsOut waited) ∧
      ∀ waited, s.WaitsOut waited →
        skipped.SameButPace waited ∧
          ∃ told heard, skipped.events.toList = s.events.toList ++ told ∧
            waited.events.toList = s.events.toList ++ heard ∧
            heard.filter (fun e => !e.isStroke) = told.filter (fun e => !e.isStroke) := by
  have here := situation_after graph pacing ops
  rw [← reached] at here
  obtain ⟨d, due, store, -, current, tasks, -⟩ := here.of_typing typing
  obtain ⟨clock, speed, strokes, later, silent, ends⟩ := Session.exists_waitsOut current tasks
  have skips : s.perform (.input .skip) = (.accepted true, s.finishReveal) := by
    have accepted : s.skip? = some s.finishReveal := if_pos ⟨accepts, typing⟩
    simp only [Session.perform, Session.respond?, accepted, Session.answer]
  refine ⟨s.finishReveal, skips, ⟨_, ends⟩, fun waited waits => ?_⟩
  cases ends.unique waits
  obtain ⟨alike, es, skipped, waited⟩ := Session.completeText_shownBy s later speed strokes
  rw [Session.finishReveal_eq tasks]
  refine ⟨alike, es.toList, strokes.toList ++ es.toList, ?_, ?_, ?_⟩
  · rw [skipped, Array.toList_append]
  · rw [waited, Array.toList_append, Array.toList_append]
  · have none : strokes.toList.filter (fun e => !e.isStroke) = [] := by
      simpa using silent
    rw [List.filter_append, none, List.nil_append]

namespace Story.Tavern

/-- An ale is being poured, behind which a splitter decides how the guest is spoken to. -/
def pouring : Session :=
  (Session.ofGraph graph default).after
    [.start, .tick (.ofMillis 530), .input .skip, .tick .zero, .input .skip, .input (.choose 0),
      .tick (.ofMillis 40)]

/-- Skipped or heard to the end, the ale is followed by the same remark. -/
theorem pouring_waits_out :
    pouring.acceptsPlayerInput = true ∧ pouring.isTyping = true ∧
      pouring.visibleText ≠ pouring.typewriter.total ∧
      ∃ skipped, pouring.perform (.input .skip) = (.accepted true, skipped) ∧
        skipped.position = some "newcomer" ∧
        ∃ waited, pouring.WaitsOut waited ∧ skipped.SameButPace waited := by
  have accepts : pouring.acceptsPlayerInput = true := by decide +kernel
  have typing : pouring.isTyping = true := by decide +kernel
  obtain ⟨skipped, skips, ⟨waited, waits⟩, alike⟩ :=
    skip_waits_out (s := pouring) rfl accepts typing
  have partly : pouring.visibleText ≠ pouring.typewriter.total := by decide +kernel
  have stands : (pouring.perform (.input .skip)).2.position = some "newcomer" := by decide +kernel
  rw [skips] at stands
  exact ⟨accepts, typing, partly, skipped, skips, stands, waited, waits, (alike waited waits).1⟩

end Story.Tavern
end Parley
