import Parley.Proofs.Session.Speed
import Parley.Story.Tavern

/-! Which speed a session types at. It is that of the node with an active speed of which a character
came last, or that of the pacing if there was none since all was reset; and a node of which no
character comes has no say in it. -/
namespace Parley

theorem lastFrame?_of_framesOn (frames : framesOn stream = earlier ++ [last]) :
    lastFrame? stream = some last := by
  have cut : (stream.reverse.dropWhile fun e => !e.clearsText).reverse ++
      stretch Event.clearsText stream = stream := by
    rw [stretch, ← List.reverse_append, List.takeWhile_append_dropWhile, List.reverse_reverse]
  rw [← cut, lastFrame?_append]
  show (framesOn stream).getLast?.or _ = _
  rw [frames, List.getLast?_append]
  rfl

/-- Whether an event leaves the speed of typing as it is, given those before it. -/
def Spares (g : Graph) (past : List Event) : Event → Prop
  | .cue .resetAudio => False
  | .textRevealed _ => ∀ f d, lastFrame? past = some f → g.dialogue? f.node = some d →
      d.settings.printSpeed.active = false
  | _ => True

/-- None of the events that come next changes the speed. -/
def SparesSpeed (g : Graph) (past es : List Event) : Prop :=
  Throughout (fun before => Spares g (past ++ before)) es

namespace SparesSpeed

theorem left (spares : SparesSpeed g past (es ++ fs)) : SparesSpeed g past es := by
  intro before e after split
  exact spares before e (after ++ fs) (by rw [split, List.append_assoc, List.cons_append])

theorem right (spares : SparesSpeed g past (es ++ fs)) : SparesSpeed g (past ++ es) fs := by
  intro before e after split
  rw [List.append_assoc]
  exact spares (es ++ before) e after (by rw [split, List.append_assoc])

end SparesSpeed

/-- The speed changes with a reset, and with a character of a node that has an active one. -/
theorem Leg.speed_kept (leg : Leg a s es b t) (here : Situation a s) (shows : Shows past a s)
    (spares : SparesSpeed s.graph past es) : t.printSpeed = s.printSpeed := by
  cases leg with
  | autoAdvance on => cases on <;> rfl
  | finish | start | ended => cases spares [] _ _ rfl
  | stroke shown =>
    cases here with
    | speaking phase current tasks choices =>
      obtain ⟨earlier, last, piece, frames, position, -⟩ := shows.telling (.inl rfl)
      have own := current
      rw [Session.currentDialogue?, position] at own
      have passive := spares [] _ _ rfl last _
        (by rw [List.append_nil]; exact lastFrame?_of_framesOn frames) own
      rw [Session.stroked_speed current, Bindable.resolveActive, passive]
      rfl
  | arrive landed found =>
    rw [Session.arrived_eq]
    rfl
  | _ => rfl

/-- Behind the start of a stream, the speed stays what it was for as long as nothing changes it. -/
structure Session.LastsSince (g : Graph) (origin : List Event) (speed : Binary64)
    (stream : List Event) (s : Session) : Prop where
  graph : s.graph = g
  lasts : ∃ es, stream = origin ++ es ∧ (SparesSpeed g origin es → s.printSpeed = speed)

theorem Leg.lastsSince (leg : Leg a s es b t) (here : Situation a s) (shows : Shows past a s)
    (kept : s.LastsSince g origin speed past) : t.LastsSince g origin speed (past ++ es) := by
  obtain ⟨fs, rfl, lasts⟩ := kept.lasts
  refine ⟨leg.fixed.1.trans kept.graph, fs ++ es, List.append_assoc origin fs es, fun spares => ?_⟩
  have stays := leg.speed_kept here shows (kept.graph.symm ▸ spares.right)
  exact stays.trans (lasts spares.left)

theorem Session.speed_kept {s : Session} (here : Situation .resting s)
    (shows : Shows (past ++ s.events.toList) .resting s) (ops : List Operation)
    (goes : past ++ s.stream ops = past ++ s.events.toList ++ es)
    (spares : SparesSpeed s.graph (past ++ s.events.toList) es) :
    (s.after ops).printSpeed = s.printSpeed := by
  let origin := past ++ s.events.toList
  have began : s.LastsSince s.graph origin s.printSpeed origin :=
    ⟨rfl, [], (List.append_nil origin).symm, fun _ => rfl⟩
  obtain ⟨-, -, -, fs, same, lasts⟩ := run_induction
    (I := fun stream a t => Shows stream a t ∧ t.LastsSince s.graph origin s.printSpeed stream)
    (fun _ kept => ⟨kept.1.carry rfl rfl rfl rfl, kept.2.graph, kept.2.lasts⟩)
    (fun here leg kept => ⟨leg.shows here kept.1, leg.lastsSince here kept.1 kept.2⟩)
    here ⟨shows, began⟩ ops
  cases List.append_cancel_left (goes.symm.trans same)
  exact lasts spares

/-- In every run, an operation that shows a node with an active speed, and neither shows another one
nor resets all behind it, leaves the session at that speed, as the variables then stand, if there is
a character to be typed in the text; and the session keeps its speed for as long as nothing is reset
and characters come of nodes without an active speed only. -/
theorem active_speed_lasts (graph : Graph) (pacing : Pacing) (ops : List Operation) :
    let first := Session.ofGraph graph pacing
    let s := first.after ops
    (∀ op before f later d,
      s.newEvents (s.perform op).2 = before ++ .dialogueShown f :: later →
      (∀ e ∈ later, e.keepsPace = true) → graph.dialogue? f.node = some d →
      d.settings.printSpeed.active = true → Markup.plain f.text ≠ [] →
      (s.perform op).2.printSpeed = d.settings.printSpeed.resolve (s.perform op).2.store) ∧
    ∀ more es, first.stream (ops ++ more) = first.stream ops ++ es →
      SparesSpeed graph (first.stream ops) es →
      (first.after (ops ++ more)).printSpeed = s.printSpeed := by
  intro first s
  have here := situation_after graph pacing ops
  have fixed := (fixed_after graph pacing ops).1
  constructor
  · intro op before f later d told kept found active plain
    rcases Session.paces_perform here op with ⟨es, paces⟩ | none
    · have same : s.newEvents (s.perform op).2 = es := by
        rw [Session.newEvents, paces.events]
        exact List.drop_left' s.events.length_toList
      exact (paces.adopts before f later d (same.symm.trans told) kept (fixed.symm ▸ found) active
        plain).speed
    · exact absurd (none.symm.trans told) (by simp)
  · intro more es goes spares
    obtain ⟨past, now, later⟩ := first.exists_stream ops
    have shows := shows_after graph pacing ops
    rw [now] at shows
    rw [later, now] at goes
    rw [now, ← fixed] at spares
    rw [Session.after_append]
    exact Session.speed_kept here shows more goes spares

/-- A node that is to bring in a speed of its own, and has nothing to say. -/
def blank : Dialogue :=
  { (default : Dialogue) with
    id := "blank"
    settings := { (default : Presentation) with
      advanceOnClick := true
      printSpeed := .fixed (.ofRatio false 1 10) } }

/-- Shown and complete, the node has not brought its speed in. -/
theorem blank_loses_speed :
    let s := (Session.ofGraph (.ofNodes (some "blank") [.dialogue blank]) default).after [.start]
    let t := (s.perform (.tick .zero)).2
    s.newEvents t = [.dialogueShown (s.frame blank), .textCompleted "blank" []] ∧
      t.printSpeed = (default : Pacing).printSpeed ∧
      t.printSpeed ≠ blank.settings.printSpeed.resolve t.store := by
  decide +kernel

namespace Story.Tavern

def unhurried : Binary64 := .ofRatio false 1 20

/-- The greeting follows the variable, and the question behind it has no speed of its own. -/
theorem unhurried_lasts :
    let first := Session.ofGraph graph default
    let entering := [.start, .write "typing_speed" (.float unhurried)]
    let greeting := entering ++ [.tick (.ofMillis 530)]
    let asking := greeting ++ [.input .skip, .tick .zero]
    (first.after entering).printSpeed ≠ unhurried ∧
      (first.after greeting).printSpeed = unhurried ∧
      (first.after asking).position = some "ask" ∧ (first.after asking).isTyping = true ∧
      (first.after asking).printSpeed = unhurried := by
  intro first entering greeting asking
  let s := first.after entering
  have told : s.newEvents (s.perform (.tick (.ofMillis 530))).2 =
      [.cue (.background "tavern_interior" .fadeOutAndIn)] ++ .dialogueShown (s.frame greet) ::
        [.cue (.musicQueue ["lute_loop", "crowd_murmur"] true false), .textRevealed ['W']] := by
    decide +kernel
  have adopted := (active_speed_lasts graph default entering).1 _ _ _ _ _ told
    (by simp [Event.keepsPace]) (show _ = some greet by decide +kernel) rfl (by decide +kernel)
  have greets : (first.after greeting).printSpeed = unhurried := by
    rw [Session.after_append, Session.after_cons, Session.after_nil, adopted]
    decide +kernel
  let asked := s.frame ask
  let quiet : List Event :=
    [.textCompleted "greet" greet.text.toList, .cue .stopSounds, .nodeEntered "ask",
      .dialogueShown asked]
  have goes : first.stream asking =
      first.stream greeting ++ (quiet ++ [.textRevealed (greet.text ++ "<i>W").toList]) := by
    decide +kernel
  have latest : lastFrame? (first.stream greeting ++ quiet) = some asked := by decide +kernel
  have node : graph.dialogue? asked.node = some ask := by decide +kernel
  have spares : SparesSpeed graph (first.stream greeting)
      (quiet ++ [.textRevealed (greet.text ++ "<i>W").toList]) := by
    refine Throughout.snoc (Throughout.append_free .nil ?_) fun f d shown found => ?_
    · simp [Spares]
    · cases latest.symm.trans shown
      cases node.symm.trans found
      rfl
  have lasts := (active_speed_lasts graph default greeting).2 _ _ goes spares
  exact ⟨by decide +kernel, greets, by decide +kernel, by decide +kernel, lasts.trans greets⟩

end Story.Tavern
end Parley
