import Parley.Proofs.Session.Unread
import Parley.Proofs.Session.Writing

/-! The variables of a session are its declarations and the writes that the host was granted since
the last start, whichever of its four ways in a write has taken. -/
namespace Parley

namespace Session

variable {s : Session}

theorem start_store (s : Session) : s.start.store = .seed s.graph.declarations := by
  let landing := s.begun.graph.travel s.begun.store s.begun.graph.entry
  have kept : (s.begun.land landing).store = s.begun.store :=
    store_of_reading (f := fun s => s.land landing) (reading_land (.refl _ _) landing)
  exact kept

end Session

namespace Deck

/-- What an act may do to a deck. -/
structure Respects (read? : String → Option Json) (d : Deck) (act : Act)
    (answer : Option Reply × Deck) : Prop where
  /-- Declined, it changes nothing at all. -/
  declined : Declined answer.1 → answer.2 = d
  /-- A write is granted where it keeps the kind of a variable. -/
  grants : ∀ v, Asks read? d.store act v →
    (answer.1 = some (.accepted true) ↔ d.store.kind? v.name = some v.value.kind)
  /-- A write that is granted changes one variable, and nothing but variables. -/
  granted : ∀ v, Asks read? d.store act v → answer.1 = some (.accepted true) →
    answer.2 = { d with store := answer.2.store } ∧
      answer.2.store.value? v.name = some v.value ∧
        ∀ other ≠ v.name, answer.2.store.value? other = d.store.value? other
  /-- What can be read as no value for its variable is declined. -/
  unread : (∀ v, ¬Asks read? d.store act v) → (∀ op, act ≠ .play op) → Declined answer.1
  /-- Without a write to grant, only a start changes variables. -/
  played : (∀ v, ¬Asks read? d.store act v) → act ≠ .play .start → answer.2.store = d.store

/-- How the writes granted since the last start go on when an act is replied to. -/
inductive Notes (read? : String → Option Json) (d : Deck) :
    Act → Option Reply → List Variable → List Variable → Prop
  | start : Notes read? d (.play .start) reply ledger []
  | granted (asks : Asks read? d.store act v) :
    Notes read? d act (some (.accepted true)) ledger (ledger ++ [v])
  | declined (declined : Declined reply) : Notes read? d act reply ledger ledger
  | unasked (unasked : ∀ v, ¬Asks read? d.store act v) (other : act ≠ .play .start) :
    Notes read? d act reply ledger ledger

/-- A run of acts, with the writes granted since the last start at either end. -/
inductive Keeps (read? : String → Option Json) :
    Deck → List Variable → List Act → Deck → List Variable → Prop
  | done : Keeps read? d ledger [] d ledger
  | act (notes : Notes read? d act ((act.on read?).run d).1 ledger noted)
      (rest : Keeps read? ((act.on read?).run d).2 noted acts e last) :
    Keeps read? d ledger (act :: acts) e last

variable {d e : Deck} {read? : String → Option Json} {act : Act} {ledger noted : List Variable}

/-- A deck between two acts. -/
structure Rests (d : Deck) : Prop where
  shows : d.Shows d.session
  here : Situation .resting d.session

theorem rests_ofGraph (graph : Graph) (pacing : Pacing) : (Deck.ofGraph graph pacing).Rests :=
  ⟨shows_ofGraph graph pacing, situation_ofGraph graph pacing⟩

theorem Rests.perform (rests : d.Rests) (op : Operation) :
    ((Deck.perform op).run d).2.Rests ∧
      ((Deck.perform op).run d).2.graph = d.graph ∧
        (op.rewrites = false → ((Deck.perform op).run d).2.store = d.store) := by
  obtain ⟨-, same, off⟩ := rests.shows.perform rests.here op
  generalize (Deck.perform op).run d = answer at same off ⊢
  have graph : answer.2.graph = answer.2.session.graph := rfl
  have store : answer.2.store = answer.2.session.store := rfl
  refine ⟨⟨⟨rfl, off⟩, ?_⟩, ?_, fun keeps => ?_⟩
  · rw [same]
    exact Session.perform_situation rests.here op
  · rw [graph, same]
    exact Session.perform_graph rests.here op
  · rw [store, same]
    exact Session.store_perform rests.here keeps

/-- An act does what some operation does, or it is declined and does nothing. -/
theorem run_cases (read? : String → Option Json) (d : Deck) (act : Act) :
    (∃ op, (act.on read?).run d = ((Act.play op).on read?).run d) ∨
      ∃ reply, Declined reply ∧ (act.on read?).run d = (reply, d) := by
  by_cases asked : ∃ v, Asks read? d.store act v
  · obtain ⟨v, asks⟩ := asked
    exact .inl ⟨.write v.name v.value, (run_of_asks asks).trans (run_of_asks .play).symm⟩
  · rcases run_of_unasked (not_exists.mp asked) with ⟨op, rfl, -⟩ | declined
    · exact .inl ⟨op, rfl⟩
    · exact .inr declined

theorem Rests.on (rests : d.Rests) (read? : String → Option Json) (act : Act) :
    ((act.on read?).run d).2.Rests ∧ ((act.on read?).run d).2.graph = d.graph := by
  rcases run_cases read? d act with ⟨op, same⟩ | ⟨reply, -, same⟩
  · obtain ⟨rests, graph, -⟩ := rests.perform op
    rw [same]
    exact ⟨rests, graph⟩
  · rw [same]
    exact ⟨rests, rfl⟩

/-- A write is granted where there is a variable of its name and kind. -/
theorem wrote_cases (d : Deck) (v : Variable) :
    (d.store.kind? v.name ≠ some v.value.kind ∧
      d.wrote (d.store.write? v.name v.value) = (false, d)) ∨
    d.store.kind? v.name = some v.value.kind ∧
      ∃ store, d.store.write? v.name v.value = some store ∧
        d.wrote (d.store.write? v.name v.value) = (true, { d with store := store }) := by
  cases written : d.store.write? v.name v.value with
  | none =>
    left
    constructor
    · intro fits
      cases written.symm.trans (if_pos fits)
    · rfl
  | some store => exact .inr ⟨(Store.write?_eq_some.mp written).1, store, rfl, rfl⟩

theorem Rests.perform_declined (rests : d.Rests) (op : Operation)
    (declined : ((Deck.perform op).run d).1 = .accepted false) :
    ((Deck.perform op).run d).2 = d := by
  cases op with
  | input i => exact (Answers.take rests.shows i).unchanged (Reply.accepted.inj declined)
  | write name value =>
    exact (Answers.write rests.shows name value).unchanged (Reply.accepted.inj declined)
  | _ => cases declined

theorem Rests.respects (rests : d.Rests) (read? : String → Option Json) (act : Act) :
    Respects read? d act ((act.on read?).run d) where
  declined := by
    rcases run_cases read? d act with ⟨op, same⟩ | ⟨reply, -, same⟩
    · rw [same]
      intro declined
      apply rests.perform_declined op
      generalize reply : (((Act.play op).on read?).run d).1 = told at declined
      cases declined with
      | refused => exact Option.some.inj reply
      | unread => cases reply
    · rw [same]
      exact fun _ => rfl
  grants v asks := by
    rw [run_of_asks asks]
    rcases d.wrote_cases v with ⟨other, declined⟩ | ⟨fits, store, -, granted⟩
    · simp [declined, answered, other]
    · simp [granted, answered, fits]
  granted v asks := by
    rw [run_of_asks asks]
    rcases d.wrote_cases v with ⟨-, declined⟩ | ⟨-, store, written, granted⟩
    · rw [declined]
      nofun
    · rw [granted]
      intro _
      refine ⟨rfl, Store.value?_of_write written, ?_⟩
      intro other different
      exact Store.value?_of_write_other written (Ne.symm different)
  unread unasked notPlayed := by
    rcases run_of_unasked unasked with ⟨op, played, -⟩ | ⟨reply, declined, same⟩
    · exact absurd played (notPlayed op)
    · rw [same]
      exact declined
  played unasked notStart := by
    rcases run_of_unasked unasked with ⟨op, rfl, notWrite⟩ | ⟨reply, -, same⟩
    · have keeps : op.rewrites = false := by
        cases op with
        | start => exact absurd rfl notStart
        | write name value => exact absurd rfl (notWrite name value)
        | _ => rfl
      exact (rests.perform op).2.2 keeps
    · rw [same]

/-- The variables are the declarations of the graph with the granted writes behind them. -/
structure Accounts (d : Deck) (ledger : List Variable) : Prop where
  store : d.store = .seed (d.graph.declarations ++ ledger)
  kinds : ∀ name, d.store.kind? name = (Store.seed d.graph.declarations).kind? name

theorem accounts_fresh (store : d.store = .seed d.graph.declarations) : d.Accounts [] := by
  constructor
  · rw [store, List.append_nil]
  · intro name
    rw [store]

theorem Accounts.of_same (accounts : d.Accounts ledger) (store : e.store = d.store)
    (graph : e.graph = d.graph) : e.Accounts ledger := by
  constructor
  · rw [store, graph]
    exact accounts.store
  · rw [store, graph]
    exact accounts.kinds

theorem Rests.start_store (rests : d.Rests) :
    (Deck.start.run d).2.store = .seed d.graph.declarations := by
  have shown : ((Deck.start.run d).2).session = d.session.start := rests.shows.start.session
  have store : (Deck.start.run d).2.store = ((Deck.start.run d).2).session.store := rfl
  rw [store, shown]
  exact d.session.start_store

/-- The ledger keeps accounting for the variables, whatever the host does. -/
theorem Accounts.on (accounts : d.Accounts ledger) (rests : d.Rests)
    (notes : Notes read? d act ((act.on read?).run d).1 ledger noted) :
    ((act.on read?).run d).2.Accounts noted := by
  have graph := (rests.on read? act).2
  have respects := rests.respects read? act
  generalize told : ((act.on read?).run d).1 = reply at notes
  cases notes with
  | start =>
    apply accounts_fresh
    rw [graph]
    exact rests.start_store
  | granted asks =>
    rw [run_of_asks asks] at told graph ⊢
    rcases d.wrote_cases _ with ⟨-, declined⟩ | ⟨-, store, written, granted⟩
    · rw [declined] at told
      cases told
    · rw [granted]
      constructor
      · show store = .seed (d.graph.declarations ++ (ledger ++ [_]))
        have kept := written
        rw [accounts.store] at kept
        rw [Store.write?_seed kept, List.append_assoc]
      · intro name
        exact (Store.kind?_of_write written name).trans (accounts.kinds name)
  | declined declined =>
    rw [respects.declined (told ▸ declined)]
    exact accounts
  | unasked unasked other => exact accounts.of_same (respects.played unasked other) graph

theorem Accounts.run (accounts : d.Accounts ledger) (rests : d.Rests)
    (run : Keeps read? d ledger acts e last) :
    e.Rests ∧ e.graph = d.graph ∧ e.Accounts last := by
  induction run with
  | done => exact ⟨rests, rfl, accounts⟩
  | act notes _ ih =>
    obtain ⟨later, graph⟩ := rests.on _ _
    have after := ih (accounts.on rests notes) later
    rw [graph] at after
    exact after

/-- Whatever an act is replied to with, the ledger goes on. -/
theorem notes_exist (read? : String → Option Json) (d : Deck) (act : Act)
    (ledger : List Variable) :
    ∃ noted, Notes read? d act ((act.on read?).run d).1 ledger noted := by
  by_cases asked : ∃ v, Asks read? d.store act v
  · obtain ⟨v, asks⟩ := asked
    rw [run_of_asks asks]
    rcases d.wrote_cases v with ⟨-, declined⟩ | ⟨-, store, -, granted⟩
    · rw [declined]
      exact ⟨_, .declined .refused⟩
    · rw [granted]
      exact ⟨_, .granted asks⟩
  · by_cases start : act = .play .start
    · subst start
      exact ⟨_, .start⟩
    · exact ⟨_, .unasked (not_exists.mp asked) start⟩

theorem keeps_exist (read? : String → Option Json) (d : Deck) (ledger : List Variable)
    (acts : List Act) : ∃ e last, Keeps read? d ledger acts e last := by
  induction acts generalizing d ledger with
  | nil => exact ⟨d, ledger, .done⟩
  | cons act acts ih =>
    obtain ⟨noted, notes⟩ := notes_exist read? d act ledger
    obtain ⟨e, last, rest⟩ := ih ((act.on read?).run d).2 noted
    exact ⟨e, last, .act notes rest⟩

end Deck

/-- After whatever the host does, there are the declared variables and no others, each of its kind;
the last granted write of a name since the last start holds, else its last declaration does. And
whatever the host does next, it changes variables by a granted write or by a start alone. What reads
the JSON of a page may be anything. -/
theorem variables_follow_writes (read? : String → Option Json) (graph : Graph) (pacing : Pacing)
    (acts : List Act) :
    (∃ d ledger, Deck.Keeps read? (.ofGraph graph pacing) [] acts d ledger) ∧
      ∀ d ledger, Deck.Keeps read? (.ofGraph graph pacing) [] acts d ledger →
        d.store = .seed (graph.declarations ++ ledger) ∧
          (∀ name, name ∈ d.store.names ↔ name ∈ graph.declarations.map Variable.name) ∧
          (∀ name, d.store.kind? name =
            (graph.declarations.reverse.find? fun v => v.name = name).map fun v => v.value.kind) ∧
          (∀ name, d.store.value? name =
            ((graph.declarations ++ ledger).reverse.find? fun v => v.name = name).map
              Variable.value) ∧
          ∀ act, Deck.Respects read? d act ((act.on read?).run d) := by
  refine ⟨Deck.keeps_exist read? _ _ acts, fun d ledger run => ?_⟩
  have fresh : (Deck.ofGraph graph pacing).Accounts [] := Deck.accounts_fresh rfl
  obtain ⟨rests, same, accounts⟩ := fresh.run (Deck.rests_ofGraph graph pacing) run
  have same : d.graph = graph := same
  have store : d.store = .seed (graph.declarations ++ ledger) := same ▸ accounts.store
  have kinds (name : String) : d.store.kind? name = (Store.seed graph.declarations).kind? name :=
    same ▸ accounts.kinds name
  refine ⟨store, ?_, ?_, ?_, rests.respects read?⟩
  · intro name
    rw [Store.mem_names_iff, kinds, ← Store.mem_names_iff, Store.mem_names_seed]
  · intro name
    rw [kinds, Store.kind?, Store.value?_seed, Option.map_map]
    rfl
  · intro name
    rw [store, Store.value?_seed]

end Parley
