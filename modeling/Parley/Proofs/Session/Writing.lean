import Parley.Console.Preview
import Parley.Player
import Parley.Proofs.Number.Spelling
import Parley.Proofs.Ron.Lexeme
import Parley.Proofs.Session.Request

/-! The ways in which a host writes a variable, and what it asks for in each. What a JSON value or a
typed text stands for is laid down here by itself, and the page and the terminal are held to it. -/
namespace Parley

/-- What a JSON value stands for in a variable of a kind. A whole number may stand for a float,
which is then the nearest one. -/
inductive Means : Kind → Json → Value → Prop
  | bool (b : Bool) : Means .bool (.bool b) (.bool b)
  | int (i : Int64) : Means .int (.int i.toInt) (.int i)
  | float (x : Binary64) : Means .float (.float x) (.float x)
  | whole {i : Int} (rounds : Binary64.Rounds (i < 0) |(i : ℚ)| x) :
    Means .float (.int i) (.float x)
  | string (s : String) : Means .string (.string s) (.string s)

/-- What a text that is typed in stands for in a variable of a kind. -/
inductive Typed : Kind → String → Value → Prop
  | yes : Typed .bool "true" (.bool true)
  | no : Typed .bool "false" (.bool false)
  | int (whole : Spelling.Whole i.toInt raw.toList) : Typed .int raw (.int i)
  | float (float : Spelling.Float x raw.toList) : Typed .float raw (.float x)
  | string : Typed .string raw (.string raw)

/-- What a host does: an operation of the session, or a write along one of the other ways in. -/
inductive Act : Type 1
  | play (op : Operation)
  /-- A value of any type that a field can have. -/
  | typed {α : Type} [Storable α] (name : String) (x : α)
  /-- A text in JSON, from a page. -/
  | page (name text : String)
  /-- The words behind `set`, from a terminal. -/
  | terminal (name raw : String)

/-- Nothing is replied to a text that is no JSON. -/
def Act.on (read? : String → Option Json) : Act → Deck.Action (Option Reply)
  | .play op => do return some (← Deck.perform op)
  | @Act.typed _ _ name x => do return some (.accepted (← Deck.setVariable name x))
  | .page name text => do return (← Player.setText read? name text).map Reply.accepted
  | .terminal name raw => do return some (.accepted (← Console.Preview.setVariable name raw).1)

/-- The variable that an act asks to write. -/
inductive Asks (read? : String → Option Json) (store : Store) : Act → Variable → Prop
  | play : Asks read? store (.play (.write name value)) ⟨name, value⟩
  | typed [Storable α] {x : α} (fits : Storable.toValue? x = some value) :
    Asks read? store (.typed name x) ⟨name, value⟩
  | page (reads : read? text = some j) (known : store.kind? name = some kind)
      (means : Means kind j value) :
    Asks read? store (.page name text) ⟨name, value⟩
  | terminal (known : store.kind? name = some kind) (typed : Typed kind raw value) :
    Asks read? store (.terminal name raw) ⟨name, value⟩

/-- The replies of a write that does not go through. -/
inductive Declined : Option Reply → Prop
  | refused : Declined (some (.accepted false))
  | unread : Declined none

theorem signedWord?_iff {i : Int} {x : Int64} : signedWord? i = some x ↔ x.toInt = i := by
  constructor
  · intro word
    have half : ((wordValues / 2 : Nat) : Int) = 2 ^ 63 := by decide
    simp only [signedWord?, half] at word
    split at word
    case isTrue range =>
      cases word
      exact Int64.toInt_ofInt_of_le range.1 range.2
    case isFalse => cases word
  · rintro rfl
    exact Ron.signedWord?_toInt x

/-- The page takes a JSON value for what it means. -/
theorem valueOfJson?_iff {kind : Kind} {j : Json} {value : Value} :
    Player.valueOfJson? kind j = some value ↔ Means kind j value := by
  constructor
  · intro read
    cases kind with
    | bool =>
      cases j with
      | bool b =>
        cases read
        exact .bool b
      | _ => cases read
    | int =>
      cases j with
      | int i =>
        obtain ⟨x, word, rfl⟩ := Option.map_eq_some_iff.mp read
        obtain rfl := signedWord?_iff.mp word
        exact .int x
      | _ => cases read
    | float =>
      cases j with
      | float x =>
        cases read
        exact .float x
      | int i =>
        cases read
        exact .whole (Binary64.rounds_ofInt i)
      | _ => cases read
    | string =>
      cases j with
      | string s =>
        cases read
        exact .string s
      | _ => cases read
  · intro means
    cases means with
    | bool b => rfl
    | int i => exact congrArg (Option.map Value.int) (Ron.signedWord?_toInt i)
    | float x => rfl
    | whole rounds =>
      rw [rounds.unique (Binary64.rounds_ofInt _)]
      rfl
    | string s => rfl

theorem int?_iff {raw : String} {i : Int64} :
    Console.Preview.int? raw = some i ↔ Spelling.Whole i.toInt raw.toList := by
  rw [Spelling.whole_iff]
  constructor
  · intro read
    obtain ⟨negative, ds, split⟩ :
        ∃ negative ds, Decimal.splitSign raw.toList = (negative, ds) := ⟨_, _, rfl⟩
    simp only [Console.Preview.int?, split] at read
    split at read
    case isTrue => cases read
    case isFalse fit =>
      obtain ⟨filled, each⟩ := not_or.mp fit
      exact ⟨negative, ds, split, by simpa using filled, by simpa using each,
        signedWord?_iff.mp read⟩
  · rintro ⟨negative, ds, split, filled, each, value⟩
    simp only [Console.Preview.int?, split, ← value]
    simp [filled, each, Ron.signedWord?_toInt]

/-- The terminal takes a text for what is typed. -/
theorem typedValue?_iff {kind : Kind} {raw : String} {value : Value} :
    Console.Preview.typedValue? kind raw = some value ↔ Typed kind raw value := by
  constructor
  · intro read
    cases kind with
    | bool =>
      simp only [Console.Preview.typedValue?] at read
      split at read
      case h_1 =>
        cases read
        exact .yes
      case h_2 =>
        cases read
        exact .no
      case h_3 => cases read
    | int =>
      obtain ⟨i, word, rfl⟩ := Option.map_eq_some_iff.mp read
      exact .int (int?_iff.mp word)
    | float =>
      obtain ⟨x, float, rfl⟩ := Option.map_eq_some_iff.mp read
      exact .float (Spelling.read?_iff.mp float)
    | string =>
      cases read
      exact .string
  · intro typed
    cases typed with
    | yes => rfl
    | no => rfl
    | int whole => exact congrArg (Option.map Value.int) (int?_iff.mpr whole)
    | float float => exact congrArg (Option.map Value.float) (Spelling.read?_iff.mpr float)
    | string => rfl

namespace Deck

variable {d : Deck} {s : Session} {read? : String → Option Json} {act : Act} {v : Variable}

section Page

/-- A page writes what it understands as a value of the kind of the variable. -/
theorem run_page_of_some {value : Value} (known : d.store.kind? name = some kind)
    (read : Player.valueOfJson? kind j = some value) :
    (Player.setVariable name j).run d = d.wrote (d.store.write? name value) := by
  unfold Player.setVariable
  rw [run_get, known]
  simp only [read, run_write]

theorem run_page_of_none
    (unread : (d.store.kind? name).bind (fun kind => Player.valueOfJson? kind j) = none) :
    (Player.setVariable name j).run d = (false, d) := by
  unfold Player.setVariable
  rw [run_get]
  cases known : d.store.kind? name with
  | none => rfl
  | some kind =>
    rw [known, Option.bind_some] at unread
    simp only [unread]
    rfl

/-- The page's player is answered as the session on the deck is. -/
theorem Answers.page (shows : d.Shows s) (name : String) (j : Json) :
    Answers d ((Player.setVariable name j).run d) (Player.write? s name j) := by
  have written := Answers.write shows name
  obtain ⟨rfl, -⟩ := shows
  show Answers d _ ((d.store.kind? name).bind fun kind =>
    (Player.valueOfJson? kind j).bind (d.session.write? name))
  rw [← Option.bind_assoc]
  cases read : (d.store.kind? name).bind fun kind => Player.valueOfJson? kind j with
  | none =>
    rw [run_page_of_none read]
    exact .refused
  | some value =>
    obtain ⟨kind, known, read⟩ := Option.bind_eq_some_iff.mp read
    rw [run_page_of_some known read, ← run_write]
    exact written value

end Page

section Terminal

/-- So does a terminal, which says what was wrong. -/
theorem run_terminal_of_some {value : Value} (known : d.store.kind? name = some kind)
    (read : Console.Preview.typedValue? kind raw = some value) :
    (Console.Preview.setVariable name raw).run d =
      (((d.wrote (d.store.write? name value)).1, []),
        (d.wrote (d.store.write? name value)).2) := by
  unfold Console.Preview.setVariable
  rw [run_get, known]
  simp only [read, run_bind, run_write]
  rfl

theorem run_terminal_of_unread (known : d.store.kind? name = some kind)
    (unread : Console.Preview.typedValue? kind raw = none) :
    (Console.Preview.setVariable name raw).run d =
      ((false, [s!"Could not parse '{raw}' for {name}"]), d) := by
  unfold Console.Preview.setVariable
  rw [run_get, known]
  simp only [unread]
  rfl

theorem run_terminal_of_unknown (unknown : d.store.kind? name = none) :
    (Console.Preview.setVariable name raw).run d =
      ((false, [s!"Unknown variable: {name}"]), d) := by
  unfold Console.Preview.setVariable
  rw [run_get, unknown]
  rfl

abbrev Report := (Bool × List String) × Deck

/-- A terminal is told that a write went through, or what was wrong with it. -/
inductive Reports (d : Deck) : Report → Except (List String) Session → Prop
  | accepted (shows : e.Shows t) : Reports d ((true, []), e) (.ok t)
  | refused : Reports d ((false, complaint), d) (.error complaint)

/-- The terminal is answered as the session on the deck is. -/
theorem Shows.terminal (shows : d.Shows s) (name raw : String) :
    Reports d ((Console.Preview.setVariable name raw).run d)
      (Console.Preview.write s name raw) := by
  have written := Answers.write shows name
  have store : d.session.store = d.store := rfl
  obtain ⟨rfl, -⟩ := shows
  unfold Console.Preview.write
  rw [store]
  cases known : d.store.kind? name with
  | none =>
    rw [run_terminal_of_unknown known]
    exact .refused
  | some kind =>
    cases read : Console.Preview.typedValue? kind raw with
    | none =>
      rw [run_terminal_of_unread known read]
      simp only [read]
      exact .refused
    | some value =>
      rw [run_terminal_of_some known read, ← run_write]
      simp only [read]
      have answers := written value
      generalize (Deck.write name value).run d = answer at answers ⊢
      generalize d.session.write? name value = next? at answers ⊢
      cases answers with
      | accepted later => exact .accepted later
      | refused => exact .refused

end Terminal

/-- The reply to a write, with the deck behind it. -/
def answered (answer : Bool × Deck) : Option Reply × Deck := (some (.accepted answer.1), answer.2)

theorem run_text_of_some (reads : read? text = some j) :
    ((Act.page name text).on read?).run d = answered ((Player.setVariable name j).run d) := by
  unfold Act.on Player.setText
  simp only [reads]
  rfl

theorem run_text_of_none (unread : read? text = none) :
    ((Act.page name text).on read?).run d = (none, d) := by
  unfold Act.on Player.setText
  simp only [unread]
  rfl

/-- Along whichever way a write is asked for, the store decides. -/
theorem run_of_asks (asks : Asks read? d.store act v) :
    (act.on read?).run d = answered (d.wrote (d.store.write? v.name v.value)) := by
  cases asks with
  | @play name value => exact congrArg answered (d.run_write name value)
  | @typed α value name _ x fits =>
    have same : d.store.set? name x = d.store.write? name value := by
      rw [Store.set?, fits, Option.bind_some]
    exact same ▸ congrArg answered (d.run_setVariable name x)
  | page reads known means =>
    rw [run_text_of_some reads, run_page_of_some known (valueOfJson?_iff.mpr means)]
  | @terminal name kind raw value known typed =>
    show (fun report : Report => answered (report.1.1, report.2))
      ((Console.Preview.setVariable name raw).run d) = _
    rw [run_terminal_of_some known (typedValue?_iff.mpr typed)]

section Unasked

theorem typed_declined [Storable α] {x : α}
    (unasked : ∀ v, ¬Asks read? d.store (.typed name x) v) :
    ∃ reply, Declined reply ∧ ((Act.typed name x).on read?).run d = (reply, d) := by
  have unfit : Storable.toValue? x = none := by
    cases fits : Storable.toValue? x with
    | none => rfl
    | some value => exact absurd (.typed fits) (unasked ⟨name, value⟩)
  refine ⟨_, .refused, ?_⟩
  show answered ((Deck.setVariable name x).run d) = _
  rw [run_setVariable, Store.set?, unfit]
  rfl

theorem page_declined (unasked : ∀ v, ¬Asks read? d.store (.page name text) v) :
    ∃ reply, Declined reply ∧ ((Act.page name text).on read?).run d = (reply, d) := by
  cases reads : read? text with
  | none => exact ⟨_, .unread, run_text_of_none reads⟩
  | some j =>
    have meaningless :
        ((d.store.kind? name).bind fun kind => Player.valueOfJson? kind j) = none := by
      refine Option.bind_eq_none_iff.mpr fun kind known => ?_
      refine Option.eq_none_iff_forall_ne_some.mpr fun value read => ?_
      exact unasked _ (.page reads known (valueOfJson?_iff.mp read))
    refine ⟨_, .refused, ?_⟩
    rw [run_text_of_some reads, run_page_of_none meaningless]
    rfl

theorem terminal_declined (unasked : ∀ v, ¬Asks read? d.store (.terminal name raw) v) :
    ∃ reply, Declined reply ∧ ((Act.terminal name raw).on read?).run d = (reply, d) := by
  refine ⟨_, .refused, ?_⟩
  show (fun report : Report => answered (report.1.1, report.2))
    ((Console.Preview.setVariable name raw).run d) = _
  cases known : d.store.kind? name with
  | none =>
    rw [run_terminal_of_unknown known]
    rfl
  | some kind =>
    cases read : Console.Preview.typedValue? kind raw with
    | none =>
      rw [run_terminal_of_unread known read]
      rfl
    | some value =>
      exact absurd (.terminal known (typedValue?_iff.mp read)) (unasked ⟨name, value⟩)

/-- An act that asks for no write is an operation that writes nothing, or it is declined and the
deck is as it was. -/
theorem run_of_unasked (unasked : ∀ v, ¬Asks read? d.store act v) :
    (∃ op, act = .play op ∧ ∀ name value, op ≠ .write name value) ∨
      ∃ reply, Declined reply ∧ (act.on read?).run d = (reply, d) := by
  cases act with
  | play op =>
    left
    refine ⟨op, rfl, ?_⟩
    rintro name value rfl
    exact unasked _ .play
  | typed name x => exact .inr (typed_declined unasked)
  | page name text => exact .inr (page_declined unasked)
  | terminal name raw => exact .inr (terminal_declined unasked)

end Unasked

end Deck
end Parley
