import Parley.Document.Variant
import Parley.Proofs.Document.Codec

/-! Records and variants that are read as they were written. -/
namespace Parley

open Ron

/-- Names by which the members of a family are told apart. -/
def AreNames (names : List String) : Prop := names.Nodup ∧ ∀ name ∈ names, IsName name

instance : DecidablePred AreNames := fun _ => instDecidableAnd

theorem find?_of_nodup {label : α → String} {members : List α}
    (nodup : (members.map label).Nodup) {x : α} (listed : x ∈ members) :
    members.find? (label · = label x) = some x := by
  induction members with
  | nil => cases listed
  | cons y members ih =>
    rw [List.map_cons, List.nodup_cons] at nodup
    rcases List.mem_cons.mp listed with rfl | listed
    · exact List.find?_cons_of_pos (by simp)
    · have other : label y ≠ label x := fun same => nodup.1 (same ▸ List.mem_map_of_mem listed)
      rw [List.find?_cons_of_neg (by simpa using other), ih nodup.2 listed]

section Records

/-- Setting the remaining fields of a record that is filled in to what another one holds makes the
two equal. -/
inductive Restores {ρ : Type} (r : ρ) : ρ → List (Slot ρ) → Prop
  | done : Restores r r []
  | slot {α : Type} {c : Codec α} {get : ρ → α} {set : ρ → α → ρ} : c.Faithful →
    Restores r (set acc (get r)) slots → Restores r acc (c.slot name get set required :: slots)

variable {α ρ : Type} {c : Codec α} {name label : String} {get : ρ → α} {set : ρ → α → ρ}
  {required : Bool} {slots : List (Slot ρ)} {r acc : ρ}

/-- A field as it is written, without the comma. -/
def Slot.line (depth : Nat) (r : ρ) (slot : Slot ρ) : List Char :=
  slot.name.toList ++ ": ".toList ++ slot.write (depth + 1) r

theorem Slot.starts_line {slot : Slot ρ} (plain : IsName slot.name) (depth : Nat) (r : ρ) :
    ∃ first text, slot.line depth r = first :: text ∧ Opens first := by
  obtain ⟨c, cs, text, starts, -⟩ := plain.text
  refine ⟨c, cs ++ ": ".toList ++ slot.write (depth + 1) r, ?_, .of_startsName starts⟩
  rw [line, text]
  rfl

variable {schema : Schema ρ} {mode : Mode} {seen : List String}

theorem readField_line (faithful : c.Faithful) (plain : mode.Plain)
    (found : schema.slots.find? (·.name = name) = some (c.slot name get set required))
    (unseen : name ∉ seen) (depth : Nat) (a : α) (rest : List Char) :
    schema.readField mode label name seen acc (": ".toList ++ c.write depth a ++ ',' :: rest) =
      .ok (set acc a, ',' :: rest) := by
  have text : ": ".toList ++ c.write depth a ++ ',' :: rest =
      ':' :: ' ' :: (c.write depth a ++ ',' :: rest) := by simp
  have read := faithful.reads depth a (plain.below 2) (.comma : Ends (',' :: rest))
  simp only [Schema.readField, unseen, and_false, if_false, text,
    skip_solid (c := ':') ⟨rfl, by decide⟩, ok_bind, expect_self, skip_space (c := ' ') rfl,
    faithful.skips, found]
  simp [Codec.slot, read]
  rfl

theorem readFields_named (plain : IsName name) (ends : rest.head?.any inRawName = false)
    {s : List Char} (same : skip s = .ok (name.toList ++ rest)) :
    schema.readFields mode label (fuel + 1) true seen acc s =
      (schema.readField mode label name seen acc rest >>= fun (r, rest) =>
        comma rest >>= fun (separated, rest) =>
          schema.readFields mode label fuel separated (name :: seen) r rest) := by
  have key := identifier_reads plain ends
  obtain ⟨first, text, written, starts, -⟩ := plain.text
  have opens := Opens.of_startsName starts
  rw [written, List.cons_append] at same key
  simp only [Schema.readFields, same, ok_bind, if_neg opens.2.1, if_pos, key]

theorem readFields_lines (names : AreNames (schema.slots.map Slot.name)) (plain : mode.Plain)
    (restores : Restores r acc slots) (inside : slots ⊆ schema.slots)
    (order : schema.slots.map Slot.name = seen.reverse ++ slots.map Slot.name)
    (enough : slots.length < fuel) {s : List Char}
    (same : skip s = skip (Codec.lines depth ')' rest (slots.map (Slot.line depth r)))) :
    schema.readFields mode label fuel true seen acc s =
      .ok ((r, (schema.slots.map Slot.name).reverse), ')' :: rest) := by
  have solid : Solid ')' := ⟨rfl, by decide⟩
  -- The names that have been seen and those that are left stay the names of the schema.
  induction restores generalizing seen fuel s with
  | done =>
    obtain ⟨fuel, rfl⟩ : ∃ n, fuel = n + 1 := ⟨fuel - 1, by omega⟩
    rw [List.map_nil, Codec.skip_lines_nil solid] at same
    rw [List.map_nil, List.append_nil] at order
    simp only [Schema.readFields, same, ok_bind, if_pos, order, List.reverse_reverse]
    rfl
  | @slot acc slots name required α c get set faithful restores ih =>
    obtain ⟨fuel, rfl⟩ : ∃ n, fuel = n + 1 := ⟨fuel - 1, by omega⟩
    have nodup := names.1
    rw [order, List.map_cons, List.nodup_append] at nodup
    have unseen : name ∉ seen := by
      intro listed
      exact nodup.2.2 _ (List.mem_reverse.mpr listed) _ List.mem_cons_self rfl
    have listed := inside List.mem_cons_self
    have plainName := names.2 _ (List.mem_map_of_mem listed)
    have found := find?_of_nodup names.1 listed
    have starts : ∀ slot ∈ slots, ∃ first text,
        slot.line depth r = first :: text ∧ Opens first := by
      intro slot later
      have listed := inside (List.mem_cons_of_mem _ later)
      exact slot.starts_line (names.2 _ (List.mem_map_of_mem listed)) depth r
    obtain ⟨after, skips⟩ := Codec.skip_lines depth rest solid (List.forall_mem_map.mpr starts)
    obtain ⟨first, text, written, opens⟩ := Slot.starts_line plainName depth r
    have line : Slot.line depth r (c.slot name get set required) = name.toList ++
        (": ".toList ++ c.write (depth + 1) (get r)) := List.append_assoc ..
    rw [List.map_cons, Codec.skip_lines_cons opens.1 written, line, List.append_assoc] at same
    rw [readFields_named plainName rfl same, readField_line faithful plain found unseen, ok_bind]
    simp only [comma_comma skips, ok_bind]
    apply ih
    · exact fun _ later => inside (List.mem_cons_of_mem _ later)
    · rw [order, List.reverse_cons, List.append_assoc]
      rfl
    · exact Nat.lt_of_succ_lt_succ enough
    · exact (skip_skipFrom .blank _ skips).trans skips.symm

theorem missing?_of_all (schema : Schema ρ) :
    schema.missing? (schema.slots.map Slot.name).reverse = none := by
  rw [Schema.missing?, Option.map_eq_none_iff, List.find?_eq_none]
  intro slot listed
  have occurred : slot.name ∈ (schema.slots.map Slot.name).reverse :=
    List.mem_reverse.mpr (List.mem_map_of_mem listed)
  simp [occurred]

theorem readBody_lines (names : AreNames (schema.slots.map Slot.name)) (plain : mode.Plain)
    (restores : Restores r schema.blank schema.slots) (label : String) (depth : Nat)
    (rest : List Char) :
    schema.readBody mode label
      (Codec.lines depth ')' rest (schema.slots.map (Slot.line depth r))) = .ok (r, ')' :: rest) := by
  generalize text : Codec.lines depth ')' rest (schema.slots.map (Slot.line depth r)) = s
  have enough : schema.slots.length < s.length + 1 := by
    rw [← text, ← List.length_map (f := Slot.line depth r)]
    exact Nat.lt_succ_of_le Codec.length_le_lines
  have order : schema.slots.map Slot.name =
      ([] : List String).reverse ++ schema.slots.map Slot.name := rfl
  have fields : schema.readFields mode label (s.length + 1) true [] schema.blank s = _ :=
    readFields_lines names plain restores (List.Subset.refl _) order enough (congrArg skip text.symm)
  simp only [Schema.readBody, fields, ok_bind, missing?_of_all]
  rfl

/-- Records are read as they were written if the names of their fields tell these apart, and if
reading every field restores the record. -/
theorem Schema.faithful (names : AreNames (schema.slots.map Slot.name))
    (restores : ∀ r, Restores r schema.blank schema.slots) : schema.codec.Faithful where
  starts depth r := ⟨'(', _, rfl, .of_class (· = '(') rfl rfl⟩
  reads {mode} depth r rest plain ends := by
    have unnamed (s : List Char) : schema.skipName ('(' :: s) = .ok ('(' :: s) := rfl
    show schema.read mode
      (Codec.bracket '(' ')' depth (schema.slots.map (Slot.line depth r)) ++ rest) = _
    rw [Codec.bracket_append]
    simp only [read, plain.closed, unnamed, ok_bind, skip_opening, expect_self,
      readBody_lines names plain (restores r)]
    rfl

end Records

section Variants

/-- What is written behind the name of the variant is read back. -/
structure Variant.Faithful (v : Variant α) : Prop where
  opens : ∀ {depth a text}, v.write? depth a = some text → ∃ rest, text = '(' :: rest
  reads : ∀ {mode : Mode} {depth a text} rest, mode.Plain → v.write? depth a = some text →
    v.read mode (text ++ rest) = .ok (a, rest)

variable {α β : Type} {c : Codec β}

theorem Codec.Faithful.variant (faithful : c.Faithful) {build : β → α} {content? : α → Option β}
    (inverse : ∀ {a b}, content? a = some b → build b = a) (name : String) :
    (c.variant name build content?).Faithful where
  opens written := by
    obtain ⟨b, -, rfl⟩ := Option.map_eq_some_iff.mp written
    exact ⟨_, rfl⟩
  reads {mode depth a text} rest plain written := by
    obtain ⟨b, content, rfl⟩ := Option.map_eq_some_iff.mp written
    have text : '(' :: c.write depth b ++ [')'] ++ rest =
        '(' :: (c.write depth b ++ ')' :: rest) := by
      simp
    have read := faithful.reads depth b (plain.inVariant name) (.closing : Ends (')' :: rest))
    rw [text]
    simp only [Codec.variant, skip_opening, ok_bind, expect_self, faithful.skips, read,
      comma_closing, inverse content]
    rfl

theorem Codec.Faithful.readPair (faithful : c.Faithful) {mode : Mode} (plain : mode.Plain)
    (shape : String) (depth : Nat) (first second : β) (rest : List Char) :
    c.readPair mode shape ('(' :: (c.write depth first ++ ',' :: ' ' ::
      (c.write depth second ++ ')' :: rest))) = .ok ((first, second), rest) := by
  have readSecond := faithful.reads depth second plain (.closing : Ends (')' :: rest))
  have skipSecond := faithful.skips depth second (')' :: rest)
  have notClosed {a : β} {s t : List Char} : c.write depth a ++ s ≠ ')' :: t := by
    obtain ⟨d, text, written, opens⟩ := faithful.starts depth a
    rw [written]
    exact fun same => opens.2.1 (List.cons.inj same).1
  generalize closed : c.write depth second ++ ')' :: rest = behind at *
  have readFirst := faithful.reads depth first plain (.comma : Ends (',' :: ' ' :: behind))
  have between : comma (',' :: ' ' :: behind) = .ok (true, behind) :=
    comma_comma ((skip_space rfl _).trans skipSecond)
  simp only [Codec.readPair, skip_opening, ok_bind, expect_self, faithful.skips]
  split
  case h_1 same => exact absurd same notClosed
  case h_2 =>
    simp only [readFirst, ok_bind, between]
    split
    case h_1 same =>
      cases same
      exact absurd closed notClosed
    case h_2 same => cases same
    case h_3 same =>
      cases same
      simp only [readSecond, ok_bind, comma_closing, expect_self]
      rfl

theorem Codec.Faithful.pairVariant (faithful : c.Faithful) {build : β → β → α}
    {content? : α → Option (β × β)}
    (inverse : ∀ {a first second}, content? a = some (first, second) → build first second = a)
    (family name : String) : (c.pairVariant family name build content?).Faithful where
  opens written := by
    obtain ⟨b, -, rfl⟩ := Option.map_eq_some_iff.mp written
    exact ⟨_, rfl⟩
  reads {mode depth a text} rest plain written := by
    obtain ⟨⟨first, second⟩, content, rfl⟩ := Option.map_eq_some_iff.mp written
    have text : '(' :: c.write depth first ++ ", ".toList ++ c.write depth second ++ [')'] ++ rest =
        '(' :: (c.write depth first ++ ',' :: ' ' :: (c.write depth second ++ ')' :: rest)) := by
      simp
    rw [text]
    simp only [Codec.pairVariant, faithful.readPair (plain.below 3), Except.map, inverse content]

/-- Values are read as they were written if the variants are, and if there is one for each. -/
theorem Codec.faithful_ofVariants {family : String} {variants : List (Variant α)}
    (names : AreNames (variants.map Variant.name)) (faithful : ∀ v ∈ variants, v.Faithful)
    (total : ∀ depth a, (variants.findSome? (·.write? depth a)).isSome = true) :
    (Codec.ofVariants family variants).Faithful := by
  have written (depth : Nat) (a : α) : ∃ v ∈ variants, ∃ text, v.write? depth a = some text ∧
      (Codec.ofVariants family variants).write depth a = v.name.toList ++ text := by
    obtain ⟨v, listed, held⟩ := List.findSome?_isSome_iff.mp (total depth a)
    have found : (variants.findSome? fun v =>
        (v.write? depth a).map (v.name.toList ++ ·)).isSome = true :=
      List.findSome?_isSome_iff.mpr ⟨v, listed, by rwa [Option.isSome_map]⟩
    obtain ⟨whole, found⟩ := Option.isSome_iff_exists.mp found
    obtain ⟨v, listed, held⟩ := List.exists_of_findSome?_eq_some found
    obtain ⟨text, content, rfl⟩ := Option.map_eq_some_iff.mp held
    refine ⟨v, listed, text, content, ?_⟩
    simp only [Codec.ofVariants, found, Option.getD_some]
  constructor
  · intro depth a
    obtain ⟨v, listed, text, -, whole⟩ := written depth a
    obtain ⟨c, cs, name, starts, -⟩ := (names.2 _ (List.mem_map_of_mem listed)).text
    exact ⟨c, cs ++ text, by rw [whole, name]; rfl, .of_startsName starts⟩
  · intro mode depth a rest plain ends
    obtain ⟨v, listed, text, content, whole⟩ := written depth a
    obtain ⟨behind, rfl⟩ := (faithful v listed).opens content
    have key : identifier (v.name.toList ++ ('(' :: behind ++ rest)) =
        .ok (v.name, '(' :: behind ++ rest) :=
      identifier_reads (names.2 _ (List.mem_map_of_mem listed)) rfl
    have found := find?_of_nodup names.1 listed
    rw [whole, List.append_assoc]
    simp only [Codec.ofVariants, key, ok_bind, found, (faithful v listed).reads rest plain content]

end Variants

end Parley
