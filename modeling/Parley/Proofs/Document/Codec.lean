import Parley.Document.Codec
import Parley.Proofs.Ron.Lexeme

/-! Codecs that read what they write, at every depth and in every document that leaves variants
their brackets, and that leave what stands behind. -/
namespace Parley

namespace Ron

/-- Records stand in brackets of their own, inside variants too. -/
structure Mode.Plain (mode : Mode) : Prop where
  bracketed : mode.bareVariants = false
  closed : mode.opened = none

namespace Mode.Plain

theorem start : Mode.plain.Plain := ⟨rfl, rfl⟩

theorem below {mode : Mode} (plain : mode.Plain) (levels : Nat) : (mode.below levels).Plain :=
  ⟨plain.bracketed, rfl⟩

theorem inVariant {mode : Mode} (plain : mode.Plain) (name : String) :
    (mode.inVariant name).Plain := by
  refine ⟨plain.bracketed, ?_⟩
  have bracketed : ¬mode.bareVariants = true := by simp [plain.bracketed]
  exact if_neg bracketed

end Mode.Plain

/-- A character that can be the first one of a value, and of nothing else. -/
def Opens (c : Char) : Prop := Solid c ∧ c ≠ ')' ∧ c ≠ ']' ∧ c ≠ '#'

theorem Opens.of_class {c : Char} (p : Char → Bool) (inside : p c = true)
    (outside : [' ', '\t', '\n', '\r', '/', ')', ']', '#'].any p = false) : Opens c := by
  have other : ∀ d ∈ [' ', '\t', '\n', '\r', '/', ')', ']', '#'], c ≠ d := by
    rintro d listed rfl
    exact List.any_eq_false.mp outside c listed inside
  simp only [List.forall_mem_cons] at other
  obtain ⟨blank, tab, newline, carriage, slash, round, square, sign, -⟩ := other
  exact ⟨⟨by simp [isSpace, blank, tab, newline, carriage], slash⟩, round, square, sign⟩

theorem Opens.of_digit {c : Char} (digit : c.isDigit = true) : Opens c :=
  .of_class Char.isDigit digit rfl

theorem Opens.of_startsName {c : Char} (starts : startsName c = true) : Opens c :=
  .of_class startsName starts rfl

theorem skip_opening (rest : List Char) : skip ('(' :: rest) = .ok ('(' :: rest) :=
  skip_solid ⟨rfl, by decide⟩ rest

theorem expect_self (c : Char) (rest : List Char) : expect c (c :: rest) = .ok rest := if_pos rfl

theorem comma_comma {rest after : List Char} (skips : skip rest = .ok after) :
    comma (',' :: rest) = .ok (true, after) := by
  simp only [comma, skip_solid (c := ',') ⟨rfl, by decide⟩, ok_bind, skips]
  rfl

theorem comma_closing (rest : List Char) : comma (')' :: rest) = .ok (false, ')' :: rest) := by
  simp only [comma, skip_solid (c := ')') ⟨rfl, by decide⟩, ok_bind]
  rfl

theorem skip_skipFrom (gap : Gap) (s : List Char) (skips : skipFrom gap s = .ok after) :
    skip after = .ok after := by
  fun_induction skipFrom gap s
  case case3 | case12 => cases skips
  case case5 solid notSpace =>
    cases skips
    exact skip_solid ⟨by simpa using notSpace, solid⟩ _
  case case13 =>
    cases skips
    rfl
  all_goals rename_i ih; exact ih skips

end Ron

open Ron

theorem Color.parse_self (c : Color) : Color.parse c.toText = .ok c := by
  have digits : ∀ n < 16, Text.hexValue? (Text.upperHex n) = some n := by decide
  have high (x : UInt8) := digits (x.toNat / 16) (by have := x.toNat_lt; omega)
  have low (x : UInt8) := digits (x.toNat % 16) (by omega)
  have whole (x : UInt8) : channel (x.toNat / 16) (x.toNat % 16) = x := by
    rw [channel, Nat.div_add_mod, UInt8.ofNat_toNat]
  simp [parse, toText, hex, channelText, high, low, whole]

/-- What is written starts a value and is read back. -/
structure Codec.Faithful (c : Codec α) : Prop where
  starts : ∀ depth a, ∃ first text, c.write depth a = first :: text ∧ Opens first
  reads : ∀ {mode : Mode} depth a {rest}, mode.Plain → Ends rest →
    c.read mode (c.write depth a ++ rest) = .ok (a, rest)

namespace Codec

variable {c : Codec α}

theorem Faithful.skips (faithful : c.Faithful) (depth : Nat) (a : α) (rest : List Char) :
    skip (c.write depth a ++ rest) = .ok (c.write depth a ++ rest) := by
  obtain ⟨first, text, written, opens⟩ := faithful.starts depth a
  rw [written, List.cons_append, skip_solid opens.1]

theorem Faithful.convert (faithful : c.Faithful) {ofStandIn : α → Except String β} {standIn : β → α}
    (inverse : ∀ b, ofStandIn (standIn b) = .ok b) : (c.convert ofStandIn standIn).Faithful where
  starts depth b := faithful.starts depth (standIn b)
  reads depth b rest plain ends := by
    simp only [Codec.convert, faithful.reads depth (standIn b) plain ends, inverse]

theorem faithful_bool : Codec.bool.Faithful where
  starts depth b := by
    cases b with
    | false => exact ⟨'f', _, rfl, .of_startsName rfl⟩
    | true => exact ⟨'t', _, rfl, .of_startsName rfl⟩
  reads depth b rest _ ends := bool_reads b ends

/-- A sign can stand in front of whatever starts a value. -/
theorem starts_signed {text : List Char} (starts : text = first :: tail) (opens : Opens first)
    (negative : Bool) :
    ∃ first tail, Binary64.signText negative ++ text = first :: tail ∧ Opens first := by
  cases negative with
  | false => exact ⟨first, tail, starts, opens⟩
  | true => exact ⟨'-', text, rfl, .of_class (· = '-') rfl rfl⟩

theorem faithful_int : Codec.int.Faithful where
  starts depth i := by
    obtain ⟨negative, n, -, text⟩ := int_text i.toInt
    obtain ⟨d, tail, digits⟩ := List.exists_cons_of_ne_nil (Nat.toDigits_ne_nil (b := 10) (n := n))
    have digit : d.isDigit = true := Decimal.digit_of_mem_toDigits (digits ▸ List.mem_cons_self)
    show ∃ first tail, (toString i.toInt).toList = _ ∧ _
    rw [text]
    exact starts_signed digits (.of_digit digit) negative
  reads depth i rest _ ends := signed_reads i ends

theorem faithful_float : Codec.float.Faithful where
  starts depth x := by
    show ∃ first tail, x.toText ++ (if x.isWhole then ['.', '0'] else []) = _ ∧ _
    cases x with
    | nan => exact ⟨'N', _, rfl, .of_startsName rfl⟩
    | number negative r =>
      by_cases infinite : r.val = Binary64.infinityRank
      · rw [Binary64.toText_infinite negative infinite]
        exact starts_signed rfl (.of_startsName rfl) negative
      · obtain ⟨text, written, numeral⟩ := Binary64.toText_numeral negative infinite
        obtain ⟨c, tail, starts, digit⟩ := numeral.starts
        rw [written]
        exact starts_signed starts (.of_digit digit) negative
  reads depth x rest _ ends := float_reads x ends

theorem faithful_string : Codec.string.Faithful where
  starts _ _ := ⟨'"', _, rfl, .of_class (· = '"') rfl rfl⟩
  reads _ s _ _ _ := string_reads s _

theorem faithful_color : Codec.color.Faithful := by
  apply faithful_string.convert
  intro c
  rw [Color.parse_self]
  rfl

theorem faithful_enumerated [Enumerated α]
    (named : ∀ a : α, Enumerated.ofLabel? (Enumerated.label a) = some a)
    (plain : ∀ a : α, IsName (Enumerated.label a)) : (Codec.enumerated α).Faithful where
  starts depth a := by
    obtain ⟨c, cs, text, starts, -⟩ := (plain a).text
    exact ⟨c, cs, text, .of_startsName starts⟩
  reads depth a rest _ ends := by
    have read := identifier_reads (plain a) (ends.any_head? rfl rfl)
    simp only [enumerated, read, ok_bind, named]
    rfl

section Options

theorem afterStart?_self (start : String) (rest : List Char) :
    afterStart? start (start.toList ++ rest) = some rest := by
  have front : start.toList.isPrefixOf (start.toList ++ rest) = true :=
    List.isPrefixOf_iff_prefix.mpr (List.prefix_append _ _)
  rw [afterStart?, if_pos front, ← String.length_toList, List.drop_left]

theorem readSome_reads (faithful : c.Faithful) {mode : Mode} (plain : mode.Plain) (depth : Nat)
    (a : α) (rest : List Char) :
    c.readSome mode ('(' :: (c.write depth a ++ ')' :: rest)) = .ok (a, rest) := by
  have read := faithful.reads depth a (plain.below 1) (.closing : Ends (')' :: rest))
  simp only [readSome, skip_opening, ok_bind, faithful.skips, read,
    comma_closing, expect_self]
  rfl

theorem Faithful.option (faithful : c.Faithful) : c.option.Faithful where
  starts depth a? := by
    cases a? with
    | none => exact ⟨'N', _, rfl, .of_startsName rfl⟩
    | some a => exact ⟨'S', _, rfl, .of_startsName rfl⟩
  reads depth a? rest plain ends := by
    cases a? with
    | none =>
      show c.option.read _ ("None".toList ++ rest) = _
      simp only [Codec.option, afterStart?_self]
      rfl
    | some a =>
      have text : c.option.write depth (some a) ++ rest =
          "Some".toList ++ '(' :: (c.write depth a ++ ')' :: rest) := by
        simp [Codec.option]
      have other (s : List Char) : afterStart? "None" ("Some".toList ++ s) = none := rfl
      rw [text]
      simp only [Codec.option, other, afterStart?_self, readSome_reads faithful plain, ok_bind]
      rfl

end Options

section Brackets

/-- What stands behind an opening bracket: entries on lines of their own, and the other bracket. -/
def lines (depth : Nat) (closing : Char) (rest : List Char) (entries : List (List Char)) :
    List Char :=
  entries.flatMap (fun entry => newline (depth + 1) ++ entry ++ [',']) ++
    (newline depth ++ closing :: rest)

variable {depth : Nat} {closing : Char} {rest entry : List Char} {entries : List (List Char)}

theorem bracket_append (opening : Char) :
    bracket opening closing depth entries ++ rest = opening :: lines depth closing rest entries := by
  simp [bracket, lines]

theorem length_le_lines : entries.length ≤ (lines depth closing rest entries).length := by
  induction entries with
  | nil => exact Nat.zero_le _
  | cons entry entries ih =>
    simp only [lines, List.flatMap_cons, List.length_append, List.length_cons] at ih ⊢
    omega

theorem skip_lines_nil (solid : Solid closing) :
    skip (lines depth closing rest []) = .ok (closing :: rest) := by
  rw [lines, List.flatMap_nil, List.nil_append, skip_newline, skip_solid solid]

theorem skip_lines_cons (solid : Solid first) (starts : entry = first :: text) :
    skip (lines depth closing rest (entry :: entries)) =
      .ok (entry ++ ',' :: lines depth closing rest entries) := by
  have text : lines depth closing rest (entry :: entries) =
      newline (depth + 1) ++ (entry ++ ',' :: lines depth closing rest entries) := by
    simp [lines]
  rw [text, skip_newline, starts, List.cons_append, skip_solid solid]

/-- Wherever reading of the entries stands, blanks can be passed. -/
theorem skip_lines (depth : Nat) (rest : List Char) (solid : Solid closing)
    (starts : ∀ entry ∈ entries, ∃ first text, entry = first :: text ∧ Opens first) :
    ∃ after, skip (lines depth closing rest entries) = .ok after := by
  cases entries with
  | nil => exact ⟨_, skip_lines_nil solid⟩
  | cons entry entries =>
    obtain ⟨first, text, starts, opens⟩ := starts entry List.mem_cons_self
    exact ⟨_, skip_lines_cons opens.1 starts⟩

theorem readElements_lines (faithful : c.Faithful) {mode : Mode} (plain : mode.Plain)
    (items : List α) (fuel : Nat) (enough : items.length < fuel) {s : List Char}
    (same : skip s = skip (lines depth ']' rest (items.map (c.write (depth + 1))))) :
    readElements (c.read mode) ']' fuel true s = .ok (items, ']' :: rest) := by
  have solid : Solid ']' := ⟨rfl, by decide⟩
  induction items generalizing fuel s with
  | nil =>
    obtain ⟨fuel, rfl⟩ : ∃ n, fuel = n + 1 := ⟨fuel - 1, by omega⟩
    rw [List.map_nil, skip_lines_nil solid] at same
    simp only [readElements, same, ok_bind, if_pos]
    rfl
  | cons a items ih =>
    obtain ⟨fuel, rfl⟩ : ∃ n, fuel = n + 1 := ⟨fuel - 1, by omega⟩
    obtain ⟨first, text, written, opens⟩ := faithful.starts (depth + 1) a
    rw [List.map_cons, skip_lines_cons opens.1 written] at same
    have read := faithful.reads (depth + 1) a plain
      (.comma : Ends (',' :: lines depth ']' rest (items.map (c.write (depth + 1)))))
    have enough : items.length < fuel := Nat.lt_of_succ_lt_succ enough
    have starts : ∀ entry ∈ items.map (c.write (depth + 1)), ∃ first text,
        entry = first :: text ∧ Opens first :=
      List.forall_mem_map.mpr fun a _ => faithful.starts (depth + 1) a
    obtain ⟨after, skips⟩ := skip_lines depth rest solid starts
    have others := ih fuel enough ((skip_skipFrom .blank _ skips).trans skips.symm)
    rw [written, List.cons_append] at same read
    simp only [readElements, same, ok_bind, if_neg opens.2.2.1, if_pos, read, comma_comma skips,
      others]
    rfl

theorem Faithful.list (faithful : c.Faithful) : c.list.Faithful where
  starts depth items := by
    cases items with
    | nil => exact ⟨'[', _, rfl, .of_class (· = '[') rfl rfl⟩
    | cons a items => exact ⟨'[', _, rfl, .of_class (· = '[') rfl rfl⟩
  reads {mode} depth items rest plain ends := by
    have opened {s : List Char} (enough : items.length ≤ s.length)
        (same : skip s = skip (lines depth ']' rest (items.map (c.write (depth + 1))))) :
        c.list.read mode ('[' :: s) = .ok (items, rest) := by
      have elements := readElements_lines faithful (plain.below 2) items _
        (Nat.lt_succ_of_le enough) same
      simp only [Codec.list, expect_self, ok_bind, elements]
      rfl
    cases items with
    | nil =>
      have solid : Solid ']' := ⟨rfl, by decide⟩
      apply opened (s := ']' :: rest) (Nat.zero_le _)
      rw [List.map_nil, skip_lines_nil solid, skip_solid solid]
    | cons a items =>
      show c.list.read mode (bracket _ _ _ _ ++ rest) = _
      rw [bracket_append]
      apply opened _ rfl
      rw [← List.length_map (f := c.write (depth + 1))]
      exact length_le_lines

end Brackets

end Codec
end Parley
