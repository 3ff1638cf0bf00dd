import Parley.Text.Escaped

/-! Quoted text. The quote, the backslash and four control characters are written by name, other
escaped characters by their code point in hexadecimal, and the rest as themselves. In saved
documents the apostrophe is written with a backslash as well. -/
namespace Parley.Text

/-- The letter that stands for a character behind a backslash, if it has one. -/
def escapeName? : Char → Option Char
  | '\x00' => some '0'
  | '\t' => some 't'
  | '\r' => some 'r'
  | '\n' => some 'n'
  | '\\' => some '\\'
  | '"' => some '"'
  | _ => none

def codePoint (c : Char) : List Char :=
  ['\\', 'u', '{'] ++ Nat.toDigits 16 c.toNat ++ ['}']

/-- One character inside quotes. -/
def quoteChar (c : Char) : List Char :=
  match escapeName? c with
  | some name => ['\\', name]
  | none => if isEscaped c then codePoint c else [c]

/-- Text in double quotes as it is shown. -/
def quoted (text : List Char) : List Char := '"' :: text.flatMap quoteChar ++ ['"']

/-- One character inside the quotes of a saved document. -/
def literalChar (c : Char) : List Char := if c = '\'' then ['\\', '\''] else quoteChar c

/-- Text in double quotes as it is saved. -/
def literal (text : List Char) : List Char := '"' :: text.flatMap literalChar ++ ['"']

end Parley.Text
