import StaticHttp.Bytes.Basic
import StaticHttp.Text.Utf8
import StaticHttp.Text.Printable

/-!
# TOML documents

A TOML document is a sequence of expressions: a key and a value, a table header `[key]`, or an
array table header `[[key]]`. A key is a list of parts, each a bare name or a quoted string. A
value is a string, a number, a Boolean, a date or time, an array, or an inline table. Every key
part and value remembers the offset in the document where its text begins, because failures are
reported at a line and column.

Main statements:
* `Toml.position_nil`: the start of a document is line 1, column 1.
-/

namespace StaticHttp

namespace Toml

/-- A failure while reading or decoding a document, at the offset of the text it is about. -/
structure Failure where
  offset : Nat
  message : String
  deriving DecidableEq, Repr

/-- One part of a key: its decoded name and the offset where its text begins. -/
structure KeyPart where
  name : Bytes
  offset : Nat
  deriving DecidableEq, Repr

/-- A key: one part, or several joined by dots. -/
abbrev Key := List KeyPart

/-- The four kinds of date and time values. -/
inductive Moment where
  | dateTime | localDateTime | localDate | localTime
  deriving DecidableEq, Repr

/-- A value as written, with the offset where its text begins. Numbers and moments keep their
text, which is checked only when the value is decoded. -/
inductive Value where
  | string (data : Bytes) (offset : Nat)
  | integer (raw : Bytes) (offset : Nat)
  | float (raw : Bytes) (offset : Nat)
  | boolean (b : Bool) (offset : Nat)
  | moment (kind : Moment) (raw : Bytes) (offset : Nat)
  | array (items : List Value) (offset : Nat)
  | inlineTable (members : List (Key × Value)) (offset : Nat)
  deriving Repr

/-- The offset where a value's text begins. -/
def Value.offset : Value → Nat
  | .string _ o | .integer _ o | .float _ o | .boolean _ o | .moment _ _ o | .array _ o
  | .inlineTable _ o => o

/-- One expression of a document. -/
inductive Expr where
  | keyValue (key : Key) (value : Value)
  | table (key : Key)
  | arrayTable (key : Key)
  deriving Repr

/-- The line and column of an offset: lines count line feeds, columns count bytes, both from 1. -/
def position (doc : Bytes) (offset : Nat) : Nat × Nat :=
  (doc.take offset).foldl (fun (rc : Nat × Nat) (b : Byte) => if b == 10 then (rc.1 + 1, 1) else (rc.1, rc.2 + 1)) (1, 1)

/-- A code as `U+` and at least four upper-case hexadecimal digits, followed by the character
in single quotes when it is printable. -/
def codeText (c : Nat) : String :=
  let digits := (Nat.toDigits 16 c).map Char.toUpper
  let hex := "U+" ++ String.ofList (List.replicate (4 - digits.length) '0' ++ digits)
  if Text.isPrintable c then hex ++ " '" ++ (Char.ofNat c).toString ++ "'" else hex

/-- A byte as the character with its code. -/
def byteChar (b : Byte) : String := (Char.ofNat b.toNat).toString

/-- Whether an ASCII byte may not appear as it is in a string or comment: the control
characters other than tab and the line breaks, and DEL. -/
def controlByte (b : Byte) : Bool :=
  b < 9 || b == 11 || b == 12 || (14 ≤ b && b < 32) || b == 127

/-- The length of the character at the front of some bytes when it is well-formed UTF-8 and
may appear as it is in a document, or zero. -/
def charSize (b : Bytes) : Nat :=
  match Utf8.lead? b with
  | some (_, n) => if n = 1 && b.head?.any controlByte then 0 else n
  | none => 0

theorem position_nil (doc : Bytes) : position doc 0 = (1, 1) := by
  simp [position]

end Toml

end StaticHttp
