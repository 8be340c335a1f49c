import StaticHttp.Text.Utf8
import StaticHttp.Text.Printable

/-!
# Quoted literals

Messages show a byte string or a single byte as a quoted literal that can be pasted back as
source text. A byte string is read as UTF-8 and written between double quotes; a single byte
is taken as the code point of the same number and written between single quotes.

The rule for one character: the delimiting quote and the backslash get a backslash before
them; a printable character stands as itself; the seven control characters with a letter
escape use it (`\a \b \f \n \r \t \v`); any other character below space, and delete, is
written `\xNN`; other characters are written `\uNNNN`, or `\UNNNNNNNN` above `U+FFFF`. A stray
byte of a byte string is written `\xNN`. Hexadecimal digits are lower case.

Main statements:
* `Quoted.ofByte_eq`: the literal of a printable byte other than the quote and backslash is the
  byte between quotes.
-/

namespace StaticHttp

namespace Text

namespace Quoted

/-- The lower-case hexadecimal digits of `n`, padded with zeros to `width` digits. -/
def hexPadded (width n : Nat) : List Char :=
  (List.range width).reverse.map fun i => Byte.hexDigit (n / Nat.pow 16 i % 16)

/-- The escape of one code point inside a literal delimited by `quote`. -/
def escapeCode (quote : Nat) (c : Nat) : List Char :=
  if c == quote || c == 0x5C then ['\\', Char.ofNat c]
  else if isPrintable c then [Char.ofNat c]
  else if c == 7 then ['\\', 'a']
  else if c == 8 then ['\\', 'b']
  else if c == 12 then ['\\', 'f']
  else if c == 10 then ['\\', 'n']
  else if c == 13 then ['\\', 'r']
  else if c == 9 then ['\\', 't']
  else if c == 11 then ['\\', 'v']
  else if c < 0x20 || c == 0x7F then '\\' :: 'x' :: hexPadded 2 c
  else if c < 0x10000 then '\\' :: 'u' :: hexPadded 4 c
  else '\\' :: 'U' :: hexPadded 8 c

/-- The escape of one piece of a UTF-8 reading inside a double-quoted literal. -/
def escapePiece : Utf8.Piece → List Char
  | .scalar c _ => escapeCode 0x22 c.toNat
  | .stray b => '\\' :: 'x' :: hexPadded 2 b.toNat

/-- A byte string as a double-quoted literal. -/
def ofBytes (s : Bytes) : String :=
  String.ofList ('"' :: (Utf8.pieces s).flatMap escapePiece ++ ['"'])

/-- A code point as a single-quoted literal. -/
def ofCode (c : Nat) : String :=
  String.ofList ('\'' :: escapeCode 0x27 c ++ ['\''])

/-- A byte as a single-quoted literal of the code point with the same number. -/
def ofByte (b : Byte) : String := ofCode b.toNat

theorem ofByte_eq (b : Byte) (hp : 0x20 ≤ b.toNat ∧ b.toNat < 0x7F)
    (hq : b.toNat ≠ 0x27) (hs : b.toNat ≠ 0x5C) :
    ofByte b = String.ofList ['\'', Char.ofNat b.toNat, '\''] := by
  have hpr : isPrintable b.toNat = true := by
    simp [isPrintable, hp.2, hp.1]
    omega
  simp [ofByte, ofCode, escapeCode, hq, hs, hpr]

end Quoted

end Text

end StaticHttp
