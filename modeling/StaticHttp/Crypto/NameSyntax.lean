import StaticHttp.Bytes.Basic

/-!
# Name syntax in certificates

The names a certificate holds, and the constraints on names it sets, are checked for their
form only.

* IA5 text is ASCII: every byte below 128.
* A domain is empty, or dot-separated labels that are all non-empty and made of the printable
  ASCII characters from `!` to `~`; so a domain ends in no dot, and starts with none.
* An IP mask is some `FF` bytes, then perhaps one byte of leading one bits, then zero bytes.
* A mailbox is a local part, `@`, and a domain. The local part is a quoted string, or atoms
  with dots between them, where a backslash takes the next byte as it is; the atoms must not
  start or end with a dot nor hold two dots together.

Main statements:
* `NameSyntax.maskOk_of_all_ff`: a mask of `FF` bytes only is valid.
-/

namespace StaticHttp

namespace Crypto

namespace NameSyntax

/-- Whether text is IA5: every byte ASCII. -/
def ia5 (s : Bytes) : Bool := s.all (· < 0x80)

/-- Whether text is a domain: empty, or non-empty labels of printable ASCII between dots. -/
def domainOk (s : Bytes) : Bool :=
  s.isEmpty || (s.splitOn 46).all fun l => !l.isEmpty && l.all fun c => 33 ≤ c && c ≤ 126

/-- Whether bytes are an IP mask: leading one bits, then zero bits. -/
def maskOk : Bytes → Bool
  | [] => true
  | b :: rest =>
    if b == 0xff then maskOk rest
    else [0x00, 0x80, 0xc0, 0xe0, 0xf0, 0xf8, 0xfc, 0xfe].contains b && rest.all (· == 0)

/-- Whether a byte may stand in an atom of a local part: letters, digits, a dot, and the
symbols other than the quote, brackets, `@`, `,`, `;`, `:`, `<`, `>` and the backslash. -/
def atomByte (c : Byte) : Bool :=
  Byte.isDigit c || Byte.isLower c || Byte.isUpper c ||
    [33, 35, 36, 37, 38, 39, 42, 43, 45, 47, 61, 63, 94, 95, 96, 123, 124, 125, 126, 46].contains c

/-- Whether a byte may stand as itself in a quoted local part: controls other than tab, line
feed and carriage return, the space, and the printable bytes other than the quote and the
backslash. -/
def quotedByte (c : Byte) : Bool :=
  c == 11 || c == 12 || c == 32 || c == 33 || c == 127 || (1 ≤ c && c ≤ 8) ||
    (14 ≤ c && c ≤ 31) || (35 ≤ c && c ≤ 91) || (93 ≤ c && c ≤ 126)

/-- Whether a byte may follow a backslash in a quoted local part. -/
def pairByte (c : Byte) : Bool :=
  c == 11 || c == 12 || (1 ≤ c && c ≤ 9) || (14 ≤ c && c ≤ 127)

/-- Reads a quoted local part after its opening quote: what follows the closing quote. -/
def quoted : Bytes → Option Bytes
  | [] => none
  | 34 :: rest => some rest
  | 92 :: c :: rest => if pairByte c then quoted rest else none
  | c :: rest => if c != 92 && quotedByte c then quoted rest else none

/-- Reads atoms of a local part: its bytes and what follows them, or nothing when a backslash
ends the text. -/
def atoms : Bytes → Option (Bytes × Bytes)
  | [] => some ([], [])
  | [92] => none
  | 92 :: c :: rest => (atoms rest).map fun (l, r) => (c :: l, r)
  | c :: rest =>
    if atomByte c then (atoms rest).map fun (l, r) => (c :: l, r) else some ([], c :: rest)

/-- Whether bytes hold two dots together. -/
def twoDots : Bytes → Bool
  | 46 :: 46 :: _ => true
  | _ :: rest => twoDots rest
  | [] => false

/-- Whether text is a mailbox: a local part, `@` and a domain. -/
def mailboxOk (s : Bytes) : Bool :=
  match s with
  | [] => false
  | 34 :: rest =>
    match quoted rest with
    | some (64 :: domain) => domainOk domain
    | _ => false
  | _ =>
    match atoms s with
    | some (localPart, 64 :: domain) =>
      !localPart.isEmpty && localPart.head? != some 46 && localPart.getLast? != some 46 &&
        !twoDots localPart && domainOk domain
    | _ => false

theorem maskOk_of_all_ff (s : Bytes) (h : s.all (· == 0xff) = true) : maskOk s = true := by
  induction s with
  | nil => rfl
  | cons b rest ih =>
    simp only [List.all_cons, Bool.and_eq_true] at h
    have hb : b = 0xff := by simpa using h.1
    simp [maskOk, hb, ih h.2]

end NameSyntax

end Crypto

end StaticHttp
