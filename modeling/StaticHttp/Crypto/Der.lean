import StaticHttp.Text.Utf8

/-!
# Strict DER reading

Certificates are read element by element under the distinguished encoding rules. An element
has a one-byte tag whose number is below thirty-one, and a length in its shortest form: below
128 in the length byte itself, else in one to four bytes that do not start with zero and give at
least 128. Each element is read with the tag it must have; a reading that fails gives nothing,
and the reader of a certificate names the part that failed.

Integers are two's complement in their shortest form. An object identifier is a list of
base-128 numbers, each in its shortest form and below `2 ^ 31`, the first standing for the first
two components. A bit string starts with the count of unused bits, at most seven, which must be
zero bits. A time is valid when it is written back the same way: a two-digit year, or a
four-digit one for the general form, then month, day, hour, minute and, except in the short
form, second, and a zone `Z` or a nonzero offset; the general form takes no fraction of a
second.
-/

namespace StaticHttp

namespace Crypto

/-- A DER element: its tag, the length of its header and its contents. -/
structure Element where
  tag : Byte
  headerLength : Nat
  contents : Bytes
  deriving DecidableEq, Repr

namespace Der

/-- The big-endian number of some bytes. -/
def bigEndian (b : Bytes) : Nat := b.foldl (fun acc x => acc * 256 + x.toNat) 0

/-- Reads the element at the front of some bytes, and gives what follows it. -/
def readAny : Bytes → Option (Element × Bytes)
  | tag :: len :: rest =>
    if tag &&& 0x1f == 0x1f then none
    else if len < 0x80 then
      if rest.length < len.toNat then none
      else some (⟨tag, 2, rest.take len.toNat⟩, rest.drop len.toNat)
    else
      let k := (len &&& 0x7f).toNat
      if k == 0 || k > 4 || rest.length < k then none
      else
        let n := bigEndian (rest.take k)
        if n < 128 || n / Nat.pow 256 (k - 1) == 0 then none
        else
          let body := rest.drop k
          if body.length < n then none
          else some (⟨tag, 2 + k, body.take n⟩, body.drop n)
  | _ => none

/-- The whole bytes of the element at the front of some bytes, header included. -/
def readAnyWhole (s : Bytes) : Option (Bytes × Bytes) :=
  (readAny s).map fun (e, rest) => (s.take (e.headerLength + e.contents.length), rest)

/-- Reads an element with a given tag: its contents and what follows it. -/
def read (tag : Byte) (s : Bytes) : Option (Bytes × Bytes) :=
  match readAny s with
  | some (e, rest) => if e.tag == tag then some (e.contents, rest) else none
  | none => none

/-- Reads an element with a given tag, whole with its header, and what follows it. -/
def readWhole (tag : Byte) (s : Bytes) : Option (Bytes × Bytes) :=
  match readAny s with
  | some (e, rest) =>
    if e.tag == tag then some (s.take (e.headerLength + e.contents.length), rest) else none
  | none => none

/-- Whether the next element has a given tag. -/
def peek (tag : Byte) (s : Bytes) : Bool := s.head? == some tag

/-- Reads an element with a given tag if the next one has it: none as contents when it has
not. -/
def readOptional (tag : Byte) (s : Bytes) : Option (Option Bytes × Bytes) :=
  if peek tag s then (read tag s).map fun (c, rest) => (some c, rest) else some (none, s)

/-- Whether the contents of an integer are in shortest form. -/
def minimalInteger : Bytes → Bool
  | [] => false
  | [_] => true
  | a :: b :: _ => !((a == 0 && b < 0x80) || (a == 0xff && b ≥ 0x80))

/-- The two's complement value of some bytes. -/
def signed (b : Bytes) : Int :=
  match b with
  | [] => 0
  | a :: _ => if a < 0x80 then bigEndian b else (bigEndian b : Int) - Int.pow 256 b.length

/-- Reads an integer of any size. -/
def readInteger (s : Bytes) : Option (Int × Bytes) :=
  match read 2 s with
  | some (c, rest) => if minimalInteger c then some (signed c, rest) else none
  | none => none

/-- Reads an integer that fits in 64 bits. -/
def readInt64 (s : Bytes) : Option (Int × Bytes) :=
  match read 2 s with
  | some (c, rest) => if minimalInteger c && c.length ≤ 8 then some (signed c, rest) else none
  | none => none

/-- Reads a base-128 number at the front of some bytes: at most five bytes, shortest form, and
below `2 ^ 31`. `count` is the number of bytes read so far. -/
def base128 (count acc : Nat) : Bytes → Option (Nat × Bytes)
  | [] => none
  | b :: rest =>
    if count == 5 || acc ≥ Nat.pow 2 24 || (count == 0 && b == 0x80) then none
    else
      let acc := acc * 128 + (b &&& 0x7f).toNat
      if b &&& 0x80 == 0 then some (acc, rest) else base128 (count + 1) acc rest

/-- The later components of an object identifier. -/
def components : Nat → Bytes → Option (List Nat)
  | _, [] => some []
  | 0, _ :: _ => none
  | fuel + 1, b :: bs => do
    let (v, rest) ← base128 0 0 (b :: bs)
    let vs ← components fuel rest
    pure (v :: vs)

/-- The components of an object identifier's contents. -/
def objectIdentifier (c : Bytes) : Option (List Nat) := do
  if c.isEmpty then none
  let (v, rest) ← base128 0 0 c
  let firstTwo := if v < 80 then [v / 40, v % 40] else [2, v - 80]
  let more ← components rest.length rest
  pure (firstTwo ++ more)

/-- Reads an object identifier. -/
def readOid (s : Bytes) : Option (List Nat × Bytes) := do
  let (c, rest) ← read 6 s
  let oid ← objectIdentifier c
  pure (oid, rest)

/-- A bit string: its bytes and the number of unused bits in the last one. -/
structure BitString where
  bytes : Bytes
  unused : Nat
  deriving DecidableEq, Repr

/-- The bits of a bit string as bytes, shifted so that the unused bits stand at the front. -/
def BitString.rightAlign (b : BitString) : Bytes :=
  if b.unused == 0 || b.bytes.isEmpty then b.bytes
  else
    let shift := b.unused
    let rec go (prev : Byte) : Bytes → Bytes
      | [] => []
      | x :: xs => ((prev <<< (8 - shift).toUInt8) ||| (x >>> shift.toUInt8)) :: go x xs
    match b.bytes with
    | [] => []
    | x :: xs => (x >>> shift.toUInt8) :: go x xs

/-- Reads a bit string. -/
def readBitString (s : Bytes) : Option (BitString × Bytes) := do
  let (c, rest) ← read 3 s
  match c with
  | [] => none
  | pad :: body =>
    if pad > 7 then none
    else if body.isEmpty && pad != 0 then none
    else if !body.isEmpty && (body.getLastD 0 &&& ((1 <<< pad) - 1)) != 0 then none
    else some (⟨body, pad.toNat⟩, rest)

/-- Reads a Boolean, `0` or `FF`. -/
def readBoolean (s : Bytes) : Option (Bool × Bytes) := do
  let (c, rest) ← read 1 s
  match c with
  | [0] => some (false, rest)
  | [0xff] => some (true, rest)
  | _ => none

/-- The value of the two decimal digits at a place. -/
def twoDigits (b : Bytes) (i : Nat) : Option Nat :=
  match b[i]?, b[i + 1]? with
  | some x, some y =>
    if Byte.isDigit x && Byte.isDigit y then some ((x.toNat - 48) * 10 + (y.toNat - 48)) else none
  | _, _ => none

/-- The days of a month in a year of the Gregorian calendar. -/
def daysIn (m : Nat) (y : Nat) : Nat :=
  if m == 2 then (if y % 4 == 0 && (y % 100 != 0 || y % 400 == 0) then 29 else 28)
  else if m == 4 || m == 6 || m == 9 || m == 11 then 30
  else 31

/-- Whether a zone is written as it is written back: `Z`, or an offset `+hhmm` or `-hhmm` of at
most twenty-four hours and fewer than sixty minutes that is not zero. -/
def zoneOk : Bytes → Bool
  | [90] => true
  | [s, a, b, c, d] =>
    (s == 43 || s == 45) &&
      match twoDigits [a, b, c, d] 0, twoDigits [a, b, c, d] 2 with
      | some h, some m => h ≤ 24 && m < 60 && !(h == 0 && m == 0)
      | _, _ => false
  | _ => false

/-- Whether month, day, hour, minute and, when `seconds` holds, second digits at the front of
some bytes, and what follows them, make a valid time in a year; `tail` checks what follows. -/
def clockOk (year : Nat) (seconds : Bool) (tail : Bytes → Bool) (b : Bytes) : Bool :=
  let fields := if seconds then 5 else 4
  match (List.range fields).mapM fun i => twoDigits b (2 * i) with
  | some (mo :: d :: h :: mi :: rest) =>
    let s := rest.headD 0
    1 ≤ mo && mo ≤ 12 && 1 ≤ d && d ≤ daysIn mo year && h < 24 && mi < 60 && s < 60 &&
      tail (b.drop (2 * fields))
  | _ => false

/-- Whether a two-digit-year time is valid, with seconds or in the short form without. -/
def utcTimeOk (b : Bytes) : Bool :=
  match twoDigits b 0 with
  | some yy =>
    let year := if yy ≥ 69 then 1900 + yy else 2000 + yy
    clockOk year true zoneOk (b.drop 2) || clockOk year false zoneOk (b.drop 2)
  | none => false

/-- Whether a four-digit-year time is valid: always with seconds and never with a fraction. -/
def generalizedTimeOk (b : Bytes) : Bool :=
  match twoDigits b 0, twoDigits b 2 with
  | some c, some yy => clockOk (c * 100 + yy) true zoneOk (b.drop 4)
  | _, _ => false

/-! The identifiers of the key algorithms. -/

namespace Oid

/-- RSA keys. -/
def rsa : List Nat := [1, 2, 840, 113549, 1, 1, 1]

/-- DSA keys. -/
def dsa : List Nat := [1, 2, 840, 10040, 4, 1]

/-- Elliptic-curve keys. -/
def ecPublicKey : List Nat := [1, 2, 840, 10045, 2, 1]

/-- Ed25519 keys. -/
def ed25519 : List Nat := [1, 3, 101, 112]

/-- X25519 keys. -/
def x25519 : List Nat := [1, 3, 101, 110]

/-- An identifier in dotted form. -/
def text (o : List Nat) : String := ".".intercalate (o.map toString)

end Oid

end Der

end Crypto

end StaticHttp
