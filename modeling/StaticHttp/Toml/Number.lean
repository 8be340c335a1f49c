import StaticHttp.Toml.Syntax
import StaticHttp.Text.Quoted

/-!
# Numbers and moments in TOML

The text of an integer, a float or a date and time is checked when it is decoded. An integer
may have a sign or a base prefix `0x`, `0o` or `0b`, and underscores between digits; it must
fit in 64 bits, and a decimal integer has no leading zero. A float has digits on both sides of
its decimal point and its integer part has no leading zero; its value must not round beyond the
largest finite double. A date is `YYYY-MM-DD` with a day that exists, a time `HH:MM:SS` with an
optional fraction, and a date and time may carry a zone.

Failures point at the offending bytes through the offset of the value's text.
-/

namespace StaticHttp

namespace Toml

/-- Why the standard number reading rejects a text. -/
inductive NumberError where
  | invalid
  | outOfRange
  deriving DecidableEq, Repr

/-- The text of a number reading failure, for the reading function `fn`. -/
def NumberError.text (e : NumberError) (fn : String) (s : Bytes) : String :=
  "strconv." ++ fn ++ ": parsing " ++ Text.Quoted.ofBytes s ++ ": " ++
    (match e with | .invalid => "invalid syntax" | .outOfRange => "value out of range")

/-- The largest 64-bit unsigned value. -/
def maxUnsigned : Nat := 18446744073709551615

/-- The value of a digit in a base up to 36: digits, then letters in either case. -/
def digitIn (base : Nat) (c : Byte) : Option Nat :=
  let d :=
    if 48 ≤ c && c ≤ 57 then some (c.toNat - 48)
    else if 97 ≤ c && c ≤ 122 then some (c.toNat - 87)
    else if 65 ≤ c && c ≤ 90 then some (c.toNat - 55)
    else none
  d.filter (· < base)

/-- Reads digits in a base as an unsigned 64-bit value, failing at the first byte that is no
digit or that takes the value out of range. -/
def unsignedValue (base : Nat) (s : Bytes) : Except NumberError Nat :=
  if s.isEmpty then .error .invalid
  else s.foldlM (fun n c => do
    match digitIn base c with
    | none => throw .invalid
    | some d =>
      if n ≥ maxUnsigned / base + 1 then throw .outOfRange
      let n1 := n * base + d
      if n1 > maxUnsigned then throw .outOfRange
      pure n1) 0

/-- Reads a signed 64-bit integer in a base. -/
def signedValue (base : Nat) (s : Bytes) : Except NumberError Int :=
  match s with
  | [] => .error .invalid
  | c :: rest =>
    let (neg, digits) := if c == 43 then (false, rest) else if c == 45 then (true, rest) else (false, s)
    match unsignedValue base digits with
    | .error .invalid => .error .invalid
    | .error .outOfRange => .error .outOfRange
    | .ok u =>
      if !neg && u ≥ 9223372036854775808 then .error .outOfRange
      else if neg && u > 9223372036854775808 then .error .outOfRange
      else .ok (if neg then -(u : Int) else u)

/-- Removes the underscores of an integer's digits at `offset`, checking that each stands
between two digits. -/
def integerDigits (offset : Nat) (b : Bytes) : Except Failure Bytes := do
  let start := if b.head? == some 43 || b.head? == some 45 then 1 else 0
  if b.length == start then return b
  if b.getD start 0 == 95 then throw ⟨offset + start, "number cannot start with underscore"⟩
  if b.getLast? == some 95 then throw ⟨offset + b.length - 1, "number cannot end with underscore"⟩
  match b.findIdx? (· == 95) with
  | none => return b
  | some i =>
    let (_, out) ← (b.drop (i + 1)).zipIdx.foldlM (fun (before, out) (c, k) =>
      if c == 95 then
        if !before then throw ⟨offset + i + k, "number must have at least one digit between underscores"⟩
        else pure (false, out)
      else pure (true, out ++ [c])) (false, b.take i)
    return out

/-- Checks an integer's text at `offset` and gives its value. -/
def integerValue (offset : Nat) (b : Bytes) : Except Failure Int := do
  let based (name : String) (base : Nat) : Except Failure Int := do
    let digits ← integerDigits (offset + 2) (b.drop 2)
    match signedValue base digits with
    | .ok v => return v
    | .error e => throw ⟨offset, "couldn't parse " ++ name ++ " number: " ++ e.text "ParseInt" digits⟩
  if b.length > 2 && b.head? == some 48 then
    let c := b.getD 1 0
    if c == 120 then return ← based "hexadecimal" 16
    if c == 98 then return ← based "binary" 2
    if c == 111 then return ← based "octal" 8
  let cleaned ← integerDigits offset b
  let start := if cleaned.head? == some 43 || cleaned.head? == some 45 then 1 else 0
  if cleaned.length > start + 1 && cleaned.getD start 0 == 48 then
    throw ⟨offset, "leading zero not allowed on decimal number"⟩
  match signedValue 10 cleaned with
  | .ok v => return v
  | .error e => throw ⟨offset, "couldn't parse decimal number: " ++ e.text "ParseInt" cleaned⟩

/-- Removes the underscores of a float's text at `offset`, checking where each stands. -/
def floatDigits (offset : Nat) (b : Bytes) : Except Failure Bytes := do
  if b.head? == some 95 then throw ⟨offset, "number cannot start with underscore"⟩
  if b.getLast? == some 95 then throw ⟨offset + b.length - 1, "number cannot end with underscore"⟩
  if !b.contains 95 then return b
  let (_, out) ← b.zipIdx.foldlM (fun (before, out) (c, i) => do
    let next := b.getD (i + 1) 0
    let hasNext := i + 1 < b.length
    if c == 95 then
      if !before then throw ⟨offset + i - 1, "number must have at least one digit between underscores"⟩
      if hasNext && (next == 101 || next == 69) then
        throw ⟨offset + i + 1, "cannot have underscore before exponent"⟩
      pure (false, out)
    else if c == 43 || c == 45 then pure (false, out ++ [c])
    else if c == 101 || c == 69 then
      if hasNext && next == 95 then throw ⟨offset + i + 1, "cannot have underscore after exponent"⟩
      pure (before, out ++ [c])
    else if c == 46 then
      if hasNext && next == 95 then throw ⟨offset + i + 1, "cannot have underscore after decimal point"⟩
      if i > 0 && b.getD (i - 1) 0 == 95 then throw ⟨offset + i - 1, "cannot have underscore before decimal point"⟩
      pure (before, out ++ [c])
    else pure (true, out ++ [c])) (false, [])
  return out

/-- The smallest value that rounds beyond the largest finite double. -/
def floatOverflow : Nat := Nat.pow 2 1024 - Nat.pow 2 970

/-- Whether a decimal mantissa and exponent give a value that rounds beyond the largest finite
double. -/
def overflows (m : Nat) (e : Int) : Bool :=
  if m = 0 then false
  else
    let size := (toString m).length
    if size + e > 400 then true
    else if size + e < 300 then false
    else if e ≥ 0 then m * Nat.pow 10 e.toNat ≥ floatOverflow
    else m ≥ floatOverflow * Nat.pow 10 e.natAbs

/-- Reads decimal digits from the front: their value, their count and what follows. -/
def leadingDigits (b : Bytes) : Nat × Nat × Bytes :=
  let ds := b.takeWhile Byte.isDigit
  (ds.foldl (fun n c => n * 10 + (c.toNat - 48)) 0, ds.length, b.drop ds.length)

/-- Reads a float in decimal form as the standard reading does: a sign, digits with at most one
point, and an exponent; the special values `inf`, `infinity` and `nan` in any case. -/
def floatCheck (s : Bytes) : Except NumberError Unit := do
  let lower := s.map Byte.toLower
  let unsigned := if lower.head? == some 43 || lower.head? == some 45 then lower.drop 1 else lower
  if unsigned == Bytes.ofString "inf" || unsigned == Bytes.ofString "infinity" then return ()
  if lower == Bytes.ofString "nan" then return ()
  let (m1, n1, rest) := leadingDigits unsigned
  let (m, digits, frac, rest) :=
    if rest.head? == some 46 then
      let (m2, n2, rest2) := leadingDigits (rest.drop 1)
      (m1 * Nat.pow 10 n2 + m2, n1 + n2, n2, rest2)
    else (m1, n1, 0, rest)
  if digits = 0 then throw .invalid
  let e ← match rest with
    | [] => pure (0 : Int)
    | c :: more =>
      if c != 101 then throw .invalid
      let (neg, more) := if more.head? == some 43 then (false, more.drop 1)
        else if more.head? == some 45 then (true, more.drop 1) else (false, more)
      let (v, n, after) := leadingDigits more
      if n = 0 || !after.isEmpty then throw .invalid
      pure (if neg then -(v : Int) else v)
  if overflows m (e - frac) then throw .outOfRange

/-- Checks a float's text at `offset`. -/
def floatValue (offset : Nat) (b : Bytes) : Except Failure Unit := do
  if b.length == 4 && (b.head? == some 43 || b.head? == some 45) && b.drop 1 == Bytes.ofString "nan" then
    return ()
  let cleaned ← floatDigits offset b
  if cleaned.head? == some 46 then throw ⟨offset, "float cannot start with a dot"⟩
  if cleaned.getLast? == some 46 then throw ⟨offset, "float cannot end with a dot"⟩
  let _ ← cleaned.zipIdx.foldlM (fun seen (c, i) => do
    if c != 46 then return seen
    if seen then throw ⟨offset + i, "float can have at most one decimal point"⟩
    if !Byte.isDigit (cleaned.getD (i - 1) 0) then
      throw ⟨offset + i - 1, "float decimal point must be preceded by a digit"⟩
    if !Byte.isDigit (cleaned.getD (i + 1) 0) then
      throw ⟨offset + i, "float decimal point must be followed by a digit"⟩
    return true) false
  let start := if cleaned.head? == some 43 || cleaned.head? == some 45 then 1 else 0
  if cleaned.getD start 0 == 48 && cleaned.length > start + 1 && Byte.isDigit (cleaned.getD (start + 1) 0) then
    throw ⟨offset, "float integer part cannot have leading zeroes"⟩
  match floatCheck cleaned with
  | .ok () => return ()
  | .error e => throw ⟨offset, "unable to parse float: " ++ e.text "ParseFloat" cleaned⟩

/-- Reads decimal digits at `offset`, failing at the first that is none. -/
def decimalDigits (offset : Nat) (b : Bytes) : Except Failure Nat :=
  b.zipIdx.foldlM (fun v (c, i) =>
    if Byte.isDigit c then pure (v * 10 + (c.toNat - 48))
    else throw ⟨offset + i, "expected digit (0-9)"⟩) 0

/-- Whether a year is a leap year. -/
def isLeap (y : Nat) : Bool := y % 4 == 0 && (y % 100 != 0 || y % 400 == 0)

/-- The number of days of a month. -/
def daysIn (m y : Nat) : Nat :=
  if m == 2 then (if isLeap y then 29 else 28)
  else if m == 4 || m == 6 || m == 9 || m == 11 then 30 else 31

/-- Checks a date `YYYY-MM-DD` at `offset`. -/
def localDate (offset : Nat) (b : Bytes) : Except Failure Unit := do
  if b.length != 10 || b.getD 4 0 != 45 || b.getD 7 0 != 45 then
    throw ⟨offset, "dates are expected to have the format YYYY-MM-DD"⟩
  let y ← decimalDigits offset (b.take 4)
  let m ← decimalDigits (offset + 5) ((b.drop 5).take 2)
  let d ← decimalDigits (offset + 8) ((b.drop 8).take 2)
  if !(0 < m && m < 13 && 0 < d && d ≤ daysIn m y) then throw ⟨offset, "impossible date"⟩

/-- Checks a time `HH:MM:SS` with an optional fraction at `offset`; gives the offset and bytes
that follow it. A point that ends the value has no digits to count; one followed by something
else needs a digit next. -/
def localTime (offset : Nat) (b : Bytes) : Except Failure (Nat × Bytes) := do
  if b.length < 8 then throw ⟨offset, "times are expected to have the format HH:MM:SS[.NNNNNN]"⟩
  let h ← decimalDigits offset (b.take 2)
  if h > 23 then throw ⟨offset, "hour cannot be greater 23"⟩
  if b.getD 2 0 != 58 then throw ⟨offset + 2, "expecting colon between hours and minutes"⟩
  let m ← decimalDigits (offset + 3) ((b.drop 3).take 2)
  if m > 59 then throw ⟨offset + 3, "minutes cannot be greater 59"⟩
  if b.getD 5 0 != 58 then throw ⟨offset + 5, "expecting colon between minutes and seconds"⟩
  let s ← decimalDigits (offset + 6) ((b.drop 6).take 2)
  if s > 60 then throw ⟨offset + 6, "seconds cannot be greater 60"⟩
  let rest := b.drop 8
  if rest.head? == some 46 then
    let digits := ((rest.drop 1).takeWhile Byte.isDigit).length
    if rest.length = 1 then throw ⟨offset + 8, "nanoseconds need at least one digit"⟩
    if digits = 0 then throw ⟨offset + 8, "need at least one digit after fraction point"⟩
    return (offset + 9 + digits, rest.drop (1 + digits))
  return (offset + 8, rest)

/-- Checks a date and time at `offset`; gives the offset and bytes after the time. -/
def localDateTime (offset : Nat) (b : Bytes) : Except Failure (Nat × Bytes) := do
  if b.length < 11 then
    throw ⟨offset, "local datetimes are expected to have the format YYYY-MM-DDTHH:MM:SS[.NNNNNNNNN]"⟩
  localDate offset (b.take 10)
  let sep := b.getD 10 0
  if sep != 84 && sep != 32 && sep != 116 then
    throw ⟨offset + 10, "datetime separator is expected to be T or a space"⟩
  localTime (offset + 11) (b.drop 11)

/-- Checks a moment's text at `offset`. -/
def momentValue (kind : Moment) (offset : Nat) (b : Bytes) : Except Failure Unit := do
  match kind with
  | .localDate => localDate offset b
  | .localTime =>
    let (o, rest) ← localTime offset b
    if !rest.isEmpty then throw ⟨o, "extra characters at the end of a local time"⟩
  | .localDateTime =>
    let (o, rest) ← localDateTime offset b
    if !rest.isEmpty then throw ⟨o, "extra characters at the end of a local date time"⟩
  | .dateTime =>
    let (o, rest) ← localDateTime offset b
    match rest with
    | [] => throw ⟨o, "date time should have a timezone"⟩
    | c :: more =>
      if c == 90 || c == 122 then
        if !more.isEmpty then throw ⟨o + 1, "extra bytes at the end of the timezone"⟩
      else
        if rest.length != 6 then throw ⟨o, "invalid date-time timezone"⟩
        if c != 45 && c != 43 then throw ⟨o, "invalid timezone offset character"⟩
        if rest.getD 3 0 != 58 then throw ⟨o + 3, "expected a : separator"⟩
        let hours ← decimalDigits (o + 1) ((rest.drop 1).take 2)
        if hours > 23 then throw ⟨o, "invalid timezone offset hours"⟩
        let minutes ← decimalDigits (o + 4) ((rest.drop 4).take 2)
        if minutes > 59 then throw ⟨o, "invalid timezone offset minutes"⟩

end Toml

end StaticHttp
