import StaticHttp.Toml.Scan

/-!
# Parsing TOML expressions

A document is read one expression at a time: blanks, then a comment, a table header, or a key
with its value, then blanks and an optional comment; expressions are separated by line breaks.
A value is recognised by its first byte: quotes begin strings, `t` and `f` Booleans, `[` arrays,
`{` inline tables; anything else is a number, or a date or time when its first bytes look like
one. Numbers and moments are delimited here and checked when they are decoded.

`Toml.document` gives the expressions read before the first failure, and that failure, so that
a caller can act on the expressions in order and meet the failure where it stands.
-/

namespace StaticHttp

namespace Toml

/-- Fails unless the current byte is `x`, and moves past it. -/
def expect (x : Byte) : Scan Unit := do
  let p ← get
  match ← byteAt p with
  | none => fail p ("expected character " ++ byteChar x ++ " but the document ended here")
  | some c => if c == x then set (p + 1) else fail p ("expected character " ++ byteChar x)

/-- Reads one part of a key. -/
def simpleKey : Scan KeyPart := do
  let p ← get
  match ← byteAt p with
  | none => fail p "expected key but found none"
  | some c =>
    if c == 39 then return ⟨← literalString, p⟩
    else if c == 34 then return ⟨← basicString, p⟩
    else if isKeyChar c then return ⟨← unquotedKey, p⟩
    else fail p ("invalid character at start of key: " ++ byteChar c)

/-- Reads the parts of a key after its first, each after a dot. -/
def keyRest : Nat → Scan (List KeyPart)
  | 0 => pure []
  | fuel + 1 => do
    ws
    if (← current) == some 46 then
      skipBytes 1
      ws
      let k ← simpleKey
      return k :: (← keyRest fuel)
    else return []

/-- Reads a key. -/
def key : Scan Key := do
  let k ← simpleKey
  return k :: (← keyRest (← docSize))

/-- Whether the first bytes of a value, up to five, look like a date or a time: digits up to
a colon in third place or a dash in fifth. -/
def looksLikeMoment : Bytes → Nat → Bool
  | [], _ => false
  | c :: rest, idx =>
    if Byte.isDigit c then looksLikeMoment rest (idx + 1)
    else (idx == 2 && c == 58) || (idx == 4 && c == 45)

/-- The bytes of hexadecimal, octal and binary integers after their prefix. -/
def isHexRune (c : Byte) : Bool := (hexDigitValue c).isSome || c == 95
def isOctalRune (c : Byte) : Bool := (48 ≤ c && c ≤ 55) || c == 95
def isBinaryRune (c : Byte) : Bool := c == 48 || c == 49 || c == 95

/-- The offset of the first byte from `i` that `ok` rejects. -/
def spanWhile (ok : Byte → Bool) (i : Nat) : Nat → Scan Nat
  | 0 => pure i
  | fuel + 1 => do
    match ← byteAt i with
    | some c => if ok c then spanWhile ok (i + 1) fuel else return i
    | none => return i

/-- Reads a number in decimal form, which may be a float; gives its end and whether it is a
float. -/
def decimalEnd (p : Nat) (isFloat : Bool) (i : Nat) : Nat → Scan (Nat × Bool)
  | 0 => pure (i, isFloat)
  | fuel + 1 => do
    match ← byteAt i with
    | none => return (i, isFloat)
    | some c =>
      if Byte.isDigit c || c == 43 || c == 45 || c == 95 then decimalEnd p isFloat (i + 1) fuel
      else if c == 46 || c == 101 || c == 69 then decimalEnd p true (i + 1) fuel
      else if c == 105 then
        if ← followsAt i "inf" then return (i + 3, true)
        else fail i "unexpected character 'i' while scanning for a number"
      else if c == 110 then
        if ← followsAt i "nan" then return (i + 3, true)
        else fail i "unexpected character 'n' while scanning for a number"
      else return (i, isFloat)

/-- Reads an integer or a float. -/
def intOrFloat : Scan Value := do
  let p ← get
  let size ← docSize
  let b1 ← byteAt (p + 1)
  if size - p > 2 && (← byteAt p) == some 48 && b1 != some 46 && b1 != some 101 && b1 != some 69 then
    let stop ← match b1 with
      | some 120 => spanWhile isHexRune (p + 2) size
      | some 111 => spanWhile isOctalRune (p + 2) size
      | some 98 => spanWhile isBinaryRune (p + 2) size
      | _ => pure (p + 1)
    set stop
    return .integer (← slice p stop) p
  let (stop, isFloat) ← decimalEnd p false p size
  if stop = p then fail p "incomplete number"
  set stop
  let raw ← slice p stop
  return if isFloat then .float raw p else .integer raw p

/-- The state of reading a moment: whether a date, a time and a zone were seen, and whether a
space was. -/
structure MomentScan where
  date : Bool := false
  time : Bool := false
  zone : Bool := false
  spaced : Bool := false

/-- Reads the bytes of a moment from `p`, now at `i`; gives its end and what was seen. -/
def momentEnd (p : Nat) (s : MomentScan) (i : Nat) : Nat → Scan (Nat × MomentScan)
  | 0 => pure (i, s)
  | fuel + 1 => do
    let size ← docSize
    match ← byteAt i with
    | none => return (i, s)
    | some c =>
      if Byte.isDigit c then momentEnd p s (i + 1) fuel
      else if c == 45 then momentEnd p { s with date := true, zone := s.zone || i - p ≥ 8 } (i + 1) fuel
      else if c == 84 || c == 116 || c == 58 || c == 46 then momentEnd p { s with time := true } (i + 1) fuel
      else if c == 43 || c == 90 || c == 122 then momentEnd p { s with zone := true } (i + 1) fuel
      else if c == 32 then
        if !s.spaced && i + 1 < size && ((← byteAt (i + 1)).map Byte.isDigit).getD false then
          let j := if i + 2 ≥ size then i + 1 else i + 2
          momentEnd p { s with spaced := true, time := true } (j + 1) fuel
        else return (i, s)
      else return (i, s)

/-- Reads a date or time. -/
def moment : Scan Value := do
  let p ← get
  let (stop, s) ← momentEnd p {} p (← docSize)
  set stop
  let kind : Moment :=
    if s.time then (if s.date then (if s.zone then .dateTime else .localDateTime) else .localTime)
    else .localDate
  return .moment kind (← slice p stop) p

/-- Reads a number, a float's special values, or a moment. -/
def numberOrMoment : Scan Value := do
  let p ← get
  let c := (← current).getD 0
  if c == 105 then
    if ← followsAt p "inf" then do set (p + 3); return .float (Bytes.ofString "inf") p
    else fail p "expected 'inf'"
  else if c == 110 then
    if ← followsAt p "nan" then do set (p + 3); return .float (Bytes.ofString "nan") p
    else fail p "expected 'nan'"
  else if c == 43 || c == 45 then intOrFloat
  else if (← docSize) - p < 3 then intOrFloat
  else if looksLikeMoment (← slice p (p + 5)) 0 then moment
  else intOrFloat

/-- Skips blanks, comments and line breaks, as between the items of an array. -/
def gaps : Nat → Scan Unit
  | 0 => pure ()
  | fuel + 1 => do
    ws
    if (← current) == some 35 then comment
    match ← current with
    | some c => if c == lf || c == cr then do newline; gaps fuel else pure ()
    | none => pure ()

mutual

/-- Reads a value. -/
def value : Nat → Scan Value
  | 0 => do fail (← get) "expected value, not eof"
  | fuel + 1 => do
    let p ← get
    match ← byteAt p with
    | none => fail p "expected value, not eof"
    | some c =>
      if c == 34 then
        if ← followsAt p "\"\"\"" then return .string (← multilineBasic) p
        else return .string (← basicString) p
      else if c == 39 then
        if ← followsAt p "'''" then return .string (← multilineLiteral) p
        else return .string (← literalString) p
      else if c == 116 then
        if ← followsAt p "true" then do set (p + 4); return .boolean true p
        else fail p "expected 'true'"
      else if c == 102 then
        if ← followsAt p "false" then do set (p + 5); return .boolean false p
        else fail p "expected 'false'"
      else if c == 91 then
        skipBytes 1
        return .array (← arrayItems p true fuel) p
      else if c == 123 then
        skipBytes 1
        return .inlineTable (← inlineMembers true fuel) p
      else numberOrMoment

/-- Reads the items of an array opened at `start`, and its closing bracket. -/
def arrayItems (start : Nat) (first : Bool) : Nat → Scan (List Value)
  | 0 => pure []
  | fuel + 1 => do
    if (← current).isNone then do expect 93; return []
    gaps (← docSize)
    match ← current with
    | none => fail start "array is incomplete"
    | some c =>
      if c == 93 then do skipBytes 1; return []
      if c == 44 then
        if first then fail (← get) "array cannot start with comma"
        skipBytes 1
        gaps (← docSize)
      else if !first then fail (← get) "array elements must be separated by commas"
      if (← current) == some 93 then do skipBytes 1; return []
      let v ← value fuel
      gaps (← docSize)
      return v :: (← arrayItems start false fuel)

/-- Reads the members of an inline table, and its closing brace. -/
def inlineMembers (first : Bool) : Nat → Scan (List (Key × Value))
  | 0 => pure []
  | fuel + 1 => do
    if (← current).isNone then do expect 125; return []
    let prev ← get
    ws
    match ← current with
    | none => fail prev "inline table is incomplete"
    | some c =>
      if c == 125 then do skipBytes 1; return []
      if !first then
        expect 44
        ws
      let kv ← keyValue fuel
      return kv :: (← inlineMembers false fuel)

/-- Reads a key, an equals sign and a value. -/
def keyValue : Nat → Scan (Key × Value)
  | 0 => do fail (← get) "expected key but found none"
  | fuel + 1 => do
    let k ← key
    ws
    if (← current).isNone then fail (← get) "expected = after a key, but the document ends there"
    expect 61
    ws
    return (k, ← value fuel)

end

/-- Reads a table or array table header. -/
def header : Scan Expr := do
  let p ← get
  if (← byteAt (p + 1)) == some 91 then
    skipBytes 2
    ws
    let k ← key
    ws
    expect 93
    expect 93
    return .arrayTable k
  else
    skipBytes 1
    ws
    let k ← key
    ws
    expect 93
    return .table k

/-- Reads what stands on a line: nothing, a comment, or an expression with an optional
comment after it. -/
def expression : Scan (Option Expr) := do
  ws
  match ← current with
  | none => return none
  | some c =>
    if c == 35 then do comment; return none
    else if c == lf || c == cr then return none
    else
      let e ← if c == 91 then header else do
        let (k, v) ← keyValue (2 * (← docSize) + 2)
        pure (Expr.keyValue k v)
      ws
      if (← current) == some 35 then comment
      return some e

/-- Reads the next line of a document, after the line break that ends the previous one unless
this is the first; gives nothing at the end of the document. -/
def nextLine (first : Bool) : Scan (Option (Option Expr)) := do
  if !first then newline
  if (← get) ≥ (← docSize) then return none
  return some (← expression)

/-- The expressions of a document from offset `p`, and the failure that stopped the reading if
there was one. -/
def expressionsFrom (doc : Doc) : Nat → Bool → Nat → List Expr × Option Failure
  | 0, _, _ => ([], none)
  | fuel + 1, first, p =>
    if p ≥ doc.size then ([], none)
    else
      match ((nextLine first).run doc).run p with
      | .error f => ([], some f)
      | .ok (none, _) => ([], none)
      | .ok (some e, q) =>
        let (es, f) := expressionsFrom doc fuel false q
        (e.toList ++ es, f)

/-- The expressions of a document, and the failure that stopped the reading if there was one. -/
def document (doc : Bytes) : List Expr × Option Failure :=
  expressionsFrom doc.toArray (doc.length + 2) true 0

end Toml

end StaticHttp
