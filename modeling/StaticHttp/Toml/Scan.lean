import StaticHttp.Toml.Syntax

/-!
# Scanning TOML text

The scanner reads a document byte by byte from an offset. It skips blanks, comments and line
breaks, and reads the four kinds of strings: basic strings with escapes, literal strings, and
their multi-line forms. A string is first delimited, then decoded, so a failure in its middle
is reported only once its end is known. Every loop is bounded by the document's size, since each
round reads at least one byte.
-/

namespace StaticHttp

namespace Toml

/-- The bytes of a document. -/
abbrev Doc := Array Byte

/-- A computation over a document from an offset, which may fail. -/
abbrev Scan := ReaderT Doc (StateT Nat (Except Failure))

/-- Fails at an offset. -/
def fail {α : Type} (offset : Nat) (msg : String) : Scan α := throw ⟨offset, msg⟩

/-- The byte at an offset, if the document is that long. -/
def byteAt (i : Nat) : Scan (Option Byte) := return (← read)[i]?

/-- The byte at the current offset. -/
def current : Scan (Option Byte) := do byteAt (← get)

/-- The document's length. -/
def docSize : Scan Nat := return (← read).size

/-- The bytes from one offset up to another. -/
def slice (a b : Nat) : Scan Bytes := return ((← read).extract a b).toList

/-- Whether some bytes stand at an offset. -/
def followsAt (i : Nat) (pat : String) : Scan Bool := do
  let p := Bytes.ofString pat
  return (← slice i (i + p.length)) == p

/-- Moves forward. -/
def skipBytes (n : Nat) : Scan Unit := modify (· + n)

/-- Line feed, carriage return, tab and space. -/
def lf : Byte := 10
def cr : Byte := 13
def tab : Byte := 9
def space : Byte := 32

/-- Skips spaces and tabs. -/
def blanks : Nat → Scan Unit
  | 0 => pure ()
  | fuel + 1 => do
    match ← current with
    | some b => if b == space || b == tab then do skipBytes 1; blanks fuel else pure ()
    | none => pure ()

/-- Skips spaces and tabs. -/
def ws : Scan Unit := do blanks (← docSize)

/-- Reads the rest of a comment, up to the line feed that ends it. -/
def commentRest : Nat → Scan Unit
  | 0 => pure ()
  | fuel + 1 => do
    let p ← get
    match ← byteAt p with
    | none => pure ()
    | some b =>
      if b == lf then pure ()
      else if b == cr then
        if (← byteAt (p + 1)) == some lf then set (p + 1) else fail p "invalid character in comment"
      else
        let n := charSize (← slice p (p + 4))
        if n = 0 then fail p "invalid character in comment" else do set (p + n); commentRest fuel

/-- Reads a comment from its `#`. -/
def comment : Scan Unit := do skipBytes 1; commentRest (← docSize)

/-- Reads a line break: a line feed, or a carriage return and a line feed. -/
def newline : Scan Unit := do
  let p ← get
  match ← byteAt p with
  | some b =>
    if b == lf then set (p + 1)
    else if b == cr then
      match ← byteAt (p + 1) with
      | none => fail p "windows new line expected"
      | some c => if c == lf then set (p + 2) else fail p "windows new line should be \\r\\n"
    else fail p ("expected newline but got " ++ codeText b.toNat)
  | none => pure ()

/-- The bytes of a bare key: letters, digits, dash and underscore. -/
def isKeyChar (b : Byte) : Bool :=
  (65 ≤ b && b ≤ 90) || (97 ≤ b && b ≤ 122) || (48 ≤ b && b ≤ 57) || b == 45 || b == 95

/-- Reads the bytes of a bare key. -/
def keyChars : Nat → Scan Unit
  | 0 => pure ()
  | fuel + 1 => do
    match ← current with
    | some b => if isKeyChar b then do skipBytes 1; keyChars fuel else pure ()
    | none => pure ()

/-- Reads a bare key. -/
def unquotedKey : Scan Bytes := do
  let p ← get
  keyChars (← docSize)
  slice p (← get)

/-- The offset of the first byte of a range that is no allowed character, if any. -/
def firstInvalid (a b : Nat) : Nat → Scan (Option Nat)
  | 0 => pure none
  | fuel + 1 => do
    if a ≥ b then return none
    let n := charSize (← slice a (min b (a + 4)))
    if n = 0 then return some a else firstInvalid (a + n) b fuel

/-- Reads the end of a literal string, after its opening apostrophe. -/
def literalRest : Nat → Scan Unit
  | 0 => do fail (← docSize) "unterminated literal string"
  | fuel + 1 => do
    let i ← get
    match ← byteAt i with
    | none => fail (← docSize) "unterminated literal string"
    | some b =>
      if b == 39 then set (i + 1)
      else if b == lf || b == cr then fail i "literal strings cannot have new lines"
      else
        let n := charSize (← slice i (i + 4))
        if n = 0 then fail i "invalid character" else do set (i + n); literalRest fuel

/-- Reads a literal string and gives its content. -/
def literalString : Scan Bytes := do
  let start ← get
  skipBytes 1
  literalRest (← docSize)
  slice (start + 1) ((← get) - 1)

/-- After a closing delimiter of three quote bytes at `i`, takes up to two more quote bytes,
and fails when a third follows. Gives the end of the string. -/
def closeQuotes (q : Byte) (i : Nat) (what : String) : Scan Nat := do
  let i := i + 3
  if (← byteAt i) != some q then return i
  let i := i + 1
  if (← byteAt i) != some q then return i
  let i := i + 1
  if (← byteAt i) == some q then fail (i - 3) what
  return i

/-- The offset after the line break that may follow an opening delimiter. -/
def afterOpening (i : Nat) : Scan Nat := do
  match ← byteAt i with
  | some b =>
    if b == lf then return i + 1
    else if b == cr && (← byteAt (i + 1)) == some lf then return i + 2
    else return i
  | none => return i

/-- Reads the end of a multi-line literal string; gives the end offset. -/
def multilineLiteralRest : Nat → Scan Nat
  | 0 => do fail (← docSize) "multiline literal string not terminated by '''"
  | fuel + 1 => do
    let i ← get
    let size ← docSize
    match ← byteAt i with
    | none => fail size "multiline literal string not terminated by '''"
    | some b =>
      if b == 39 && (← followsAt i "'''") then
        closeQuotes 39 i "''' not allowed in multiline literal string"
      else if b == cr then
        if size < i + 2 then fail size "need a \\n after \\r"
        else if (← byteAt (i + 1)) != some lf then fail i "need a \\n after \\r"
        else do set (i + 2); multilineLiteralRest fuel
      else
        let n := charSize (← slice i (i + 4))
        if n = 0 then fail i "invalid character" else do set (i + n); multilineLiteralRest fuel

/-- Reads a multi-line literal string and gives its content. -/
def multilineLiteral : Scan Bytes := do
  let start ← get
  set (start + 3)
  let stop ← multilineLiteralRest (← docSize)
  set stop
  let from_ ← afterOpening (start + 3)
  slice from_ (stop - 3)

/-- Reads the end of a basic string after its opening quote; gives whether it has escapes. -/
def basicRest (escaped : Bool) : Nat → Scan Bool
  | 0 => do fail (← docSize) "basic string not terminated by \""
  | fuel + 1 => do
    let i ← get
    let size ← docSize
    match ← byteAt i with
    | none => fail size "basic string not terminated by \""
    | some b =>
      if b == 34 then do set (i + 1); return escaped
      else if b == lf || b == cr then fail i "basic strings cannot have new lines"
      else if b == 92 then
        if size < i + 2 then fail i "need a character after \\"
        else do set (i + 2); basicRest true fuel
      else do set (i + 1); basicRest escaped fuel

/-- Reads the end of a multi-line basic string after its opening delimiter; gives its end and
whether it has escapes. -/
def multilineBasicRest (escaped : Bool) : Nat → Scan (Nat × Bool)
  | 0 => do fail (← docSize) "multiline basic string not terminated by \"\"\""
  | fuel + 1 => do
    let i ← get
    let size ← docSize
    match ← byteAt i with
    | none => fail size "multiline basic string not terminated by \"\"\""
    | some b =>
      if b == 34 && (← followsAt i "\"\"\"") then
        return (← closeQuotes 34 i "\"\"\" not allowed in multiline basic string", escaped)
      else if b == 92 then
        if size < i + 2 then fail size "need a character after \\"
        else do set (i + 2); multilineBasicRest true fuel
      else if b == cr then
        if size < i + 2 then fail size "need a \\n after \\r"
        else if (← byteAt (i + 1)) != some lf then fail i "need a \\n after \\r"
        else do set (i + 2); multilineBasicRest escaped fuel
      else do set (i + 1); multilineBasicRest escaped fuel

/-- The value of a hexadecimal digit. -/
def hexDigitValue (c : Byte) : Option Nat :=
  if 48 ≤ c && c ≤ 57 then some (c.toNat - 48)
  else if 97 ≤ c && c ≤ 102 then some (c.toNat - 87)
  else if 65 ≤ c && c ≤ 70 then some (c.toNat - 55)
  else none

/-- Reads `len` hexadecimal digits at `a` of which `avail` are before the string's end, and
gives the scalar value they name. -/
def hexScalar (a avail len : Nat) : Scan Char := do
  if avail < len then
    fail a ("unicode point needs " ++ toString len ++ " character, not " ++ toString avail)
  let digits ← slice a (a + len)
  let v ← digits.zipIdx.foldlM (fun acc (c, k) => do
    match hexDigitValue c with
    | some d => pure (acc * 16 + d)
    | none => fail (a + k) "non-hex character") 0
  if v > 0x10FFFF || (0xD800 ≤ v && v < 0xE000) then
    fail a "escape sequence is invalid Unicode code point"
  return Char.ofNat v

/-- The byte an escape letter stands for, for the escapes of one letter. -/
def simpleEscape (c : Byte) : Option Byte :=
  if c == 34 || c == 92 then some c
  else if c == 98 then some 8
  else if c == 102 then some 12
  else if c == 110 then some 10
  else if c == 114 then some 13
  else if c == 116 then some 9
  else if c == 101 then some 27
  else none

/-- Decodes the escape whose backslash is at `i`, in a string whose escapes may use the bytes
up to `limit`; gives the bytes it stands for and the offset after it. -/
def escape (i limit : Nat) : Scan (Bytes × Nat) := do
  let j := i + 1
  let c := (← byteAt j).getD 0
  match simpleEscape c with
  | some b => return ([b], j + 1)
  | none =>
    if c == 117 then
      let ch ← hexScalar (j + 1) (limit - (j + 1)) 4
      return (Bytes.ofString ch.toString, j + 5)
    else if c == 85 then
      let ch ← hexScalar (j + 1) (limit - (j + 1)) 8
      return (Bytes.ofString ch.toString, j + 9)
    else fail j ("invalid escaped character " ++ codeText c.toNat)

/-- Decodes the content of a basic string from `i` up to `stop`, where its closing quote
stands. An escape's digits are taken up to that quote, so that a short escape counts only the
digits before it. -/
def basicContent (stop : Nat) (i : Nat) : Nat → Scan Bytes
  | 0 => pure []
  | fuel + 1 => do
    if i ≥ stop then return []
    let c := (← byteAt i).getD 0
    if c == 92 then
      let (bs, next) ← escape i stop
      return bs ++ (← basicContent stop next fuel)
    else
      let n := charSize (← slice i (i + 4))
      if n = 0 then fail i ("invalid character " ++ codeText c.toNat)
      return (← slice i (i + n)) ++ (← basicContent stop (i + n) fuel)

/-- Reads a basic string and gives its content. -/
def basicString : Scan Bytes := do
  let start ← get
  skipBytes 1
  let escaped ← basicRest false (← docSize)
  let stop := (← get) - 1
  if escaped then basicContent stop (start + 1) (← docSize)
  else
    match ← firstInvalid (start + 1) stop (← docSize) with
    | some k => fail k "invalid UTF-8"
    | none => slice (start + 1) stop

/-- Whether a byte is a blank or a line break. -/
def isSpaceOrBreak (c : Byte) : Bool := c == lf || c == cr || c == space || c == tab

/-- Whether a backslash at `i` is the last thing but blanks on its line, before `stop`: then
the line break and the blanks after it are left out. -/
def endsLine (i stop : Nat) : Nat → Nat → Scan (Option Nat)
  | 0, _ => pure none
  | fuel + 1, j => do
    if j ≥ stop - i then return none
    let c := (← byteAt (i + j)).getD 0
    if c == space || c == tab then endsLine i stop fuel (j + 1)
    else if c == cr && (← byteAt (i + j + 1)) == some lf then endsLine i stop fuel (j + 1)
    else if c == lf then return some j
    else return none

/-- The first offset from `i` before `stop` that is neither blank nor line break, or `stop`. -/
def skipSpaceAndBreaks (i stop : Nat) : Nat → Scan Nat
  | 0 => pure i
  | fuel + 1 => do
    if i ≥ stop then return i
    if isSpaceOrBreak ((← byteAt i).getD 0) then skipSpaceAndBreaks (i + 1) stop fuel else return i

/-- Decodes the content of a multi-line basic string from `i` up to `stop`; its closing
delimiter ends at `close`. -/
def multilineContent (stop close : Nat) (i : Nat) : Nat → Scan Bytes
  | 0 => pure []
  | fuel + 1 => do
    if i ≥ stop then return []
    let c := (← byteAt i).getD 0
    if c == 92 then
      match ← endsLine i stop (← docSize) 1 with
      | some j =>
        let k ← skipSpaceAndBreaks (i + j) stop (← docSize)
        multilineContent stop close (if k ≥ stop then stop + 1 else k) fuel
      | none =>
        let (bs, next) ← escape i close
        return bs ++ (← multilineContent stop close next fuel)
    else
      let n := charSize (← slice i (i + 4))
      if n = 0 then fail i ("invalid character " ++ codeText c.toNat)
      return (← slice i (i + n)) ++ (← multilineContent stop close (i + n) fuel)

/-- Reads a multi-line basic string and gives its content. -/
def multilineBasic : Scan Bytes := do
  let start ← get
  set (start + 3)
  let (close, escaped) ← multilineBasicRest false (← docSize)
  set close
  let from_ ← afterOpening (start + 3)
  let stop := close - 3
  if escaped then multilineContent stop close from_ (← docSize)
  else
    match ← firstInvalid from_ stop (← docSize) with
    | some k => fail k "invalid UTF-8"
    | none => slice from_ stop

end Toml

end StaticHttp
