import StaticHttp.Crypto.IpAddress

/-!
# URI references

A certificate may name URIs, and each must read as a URI reference; what matters here is
whether it reads, the failure when it does not, and the host it names.

The reading goes in steps. The fragment after the first `#` is set aside. The text must hold
no control byte. A scheme is letters, digits, `+`, `-` and `.` before a colon, starting with a
letter; text that starts with a colon has none, which is an error. The query after a `?` is
set aside. Without a scheme, text that does not start with `/` must hold no colon before its
first `/`; with one, such text is opaque and has no host. A `//` then starts an authority, up
to the next `/`: user information before the last `@`, which must use only the bytes user
information may hold, and a host, which may end in a port of digits after a colon.

A host in brackets must be an IPv6 address, perhaps with a zone after `%25`; any other host
may hold only letters, digits, ``-._~!$&'()*+,;=:[]<>"`` and escapes of bytes above 127.
Everywhere, a `%` must start an escape of two hexadecimal digits.
-/

namespace StaticHttp

namespace Crypto

namespace Uri

/-- Which part of a URI is unescaped: a host, the zone of a bracketed host, or any other part. -/
inductive Part where
  | host
  | zone
  | other
  deriving DecidableEq, Repr

/-- Whether a byte may not stand as itself in a host: all but letters, digits, and
``-_.~!$&'()*+,;=:[]<>"``. -/
def hostEscaped (c : Byte) : Bool :=
  !(Byte.isDigit c || Byte.isLower c || Byte.isUpper c ||
    [45, 95, 46, 126, 33, 36, 38, 39, 40, 41, 42, 43, 44, 59, 61, 58, 91, 93, 60, 62, 34].contains c)

/-- The failure for a bad escape. -/
def escapeError (piece : Bytes) : String := "invalid URL escape " ++ Text.Quoted.ofBytes piece

/-- The failure for a byte a host may not hold. -/
def hostError (c : Byte) : String := "invalid character " ++ Text.Quoted.ofBytes [c] ++ " in host name"

/-- Unescapes a part of a URI, or gives its first fault: an escape without two hexadecimal
digits; in a host, an escape of an ASCII byte other than `%25`; in a zone, an escape of a byte
other than `%` and the space that a host may not hold; in a host or zone, an ASCII byte it may
not hold. -/
def unescape (part : Part) : Bytes → Except String Bytes
  | [] => .ok []
  | 37 :: a :: b :: more =>
    match Byte.hexValue? a, Byte.hexValue? b with
    | some x, some y =>
      let v := x * 16 + y
      let percent := a == 50 && b == 53
      if part == .host && x < 8 && !percent then .error (escapeError [37, a, b])
      else if part == .zone && !percent && v != 32 && hostEscaped v then .error (escapeError [37, a, b])
      else (unescape part more).map (v :: ·)
    | _, _ => .error (escapeError [37, a, b])
  | 37 :: rest => .error (escapeError (37 :: rest))
  | c :: rest =>
    if part != .other && c < 0x80 && hostEscaped c then .error (hostError c)
    else (unescape part rest).map (c :: ·)

/-- The place of the last occurrence of a byte. -/
def lastPlace (c : Byte) (s : Bytes) : Option Nat :=
  (s.reverse.findIdx? (· == c)).map (s.length - 1 - ·)

/-- The place of the first `%25`. -/
def zonePlace : Bytes → Option Nat
  | [] => none
  | 37 :: 50 :: 53 :: _ => some 0
  | _ :: rest => (zonePlace rest).map (· + 1)

/-- Whether text is empty or a colon and digits. -/
def portOk : Bytes → Bool
  | [] => true
  | 58 :: digits => digits.all Byte.isDigit
  | _ => false

/-- The failure for a bad port. -/
def portError (colonPort : Bytes) : String :=
  "invalid port " ++ Text.Quoted.ofBytes colonPort ++ " after host"

/-- Reads a host with its port: the host unescaped. A host with a `[` is an IP literal from the
last `[` to the last `]`, which must be an IPv6 address. -/
def host (h : Bytes) : Except String Bytes :=
  match lastPlace 91 h with
  | some opening =>
    match lastPlace 93 h with
    | none => .error "missing ']' in host"
    | some closing =>
      if closing < opening then .error "missing ']' in host"
      else
        let colonPort := h.drop (closing + 1)
        if !portOk colonPort then .error (portError colonPort)
        else do
          let port ← unescape .host colonPort
          let name := (h.take closing).drop (opening + 1)
          let unescaped ← match zonePlace name with
            | some z => do
              let address ← unescape .host (name.take z)
              let zone ← unescape .zone (name.drop z)
              pure (address ++ zone)
            | none => unescape .host name
          match IpAddress.parse unescaped with
          | .error f => .error ("invalid host: " ++ f.text)
          | .ok .v4 => .error "invalid IP-literal"
          | .ok (.v6 _) => .ok ([91] ++ unescaped ++ [93] ++ port)
  | none =>
    match lastPlace 58 h with
    | some i =>
      let colonPort := h.drop i
      if !portOk colonPort then .error (portError colonPort) else unescape .host h
    | none => unescape .host h

/-- Whether a byte may stand in user information. -/
def userByte (c : Byte) : Bool :=
  Byte.isDigit c || Byte.isLower c || Byte.isUpper c ||
    [45, 46, 95, 58, 126, 33, 36, 38, 39, 40, 41, 42, 43, 44, 59, 61, 37, 64].contains c

/-- Reads an authority: the host, after the user information before the last `@`. -/
def authority (a : Bytes) : Except String Bytes :=
  match lastPlace 64 a with
  | none => host a
  | some i => do
    let h ← host (a.drop (i + 1))
    let user := a.take i
    if !user.all userByte then throw "net/url: invalid userinfo"
    match user.findIdx? (· == 58) with
    | none => let _ ← unescape .other user
    | some k =>
      let _ ← unescape .other (user.take k)
      let _ ← unescape .other (user.drop (k + 1))
    pure h

/-- Splits off a scheme: letters, digits, `+`, `-` and `.` before a colon, starting with a
letter. `i` counts the bytes seen. -/
def scheme (raw : Bytes) : Nat → Bytes → Except String (Bytes × Bytes)
  | _, [] => .ok ([], raw)
  | i, c :: rest =>
    if Byte.isLower c || Byte.isUpper c then scheme raw (i + 1) rest
    else if Byte.isDigit c || c == 43 || c == 45 || c == 46 then
      if i == 0 then .ok ([], raw) else scheme raw (i + 1) rest
    else if c == 58 then
      if i == 0 then .error "missing protocol scheme" else .ok (raw.take i, rest)
    else .ok ([], raw)

/-- Reads a URI reference without its fragment: the host it names, empty when it names none. -/
def reference (u : Bytes) : Except String Bytes := do
  if u.any (fun c => c < 0x20 || c == 0x7f) then throw "net/url: invalid control character in URL"
  if u == [42] then return []
  let (sch, rest) ← scheme u 0 u
  let rest :=
    if rest.getLast? == some 63 && rest.count 63 == 1 then rest.dropLast
    else rest.takeWhile (· != 63)
  if rest.head? != some 47 then
    if !sch.isEmpty then return []
    if (rest.takeWhile (· != 47)).contains 58 then
      throw "first path segment in URL cannot contain colon"
  let (h, path) ←
    if (!sch.isEmpty || rest.take 3 != [47, 47, 47]) && rest.take 2 == [47, 47] then do
      let a := rest.drop 2
      let auth := a.takeWhile (· != 47)
      let h ← authority auth
      pure (h, a.drop auth.length)
    else pure ([], rest)
  let _ ← unescape .other path
  return h

/-- Reads a URI reference: the host it names, or the failure, which quotes the text without
its fragment, or the whole text when the fragment is at fault. -/
def parse (raw : Bytes) : Except String Bytes :=
  let u := raw.takeWhile (· != 35)
  let fragment := raw.drop (u.length + 1)
  match reference u with
  | .error e => .error ("parse " ++ Text.Quoted.ofBytes u ++ ": " ++ e)
  | .ok h =>
    if fragment.isEmpty then .ok h
    else match unescape .other fragment with
      | .error e => .error ("parse " ++ Text.Quoted.ofBytes raw ++ ": " ++ e)
      | .ok _ => .ok h

end Uri

end Crypto

end StaticHttp
