import StaticHttp.Text.Quoted

/-!
# IP address text

An IP address is written as four dotted decimal fields, or as colon-separated hexadecimal
fields with perhaps one `::` standing for a run of zero fields, perhaps four dotted fields in
place of the last two, and perhaps a zone after `%`. The first dot, colon or percent sign of
the text decides which form is read.

A dotted field is one to three digits from 0 to 255 without a leading zero; there are exactly
four. A hexadecimal field is one to four digits; the fields and the `::` together must stand
for exactly sixteen bytes, the `::` for at least one zero field. A failure names the text,
what is wrong, and, for some failures, the rest of the text from where it went wrong.
-/

namespace StaticHttp

namespace Crypto

namespace IpAddress

/-- What a text reads as: an IPv4 address, or an IPv6 address with its zone, empty when there
is none. -/
inductive Kind where
  | v4
  | v6 (zone : Bytes)
  deriving DecidableEq, Repr

/-- A failure to read an address: the text, what is wrong, and the rest of the text from
where it went wrong when that is named. -/
structure Failure where
  input : Bytes
  message : String
  rest : Bytes
  deriving DecidableEq, Repr

/-- The text of a failure. -/
def Failure.text (f : Failure) : String :=
  "ParseAddr(" ++ Text.Quoted.ofBytes f.input ++ "): " ++ f.message ++
    (if f.rest.isEmpty then "" else " (at " ++ Text.Quoted.ofBytes f.rest ++ ")")

/-- Walks dotted decimal fields: the value and digit count of the current field and the dots
so far. Gives what is wrong, and where when that is named, if anything. -/
def v4Walk : Bytes → Nat → Nat → Nat → Option (String × Bytes)
  | [], _, _, dots => if dots < 3 then some ("IPv4 address too short", []) else none
  | c :: rest, val, digits, dots =>
    if Byte.isDigit c then
      if digits == 1 && val == 0 then some ("IPv4 field has octet with leading zero", [])
      else
        let val := val * 10 + (c.toNat - 48)
        if val > 255 then some ("IPv4 field has value >255", [])
        else v4Walk rest val (digits + 1) dots
    else if c == 46 then
      if digits == 0 || rest.isEmpty then some ("IPv4 field must have at least one digit", c :: rest)
      else if dots == 3 then some ("IPv4 address too long", [])
      else v4Walk rest 0 0 (dots + 1)
    else some ("unexpected character", c :: rest)

/-- Whether a byte is a hexadecimal digit. -/
def isHex (c : Byte) : Bool := (Byte.hexValue? c).isSome

/-- Walks colon-separated hexadecimal fields: the bytes read so far and where the `::` stands,
if it has been read. Gives the bytes read, the `::` and what is left when the fields end,
or what is wrong and where. -/
def v6Walk : Nat → Nat → Option Nat → Bytes →
    Except (String × Bytes) (Nat × Option Nat × Bytes)
  | 0, i, e, s => .ok (i, e, s)
  | fuel + 1, i, e, s =>
    if i ≥ 16 then .ok (i, e, s)
    else
      let off := (s.takeWhile isHex).length
      if off > 4 then .error ("each colon-separated field must have at most 4 hex digits", s)
      else if off == 0 then .error ("each colon-separated field must have at least one digit", s)
      else
        let after := s.drop off
        if after.head? == some 46 then
          if e.isNone && i != 12 then
            .error ("embedded IPv4 address must replace the final 2 fields of the address", s)
          else if i + 4 > 16 then
            .error ("too many hex fields to fit an embedded IPv4 at the end of the address", s)
          else match v4Walk s 0 0 0 with
            | some f => .error f
            | none => .ok (i + 4, e, [])
        else
          let i := i + 2
          match after with
          | [] => .ok (i, e, [])
          | 58 :: rest =>
            if rest.isEmpty then .error ("colon must be followed by more characters", after)
            else if rest.head? == some 58 then
              if e.isSome then .error ("multiple :: in address", rest)
              else
                let rest := rest.drop 1
                if rest.isEmpty then .ok (i, some i, []) else v6Walk fuel i (some i) rest
            else v6Walk fuel i e rest
          | _ => .error ("unexpected character, want colon", after)

/-- Reads IPv6 text with its zone. -/
def v6 (input : Bytes) : Except Failure Kind :=
  let fail (m : String) (r : Bytes) : Except Failure Kind := .error ⟨input, m, r⟩
  let (s, zone) := match input.findIdx? (· == 37) with
    | some k => (input.take k, some (input.drop (k + 1)))
    | none => (input, none)
  if zone == some [] then fail "zone must be a non-empty string" []
  else
    let zone := zone.getD []
    let (e, s) := if s.take 2 == [58, 58] then (some 0, s.drop 2) else (none, s)
    if e.isSome && s.isEmpty then .ok (.v6 zone)
    else match v6Walk 9 0 e s with
      | .error (m, r) => fail m r
      | .ok (i, e, rest) =>
        if !rest.isEmpty then fail "trailing garbage after address" rest
        else if i < 16 then (if e.isNone then fail "address string too short" [] else .ok (.v6 zone))
        else if e.isSome then fail "the :: must expand to at least one field of zeros" []
        else .ok (.v6 zone)

/-- Reads address text: the first dot, colon or percent sign decides its form. -/
def parse (s : Bytes) : Except Failure Kind :=
  match s.find? (fun c => c == 46 || c == 58 || c == 37) with
  | some 46 =>
    match v4Walk s 0 0 0 with
    | some (m, r) => .error ⟨s, m, r⟩
    | none => .ok .v4
  | some 58 => v6 s
  | some _ => .error ⟨s, "missing IPv6 address", []⟩
  | none => .error ⟨s, "unable to parse IP", []⟩

/-- Whether text is an IP address without a zone. -/
def isAddress (s : Bytes) : Bool :=
  match parse s with
  | .ok .v4 => true
  | .ok (.v6 zone) => zone.isEmpty
  | .error _ => false

end IpAddress

end Crypto

end StaticHttp
