import StaticHttp.Crypto.Der

/-!
# Reading keys against their layout

Private keys are read field by field against the layout of their structure, with the looser
rules keys are read by: a tag may take several bytes, and an element need not fill the
structure around it, nor end where its structure ends. Each field is an integer, a byte string,
an object identifier, a bit string, any element kept whole, or a structure of fields; a field may
be optional, and it may be wrapped in an explicit context tag.

Every failure has its text. A syntax error is a header or value that cannot be read: a length
cut short, a length not in shortest form, a structure that ends before a field that must be
there. A structure error is a field of the wrong kind, which names the expected tag, the header
found, and the field's type with the offset after that header. An optional field that is missing
or of another kind is left out, and the next field is read in its place.
-/

namespace StaticHttp

namespace Crypto

namespace Asn1

/-- The text of a syntax error. -/
def syntaxError (msg : String) : String := "asn1: syntax error: " ++ msg

/-- The text of a structure error. -/
def structureError (msg : String) : String := "asn1: structure error: " ++ msg

/-- The header of an element: its class, its tag number, whether it is constructed, and the
length of its contents. -/
structure Header where
  cls : Nat
  tag : Nat
  length : Nat
  compound : Bool
  deriving DecidableEq, Repr

/-- Reads a base-128 number at an offset: at most `left` more bytes, the first of them not
`80`, and a value below `2 ^ 31`. -/
def base128At (bytes : Bytes) : Nat → Bool → Nat → Nat → Except String (Nat × Nat)
  | left, first, acc, off =>
    match bytes[off]? with
    | none => .error (syntaxError "truncated base 128 integer")
    | some b =>
      match left with
      | 0 => .error (structureError "base 128 integer too large")
      | left + 1 =>
        if first && b == 0x80 then .error (syntaxError "integer is not minimally encoded")
        else
          let acc := acc * 128 + (b &&& 0x7f).toNat
          if b &&& 0x80 == 0 then
            if acc > 2147483647 then .error (structureError "base 128 integer too large")
            else .ok (acc, off + 1)
          else base128At bytes left false acc (off + 1)

/-- Reads the `count` bytes of a long length at an offset. -/
def lengthAt (bytes : Bytes) : Nat → Nat → Nat → Except String (Nat × Nat)
  | 0, len, off => .ok (len, off)
  | count + 1, len, off =>
    match bytes[off]? with
    | none => .error (syntaxError "truncated tag or length")
    | some b =>
      if len ≥ Nat.pow 2 23 then .error (structureError "length too large")
      else
        let len := len * 256 + b.toNat
        if len == 0 then .error (structureError "superfluous leading zeros in length")
        else lengthAt bytes count len (off + 1)

/-- Reads the header at an offset, and gives the offset after it. -/
def header (bytes : Bytes) (offset : Nat) : Except String (Header × Nat) := do
  let some b := bytes[offset]? | throw "asn1: internal error in parseTagAndLength"
  let cls := b.toNat / 64
  let compound := b &&& 0x20 == 0x20
  let (tag, off) ←
    if b &&& 0x1f == 0x1f then do
      let (t, o) ← base128At bytes 5 true 0 (offset + 1)
      if t < 0x1f then throw (syntaxError "non-minimal tag")
      pure (t, o)
    else pure ((b &&& 0x1f).toNat, offset + 1)
  let some lb := bytes[off]? | throw (syntaxError "truncated tag or length")
  if lb &&& 0x80 == 0 then return (⟨cls, tag, lb.toNat, compound⟩, off + 1)
  let count := (lb &&& 0x7f).toNat
  if count == 0 then throw (syntaxError "indefinite length found (not DER)")
  let (len, off) ← lengthAt bytes count 0 (off + 1)
  if len < 0x80 then throw (structureError "non-minimal length")
  return (⟨cls, tag, len, compound⟩, off)

/-- What a field must be: its universal tag, whether it is constructed, and the name of its
type in messages; `any` takes every element. -/
structure Kind where
  tag : Nat
  compound : Bool
  name : String
  any : Bool
  deriving DecidableEq, Repr

/-- A 64-bit integer. -/
def integerKind : Kind := ⟨2, false, "int", false⟩

/-- An integer of any size. -/
def bigIntegerKind : Kind := ⟨2, false, "", false⟩

/-- A byte string. -/
def octetsKind : Kind := ⟨4, false, "", false⟩

/-- An object identifier. -/
def oidKind : Kind := ⟨6, false, "ObjectIdentifier", false⟩

/-- A bit string. -/
def bitsKind : Kind := ⟨3, false, "BitString", false⟩

/-- Any element, kept whole. -/
def rawKind : Kind := ⟨0, false, "RawValue", true⟩

/-- A structure of a named type. -/
def recordKind (name : String) : Kind := ⟨16, true, name, false⟩

/-- A field as read: its header, its contents, and its bytes from its first header byte to its
end. -/
structure Field where
  header : Header
  contents : Bytes
  whole : Bytes
  deriving DecidableEq, Repr

/-- The text of a field found with the wrong tag, at the offset after its header. -/
def mismatch (k : Kind) (t : Header) (offset : Nat) : String :=
  structureError ("tags don't match (" ++ toString k.tag ++ " vs \x7bclass:" ++ toString t.cls ++
    " tag:" ++ toString t.tag ++ " length:" ++ toString t.length ++ " isCompound:" ++
    (if t.compound then "true" else "false") ++
    "\x7d) \x7boptional:false explicit:false application:false private:false defaultValue:<nil> tag:<nil> stringType:0 timeType:0 set:false omitEmpty:false\x7d " ++
    k.name ++ " @" ++ toString offset)

/-- Unwraps an explicit context tag `n` around a field whose header has been read: the header of
the field inside, none when the tag is another and the field is optional. -/
def unwrap (bytes : Bytes) (optional : Bool) (n : Nat) (k : Kind) (t : Header) (off : Nat) :
    Except String (Option (Header × Nat)) :=
  if off == bytes.length then .error (structureError "explicit tag has no child")
  else if t.cls == 2 && t.tag == n && (t.length == 0 || t.compound) then
    if k.any then .ok (some (t, off))
    else if t.length > 0 then (header bytes off).map some
    else .error (structureError "zero length explicit tag was not an asn1.Flag")
  else if optional then .ok none
  else .error (structureError "explicitly tagged member didn't match")

/-- Reads a field at an offset of the contents of its structure, optional or not and wrapped in
an explicit context tag or not: the field, none when an optional field is left out, and the
offset after it. -/
def field (bytes : Bytes) (offset : Nat) (optional : Bool) (explicit : Option Nat) (k : Kind) :
    Except String (Option Field × Nat) := do
  if offset == bytes.length then
    if optional then return (none, offset) else throw (syntaxError "sequence truncated")
  let (t, off) ← header bytes offset
  let inner ← match explicit with
    | none => pure (some (t, off))
    | some n => unwrap bytes optional n k t off
  match inner with
  | none => return (none, offset)
  | some (t, off) =>
    if !k.any && (t.cls != 0 || t.tag != k.tag || t.compound != k.compound) then
      if optional then return (none, offset) else throw (mismatch k t off)
    if off + t.length > bytes.length then throw (syntaxError "data truncated")
    let contents := (bytes.drop off).take t.length
    return (some ⟨t, contents, (bytes.drop offset).take (off + t.length - offset)⟩, off + t.length)

/-- Reads a field that must be there, and gives the offset after it. -/
def required (bytes : Bytes) (offset : Nat) (k : Kind) : Except String (Field × Nat) := do
  match ← field bytes offset false none k with
  | (some f, off) => pure (f, off)
  | (none, _) => throw (syntaxError "sequence truncated")

/-- Checks that the contents of an integer are there and in shortest form. -/
def checkInteger : Bytes → Except String Unit
  | [] => .error (structureError "empty integer")
  | [_] => .ok ()
  | a :: b :: _ =>
    if (a == 0 && b < 0x80) || (a == 0xff && b ≥ 0x80) then
      .error (structureError "integer not minimally-encoded")
    else .ok ()

/-- The value of a 64-bit integer's contents. -/
def int64Value (b : Bytes) : Except String Int := do
  checkInteger b
  if b.length > 8 then throw (structureError "integer too large")
  pure (Der.signed b)

/-- The value of an integer's contents. -/
def bigValue (b : Bytes) : Except String Int := do
  checkInteger b
  pure (Der.signed b)

/-- The later components of an object identifier's contents, from an offset. -/
def components (b : Bytes) : Nat → Nat → Except String (List Nat)
  | 0, _ => .ok []
  | fuel + 1, off =>
    if off ≥ b.length then .ok []
    else do
      let (v, off) ← base128At b 5 true 0 off
      let vs ← components b fuel off
      pure (v :: vs)

/-- The components of an object identifier's contents. -/
def oidValue (b : Bytes) : Except String (List Nat) := do
  if b.isEmpty then throw (syntaxError "zero length OBJECT IDENTIFIER")
  let (v, off) ← base128At b 5 true 0 0
  let firstTwo := if v < 80 then [v / 40, v % 40] else [2, v - 80]
  let more ← components b b.length off
  pure (firstTwo ++ more)

/-- The value of a bit string's contents. -/
def bitsValue (b : Bytes) : Except String Der.BitString :=
  match b with
  | [] => .error (syntaxError "zero length BIT STRING")
  | pad :: rest =>
    if pad > 7 || (rest.isEmpty && pad > 0) || (b.getLastD 0 &&& ((1 <<< pad) - 1)) != 0 then
      .error (syntaxError "invalid padding bits in BIT STRING")
    else .ok ⟨rest, pad.toNat⟩

/-- Whether a reading succeeds. -/
def succeeds {α : Type} : Except String α → Bool
  | .ok _ => true
  | .error _ => false

end Asn1

end Crypto

end StaticHttp
