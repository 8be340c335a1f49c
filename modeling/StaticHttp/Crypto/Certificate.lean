import StaticHttp.Crypto.Curve
import StaticHttp.Crypto.Extensions
import StaticHttp.Crypto.MlDsa

/-!
# Certificates

A certificate is read as far as the key pair check needs it, and checked part by part on the
way, each failing part named in the failure: the certificate and its to-be-signed part, the
version, the serial number, the signature algorithm (which must be the same inside and outside
the signed part), the issuer and subject names with their values, the validity times, the
public key and its algorithm, the unique identifiers and extensions of later versions, and
the signature. Bytes after the certificate are refused.

A name's attribute values may have any tag; the string types must hold what they name, a
BMP string an even number of bytes of characters that are neither surrogates nor
noncharacters, and an integer must be in shortest form. Extensions are read whole first, none
named twice, and then checked in order (see `Extension.check`).

The public key is kept for RSA (its modulus and exponent), for the prime curves (the point),
for Ed25519 (its bytes) and for ML-DSA (its parameter set and bytes). A DSA key is checked but
not kept, and a key of another algorithm is not read.
-/

namespace StaticHttp

namespace Crypto

/-- The public key of a certificate, as far as a key pair check needs it. -/
inductive PublicKey where
  | rsa (modulus exponent : Nat)
  | ec (curve : Curve) (x y : Nat)
  | ed25519 (key : Bytes)
  | mlDsa (params : MlDsa) (key : Bytes)
  | other
  deriving DecidableEq, Repr

namespace Certificate

open Der

/-- Whether a byte may stand in a printable string: letters, digits, the space and
`'()+,-./:=?`, and also `*` and `&`, which certificates use in them. -/
def printable (b : Byte) : Bool :=
  (97 ≤ b && b ≤ 122) || (65 ≤ b && b ≤ 90) || (48 ≤ b && b ≤ 57) || (39 ≤ b && b ≤ 41) ||
    (43 ≤ b && b ≤ 47) || b == 32 || b == 58 || b == 61 || b == 63 || b == 42 || b == 38

/-- Whether big-endian code units are all characters of the basic plane: no surrogates and no
noncharacters. -/
def bmpUnits : Bytes → Bool
  | a :: b :: rest =>
    let u := a.toNat * 256 + b.toNat
    !(u == 0xfffe || u == 0xffff || (0xfdd0 ≤ u && u ≤ 0xfdef) || (0xd800 ≤ u && u ≤ 0xdfff)) &&
      bmpUnits rest
  | _ => true

/-- What is wrong with the value of a name attribute, if anything: the string types must hold
what they name, and an integer must be in shortest form; values of other types pass. -/
def valueProblem (tag : Byte) (v : Bytes) : Option String :=
  if tag == 0x13 then (if v.all printable then none else some "invalid PrintableString")
  else if tag == 0x0c then
    (if (Utf8.pieces v).all (fun p => match p with | .scalar _ _ => true | .stray _ => false) then none
     else some "invalid UTF-8 string")
  else if tag == 0x1e then
    (if v.length % 2 == 0 && bmpUnits v then none else some "invalid BMPString")
  else if tag == 0x16 then (if v.all (· < 0x80) then none else some "invalid IA5String")
  else if tag == 0x12 then
    (if v.all (fun b => Byte.isDigit b || b == 32) then none else some "invalid NumericString")
  else if tag == 0x02 then (if minimalInteger v then none else some "invalid ASN.1 integer")
  else none

/-- Checks the attributes of one set of a name. -/
def attributes : Nat → Bytes → Except String Unit
  | 0, _ => .ok ()
  | fuel + 1, set =>
    if set.isEmpty then .ok ()
    else do
      let some (atav, set) := read 0x30 set | throw "x509: invalid RDNSequence: invalid attribute"
      let some (_, atav) := readOid atav | throw "x509: invalid RDNSequence: invalid attribute type"
      let some (e, _) := readAny atav | throw "x509: invalid RDNSequence: invalid attribute value"
      match valueProblem e.tag e.contents with
      | some p => throw ("x509: invalid RDNSequence: invalid attribute value: " ++ p)
      | none => attributes fuel set

/-- Checks the sets of a name. -/
def sets : Nat → Bytes → Except String Unit
  | 0, _ => .ok ()
  | fuel + 1, seq =>
    if seq.isEmpty then .ok ()
    else do
      let some (set, seq) := read 0x31 seq | throw "x509: invalid RDNSequence"
      attributes set.length set
      sets fuel seq

/-- Checks a name. -/
def name (raw : Bytes) : Except String Unit := do
  let some (seq, _) := read 0x30 raw | throw "x509: invalid RDNSequence"
  sets seq.length seq

/-- Checks a time at the front of some bytes, and gives what follows it. -/
def time (der : Bytes) : Except String Bytes :=
  if peek 0x17 der then
    match read 0x17 der with
    | some (t, rest) => if utcTimeOk t then .ok rest else .error "x509: malformed UTCTime"
    | none => .error "x509: malformed UTCTime"
  else if peek 0x18 der then
    match read 0x18 der with
    | some (t, rest) => if generalizedTimeOk t then .ok rest else .error "x509: malformed GeneralizedTime"
    | none => .error "x509: malformed GeneralizedTime"
  else .error "x509: unsupported time format"

/-- Reads an algorithm identifier: the algorithm and the whole bytes of its parameters, empty
when there are none. -/
def algorithm (der : Bytes) : Except String (List Nat × Bytes) := do
  let some (oid, rest) := readOid der | throw "x509: malformed OID"
  if rest.isEmpty then return (oid, [])
  let some (params, _) := readAnyWhole rest | throw "x509: malformed parameters"
  return (oid, params)

/-- Whether an algorithm's keys are read from certificates. -/
def knownAlgorithm (oid : List Nat) : Bool :=
  oid == Oid.rsa || oid == Oid.dsa || oid == Oid.ecPublicKey || oid == Oid.ed25519 ||
    (MlDsa.ofOid oid).isSome

/-- Reads a public key of a known algorithm from its parameters and key bits. -/
def publicKey (oid : List Nat) (params key : Bytes) : Except String PublicKey := do
  if oid == Oid.rsa then
    if params != [5, 0] then throw "x509: RSA key missing NULL parameters"
    let some (seq, _) := read 0x30 key | throw "x509: invalid RSA public key"
    let some (n, seq) := readInteger seq | throw "x509: invalid RSA modulus"
    let some (e, _) := readInt64 seq | throw "x509: invalid RSA public exponent"
    if n ≤ 0 then throw "x509: RSA modulus is not a positive number"
    if e ≤ 0 then throw "x509: RSA public exponent is not a positive number"
    return .rsa n.toNat e.toNat
  else if oid == Oid.ecPublicKey then
    let some (curveOid, _) := readOid params | throw "x509: invalid ECDSA parameters"
    let some curve := Curve.ofOid curveOid | throw "x509: unsupported elliptic curve"
    let (x, y) ← curve.unmarshal key
    return .ec curve x y
  else if oid == Oid.ed25519 then
    if !params.isEmpty then throw "x509: Ed25519 key encoded with illegal parameters"
    if key.length != 32 then throw "x509: wrong Ed25519 public key size"
    return .ed25519 key
  else if let some p := MlDsa.ofOid oid then
    if !params.isEmpty then throw "x509: ML-DSA key encoded with illegal parameters"
    if key.length != p.publicKeySize then throw "mldsa: invalid public key length"
    return .mlDsa p key
  else
    let some (y, _) := readInteger key | throw "x509: invalid DSA public key"
    let some (seq, _) := read 0x30 params | throw "x509: invalid DSA parameters"
    let some (p, seq) := readInteger seq | throw "x509: invalid DSA parameters"
    let some (q, seq) := readInteger seq | throw "x509: invalid DSA parameters"
    let some (g, _) := readInteger seq | throw "x509: invalid DSA parameters"
    if y ≤ 0 || p ≤ 0 || q ≤ 0 || g ≤ 0 then throw "x509: zero or negative DSA parameter"
    return .other

/-- Reads one extension: its identifier, whether it is critical, and its value. -/
def extension (der : Bytes) : Except String Extension := do
  let some (oid, der) := readOid der | throw "x509: malformed extension OID field"
  let (critical, der) ← if peek 1 der then
      match readBoolean der with
      | some r => pure r
      | none => throw "x509: malformed extension critical field"
    else pure (false, der)
  let some (value, _) := read 4 der | throw "x509: malformed extension value field"
  return ⟨oid, critical, value⟩

/-- Reads the extensions of a list, none named twice, after those already read. -/
def extensions : Nat → List Extension → Bytes → Except String (List Extension)
  | 0, seen, _ => .ok seen.reverse
  | fuel + 1, seen, exts =>
    if exts.isEmpty then .ok seen.reverse
    else do
      let some (ext, exts) := read 0x30 exts | throw "x509: malformed extension"
      let e ← extension ext
      if seen.any (·.oid == e.oid) then
        throw ("x509: certificate contains duplicate extension with OID \"" ++ Oid.text e.oid ++ "\"")
      extensions fuel (e :: seen) exts

/-- Checks the parts of the signed part that later versions add. -/
def laterParts (version : Int) (tbs : Bytes) : Except String Unit := do
  if version ≤ 1 then return ()
  let tbs ← if peek 0x81 tbs then
      match read 0x81 tbs with
      | some (_, tbs) => pure tbs
      | none => throw "x509: malformed issuerUniqueID"
    else pure tbs
  let tbs ← if peek 0x82 tbs then
      match read 0x82 tbs with
      | some (_, tbs) => pure tbs
      | none => throw "x509: malformed subjectUniqueID"
    else pure tbs
  if version == 3 && peek 0xa3 tbs then
    let some (exts, _) := read 0xa3 tbs | throw "x509: malformed extensions"
    let some (exts, _) := read 0x30 exts | throw "x509: malformed extensions"
    let exts ← extensions exts.length [] exts
    Extension.checkAll exts

/-- Reads a certificate's DER bytes and gives its public key. -/
def parse (der : Bytes) : Except String PublicKey := do
  let some (raw, after) := readWhole 0x30 der | throw "x509: malformed certificate"
  let some (input, _) := read 0x30 raw | throw "x509: malformed certificate"
  let some (tbsWhole, input) := readWhole 0x30 input | throw "x509: malformed tbs certificate"
  let some (tbs, _) := read 0x30 tbsWhole | throw "x509: malformed tbs certificate"
  let (version, tbs) ← match readOptional 0xa0 tbs with
    | none => throw "x509: malformed version"
    | some (none, tbs) => pure (0, tbs)
    | some (some v, tbs) =>
      match readInt64 v with
      | some (n, []) => pure (n, tbs)
      | _ => throw "x509: malformed version"
  if version < 0 then throw "x509: malformed version"
  let version := version + 1
  if version > 3 then throw "x509: invalid version"
  let some (_, tbs) := readInteger tbs | throw "x509: malformed serial number"
  let some (sigAI, tbs) := read 0x30 tbs | throw "x509: malformed signature algorithm identifier"
  let some (outerAI, input) := read 0x30 input | throw "x509: malformed algorithm identifier"
  if outerAI != sigAI then throw "x509: inner and outer signature algorithm identifiers don't match"
  let _ ← algorithm sigAI
  let some (issuer, tbs) := readWhole 0x30 tbs | throw "x509: malformed issuer"
  name issuer
  let some (validity, tbs) := read 0x30 tbs | throw "x509: malformed validity"
  let validity ← time validity
  let _ ← time validity
  let some (subject, tbs) := readWhole 0x30 tbs | throw "x509: malformed issuer"
  name subject
  let some (spki, tbs) := readWhole 0x30 tbs | throw "x509: malformed spki"
  let some (spki, _) := read 0x30 spki | throw "x509: malformed spki"
  let some (keyAI, spki) := read 0x30 spki | throw "x509: malformed public key algorithm identifier"
  let (oid, params) ← algorithm keyAI
  let some (bits, _) := readBitString spki | throw "x509: malformed subjectPublicKey"
  let key ← if knownAlgorithm oid then publicKey oid params bits.rightAlign else pure .other
  laterParts version tbs
  let some _ := readBitString input | throw "x509: malformed signature"
  if !after.isEmpty then throw "x509: trailing data"
  return key

end Certificate

end Crypto

end StaticHttp
