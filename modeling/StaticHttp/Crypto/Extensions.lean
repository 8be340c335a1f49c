import StaticHttp.Crypto.NameSyntax
import StaticHttp.Crypto.Uri
import StaticHttp.Crypto.Der

/-!
# Certificate extensions

The extensions a certificate reader knows are checked once all of them are read, in the order
they stand; the first that fails gives the failure, each kind of extension with its own
message. An extension of another kind is let pass, critical or not.

* Key usage is a bit string; basic constraints a sequence of an optional Boolean and an
  optional path length that is not negative.
* Subject alternative names are a sequence of names: mail addresses and domain names must be
  IA5 text, a URI must be IA5 text that reads as a URI reference whose host, if any, is a
  domain, and an IP address must have four or sixteen bytes.
* Name constraints are a sequence of permitted and excluded subtrees, not both absent or
  empty, each subtree a sequence of a name: a domain with perhaps a leading dot; an address
  and a mask of eight or thirty-two bytes; a mailbox, or a domain with perhaps a leading dot;
  or a URI domain with perhaps a leading dot that is not an IP address.
* CRL distribution points, authority and subject key identifiers, extended key usages,
  certificate policies (no policy named twice), policy mappings, policy constraints, the
  inhibition of any policy, and authority information access have their own layouts; the key
  identifiers and the information access must not be critical.
-/

namespace StaticHttp

namespace Crypto

/-- An extension of a certificate: its identifier, whether it is critical, and its value. -/
structure Extension where
  oid : List Nat
  critical : Bool
  value : Bytes
  deriving DecidableEq, Repr

namespace Extension

open Der

/-- Checks the elements with a tag that make up some bytes, one after another. -/
def forEach (tag : Byte) (failure : String) (check : Bytes → Except String Unit) :
    Nat → Bytes → Except String Unit
  | 0, _ => .ok ()
  | fuel + 1, s =>
    if s.isEmpty then .ok ()
    else match read tag s with
      | none => .error failure
      | some (c, rest) => do
        check c
        forEach tag failure check fuel rest

/-- Checks the contents of the sequence at the front of a value, element by element. -/
def eachInSequence (tag : Byte) (failure : String) (check : Bytes → Except String Unit)
    (v : Bytes) : Except String Unit :=
  match read 0x30 v with
  | none => .error failure
  | some (s, _) => forEach tag failure check s.length s

/-- Reads an integer of at most 64 bits under a given tag. -/
def readTaggedInt64 (tag : Byte) (s : Bytes) : Option (Int × Bytes) :=
  match read tag s with
  | some (c, rest) => if minimalInteger c && c.length ≤ 8 then some (signed c, rest) else none
  | none => none

/-- Checks key usage: a bit string. -/
def keyUsage (v : Bytes) : Except String Unit :=
  if (readBitString v).isSome then .ok () else .error "x509: invalid key usage"

/-- Checks basic constraints: an optional Boolean and an optional path length that is not
negative. -/
def basicConstraints (v : Bytes) : Except String Unit := do
  let fail := "x509: invalid basic constraints"
  let some (s, _) := read 0x30 v | throw fail
  let s ← if peek 1 s then
      match readBoolean s with
      | some (_, s) => pure s
      | none => throw fail
    else pure s
  if peek 2 s then
    match readInt64 s with
    | some (n, _) => if n < 0 then throw fail
    | none => throw fail

/-- A text quoted for a message. -/
def quote (s : Bytes) : String := Text.Quoted.ofBytes s

/-- Checks one alternative name by its tag number. -/
def altName (tag : Byte) (data : Bytes) : Except String Unit :=
  if tag == 1 then
    if NameSyntax.ia5 data then .ok () else .error "x509: SAN rfc822Name is malformed"
  else if tag == 2 then
    if NameSyntax.ia5 data then .ok () else .error "x509: SAN dNSName is malformed"
  else if tag == 6 then
    if !NameSyntax.ia5 data then .error "x509: SAN uniformResourceIdentifier is malformed"
    else match Uri.parse data with
      | .error e => .error ("x509: cannot parse URI " ++ quote data ++ ": " ++ e)
      | .ok host =>
        if !host.isEmpty && !NameSyntax.domainOk host then
          .error ("x509: cannot parse URI " ++ quote data ++ ": invalid domain")
        else .ok ()
  else if tag == 7 then
    if data.length == 4 || data.length == 16 then .ok ()
    else .error ("x509: cannot parse IP address of length " ++ toString data.length)
  else .ok ()

/-- Checks alternative names one after another. -/
def altNames : Nat → Bytes → Except String Unit
  | 0, _ => .ok ()
  | fuel + 1, s =>
    if s.isEmpty then .ok ()
    else match readAny s with
      | none => .error "x509: invalid subject alternative name"
      | some (e, rest) => do
        altName (e.tag ^^^ 0x80) e.contents
        altNames fuel rest

/-- Checks subject alternative names: a sequence of names. -/
def subjectAltNames (v : Bytes) : Except String Unit :=
  match read 0x30 v with
  | none => .error "x509: invalid subject alternative names"
  | some (s, _) => altNames s.length s

/-- The failure of a constraint that is not IA5 text. -/
def notIa5 (s : Bytes) : String :=
  "x509: invalid constraint value: x509: " ++ quote s ++ " cannot be encoded as an IA5String"

/-- Text without one leading dot. -/
def trimDot (s : Bytes) : Bytes := if s.head? == some 46 then s.drop 1 else s

/-- Bytes in lower-case hexadecimal. -/
def hex (s : Bytes) : String := String.ofList (s.flatMap fun b => Text.Quoted.hexPadded 2 b.toNat)

/-- Checks the name of one subtree by its tag. -/
def constraint (tag : Byte) (value : Bytes) : Except String Unit :=
  if tag == 0x82 then
    if !NameSyntax.ia5 value then .error (notIa5 value)
    else if NameSyntax.domainOk (trimDot value) then .ok ()
    else .error ("x509: failed to parse dnsName constraint " ++ quote value)
  else if tag == 0x87 then
    if value.length != 8 && value.length != 32 then
      .error ("x509: IP constraint contained value of length " ++ toString value.length)
    else
      let mask := value.drop (value.length / 2)
      if NameSyntax.maskOk mask then .ok ()
      else .error ("x509: IP constraint contained invalid mask " ++ hex mask)
  else if tag == 0x81 then
    if !NameSyntax.ia5 value then .error (notIa5 value)
    else
      let ok := if value.contains 64 then NameSyntax.mailboxOk value
        else NameSyntax.domainOk (trimDot value)
      if ok then .ok () else .error ("x509: failed to parse rfc822Name constraint " ++ quote value)
  else if tag == 0x86 then
    if !NameSyntax.ia5 value then .error (notIa5 value)
    else if IpAddress.isAddress value then
      .error ("x509: failed to parse URI constraint " ++ quote value ++ ": cannot be IP address")
    else if NameSyntax.domainOk (trimDot value) then .ok ()
    else .error ("x509: failed to parse URI constraint " ++ quote value)
  else .ok ()

/-- The failure of name constraints that do not read. -/
def badConstraints : String := "x509: invalid NameConstraints extension"

/-- Checks subtrees one after another: each a sequence whose first element is a name. -/
def subtrees : Nat → Bytes → Except String Unit
  | 0, _ => .ok ()
  | fuel + 1, s =>
    if s.isEmpty then .ok ()
    else match read 0x30 s with
      | none => .error badConstraints
      | some (seq, rest) =>
        match readAny seq with
        | none => .error badConstraints
        | some (e, _) => do
          constraint e.tag e.contents
          subtrees fuel rest

/-- Checks name constraints: permitted and excluded subtrees, and nothing else. -/
def nameConstraints (v : Bytes) : Except String Unit := do
  let some (top, after) := read 0x30 v | throw badConstraints
  if !after.isEmpty then throw badConstraints
  let some (permitted, top) := readOptional 0xa0 top | throw badConstraints
  let some (excluded, top) := readOptional 0xa1 top | throw badConstraints
  if !top.isEmpty then throw badConstraints
  let p := permitted.getD []
  let x := excluded.getD []
  if (permitted.isNone && excluded.isNone) || (p.isEmpty && x.isEmpty) then
    throw "x509: empty name constraints extension"
  subtrees p.length p
  subtrees x.length x

/-- Checks the full names of a distribution point: URIs, up to the first other name. -/
def fullNames : Nat → Bytes → Except String Unit
  | 0, _ => .ok ()
  | fuel + 1, s =>
    if s.isEmpty || !peek 0x86 s then .ok ()
    else match read 0x86 s with
      | none => .error "x509: invalid CRL distribution point"
      | some (_, rest) => fullNames fuel rest

/-- Checks one distribution point: an optional name, which must be a list of full names. -/
def distributionPoint (dp : Bytes) : Except String Unit :=
  let bad := "x509: invalid CRL distribution point"
  match readOptional 0xa0 dp with
  | none => .error bad
  | some (none, _) => .ok ()
  | some (some name, _) =>
    match read 0xa0 name with
    | none => .error bad
    | some (full, _) => fullNames full.length full

/-- Checks CRL distribution points: a sequence of points. -/
def crlDistributionPoints (v : Bytes) : Except String Unit :=
  match read 0x30 v with
  | none => .error "x509: invalid CRL distribution points"
  | some (s, _) => forEach 0x30 "x509: invalid CRL distribution point" distributionPoint s.length s

/-- Checks an authority key identifier: not critical, a sequence with perhaps an identifier. -/
def authorityKeyId (critical : Bool) (v : Bytes) : Except String Unit := do
  if critical then throw "x509: authority key identifier incorrectly marked critical"
  let bad := "x509: invalid authority key identifier"
  let some (akid, _) := read 0x30 v | throw bad
  if peek 0x80 akid then
    if (read 0x80 akid).isNone then throw bad

/-- Checks extended key usages: a sequence of identifiers. -/
def extKeyUsage (v : Bytes) : Except String Unit :=
  let bad := "x509: invalid extended key usages"
  match read 0x30 v with
  | none => .error bad
  | some (s, _) =>
    let rec go : Nat → Bytes → Except String Unit
      | 0, _ => .ok ()
      | fuel + 1, s =>
        if s.isEmpty then .ok ()
        else match readOid s with
          | none => .error bad
          | some (_, rest) => go fuel rest
    go s.length s

/-- Checks a subject key identifier: not critical, a byte string. -/
def subjectKeyId (critical : Bool) (v : Bytes) : Except String Unit :=
  if critical then .error "x509: subject key identifier incorrectly marked critical"
  else if (read 4 v).isSome then .ok ()
  else .error "x509: invalid subject key identifier"

/-- Whether the contents of an identifier are well formed: not empty, ending a component, and
no component starting with `80`. -/
def oidBytesOk (der : Bytes) : Bool :=
  let rec starts : Bool → Bytes → Bool
    | _, [] => true
    | atStart, v :: rest => !(atStart && v == 0x80) && starts (v < 0x80) rest
  !der.isEmpty && der.getLastD 0 < 0x80 && starts true der

/-- Checks policies one after another: each a sequence starting with an identifier not seen
before. -/
def policyList : Nat → List Bytes → Bytes → Except String Unit
  | 0, _, _ => .ok ()
  | fuel + 1, seen, s =>
    let bad := "x509: invalid certificate policies"
    if s.isEmpty then .ok ()
    else match read 0x30 s with
      | none => .error bad
      | some (cp, rest) =>
        match read 6 cp with
        | none => .error bad
        | some (oid, _) =>
          if seen.contains oid || !oidBytesOk oid then .error bad
          else policyList fuel (oid :: seen) rest

/-- Checks certificate policies: a sequence of policies. -/
def certificatePolicies (v : Bytes) : Except String Unit :=
  match read 0x30 v with
  | none => .error "x509: invalid certificate policies"
  | some (s, _) => policyList s.length [] s

/-- Checks policy mappings: a sequence of pairs of identifiers. -/
def policyMappings (v : Bytes) : Except String Unit :=
  let bad := "x509: invalid policy mappings extension"
  eachInSequence 0x30 bad (fun m =>
    match read 6 m with
    | none => .error bad
    | some (_, m) => if (read 6 m).isSome then .ok () else .error bad) v

/-- Checks policy constraints: a sequence of two optional counts. -/
def policyConstraints (v : Bytes) : Except String Unit := do
  let bad := "x509: invalid policy constraints extension"
  let some (s, _) := read 0x30 v | throw bad
  let s ← if peek 0x80 s then
      match readTaggedInt64 0x80 s with
      | some (_, s) => pure s
      | none => throw bad
    else pure s
  if peek 0x81 s then
    if (readTaggedInt64 0x81 s).isNone then throw bad

/-- Checks the inhibition of any policy: an integer. -/
def inhibitAnyPolicy (v : Bytes) : Except String Unit :=
  if (readInt64 v).isSome then .ok () else .error "x509: invalid inhibit any policy extension"

/-- Checks one access description: a method and perhaps a URI. -/
def accessDescription (d : Bytes) : Except String Unit :=
  let bad := "x509: invalid authority info access"
  match readOid d with
  | none => .error bad
  | some (_, d) => if peek 0x86 d && (read 0x86 d).isNone then .error bad else .ok ()

/-- Checks authority information access: not critical, a sequence of access descriptions. -/
def authorityInfoAccess (critical : Bool) (v : Bytes) : Except String Unit :=
  if critical then .error "x509: authority info access incorrectly marked critical"
  else eachInSequence 0x30 "x509: invalid authority info access" accessDescription v

/-- The identifier of authority information access. -/
def authorityInfoAccessOid : List Nat := [1, 3, 6, 1, 5, 5, 7, 1, 1]

/-- Checks one extension by its kind. -/
def check (e : Extension) : Except String Unit :=
  match e.oid with
  | [2, 5, 29, n] =>
    if n == 15 then keyUsage e.value
    else if n == 19 then basicConstraints e.value
    else if n == 17 then subjectAltNames e.value
    else if n == 30 then nameConstraints e.value
    else if n == 31 then crlDistributionPoints e.value
    else if n == 35 then authorityKeyId e.critical e.value
    else if n == 37 then extKeyUsage e.value
    else if n == 14 then subjectKeyId e.critical e.value
    else if n == 32 then certificatePolicies e.value
    else if n == 33 then policyMappings e.value
    else if n == 36 then policyConstraints e.value
    else if n == 54 then inhibitAnyPolicy e.value
    else .ok ()
  | oid => if oid == authorityInfoAccessOid then authorityInfoAccess e.critical e.value else .ok ()

/-- Checks extensions in order. -/
def checkAll : List Extension → Except String Unit
  | [] => .ok ()
  | e :: rest => do
    check e
    checkAll rest

end Extension

end Crypto

end StaticHttp
