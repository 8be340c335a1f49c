import StaticHttp.Crypto.Asn1
import StaticHttp.Crypto.Curve
import StaticHttp.Crypto.MlDsa

/-!
# Private keys

A private key comes in one of three layouts, tried in turn: a PKCS #1 RSA key, a PKCS #8
wrapping of an RSA, elliptic-curve, Ed25519, X25519 or ML-DSA key, or an elliptic-curve key of
its own. When none of them reads, the failure is the one of the PKCS #8 reading, and a
structure that reads under another layout is named in it.

An RSA key must hold positive values. A key of two primes is then checked as the key it
makes: the CRT values written in it are not read but computed again from `d`, `p` and `q`,
and the modulus, the primes, the exponents, the CRT values and the distance of the primes are
checked in a fixed order, each with its own message. A key of more primes is checked only for
its public part, for `d < n`, and for primes that are pairwise coprime.

An elliptic-curve key names its curve, in the wrapping or in the key; leading zero bytes beyond
the curve's size are dropped, and other extra bytes refused. A number that is a multiple of the
curve's order makes the point at infinity, which is no public key; any other number must lie
below the order.

An ML-DSA key is its 32-byte seed, written as a context-tagged byte string; a key written
with its expanded form is refused.

Main statements:
* `PrivateKey.bitLength_pow`: the bit length of `2 ^ k` is `k + 1`.
-/

namespace StaticHttp

namespace Crypto

/-- A private key, as far as a key pair check needs it: an RSA modulus and public exponent, an
elliptic-curve number on its curve, an Ed25519 seed, an X25519 key, or an ML-DSA parameter set
and seed. -/
inductive PrivateKey where
  | rsa (modulus exponent : Nat)
  | ec (curve : Curve) (k : Nat)
  | ed25519 (seed : Bytes)
  | x25519
  | mlDsa (params : MlDsa) (seed : Bytes)
  deriving DecidableEq, Repr

namespace PrivateKey

open Asn1

/-- The values of a PKCS #1 RSA key. -/
structure RsaFields where
  version : Int
  n : Int
  e : Int
  d : Int
  p : Int
  q : Int
  optional : List Int
  primes : List Int
  deriving DecidableEq, Repr

/-- Reads an optional integer field: its value if it is there. -/
def optionalInteger (b : Bytes) (off : Nat) : Except String (Option Int × Nat) := do
  match ← field b off true none bigIntegerKind with
  | (some f, off) => pure (some (← bigValue f.contents), off)
  | (none, off) => pure (none, off)

/-- The elements of a sequence of additional primes, checked header by header first: the
primes. -/
def additionalPrimes (b : Bytes) : Except String (List Int) := do
  let rec count : Nat → Nat → Except String Nat
    | 0, _ => .ok 0
    | fuel + 1, off =>
      if off ≥ b.length then .ok 0
      else do
        let (t, off) ← header b off
        if t.cls != 0 || !t.compound || t.tag != 16 then throw (structureError "sequence tag mismatch")
        if off + t.length > b.length then throw (syntaxError "truncated sequence")
        let n ← count fuel (off + t.length)
        pure (n + 1)
  let rec items : Nat → Nat → Except String (List Int)
    | 0, _ => .ok []
    | n + 1, off => do
      let (r, off) ← required b off (recordKind "pkcs1AdditionalRSAPrime")
      let (prime, o) ← required r.contents 0 bigIntegerKind
      let prime ← bigValue prime.contents
      let (exp, o) ← required r.contents o bigIntegerKind
      let _ ← bigValue exp.contents
      let (coeff, _) ← required r.contents o bigIntegerKind
      let _ ← bigValue coeff.contents
      let rest ← items n off
      pure (prime :: rest)
  let n ← count b.length 0
  items n 0

/-- Reads the structure of a PKCS #1 RSA key, and gives the offset after it. -/
def pkcs1Structure (der : Bytes) : Except String (RsaFields × Nat) := do
  let (r, after) ← required der 0 (recordKind "pkcs1PrivateKey")
  let b := r.contents
  let (v, off) ← required b 0 integerKind
  let version ← int64Value v.contents
  let (n, off) ← required b off bigIntegerKind
  let n ← bigValue n.contents
  let (e, off) ← required b off integerKind
  let e ← int64Value e.contents
  let (d, off) ← required b off bigIntegerKind
  let d ← bigValue d.contents
  let (p, off) ← required b off bigIntegerKind
  let p ← bigValue p.contents
  let (q, off) ← required b off bigIntegerKind
  let q ← bigValue q.contents
  let (dp, off) ← optionalInteger b off
  let (dq, off) ← optionalInteger b off
  let (qinv, off) ← optionalInteger b off
  let (extra, _) ← field b off true none (recordKind "")
  let primes ← match extra with
    | some f => additionalPrimes f.contents
    | none => pure []
  pure (⟨version, n, e, d, p, q, [dp, dq, qinv].filterMap id, primes⟩, after)

/-- Reads an algorithm identifier: the algorithm and the whole bytes of its parameters, empty
when there are none. -/
def algorithm (b : Bytes) : Except String (List Nat × Bytes) := do
  let (o, off) ← required b 0 oidKind
  let oid ← oidValue o.contents
  let (params, _) ← field b off true none rawKind
  pure (oid, (params.map (·.whole)).getD [])

/-- Reads the structure of a PKCS #8 wrapping: the algorithm, its parameters and the wrapped
key, and the offset after it. -/
def pkcs8Structure (der : Bytes) : Except String ((List Nat × Bytes × Bytes) × Nat) := do
  let (r, after) ← required der 0 (recordKind "pkcs8")
  let b := r.contents
  let (v, off) ← required b 0 integerKind
  let _ ← int64Value v.contents
  let (a, off) ← required b off (recordKind "AlgorithmIdentifier")
  let (oid, params) ← algorithm a.contents
  let (k, _) ← required b off octetsKind
  pure ((oid, params, k.contents), after)

/-- Reads the structure of an elliptic-curve key: its version, number and curve, and the
offset after it. -/
def ecStructure (der : Bytes) : Except String ((Int × Bytes × Option (List Nat)) × Nat) := do
  let (r, after) ← required der 0 (recordKind "ecPrivateKey")
  let b := r.contents
  let (v, off) ← required b 0 integerKind
  let version ← int64Value v.contents
  let (k, off) ← required b off octetsKind
  let (c, off) ← field b off true (some 0) oidKind
  let curve ← match c with
    | some c => some <$> oidValue c.contents
    | none => pure none
  let (pub, _) ← field b off true (some 1) bitsKind
  match pub with
  | some f => let _ ← bitsValue f.contents
  | none => pure ()
  pure ((version, k.contents, curve), after)

/-- The number of bits of a number. -/
def bitLength (n : Nat) : Nat := if n == 0 then 0 else Nat.log2 n + 1

/-- What is wrong with the public part of an RSA key, if anything: the modulus must be odd, and
the exponent odd and from 3 to `2 ^ 31 - 1`. -/
def publicProblem (n : Nat) (e : Int) : Option String :=
  if n % 2 == 0 then some "crypto/rsa: public modulus is even"
  else if e < 2 then some "crypto/rsa: public exponent too small or negative"
  else if e % 2 == 0 then some "crypto/rsa: public exponent is even"
  else if e > 2147483647 then some "crypto/rsa: public exponent too large"
  else none

/-- What is wrong with an RSA key of two primes, if anything. The moduli `n`, `p`, `q`, `p - 1`
and `q - 1` must exceed one and `d` lie below `n`; `p` must be odd for the CRT coefficient
`q ^ (p - 2) mod p`. Then come the public part, `p` and `q` below `n` with `p q ≡ 0 (mod n)`,
`e d ≡ 1` modulo `p - 1` and `q - 1`, the coefficient inverting `q` modulo `p`, primes further
apart than `2 ^ (nbits / 2 - 100)`, and `d` longer than half the modulus. -/
def twoPrimeProblem (n : Nat) (e : Int) (d p q : Nat) : Option String :=
  if n ≤ 1 || p ≤ 1 || q ≤ 1 || (d < n && (p ≤ 2 || q ≤ 2)) then some "modulus must be > 1"
  else if d ≥ n then some "input overflows the modulus"
  else if p % 2 == 0 then some "crypto/rsa: p is even"
  else match publicProblem n e with
    | some m => some m
    | none =>
      let coefficient := Curve.powMod p (q % p) (p - 2)
      let distance := if p ≥ q then p - q else q - p
      if p ≥ n || q ≥ n then some "crypto/rsa: invalid prime"
      else if p * q % n != 0 then some "crypto/rsa: p * q != n"
      else if e.toNat * (d % (p - 1)) % (p - 1) != 1 || e.toNat * (d % (q - 1)) % (q - 1) != 1 then
        some "crypto/rsa: invalid CRT exponent"
      else if q % p * coefficient % p != 1 then some "crypto/rsa: invalid CRT coefficient"
      else if (bitLength distance : Int) ≤ ((bitLength n / 2 : Nat) : Int) - 100 then
        some "crypto/rsa: |p - q| too small"
      else if bitLength d ≤ bitLength n / 2 then some "crypto/rsa: d too small"
      else none

/-- Whether each number is coprime to the product of those before it and of `r`. -/
def coprimeChain : Nat → List Nat → Bool
  | _, [] => true
  | r, x :: xs => Nat.gcd r x == 1 && coprimeChain (r * x) xs

/-- What is wrong with an RSA key of more than two primes, if anything: a modulus above one,
`d` below it, a sound public part, primes above one, and primes pairwise coprime. -/
def multiPrimeProblem (n : Nat) (e : Int) (d : Nat) (primes : List Nat) : Option String :=
  if n ≤ 1 then some "modulus must be > 1"
  else if d ≥ n then some "input overflows the modulus"
  else match publicProblem n e with
    | some m => some m
    | none =>
      if primes.any (· ≤ 1) then some "crypto/rsa: prime factor is <= 1"
      else match primes with
        | p :: q :: more =>
          if Nat.gcd q p == 1 && coprimeChain (p * q) more then none
          else some "crypto/rsa: prime factors are not relatively prime"
        | _ => none

/-- The failure of an RSA key that is not sound, if it is not. -/
def rsaProblem (f : RsaFields) : Option String :=
  if f.primes.isEmpty then twoPrimeProblem f.n.toNat f.e f.d.toNat f.p.toNat f.q.toNat
  else multiPrimeProblem f.n.toNat f.e f.d.toNat ((f.p :: f.q :: f.primes).map Int.toNat)

/-- The text naming the layout a structure reads under instead. -/
def useInstead (layout : String) : String :=
  "x509: failed to parse private key (use " ++ layout ++ " instead for this key format)"

/-- Reads a PKCS #1 RSA key: its modulus and public exponent. -/
def pkcs1 (der : Bytes) : Except String (Nat × Nat) :=
  match pkcs1Structure der with
  | .error e =>
    if succeeds (ecStructure der) then .error (useInstead "ParseECPrivateKey")
    else if succeeds (pkcs8Structure der) then .error (useInstead "ParsePKCS8PrivateKey")
    else .error e
  | .ok (f, after) =>
    if after < der.length then .error (syntaxError "trailing data")
    else if f.version > 1 then .error "x509: unsupported private key version"
    else if f.n ≤ 0 || f.d ≤ 0 || f.p ≤ 0 || f.q ≤ 0 || f.optional.any (· ≤ 0) then
      .error "x509: private key contains zero or negative value"
    else if f.primes.any (· ≤ 0) then .error "x509: private key contains zero or negative prime"
    else match rsaProblem f with
      | some p => .error p
      | none => .ok (f.n.toNat, f.e.toNat)

/-- Reads an elliptic-curve key, on the curve `outer` names if the wrapping names one: the curve
and the number. -/
def ecKey (outer : Option (List Nat)) (der : Bytes) : Except String (Curve × Nat) :=
  match ecStructure der with
  | .error e =>
    if succeeds (pkcs8Structure der) then .error (useInstead "ParsePKCS8PrivateKey")
    else if succeeds (pkcs1Structure der) then .error (useInstead "ParsePKCS1PrivateKey")
    else .error ("x509: failed to parse EC private key: " ++ e)
  | .ok ((version, key, inner), _) =>
    if version != 1 then .error ("x509: unknown EC private key version " ++ toString version)
    else
      match (outer.orElse fun _ => inner).bind Curve.ofOid with
      | none => .error "x509: unknown elliptic curve"
      | some curve =>
        let k := Der.bigEndian key
        if (key.take (key.length - curve.size)).any (· != 0) then
          .error "x509: invalid private key length"
        else if k % curve.n == 0 then .error "ecdsa: invalid public key encoding"
        else if k ≥ curve.n then .error "input overflows the modulus"
        else .ok (curve, k)

/-- The message for an ML-DSA key written with both its seed and its expanded form. -/
def bothForms : String :=
  "x509: ML-DSA private keys with both seed and expanded key are not supported, " ++
    "use e.g. \"openssl pkey -provparam ml-dsa.output_formats=seed-only\" to convert to a seed-only key"

/-- Reads an ML-DSA key of a parameter set: its seed, tagged `[0]`, 32 bytes long. -/
def mlDsaKey (p : MlDsa) (params key : Bytes) : Except String PrivateKey :=
  if !params.isEmpty then .error "x509: invalid ML-DSA private key parameters"
  else if key.head? == some 0x30 then .error bothForms
  else if key.length == 34 && key.take 2 == [0x80, 32] then .ok (.mlDsa p (key.drop 2))
  else .error ("x509: invalid ML-DSA private key length: " ++ toString key.length)

/-- Reads the 32-byte key a wrapping holds as a byte string. -/
def wrappedOctets (key : Bytes) : Except String Bytes := do
  let (f, _) ← required key 0 octetsKind
  pure f.contents

/-- Reads a PKCS #8 wrapping and the key it holds. -/
def pkcs8 (der : Bytes) : Except String PrivateKey :=
  match pkcs8Structure der with
  | .error e =>
    if succeeds (ecStructure der) then .error (useInstead "ParseECPrivateKey")
    else if succeeds (pkcs1Structure der) then .error (useInstead "ParsePKCS1PrivateKey")
    else .error e
  | .ok ((oid, params, key), _) =>
    if oid == Der.Oid.rsa then
      match pkcs1 key with
      | .ok (n, e) => .ok (.rsa n e)
      | .error e => .error ("x509: failed to parse RSA private key embedded in PKCS#8: " ++ e)
    else if oid == Der.Oid.ecPublicKey then
      let outer := match required params 0 oidKind with
        | .ok (f, _) => (oidValue f.contents).toOption
        | .error _ => none
      match ecKey outer key with
      | .ok (c, k) => .ok (.ec c k)
      | .error e => .error ("x509: failed to parse EC private key embedded in PKCS#8: " ++ e)
    else if oid == Der.Oid.ed25519 then
      if !params.isEmpty then .error "x509: invalid Ed25519 private key parameters"
      else
        match wrappedOctets key with
        | .error e => .error ("x509: invalid Ed25519 private key: " ++ e)
        | .ok seed =>
          if seed.length != 32 then .error ("x509: invalid Ed25519 private key length: " ++ toString seed.length)
          else .ok (.ed25519 seed)
    else if oid == Der.Oid.x25519 then
      if !params.isEmpty then .error "x509: invalid X25519 private key parameters"
      else
        match wrappedOctets key with
        | .error e => .error ("x509: invalid X25519 private key: " ++ e)
        | .ok k => if k.length != 32 then .error "crypto/ecdh: invalid private key size" else .ok .x25519
    else match MlDsa.ofOid oid with
      | some p => mlDsaKey p params key
      | none =>
        .error ("x509: PKCS#8 wrapping contained private key with unknown algorithm: " ++ Der.Oid.text oid)

/-- Reads a private key in the first layout it reads under. -/
def parse (der : Bytes) : Except String PrivateKey :=
  match pkcs1 der with
  | .ok (n, e) => .ok (.rsa n e)
  | .error _ =>
    match pkcs8 der with
    | .ok .x25519 => .error "tls: found unknown private key type in PKCS#8 wrapping"
    | .ok k => .ok k
    | .error e =>
      match ecKey none der with
      | .ok (c, k) => .ok (.ec c k)
      | .error _ => .error ("tls: failed to parse private key: " ++ e)

theorem bitLength_pow (k : Nat) : bitLength (Nat.pow 2 k) = k + 1 := by
  simp only [bitLength, Nat.pow_eq]
  have : (2 ^ k == 0) = false := by simp
  rw [this, if_neg (by simp), Nat.log2_two_pow]

end PrivateKey

end Crypto

end StaticHttp
