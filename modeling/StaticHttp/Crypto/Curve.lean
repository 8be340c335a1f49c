import StaticHttp.Crypto.Der

/-!
# Prime curves

The four NIST prime curves `y² = x³ - 3x + b` over the integers modulo a prime `p`, each with a
base point `G` of prime order `n`. An elliptic-curve private key is a number `k` below `n`, and
its public key is the point `k · G`, computed here by doubling and adding in Jacobian
coordinates, where a point `(X, Y, Z)` stands for `(X / Z², Y / Z³)` and `Z = 0` for the point
at infinity. The point at infinity is given back as `(0, 0)`, which lies on no curve.

A public key is written as the byte `04` followed by both coordinates, each as many bytes as
the prime takes and below it; it must name a point of the curve. Each way of failing has its
own message, naming the curve.
-/

namespace StaticHttp

namespace Crypto

/-- A prime curve `y² = x³ - 3x + b` modulo `p` with its base point and the base point's
order, and its identifier. `size` is the number of bytes a coordinate takes. -/
structure Curve where
  oid : List Nat
  p : Nat
  b : Nat
  n : Nat
  gx : Nat
  gy : Nat
  size : Nat
  deriving DecidableEq, Repr

namespace Curve

/-- P-224. -/
def p224 : Curve :=
  ⟨[1, 3, 132, 0, 33], Nat.pow 2 224 - Nat.pow 2 96 + 1,
    0xb4050a850c04b3abf54132565044b0b7d7bfd8ba270b39432355ffb4,
    0xffffffffffffffffffffffffffff16a2e0b8f03e13dd29455c5c2a3d,
    0xb70e0cbd6bb4bf7f321390b94a03c1d356c21122343280d6115c1d21,
    0xbd376388b5f723fb4c22dfe6cd4375a05a07476444d5819985007e34, 28⟩

/-- P-256. -/
def p256 : Curve :=
  ⟨[1, 2, 840, 10045, 3, 1, 7], 0xffffffff00000001000000000000000000000000ffffffffffffffffffffffff,
    0x5ac635d8aa3a93e7b3ebbd55769886bc651d06b0cc53b0f63bce3c3e27d2604b,
    0xffffffff00000000ffffffffffffffffbce6faada7179e84f3b9cac2fc632551,
    0x6b17d1f2e12c4247f8bce6e563a440f277037d812deb33a0f4a13945d898c296,
    0x4fe342e2fe1a7f9b8ee7eb4a7c0f9e162bce33576b315ececbb6406837bf51f5, 32⟩

/-- P-384. -/
def p384 : Curve :=
  ⟨[1, 3, 132, 0, 34], Nat.pow 2 384 - Nat.pow 2 128 - Nat.pow 2 96 + Nat.pow 2 32 - 1,
    0xb3312fa7e23ee7e4988e056be3f82d19181d9c6efe8141120314088f5013875ac656398d8a2ed19d2a85c8edd3ec2aef,
    0xffffffffffffffffffffffffffffffffffffffffffffffffc7634d81f4372ddf581a0db248b0a77aecec196accc52973,
    0xaa87ca22be8b05378eb1c71ef320ad746e1d3b628ba79b9859f741e082542a385502f25dbf55296c3a545e3872760ab7,
    0x3617de4a96262c6f5d9e98bf9292dc29f8f41dbd289a147ce9da3113b5f0b8c00a60b1ce1d7e819d7a431d7c90ea0e5f, 48⟩

/-- P-521. -/
def p521 : Curve :=
  ⟨[1, 3, 132, 0, 35], Nat.pow 2 521 - 1,
    0x0051953eb9618e1c9a1f929a21a0b68540eea2da725b99b315f3b8b489918ef109e156193951ec7e937b1652c0bd3bb1bf073573df883d2c34f1ef451fd46b503f00,
    0x1fffffffffffffffffffffffffffffffffffffffffffffffffffffffffffffffffa51868783bf2f966b7fcc0148f709a5d03bb5c9b8899c47aebb6fb71e91386409,
    0x00c6858e06b70404e9cd9e3ecb662395b4429c648139053fb521f828af606b4d3dbaa14b5e77efe75928fe1dc127a2ffa8de3348b3c1856a429bf97e7e31c2e5bd66,
    0x011839296a789a3bc0045c8a5fb42c7d1bd998f54449579b446817afbd17273e662c97ee72995ef42640c550b9013fad0761353c7086a272c24088be94769fd16650, 66⟩

/-- The curve an identifier names. -/
def ofOid (oid : List Nat) : Option Curve := [p224, p256, p384, p521].find? (·.oid == oid)

/-- `b ^ e` modulo `m`, by squaring; `fuel` bounds the number of bits of `e`. -/
def powModAux (m : Nat) : Nat → Nat → Nat → Nat → Nat
  | 0, _, _, acc => acc
  | fuel + 1, b, e, acc =>
    if e == 0 then acc
    else powModAux m fuel (b * b % m) (e / 2) (if e % 2 == 1 then acc * b % m else acc)

/-- `b ^ e` modulo `m`. -/
def powMod (m b e : Nat) : Nat := powModAux m (Nat.log2 e + 1) (b % m) e (1 % m)

/-- The bits of a number, most significant first. -/
def bits (k : Nat) : List Bool :=
  let rec low : Nat → Nat → List Bool
    | 0, _ => []
    | fuel + 1, k => if k == 0 then [] else (k % 2 == 1) :: low fuel (k / 2)
  (low (Nat.log2 k + 1) k).reverse

/-- A point in Jacobian coordinates. -/
structure Jacobian where
  x : Nat
  y : Nat
  z : Nat
  deriving DecidableEq, Repr

/-- The point at infinity. -/
def infinity : Jacobian := ⟨0, 1, 0⟩

variable (c : Curve)

/-- The difference of two residues modulo the curve's prime. -/
def sub (a b : Nat) : Nat := (a % c.p + c.p - b % c.p) % c.p

/-- Doubles a point. -/
def double (q : Jacobian) : Jacobian :=
  if q.z == 0 || q.y == 0 then infinity
  else
    let p := c.p
    let delta := q.z * q.z % p
    let gamma := q.y * q.y % p
    let beta := q.x * gamma % p
    let alpha := 3 * c.sub q.x delta * ((q.x + delta) % p) % p
    let x3 := c.sub (alpha * alpha % p) (8 * beta % p)
    let z3 := c.sub (c.sub ((q.y + q.z) * (q.y + q.z) % p) gamma) delta
    let y3 := c.sub (alpha * c.sub (4 * beta % p) x3 % p) (8 * (gamma * gamma % p) % p)
    ⟨x3, y3, z3⟩

/-- Adds two points. -/
def add (q r : Jacobian) : Jacobian :=
  if q.z == 0 then r
  else if r.z == 0 then q
  else
    let p := c.p
    let z1z1 := q.z * q.z % p
    let z2z2 := r.z * r.z % p
    let u1 := q.x * z2z2 % p
    let u2 := r.x * z1z1 % p
    let s1 := q.y * r.z % p * z2z2 % p
    let s2 := r.y * q.z % p * z1z1 % p
    if u1 == u2 then (if s1 == s2 then c.double q else infinity)
    else
      let h := c.sub u2 u1
      let rr := c.sub s2 s1
      let h2 := h * h % p
      let h3 := h * h2 % p
      let x3 := c.sub (c.sub (rr * rr % p) h3) (2 * u1 % p * h2 % p)
      let y3 := c.sub (rr * c.sub (u1 * h2 % p) x3 % p) (s1 * h3 % p)
      let z3 := h * q.z % p * r.z % p
      ⟨x3, y3, z3⟩

/-- The affine coordinates of a point, `(0, 0)` for the point at infinity. -/
def affine (q : Jacobian) : Nat × Nat :=
  if q.z == 0 then (0, 0)
  else
    let zi := powMod c.p q.z (c.p - 2)
    let zi2 := zi * zi % c.p
    (q.x * zi2 % c.p, q.y * (zi2 * zi % c.p) % c.p)

/-- The point `k · G`. -/
def scalarBase (k : Nat) : Nat × Nat :=
  let g : Jacobian := ⟨c.gx, c.gy, 1⟩
  c.affine ((bits k).foldl (fun acc bit => let d := c.double acc; if bit then c.add d g else d) infinity)

/-- Whether a point lies on the curve. -/
def onCurve (x y : Nat) : Bool :=
  x < c.p && y < c.p &&
    (y * y) % c.p == (x * x % c.p * x + c.sub (c.b) (3 * x % c.p)) % c.p

/-- The name of a curve in the messages about its points. -/
def name : String :=
  if c.size == 28 then "P224" else if c.size == 32 then "P256" else if c.size == 48 then "P384" else "P521"

/-- The message for a coordinate that is not below the prime: P-256 words it apart from the
others. -/
def elementMessage : String :=
  if c.size == 32 then "invalid P256 element encoding" else "invalid " ++ c.name ++ "Element encoding"

/-- The point an uncompressed public key names: the byte `04`, then both coordinates in full,
each below the prime, on the curve. -/
def unmarshal (data : Bytes) : Except String (Nat × Nat) :=
  match data with
  | 4 :: rest =>
    if rest.length != 2 * c.size then .error ("invalid " ++ c.name ++ " point encoding")
    else
      let x := Der.bigEndian (rest.take c.size)
      let y := Der.bigEndian (rest.drop c.size)
      if x ≥ c.p || y ≥ c.p then .error c.elementMessage
      else if c.onCurve x y then .ok (x, y)
      else .error (c.name ++ " point not on curve")
  | _ => .error "ecdsa: invalid uncompressed public key"

end Curve

end Crypto

end StaticHttp
