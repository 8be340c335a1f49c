import StaticHttp.Crypto.Curve
import StaticHttp.Crypto.Sha512

/-!
# Ed25519 public keys

An Ed25519 private key is a 32-byte seed. Its public key is the point `a · B` of the twisted
Edwards curve `-x² + y² = 1 + d x² y²` modulo `2 ^ 255 - 19`, where `B` is the base point and
`a` is read from the first half of the seed's SHA-512 hash: little-endian, with its three lowest
bits and its highest bit cleared and the bit below the highest set. The point is written as `y`
in 32 little-endian bytes, the top bit holding the parity of `x`.

Points are added in extended coordinates `(X, Y, Z, T)`, standing for `(X / Z, Y / Z)` with
`X Y = T Z`; the addition used is complete on this curve, so it also doubles.

Main statements:
* `Edwards.clamp_low`: a clamped scalar is a multiple of eight.
-/

namespace StaticHttp

namespace Crypto

namespace Edwards

/-- The prime of the field. -/
def prime : Nat := Nat.pow 2 255 - 19

/-- The curve constant `d = -121665 / 121666`. -/
def d : Nat := 37095705934669439343138083508754565189542113879843219016388785533085940283555

/-- A point in extended coordinates. -/
structure Point where
  x : Nat
  y : Nat
  z : Nat
  t : Nat
  deriving DecidableEq, Repr

/-- The neutral point. -/
def zero : Point := ⟨0, 1, 1, 0⟩

/-- The base point. -/
def base : Point :=
  let x := 15112221349535400772501151409588531511454012693041857206046113283949847762202
  let y := 46316835694926478169428394003475163141307993866256225615783033603165251855960
  ⟨x, y, 1, x * y % prime⟩

/-- The difference of two residues. -/
def sub (a b : Nat) : Nat := (a % prime + prime - b % prime) % prime

/-- Adds two points. -/
def add (q r : Point) : Point :=
  let p := prime
  let a := sub q.y q.x * sub r.y r.x % p
  let b := (q.y + q.x) * (r.y + r.x) % p
  let c := q.t * (2 * d % p) % p * r.t % p
  let dd := q.z * 2 * r.z % p
  let e := sub b a
  let f := sub dd c
  let g := (dd + c) % p
  let h := (b + a) % p
  ⟨e * f % p, g * h % p, f * g % p, e * h % p⟩

/-- The point `k · q`, doubling and adding over the bits of `k`. -/
def scale (k : Nat) (q : Point) : Point :=
  (Curve.bits k).foldl (fun acc bit => let dbl := add acc acc; if bit then add dbl q else dbl) zero

/-- The little-endian number of some bytes. -/
def littleEndian (b : Bytes) : Nat := b.foldr (fun x acc => acc * 256 + x.toNat) 0

/-- Clears the three lowest bits and the highest bit of a 256-bit number and sets the bit below
the highest. -/
def clamp (a : Nat) : Nat := (a % Nat.pow 2 254) / 8 * 8 + Nat.pow 2 254

/-- The 32-byte encoding of a point. -/
def encode (q : Point) : Bytes :=
  let zi := Curve.powMod prime q.z (prime - 2)
  let x := q.x * zi % prime
  let y := q.y * zi % prime
  let n := y + (x % 2) * Nat.pow 2 255
  (List.range 32).map fun i => (n / Nat.pow 256 i % 256).toUInt8

/-- The public key of a seed. -/
def publicKey (seed : Bytes) : Bytes :=
  let h := Sha512.hash seed
  encode (scale (clamp (littleEndian (h.take 32))) base)

theorem clamp_low (a : Nat) : clamp a % 8 = 0 := by
  simp only [clamp, Nat.pow_eq]
  omega

end Edwards

end Crypto

end StaticHttp
