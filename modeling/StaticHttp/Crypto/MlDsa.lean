import StaticHttp.Crypto.Keccak

/-!
# ML-DSA public keys

An ML-DSA key pair is made from a 32-byte seed, and a certificate's key matches a private key
when it is the public key that seed makes. The three parameter sets differ in the shape of the
public matrix, `k` rows by `l` columns, and in the bound `η` of the secret coefficients.

Polynomials have 256 coefficients modulo `q = 8380417`. The seed and the shape are hashed with
SHAKE256 into a public seed `ρ` and a secret seed `ρ'`. The matrix `Â` is sampled, already in
the number-theoretic-transform domain, from SHAKE128 of `ρ` and each entry's column and row,
keeping the 23-bit numbers below `q`; the secret vectors `s₁` and `s₂` come from SHAKE256 of
`ρ'` and a two-byte counter, keeping the half-bytes that stand for values within `η`. Then
`t = A s₁ + s₂`, computed through the transform, is rounded to its high bits `t₁ = ⌈t / 2¹³⌋`
and the public key is `ρ` followed by each coefficient of `t₁` in ten bits, least significant
first.

The transform is the one of FIPS 204: `ζ = 1753`, a primitive 512th root of unity modulo `q`,
taken at bit-reversed powers, eight layers of butterflies forward and eight back, the inverse
scaled by `256⁻¹ = 8347681`.
-/

namespace StaticHttp

namespace Crypto

/-- The parameter sets of ML-DSA. -/
inductive MlDsa where
  | mlDsa44
  | mlDsa65
  | mlDsa87
  deriving DecidableEq, Repr

namespace MlDsa

/-- The modulus of the coefficients. -/
def q : Nat := 8380417

/-- The rows `k` of the public matrix. -/
def rows : MlDsa → Nat
  | .mlDsa44 => 4
  | .mlDsa65 => 6
  | .mlDsa87 => 8

/-- The columns `l` of the public matrix. -/
def columns : MlDsa → Nat
  | .mlDsa44 => 4
  | .mlDsa65 => 5
  | .mlDsa87 => 7

/-- The bound `η` of the secret coefficients. -/
def eta : MlDsa → Nat
  | .mlDsa44 => 2
  | .mlDsa65 => 4
  | .mlDsa87 => 2

/-- The identifier of a parameter set. -/
def oid : MlDsa → List Nat
  | .mlDsa44 => [2, 16, 840, 1, 101, 3, 4, 3, 17]
  | .mlDsa65 => [2, 16, 840, 1, 101, 3, 4, 3, 18]
  | .mlDsa87 => [2, 16, 840, 1, 101, 3, 4, 3, 19]

/-- The parameter set an identifier names, if any. -/
def ofOid (o : List Nat) : Option MlDsa := [mlDsa44, mlDsa65, mlDsa87].find? (·.oid == o)

/-- The size of a public key: `ρ` and ten bits for each coefficient of `t₁`. -/
def publicKeySize (p : MlDsa) : Nat := 32 + 320 * p.rows

/-- A polynomial: its 256 coefficients, each below `q`. -/
abbrev Poly := Array Nat

/-- A coefficient of a polynomial. -/
def coeff (f : Poly) (i : Nat) : Nat := f.getD i 0

/-- A polynomial made coefficient by coefficient. -/
def build (f : Nat → Nat) : Poly := ((List.range 256).map f).toArray

/-- A number's eight low bits in reverse order. -/
def bitReverse (k : Nat) : Nat := (List.range 8).foldl (fun acc i => acc * 2 + k / Nat.pow 2 i % 2) 0

/-- The first powers of a number modulo `q`, from a start. -/
def powers (z : Nat) : Nat → Nat → List Nat
  | 0, _ => []
  | n + 1, acc => acc :: powers z n (acc * z % q)

/-- `ζ` to the bit-reversed power of each index. -/
def zetas : Array Nat :=
  let pw := (powers 1753 256 1).toArray
  ((List.range 256).map fun k => pw.getD (bitReverse k) 0).toArray

/-- A layer of the forward transform, with half-blocks of `128 / 2 ^ l` coefficients. -/
def forwardLayer (w : Poly) (l : Nat) : Poly :=
  let len := 128 / Nat.pow 2 l
  build fun j =>
    let z := zetas.getD (Nat.pow 2 l + j / (2 * len)) 0
    if j % (2 * len) < len then (coeff w j + z * coeff w (j + len)) % q
    else (coeff w (j - len) + q - z * coeff w j % q) % q

/-- The forward transform. -/
def ntt (w : Poly) : Poly := (List.range 8).foldl forwardLayer w

/-- A layer of the inverse transform, with half-blocks of `2 ^ l` coefficients. -/
def inverseLayer (w : Poly) (l : Nat) : Poly :=
  let len := Nat.pow 2 l
  build fun j =>
    let z := q - zetas.getD (256 / len - 1 - j / (2 * len)) 0
    if j % (2 * len) < len then (coeff w j + coeff w (j + len)) % q
    else z * ((coeff w (j - len) + q - coeff w j) % q) % q

/-- The inverse transform, scaled by `256⁻¹`. -/
def inverseNtt (w : Poly) : Poly :=
  let w := (List.range 8).foldl inverseLayer w
  build fun j => coeff w j * 8347681 % q

/-- The coefficients of the 23-bit numbers below `q` in three-byte groups. -/
def uniformCoefficients : Bytes → List Nat
  | b0 :: b1 :: b2 :: rest =>
    let z := b0.toNat + 256 * b1.toNat + 65536 * (b2.toNat % 128)
    if z < q then z :: uniformCoefficients rest else uniformCoefficients rest
  | _ => []

/-- The value of a half-byte as a coefficient within `η`, if it stands for one. -/
def halfByte (eta b : Nat) : Option Nat :=
  if eta == 2 then (if b < 15 then some ((q + 2 - b % 5) % q) else none)
  else if b < 9 then some ((q + 4 - b) % q) else none

/-- The coefficients within `η` of the half-bytes of some bytes, low half first. -/
def boundedCoefficients (eta : Nat) : Bytes → List Nat
  | [] => []
  | z :: rest =>
    (halfByte eta (z.toNat % 16)).toList ++ (halfByte eta (z.toNat / 16)).toList ++
      boundedCoefficients eta rest

/-- The first polynomial whose coefficients a stream gives in full, trying longer streams in
turn. -/
def fullFrom (coefficients : Nat → List Nat) : List Nat → Poly
  | [] => build fun _ => 0
  | n :: more =>
    let cs := coefficients n
    if cs.length ≥ 256 then (cs.take 256).toArray else fullFrom coefficients more

/-- An entry of the public matrix, in the transform domain, from `ρ` and its column and row. -/
def matrixEntry (rho : Bytes) (row column : Nat) : Poly :=
  fullFrom (fun n => uniformCoefficients (Keccak.shake128 (rho ++ [column.toUInt8, row.toUInt8]) (168 * n)))
    [5, 10, 40]

/-- A secret polynomial from `ρ'` and its counter. -/
def secretEntry (eta : Nat) (rho' : Bytes) (counter : Nat) : Poly :=
  fullFrom
    (fun n => boundedCoefficients eta
      (Keccak.shake256 (rho' ++ [(counter % 256).toUInt8, (counter / 256).toUInt8]) (136 * n)))
    [2, 4, 16]

/-- The high bits of a coefficient, rounded at `2 ^ 13`. -/
def highBits (t : Nat) : Nat := t / 8192 + (if t % 8192 > 4096 then 1 else 0)

/-- Four ten-bit numbers in five bytes, least significant first. -/
def packFour (cs : List Nat) : Bytes :=
  let v := cs.foldr (fun c acc => acc * 1024 + c) 0
  (List.range 5).map fun i => (v / Nat.pow 256 i % 256).toUInt8

/-- The coefficients of a polynomial in ten bits each. -/
def pack (f : Poly) : Bytes :=
  (List.range 64).flatMap fun i => packFour ((List.range 4).map fun j => coeff f (4 * i + j))

/-- The public key a seed makes under a parameter set. -/
def publicKey (p : MlDsa) (seed : Bytes) : Bytes :=
  let expanded := Keccak.shake256 (seed ++ [p.rows.toUInt8, p.columns.toUInt8]) 128
  let rho := expanded.take 32
  let rho' := (expanded.drop 32).take 64
  let s1 := (List.range p.columns).map fun r => ntt (secretEntry p.eta rho' r)
  let s2 := (List.range p.rows).map fun r => secretEntry p.eta rho' (p.columns + r)
  let row (r : Nat) : Poly :=
    let products := (List.range p.columns).zip s1 |>.map fun (c, s) =>
      let a := matrixEntry rho r c
      build fun j => coeff a j * coeff s j % q
    let sum := build fun j => products.foldl (fun acc f => (acc + coeff f j) % q) 0
    let t := inverseNtt sum
    let e := s2.getD r (build fun _ => 0)
    build fun j => highBits ((coeff t j + coeff e j) % q)
  rho ++ (List.range p.rows).flatMap fun r => pack (row r)

end MlDsa

end Crypto

end StaticHttp
