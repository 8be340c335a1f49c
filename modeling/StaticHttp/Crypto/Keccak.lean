import StaticHttp.Bytes.Basic

/-!
# SHAKE

The extendable-output functions SHAKE128 and SHAKE256 of the Keccak sponge. The state is
twenty-five 64-bit lanes, lane `x + 5 y` at column `x` and row `y`, and the permutation is
twenty-four rounds of five steps: each lane takes the parity of two neighbouring columns
(θ), lanes are rotated and moved (ρ and π), each row is mixed nonlinearly (χ), and a round
constant enters the first lane (ι).

A message is padded with the suffix bits `1111` and the sponge padding `10*1` to a multiple of
the rate, 168 bytes for SHAKE128 and 136 for SHAKE256, and absorbed block by block, each block
xored into the leading lanes as little-endian words before a permutation. The output is read
from the leading lanes, a permutation between each rate's worth.

Main statements:
* `Keccak.padded_whole`: padding gives whole blocks.
* `Keccak.rotl_zero`: rotating by nothing leaves a lane as it is.
-/

namespace StaticHttp

namespace Crypto

namespace Keccak

/-- The round constants. -/
def roundConstants : Array UInt64 := #[
  0x0000000000000001, 0x0000000000008082, 0x800000000000808A, 0x8000000080008000,
  0x000000000000808B, 0x0000000080000001, 0x8000000080008081, 0x8000000000008009,
  0x000000000000008A, 0x0000000000000088, 0x0000000080008009, 0x000000008000000A,
  0x000000008000808B, 0x800000000000008B, 0x8000000000008089, 0x8000000000008003,
  0x8000000000008002, 0x8000000000000080, 0x000000000000800A, 0x800000008000000A,
  0x8000000080008081, 0x8000000000008080, 0x0000000080000001, 0x8000000080008008]

/-- The rotation of each lane in the ρ step, by lane index. -/
def rotations : Array UInt64 := #[
  0, 1, 62, 28, 27,
  36, 44, 6, 55, 20,
  3, 10, 43, 25, 39,
  41, 45, 15, 21, 8,
  18, 2, 61, 56, 14]

/-- A state of the sponge: the lanes by index `x + 5 y`. -/
abbrev State := Array UInt64

/-- The state of all zero lanes. -/
def zero : State := (List.replicate 25 (0 : UInt64)).toArray

/-- A lane of a state. -/
def lane (s : State) (i : Nat) : UInt64 := s.getD i 0

/-- Rotates a lane left. -/
def rotl (x n : UInt64) : UInt64 := if n == 0 then x else (x <<< n) ||| (x >>> (64 - n))

/-- A state made lane by lane. -/
def build (f : Nat → UInt64) : State := ((List.range 25).map f).toArray

/-- θ: each lane takes the parities of the column to its left and of the column to its right
rotated by one. -/
def theta (s : State) : State :=
  let column (x : Nat) :=
    lane s x ^^^ lane s (x + 5) ^^^ lane s (x + 10) ^^^ lane s (x + 15) ^^^ lane s (x + 20)
  let c := ((List.range 5).map column).toArray
  build fun i => lane s i ^^^ c.getD ((i + 4) % 5) 0 ^^^ rotl (c.getD ((i + 1) % 5) 0) 1

/-- ρ and π: the lane at column `x` and row `y` is rotated and moved to column `y` and row
`2 x + 3 y`; so the lane that lands at column `x'` and row `y'` comes from column `x' + 3 y'`
and row `x'`. -/
def rhoPi (s : State) : State :=
  build fun i =>
    let x' := i % 5
    let y' := i / 5
    let src := (x' + 3 * y') % 5 + 5 * x'
    rotl (lane s src) (rotations.getD src 0)

/-- χ: each lane is mixed with the next two of its row. -/
def chi (s : State) : State :=
  build fun i =>
    let x := i % 5
    let row := i - x
    lane s i ^^^ (~~~(lane s (row + (x + 1) % 5)) &&& lane s (row + (x + 2) % 5))

/-- One round with its constant. -/
def round (s : State) (rc : UInt64) : State :=
  let s := chi (rhoPi (theta s))
  s.modify 0 (· ^^^ rc)

/-- The permutation: the twenty-four rounds. -/
def permute (s : State) : State :=
  roundConstants.foldl round s

/-- The little-endian word of up to eight bytes. -/
def word (b : Bytes) : UInt64 := b.foldr (fun x acc => (acc <<< 8) ||| x.toUInt64) 0

/-- The eight little-endian bytes of a word. -/
def wordBytes (w : UInt64) : Bytes := (List.range 8).map fun i => (w >>> (8 * i).toUInt64).toUInt8

/-- A message with its SHAKE suffix and padding, a whole number of blocks of the rate. -/
def padded (rate : Nat) (msg : Bytes) : Bytes :=
  let room := rate - msg.length % rate
  if room == 1 then msg ++ [0x9F]
  else msg ++ [0x1F] ++ List.replicate (room - 2) 0 ++ [0x80]

/-- Xors a block into the leading lanes and permutes. -/
def absorbBlock (s : State) (block : Bytes) : State :=
  let words := ((List.range 25).map fun i => word ((block.drop (8 * i)).take 8)).toArray
  permute (build fun i => lane s i ^^^ words.getD i 0)

/-- Absorbs padded bytes block by block. -/
def absorb (rate : Nat) : Nat → State → Bytes → State
  | 0, s, _ => s
  | fuel + 1, s, rest =>
    if rest.isEmpty then s else absorb rate fuel (absorbBlock s (rest.take rate)) (rest.drop rate)

/-- The bytes of a state's leading lanes, a rate's worth. -/
def leading (rate : Nat) (s : State) : Bytes :=
  ((List.range (rate / 8)).flatMap fun i => wordBytes (lane s i))

/-- Squeezes a number of rates' worth of output. -/
def squeeze (rate : Nat) : Nat → State → Bytes
  | 0, _ => []
  | n + 1, s => leading rate s ++ (if n == 0 then [] else squeeze rate n (permute s))

/-- The sponge of a rate: the first bytes of its output for a message. -/
def sponge (rate : Nat) (msg : Bytes) (outLength : Nat) : Bytes :=
  let p := padded rate msg
  let s := absorb rate (p.length / rate + 1) zero p
  (squeeze rate (outLength / rate + 1) s).take outLength

/-- SHAKE128 of a message, to a given length. -/
def shake128 (msg : Bytes) (outLength : Nat) : Bytes := sponge 168 msg outLength

/-- SHAKE256 of a message, to a given length. -/
def shake256 (msg : Bytes) (outLength : Nat) : Bytes := sponge 136 msg outLength

theorem padded_whole (msg : Bytes) : (padded 136 msg).length % 136 = 0 := by
  unfold padded
  dsimp only
  split
  · next h => simp at h ⊢; omega
  · next h => simp at h ⊢; omega

theorem rotl_zero (x : UInt64) : rotl x 0 = x := by simp [rotl]

end Keccak

end Crypto

end StaticHttp
