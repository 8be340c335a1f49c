import StaticHttp.Bytes.Basic

/-!
# Writing to a transport

A transport's write call takes bytes from the front of what it is handed, in part or in full,
and may report a failure with them. `writeAll` writes a byte string in full through any such
call, retrying short writes, and stops at the first call that reports a failure or takes
nothing.

`Sink` describes one kind of transport by its limits: at most `maxWrite` bytes per write, a
total after which every write fails with a message, and a total after which every write accepts
nothing.

Main statements:
* `writeAll_cons_took`: a call that takes bytes and reports nothing leaves the rest to write.
-/

namespace StaticHttp

namespace Transport

/-- Why a full write did not complete. -/
inductive WriteError where
  /-- The transport failed with this message. -/
  | failed (msg : String)
  /-- A write accepted nothing. -/
  | shortWrite
  deriving DecidableEq, Repr

/-- The text of a write failure. -/
def WriteError.message : WriteError → String
  | .failed msg => "write failed: " ++ msg
  | .shortWrite => "write failed: short write"

/-- One write call of a transport: handed bytes, it gives the transport after the call, the
number of bytes it took from their front, and the failure it reported with them, if any. -/
abbrev WriteCall (σ : Type) := σ → Bytes → σ × Nat × Option String

/-- Writes `b` in full through `write`, retrying short writes; a call that reports a failure or
takes nothing ends it. -/
def writeAll {σ : Type} (write : WriteCall σ) (s : σ) (b : Bytes) : σ × Option WriteError :=
  match b with
  | [] => (s, none)
  | c :: cs =>
    match write s (c :: cs) with
    | (s', _, some msg) => (s', some (.failed msg))
    | (s', 0, none) => (s', some .shortWrite)
    | (s', n + 1, none) => writeAll write s' ((c :: cs).drop (n + 1))
termination_by b.length
decreasing_by simp only [List.length_drop, List.length_cons]; omega

section WriteAllEquations

variable {σ : Type} {write : WriteCall σ} {s s' : σ} {c : Byte} {cs : Bytes}

@[simp] theorem writeAll_nil (write : WriteCall σ) (s : σ) : writeAll write s [] = (s, none) := by
  rw [writeAll]

theorem writeAll_cons_failed {n : Nat} {msg : String} (h : write s (c :: cs) = (s', n, some msg)) :
    writeAll write s (c :: cs) = (s', some (.failed msg)) := by
  rw [writeAll, h]

theorem writeAll_cons_short (h : write s (c :: cs) = (s', 0, none)) :
    writeAll write s (c :: cs) = (s', some .shortWrite) := by
  rw [writeAll, h]

theorem writeAll_cons_took {n : Nat} (h : write s (c :: cs) = (s', n + 1, none)) :
    writeAll write s (c :: cs) = writeAll write s' ((c :: cs).drop (n + 1)) := by
  rw [writeAll, h]

end WriteAllEquations

/-- A transport's write side: its limits, the bytes it has accepted and the number of write
calls made on it. -/
structure Sink where
  maxWrite : Nat := 0
  failAfter : Option (Nat × String) := none
  zeroAfter : Option Nat := none
  accepted : Bytes := []
  acceptedCount : Nat := 0
  calls : Nat := 0
  deriving Repr

namespace Sink

/-- The room left before a total of `limit`. -/
def roomBefore (total : Nat) : Option Nat → Nat → Nat
  | none, n => n
  | some limit, n => min n (limit - total)

/-- Accepts as much of `b` as the limits allow, or nothing once the zero total is reached. -/
def accept (s : Sink) (b : Bytes) : Sink × Except String Nat :=
  let total := s.acceptedCount
  if s.zeroAfter.any (· ≤ total) then (s, .ok 0)
  else
    let n := if s.maxWrite > 0 then min b.length s.maxWrite else b.length
    let n := roomBefore total (s.failAfter.map Prod.fst) n
    let n := roomBefore total s.zeroAfter n
    ({ s with accepted := s.accepted ++ b.take n, acceptedCount := total + n }, .ok n)

/-- One write call: the count accepted, or a failure once the failing total is reached. -/
def write (s : Sink) (b : Bytes) : Sink × Except String Nat :=
  let s := { s with calls := s.calls + 1 }
  match s.failAfter with
  | some (limit, msg) => if limit ≤ s.acceptedCount then (s, .error msg) else s.accept b
  | none => s.accept b

/-- One write call, as a transport's: a failure takes nothing. -/
def call (s : Sink) (b : Bytes) : Sink × Nat × Option String :=
  match s.write b with
  | (s', .error msg) => (s', 0, some msg)
  | (s', .ok n) => (s', n, none)

/-- Writes `b` in full, retrying short writes. -/
def writeAll (s : Sink) (b : Bytes) : Sink × Option WriteError := Transport.writeAll call s b

end Sink

end Transport

end StaticHttp
