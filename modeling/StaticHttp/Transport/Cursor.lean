import StaticHttp.Bytes.Basic

/-!
# The read window

A cursor pulls bytes from a transport through a window of 512 bytes. When the window is used
up and a byte is demanded, it issues exactly one read into its buffer. The transport reports
how many bytes it put there and may report an error with them. A read of no bytes ends the
stream; an error that comes with bytes waits until those bytes are consumed; a reported count
outside `0..512` breaks the stream. Whichever way the stream stops, the cursor keeps the reason
and gives it for every later demand, without reading again.

The transport is a script: the replies it gives in order, then one reply repeated forever.
The buffer keeps what earlier reads left in it, so a reply that claims more bytes than it
wrote shows the older bytes behind the new ones.

Main statements:
* `Cursor.peek_window`, `Cursor.next_window`: with bytes in the window, a peek shows the first
  and a next consumes it, without reading.
* `Cursor.fill_held`: a stopped cursor stays stopped and reads nothing.
-/

namespace StaticHttp

namespace Transport

/-- The size of the read window. -/
def windowSize : Nat := 512

/-- An error that a transport reports with a read: the end of the stream, or a failure with
its message. -/
inductive Fault where
  | endOfStream
  | failure (msg : String)
  deriving DecidableEq, Repr

/-- Why a cursor can give no more bytes. -/
inductive Stop where
  /-- The stream ended. -/
  | endOfStream
  /-- The transport failed with this message. -/
  | readFailed (msg : String)
  /-- The transport reported a byte count outside the window. -/
  | badCount (n : Int)
  deriving DecidableEq, Repr

namespace Stop

/-- The text of a stop. -/
def message : Stop → String
  | endOfStream => "EOF"
  | readFailed msg => "read failed: " ++ msg
  | badCount n => "invalid read count " ++ toString n

/-- The stop for a fault the transport reported. -/
def ofFault : Fault → Stop
  | .endOfStream => endOfStream
  | .failure msg => readFailed msg

end Stop

/-- One read as the transport reports it: the bytes it wrote into the buffer, the count it
claims and the error it gives with them. -/
structure Reply where
  written : Bytes
  count : Int
  fault : Option Fault := none
  deriving DecidableEq, Repr

namespace Reply

/-- A reply that delivers these bytes. -/
def ofBytes (d : Bytes) : Reply := ⟨d, d.length, none⟩

/-- A reply that writes nothing and reports a fault. -/
def ofFault (f : Fault) : Reply := ⟨[], 0, some f⟩

/-- The bytes a reply hands out: its count, when that is a valid one. -/
def delivers (r : Reply) : Nat :=
  if 0 ≤ r.count && r.count ≤ windowSize then r.count.toNat else 0

end Reply

/-- A transport's replies in order, then the reply it repeats once they are used up. -/
structure Script where
  replies : List Reply
  final : Reply
  deriving Repr

namespace Script

/-- The next reply and the script after it. -/
def next (s : Script) : Reply × Script :=
  match s.replies with
  | r :: rs => (r, { s with replies := rs })
  | [] => (s.final, s)

/-- Splits a byte string into pieces of at most a window each. -/
def pieces (d : Bytes) : List Bytes :=
  if d.length ≤ windowSize then [d]
  else d.take windowSize :: pieces (d.drop windowSize)
termination_by d.length
decreasing_by simp [windowSize] at *; omega

/-- A transport that hands out each of `chunks` in windows of at most 512 bytes, and then
gives `final` for ever. When `faultWithData` holds, the fault of `final` comes already with
the last piece of data. -/
def ofChunks (chunks : List Bytes) (final : Reply) (faultWithData : Bool) : Script :=
  let ps := chunks.flatMap pieces
  let replies := ps.map Reply.ofBytes
  if faultWithData then
    match replies.getLast? with
    | some last => ⟨replies.dropLast ++ [{ last with fault := final.fault }], final⟩
    | none => ⟨replies, final⟩
  else ⟨replies, final⟩

/-- An upper bound on the bytes the script hands out, when its final reply hands out none;
`extra` stands for the bytes of a final reply that keeps handing them out. -/
def budget (s : Script) (extra : Nat) : Nat :=
  (s.replies.map Reply.delivers).foldr (· + ·) 0 + (if s.final.delivers = 0 then 0 else extra)

/-- The bytes still queued in the replies not yet given. -/
def pending (s : Script) : Nat := (s.replies.map fun r => r.written.length).foldr (· + ·) 0

/-- Reads and discards up to `limit` bytes, as a reader does that goes on past empty reads
and stops at the first error or the end of the stream; `fuel` bounds the reads. Gives the
script after it and the bytes read. -/
def drain (s : Script) : Nat → Nat → Script × Nat
  | 0, _ => (s, 0)
  | _ + 1, 0 => (s, 0)
  | fuel + 1, limit + 1 =>
    match s.replies with
    | [] => (s, 0)
    | r :: rs =>
      if r.count < 0 || r.count > windowSize then ({ s with replies := rs }, 0)
      else
        let n := r.written.length
        if n > limit + 1 then
          ({ s with replies := { r with written := r.written.drop (limit + 1) } :: rs }, limit + 1)
        else if r.fault.isSome then ({ s with replies := rs }, n)
        else
          let (s', m) := drain { s with replies := rs } fuel (limit + 1 - n)
          (s', n + m)

end Script

/-- A cursor: the buffer, the unread bytes of the window, the reason it stopped if it did,
the transport, and the count of bytes the transport handed out. A read that reports bytes
without writing them leaves the old bytes of the buffer in the window, and hands out none. -/
structure Cursor where
  buffer : Bytes := List.replicate windowSize 0
  window : Bytes := []
  stopped : Option Stop := none
  script : Script
  delivered : Nat := 0
  deriving Repr

namespace Cursor

/-- A fresh cursor over a transport. -/
def ofScript (s : Script) : Cursor := { script := s }

/-- The unread bytes of the window. -/
def buffered (c : Cursor) : Nat := c.window.length

/-- Issues one read for an empty window. A stopped cursor gives its reason and reads
nothing. -/
def fill (c : Cursor) : Cursor × Option Stop :=
  match c.stopped with
  | some e => (c, some e)
  | none =>
    let (r, rest) := c.script.next
    if r.count < 0 || r.count > windowSize then
      let e := Stop.badCount r.count
      ({ c with script := rest, stopped := some e }, some e)
    else
      let n := r.count.toNat
      let buf := (r.written ++ c.buffer.drop r.written.length).take windowSize
      let c' := { c with script := rest, buffer := buf, window := buf.take n,
                         delivered := c.delivered + min n r.written.length }
      let held := r.fault.map Stop.ofFault
      if n = 0 then
        let e := held.getD Stop.endOfStream
        ({ c' with stopped := some e }, some e)
      else ({ c' with stopped := held }, none)

/-- The next byte, without consuming it. -/
def peek (c : Cursor) : Cursor × Except Stop Byte :=
  match c.window with
  | b :: _ => (c, .ok b)
  | [] =>
    match c.fill with
    | (c', some e) => (c', .error e)
    | (c', none) =>
      match c'.window with
      | b :: _ => (c', .ok b)
      | [] => (c', .error Stop.endOfStream)

/-- Consumes a byte that a peek has shown. -/
def advance (c : Cursor) : Cursor := { c with window := c.window.tail }

/-- The next byte, consumed. -/
def next (c : Cursor) : Cursor × Except Stop Byte :=
  match c.peek with
  | (c', .ok b) => (c'.advance, .ok b)
  | (c', .error e) => (c', .error e)

/-- An upper bound on the bytes this cursor can still give, with `extra` for a transport that
never stops. -/
def budget (c : Cursor) (extra : Nat) : Nat := c.window.length + c.script.budget extra

/-- A demand made of a cursor. -/
inductive Demand where
  | peek | next | buffered
  deriving DecidableEq, Repr

/-- What a demand gives: a byte, the reason the cursor stopped, or the count of buffered
bytes. -/
inductive Answer where
  | byte (b : Byte)
  | stop (s : Stop)
  | buffered (n : Nat)
  deriving DecidableEq, Repr

/-- Answers one demand. -/
def answer (c : Cursor) : Demand → Cursor × Answer
  | .peek => match c.peek with
    | (c', .ok b) => (c', .byte b)
    | (c', .error e) => (c', .stop e)
  | .next => match c.next with
    | (c', .ok b) => (c', .byte b)
    | (c', .error e) => (c', .stop e)
  | .buffered => (c, .buffered c.buffered)

/-- Answers demands in turn. -/
def answerAll (c : Cursor) : List Demand → List Answer
  | [] => []
  | d :: ds => match c.answer d with
    | (c', a) => a :: answerAll c' ds

theorem peek_window (c : Cursor) (b : Byte) (rest : Bytes) (h : c.window = b :: rest) :
    c.peek = (c, .ok b) := by
  simp [peek, h]

theorem next_window (c : Cursor) (b : Byte) (rest : Bytes) (h : c.window = b :: rest) :
    c.next = ({ c with window := rest }, .ok b) := by
  simp [next, peek, h, advance]

theorem fill_held (c : Cursor) (e : Stop) (h : c.stopped = some e) : c.fill = (c, some e) := by
  simp [fill, h]

end Cursor

end Transport

end StaticHttp
