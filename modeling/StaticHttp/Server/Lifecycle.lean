import StaticHttp.Server.Listen

/-!
# Serving and shutting down, goroutine by goroutine

`Serve` runs one accept loop, hands each connection it accepts to a goroutine of its own
(`handleConn`), and `Shutdown` stops it all. They share the server's mutex, its `closed` flag,
its `done` channel, the listener it registered, and a wait group that counts the connections
handed off. Here each goroutine is a process and each of its atomic steps is one event: a
critical section under the mutex, one load of `closed`, one operation of the wait group or of
a channel, the return of one call to Accept, and the steps of a handler that close or answer
its connection. A run is the events of all goroutines in one interleaving.

* `Serve` first registers its listener under the mutex, or, if the server is already closed,
  closes it and returns `ErrServerClosed`. It then accepts. After a failed Accept it returns
  `ErrServerClosed` if the server is closed, `listener closed` if the listener was closed
  under it, and otherwise waits before the next Accept, until a timer fires or `done` is
  closed. After a successful Accept it takes the mutex: if the server is closed it closes the
  connection and returns `ErrServerClosed`; otherwise it adds one to the wait group and hands
  the connection off.
* A handler answers its connection's request, unless its TLS handshake fails, closes the
  connection, and then marks itself done in the wait group.
* `Shutdown` runs its critical section once: it sets `closed`, closes `done`, and closes the
  registered listener. It then returns nil when the wait group's count is zero, or an error
  when its context is done first.

Accept may return anything at any time: a connection, the error of a closed listener, or
another error.
-/

namespace StaticHttp

namespace Server

/-- What one call of Accept returned. -/
inductive Accepted where
  /-- A connection. -/
  | conn
  /-- The error of a listener that was closed. -/
  | closedListener
  /-- Any other error. -/
  | failure
  deriving DecidableEq, Repr

/-- How `Serve` returned: `ErrServerClosed`, or `listener closed: …` when the listener was
closed under a server that was not shut down. -/
inductive ServeEnd where
  | serverClosed
  | listenerClosed
  deriving DecidableEq, Repr

/-- Where the accept loop of `Serve` is. -/
inductive Loop where
  /-- Called, before its first critical section. -/
  | starting
  /-- In Accept. -/
  | accepting
  /-- Accept gave connection `k`, which it holds before its critical section. -/
  | holding (k : Nat)
  /-- Accept failed; `listenerGone` for the error of a closed listener. -/
  | failed (listenerGone : Bool)
  /-- Waiting before the next Accept. -/
  | retrying
  /-- Returned. -/
  | ended (r : ServeEnd)
  deriving DecidableEq, Repr

/-- What became of an accepted connection. -/
inductive Phase where
  /-- `Serve` holds it, before its critical section. -/
  | held
  /-- `Serve` closed it unserved, the server being closed. -/
  | refused
  /-- It was handed to its handler. -/
  | running
  /-- Its handler answered its request. -/
  | answered
  /-- Its handler closed it. -/
  | shut
  /-- Its handler is done. -/
  | finished
  deriving DecidableEq, Repr

namespace Phase

/-- The connection was handed to a handler. -/
def handed : Phase → Bool
  | .held | .refused => false
  | _ => true

/-- The connection's handler has not marked itself done: the wait group counts it. -/
def active : Phase → Bool
  | .running | .answered | .shut => true
  | _ => false

/-- The connection was closed. -/
def isClosed : Phase → Bool
  | .refused | .shut | .finished => true
  | _ => false

end Phase

/-- Where the call of `Shutdown` is. -/
inductive Stop where
  /-- Not called yet. -/
  | notCalled
  /-- Past its critical section, waiting for the connections. -/
  | waiting
  /-- Returned: nil when `idle`, otherwise the error that connections are still open. -/
  | returned (idle : Bool)
  deriving DecidableEq, Repr

/-- An atomic step of one goroutine. -/
inductive Event where
  /-- `Serve`'s first critical section. -/
  | start
  /-- Accept returns. -/
  | accept (a : Accepted)
  /-- `Serve`'s step after Accept returned: its load of `closed` after a failure, its critical
  section after a connection. -/
  | react
  /-- The wait before the next Accept ends: by its timer, or, `byDone`, as `done` is closed. -/
  | wake (byDone : Bool)
  /-- The handler of connection `k` answers its request. -/
  | answer (k : Nat)
  /-- The TLS handshake of connection `k` fails, and its handler closes it. -/
  | abort (k : Nat)
  /-- The handler of connection `k` closes it after answering. -/
  | close (k : Nat)
  /-- The handler of connection `k` marks itself done in the wait group. -/
  | finish (k : Nat)
  /-- `Shutdown`'s critical section, run once. -/
  | shutdown
  /-- The wait group's wait returns, and `Shutdown` returns nil. -/
  | idle
  /-- `Shutdown`'s context is done first. -/
  | expire
  deriving DecidableEq, Repr

/-- The shared state of a server, with where each goroutine is: the `closed` flag, whether
`done` is closed, whether `Serve` registered its listener and whether that listener is open,
the wait group's count, the accept loop, each accepted connection in the order of acceptance,
the connections closed in the order they were closed, the call of `Shutdown`, and how many
calls of Accept returned. -/
structure Lifecycle where
  closed : Bool := false
  done : Bool := false
  registered : Bool := false
  listening : Bool := true
  conns : Nat := 0
  loop : Loop := .starting
  phases : List Phase := []
  closes : List Nat := []
  stop : Stop := .notCalled
  accepts : Nat := 0

namespace Lifecycle

/-- The handler of connection `k` moves it from phase `p` to phase `q`, closing it when
`closesIt` and marking itself done in the wait group when `marksDone`, if the connection is at
`p`; otherwise it cannot take the step. -/
def handle (s : Lifecycle) (k : Nat) (p q : Phase) (closesIt marksDone : Bool) : Lifecycle :=
  if s.phases[k]? = some p then
    { s with
      phases := s.phases.set k q
      closes := if closesIt then s.closes ++ [k] else s.closes
      conns := if marksDone then s.conns - 1 else s.conns }
  else s

section Handle

variable {s : Lifecycle} {k : Nat} {p q : Phase} {closesIt marksDone : Bool}

theorem handle_phases : (s.handle k p q closesIt marksDone).phases =
    if s.phases[k]? = some p then s.phases.set k q else s.phases := by
  unfold handle
  split <;> rfl

@[simp] theorem handle_loop : (s.handle k p q closesIt marksDone).loop = s.loop := by
  unfold handle
  split <;> rfl

@[simp] theorem handle_closed : (s.handle k p q closesIt marksDone).closed = s.closed := by
  unfold handle
  split <;> rfl

@[simp] theorem handle_accepts : (s.handle k p q closesIt marksDone).accepts = s.accepts := by
  unfold handle
  split <;> rfl

end Handle

/-- One step. A step whose goroutine cannot take it now leaves everything as it was. -/
def step (s : Lifecycle) : Event → Lifecycle
  | .start =>
    match s.loop with
    | .starting =>
      if s.closed then { s with listening := false, loop := .ended .serverClosed }
      else { s with registered := true, loop := .accepting }
    | _ => s
  | .accept a =>
    match s.loop with
    | .accepting =>
      let s := { s with accepts := s.accepts + 1 }
      match a with
      | .conn => { s with loop := .holding s.phases.length, phases := s.phases ++ [.held] }
      | .closedListener => { s with loop := .failed true }
      | .failure => { s with loop := .failed false }
    | _ => s
  | .react =>
    match s.loop with
    | .holding k =>
      if s.closed then
        { s with
          loop := .ended .serverClosed
          phases := s.phases.set k .refused
          closes := s.closes ++ [k] }
      else { s with loop := .accepting, conns := s.conns + 1, phases := s.phases.set k .running }
    | .failed listenerGone =>
      if s.closed then { s with loop := .ended .serverClosed }
      else if listenerGone then { s with loop := .ended .listenerClosed }
      else { s with loop := .retrying }
    | _ => s
  | .wake byDone =>
    match s.loop with
    | .retrying => if byDone && !s.done then s else { s with loop := .accepting }
    | _ => s
  | .answer k => s.handle k .running .answered false false
  | .abort k => s.handle k .running .shut true false
  | .close k => s.handle k .answered .shut true false
  | .finish k => s.handle k .shut .finished false true
  | .shutdown =>
    match s.stop with
    | .notCalled =>
      { s with closed := true, done := true, listening := s.listening && !s.registered,
               stop := .waiting }
    | _ => s
  | .idle =>
    match s.stop with
    | .waiting => if s.conns = 0 then { s with stop := .returned true } else s
    | _ => s
  | .expire =>
    match s.stop with
    | .waiting => { s with stop := .returned false }
    | _ => s

/-- The events of all goroutines, in one interleaving. -/
def run (s : Lifecycle) (es : List Event) : Lifecycle := es.foldl step s

end Lifecycle

end Server

end StaticHttp
