import StaticHttp.Server.Connection

/-!
# Accepting connections

A server accepts connections one after another and answers each. A failed accept is logged and
retried after a delay that starts at 5 ms and doubles up to one second, and a successful accept
resets it. A listener closed under the server ends the serving with that failure. Shutting down
marks the server closed, closes the listener and logs it, once; a connection accepted after that
is closed unanswered, and serving ends with `server closed`.

A server with TLS first runs the handshake on every connection. A TLS client that completes it
is answered as over a plain connection, its entries marked as secure. Bytes that are no TLS
client's fail the handshake at the first record: the failure is counted and logged, and the
client gets at most an alert. A server without TLS reads whatever arrives as a request, so a
TLS client's hello is a malformed request to it.

Main statements:
* `Server.retryDelay_le`: the retry delay never exceeds one second.
-/

namespace StaticHttp

namespace Server

/-- How bytes reach a server that may speak TLS. -/
inductive SecureSend where
  /-- A TLS client handshakes, sends the bytes and ends its side with close_notify. -/
  | client (bytes : Bytes)
  /-- The bytes are sent as they are, and the client half-closes. -/
  | raw (bytes : Bytes)
  deriving DecidableEq, Repr

/-- What one call to accept gives. -/
inductive AcceptEvent where
  /-- A connection; with `shutdownFirst` the server shuts down while it is being accepted. -/
  | connection (c : Connection) (shutdownFirst : Bool)
  /-- A connection of a client that may speak TLS. -/
  | secure (send : SecureSend) (shutdownFirst : Bool)
  /-- A failure with its text. -/
  | failure (msg : String)
  /-- The listener was closed. -/
  | closed

/-- How a TLS handshake went as the client saw it; `raw` for bytes sent without one. -/
inductive Handshake where
  | ok
  | failed
  | raw
  deriving DecidableEq, Repr

/-- The name of a handshake's outcome. -/
def Handshake.name : Handshake → String
  | .ok => "ok"
  | .failed => "failed"
  | .raw => "raw"

/-- The alert record a TLS server sends before a version is agreed, with the alert's code. -/
def alertRecord (code : Byte) : Bytes := [0x15, 0x03, 0x01, 0x00, 0x02, 0x02, code]

/-- The largest TLS record body a server accepts. -/
def maxRecordBody : Nat := 18432

/-- Why a TLS server's handshake fails on bytes that are no TLS client's, and the alert it sends
back, if any. The first record's header decides: a record that is no handshake or alert, or
that claims a version from 16.0 on, is refused without an alert. -/
def rawHandshakeFailure (b : Bytes) : String × Bytes :=
  match b with
  | typ :: v1 :: v2 :: l1 :: l2 :: body =>
    let vers := v1.toNat * 256 + v2.toNat
    let n := l1.toNat * 256 + l2.toNat
    if typ == 0x80 then ("tls: unsupported SSLv2 handshake received", alertRecord 70)
    else if (typ != 0x15 && typ != 0x16) || vers ≥ 0x1000 then
      ("tls: first record does not look like a TLS handshake", [])
    else if n > maxRecordBody then ("tls: oversized record received with length " ++ toString n, alertRecord 22)
    else if body.length < n then ("unexpected EOF", [])
    else ("local error: tls: unexpected message", alertRecord 10)
  | [] => ("EOF", [])
  | _ => ("unexpected EOF", [])

/-- The first bytes of a TLS client's hello: a handshake record header, then the hello's type
and the start of its length. -/
def clientHelloStart : Bytes := [0x16, 0x03, 0x01, 0x01, 0x00, 0x01, 0x00, 0x00, 0xfc, 0x03, 0x03]

/-- What became of one accept. -/
inductive EventOutcome where
  /-- The accept failed, with this text; a closed listener is `closed`. -/
  | refused (msg : String)
  /-- A connection, after it was answered or closed unanswered, with whether it was
  half-closed and the log entries of the connection. -/
  | handled (c : Connection) (closedWrite : Bool) (logs : List Log.Entry)
  /-- A connection of a client that may speak TLS: how its handshake went, the bytes it
  received, decrypted when the handshake succeeded, and the log entries of the connection. -/
  | secured (handshake : Handshake) (response : Bytes) (logs : List Log.Entry)

/-- The delay before the next accept after a failure, in milliseconds, given the previous one. -/
def retryDelay (previous : Nat) : Nat :=
  if previous = 0 then 5 else min (previous * 2) 1000

/-- A delay in milliseconds as a duration text. -/
def delayText (ms : Nat) : String :=
  if ms ≥ 1000 && ms % 1000 = 0 then toString (ms / 1000) ++ "s" else toString ms ++ "ms"

/-- The state of serving: the server, whether it was shut down, the delay of the last failed
accept, the outcomes so far, and the log entries that belong to no connection. -/
structure Serving where
  state : State
  shutDown : Bool := false
  delay : Nat := 0
  outcomes : List EventOutcome := []
  logs : List Log.Entry := []

/-- Shuts down, once: marks the server closed, closes the listener if there is one, and logs
it. -/
def Serving.shutdown (s : Serving) (listening : Bool) (closeError : Option String) : Serving :=
  if s.shutDown then s
  else
    let closing := match closeError with
      | some e => if listening then [Log.Entry.plain .debug ("closing listener: " ++ e)] else []
      | none => []
    let note := Log.Entry.plain .info (s.state.config.server.name ++ " shutting down")
    { s with shutDown := true, logs := s.logs ++ closing ++ [note] }

/-- Answers an accepted connection as connection number `i`. -/
def Serving.handle (s : Serving) (i : Nat) (c : Connection) (now : Int) : Serving :=
  let remote := "192.0.2.1:" ++ toString (10000 + i)
  let st := { s.state with metrics := { s.state.metrics with connections := s.state.metrics.connections + 1 } }
  let o := st.serve c now
  let tag (e : Log.Entry) : Log.Entry := { e with fields := [("remote", remote), ("tls", "false")] ++ e.fields }
  let logs := ({ level := .trace, msg := "accepted", fields := [("remote", remote)] } : Log.Entry) :: o.logs.map tag
  { s with state := o.state, delay := 0, outcomes := s.outcomes ++ [.handled o.connection o.closedWrite logs] }

/-- Answers an accepted connection of a client that may speak TLS as connection number `i`. -/
def Serving.handleSecure (s : Serving) (i : Nat) (send : SecureSend) (now : Int) : Serving :=
  let remote := "192.0.2.1:" ++ toString (10000 + i)
  let st := { s.state with metrics := { s.state.metrics with connections := s.state.metrics.connections + 1 } }
  let accepted : Log.Entry := { level := .trace, msg := "accepted", fields := [("remote", remote)] }
  let tagged (tls : String) (es : List Log.Entry) : List Log.Entry :=
    es.map fun e => { e with fields := [("remote", remote), ("tls", tls)] ++ e.fields }
  let sending (b : Bytes) : Connection :=
    ⟨Transport.Script.ofChunks [b] (Transport.Reply.ofFault .endOfStream) false, {}, .closes⟩
  let (st, outcome) : State × EventOutcome :=
    match st.profile, send with
    | some _, .client b =>
      let o := st.serve (sending b) now
      (o.state, .secured .ok o.connection.sink.accepted (accepted :: tagged "true" o.logs))
    | some _, .raw b =>
      let (reason, alert) := rawHandshakeFailure b
      let note : Log.Entry := { level := .debug, msg := "tls handshake failed: " ++ reason, fields := [("remote", remote)] }
      ({ st with metrics := { st.metrics with handshakeFailures := st.metrics.handshakeFailures + 1 } },
        .secured .raw alert [accepted, note])
    | none, .raw b =>
      let o := st.serve (sending b) now
      (o.state, .secured .raw o.connection.sink.accepted (accepted :: tagged "false" o.logs))
    | none, .client _ =>
      let o := st.serve (sending clientHelloStart) now
      (o.state, .secured .failed [] (accepted :: tagged "false" o.logs))
  { s with state := st, delay := 0, outcomes := s.outcomes ++ [outcome] }

/-- The result of serving: what serving returned, the address while serving went on (none if it
ended before the events were used up), the outcomes, the log entries of no connection, and the
server after. -/
structure ServeRun where
  result : String
  addrDuring : Option String
  outcomes : List EventOutcome
  logs : List Log.Entry
  state : State

/-- The text serving ends with after a shutdown. -/
def serverClosed : String := "server closed"

/-- Accepts the events from number `i` on. -/
def acceptAll (now : Int) (closeError : Option String) : Nat → Serving → List AcceptEvent → Serving × Option String
  | _, s, [] => (s, none)
  | i, s, e :: rest =>
    match e with
    | .connection c true =>
      let s := s.shutdown true closeError
      ({ s with outcomes := s.outcomes ++ [.handled c false []] }, some serverClosed)
    | .connection c false => acceptAll now closeError (i + 1) (s.handle i c now) rest
    | .secure send true =>
      let s := s.shutdown true closeError
      let shown := match send with
        | .client _ => Handshake.failed
        | .raw _ => Handshake.raw
      ({ s with outcomes := s.outcomes ++ [.secured shown [] []] }, some serverClosed)
    | .secure send false => acceptAll now closeError (i + 1) (s.handleSecure i send now) rest
    | .failure msg =>
      let d := retryDelay s.delay
      let note := Log.Entry.plain .error ("accept failed, retrying in " ++ delayText d ++ ": " ++ msg)
      let s := { s with delay := d, outcomes := s.outcomes ++ [.refused msg], logs := s.logs ++ [note] }
      acceptAll now closeError (i + 1) s rest
    | .closed =>
      ({ s with outcomes := s.outcomes ++ [.refused "closed"] },
        some "listener closed: accept tcp: use of closed network connection")

/-- Serves the events on a listener at `addr`, shutting down first when `shutdownFirst` says
so, and shutting down after the events otherwise. -/
def State.serveAll (st : State) (addr : String) (shutdownFirst : Bool) (closeError : Option String)
    (events : List AcceptEvent) (now : Int) : ServeRun :=
  let s : Serving := { state := st }
  if shutdownFirst then
    let s := s.shutdown false closeError
    ⟨serverClosed, none, [], s.logs, s.state⟩
  else
    let scheme := if st.profile.isSome then "https" else "http"
    let s := { s with logs := [Log.Entry.plain .info (st.config.server.name ++ " server listening on: " ++
      scheme ++ "://" ++ displayAddress addr)] }
    match acceptAll now closeError 0 s events with
    | (s, some ended) =>
      let s := s.shutdown true closeError
      ⟨ended, none, s.outcomes, s.logs, s.state⟩
    | (s, none) =>
      let s := s.shutdown true closeError
      ⟨serverClosed, some addr, s.outcomes, s.logs, s.state⟩

theorem retryDelay_le (d : Nat) (h : d ≤ 1000) : retryDelay d ≤ 1000 := by
  unfold retryDelay
  split <;> omega

end Server

end StaticHttp
