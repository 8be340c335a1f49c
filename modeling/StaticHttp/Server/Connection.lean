import StaticHttp.Server.State
import StaticHttp.Server.AccessLog
import StaticHttp.Request.Parse
import StaticHttp.Response.Basic

/-!
# Answering one connection

A connection carries one request. The server reads it with the default limits against the
generation live when the connection began, then answers with the file, the canned page for a
failure, or nothing at all when the transport failed before the request was complete. A `HEAD`
request gets the head alone. Every response written is counted with the bytes it sent, even
one cut short.

After an error response written in full the server lingers: it half-closes the connection and
reads and discards up to 64 KiB more, so that closing does not reset a response the client has
not read yet.

Main statements:
* `State.serve_transport`: a request cut short by the transport gets no response.
-/

namespace StaticHttp

/-- Whether the request, as far as it was read, asks for the head alone. -/
def Parsed.asksHead (p : Parsed) : Bool := p.request.any fun r => r.method == Method.head

namespace Server

/-- What a connection does when the server half-closes it. -/
inductive HalfClose where
  /-- The outgoing stream ends and reading goes on. -/
  | closes
  /-- The connection cannot half-close; the server reads on as if it had. -/
  | absent
  /-- Half-closing fails with a text; the server stops there. -/
  | fails (msg : String)
  deriving DecidableEq, Repr

/-- A client connection: what it sends, how it takes what it is sent, and how it half-closes. -/
structure Connection where
  script : Transport.Script
  sink : Transport.Sink := {}
  halfClose : HalfClose := .closes

/-- The most a lingering server reads. -/
def maxLinger : Nat := 65536

/-- What answering a connection did: the server after it, the connection after it, whether the
connection was half-closed, and the log entries written. -/
structure Outcome where
  state : State
  connection : Connection
  closedWrite : Bool
  logs : List Log.Entry

/-- Half-closes a connection and discards what the client still sends, up to `maxLinger`
bytes. -/
def linger (c : Connection) : Connection × Bool :=
  let drain := fun (s : Transport.Script) => (s.drain (s.replies.length + 1) maxLinger).1
  match c.halfClose with
  | .fails _ => (c, false)
  | .absent => ({ c with script := drain c.script }, false)
  | .closes => ({ c with script := drain c.script }, true)

/-- The response to the outcome `p` of reading a request from the generation `g`: the file, or
the canned 404 page, for a request read in full, and the canned page of the failure's status
otherwise. A `HEAD` request, even one read in part, gets the head alone. -/
def answer (g : Option Content.Generation) (p : Parsed) : Response :=
  let r := match p.kind, p.request with
    | .none, some req => Response.resolve g req.uri
    | .none, none => Response.resolve g []
    | kind, _ => Response.canned g (Status.ofKind kind)
  { r with headOnly := p.asksHead }

namespace State

/-- Answers the one request of a connection at time `now`. -/
def serve (s : State) (c : Connection) (now : Int) : Outcome :=
  let g := s.current
  let p := Request.parse Limits.default (Transport.Cursor.ofScript c.script)
  let c := { c with script := p.cursor.script }
  let kind := p.kind
  let failed := (p.error.map ParseError.message).getD ""
  if kind = Kind.io then
    ⟨{ s with metrics := s.metrics.parseFailure kind }, c, false,
      [Log.Entry.plain .debug ("connection dropped: " ++ failed)]⟩
  else
    let (s, rejected) := if kind = Kind.none then (s, [])
      else ({ s with metrics := s.metrics.parseFailure kind },
        [Log.Entry.plain .info ("rejected request: " ++ failed)])
    let r := answer g p
    let d := r.write c.sink s.extra now
    let s := { s with metrics := s.metrics.response r.status d.written }
    let c := { c with sink := d.sink }
    match d.error with
    | some e => ⟨s, c, false, rejected ++ [Log.Entry.plain .debug ("response not delivered: " ++ e.message)]⟩
    | none =>
      let line := accessLine (p.request.map Summary.ofRequest) r.status d.written
      let logs := rejected ++ [({ level := .info, msg := line, fields := [("status", toString r.status.code)] } : Log.Entry)]
      if kind = Kind.none then ⟨s, c, false, logs⟩
      else
        let (c, closed) := linger c
        ⟨s, c, closed, logs⟩

theorem serve_transport (s : State) (c : Connection) (now : Int)
    (h : (Request.parse Limits.default (Transport.Cursor.ofScript c.script)).kind = .io) :
    (s.serve c now).connection.sink = c.sink := by
  simp [serve, h]

end State

end Server

end StaticHttp
