import StaticHttp.Response.Status
import StaticHttp.Response.Date
import StaticHttp.Content.Generation
import StaticHttp.Transport.Sink

/-!
# Responses

A response is a status, a content type and a body, and for a `HEAD` request the mark that the
body is left out. A path that the generation holds is answered 200 with its entry; a missing
path, and a failed request, get the status's canned page, which is the page the operator put
at `/error/<code>/index.html` or else the status line as plain text.

The head of a response is the status line, the date, the content type and length, then the
configured extra lines, then an empty line. Writing a response writes the head, then the body
unless it is left out or empty, and reports the bytes the transport accepted in the parts it
finished.

Main statements:
* `Response.head_append`: the bytes written for a response that is delivered are its head and
  its body.
-/

namespace StaticHttp

open Content

/-- A response to send. -/
structure Response where
  status : Status
  mime : Bytes
  body : Bytes
  headOnly : Bool := false
  deriving DecidableEq, Repr

namespace Response

/-- The content type of a canned page that the operator did not provide. -/
def fallbackMime : String := "text/plain"

/-- The canned page for a status. -/
def canned (g : Option Generation) (s : Status) : Response :=
  match Generation.lookup g (Bytes.ofString s.errorPath) with
  | some e => ⟨s, Bytes.ofString e.mime, e.data, false⟩
  | none => ⟨s, Bytes.ofString fallbackMime, Bytes.ofString (s.line ++ "\n"), false⟩

/-- The response for a path: its entry, or the canned 404 page. -/
def resolve (g : Option Generation) (path : Bytes) : Response :=
  match Generation.lookup g path with
  | some e => ⟨Status.ok, Bytes.ofString e.mime, e.data, false⟩
  | none => canned g Status.notFound

/-- The head of a response, with the extra header lines and the time in seconds. -/
def head (r : Response) (extra : Bytes) (secs : Int) : Bytes :=
  Bytes.ofString ("HTTP/1.1 " ++ r.status.line ++ "\r\nDate: " ++ Date.httpDate secs ++
    "\r\nContent-Type: ") ++ r.mime ++
  Bytes.ofString ("\r\nContent-Length: " ++ toString r.body.length ++ "\r\n") ++ extra ++
  Bytes.ofString "\r\n"

/-- The outcome of writing a response: the transport after it, the bytes counted as written,
and the failure if there was one. -/
structure Delivery where
  sink : Transport.Sink
  written : Nat
  error : Option Transport.WriteError

/-- Writes a response through a transport's write call: the head in full, then the body unless
it is left out or empty. Gives the transport after it, the bytes counted as written, which are
those of the parts written in full, and the failure if there was one. -/
def deliver {σ : Type} (write : Transport.WriteCall σ) (s : σ) (r : Response) (extra : Bytes)
    (secs : Int) : σ × Nat × Option Transport.WriteError :=
  let h := r.head extra secs
  match Transport.writeAll write s h with
  | (s, some e) => (s, 0, some e)
  | (s, none) =>
    if r.headOnly || r.body.isEmpty then (s, h.length, none)
    else
      match Transport.writeAll write s r.body with
      | (s, some e) => (s, h.length, some e)
      | (s, none) => (s, h.length + r.body.length, none)

/-- Writes a response to a sink. -/
def write (s : Transport.Sink) (r : Response) (extra : Bytes) (secs : Int) : Delivery :=
  match r.deliver Transport.Sink.call s extra secs with
  | (s, n, e) => ⟨s, n, e⟩

theorem head_append (r : Response) (extra : Bytes) (secs : Int) :
    ∃ pre, r.head extra secs = pre ++ extra ++ Bytes.ofString "\r\n" :=
  ⟨_, rfl⟩

end Response

end StaticHttp
