import StaticHttp.Response.Status
import StaticHttp.Content.Generation

/-!
# Server metrics

The server counts connections, failed TLS handshakes, responses by status, parse failures by
kind, bytes sent and cache reloads by result, and reports the live generation's entries, bytes
and number. A labelled count is reported once it has been counted at least once.

Main statements:
* `Server.Metrics.count_bump_same`: counting a label adds one to it.
-/

namespace StaticHttp

namespace Server

/-- Counts by label, in the order the labels were first counted. -/
abbrev Counts := List (String × Nat)

/-- Adds one to a label's count, or counts it first at the end. -/
def bump : Counts → String → Counts
  | [], k => [(k, 1)]
  | (k', n) :: rest, k => if k' == k then (k', n + 1) :: rest else (k', n) :: bump rest k

/-- The count of a label. -/
def Counts.count : Counts → String → Nat
  | [], _ => 0
  | (k', n) :: rest, k => if k' == k then n else Counts.count rest k

/-- The server's counters. -/
structure Metrics where
  connections : Nat := 0
  active : Int := 0
  handshakeFailures : Nat := 0
  responses : Counts := []
  parseFailures : Counts := []
  sentBytes : Nat := 0
  reloads : Counts := []
  deriving Repr

namespace Metrics

/-- Counts a response and the bytes it sent. -/
def response (m : Metrics) (s : Status) (written : Nat) : Metrics :=
  { m with responses := bump m.responses (toString s.code), sentBytes := m.sentBytes + written }

/-- Counts a parse failure. -/
def parseFailure (m : Metrics) (k : Kind) : Metrics :=
  { m with parseFailures := bump m.parseFailures k.name }

/-- Counts a reload by its result. -/
def reload (m : Metrics) (ok : Bool) : Metrics :=
  { m with reloads := bump m.reloads (if ok then "ok" else "error") }

/-- A series name with one label. -/
def labelled (name label : String) (v : String) : String := name ++ "\x7b" ++ label ++ "=\"" ++ v ++ "\"\x7d"

/-- Every series the server reports, with its value, for a live generation. -/
def series (m : Metrics) (g : Option Content.Generation) : List (String × Int) :=
  [("nvhttpd_connections_total", (m.connections : Int)), ("nvhttpd_connections_active", m.active),
   ("nvhttpd_tls_handshake_failures_total", (m.handshakeFailures : Int)),
   ("nvhttpd_sent_bytes_total", (m.sentBytes : Int)),
   ("nvhttpd_cache_entries", (Content.Generation.size g : Int)),
   ("nvhttpd_cache_bytes", (Content.Generation.bytes g : Int)),
   ("nvhttpd_cache_generation", (((g.map (·.id)).getD 0 : Nat) : Int))] ++
  m.responses.map (fun (k, n) => (labelled "nvhttpd_responses_total" "status" k, (n : Int))) ++
  m.parseFailures.map (fun (k, n) => (labelled "nvhttpd_request_parse_failures_total" "kind" k, (n : Int))) ++
  m.reloads.map (fun (k, n) => (labelled "nvhttpd_cache_reloads_total" "result" k, (n : Int)))

theorem count_bump_same (c : Counts) (k : String) : (bump c k).count k = c.count k + 1 := by
  induction c with
  | nil => simp [bump, Counts.count]
  | cons x rest ih =>
    obtain ⟨k', n⟩ := x
    by_cases h : k' = k
    · simp [bump, Counts.count, h]
    · simp [bump, Counts.count, h, ih]

end Metrics

end Server

end StaticHttp
