import StaticHttp.Server.Config
import StaticHttp.Server.Metrics
import StaticHttp.Content.Cache
import StaticHttp.Transport.Tls

/-!
# A server and its content

A server holds its configuration, its content cache, the extra header lines it adds to every
response, its counters and, when TLS is on, the TLS profile. Making one checks the
configuration, loads the content a first time and reads the certificate and key; any failure
there is a configuration failure, and a content tree with more files than the cache takes says
which setting to raise. A reload loads the content again and keeps the live generation when it
fails. Every load, the first included, is counted by its result.

Main statements:
* `State.reload_error_cache`: a failed reload leaves the cache as it was.
-/

namespace StaticHttp

namespace Server

/-- A server ready to answer connections. -/
structure State where
  config : Config
  cache : Content.Cache
  extra : Bytes
  metrics : Metrics := {}
  profile : Option Transport.Profile := none

namespace State

/-- The text of a first load that failed; a tree with too many files names the limit. -/
def firstLoadFailure (c : Config) (e : Content.LoadError) : String :=
  if e.isTooMany then
    Content.Cache.failureText e ++ ", raise max_cache_elements above " ++
      toString c.server.maxCacheElements
  else Content.Cache.failureText e

/-- Makes a server for a configuration over a file tree at time `now`, with the log entries
of its first load. -/
def new (c : Config) (t : Files.Tree) (now : Int) : Except ConfigError State × List Log.Entry :=
  match c.validate t with
  | .error e => (.error e, [])
  | .ok () =>
    match Content.Cache.new c.server.htmlPath c.server.maxCacheElements with
    | .error e => (.error (.other e.message), [])
    | .ok cache =>
      let l := cache.load t now
      match l.result with
      | .error e => (.error (.other (firstLoadFailure c e)), l.logs)
      | .ok _ =>
        let s : State := ⟨c, l.cache, Bytes.ofString c.extraHeaders, ({} : Metrics).reload true, none⟩
        if c.tls.enabled then
          match Transport.loadProfile t c.tls.certificate c.tls.key with
          | .error e => (.error (.other e.message), l.logs)
          | .ok p => (.ok { s with profile := some p }, l.logs)
        else (.ok s, l.logs)

/-- The live generation. -/
def current (s : State) : Option Content.Generation := s.cache.current

/-- The number of the live generation, zero before any. -/
def currentId (s : State) : Nat := (s.current.map (·.id)).getD 0

/-- Loads the content again at time `now`. On failure the live generation stays and the
failure is logged as an error. -/
def reload (s : State) (t : Files.Tree) (now : Int) :
    State × Except Content.LoadError Content.Generation × List Log.Entry :=
  let l := s.cache.load t now
  match l.result with
  | .error e =>
    ({ s with metrics := s.metrics.reload false }, .error e,
      l.logs ++ [Log.Entry.plain .error ("reload failed, keeping generation " ++
        toString s.currentId ++ ": " ++ Content.Cache.failureText e)])
  | .ok g => ({ s with cache := l.cache, metrics := s.metrics.reload true }, .ok g, l.logs)

theorem reload_error_cache (s : State) (t : Files.Tree) (now : Int) (e : Content.LoadError)
    (h : (s.reload t now).2.1 = .error e) : (s.reload t now).1.cache = s.cache := by
  unfold reload at h ⊢
  dsimp only at h ⊢
  cases hl : (s.cache.load t now).result with
  | error e' => simp
  | ok g => simp [hl] at h

end State

end Server

end StaticHttp
