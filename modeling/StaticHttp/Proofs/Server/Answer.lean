import StaticHttp.Proofs.Request.Refine
import StaticHttp.Server.Connection

/-!
# How a connection is answered

The server reads one request from a connection and answers it from the generation it holds:

* a transport that stops before the request is complete gets nothing, and the connection is
  neither half-closed nor drained;
* a request read in full gets the file at its path with status 200, or the canned 404 page;
* a rejected request gets the canned page of its status: 400 for a grammar failure, 501 for a
  method the server does not answer, 500 for a component over its limit;
* a canned page is the operator's page at `/error/<code>/index.html` when the generation holds
  one, and the status line as plain text otherwise;
* a `HEAD` request, even one rejected after its method was read, gets the head alone, whose
  `Content-Length` still gives the length of the body left out;
* after a rejected request whose response went out in full, the server half-closes the
  connection and drains what the client still sends.

`Owed g p r` states the table above as rules, apart from the code that picks the response.
Reading a request names its method before anything else can succeed and keeps a request in hand
from then on (`Reading.request_ok_isSome`), so a request read in full is always there to be
answered.

Main statements:
* `Reading.request_ok_isSome`, `Parsed.request_isSome`: a read that succeeds holds a request.
* `Server.answer_owed`: the response the server picks is the one owed.
* `Server.serve_answers_request`: what answering a connection writes, and when it lingers.
-/

namespace StaticHttp

namespace Reading

/-! ## A read that succeeds holds a request -/

/-- A step that never lets go of the request once the method has been read. -/
def KeepsRequest {α : Type} (m : Step α) : Prop :=
  ∀ p : Progress, p.request.isSome → (m.run.run p).2.request.isSome

namespace KeepsRequest

variable {α β : Type}

theorem pure' (a : α) : KeepsRequest (Pure.pure a : Step α) := fun _ h => h

theorem throw' (e : ParseError) : KeepsRequest (throw e : Step α) := fun _ h => h

/-- A failure ends the read where it stands, whatever was to follow. -/
theorem throw_bind' (e : ParseError) (k : α → Step β) : KeepsRequest (throw e >>= k) :=
  fun _ h => h

theorem bind {m : Step α} {k : α → Step β} (hm : KeepsRequest m) (hk : ∀ a, KeepsRequest (k a)) :
    KeepsRequest (m >>= k) := by
  intro p hp
  rw [run_bind]
  have h₁ := hm p hp
  rcases hrun : m.run.run p with ⟨_ | a, p'⟩
  · rw [hrun] at h₁
    exact h₁
  · rw [hrun] at h₁
    exact hk a p' h₁

theorem peek' : KeepsRequest peek := by
  intro p hp
  rw [peek_run]
  split <;> exact hp

theorem next' : KeepsRequest next := by
  intro p hp
  rw [next_run]
  split <;> exact hp

theorem advance' : KeepsRequest advance := fun _ h => h

theorem update' (f : Request → Request) : KeepsRequest (update f) := by
  intro p hp
  show (p.request.map f).isSome = true
  simpa using hp

theorem get' : KeepsRequest (get : Step Progress) := fun _ h => h

theorem ite' {c : Prop} [Decidable c] {a b : Step α} (ha : KeepsRequest a) (hb : KeepsRequest b) :
    KeepsRequest (if c then a else b) := by
  split
  · exact ha
  · exact hb

end KeepsRequest

open KeepsRequest

/-! Every step of the reader keeps the request, the loops by induction on their fuel. A
failure in the middle of a step is `throw_bind'`: nothing after it runs. -/

theorem skipSpace_keeps (fuel : Nat) : KeepsRequest (skipSpace fuel) := by
  induction fuel with
  | zero => exact throw' _
  | succ fuel ih =>
    exact bind peek' fun ch => ite' (pure' _) (bind advance' fun _ => ih)

theorem skipIndent_keeps (fuel : Nat) : KeepsRequest (skipIndent fuel) := by
  induction fuel with
  | zero => exact throw' _
  | succ fuel ih =>
    exact bind peek' fun ch => ite' (bind advance' fun _ => ih) (pure' _)

theorem escape_keeps : KeepsRequest escape := by
  refine bind next' fun hi => bind next' fun lo => ?_
  split
  · exact throw' _
  · split
    · exact throw' _
    · exact pure' _

theorem token_keeps (limit : Int) (what : Component) (decode : Bool) (stop : Byte → Bool)
    (fuel n : Nat) (acc : Bytes) : KeepsRequest (token limit what decode stop fuel n acc) := by
  induction fuel generalizing n acc with
  | zero => exact throw' _
  | succ fuel ih =>
    refine bind peek' fun ch => ite' (pure' _) (bind advance' fun _ => ?_)
    dsimp only
    refine ite' (bind escape_keeps fun b => ?_) (bind (pure' _) fun b => ?_) <;>
      exact ite' (throw_bind' _ _) (ih _ _)

theorem path_keeps (lim : Limits) (fuel : Nat) : KeepsRequest (path lim fuel) := by
  refine bind (token_keeps _ _ _ _ _ _ _) fun p => ?_
  exact ite' (update' _) (throw' _)

theorem query_keeps (lim : Limits) (fuel steps : Nat) : KeepsRequest (query lim fuel steps) := by
  induction steps with
  | zero => exact throw' _
  | succ steps ih =>
    refine bind peek' fun ch => ite' (pure' _) ?_
    refine bind (token_keeps _ _ _ _ _ _ _) fun name => bind peek' fun ch => ?_
    dsimp only
    -- the value, the variable and the separator after it: what follows a name with `=`
    have hvalue : KeepsRequest (do
        advance
        let value ← token lim.queryValue Component.queryValue true endsQueryValue fuel 0 []
        update fun r => { r with query := r.query ++ [⟨name, value⟩] }
        let ch ← peek
        if ch == amp then advance
        query lim fuel steps) := by
      refine bind advance' fun _ => bind (token_keeps _ _ _ _ _ _ _) fun value =>
        bind (update' _) fun _ => bind peek' fun ch => ?_
      dsimp only
      exact ite' (bind advance' fun _ => ih) ih
    exact ite' (throw_bind' _ _) hvalue

theorem versionNumbers_keeps (room : Nat) (seenDot : Bool) (digits : Nat) (major minor : Int) :
    KeepsRequest (versionNumbers room seenDot digits major minor) := by
  induction room generalizing seenDot digits major minor with
  | zero =>
    rw [versionNumbers_unfold]
    exact bind peek' fun ch => ite' (pure' _) (throw' _)
  | succ room ih =>
    rw [versionNumbers_unfold]
    refine bind peek' fun ch => ite' (pure' _) (bind advance' fun _ => ?_)
    dsimp only
    exact ite' (ite' (throw_bind' _ _) (ih _ _ _ _))
      (ite' (ite' (ih _ _ _ _) (ih _ _ _ _)) (throw' _))

theorem versionWord_keeps (word : Bytes) : KeepsRequest (versionWord word) := by
  induction word with
  | nil => exact pure' _
  | cons w ws ih =>
    refine bind next' fun ch => ?_
    dsimp only
    exact ite' (throw_bind' _ _) ih

theorem version_keeps : KeepsRequest version := by
  refine bind (versionWord_keeps _) fun _ => bind (versionNumbers_keeps _ _ _ _ _) fun v => ?_
  dsimp only
  exact ite' (throw_bind' _ _) (update' _)

theorem expect_keeps (want : Byte) : KeepsRequest (expect want) :=
  bind next' fun _ => ite' (throw' _) (pure' _)

theorem headers_keeps (lim : Limits) (fuel steps : Nat) : KeepsRequest (headers lim fuel steps) := by
  induction steps with
  | zero => exact throw' _
  | succ steps ih =>
    refine bind peek' fun ch => ?_
    refine ite' (bind advance' fun _ => expect_keeps _) (ite' advance' ?_)
    -- a header line: the count checked, the name, the colon, the value and the line end
    refine bind get' fun st => ?_
    dsimp only
    refine ite' (throw_bind' _ _) (bind (token_keeps _ _ _ _ _ _ _) fun name => ?_)
    refine ite' (throw_bind' _ _) (bind (expect_keeps _) fun _ => ?_)
    refine bind (skipIndent_keeps _) fun _ => bind (token_keeps _ _ _ _ _ _ _) fun value => ?_
    exact bind (update' _) fun _ => bind next' fun ch =>
      ite' (bind (expect_keeps _) fun _ => ih) ih

theorem ending_keeps (lim : Limits) (fuel : Nat) (m : Method) : KeepsRequest (ending lim fuel m) := by
  unfold ending
  refine bind (skipSpace_keeps _) fun ch => ?_
  refine ite' (bind advance' fun _ => bind (update' _) fun _ => ite' (throw' _) (pure' _)) ?_
  refine bind version_keeps fun _ => bind (skipSpace_keeps _) fun ch => ?_
  dsimp only
  refine ite' (throw_bind' _ _) (bind advance' fun _ => bind (bind get' fun _ => pure' _) fun v => ?_)
  have hsection : KeepsRequest (do
      headers lim fuel fuel
      if (!m.implemented) = true then throw (ParseError.unsupported m) else pure ()) :=
    bind (headers_keeps _ _ _) fun _ => ite' (throw' _) (pure' _)
  exact ite' (bind (update' _) fun _ => ite' (throw_bind' _ _) hsection) hsection

theorem afterQuery_keeps (lim : Limits) (fuel : Nat) (m : Method) (ch : Byte) :
    KeepsRequest (afterQuery lim fuel m ch) := by
  unfold afterQuery
  dsimp only
  refine ite' ?_ (ending_keeps _ _ _)
  exact bind advance' fun _ => bind (token_keeps _ _ _ _ _ _ _) fun f =>
    bind (update' _) fun _ => ending_keeps _ _ _

theorem afterPath_keeps (lim : Limits) (fuel : Nat) (m : Method) :
    KeepsRequest (afterPath lim fuel m) := by
  refine bind peek' fun ch => ite' ?_ (afterQuery_keeps _ _ _ _)
  exact bind advance' fun _ => bind (query_keeps _ _ _) fun _ =>
    bind peek' fun ch => afterQuery_keeps _ _ _ _

/-- Once the method is read, the rest of the request keeps a request in hand. -/
theorem request_tail_keeps (lim : Limits) (fuel : Nat) (m : Method) :
    KeepsRequest (do
      let ch ← skipSpace fuel
      if ch == lf then throw (.malformed (.missingUri m))
      path lim fuel
      afterPath lim fuel m) := by
  refine bind (skipSpace_keeps _) fun ch => ?_
  dsimp only
  exact ite' (throw_bind' _ _) (bind (path_keeps _ _) fun _ => afterPath_keeps _ _ _)

/-- **A read that succeeds holds a request**: the method is read before anything can succeed,
and no later step lets go of the request. -/
theorem request_ok_isSome (lim : Limits) (fuel : Nat) {p p' : Progress}
    (h : (request lim fuel).run.run p = (.ok (), p')) : p'.request.isSome := by
  unfold request at h
  rw [run_bind] at h
  rcases h₁ : (skipLeading fuel).run.run p with ⟨_ | _, p₁⟩ <;> rw [h₁] at h <;> dsimp only at h
  · cases h
  rw [run_bind] at h
  rcases h₂ : (methodToken Method.maxNameLength []).run.run p₁ with ⟨_ | tok, p₂⟩ <;>
    rw [h₂] at h <;> dsimp only at h
  · cases h
  cases hm : matchMethod tok with
  | none =>
    rw [hm] at h
    cases h
  | some m =>
    rw [hm, run_bind, run_pure] at h
    dsimp only at h
    rw [run_bind] at h
    -- from here on the request is the one just named, and the rest of the read keeps it
    have hset : (modify fun s : Progress => { s with request := some { method := m } } :
        Step Unit).run.run p₂ = (.ok (), ⟨p₂.cursor, some { method := m }⟩) := rfl
    rw [hset] at h
    dsimp only at h
    have htail := request_tail_keeps lim fuel m ⟨p₂.cursor, some { method := m }⟩ rfl
    dsimp only at htail
    rw [h] at htail
    exact htail

end Reading

/-- A request read without failure is there to be answered. -/
theorem Parsed.request_isSome {lim : Limits} {c : Transport.Cursor}
    (h : (Request.parse lim c).error = none) : (Request.parse lim c).request.isSome := by
  dsimp only [Request.parse] at h ⊢
  generalize hrun : (Reading.request lim _).run.run ⟨c, none⟩ = res at h ⊢
  rcases res with ⟨_ | _, p'⟩
  · cases h
  · exact Reading.request_ok_isSome lim _ hrun

/-! ## The response owed -/

/-- A response for the head alone writes its head and nothing after it. -/
theorem Response.write_headOnly {r : Response} (h : r.headOnly = true) (sk : Transport.Sink)
    (extra : Bytes) (secs : Int) :
    (r.write sk extra secs).sink = (sk.writeAll (r.head extra secs)).1 := by
  unfold Response.write Response.deliver Transport.Sink.writeAll
  dsimp only
  rcases Transport.writeAll Transport.Sink.call sk (r.head extra secs) with ⟨sk', _ | e⟩ <;>
    simp [h]

/-- The head gives the length of the whole body, also when the body is left out. -/
theorem Response.head_contentLength (r : Response) (extra : Bytes) (secs : Int) :
    ∃ pre, r.head extra secs = pre ++
      Bytes.ofString ("\r\nContent-Length: " ++ toString r.body.length ++ "\r\n") ++ extra ++
      Bytes.ofString "\r\n" :=
  ⟨_, rfl⟩

namespace Server

open Content

/-- What the request of a connection reads as, with the limits the server reads with. -/
def Connection.parsed (c : Connection) : Parsed :=
  Request.parse Limits.default (Transport.Cursor.ofScript c.script)

/-- The connection once its request has been read and a response written to it. -/
def Connection.replied (c : Connection) (sink : Transport.Sink) : Connection :=
  { c with script := c.parsed.cursor.script, sink }

/-- The page a status is answered with: the operator's page at `/error/<code>/index.html` when
the generation holds one, and else the status line as plain text. -/
inductive CannedPage (g : Option Generation) (st : Status) (headOnly : Bool) : Response → Prop
  | page {e : Entry} : Generation.lookup g (Bytes.ofString st.errorPath) = some e →
      CannedPage g st headOnly ⟨st, Bytes.ofString e.mime, e.data, headOnly⟩
  | plain : Generation.lookup g (Bytes.ofString st.errorPath) = none →
      CannedPage g st headOnly
        ⟨st, Bytes.ofString "text/plain", Bytes.ofString (st.line ++ "\n"), headOnly⟩

/-- The response owed to the outcome `p` of reading a request, from the generation `g`: the
file or the canned 404 page for a request read in full, and the canned page of 400, 501 or 500
for a request that breaks the grammar, names a method not served, or runs over a limit. The
head alone is owed when the request, as far as it was read, is a `HEAD`. -/
inductive Owed (g : Option Generation) (p : Parsed) : Response → Prop
  | found {req : Request} {e : Entry} : p.error = none → p.request = some req →
      Generation.lookup g req.uri = some e →
      Owed g p ⟨Status.ok, Bytes.ofString e.mime, e.data, p.asksHead⟩
  | missing {req : Request} {r : Response} : p.error = none → p.request = some req →
      Generation.lookup g req.uri = none → CannedPage g Status.notFound p.asksHead r → Owed g p r
  | malformed {m : Malformed} {r : Response} : p.error = some (.malformed m) →
      CannedPage g Status.badRequest p.asksHead r → Owed g p r
  | unsupported {m : Method} {r : Response} : p.error = some (.unsupported m) →
      CannedPage g Status.notImplemented p.asksHead r → Owed g p r
  | oversized {o : Oversized} {r : Response} : p.error = some (.oversized o) →
      CannedPage g Status.internalError p.asksHead r → Owed g p r

theorem cannedPage_canned (g : Option Generation) (st : Status) (headOnly : Bool) :
    CannedPage g st headOnly { Response.canned g st with headOnly := headOnly } := by
  unfold Response.canned
  split
  · exact .page ‹_›
  · exact .plain ‹_›

section Answer

variable {g : Option Generation} {p : Parsed}

theorem answer_of_read {req : Request} (he : p.error = none) (hr : p.request = some req) :
    answer g p = { Response.resolve g req.uri with headOnly := p.asksHead } := by
  have hk : p.kind = .none := by simp [Parsed.kind, he]
  simp only [answer, hk, hr]

theorem answer_of_failure (hk : p.kind ≠ .none) :
    answer g p = { Response.canned g (Status.ofKind p.kind) with headOnly := p.asksHead } := by
  unfold answer
  rcases hkind : p.kind <;> simp_all

/-- **The server's answer is the one owed** to every read the transport did not cut short,
provided a read that succeeds holds a request, as every read does (`Parsed.request_isSome`). -/
theorem answer_owed (hio : p.kind ≠ .io) (hreq : p.error = none → p.request.isSome) :
    Owed g p (answer g p) := by
  rcases he : p.error with _ | e
  · obtain ⟨req, hr⟩ := Option.isSome_iff_exists.mp (hreq he)
    rw [answer_of_read he hr]
    unfold Response.resolve
    split
    · exact .found he hr ‹_›
    · exact .missing he hr ‹_› (cannedPage_canned g _ _)
  · have hk : p.kind = e.kind := by simp [Parsed.kind, he]
    rw [answer_of_failure (by cases e <;> simp_all [ParseError.kind])]
    cases e with
    | transport t => simp [hk, ParseError.kind] at hio
    | malformed m => exact .malformed he (by rw [hk]; exact cannedPage_canned g _ _)
    | unsupported m => exact .unsupported he (by rw [hk]; exact cannedPage_canned g _ _)
    | oversized o => exact .oversized he (by rw [hk]; exact cannedPage_canned g _ _)

end Answer

/-! ## Answering a connection -/

theorem linger_sink (c : Connection) : (linger c).1.sink = c.sink := by
  unfold linger
  split <;> rfl

theorem linger_closedWrite (c : Connection) : (linger c).2 = true ↔ c.halfClose = .closes := by
  unfold linger
  split <;> simp_all

variable (s : State) (c : Connection) (now : Int)

theorem serve_of_io (h : c.parsed.kind = .io) :
    (s.serve c now).connection = { c with script := c.parsed.cursor.script } ∧
      (s.serve c now).closedWrite = false := by
  unfold Connection.parsed at h ⊢
  simp [State.serve, h]

/-- Past a failure of the transport, the server writes its answer, and lingers after a rejected
request whose response went out in full. -/
theorem serve_of_ne_io (h : c.parsed.kind ≠ .io) :
    let d := (answer s.current c.parsed).write c.sink s.extra now
    (s.serve c now).connection =
      (if c.parsed.kind ≠ .none ∧ d.error = none then (linger (c.replied d.sink)).1
        else c.replied d.sink) ∧
    ((s.serve c now).closedWrite = true ↔
      c.parsed.kind ≠ .none ∧ d.error = none ∧ c.halfClose = .closes) := by
  unfold Connection.parsed at h
  unfold Connection.replied Connection.parsed
  simp only [State.serve, h, if_false]
  generalize Request.parse Limits.default (Transport.Cursor.ofScript c.script) = p at h ⊢
  by_cases hk : p.kind = .none
  · simp only [hk, if_true]
    generalize (answer s.current p).write c.sink s.extra now = d
    rcases d with ⟨sink, written, _ | e⟩ <;> simp
  · simp only [hk, if_false]
    generalize (answer s.current p).write c.sink s.extra now = d
    rcases d with ⟨sink, written, _ | e⟩ <;> simp [linger_closedWrite, hk]

/-- **How a connection is answered.** When the transport fails before the request is read, the
server writes nothing, and neither half-closes nor drains the connection. Otherwise it writes
the response owed to what it read, from the generation it holds: for a `HEAD` request, also one
rejected after its method, the head alone, which still gives the body's length. It half-closes
and drains the connection exactly after a rejected request whose response went out in full. -/
theorem serve_answers_request :
    (c.parsed.kind = .io →
      (s.serve c now).connection = { c with script := c.parsed.cursor.script } ∧
      (s.serve c now).closedWrite = false) ∧
    (c.parsed.kind ≠ .io → ∃ r, Owed s.current c.parsed r ∧
      (s.serve c now).connection.sink = (r.write c.sink s.extra now).sink ∧
      (c.parsed.asksHead = true →
        (s.serve c now).connection.sink = (c.sink.writeAll (r.head s.extra now)).1 ∧
        ∃ pre, r.head s.extra now = pre ++
          Bytes.ofString ("\r\nContent-Length: " ++ toString r.body.length ++ "\r\n") ++ s.extra ++
          Bytes.ofString "\r\n") ∧
      (s.serve c now).connection =
        (if c.parsed.kind ≠ .none ∧ (r.write c.sink s.extra now).error = none then
          (linger (c.replied (r.write c.sink s.extra now).sink)).1
        else c.replied (r.write c.sink s.extra now).sink) ∧
      ((s.serve c now).closedWrite = true ↔ c.parsed.kind ≠ .none ∧
        (r.write c.sink s.extra now).error = none ∧ c.halfClose = .closes)) := by
  refine ⟨serve_of_io s c now, fun hio => ?_⟩
  have howed : Owed s.current c.parsed (answer s.current c.parsed) :=
    answer_owed hio Parsed.request_isSome
  obtain ⟨hconn, hclosed⟩ := serve_of_ne_io s c now hio
  -- the owed response marks the head alone exactly when the request asks for it
  have hmark : (answer s.current c.parsed).headOnly = c.parsed.asksHead := by
    unfold answer
    rfl
  have hsink : (s.serve c now).connection.sink =
      ((answer s.current c.parsed).write c.sink s.extra now).sink := by
    rw [hconn]
    split
    · exact linger_sink _
    · rfl
  refine ⟨answer s.current c.parsed, howed, hsink, fun hhead => ⟨?_, Response.head_contentLength _ _ _⟩,
    hconn, hclosed⟩
  rw [hsink]
  exact Response.write_headOnly (hmark.trans hhead) _ _ _

end Server

end StaticHttp
