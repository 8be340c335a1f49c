import StaticHttp.Proofs.Server.Answer

/-!
# Full writes: what the transport takes, and what is counted

`Transport.writeAll` hands a byte string to a transport's write call until all of it is taken,
and stops at the first call that reports a failure or takes nothing. What the transport took,
and what each call answered, is seen by watching the call (`WriteCall.watch`): the watched call
writes through the original one and records the bytes taken and the replies. Watching changes
nothing: the watched write ends in the state and with the failure the write itself ends with.

`WriteRun b x rs res` describes a full write of `b` as a trace. Calls that each take something
and report no failure go on with the rest of `b`; the write ends when nothing is left, or at a
call that reports a failure or takes nothing. Every full write through every transport runs as
such a trace (`writeAll_watch`), whatever the transport does, and the facts a caller relies on
are read off the trace: the bytes taken are a prefix of those handed, there is one call per byte
taken and one more at most, and the write succeeds exactly when all was taken and no call
reported a failure. A call that reports a failure fails the write even when it took the rest.

A response is written as its head and then, unless it is left out or empty, its body, and its
count is that of the parts written in full. So the count is what the transport took when the
response went out; when it did not, the count is the head's length if the head went out and
nothing otherwise, and may be less than what the transport took.

Main statements:
* `writeAll_watch`: a full write through any transport runs as a `WriteRun`, and watching it
  changes nothing.
* `WriteRun.isPrefix_taken`, `WriteRun.calls_le`, `WriteRun.ok_iff`, `WriteRun.short_iff`,
  `WriteRun.failed_iff`: what a trace shows.
* `deliver_watch`: what writing a response takes from the transport, and what it counts.
* `serve_sentBytes`: the server adds the count of each response it writes to the bytes sent.
* `writes_delivered_and_counted`: all of these together, for every transport.
-/

namespace StaticHttp

namespace Transport

variable {σ : Type}

/-! ## Watching a transport -/

/-- A transport seen from outside: its state, the bytes it has taken, and the count and failure
each write call answered, in order. -/
structure Watched (σ : Type) where
  state : σ
  taken : Bytes := []
  replies : List (Nat × Option String) := []

/-- A write call watched from outside: it writes through `write` and records the bytes the call
took, the front of those it was handed, and the call's reply. -/
def WriteCall.watch (write : WriteCall σ) : WriteCall (Watched σ) := fun w p =>
  match write w.state p with
  | (s, n, e) => (⟨s, w.taken ++ p.take n, w.replies ++ [(n, e)]⟩, n, e)

theorem WriteCall.watch_eq (write : WriteCall σ) (w : Watched σ) (p : Bytes) {s : σ} {n : Nat}
    {e : Option String} (h : write w.state p = (s, n, e)) :
    write.watch w p = (⟨s, w.taken ++ p.take n, w.replies ++ [(n, e)]⟩, n, e) := by
  simp [WriteCall.watch, h]

/-! ## The traces of a full write -/

/-- The traces of a full write of `b`: the bytes the transport took, the replies of the calls
made, and the failure the write ends with. -/
inductive WriteRun : Bytes → Bytes → List (Nat × Option String) → Option WriteError → Prop
  /-- Nothing is left to write. -/
  | done : WriteRun [] [] [] none
  /-- A call reports a failure, whatever it took. -/
  | failed {b : Bytes} (n : Nat) (msg : String) : b ≠ [] →
      WriteRun b (b.take n) [(n, some msg)] (some (.failed msg))
  /-- A call takes nothing and reports nothing. -/
  | short {b : Bytes} : b ≠ [] → WriteRun b [] [(0, none)] (some .shortWrite)
  /-- A call takes some bytes and reports nothing; the write goes on with the rest. -/
  | took {b x : Bytes} {rs : List (Nat × Option String)} {res : Option WriteError} (n : Nat) :
      b ≠ [] → WriteRun (b.drop (n + 1)) x rs res →
      WriteRun b (b.take (n + 1) ++ x) ((n + 1, none) :: rs) res

/-- **A full write runs as a trace, and watching it changes nothing.** Started from a watch of
the state `s`, the watched write ends in the state and with the failure that the write from `s`
ends with, and what it records is a trace of that write. -/
theorem writeAll_watch (write : WriteCall σ) (s : σ) (b : Bytes) (w : Watched σ)
    (hw : w.state = s) :
    ∃ x rs, writeAll write.watch w b =
        (⟨(writeAll write s b).1, w.taken ++ x, w.replies ++ rs⟩, (writeAll write s b).2) ∧
      WriteRun b x rs (writeAll write s b).2 := by
  fun_induction writeAll write s b generalizing w with
  | case1 s =>
    exact ⟨[], [], by simp [← hw], .done⟩
  | case2 s c cs s' n msg h =>
    refine ⟨(c :: cs).take n, [(n, some msg)], ?_, .failed n msg (List.cons_ne_nil c cs)⟩
    rw [writeAll_cons_failed (WriteCall.watch_eq write w _ (hw ▸ h))]
  | case3 s c cs s' h =>
    refine ⟨[], [(0, none)], ?_, .short (List.cons_ne_nil c cs)⟩
    rw [writeAll_cons_short (WriteCall.watch_eq write w _ (hw ▸ h))]
    simp
  | case4 s c cs s' n h ih =>
    -- the watch after the first call is the one the rest of the write starts from
    obtain ⟨x, rs, hrun, htrace⟩ :=
      ih ⟨s', w.taken ++ (c :: cs).take (n + 1), w.replies ++ [(n + 1, none)]⟩ rfl
    refine ⟨(c :: cs).take (n + 1) ++ x, (n + 1, none) :: rs, ?_,
      .took n (List.cons_ne_nil c cs) htrace⟩
    rw [writeAll_cons_took (WriteCall.watch_eq write w _ (hw ▸ h)), hrun]
    simp

namespace WriteRun

variable {b x : Bytes} {rs : List (Nat × Option String)} {res : Option WriteError}

/-- The bytes a transport took in a full write are a prefix of those it was handed. -/
theorem isPrefix_taken (h : WriteRun b x rs res) : x <+: b := by
  induction h with
  | done => exact List.nil_prefix
  | failed n _ _ => exact List.take_prefix n _
  | short _ => exact List.nil_prefix
  | @took b x rs res n _ _ ih =>
    have hp := (List.prefix_append_right_inj (b.take (n + 1))).mpr ih
    rwa [List.take_append_drop] at hp

/-- Every call but the last takes a byte, so a full write makes at most one call per byte and
one more. -/
theorem calls_le (h : WriteRun b x rs res) : rs.length ≤ b.length + 1 := by
  induction h with
  | done => simp
  | failed _ _ _ => simp
  | short _ => simp
  | @took b x rs res n hb _ ih =>
    have hpos := List.length_pos_iff.mpr hb
    simp only [List.length_drop, List.length_cons] at ih ⊢
    omega

/-- A full write succeeds exactly when the transport took all of it and no call reported a
failure. -/
theorem ok_iff (h : WriteRun b x rs res) : res = none ↔ x = b ∧ ∀ q ∈ rs, q.2 = none := by
  induction h with
  | done => simp
  | failed _ _ _ => simp
  | short hb => simp [Ne.symm hb]
  | @took b x rs res n _ _ ih =>
    -- the first call took the front of `b`, so the rest was taken exactly when all was
    have hrest : b.take (n + 1) ++ x = b ↔ x = b.drop (n + 1) := by
      constructor
      · intro hx
        exact (List.append_right_inj _).mp (hx.trans (List.take_append_drop (n + 1) b).symm)
      · rintro rfl
        exact List.take_append_drop (n + 1) b
    rw [ih, hrest]
    simp

/-- A full write ends short exactly when a call took nothing and reported nothing. -/
theorem short_iff (h : WriteRun b x rs res) : res = some .shortWrite ↔ (0, none) ∈ rs := by
  induction h with
  | done => simp
  | failed _ _ _ => simp
  | short _ => simp
  | took n _ _ ih => simp [ih]

/-- A full write fails with a message exactly when a call reported it. -/
theorem failed_iff (h : WriteRun b x rs res) (msg : String) :
    res = some (.failed msg) ↔ ∃ n, (n, some msg) ∈ rs := by
  induction h with
  | done => simp
  | failed n m _ => simp [eq_comm]
  | short _ => simp
  | took n _ _ ih => simp [ih]

end WriteRun

end Transport

/-! ## Writing a response -/

namespace Response

open Transport

variable {σ : Type}

/-- What writing a response with head `h` and the rest `more` after it took and counted: a
prefix of the whole output, all of it exactly when nothing failed, and a count that is what was
taken when nothing failed, and else the head's length, when the head went out, or nothing. -/
structure Counted (h more x : Bytes) (rs : List (Nat × Option String))
    (count : Nat) (err : Option WriteError) : Prop where
  taken_front : x <+: h ++ more
  ok_iff : err = none ↔ x = h ++ more ∧ ∀ q ∈ rs, q.2 = none
  count_ok : err = none → count = x.length
  count_failed : err ≠ none → count = 0 ∨ (count = h.length ∧ h <+: x)

/-- The head failed: nothing is counted. -/
theorem Counted.of_head_failed {h more x : Bytes} {rs : List (Nat × Option String)}
    {e : WriteError} (hrun : WriteRun h x rs (some e)) : Counted h more x rs 0 (some e) := by
  refine ⟨hrun.isPrefix_taken.trans (List.prefix_append h more), ?_, by simp, by simp⟩
  simp only [reduceCtorEq, false_iff, not_and]
  intro hx hall
  -- the whole output, taken from the head alone, is the head taken in full
  have hmore : more = [] := by
    have hlen := congrArg List.length hx
    have hle := hrun.isPrefix_taken.length_le
    simp only [List.length_append] at hlen
    exact List.eq_nil_of_length_eq_zero (by omega)
  subst hmore
  rw [List.append_nil] at hx
  exact absurd (hrun.ok_iff.mpr ⟨hx, hall⟩) (by simp)

/-- The head went out and nothing follows it. -/
theorem Counted.of_head {h x : Bytes} {rs : List (Nat × Option String)}
    (hrun : WriteRun h x rs none) : Counted h [] x rs h.length none := by
  obtain ⟨rfl, hall⟩ := hrun.ok_iff.mp rfl
  exact ⟨by simp, by simpa using hall, fun _ => rfl, by simp⟩

/-- The head went out and the body followed. -/
theorem Counted.of_body {h body x y : Bytes} {rs qs : List (Nat × Option String)}
    {err : Option WriteError} (hhead : WriteRun h x rs none) (hbody : WriteRun body y qs err) :
    Counted h body (x ++ y) (rs ++ qs) (if err = none then h.length + body.length else h.length)
      err := by
  obtain ⟨rfl, hall⟩ := hhead.ok_iff.mp rfl
  have hok := hbody.ok_iff
  refine ⟨(List.prefix_append_right_inj x).mpr hbody.isPrefix_taken, ?_, ?_, ?_⟩
  · rw [hok, List.append_cancel_left_eq]
    simp only [List.mem_append]
    exact ⟨fun ⟨hy, hq⟩ => ⟨hy, fun q hq' => hq'.elim (hall q) (hq q)⟩,
      fun ⟨hy, hq⟩ => ⟨hy, fun q hq' => hq q (.inr hq')⟩⟩
  · intro he
    obtain ⟨rfl, -⟩ := hok.mp he
    simp [he]
  · intro he
    exact .inr ⟨by simp [he], List.prefix_append x y⟩

/-- The count never exceeds what the transport took. -/
theorem Counted.count_le {h more x : Bytes} {rs : List (Nat × Option String)} {count : Nat}
    {err : Option WriteError} (hc : Counted h more x rs count err) : count ≤ x.length := by
  by_cases he : err = none
  · exact Nat.le_of_eq (hc.count_ok he)
  · rcases hc.count_failed he with h0 | ⟨rfl, hh⟩
    · omega
    · exact hh.length_le

/-- **What a response takes from the transport, and what it counts.** Writing a response
through any transport, watched from the start: watching changes nothing, and what was taken and
counted is `Counted` for the head followed by the body, unless the body is left out or empty. -/
theorem deliver_watch (write : WriteCall σ) (s : σ) (r : Response) (extra : Bytes) (secs : Int) :
    ∃ x rs, r.deliver write.watch ⟨s, [], []⟩ extra secs =
        (⟨(r.deliver write s extra secs).1, x, rs⟩, (r.deliver write s extra secs).2) ∧
      Counted (r.head extra secs) (if r.headOnly || r.body.isEmpty then [] else r.body) x rs
        (r.deliver write s extra secs).2.1 (r.deliver write s extra secs).2.2 := by
  obtain ⟨x, rs, hw, hrun⟩ := writeAll_watch write s (r.head extra secs) ⟨s, [], []⟩ rfl
  simp only [List.nil_append] at hw
  unfold deliver
  simp only [hw]
  rcases hh : writeAll write s (r.head extra secs) with ⟨s₁, _ | e⟩
  · rw [hh] at hrun
    dsimp only
    by_cases hmore : (r.headOnly || r.body.isEmpty) = true
    · -- the head alone is written
      simp only [hmore, if_true]
      exact ⟨x, rs, rfl, Counted.of_head hrun⟩
    · -- the body follows, written from where the head left the transport
      simp only [hmore, Bool.false_eq_true, if_false]
      obtain ⟨y, qs, hw', hbody⟩ := writeAll_watch write s₁ r.body ⟨s₁, x, rs⟩ rfl
      rw [hw']
      rcases hb : writeAll write s₁ r.body with ⟨s₂, _ | e⟩
      · rw [hb] at hbody
        exact ⟨x ++ y, rs ++ qs, rfl, by simpa using Counted.of_body hrun hbody⟩
      · rw [hb] at hbody
        exact ⟨x ++ y, rs ++ qs, rfl, by simpa using Counted.of_body hrun hbody⟩
  · rw [hh] at hrun
    exact ⟨x, rs, rfl, Counted.of_head_failed hrun⟩

end Response

/-! ## The bytes the server counts as sent -/

namespace Server

open Content

/-- Past a failure of the transport, the server adds the count of the response it writes to the
bytes sent, whether or not the response went out. -/
theorem serve_sentBytes (s : State) (c : Connection) (now : Int) (h : c.parsed.kind ≠ .io) :
    (s.serve c now).state.metrics.sentBytes =
      s.metrics.sentBytes +
        ((answer s.current c.parsed).deliver Transport.Sink.call c.sink s.extra now).2.1 := by
  unfold Connection.parsed at h ⊢
  simp only [State.serve, h, if_false]
  generalize Request.parse Limits.default (Transport.Cursor.ofScript c.script) = p at h ⊢
  have hwritten : ((answer s.current p).write c.sink s.extra now).written =
      ((answer s.current p).deliver Transport.Sink.call c.sink s.extra now).2.1 := by
    unfold Response.write
    rcases (answer s.current p).deliver Transport.Sink.call c.sink s.extra now with ⟨_, _, _⟩
    rfl
  rw [← hwritten]
  by_cases hk : p.kind = .none
  · simp only [hk, if_true]
    generalize (answer s.current p).write c.sink s.extra now = d
    rcases d with ⟨sink, written, _ | e⟩ <;> simp [Metrics.response]
  · simp only [hk, if_false]
    generalize (answer s.current p).write c.sink s.extra now = d
    rcases d with ⟨sink, written, _ | e⟩ <;> simp [Metrics.response, Metrics.parseFailure]

end Server

open Transport Server

/-- **Writes reach the transport in order, and a response counts the parts that went out.**
For every transport, watched from the start, a full write of `b` changes nothing by being
watched, makes at most one call per byte and one more, has the transport take a prefix of `b`,
and succeeds exactly when all of `b` was taken and no call reported a failure; it ends short
exactly when a call took nothing and reported nothing, and fails with a message exactly when a
call reported it, and the text of its failure says which. Writing a response likewise has the
transport take a prefix of its head followed by its body, unless that is left out or empty, and
succeeds exactly when all of it was taken and no call reported a failure; its count is what was
taken when it succeeds, and otherwise the head's length, when the head went out, or nothing, so
never more than what was taken. The server adds that count to the bytes sent. -/
theorem writes_in_order_counted_by_parts {σ : Type} (write : WriteCall σ) (s : σ) (b : Bytes)
    (r : Response) (extra : Bytes) (secs : Int) (st : State) (c : Connection) (now : Int) :
    let W := writeAll write.watch ⟨s, [], []⟩ b
    let D := r.deliver write.watch ⟨s, [], []⟩ extra secs
    let out := r.head extra secs ++ (if r.headOnly || r.body.isEmpty then [] else r.body)
    (W.1.state = (writeAll write s b).1 ∧ W.2 = (writeAll write s b).2 ∧
      W.1.replies.length ≤ b.length + 1 ∧ W.1.taken <+: b ∧
      (W.2 = none ↔ W.1.taken = b ∧ ∀ q ∈ W.1.replies, q.2 = none) ∧
      (W.2 = some .shortWrite ↔ (0, none) ∈ W.1.replies) ∧
      (∀ msg, W.2 = some (.failed msg) ↔ ∃ n, (n, some msg) ∈ W.1.replies) ∧
      WriteError.shortWrite.message = "write failed: short write" ∧
      (∀ msg, (WriteError.failed msg).message = "write failed: " ++ msg)) ∧
    (D.1.state = (r.deliver write s extra secs).1 ∧ D.2 = (r.deliver write s extra secs).2 ∧
      D.1.taken <+: out ∧
      (D.2.2 = none ↔ D.1.taken = out ∧ ∀ q ∈ D.1.replies, q.2 = none) ∧
      (D.2.2 = none → D.2.1 = D.1.taken.length) ∧
      (D.2.2 ≠ none → D.2.1 = 0 ∨ (D.2.1 = (r.head extra secs).length ∧ r.head extra secs <+: D.1.taken)) ∧
      D.2.1 ≤ D.1.taken.length) ∧
    (c.parsed.kind ≠ .io → (st.serve c now).state.metrics.sentBytes =
      st.metrics.sentBytes +
        ((answer st.current c.parsed).deliver Sink.call c.sink st.extra now).2.1) := by
  obtain ⟨x, rs, hw, hrun⟩ := writeAll_watch write s b ⟨s, [], []⟩ rfl
  obtain ⟨y, qs, hd, hc⟩ := r.deliver_watch write s extra secs
  simp only [List.nil_append] at hw
  refine ⟨?_, ?_, serve_sentBytes st c now⟩
  · rw [hw]
    exact ⟨rfl, rfl, hrun.calls_le, hrun.isPrefix_taken, hrun.ok_iff, hrun.short_iff,
      hrun.failed_iff, rfl, fun _ => rfl⟩
  · rw [hd]
    exact ⟨rfl, rfl, hc.taken_front, hc.ok_iff, hc.count_ok, hc.count_failed, hc.count_le⟩

/-- A head cut short: a transport that fails once it has taken ten bytes takes the first ten
bytes of the head, yet the response counts none of them. -/
theorem response_count_drops_partial_head :
    ((⟨Status.ok, Bytes.ofString "text/plain", Bytes.ofString "abc", false⟩ : Response).write
        { failAfter := some (10, "broken pipe") } [] 0).error = some (.failed "broken pipe") ∧
    ((⟨Status.ok, Bytes.ofString "text/plain", Bytes.ofString "abc", false⟩ : Response).write
        { failAfter := some (10, "broken pipe") } [] 0).written = 0 ∧
    ((⟨Status.ok, Bytes.ofString "text/plain", Bytes.ofString "abc", false⟩ : Response).write
        { failAfter := some (10, "broken pipe") } [] 0).sink.accepted =
      Bytes.ofString "HTTP/1.1 2" := by
  decide +kernel

end StaticHttp
