import StaticHttp.Proofs.Request.Final

/-!
# Simple and full requests

A request line that ends right after its target is a simple request: it has the implied
version 0.9 and must be a `GET`. A line that carries a version token is a full request, unless
the token is `HTTP/0.9`: that request is simple too, and must be a `GET` as well. So whenever
the reader returns a request without a failure, or with no failure but an unsupported method,
the request is simple exactly when its version is 0.9, and a simple request is a `GET`
(`parse_form_agrees_with_version`).

Only the bare line ends the request at the line feed. A line with `HTTP/0.9` goes on to the
header section like any versioned line, and the header lines read there stay with the
request, so a simple request can carry headers
(`parse_http09_line_keeps_headers`).

The form is set while the end of the request line is read (`scanEnding`); every piece before
it leaves the form and the version as the method left them, full and of version 0.0, which
already agree.
-/

namespace StaticHttp

namespace Reading

open Transport

/-- A request's form agrees with its version: simple exactly at version 0.9, and then a
`GET`. -/
def FormAgrees (r : Request) : Prop :=
  (r.form = .simple ↔ r.version = Version.v09) ∧ (r.form = .simple → r.method = .get)

/-- A failure, if any, that still leaves a request to answer: none, or an unsupported method. -/
def Settled (e : Option ParseError) : Prop := ∀ x, e = some x → x.kind = .unsupported

/-- An outcome in which a request read to a settled end has a form agreeing with its
version. -/
def FormSound (o : Outcome) : Prop := ∀ q, o.1 = some q → Settled o.2.1 → FormAgrees q

/-- What a request of method `m` holds before the end of its line is read: the full form and a
version other than 0.9. -/
def Unset (m : Method) (r : Request) : Prop :=
  r.form = .full ∧ r.version ≠ Version.v09 ∧ r.method = m

variable {T : Stop} {lim : Limits} {m : Method} {r : Request}

theorem Unset.formAgrees (h : Unset m r) : FormAgrees r := by
  obtain ⟨hf, hv, -⟩ := h
  have hns : r.form ≠ .simple := by
    rw [hf]
    decide
  exact ⟨⟨fun hs => absurd hs hns, fun h09 => absurd h09 hv⟩, fun hs => absurd hs hns⟩

/-- A request made simple at version 0.9 agrees when it is a `GET`. -/
theorem formAgrees_simple (hm : r.method = .get) :
    FormAgrees { r with form := .simple, version := Version.v09 } :=
  ⟨⟨fun _ => rfl, fun _ => rfl⟩, fun _ => hm⟩

/-- An outcome that keeps a request that agrees is sound, however the read ended. -/
theorem formSound_of_agrees {e : Option ParseError} {D : Bytes} (h : FormAgrees r) :
    FormSound (some r, e, D) := by
  rintro q hq -
  cases hq
  exact h

theorem formSound_none (e : Option ParseError) (D : Bytes) : FormSound (none, e, D) :=
  fun _ hq _ => nomatch hq

/-- A failure in the transport or a malformed line is never settled. -/
theorem formSound_transport (o : Option Request) (s : Stop) (D : Bytes) :
    FormSound (o, some (.transport s), D) :=
  fun _ _ hset => nomatch hset _ rfl

theorem formSound_malformed (o : Option Request) (c : Malformed) (D : Bytes) :
    FormSound (o, some (.malformed c), D) :=
  fun _ _ hset => nomatch hset _ rfl

/-- The header section only adds header lines, so it keeps a request that agrees. -/
theorem scanHeaderSection_formSound (h : FormAgrees r) (D : Bytes) :
    FormSound (scanHeaderSection T lim m r D) := by
  unfold scanHeaderSection
  split
  next res hs D₁ _ =>
  dsimp only
  split
  · exact formSound_of_agrees (r := { r with headers := hs }) h
  · exact formSound_of_agrees (r := { r with headers := hs }) h

/-- **The end of the request line sets the form.** A line feed right after the target makes the
request simple and of version 0.9; a version token sets the version, and only version 0.9 makes
the request simple. Either way a simple request that is not a `GET` fails as malformed. -/
theorem scanEnding_formSound (hr : Unset m r) (D : Bytes) :
    FormSound (scanEnding T lim m r D) := by
  have hagree := hr.formAgrees
  obtain ⟨hf, hv, hm⟩ := hr
  unfold scanEnding
  split
  · exact formSound_of_agrees hagree
  next ch D₁ _ =>
  by_cases hlf : ch = lf
  · -- the bare request line
    subst hlf
    simp only [beq_self_eq_true, if_true]
    by_cases hget : m = .get
    · subst hget
      simp only [bne_self_eq_false, Bool.false_eq_true, if_false]
      exact formSound_of_agrees (formAgrees_simple hm)
    · have hne : (m != .get) = true := by simpa using hget
      simp only [hne, if_true]
      exact formSound_malformed _ _ _
  have hne : (ch == lf) = false := by simpa using hlf
  simp only [hne, Bool.false_eq_true, if_false]
  split
  · exact formSound_of_agrees hagree
  next v D₂ _ =>
  split
  · next e D₃ hskip =>
    obtain rfl := scanSkip_error hskip
    exact formSound_transport _ _ _
  next ch' D₃ _ =>
  split
  · exact formSound_malformed _ _ _
  by_cases h09 : v = Version.v09
  · -- the line ends in `HTTP/0.9`: simple, and then it must be a `GET`
    subst h09
    by_cases hget : m = .get
    · subst hget
      simp only [beq_self_eq_true, if_true, bne_self_eq_false, Bool.and_false,
        Bool.false_eq_true, if_false]
      exact scanHeaderSection_formSound (formAgrees_simple hm) _
    · have hne : (m != .get) = true := by simpa using hget
      simp only [beq_self_eq_true, if_true, hne, Bool.and_self]
      exact formSound_malformed _ _ _
  · -- any other version keeps the request full
    have hne : (v == Version.v09) = false := by simpa using h09
    simp only [hne, Bool.false_eq_true, if_false, Bool.false_and]
    exact scanHeaderSection_formSound (r := { r with version := v })
      (Unset.formAgrees (m := m) ⟨hf, h09, hm⟩) _

/-- The fragment leaves the form to the end of the line. -/
theorem scanAfterQuery_formSound (hr : Unset m r) (D : Bytes) :
    FormSound (scanAfterQuery T lim m r D) := by
  unfold scanAfterQuery
  split
  · exact formSound_of_agrees hr.formAgrees
  split
  · split
    · exact formSound_of_agrees hr.formAgrees
    next f D₁ _ => exact scanEnding_formSound (r := { r with fragment := f }) hr D₁
  · exact scanEnding_formSound hr _

/-- The query variables leave the form to the end of the line. -/
theorem scanAfterPath_formSound (hr : Unset m r) (D : Bytes) :
    FormSound (scanAfterPath T lim m r D) := by
  unfold scanAfterPath
  split
  · exact formSound_of_agrees hr.formAgrees
  split
  · split
    next res vars D₁ _ =>
    dsimp only
    split
    · exact formSound_of_agrees (r := { r with query := vars }) hr.formAgrees
    · exact scanAfterQuery_formSound (r := { r with query := vars }) hr D₁
  · exact scanAfterQuery_formSound hr _

/-- Every request read to a settled end has its form agreeing with its version. -/
theorem scanRequest_formSound (D : Bytes) : FormSound (scanRequest T lim D) := by
  unfold scanRequest
  split
  · exact formSound_none _ _
  split
  · exact formSound_none _ _
  split
  · exact formSound_none _ _
  next m _ =>
  -- the method starts a full request of version 0.0, and the target leaves it so
  have hfresh : Unset m { method := m } :=
    ⟨rfl, show Version.zero ≠ Version.v09 by decide, rfl⟩
  dsimp only
  split
  · exact formSound_of_agrees hfresh.formAgrees
  split
  · exact formSound_of_agrees hfresh.formAgrees
  split
  · exact formSound_of_agrees hfresh.formAgrees
  next p D₁ _ => exact scanAfterPath_formSound (r := { method := m, uri := p }) hfresh D₁

end Reading

open Transport Reading

/-- **Simple and full requests are told apart by the version.** Over any transport that
delivers the bytes `D` and then stops, when the reader returns a request and fails at most for
an unsupported method, the request is simple exactly when its version is 0.9, a simple request
is a `GET`, and a full request has a version other than 0.9. -/
theorem parse_form_agrees_with_version (lim : Limits) {s : Script} {D : Bytes} {T : Stop}
    (hs : s.Yields D T) {r : Request}
    (hr : (Request.parse lim (Cursor.ofScript s)).request = some r)
    (hk : (Request.parse lim (Cursor.ofScript s)).kind = .none ∨
      (Request.parse lim (Cursor.ofScript s)).kind = .unsupported) :
    (r.form = .simple ↔ r.version = Version.v09) ∧ (r.form = .simple → r.method = .get) ∧
      (r.form = .full → r.version ≠ Version.v09) := by
  obtain ⟨hreq, herr, -⟩ := parse_eq_scan lim hs
  have hset : Settled (scanRequest T lim D).2.1 := by
    intro x hx
    rw [← herr] at hx
    simp only [Parsed.kind, hx, Option.map_some, Option.getD_some] at hk
    rcases hk with hk | hk
    · cases x <;> cases hk
    · exact hk
  obtain ⟨hiff, hget⟩ := scanRequest_formSound D r (hreq.symm.trans hr) hset
  refine ⟨hiff, hget, fun hfull hv => ?_⟩
  rw [← hiff, hfull] at hv
  cases hv

/-- `GET / HTTP/0.9` and an empty header section: a simple `GET` of version 0.9. -/
theorem parse_form_agrees_on_http09_line :
    (⟨[Reply.ofBytes (Bytes.ofString "GET / HTTP/0.9\r\n\r\n")], Reply.ofBytes []⟩ :
        Script).Yields (Bytes.ofString "GET / HTTP/0.9\r\n\r\n") .endOfStream ∧
    (Request.parse Limits.default (Cursor.ofScript
        ⟨[Reply.ofBytes (Bytes.ofString "GET / HTTP/0.9\r\n\r\n")], Reply.ofBytes []⟩)).request =
      some
        { method := .get, form := .simple, uri := Bytes.ofString "/index.html",
          version := Version.v09 } ∧
    ((Request.parse Limits.default (Cursor.ofScript
        ⟨[Reply.ofBytes (Bytes.ofString "GET / HTTP/0.9\r\n\r\n")], Reply.ofBytes []⟩)).kind =
        .none ∨
      (Request.parse Limits.default (Cursor.ofScript
        ⟨[Reply.ofBytes (Bytes.ofString "GET / HTTP/0.9\r\n\r\n")], Reply.ofBytes []⟩)).kind =
        .unsupported) ∧
    ((Form.simple = .simple ↔ Version.v09 = Version.v09) ∧
      (Form.simple = .simple → Method.get = .get) ∧
      (Form.simple = .full → Version.v09 ≠ Version.v09)) := by
  have hs := Script.yields_one_read (d := Bytes.ofString "GET / HTTP/0.9\r\n\r\n")
    (by decide +kernel) (by decide +kernel)
  have hr : (Request.parse Limits.default (Cursor.ofScript
      ⟨[Reply.ofBytes (Bytes.ofString "GET / HTTP/0.9\r\n\r\n")], Reply.ofBytes []⟩)).request =
      some
        { method := .get, form := .simple, uri := Bytes.ofString "/index.html",
          version := Version.v09 } := by decide +kernel
  have hk : (Request.parse Limits.default (Cursor.ofScript
      ⟨[Reply.ofBytes (Bytes.ofString "GET / HTTP/0.9\r\n\r\n")], Reply.ofBytes []⟩)).kind =
      .none := by decide +kernel
  exact ⟨hs, hr, Or.inl hk, parse_form_agrees_with_version Limits.default hs hr (Or.inl hk)⟩

/-- A request line with `HTTP/0.9` is simple, yet keeps the header line that follows it. -/
theorem parse_http09_line_keeps_headers :
    (Request.parse Limits.default (Cursor.ofScript
        ⟨[Reply.ofBytes (Bytes.ofString "GET / HTTP/0.9\r\nA: b\r\n\r\n")],
          Reply.ofBytes []⟩)).error = none ∧
    (Request.parse Limits.default (Cursor.ofScript
        ⟨[Reply.ofBytes (Bytes.ofString "GET / HTTP/0.9\r\nA: b\r\n\r\n")],
          Reply.ofBytes []⟩)).request =
      some
        { method := .get, form := .simple, uri := Bytes.ofString "/index.html",
          headers := [⟨Bytes.ofString "A", Bytes.ofString "b"⟩], version := Version.v09 } := by
  decide +kernel

end StaticHttp
