import StaticHttp.Proofs.Request.Examined

/-!
# A malformed request is final

The header lines and the rest of the request line fail finally as their pieces do. A header
line fails finally in one of its pieces or is read whole, after which the next line is read
however the bytes go on (`scanHeaders_line_final`), so the header lines fail finally
(`scanHeaders_final`). A request line reads the same up to its target over any bytes that go on
from there (`scanRequest_target`), so it fails finally at its method, at its target or after it
(`scanRequest_final`), as the rest of the line does (`scanEnding_final`, `scanAfterPath_final`).

With the request grammar (`scanRequest_append`) this gives `parse_malformed_is_final`: when the
reader rejects a stream as malformed, no request of the grammar, under any limits, begins with
the bytes it examined, so no bytes that could follow would have made a request of it.
-/

namespace StaticHttp

namespace Reading

open Transport Failing

section Pieces

variable {T : Stop}

section Headers

variable {lim : Limits}

/-- Skipping fails only when the bytes run out. -/
theorem scanSkip_error {p : Byte → Bool} {D D' : Bytes} {e : ParseError}
    (h : scanSkip T p D = (.error e, D')) : e = .transport T := by
  unfold scanSkip at h
  split at h <;> cases h
  rfl

/-- What a skip stops at is stopped at again over any bytes with the same first byte. -/
theorem scanSkip_steady {p : Byte → Bool} {D rest : Bytes} {x : Byte}
    (h : scanSkip T p D = (.ok x, rest)) :
    ∃ pre, D = pre ++ rest ∧ ∀ T' rest', rest'.head? = rest.head? →
      scanSkip T' p (pre ++ rest') = (.ok x, rest') := by
  obtain ⟨pre, R, rfl, hpre, rfl, hx⟩ := scanSkip_ok_split h
  refine ⟨pre, rfl, fun T' rest' hr => ?_⟩
  obtain ⟨R', rfl⟩ := List.head?_eq_some_iff.mp hr
  exact scanSkip_append hpre hx

/-- A line met when the count of lines has reached the limit fails. -/
theorem scanHeaders_full {b : Byte} {R : Bytes} {hs : List Field} (hcr : (b == cr) = false)
    (hlf : (b == lf) = false) (hc : (hs.length : Int) = lim.headers) :
    Failed (scanHeaders T lim hs (b :: R)) :=
  ⟨.oversized (.tooManyHeaders lim.headers), hs, b :: R, by
    rw [scanHeaders.eq_def]
    simp [hcr, hlf, hc]⟩

/-- A header line whose name was read is read up to the end of its name again, under any limits
and over any bytes with the same first byte after the name; or the count of lines meets the
limit, or the name fails. -/
theorem scanHeaders_name_or {b : Byte} {R D₁ name : Bytes} (hs : List Field)
    (hcr : (b == cr) = false) (hlf : (b == lf) = false)
    (hN : scanToken T lim.headerName .headerName false endsHeaderName 0 [] (b :: R) =
      (.ok name, D₁)) :
    ∃ preN, b :: R = preN ++ D₁ ∧ ∀ lim' T' R', R'.head? = D₁.head? →
      Failed (scanHeaders T' lim' hs (preN ++ R')) ∨
        ∃ R'', preN ++ R' = b :: R'' ∧ ((hs.length : Int) == lim'.headers) = false ∧
          scanToken T' lim'.headerName .headerName false endsHeaderName 0 [] (b :: R'') =
            (.ok name, R') := by
  obtain ⟨preN, hpreN, hsN⟩ := scanToken_steady hN
  refine ⟨preN, hpreN, fun lim' T' R' hR => ?_⟩
  obtain ⟨R'', hR''⟩ := eq_cons_of_head? hpreN hR
  by_cases hc : (hs.length : Int) = lim'.headers
  · exact .inl (by rw [hR'']; exact scanHeaders_full hcr hlf hc)
  rcases hsN.reads lim'.headerName T' R' hR with hN' | ⟨e, D', hN'⟩
  · exact .inr ⟨R'', hR'', beq_eq_false_iff_ne.mpr hc, by rw [← hR'', hN']⟩
  · refine .inl ⟨e, hs, D', ?_⟩
    rw [hR'', scanHeaders_line hs hcr hlf (beq_eq_false_iff_ne.mpr hc), ← hR'', hN']

/-- After its value, a header line read under one set of limits goes on as under any other, or
fails. -/
theorem scanHeaders_value_or {b x y d : Byte} {R D₂ D₃ D₄ name value : Bytes}
    (hs : List Field) (hcr : (b == cr) = false) (hlf : (b == lf) = false)
    (hN : scanToken T lim.headerName .headerName false endsHeaderName 0 [] (b :: R) =
      (.ok name, x :: D₂))
    (hne : name.isEmpty = false) (hx : (x != colon) = false)
    (hI : scanSkip T isIndent D₂ = (.ok y, D₃))
    (hV : scanToken T lim.headerValue .headerValue false endsHeaderValue 0 [] D₃ =
      (.ok value, d :: D₄)) :
    ∃ pre, b :: R = pre ++ d :: D₄ ∧ ∀ lim' T' R',
      scanHeaders T' lim' hs (pre ++ d :: R') =
          (if d == cr then
            match R' with
            | [] => (.error (.transport T'), hs ++ [⟨name, trimRight value⟩], [])
            | e :: D₅ =>
              if e != lf then
                (.error (.malformed (.unexpected lf e)), hs ++ [⟨name, trimRight value⟩], D₅)
              else scanHeaders T' lim' (hs ++ [⟨name, trimRight value⟩]) D₅
          else scanHeaders T' lim' (hs ++ [⟨name, trimRight value⟩]) R') ∨
        Failed (scanHeaders T' lim' hs (pre ++ d :: R')) := by
  obtain ⟨preN, hpreN, hname⟩ := scanHeaders_name_or hs hcr hlf hN
  obtain ⟨ind, rfl, hsI⟩ := scanSkip_steady hI
  obtain ⟨preV, rfl, hsV⟩ := scanToken_steady hV
  refine ⟨preN ++ x :: (ind ++ preV), by rw [hpreN]; simp, fun lim' T' R' => ?_⟩
  simp only [List.append_assoc, List.cons_append]
  rcases hname lim' T' (x :: (ind ++ (preV ++ d :: R'))) rfl with hF | ⟨R'', hR'', hc, hN'⟩
  · exact .inr hF
  rw [hR'', scanHeaders_line hs hcr hlf hc, hN']
  simp only [hne, hx, Bool.false_eq_true, if_false]
  rw [hsI T' (preV ++ d :: R') (head?_append_of_head? preV rfl)]
  dsimp only
  rcases hsV.reads lim'.headerValue T' (d :: R') rfl with hV' | ⟨e, D', hV'⟩
  · -- the statement's match on the bytes after the value is the reader's own, case by case
    exact .inl (by cases R' <;> simp only [hV'])
  · exact .inr ⟨e, hs, D', by rw [hV']⟩

/-! ### One header line

A header line fails finally in its name, in the byte after the name when the name is empty or no
colon follows it, in its value, or at a carriage return that no line feed follows. Otherwise it
is read whole as one field, and the reader goes on with the next line however the bytes after it
go on (`LineRead`). -/

/-- The header line `line` is read as the field `f` after the fields `hs`: over any bytes after
it and under any limits, the reader goes on to the next line with `f` added, or fails within the
line. -/
def LineRead (hs : List Field) (f : Field) (line : Bytes) : Prop :=
  ∀ lim' T' R', scanHeaders T' lim' hs (line ++ R') = scanHeaders T' lim' (hs ++ [f]) R' ∨
    Failed (scanHeaders T' lim' hs (line ++ R'))

/-- A failure that is final after a line read whole is final from the start of that line. -/
theorem LineRead.final {hs : List Field} {f : Field} {line pre rest : Bytes} {c : Malformed}
    (hl : LineRead hs f line)
    (hf : FinalAt (fun lim T D => scanHeaders T lim (hs ++ [f]) D) pre rest c) :
    FinalAt (fun lim T D => scanHeaders T lim hs D) (line ++ pre) rest c :=
  hf.after fun lim' T' rest' _ hfails => by
    rcases hl lim' T' (pre ++ rest') with hq | hq
    · rw [hq]
      exact hfails lim'
    · exact hq

/-- An empty line whose carriage return is followed by a byte other than a line feed fails at
that byte. -/
theorem scanHeaders_blank_final {hs fs : List Field} {R rest : Bytes} {c : Malformed}
    (h : scanHeaders T lim hs (cr :: R) = (.error (.malformed c), fs, rest)) :
    ∃ pre, cr :: R = pre ++ rest ∧ FinalAt (fun lim T D => scanHeaders T lim hs D) pre rest c := by
  rw [scanHeaders.eq_def] at h
  rcases R with _ | ⟨x, R⟩
  · cases h
  by_cases hx : x = lf
  · subst hx
    simp at h
  simp only [beq_self_eq_true, if_true, bne_iff_ne, ne_eq, hx, not_false_eq_true,
    Prod.mk.injEq, Except.error.injEq, ParseError.malformed.injEq] at h
  obtain ⟨rfl, -, rfl⟩ := h
  exact ⟨[cr, x], rfl, FinalAt.taken (by simp) rfl fun lim' T' rest' =>
    ⟨.malformed (.unexpected lf x), hs, rest', by rw [scanHeaders.eq_def]; simp [hx]⟩⟩

section HeaderLine

variable {b : Byte} {R : Bytes} (hs : List Field) (hcr : (b == cr) = false)
  (hlf : (b == lf) = false)

include hcr hlf

/-- A header name that fails fails the line. -/
theorem scanHeaders_name_final {rest : Bytes} {c : Malformed}
    (hN : scanToken T lim.headerName .headerName false endsHeaderName 0 [] (b :: R) =
      (.error (.malformed c), rest)) :
    ∃ pre, b :: R = pre ++ rest ∧ FinalAt (fun lim T D => scanHeaders T lim hs D) pre rest c := by
  obtain ⟨pre, hpre, hf⟩ := scanToken_final lim.headerName .headerName 0 [] (b :: R) _ _ hN
  refine ⟨pre, hpre, hf.map fun lim' T' rest' hd hfails => ?_⟩
  obtain ⟨R', hR'⟩ := exists_cons_of_head? hpre hd
  rw [hR']
  -- under other limits the count of lines may be met first, which fails the line as well
  by_cases hc' : (hs.length : Int) = lim'.headers
  · exact scanHeaders_full hcr hlf hc'
  rw [scanHeaders_line hs hcr hlf (beq_eq_false_iff_ne.mpr hc'), ← hR']
  obtain ⟨e', D', he⟩ := hfails lim'.headerName
  exact ⟨e', hs, D', by rw [he]⟩

/-- An empty header name is found at the byte that ends it. -/
theorem scanHeaders_emptyName_final {D₁ name : Bytes}
    (hN : scanToken T lim.headerName .headerName false endsHeaderName 0 [] (b :: R) =
      (.ok name, D₁))
    (hne : name.isEmpty = true) :
    ∃ pre, b :: R = pre ++ D₁ ∧
      FinalAt (fun lim T D => scanHeaders T lim hs D) pre D₁ .emptyHeaderName := by
  obtain ⟨preN, hpreN, hname⟩ := scanHeaders_name_or hs hcr hlf hN
  obtain ⟨-, -, -, -, hend, -, -⟩ := scanToken_ok_split 0 [] _ _ _ hN
  obtain ⟨x, D₂, rfl⟩ := List.exists_cons_of_ne_nil hend.ne_nil
  refine ⟨preN, hpreN, FinalAt.lookingAt rfl fun lim' T' R' => ?_⟩
  rcases hname lim' T' (x :: R') rfl with hF | ⟨R'', hR'', hc', hN'⟩
  · exact hF
  refine ⟨.malformed .emptyHeaderName, hs, x :: R', ?_⟩
  rw [hR'', scanHeaders_line hs hcr hlf hc', hN']
  simp [hne]

/-- A header name followed by a byte other than a colon fails at that byte. -/
theorem scanHeaders_noColon_final {x : Byte} {D₂ name : Bytes}
    (hN : scanToken T lim.headerName .headerName false endsHeaderName 0 [] (b :: R) =
      (.ok name, x :: D₂))
    (hne : name.isEmpty = false) (hx : (x != colon) = true) :
    ∃ pre, b :: R = pre ++ D₂ ∧
      FinalAt (fun lim T D => scanHeaders T lim hs D) pre D₂ (.unexpected colon x) := by
  obtain ⟨preN, hpreN, hname⟩ := scanHeaders_name_or hs hcr hlf hN
  refine ⟨preN ++ [x], by rw [hpreN]; simp,
    FinalAt.taken (by simp) rfl fun lim' T' rest' => ?_⟩
  rw [List.append_assoc, List.singleton_append]
  rcases hname lim' T' (x :: rest') rfl with hF | ⟨R'', hR'', hc', hN'⟩
  · exact hF
  refine ⟨.malformed (.unexpected colon x), hs, rest', ?_⟩
  rw [hR'', scanHeaders_line hs hcr hlf hc', hN']
  simp [hne, hx]

section Value

variable {x y : Byte} {D₂ D₃ name : Bytes}
  (hN : scanToken T lim.headerName .headerName false endsHeaderName 0 [] (b :: R) =
    (.ok name, x :: D₂))
  (hne : name.isEmpty = false) (hx : (x != colon) = false)
  (hI : scanSkip T isIndent D₂ = (.ok y, D₃))

include hN hne hx hI

/-- A header value that fails fails the line. -/
theorem scanHeaders_value_final {rest : Bytes} {c : Malformed}
    (hV : scanToken T lim.headerValue .headerValue false endsHeaderValue 0 [] D₃ =
      (.error (.malformed c), rest)) :
    ∃ pre, b :: R = pre ++ rest ∧ FinalAt (fun lim T D => scanHeaders T lim hs D) pre rest c := by
  obtain ⟨preN, hpreN, hname⟩ := scanHeaders_name_or hs hcr hlf hN
  obtain ⟨ind, rfl, hsI⟩ := scanSkip_steady hI
  obtain ⟨preV, rfl, hf⟩ := scanToken_final lim.headerValue .headerValue 0 [] _ _ _ hV
  refine ⟨preN ++ x :: (ind ++ preV), by rw [hpreN]; simp,
    ⟨.inl (by simp), hf.peeked, fun lim' T' rest' hr => ?_⟩⟩
  simp only [List.append_assoc, List.cons_append]
  rcases hname lim' T' (x :: (ind ++ (preV ++ rest'))) rfl with hF | ⟨R'', hR'', hc', hN'⟩
  · exact hF
  obtain ⟨e', D', hV'⟩ := hf.fails lim'.headerValue T' rest' hr
  refine ⟨e', hs, D', ?_⟩
  rw [hR'', scanHeaders_line hs hcr hlf hc', hN']
  simp only [hne, hx, Bool.false_eq_true, if_false]
  rw [hsI T' (preV ++ rest') (hf.head hr)]
  dsimp only
  rw [hV']

/-- A value ended by a byte other than a carriage return ends the line there. -/
theorem scanHeaders_lf_read {d : Byte} {D₄ value : Bytes}
    (hV : scanToken T lim.headerValue .headerValue false endsHeaderValue 0 [] D₃ =
      (.ok value, d :: D₄))
    (hd : (d == cr) = false) :
    ∃ line, b :: R = line ++ D₄ ∧ line ≠ [] ∧ LineRead hs ⟨name, trimRight value⟩ line := by
  obtain ⟨pre, hpre, hcont⟩ := scanHeaders_value_or hs hcr hlf hN hne hx hI hV
  refine ⟨pre ++ [d], by rw [hpre]; simp, by simp, fun lim' T' R' => ?_⟩
  rw [List.append_assoc, List.singleton_append]
  rcases hcont lim' T' R' with hq | hq
  · exact .inl (by rw [hq, hd]; simp only [Bool.false_eq_true, if_false])
  · exact .inr hq

/-- A value ended by a carriage return and a line feed ends the line after them. -/
theorem scanHeaders_crlf_read {D₅ value : Bytes}
    (hV : scanToken T lim.headerValue .headerValue false endsHeaderValue 0 [] D₃ =
      (.ok value, cr :: lf :: D₅)) :
    ∃ line, b :: R = line ++ D₅ ∧ line ≠ [] ∧ LineRead hs ⟨name, trimRight value⟩ line := by
  obtain ⟨pre, hpre, hcont⟩ := scanHeaders_value_or hs hcr hlf hN hne hx hI hV
  refine ⟨pre ++ [cr, lf], by rw [hpre]; simp, by simp, fun lim' T' R' => ?_⟩
  rw [List.append_assoc, List.cons_append, List.cons_append, List.nil_append]
  rcases hcont lim' T' (lf :: R') with hq | hq
  · exact .inl (by rw [hq]; simp)
  · exact .inr hq

/-- A carriage return after a value that no line feed follows fails at the byte after it. -/
theorem scanHeaders_bareCr_final {e : Byte} {D₅ value : Bytes}
    (hV : scanToken T lim.headerValue .headerValue false endsHeaderValue 0 [] D₃ =
      (.ok value, cr :: e :: D₅))
    (he : (e != lf) = true) :
    ∃ pre, b :: R = pre ++ D₅ ∧
      FinalAt (fun lim T D => scanHeaders T lim hs D) pre D₅ (.unexpected lf e) := by
  obtain ⟨pre, hpre, hcont⟩ := scanHeaders_value_or hs hcr hlf hN hne hx hI hV
  refine ⟨pre ++ [cr, e], by rw [hpre]; simp, FinalAt.taken (by simp) rfl
    fun lim' T' rest' => ?_⟩
  rw [List.append_assoc, List.cons_append, List.cons_append, List.nil_append]
  rcases hcont lim' T' (e :: rest') with hq | hq
  · exact ⟨.malformed (.unexpected lf e), hs ++ [⟨name, trimRight value⟩], rest', by
      rw [hq]
      simp [he]⟩
  · exact hq

end Value

/-- **A header line fails finally or is read whole.** A line that fails with a malformed request
fails finally within it, or is read whole as a field after which a later line fails. -/
theorem scanHeaders_line_final {fs : List Field} {rest : Bytes} {c : Malformed}
    (hc : ((hs.length : Int) == lim.headers) = false)
    (h : scanHeaders T lim hs (b :: R) = (.error (.malformed c), fs, rest)) :
    (∃ pre, b :: R = pre ++ rest ∧
      FinalAt (fun lim T D => scanHeaders T lim hs D) pre rest c) ∨
    ∃ f line R', b :: R = line ++ R' ∧ R'.length < R.length + 1 ∧
      scanHeaders T lim (hs ++ [f]) R' = (.error (.malformed c), fs, rest) ∧ LineRead hs f line := by
  -- a line read whole leaves fewer bytes than there were
  have hshorter : ∀ {line R'}, b :: R = line ++ R' → line ≠ [] → R'.length < R.length + 1 := by
    intro line R' hline hne
    have hsum := congrArg List.length hline
    have hpos := List.length_pos_iff.mpr hne
    simp only [List.length_append, List.length_cons] at hsum
    omega
  rw [scanHeaders_line hs hcr hlf hc] at h
  rcases hN : scanToken T lim.headerName .headerName false endsHeaderName 0 [] (b :: R) with
    ⟨e | name, D₁⟩ <;> rw [hN] at h
  · cases h
    exact .inl (scanHeaders_name_final hs hcr hlf hN)
  dsimp only at h
  cases hne : name.isEmpty
  case true =>
    simp only [hne, if_true, Prod.mk.injEq, Except.error.injEq,
      ParseError.malformed.injEq] at h
    obtain ⟨rfl, -, rfl⟩ := h
    exact .inl (scanHeaders_emptyName_final hs hcr hlf hN hne)
  simp only [hne, Bool.false_eq_true, if_false] at h
  rcases D₁ with _ | ⟨x, D₂⟩
  · cases h
  dsimp only at h
  cases hx : x != colon
  case true =>
    simp only [hx, if_true, Prod.mk.injEq, Except.error.injEq,
      ParseError.malformed.injEq] at h
    obtain ⟨rfl, -, rfl⟩ := h
    exact .inl (scanHeaders_noColon_final hs hcr hlf hN hne hx)
  simp only [hx, Bool.false_eq_true, if_false] at h
  rcases hI : scanSkip T isIndent D₂ with ⟨e | y, D₃⟩ <;> rw [hI] at h
  · cases h
    cases scanSkip_error hI
  dsimp only at h
  rcases hV : scanToken T lim.headerValue .headerValue false endsHeaderValue 0 [] D₃ with
    ⟨e | value, D₄⟩ <;> rw [hV] at h
  · cases h
    exact .inl (scanHeaders_value_final hs hcr hlf hN hne hx hI hV)
  rcases D₄ with _ | ⟨d, D₄⟩
  · cases h
  dsimp only at h
  split at h
  · next hd =>
    obtain rfl : d = cr := beq_iff_eq.mp hd
    rcases D₄ with _ | ⟨e, D₅⟩
    · cases h
    dsimp only at h
    split at h
    · next he =>
      simp only [Prod.mk.injEq, Except.error.injEq, ParseError.malformed.injEq] at h
      obtain ⟨rfl, -, rfl⟩ := h
      exact .inl (scanHeaders_bareCr_final hs hcr hlf hN hne hx hI hV he)
    · next he =>
      obtain rfl : e = lf := by simpa using he
      obtain ⟨line, hline, hne', hread⟩ := scanHeaders_crlf_read hs hcr hlf hN hne hx hI hV
      exact .inr ⟨_, line, D₅, hline, hshorter hline hne', h, hread⟩
  · next hd =>
    obtain ⟨line, hline, hne', hread⟩ :=
      scanHeaders_lf_read hs hcr hlf hN hne hx hI hV (by simpa using hd)
    exact .inr ⟨_, line, D₄, hline, hshorter hline hne', h, hread⟩

end HeaderLine

/-- Header lines fail finally: a malformed line is found in the bytes of its line examined, and
every line before it is read under any limits as it was, or the count of lines meets the limit
first. -/
theorem scanHeaders_final {hs fs : List Field} {D rest : Bytes} {c : Malformed}
    (h : scanHeaders T lim hs D = (.error (.malformed c), fs, rest)) :
    ∃ pre, D = pre ++ rest ∧ FinalAt (fun lim T D => scanHeaders T lim hs D) pre rest c := by
  match D with
  | [] =>
    rw [scanHeaders.eq_def] at h
    cases h
  | b :: R =>
    by_cases hcr : b = cr
    · subst hcr
      exact scanHeaders_blank_final h
    by_cases hlf : b = lf
    · subst hlf
      rw [scanHeaders.eq_def] at h
      simp [hcr] at h
    have hcr' := beq_eq_false_iff_ne.mpr hcr
    have hlf' := beq_eq_false_iff_ne.mpr hlf
    by_cases hc : (hs.length : Int) = lim.headers
    · rw [scanHeaders.eq_def] at h
      simp [hcr', hlf', hc] at h
    rcases scanHeaders_line_final hs hcr' hlf' (beq_eq_false_iff_ne.mpr hc) h with
      hfin | ⟨f, line, R', hline, hlen, h', hread⟩
    · exact hfin
    -- the line is read whole, and a later line fails
    obtain ⟨pre, rfl, hf⟩ := scanHeaders_final h'
    exact ⟨line ++ pre, by rw [hline, List.append_assoc], hread.final hf⟩
termination_by D.length
decreasing_by
  simp only [List.length_cons]
  exact hlen

end Headers

section Line

variable {lim : Limits} {m : Method}

/-- A header section fails with its header lines. -/
theorem scanHeaderSection_final {r : Request} {D rest : Bytes} {q : Option Request}
    {c : Malformed} (h : scanHeaderSection T lim m r D = (q, some (.malformed c), rest)) :
    ∃ pre, D = pre ++ rest ∧
      FinalAt (fun lim T D => scanHeaderSection T lim m r D) pre rest c := by
  unfold scanHeaderSection at h
  rcases hH : scanHeaders T lim r.headers D with ⟨res, hs, D₁⟩
  rw [hH] at h
  rcases res with e | u
  · simp only [Prod.mk.injEq, Option.some.injEq] at h
    obtain ⟨-, rfl, rfl⟩ := h
    obtain ⟨pre, hpre, hf⟩ := scanHeaders_final hH
    refine ⟨pre, hpre, hf.map fun lim' T' rest' _ hfails => ?_⟩
    obtain ⟨e', fs, D', he⟩ := hfails lim'
    exact ⟨e', by rw [scanHeaderSection, he]⟩
  · -- a method the server does not implement is no malformed request
    dsimp only at h
    split at h <;> simp at h

/-- **The rest of a request line reads the same up to the end of its version.** A version read,
and the blanks after it read up to the byte `ch₂`, are read the same over any bytes that go on
from `ch₂`, under any limits. Then a byte other than a line feed fails the line there, an old
version fails it for a method other than GET, and otherwise the header section of one request
`r'` follows. -/
theorem scanEnding_version {r : Request} {D D₁ D₂ D₃ : Bytes} {ch ch₂ : Byte} {v : Version}
    (hS : scanSkip T inLine D = (.ok ch, D₁)) (hlf : (ch == lf) = false)
    (hv : scanVersion T D₁ = (.ok v, D₂)) (hS₂ : scanSkip T inLine D₂ = (.ok ch₂, D₃)) :
    ∃ pre R₃ r', D = pre ++ ch₂ :: R₃ ∧ D₃ = ch₂ :: R₃ ∧ ∀ lim' T' R',
      ((ch₂ != lf) = true → scanEnding T' lim' m r (pre ++ ch₂ :: R') =
        (some { r with version := v }, some (.malformed (.afterVersion ch₂)), ch₂ :: R')) ∧
      ((ch₂ != lf) = false → (v == Version.v09 && m != .get) = true →
        scanEnding T' lim' m r (pre ++ ch₂ :: R') =
          (some r', some (.malformed (.oldVersionNotGet m)), R')) ∧
      ((ch₂ != lf) = false → (v == Version.v09 && m != .get) = false →
        scanEnding T' lim' m r (pre ++ ch₂ :: R') = scanHeaderSection T' lim' m r' R') := by
  obtain ⟨preS, rfl, hsS⟩ := scanSkip_steady hS
  obtain ⟨R₁, rfl⟩ := scanSkip_ok hS
  obtain ⟨preV, hpreV, hsV⟩ := scanVersion_steady hv
  obtain ⟨preS₂, rfl, hsS₂⟩ := scanSkip_steady hS₂
  obtain ⟨R₃, rfl⟩ := scanSkip_ok hS₂
  refine ⟨preS ++ (preV ++ preS₂), R₃,
    if v == Version.v09 then { r with version := v, form := .simple } else { r with version := v },
    by rw [hpreV]; simp, rfl, fun lim' T' R' => ?_⟩
  -- over any bytes that start as these do, the version and the blanks after it read the same
  have hd : (preS₂ ++ ch₂ :: R').head? = (preS₂ ++ ch₂ :: R₃).head? :=
    head?_append_of_head? preS₂ rfl
  obtain ⟨R'', hR''⟩ := eq_cons_of_head? hpreV hd
  have h₁ := hsS T' (ch :: R'') rfl
  have h₂ : scanVersion T' (ch :: R'') = (.ok v, preS₂ ++ ch₂ :: R') := by rw [← hR'', hsV T' _ hd]
  have h₃ := hsS₂ T' (ch₂ :: R') rfl
  simp only [List.append_assoc]
  rw [hR'']
  refine ⟨fun hch₂ => ?_, fun hch₂ h09 => ?_, fun hch₂ h09 => ?_⟩ <;>
    simp only [scanEnding, h₁, hlf, h₂, h₃, Bool.false_eq_true, if_false]
  · simp [hch₂]
  · simp [hch₂, apply_ite Request.version, h09]
  · simp [hch₂, apply_ite Request.version, h09]

/-- The rest of a request line fails at a simple request that is no GET, at a version, at a
byte after the version, at an old version that is no GET, or in the header section. -/
theorem scanEnding_final {r : Request} {D rest : Bytes} {q : Option Request} {c : Malformed}
    (h : scanEnding T lim m r D = (q, some (.malformed c), rest)) :
    ∃ pre, D = pre ++ rest ∧ FinalAt (fun lim T D => scanEnding T lim m r D) pre rest c := by
  rcases hS : scanSkip T inLine D with ⟨e | ch, D₁⟩
  · cases scanSkip_error hS
    simp [scanEnding, hS] at h
  obtain ⟨preS, hD, hsS⟩ := scanSkip_steady hS
  obtain ⟨R₁, rfl⟩ := scanSkip_ok hS
  cases hlf : ch == lf
  case true =>
    -- a line feed ends a simple request, which must be a GET
    simp only [scanEnding, hS, hlf, if_true] at h
    by_cases hm : (m != .get) = true
    · simp only [hm, if_true, Prod.mk.injEq, Option.some.injEq, ParseError.malformed.injEq,
        List.tail_cons] at h
      obtain ⟨-, rfl, rfl⟩ := h
      refine ⟨preS ++ [ch], by rw [hD]; simp, FinalAt.taken (by simp) rfl fun lim' T' rest' =>
        ⟨.malformed (.simpleNotGet m), ?_⟩⟩
      rw [List.append_assoc, List.singleton_append, scanEnding, hsS T' (ch :: rest') rfl]
      simp [hlf, hm]
    · simp [hm] at h
  rcases hv : scanVersion T (ch :: R₁) with ⟨e | v, D₂⟩
  · -- the version fails
    simp only [scanEnding, hS, hlf, hv, Bool.false_eq_true, if_false, Prod.mk.injEq,
      Option.some.injEq] at h
    obtain ⟨-, rfl, rfl⟩ := h
    obtain ⟨pre, hpre, hf⟩ := scanVersion_final hv
    refine ⟨preS ++ pre, by rw [hD, hpre, List.append_assoc],
      hf.after fun lim' T' rest' hr hfails => ?_⟩
    obtain ⟨R', hR'⟩ := exists_cons_of_head? hpre hr
    obtain ⟨e', D', hv'⟩ := hfails ()
    refine ⟨e', ?_⟩
    rw [hR', scanEnding, hsS T' (ch :: R') rfl]
    dsimp only
    rw [hlf, ← hR', hv']
    rfl
  rcases hS₂ : scanSkip T inLine D₂ with ⟨e | ch₂, D₃⟩
  · cases scanSkip_error hS₂
    simp [scanEnding, hS, hlf, hv, hS₂] at h
  obtain ⟨pre, R₃, r', rfl, rfl, hcases⟩ := scanEnding_version hS hlf hv hS₂
  cases hch₂ : ch₂ != lf
  case true =>
    -- a byte other than a line feed after the version
    rw [(hcases lim T R₃).1 hch₂] at h
    simp only [Prod.mk.injEq, Option.some.injEq, ParseError.malformed.injEq] at h
    obtain ⟨-, rfl, rfl⟩ := h
    exact ⟨pre, rfl, FinalAt.lookingAt rfl fun lim' T' R' =>
      ⟨_, by rw [(hcases lim' T' R').1 hch₂]⟩⟩
  cases h09 : (v == Version.v09 && m != .get)
  case true =>
    -- an old version, for a method other than GET
    rw [(hcases lim T R₃).2.1 hch₂ h09] at h
    simp only [Prod.mk.injEq, Option.some.injEq, ParseError.malformed.injEq] at h
    obtain ⟨-, rfl, rfl⟩ := h
    refine ⟨pre ++ [ch₂], by simp, FinalAt.taken (by simp) rfl fun lim' T' R' =>
      ⟨.malformed (.oldVersionNotGet m), ?_⟩⟩
    rw [List.append_assoc, List.singleton_append, (hcases lim' T' R').2.1 hch₂ h09]
  -- the header section fails
  rw [(hcases lim T R₃).2.2 hch₂ h09] at h
  obtain ⟨preH, rfl, hf⟩ := scanHeaderSection_final h
  refine ⟨pre ++ [ch₂] ++ preH, by simp, hf.after fun lim' T' rest' _ hfails => ?_⟩
  rw [List.append_assoc, List.singleton_append, (hcases lim' T' (preH ++ rest')).2.2 hch₂ h09]
  exact hfails lim'

/-- The part of a request line after the path and the query fails in its fragment or in the rest
of the line. -/
theorem scanAfterQuery_final {r : Request} {D rest : Bytes} {q : Option Request} {c : Malformed}
    (h : scanAfterQuery T lim m r D = (q, some (.malformed c), rest)) :
    ∃ pre, D = pre ++ rest ∧
      FinalAt (fun lim T D => scanAfterQuery T lim m r D) pre rest c := by
  rcases D with _ | ⟨ch, D'⟩
  · simp [scanAfterQuery] at h
  by_cases hh : (ch == hash) = true
  case neg =>
    -- no fragment: the rest of the line is read from this byte
    simp only [scanAfterQuery, hh, Bool.false_eq_true, if_false] at h
    obtain ⟨pre, hpre, hf⟩ := scanEnding_final h
    refine ⟨pre, hpre, hf.map fun lim' T' rest' hr hfails => ?_⟩
    obtain ⟨R', hR'⟩ := exists_cons_of_head? hpre hr
    obtain ⟨e', he⟩ := hfails lim'
    refine ⟨e', ?_⟩
    rw [hR', scanAfterQuery, if_neg hh, ← hR', he]
  simp only [scanAfterQuery, hh, if_true] at h
  rcases hF : scanToken T lim.fragment .fragment true Byte.isBlank 0 [] D' with
    ⟨e | f, D₁⟩ <;> rw [hF] at h
  · -- the fragment fails
    simp only [Prod.mk.injEq, Option.some.injEq] at h
    obtain ⟨-, rfl, rfl⟩ := h
    obtain ⟨pre, rfl, hf⟩ := scanToken_final lim.fragment .fragment 0 [] D' _ _ hF
    refine ⟨[ch] ++ pre, rfl, hf.after fun lim' T' rest' _ hfails => ?_⟩
    obtain ⟨e', D'', he⟩ := hfails lim'.fragment
    exact ⟨e', by rw [List.singleton_append, scanAfterQuery, if_pos hh, he]⟩
  -- the fragment is read, and the rest of the line fails
  obtain ⟨preF, rfl, hsF⟩ := scanToken_steady hF
  obtain ⟨pre, rfl, hf⟩ := scanEnding_final h
  refine ⟨[ch] ++ preF ++ pre, by simp, hf.after fun lim' T' rest' hr hfails => ?_⟩
  rw [List.singleton_append, List.cons_append, scanAfterQuery, if_pos hh]
  rcases hsF.reads lim'.fragment T' (pre ++ rest') hr with hF' | ⟨e', D'', hF'⟩
  · rw [hF']
    exact hfails lim'
  · exact ⟨e', by rw [hF']⟩

/-- The part of a request line after the path fails in its query, its fragment, or the rest of
the line. -/
theorem scanAfterPath_final {r : Request} {D rest : Bytes} {q : Option Request} {c : Malformed}
    (h : scanAfterPath T lim m r D = (q, some (.malformed c), rest)) :
    ∃ pre, D = pre ++ rest ∧ FinalAt (fun lim T D => scanAfterPath T lim m r D) pre rest c := by
  rcases D with _ | ⟨ch, D'⟩
  · simp [scanAfterPath] at h
  by_cases hq : (ch == question) = true
  case neg =>
    -- no query
    simp only [scanAfterPath, hq, Bool.false_eq_true, if_false] at h
    obtain ⟨pre, hpre, hf⟩ := scanAfterQuery_final h
    refine ⟨pre, hpre, hf.map fun lim' T' rest' hr hfails => ?_⟩
    obtain ⟨R', hR'⟩ := exists_cons_of_head? hpre hr
    obtain ⟨e', he⟩ := hfails lim'
    refine ⟨e', ?_⟩
    rw [hR', scanAfterPath, if_neg hq, ← hR', he]
  simp only [scanAfterPath, hq, if_true] at h
  rcases hQ : scanQuery T lim r.query D' with ⟨e | u, vars, D₁⟩ <;> rw [hQ] at h
  · -- the query fails
    simp only [Prod.mk.injEq, Option.some.injEq] at h
    obtain ⟨-, rfl, rfl⟩ := h
    obtain ⟨pre, rfl, hf⟩ := scanQuery_final r.query D' hQ
    refine ⟨[ch] ++ pre, rfl, hf.after fun lim' T' rest' _ hfails => ?_⟩
    obtain ⟨e', fs, D'', he⟩ := hfails lim'
    exact ⟨e', by rw [List.singleton_append, scanAfterPath, if_pos hq, he]⟩
  -- the query is read, and what follows it fails
  obtain ⟨preQ, rfl, hsQ⟩ := scanQuery_steady hQ
  dsimp only at h
  obtain ⟨pre, rfl, hf⟩ := scanAfterQuery_final h
  refine ⟨[ch] ++ preQ ++ pre, by simp, hf.after fun lim' T' rest' hr hfails => ?_⟩
  rw [List.singleton_append, List.cons_append, scanAfterPath, if_pos hq]
  rcases hsQ lim' T' (pre ++ rest') hr with hQ' | ⟨e', fs, D'', hQ'⟩
  · rw [hQ']
    exact hfails lim'
  · exact ⟨e', by rw [hQ']⟩

/-! ### The start of a request line -/

/-- Blanks and a method token read are read again over any bytes that go on from the token as
these did. -/
theorem blanks_method_steady {D D₁ D₂ tok : Bytes} {b : Byte}
    (hS : scanSkip T Byte.isBlank D = (.ok b, D₁))
    (hM : scanMethod T Method.maxNameLength [] D₁ = (.ok tok, D₂)) :
    ∃ preS raw, D = preS ++ (raw ++ D₂) ∧ ∀ T' R', R'.head? = D₂.head? →
      scanSkip T' Byte.isBlank (preS ++ (raw ++ R')) = (.ok b, raw ++ R') ∧
        scanMethod T' Method.maxNameLength [] (raw ++ R') = (.ok tok, R') := by
  obtain ⟨preS, rfl, hsS⟩ := scanSkip_steady hS
  obtain ⟨R₁, rfl⟩ := scanSkip_ok hS
  obtain ⟨raw, hraw, hsM⟩ := scanMethod_steady hM
  refine ⟨preS, raw, by rw [hraw], fun T' R' hR => ?_⟩
  obtain ⟨R'', hR''⟩ := eq_cons_of_head? hraw hR
  exact ⟨by rw [hR'', hsS T' (b :: R'') rfl], hsM T' R' hR⟩

/-- A method token that runs on fails the request. -/
theorem scanRequest_method_final {D D₁ rest : Bytes} {b : Byte} {c : Malformed}
    (hS : scanSkip T Byte.isBlank D = (.ok b, D₁))
    (hM : scanMethod T Method.maxNameLength [] D₁ = (.error (.malformed c), rest)) :
    ∃ pre, D = pre ++ rest ∧ FinalAt (fun lim T D => scanRequest T lim D) pre rest c := by
  obtain ⟨preS, rfl, hsS⟩ := scanSkip_steady hS
  obtain ⟨R₁, rfl⟩ := scanSkip_ok hS
  obtain ⟨pre, hpre, hf⟩ := scanMethod_final _ [] (b :: R₁) _ c hM
  refine ⟨preS ++ pre, by rw [hpre, List.append_assoc],
    hf.after fun lim' T' rest' hr hfails => ?_⟩
  obtain ⟨R', hR'⟩ := exists_cons_of_head? hpre hr
  obtain ⟨e', D', he⟩ := hfails ()
  refine ⟨e', ?_⟩
  rw [hR', scanRequest, hsS T' (b :: R') rfl]
  dsimp only
  rw [← hR', he]

/-- A method token that names no method is found at the blank after it. -/
theorem scanRequest_unknown_final {D D₁ D₂ tok : Bytes} {b : Byte}
    (hS : scanSkip T Byte.isBlank D = (.ok b, D₁))
    (hM : scanMethod T Method.maxNameLength [] D₁ = (.ok tok, D₂))
    (hm : matchMethod tok = none) :
    ∃ pre, D = pre ++ D₂ ∧
      FinalAt (fun lim T D => scanRequest T lim D) pre D₂ (.unknownMethod tok) := by
  obtain ⟨preS, raw, rfl, hstart⟩ := blanks_method_steady hS hM
  obtain ⟨-, -, -, -, hend, -⟩ := scanMethod_ok_split _ _ _ _ _ hM
  obtain ⟨x, D₃, rfl⟩ := List.exists_cons_of_ne_nil hend.ne_nil
  refine ⟨preS ++ raw, by rw [List.append_assoc], FinalAt.lookingAt rfl fun lim' T' R' =>
    ⟨.malformed (.unknownMethod tok), ?_⟩⟩
  obtain ⟨h₁, h₂⟩ := hstart T' (x :: R') rfl
  simp only [List.append_assoc, scanRequest, h₁, h₂, hm]

/-- **A request line reads the same up to its target.** Blanks, a method token naming `m` and
the blanks after it, read up to the target's first byte `ch`, are read the same over any bytes
that go on from `ch`, under any limits: a line feed there is a missing target, and otherwise
the request is what the path gives. -/
theorem scanRequest_target {D D₁ D₂ D₃ tok : Bytes} {b ch : Byte}
    (hS : scanSkip T Byte.isBlank D = (.ok b, D₁))
    (hM : scanMethod T Method.maxNameLength [] D₁ = (.ok tok, D₂))
    (hm : matchMethod tok = some m) (hS₂ : scanSkip T inLine D₂ = (.ok ch, D₃)) :
    ∃ pre R₃, D = pre ++ ch :: R₃ ∧ D₃ = ch :: R₃ ∧ ∀ lim' T' R',
      (ch = lf → scanRequest T' lim' (pre ++ ch :: R') =
        (some { method := m }, some (.malformed (.missingUri m)), ch :: R')) ∧
      (ch ≠ lf → ∀ e D', scanPath T' lim' (ch :: R') = (.error e, D') →
        scanRequest T' lim' (pre ++ ch :: R') = (some { method := m }, some e, D')) ∧
      (ch ≠ lf → ∀ p D', scanPath T' lim' (ch :: R') = (.ok p, D') →
        scanRequest T' lim' (pre ++ ch :: R') =
          scanAfterPath T' lim' m { method := m, uri := p } D') := by
  obtain ⟨preS, raw, rfl, hstart⟩ := blanks_method_steady hS hM
  obtain ⟨preS₂, rfl, hsS₂⟩ := scanSkip_steady hS₂
  obtain ⟨R₃, rfl⟩ := scanSkip_ok hS₂
  refine ⟨preS ++ (raw ++ preS₂), R₃, by simp, rfl, fun lim' T' R' => ?_⟩
  obtain ⟨h₁, h₂⟩ := hstart T' (preS₂ ++ ch :: R') (head?_append_of_head? preS₂ rfl)
  have h₃ := hsS₂ T' (ch :: R') rfl
  simp only [List.append_assoc]
  refine ⟨fun hlf => ?_, fun hlf e D' hP => ?_, fun hlf p D' hP => ?_⟩ <;>
    simp only [scanRequest, h₁, h₂, hm, h₃]
  · simp [hlf]
  · simp [hlf, hP]
  · simp [hlf, hP]

/-- A whole request fails at an over-long or unknown method, at a line feed where the target
should start, or in the target or the rest of the line. -/
theorem scanRequest_final {D rest : Bytes} {q : Option Request} {c : Malformed}
    (h : scanRequest T lim D = (q, some (.malformed c), rest)) :
    ∃ pre, D = pre ++ rest ∧ FinalAt (fun lim T D => scanRequest T lim D) pre rest c := by
  rcases hS : scanSkip T Byte.isBlank D with ⟨e | b, D₁⟩
  · cases scanSkip_error hS
    simp [scanRequest, hS] at h
  rcases hM : scanMethod T Method.maxNameLength [] D₁ with ⟨e | tok, D₂⟩
  · -- the method runs on
    simp only [scanRequest, hS, hM, Prod.mk.injEq, Option.some.injEq] at h
    obtain ⟨-, rfl, rfl⟩ := h
    exact scanRequest_method_final hS hM
  rcases hm : matchMethod tok with _ | m
  · -- the token names no method
    simp only [scanRequest, hS, hM, hm, Prod.mk.injEq, Option.some.injEq,
      ParseError.malformed.injEq] at h
    obtain ⟨-, rfl, rfl⟩ := h
    exact scanRequest_unknown_final hS hM hm
  rcases hS₂ : scanSkip T inLine D₂ with ⟨e | ch, D₃⟩
  · cases scanSkip_error hS₂
    simp [scanRequest, hS, hM, hm, hS₂] at h
  obtain ⟨pre, R₃, rfl, rfl, htarget⟩ := scanRequest_target hS hM hm hS₂
  by_cases hlf : ch = lf
  · -- a line feed where the target should start
    rw [(htarget lim T R₃).1 hlf] at h
    simp only [Prod.mk.injEq, Option.some.injEq, ParseError.malformed.injEq] at h
    obtain ⟨-, rfl, rfl⟩ := h
    exact ⟨pre, rfl, FinalAt.lookingAt rfl fun lim' T' R' =>
      ⟨_, by rw [(htarget lim' T' R').1 hlf]⟩⟩
  rcases hP : scanPath T lim (ch :: R₃) with ⟨e | uri, D₄⟩
  · -- the path fails
    rw [(htarget lim T R₃).2.1 hlf e D₄ hP] at h
    simp only [Prod.mk.injEq, Option.some.injEq] at h
    obtain ⟨-, rfl, rfl⟩ := h
    obtain ⟨preP, hpreP, hf⟩ := scanPath_final hP
    refine ⟨pre ++ preP, by rw [hpreP, List.append_assoc],
      hf.after fun lim' T' rest' hr hfails => ?_⟩
    obtain ⟨R', hR'⟩ := exists_cons_of_head? hpreP hr
    obtain ⟨e', D', he⟩ := hfails lim'
    rw [hR'] at he
    exact ⟨e', by rw [hR', (htarget lim' T' R').2.1 hlf e' D' he]⟩
  -- the path is read, and what follows it fails
  rw [(htarget lim T R₃).2.2 hlf uri D₄ hP] at h
  obtain ⟨preP, hpreP, hsP⟩ := scanPath_steady hP
  obtain ⟨preA, rfl, hf⟩ := scanAfterPath_final h
  refine ⟨pre ++ preP ++ preA, by rw [hpreP]; simp, hf.after fun lim' T' rest' hr hfails => ?_⟩
  obtain ⟨R', hR'⟩ := eq_cons_of_head? hpreP hr
  rw [List.append_assoc, hR']
  rcases hsP.reads lim' T' (preA ++ rest') hr with hP' | ⟨e', D', hP'⟩
  · rw [hR'] at hP'
    rw [(htarget lim' T' R').2.2 hlf _ _ hP']
    exact hfails lim'
  · rw [hR'] at hP'
    exact ⟨e', by rw [(htarget lim' T' R').2.1 hlf e' D' hP']⟩

end Line

end Pieces

end Reading

open Transport Reading

/-- **A malformed request is final.** Take a transport that delivers the bytes `D` and stops
with `T`. When the reader fails with a malformed request, the bytes it examined, those it took
and, when it found the failure in the byte after them without taking it, that byte too, are
bytes of `D`; and no request of the grammar, under any limits, begins with them. No bytes that
could follow would have made a request of what was rejected. -/
theorem parse_malformed_is_final (lim : Limits) {s : Script} {D : Bytes} {T : Stop}
    (hs : s.Yields D T) {e : ParseError}
    (he : (Request.parse lim (Cursor.ofScript s)).error = some e) (hk : e.kind = .malformed) :
    ∃ c : Malformed, e = .malformed c ∧
      let seen := (Request.parse lim (Cursor.ofScript s)).consumed.toNat +
        if c.lookedAhead then 1 else 0
      seen ≤ D.length ∧
        ∀ (lim' : Limits) (w : Bytes) (r : Request), RequestText lim' w r →
          ¬D.take seen <+: w := by
  cases e with
  | malformed c => ?_
  | _ => simp [ParseError.kind] at hk
  refine ⟨c, rfl, ?_⟩
  obtain ⟨-, herr, hcons⟩ := parse_eq_scan lim hs
  rw [herr] at he
  obtain ⟨q, rest, hscan⟩ : ∃ q rest, scanRequest T lim D = (q, some (.malformed c), rest) :=
    ⟨_, _, by rw [← he]⟩
  obtain ⟨pre, hD, hf⟩ := scanRequest_final hscan
  have hseen : (Request.parse lim (Cursor.ofScript s)).consumed.toNat = pre.length := by
    rw [hcons, hscan, hD]
    simp
  dsimp only
  rw [hseen]
  constructor
  · rw [hD, List.length_append]
    split
    · next hc =>
      have := List.length_pos_iff.mpr (hf.peeked hc)
      omega
    · omega
  · rintro lim' w r hw ⟨u, rfl⟩
    -- the grammar's request would be read whole, yet the reader fails over any such bytes
    have htake : D.take (pre.length + if c.lookedAhead then 1 else 0) =
        pre ++ rest.take (if c.lookedAhead then 1 else 0) := by
      rw [hD, List.take_append, List.take_of_length_le (by omega)]
      simp
    rw [htake, List.append_assoc] at hw
    obtain ⟨e', hfail⟩ := hf.fails lim' T (rest.take (if c.lookedAhead then 1 else 0) ++ u)
      fun hc => by
        obtain ⟨x, R, rfl⟩ := List.exists_cons_of_ne_nil (hf.peeked hc)
        simp [hc]
    have hread := scanRequest_append (T := T) hw []
    rw [List.append_nil] at hread
    rw [hread] at hfail
    cases hfail

/-- A method token that names no method, `GETX`: the reader found it at the blank after it, and
no request of the grammar begins with the token and that blank. -/
theorem parse_unknown_method_is_final :
    (⟨[Reply.ofBytes [71, 69, 84, 88, 32]], Reply.ofBytes []⟩ : Script).Yields
      [71, 69, 84, 88, 32] .endOfStream ∧
    (Request.parse Limits.default (Cursor.ofScript
      ⟨[Reply.ofBytes [71, 69, 84, 88, 32]], Reply.ofBytes []⟩)).error =
        some (.malformed (.unknownMethod [71, 69, 84, 88])) ∧
    (ParseError.malformed (.unknownMethod [71, 69, 84, 88])).kind = .malformed ∧
    ∃ c : Malformed, ParseError.malformed (.unknownMethod [71, 69, 84, 88]) = .malformed c ∧
      let seen := (Request.parse Limits.default (Cursor.ofScript
          ⟨[Reply.ofBytes [71, 69, 84, 88, 32]], Reply.ofBytes []⟩)).consumed.toNat +
        if c.lookedAhead then 1 else 0
      seen ≤ ([71, 69, 84, 88, 32] : Bytes).length ∧
        ∀ (lim' : Limits) (w : Bytes) (r : Request), RequestText lim' w r →
          ¬([71, 69, 84, 88, 32] : Bytes).take seen <+: w := by
  have hs := Script.yields_one_read (d := [71, 69, 84, 88, 32]) (by simp) (by decide)
  have he : (Request.parse Limits.default (Cursor.ofScript
      ⟨[Reply.ofBytes [71, 69, 84, 88, 32]], Reply.ofBytes []⟩)).error =
        some (.malformed (.unknownMethod [71, 69, 84, 88])) := by
    rw [(parse_eq_scan Limits.default hs).2.1]
    decide +kernel
  exact ⟨hs, he, rfl, parse_malformed_is_final Limits.default hs he rfl⟩

end StaticHttp
