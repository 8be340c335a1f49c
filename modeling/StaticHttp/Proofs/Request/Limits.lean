import StaticHttp.Proofs.Request.Refine

/-!
# Tighter limits only add oversized failures

Read a request twice from one stream, under limits `lim` and under limits `lim'` at least as
large in every field. Each token is checked against its limit only once it has run that long,
so the two reads keep in step, byte for byte, until the tighter read exceeds one of its
limits: they agree on the request, the failure and the bytes taken, or the tighter read fails
as oversized (`Tighter`).

The count of header lines is the exception. It is compared with its limit for equality, so a
negative limit is never met and does not limit the count at all. Under a negative header limit
and a looser one of zero or more (`Limits.SkipsHeaderCount`), the looser read is the one that
may fail as oversized where the other goes on.

Main statements:
* `scanToken_tighter`, `scanQuery_tighter`, `scanHeaders_tighter`: the loops of the reader.
* `scanRequest_tighter`: a whole request.
* `parse_tighter_limits_add_oversized`: the reader over any transport, under two sets of
  limits.
* `parse_negative_header_limit_counts_none`: the exception, at one request.
-/

namespace StaticHttp

/-- Limits at most others in every field. -/
structure Limits.Le (lim lim' : Limits) : Prop where
  uri : lim.uri ≤ lim'.uri
  queryName : lim.queryName ≤ lim'.queryName
  queryValue : lim.queryValue ≤ lim'.queryValue
  fragment : lim.fragment ≤ lim'.fragment
  headerName : lim.headerName ≤ lim'.headerName
  headerValue : lim.headerValue ≤ lim'.headerValue
  headers : lim.headers ≤ lim'.headers

instance : LE Limits := ⟨Limits.Le⟩

instance (lim lim' : Limits) : Decidable (lim ≤ lim') :=
  decidable_of_iff (lim.uri ≤ lim'.uri ∧ lim.queryName ≤ lim'.queryName ∧
      lim.queryValue ≤ lim'.queryValue ∧ lim.fragment ≤ lim'.fragment ∧
      lim.headerName ≤ lim'.headerName ∧ lim.headerValue ≤ lim'.headerValue ∧
      lim.headers ≤ lim'.headers)
    ⟨fun ⟨a, b, c, d, e, f, g⟩ => ⟨a, b, c, d, e, f, g⟩,
      fun ⟨a, b, c, d, e, f, g⟩ => ⟨a, b, c, d, e, f, g⟩⟩

/-- `lim` never checks the count of header lines, its limit being negative, while `lim'`
does. -/
def Limits.SkipsHeaderCount (lim lim' : Limits) : Prop := lim.headers < 0 ∧ 0 ≤ lim'.headers

namespace Reading

open Transport

/-! ## Two reads in step -/

/-- A result of reading, which may carry a failure. -/
class Fallible (β : Type) where
  /-- The failure the read ended with, if any. -/
  failure : β → Option ParseError

instance (α : Type) : Fallible (Scanned α) where
  failure r := match r.1 with
    | .error e => some e
    | .ok _ => none

instance : Fallible (Except ParseError Unit × List Field × Bytes) where
  failure r := match r.1 with
    | .error e => some e
    | .ok _ => none

instance : Fallible Outcome where
  failure r := r.2.1

/-- The read failed because it exceeded a limit. -/
def FailsOversized {β : Type} [Fallible β] (x : β) : Prop :=
  ∃ o, Fallible.failure x = some (.oversized o)

/-- `x`, read under tighter limits, and `x'`, read under looser ones, are the same, or the
tighter read failed as oversized; and where `skip` holds, the looser read may also be the one
that failed as oversized. -/
def Tighter {β : Type} [Fallible β] (skip : Prop) (x x' : β) : Prop :=
  x = x' ∨ FailsOversized x ∨ (skip ∧ FailsOversized x')

section Shapes

variable {α : Type} {skip : Prop}

@[simp] theorem failsOversized_scanned (o : Oversized) (D : Bytes) :
    FailsOversized ((.error (.oversized o), D) : Scanned α) := ⟨o, rfl⟩

@[simp] theorem failsOversized_fields (o : Oversized) (hs : List Field) (D : Bytes) :
    FailsOversized ((.error (.oversized o), hs, D) : Except ParseError Unit × List Field × Bytes) :=
  ⟨o, rfl⟩

/-- Under tighter limits a piece that failed failed alike under looser ones, or was oversized. -/
theorem Tighter.scanned_error {x x' : Scanned α} {e : ParseError} {D : Bytes}
    (h : Tighter False x x') (hx : x = (.error e, D)) :
    x' = (.error e, D) ∨ ∃ o, e = .oversized o := by
  subst hx
  rcases h with rfl | ⟨o, ho⟩ | ⟨⟨⟩, -⟩
  · exact Or.inl rfl
  · exact Or.inr ⟨o, by simpa [Fallible.failure] using ho⟩

/-- A piece read under tighter limits was read alike under looser ones. -/
theorem Tighter.scanned_ok {x x' : Scanned α} {a : α} {D : Bytes} (h : Tighter False x x')
    (hx : x = (.ok a, D)) : x' = (.ok a, D) := by
  subst hx
  rcases h with rfl | ⟨o, ho⟩ | ⟨⟨⟩, -⟩
  · rfl
  · simp [Fallible.failure] at ho

/-- A relation that allows the looser read to fail only where `skip` holds allows it wherever
a weaker condition holds. -/
theorem Tighter.mono {β : Type} [Fallible β] {skip' : Prop} {x x' : β} (h : Tighter skip x x')
    (hs : skip → skip') : Tighter skip' x x' := by
  rcases h with h | h | ⟨hskip, h⟩
  · exact Or.inl h
  · exact Or.inr (Or.inl h)
  · exact Or.inr (Or.inr ⟨hs hskip, h⟩)

theorem FailsOversized.fields {x : Except ParseError Unit × List Field × Bytes}
    (h : FailsOversized x) : ∃ o, x = (.error (.oversized o), x.2.1, x.2.2) := by
  obtain ⟨o, ho⟩ := h
  rcases x with ⟨_ | _, hs, D⟩ <;> simp_all [Fallible.failure]

end Shapes

/-! ## The pieces of a request line -/

section Pieces

variable {T : Stop} {lim lim' : Limits}

/-- The check of a count against a limit, and what follows it: a tighter limit fails first. -/
theorem tighter_limit_check {x x' : Scanned Bytes} {limit limit' : Int} {n : Nat} {o o' : Oversized}
    {D : Bytes} (hl : limit ≤ limit') (h : Tighter False x x') :
    Tighter False (if limit ≤ (n : Int) then (.error (.oversized o), D) else x)
      (if limit' ≤ (n : Int) then (.error (.oversized o'), D) else x') := by
  by_cases hn : limit ≤ (n : Int)
  · simp [Tighter, hn]
  · have hn' : ¬ limit' ≤ (n : Int) := by omega
    simpa [hn, hn'] using h

theorem scanToken_tighter (T : Stop) (what : Component) (decode : Bool) (stop : Byte → Bool)
    {limit limit' : Int} (hl : limit ≤ limit') :
    ∀ (n : Nat) (acc D : Bytes), Tighter False (scanToken T limit what decode stop n acc D)
      (scanToken T limit' what decode stop n acc D)
  | _, _, [] => Or.inl rfl
  | n, acc, b :: D => by
    cases hs : stop b
    case true => simp [Tighter, scanToken_cons_stop hs]
    cases hd : (decode && b == percent)
    case false =>
      rw [scanToken_cons_plain hs hd, scanToken_cons_plain hs hd]
      exact tighter_limit_check hl (scanToken_tighter T what decode stop hl (n + 1) (b :: acc) D)
    rw [scanToken_cons_escape hs hd, scanToken_cons_escape hs hd]
    -- The escape is decoded before its byte counts, so a bad escape fails alike under both.
    rcases D with _ | ⟨hi, _ | ⟨lo, D'⟩⟩
    · exact Or.inl rfl
    · exact Or.inl rfl
    simp only [scanEscape]
    cases Byte.hexValue? hi with
    | none => exact Or.inl rfl
    | some h =>
      cases Byte.hexValue? lo with
      | none => exact Or.inl rfl
      | some l => exact tighter_limit_check hl (scanToken_tighter T what decode stop hl (n + 1) _ D')

theorem scanPath_tighter (hle : lim.Le lim') (D : Bytes) :
    Tighter False (scanPath T lim D) (scanPath T lim' D) := by
  have h := scanToken_tighter T .path true endsPath hle.uri 0 [] D
  rcases hP : scanToken T lim.uri .path true endsPath 0 [] D with ⟨e | p, D₁⟩
  · rcases h.scanned_error hP with h' | ⟨o, rfl⟩
    · simp only [scanPath, hP, h']
      exact Or.inl rfl
    · simp [scanPath, hP, Tighter]
  · simp only [scanPath, hP, h.scanned_ok hP]
    exact Or.inl rfl

end Pieces

/-! ## The loops over query variables and header lines -/

section Loops

variable {T : Stop} {lim lim' : Limits}

theorem scanQuery_tighter (hle : lim.Le lim') (vars : List Field) (D : Bytes) :
    Tighter False (scanQuery T lim vars D) (scanQuery T lim' vars D) := by
  have hN := scanToken_tighter T .queryName true endsQueryName hle.queryName 0 []
  have hV := scanToken_tighter T .queryValue true endsQueryValue hle.queryValue 0 []
  fun_induction scanQuery T lim vars D with
  | case1 vars => exact Or.inl (by rw [scanQuery])
  | case2 vars b R hb => exact Or.inl (by rw [scanQuery]; simp [hb])
  | case3 vars b R hb e D₁ he =>
    rw [scanQuery_of_ends vars (ends_var_cons hb R)]
    rcases (hN _).scanned_error he with h | ⟨o, rfl⟩
    · rw [h]
      exact Or.inl rfl
    · simp [Tighter]
  | case4 vars b R hb name hn =>
    rw [scanQuery_of_ends vars (ends_var_cons hb R), (hN _).scanned_ok hn]
    exact Or.inl rfl
  | case5 vars b R hb name c D₁ hn hc =>
    rw [scanQuery_of_ends vars (ends_var_cons hb R), (hN _).scanned_ok hn]
    exact Or.inl (by simp [hc])
  | case6 vars b R hb name c D₁ hn hc e D₂ he =>
    rw [scanQuery_of_ends vars (ends_var_cons hb R), (hN _).scanned_ok hn]
    simp only [hc, Bool.false_eq_true, if_false]
    rcases (hV _).scanned_error he with h | ⟨o, rfl⟩
    · rw [h]
      exact Or.inl rfl
    · simp [Tighter]
  | case7 vars b R hb name c D₁ hn hc value hv =>
    rw [scanQuery_of_ends vars (ends_var_cons hb R), (hN _).scanned_ok hn]
    simp only [hc, Bool.false_eq_true, if_false, (hV _).scanned_ok hv]
    exact Or.inl rfl
  | case8 vars b R hb name c D₁ hn hc value d D₂ hv hd ih =>
    rw [scanQuery_of_ends vars (ends_var_cons hb R), (hN _).scanned_ok hn]
    simpa [hc, (hV _).scanned_ok hv, hd] using ih
  | case9 vars b R hb name c D₁ hn hc value d D₂ hv hd ih =>
    rw [scanQuery_of_ends vars (ends_var_cons hb R), (hN _).scanned_ok hn]
    simpa [hc, (hV _).scanned_ok hv, hd] using ih

/-- Room left for header lines read so far, `n` of them: the tighter limit is not passed, or the
looser one is passed already, or the tighter limits skip the count. -/
def HeaderCountRoom (lim lim' : Limits) (n : Nat) : Prop :=
  (n : Int) ≤ lim.headers ∨ lim'.headers < n ∨ lim.SkipsHeaderCount lim'

/-- Before any header line, there is room: a negative tighter limit either skips the count or
comes with a negative looser one, which is passed already. -/
theorem headerCountRoom_zero (lim lim' : Limits) : HeaderCountRoom lim lim' 0 := by
  unfold HeaderCountRoom Limits.SkipsHeaderCount
  omega

/-- A line read past the tighter limit's check keeps the room. -/
theorem HeaderCountRoom.succ {n : Nat} (h : HeaderCountRoom lim lim' n) (hn : (n : Int) ≠ lim.headers) :
    HeaderCountRoom lim lim' (n + 1) := by
  unfold HeaderCountRoom Limits.SkipsHeaderCount at *
  push_cast
  omega

/-- Where the looser limit is met and the tighter one is not, the tighter limits skip the
count. -/
theorem HeaderCountRoom.skips {n : Nat} (hle : lim.Le lim') (h : HeaderCountRoom lim lim' n)
    (hn : (n : Int) ≠ lim.headers) (hn' : (n : Int) = lim'.headers) : lim.SkipsHeaderCount lim' := by
  have := hle.headers
  unfold HeaderCountRoom Limits.SkipsHeaderCount at *
  omega

/-- A line break ends the header section, or fails, alike under any limits. -/
theorem scanHeaders_break {hs : List Field} {b : Byte} {R : Bytes} (hb : b = cr ∨ b = lf) :
    scanHeaders T lim hs (b :: R) = scanHeaders T lim' hs (b :: R) := by
  rw [scanHeaders.eq_def, scanHeaders.eq_def]
  rcases hb with rfl | rfl
  · simp
  · simp [show (lf == cr) = false by decide]

theorem scanHeaders_count {hs : List Field} {b : Byte} {R : Bytes} (hcr : (b == cr) = false)
    (hlf : (b == lf) = false) (hn : (hs.length : Int) = lim.headers) :
    scanHeaders T lim hs (b :: R) = (.error (.oversized (.tooManyHeaders lim.headers)), hs, b :: R) := by
  rw [scanHeaders.eq_def]
  simp [hcr, hlf, hn]

/-- One header line under two limits that both let the count pass: it fails alike, or the
tighter read fails as oversized, or both go on from the same point with the same line read. -/
theorem scanHeaders_line_tighter (hle : lim.Le lim') {hs : List Field} {b : Byte} {R : Bytes}
    (hcr : (b == cr) = false) (hlf : (b == lf) = false)
    (hc : ((hs.length : Int) == lim.headers) = false)
    (hc' : ((hs.length : Int) == lim'.headers) = false) :
    Tighter False (scanHeaders T lim hs (b :: R)) (scanHeaders T lim' hs (b :: R)) ∨
      ∃ f R', R'.length < R.length + 1 ∧
        scanHeaders T lim hs (b :: R) = scanHeaders T lim (hs ++ [f]) R' ∧
        scanHeaders T lim' hs (b :: R) = scanHeaders T lim' (hs ++ [f]) R' := by
  rw [scanHeaders_line hs hcr hlf hc, scanHeaders_line hs hcr hlf hc']
  have hN := scanToken_tighter T .headerName false endsHeaderName hle.headerName 0 [] (b :: R)
  have hlenN :=
    (scanToken_suffix T lim.headerName .headerName false endsHeaderName 0 [] (b :: R)).length_le
  rcases hn : scanToken T lim.headerName .headerName false endsHeaderName 0 [] (b :: R) with
    ⟨e | name, D₁⟩
  · rcases hN.scanned_error hn with h | ⟨o, rfl⟩
    · rw [h]
      exact Or.inl (Or.inl rfl)
    · exact Or.inl (Or.inr (Or.inl ⟨_, rfl⟩))
  rw [hN.scanned_ok hn]
  rw [hn] at hlenN
  by_cases hne : name.isEmpty = true
  · simp only [hne, if_true]
    exact Or.inl (Or.inl rfl)
  simp only [hne, Bool.false_eq_true, if_false]
  rcases D₁ with _ | ⟨c, D₂⟩
  · exact Or.inl (Or.inl rfl)
  by_cases hcol : (c != colon) = true
  · simp only [hcol, if_true]
    exact Or.inl (Or.inl rfl)
  simp only [hcol, Bool.false_eq_true, if_false]
  rcases hi : scanSkip T isIndent D₂ with ⟨e | _, D₃⟩
  · exact Or.inl (Or.inl rfl)
  have hlenI : D₃.length ≤ D₂.length := by
    simpa [hi] using (scanSkip_suffix T isIndent D₂).length_le
  dsimp only
  have hV := scanToken_tighter T .headerValue false endsHeaderValue hle.headerValue 0 [] D₃
  have hlenV :=
    (scanToken_suffix T lim.headerValue .headerValue false endsHeaderValue 0 [] D₃).length_le
  rcases hv : scanToken T lim.headerValue .headerValue false endsHeaderValue 0 [] D₃ with
    ⟨e | value, D₄⟩
  · rcases hV.scanned_error hv with h | ⟨o, rfl⟩
    · rw [h]
      exact Or.inl (Or.inl rfl)
    · exact Or.inl (Or.inr (Or.inl ⟨_, rfl⟩))
  rw [hV.scanned_ok hv]
  rw [hv] at hlenV
  rcases D₄ with _ | ⟨d, D₅⟩
  · exact Or.inl (Or.inl rfl)
  simp only [List.length_cons] at hlenN hlenV
  by_cases hd : (d == cr) = true
  case neg =>
    simp only [hd, Bool.false_eq_true, if_false]
    exact Or.inr ⟨_, D₅, by omega, rfl, rfl⟩
  simp only [hd, if_true]
  rcases D₅ with _ | ⟨e, D₆⟩
  · exact Or.inl (Or.inl rfl)
  by_cases he : (e != lf) = true
  · simp only [he, if_true]
    exact Or.inl (Or.inl rfl)
  simp only [he, Bool.false_eq_true, if_false]
  simp only [List.length_cons] at hlenV
  exact Or.inr ⟨_, D₆, by omega, rfl, rfl⟩

/-- The header loop keeps the two reads in step while there is room for the count. -/
theorem scanHeaders_tighter (hle : lim.Le lim') (hs : List Field) (D : Bytes)
    (hJ : HeaderCountRoom lim lim' hs.length) :
    Tighter (lim.SkipsHeaderCount lim') (scanHeaders T lim hs D) (scanHeaders T lim' hs D) := by
  match D with
  | [] => exact Or.inl (by rw [scanHeaders.eq_def, scanHeaders.eq_def])
  | b :: R =>
    by_cases hb : b = cr ∨ b = lf
    · exact Or.inl (scanHeaders_break hb)
    have hcr : (b == cr) = false := beq_eq_false_iff_ne.mpr fun h => hb (Or.inl h)
    have hlf : (b == lf) = false := beq_eq_false_iff_ne.mpr fun h => hb (Or.inr h)
    by_cases hn : (hs.length : Int) = lim.headers
    · exact Or.inr (Or.inl ⟨_, by rw [scanHeaders_count hcr hlf hn]; rfl⟩)
    by_cases hn' : (hs.length : Int) = lim'.headers
    · -- The looser limit is met first: only skipping the count lets that happen.
      exact Or.inr (Or.inr ⟨hJ.skips hle hn hn', _, by rw [scanHeaders_count hcr hlf hn']; rfl⟩)
    rcases scanHeaders_line_tighter (T := T) (R := R) hle hcr hlf (beq_eq_false_iff_ne.mpr hn)
      (beq_eq_false_iff_ne.mpr hn') with h | ⟨f, R', hlen, h, h'⟩
    · exact h.mono False.elim
    · rw [h, h']
      exact scanHeaders_tighter hle (hs ++ [f]) R' (by simpa using hJ.succ hn)
termination_by D.length
decreasing_by
  simp only [List.length_cons]
  exact hlen

end Loops

/-! ## Whole requests -/

section Request

variable {T : Stop} {lim lim' : Limits}

theorem scanHeaderSection_tighter (hle : lim.Le lim') (m : Method) (r : Request) (D : Bytes)
    (hJ : HeaderCountRoom lim lim' r.headers.length) :
    Tighter (lim.SkipsHeaderCount lim') (scanHeaderSection T lim m r D)
      (scanHeaderSection T lim' m r D) := by
  unfold scanHeaderSection
  rcases scanHeaders_tighter (T := T) hle r.headers D hJ with h | h | ⟨hskip, h⟩
  · rw [h]
    exact Or.inl rfl
  · obtain ⟨o, ho⟩ := h.fields
    rw [ho]
    exact Or.inr (Or.inl ⟨o, rfl⟩)
  · obtain ⟨o, ho⟩ := h.fields
    rw [ho]
    exact Or.inr (Or.inr ⟨hskip, o, rfl⟩)

theorem scanEnding_tighter (hle : lim.Le lim') (m : Method) (r : Request) (D : Bytes)
    (hJ : HeaderCountRoom lim lim' r.headers.length) :
    Tighter (lim.SkipsHeaderCount lim') (scanEnding T lim m r D) (scanEnding T lim' m r D) := by
  unfold scanEnding
  rcases scanSkip T inLine D with ⟨e | ch, D₁⟩
  · exact Or.inl rfl
  dsimp only
  by_cases hl : (ch == lf) = true
  · simp only [hl, if_true]
    exact Or.inl rfl
  simp only [hl, Bool.false_eq_true, if_false]
  rcases scanVersion T D₁ with ⟨e | v, D₂⟩
  · exact Or.inl rfl
  dsimp only
  rcases scanSkip T inLine D₂ with ⟨e | ch₂, D₃⟩
  · exact Or.inl rfl
  dsimp only
  by_cases hl₂ : (ch₂ != lf) = true
  · simp only [hl₂, if_true]
    exact Or.inl rfl
  simp only [hl₂, Bool.false_eq_true, if_false]
  -- Only the header section reads under the limits; the version leaves the count as it was.
  split
  all_goals
    split
    · exact Or.inl rfl
    · exact scanHeaderSection_tighter hle m _ D₃.tail hJ

theorem scanAfterQuery_tighter (hle : lim.Le lim') (m : Method) (r : Request) (D : Bytes)
    (hJ : HeaderCountRoom lim lim' r.headers.length) :
    Tighter (lim.SkipsHeaderCount lim') (scanAfterQuery T lim m r D)
      (scanAfterQuery T lim' m r D) := by
  match D with
  | [] => exact Or.inl rfl
  | ch :: D' =>
    unfold scanAfterQuery
    by_cases hh : (ch == hash) = true
    case neg =>
      simp only [hh, Bool.false_eq_true, if_false]
      exact scanEnding_tighter hle m r _ hJ
    simp only [hh, if_true]
    have hF := scanToken_tighter T .fragment true Byte.isBlank hle.fragment 0 [] D'
    rcases hf : scanToken T lim.fragment .fragment true Byte.isBlank 0 [] D' with ⟨e | f, D₁⟩
    · rcases hF.scanned_error hf with h | ⟨o, rfl⟩
      · rw [h]
        exact Or.inl rfl
      · exact Or.inr (Or.inl ⟨o, rfl⟩)
    · rw [hF.scanned_ok hf]
      exact scanEnding_tighter hle m _ D₁ hJ

theorem scanAfterPath_tighter (hle : lim.Le lim') (m : Method) (r : Request) (D : Bytes)
    (hJ : HeaderCountRoom lim lim' r.headers.length) :
    Tighter (lim.SkipsHeaderCount lim') (scanAfterPath T lim m r D)
      (scanAfterPath T lim' m r D) := by
  match D with
  | [] => exact Or.inl rfl
  | ch :: D' =>
    unfold scanAfterPath
    by_cases hq : (ch == question) = true
    case neg =>
      simp only [hq, Bool.false_eq_true, if_false]
      exact scanAfterQuery_tighter hle m r _ hJ
    simp only [hq, if_true]
    rcases scanQuery_tighter (T := T) hle r.query D' with h | h | ⟨⟨⟩, -⟩
    · rw [← h]
      rcases scanQuery T lim r.query D' with ⟨e | _, vars, D₁⟩
      · exact Or.inl rfl
      · exact scanAfterQuery_tighter hle m _ D₁ hJ
    · obtain ⟨o, ho⟩ := h.fields
      rw [ho]
      exact Or.inr (Or.inl ⟨o, rfl⟩)

/-- **A whole request read under tighter limits** is read alike under looser ones, or fails as
oversized; unless the tighter limits skip the count of header lines, where the looser read may
be the one to fail as oversized. -/
theorem scanRequest_tighter (hle : lim.Le lim') (D : Bytes) :
    Tighter (lim.SkipsHeaderCount lim') (scanRequest T lim D) (scanRequest T lim' D) := by
  unfold scanRequest
  rcases scanSkip T Byte.isBlank D with ⟨e | _, D₁⟩
  · exact Or.inl rfl
  dsimp only
  rcases scanMethod T Method.maxNameLength [] D₁ with ⟨e | tok, D₂⟩
  · exact Or.inl rfl
  dsimp only
  rcases matchMethod tok with _ | m
  · exact Or.inl rfl
  dsimp only
  rcases scanSkip T inLine D₂ with ⟨e | ch, D₃⟩
  · exact Or.inl rfl
  dsimp only
  by_cases hl : (ch == lf) = true
  · simp only [hl, if_true]
    exact Or.inl rfl
  simp only [hl, Bool.false_eq_true, if_false]
  have hP := scanPath_tighter (T := T) hle D₃
  rcases hp : scanPath T lim D₃ with ⟨e | p, D₄⟩
  · rcases hP.scanned_error hp with h | ⟨o, rfl⟩
    · rw [h]
      exact Or.inl rfl
    · exact Or.inr (Or.inl ⟨o, rfl⟩)
  · rw [hP.scanned_ok hp]
    exact scanAfterPath_tighter hle m _ D₄ (headerCountRoom_zero lim lim')

end Request

end Reading

open Transport Reading

/-- What a read `p` under tighter limits keeps of a read `p'` under looser ones, where the
looser read may fail as oversized alone only if `skip` holds. -/
structure Parsed.Tighter (skip : Prop) (p p' : Parsed) : Prop where
  /-- A failure of the looser read other than an oversized one is the failure of the tighter
  read, or that read failed as oversized. -/
  failure_kept : p'.kind ≠ .none → p'.kind ≠ .oversized → p.error = p'.error ∨ p.kind = .oversized
  /-- A tighter read that is not oversized is the looser read: the same request, failure and
  count of bytes taken. -/
  same_read : ¬ skip → p.kind ≠ .oversized →
    p'.request = p.request ∧ p'.error = p.error ∧ p'.consumed = p.consumed
  /-- A looser read that failed as oversized failed so under the tighter limits too. -/
  oversized_kept : ¬ skip → p'.kind = .oversized → p.kind = .oversized

/-- **Tighter limits only add oversized failures.** Read a request from a transport that
delivers the bytes `D`, under limits `lim` at most `lim'` in every field. If the read under
`lim'` fails with a failure other than an oversized one, the read under `lim` fails with the
same failure or as oversized. Unless `lim` skips the count of header lines that `lim'` makes, a
read under `lim` that is not oversized is the read under `lim'`, and a read under `lim'` that
fails as oversized fails so under `lim` too. -/
theorem parse_tighter_limits_add_oversized {lim lim' : Limits} (hle : lim ≤ lim') {sc : Script}
    {D : Bytes} {T : Stop} (hs : sc.Yields D T) :
    (Request.parse lim (Cursor.ofScript sc)).Tighter (lim.SkipsHeaderCount lim')
      (Request.parse lim' (Cursor.ofScript sc)) := by
  obtain ⟨hreq, herr, hcons⟩ := parse_eq_scan lim hs
  obtain ⟨hreq', herr', hcons'⟩ := parse_eq_scan lim' hs
  rcases scanRequest_tighter (T := T) hle D with h | ⟨o, ho⟩ | ⟨hskip, o, ho⟩
  · -- The two reads are the same.
    rw [← h] at hreq' herr' hcons'
    refine ⟨fun _ _ => Or.inl (by rw [herr, herr']), fun _ _ => ⟨?_, ?_, ?_⟩, fun _ h => ?_⟩
    · rw [hreq, hreq']
    · rw [herr, herr']
    · rw [hcons, hcons']
    · simpa [Parsed.kind, herr, herr'] using h
  · -- The tighter read failed as oversized.
    change (scanRequest T lim D).2.1 = _ at ho
    have hk : (Request.parse lim (Cursor.ofScript sc)).kind = .oversized := by
      simp [Parsed.kind, herr, ho, ParseError.kind]
    exact ⟨fun _ _ => Or.inr hk, fun _ h => absurd hk h, fun _ _ => hk⟩
  · -- The looser read failed as oversized, where the tighter limits skip the count.
    change (scanRequest T lim' D).2.1 = _ at ho
    have hk : (Request.parse lim' (Cursor.ofScript sc)).kind = .oversized := by
      simp [Parsed.kind, herr', ho, ParseError.kind]
    exact ⟨fun _ h => absurd hk h, fun h => absurd hskip h, fun h => absurd hskip h⟩

/-- A header limit of one against the default limits, over a request with two header lines. -/
theorem parse_one_header_limit_within_default :
    ({ Limits.default with headers := 1 } : Limits) ≤ Limits.default ∧
    (⟨[Reply.ofBytes (Bytes.ofString "GET / HTTP/1.1\r\nA: b\r\nC: d\r\n\r\n")],
        Reply.ofBytes []⟩ : Script).Yields
      (Bytes.ofString "GET / HTTP/1.1\r\nA: b\r\nC: d\r\n\r\n") .endOfStream ∧
    (Request.parse { Limits.default with headers := 1 } (Cursor.ofScript
        ⟨[Reply.ofBytes (Bytes.ofString "GET / HTTP/1.1\r\nA: b\r\nC: d\r\n\r\n")],
          Reply.ofBytes []⟩)).Tighter
      (Limits.SkipsHeaderCount { Limits.default with headers := 1 } Limits.default)
      (Request.parse Limits.default (Cursor.ofScript
        ⟨[Reply.ofBytes (Bytes.ofString "GET / HTTP/1.1\r\nA: b\r\nC: d\r\n\r\n")],
          Reply.ofBytes []⟩)) := by
  have hs := Script.yields_one_read (d := Bytes.ofString "GET / HTTP/1.1\r\nA: b\r\nC: d\r\n\r\n")
    (by decide +kernel) (by decide +kernel)
  exact ⟨by decide, hs, parse_tighter_limits_add_oversized (by decide) hs⟩

/-- A negative limit on header lines limits nothing, being compared for equality with the count:
one header line is read under the limit `-1`, and is one too many under the looser limit `0`. -/
theorem parse_negative_header_limit_counts_none :
    ({ Limits.default with headers := -1 } : Limits) ≤ { Limits.default with headers := 0 } ∧
    (Request.parse { Limits.default with headers := -1 } (Cursor.ofScript
        ⟨[Reply.ofBytes (Bytes.ofString "GET / HTTP/1.1\r\nA: b\r\n\r\n")], Reply.ofBytes []⟩)).kind =
      .none ∧
    (Request.parse { Limits.default with headers := 0 } (Cursor.ofScript
        ⟨[Reply.ofBytes (Bytes.ofString "GET / HTTP/1.1\r\nA: b\r\n\r\n")], Reply.ofBytes []⟩)).kind =
      .oversized := by
  decide +kernel

end StaticHttp
