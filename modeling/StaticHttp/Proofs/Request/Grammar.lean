import StaticHttp.Proofs.Request.TokenGrammar
import StaticHttp.Proofs.Request.Refine

/-!
# The request grammar

What the reader of a request accepts, said as a grammar:

    W* M S+ P ['?' Q] ['#' F] (S* LF | S+ HTTP/V S* LF H)

where `W` is the blank bytes, `S` the blanks but the line feed, `M` a method name up to ASCII
case, `P`, `Q`, `F` and `V` the tokens of `StaticHttp.Proofs.Request.TokenGrammar`, and `H`
the header section: lines `Name: Val`, each ended by CR LF or a bare LF, and then an empty line.
A request of the simple form `S* LF`, or of version 0.9, must be a GET; one with a version must
name a method the server implements, which is checked only once its header section is read.
`RequestText lim w r` says that `w` is a request of this grammar within the limits `lim`, and
that it reads as `r`.

As for the tokens, each part is read by a pair of statements, one from the text to the read
and one back; the whole request is read as `scanRequest`, which the reader over a cursor
computes (`parse_eq_scan`).

Main statements:
* `scanHeaders_append`, `scanHeaders_ok_split`: the header section, within the limit on the
  number of lines.
* `scanEnding_append`, `scanEnding_ok_split`: the rest of the request line, and the request it
  makes.
* `scanRequest_eq_some_iff`: reading succeeds exactly on a request of the grammar, and leaves
  the bytes that follow it.
* `parse_accepts_request_grammar`: the reader over any transport returns a request and no
  failure, having consumed `k` bytes, exactly when the stream begins with a request of the
  grammar of `k` bytes that reads as that request.
-/

namespace StaticHttp

namespace Reading

open Transport

/-! ## Header sections -/

/-- The end of a line: a carriage return and a line feed, or a bare line feed. -/
def LineEnd (eol : Bytes) : Prop := eol = [cr, lf] ∨ eol = [lf]

/-- One header line `Name: Val`: a non-empty name of bytes that end no name, a colon, spaces and
tabs, and the value up to the end of the line, which does not begin with a space or a tab. The
limits count the name and the value as they stand on the line, before trailing blanks are
trimmed from the value. -/
def HeaderLine (lim : Limits) (raw : Bytes) (f : Field) : Prop :=
  ∃ name ind val eol, raw = name ++ colon :: (ind ++ val ++ eol) ∧ name ≠ [] ∧
    (∀ x ∈ name, endsHeaderName x = false) ∧ (∀ x ∈ ind, isIndent x = true) ∧
    (∀ x ∈ val.head?, isIndent x = false) ∧ (∀ x ∈ val, endsHeaderValue x = false) ∧
    LineEnd eol ∧ Fits lim.headerName name ∧ Fits lim.headerValue val ∧
    f = ⟨name, trimRight val⟩

/-- `H`: header lines, then the empty line that ends them. -/
inductive HeaderSection (lim : Limits) : Bytes → List Field → Prop
  | done {eol : Bytes} : LineEnd eol → HeaderSection lim eol []
  | line {raw rest : Bytes} {f : Field} {fs : List Field} : HeaderLine lim raw f →
      HeaderSection lim rest fs → HeaderSection lim (raw ++ rest) (f :: fs)

/-- Room for `k` header lines after `n`: the count checked before each of them never meets the
limit, so a negative limit or one of at least `n + k` lets all of them through. -/
def HeaderRoom (limit : Int) (n k : Nat) : Prop := limit < n ∨ ((n + k : Nat) : Int) ≤ limit

theorem headerRoom_zero (limit : Int) (n : Nat) : HeaderRoom limit n 0 := by
  simp only [HeaderRoom, Nat.add_zero]
  omega

theorem headerRoom_succ {limit : Int} {n k : Nat} :
    HeaderRoom limit n (k + 1) ↔ (n : Int) ≠ limit ∧ HeaderRoom limit (n + 1) k := by
  simp only [HeaderRoom]
  omega

theorem encoded_plain {stop : Byte → Bool} :
    ∀ {raw : Bytes}, (∀ x ∈ raw, stop x = false) → Encoded false stop raw raw
  | [], _ => .nil
  | b :: raw, h =>
    .plain (h b List.mem_cons_self) (by simp) (encoded_plain fun x hx => h x (List.mem_cons_of_mem _ hx))

theorem Encoded.eq_of_plain {stop : Byte → Bool} {raw text : Bytes}
    (h : Encoded false stop raw text) : text = raw ∧ ∀ x ∈ raw, stop x = false := by
  induction h with
  | nil => simp
  | plain hs _ _ ih =>
    obtain ⟨rfl, ih⟩ := ih
    refine ⟨rfl, ?_⟩
    intro x hx
    rcases List.mem_cons.mp hx with rfl | hx
    · exact hs
    · exact ih x hx
  | escape hd => cases hd

theorem beq_eq_false_of_isBlank {b c : Byte} (h : Byte.isBlank b ≠ Byte.isBlank c) :
    (b == c) = false := by
  cases hbc : b == c
  · rfl
  · rw [beq_iff_eq] at hbc
    subst hbc
    exact absurd rfl h

section Headers

variable {T : Stop} {lim : Limits}

theorem scanSkip_indent {ind val eol : Bytes} (R : Bytes) (hind : ∀ x ∈ ind, isIndent x = true)
    (hhead : ∀ x ∈ val.head?, isIndent x = false) (heol : LineEnd eol) :
    ∃ x, scanSkip T isIndent (ind ++ (val ++ (eol ++ R))) = (.ok x, val ++ (eol ++ R)) := by
  cases val with
  | nil =>
    rcases heol with rfl | rfl
    · exact ⟨cr, scanSkip_append hind (by decide)⟩
    · exact ⟨lf, scanSkip_append hind (by decide)⟩
  | cons v val => exact ⟨v, scanSkip_append hind (hhead v rfl)⟩

theorem scanHeaders_line_append {raw : Bytes} {f : Field} (hl : HeaderLine lim raw f)
    {hs : List Field} (hcount : (hs.length : Int) ≠ lim.headers) (R : Bytes) :
    scanHeaders T lim hs (raw ++ R) = scanHeaders T lim (hs ++ [f]) R := by
  obtain ⟨name, ind, val, eol, rfl, hne, hname, hind, hhead, hval, heol, hfn, hfv, rfl⟩ := hl
  obtain ⟨b, name', rfl⟩ := List.exists_cons_of_ne_nil hne
  have hb : Byte.isBlank b = false := by
    have := hname b List.mem_cons_self
    simp only [endsHeaderName, Bool.or_eq_false_iff] at this
    exact this.2
  have hN := scanToken_append (T := T) lim.headerName .headerName
    (show Ends endsHeaderName (colon :: (ind ++ (val ++ (eol ++ R)))) by
      simp [Ends, endsHeaderName]) (encoded_plain hname) 0 [] ((fits_iff_fitsAfter _ _).mp hfn)
  have hV := scanToken_append (T := T) lim.headerValue .headerValue
    (show Ends endsHeaderValue (eol ++ R) by rcases heol with rfl | rfl <;> simp [Ends, endsHeaderValue])
    (encoded_plain hval) 0 [] ((fits_iff_fitsAfter _ _).mp hfv)
  obtain ⟨x, hI⟩ := scanSkip_indent (T := T) R hind hhead heol
  simp only [List.reverse_nil, List.nil_append] at hN hV
  simp only [List.append_assoc, List.cons_append] at hN ⊢
  rw [scanHeaders_line hs (beq_eq_false_of_isBlank (by rw [hb]; decide))
    (beq_eq_false_of_isBlank (by rw [hb]; decide)) (beq_eq_false_iff_ne.mpr hcount), hN]
  simp only [List.isEmpty_cons, Bool.false_eq_true, if_false, bne_self_eq_false, hI, hV]
  rcases heol with rfl | rfl
  · simp
  · have hlf : (lf == cr) = false := by decide
    simp [hlf]

theorem scanHeaders_append {raw : Bytes} {fs : List Field} (h : HeaderSection lim raw fs) :
    ∀ (hs : List Field), HeaderRoom lim.headers hs.length fs.length → ∀ R : Bytes,
      scanHeaders T lim hs (raw ++ R) = (.ok (), hs ++ fs, R) := by
  induction h with
  | done heol =>
    intro hs _ R
    have hlf : (lf == cr) = false := by decide
    rcases heol with rfl | rfl <;> rw [scanHeaders.eq_def] <;> simp [hlf]
  | @line raw rest f fs hl _ ih =>
    intro hs hroom R
    obtain ⟨hc, hroom⟩ := headerRoom_succ.mp hroom
    rw [List.append_assoc, scanHeaders_line_append hl hc,
      ih (hs ++ [f]) (by simpa using hroom) R, List.append_assoc, List.singleton_append]

theorem headerValue_split {D₂ D₃ D₄ value : Bytes} {x d : Byte}
    (hI : scanSkip T isIndent D₂ = (.ok x, D₃))
    (hV : scanToken T lim.headerValue .headerValue false endsHeaderValue 0 [] D₃ =
      (.ok value, d :: D₄)) :
    ∃ ind, D₂ = ind ++ (value ++ d :: D₄) ∧ (∀ y ∈ ind, isIndent y = true) ∧
      (∀ y ∈ value.head?, isIndent y = false) ∧ (∀ y ∈ value, endsHeaderValue y = false) ∧
      Fits lim.headerValue value ∧ endsHeaderValue d = true := by
  obtain ⟨ind, R₃, rfl, hind, rfl, hx⟩ := scanSkip_ok_split hI
  obtain ⟨raw, text, hD₃, henc, hd, hfit, htext⟩ := scanToken_ok_split 0 [] _ value _ hV
  obtain ⟨rfl, hraw⟩ := henc.eq_of_plain
  simp only [List.reverse_nil, List.nil_append] at htext
  subst htext
  refine ⟨ind, by rw [hD₃], hind, ?_, hraw, (fits_iff_fitsAfter _ _).mpr hfit, hd⟩
  intro y hy
  cases value with
  | nil => cases hy
  | cons z v =>
    simp only [List.head?_cons, Option.mem_def, Option.some.injEq] at hy
    subst hy
    simp only [List.cons_append, List.cons.injEq] at hD₃
    rw [← hD₃.1]
    exact hx

theorem HeaderLine.ne_nil {raw : Bytes} {f : Field} (h : HeaderLine lim raw f) : raw ≠ [] := by
  obtain ⟨name, _, _, _, rfl, -⟩ := h
  simp

theorem scanHeaders_line_split {b : Byte} {R rest : Bytes} {hs hs' : List Field}
    (hcr : (b == cr) = false) (hlf : (b == lf) = false)
    (h : scanHeaders T lim hs (b :: R) = (.ok (), hs', rest)) :
    (hs.length : Int) ≠ lim.headers ∧ ∃ raw f R', b :: R = raw ++ R' ∧ HeaderLine lim raw f ∧
      scanHeaders T lim (hs ++ [f]) R' = (.ok (), hs', rest) := by
  have hcount : (hs.length : Int) ≠ lim.headers := by
    intro hc
    rw [scanHeaders.eq_def] at h
    simp [hcr, hlf, hc] at h
  refine ⟨hcount, ?_⟩
  rw [scanHeaders_line hs hcr hlf (beq_eq_false_iff_ne.mpr hcount)] at h
  rcases hN : scanToken T lim.headerName .headerName false endsHeaderName 0 [] (b :: R) with
    ⟨e | name, D₁⟩ <;> rw [hN] at h
  · cases h
  obtain ⟨raw, text, hD, henc, -, hfn, htext⟩ := scanToken_ok_split 0 [] (b :: R) name D₁ hN
  obtain ⟨rfl, hname⟩ := henc.eq_of_plain
  simp only [List.reverse_nil, List.nil_append] at htext
  subst htext
  cases hne : name.isEmpty
  case true => simp [hne] at h
  simp only [hne, Bool.false_eq_true, if_false] at h
  rcases D₁ with _ | ⟨c, D₂⟩
  · cases h
  by_cases hc : c = colon
  case neg => simp [hc] at h
  subst hc
  simp only [bne_self_eq_false, Bool.false_eq_true, if_false] at h
  rcases hI : scanSkip T isIndent D₂ with ⟨e | x, D₃⟩ <;> rw [hI] at h
  · cases h
  dsimp only at h
  rcases hV : scanToken T lim.headerValue .headerValue false endsHeaderValue 0 [] D₃ with
    ⟨e | value, D₄⟩ <;> rw [hV] at h
  · cases h
  rcases D₄ with _ | ⟨d, D₄⟩
  · cases h
  obtain ⟨ind, rfl, hind, hhead, hval, hfv, hd⟩ := headerValue_split hI hV
  have hline : ∀ eol, LineEnd eol →
      HeaderLine lim (name ++ colon :: (ind ++ value ++ eol)) ⟨name, trimRight value⟩ :=
    fun eol heol => ⟨name, ind, value, eol, rfl, by simpa using hne, hname, hind, hhead, hval, heol,
      (fits_iff_fitsAfter _ _).mpr hfn, hfv, rfl⟩
  by_cases hdc : d = cr
  · subst hdc
    rcases D₄ with _ | ⟨e, D₅⟩
    · cases h
    by_cases he : e = lf
    case neg => simp [he] at h
    subst he
    simp only [beq_self_eq_true, if_true, bne_self_eq_false, Bool.false_eq_true, if_false] at h
    exact ⟨_, _, D₅, by simp [hD], hline [cr, lf] (Or.inl rfl), h⟩
  · have hdl : d = lf := by
      simp only [endsHeaderValue, Bool.or_eq_true, beq_iff_eq] at hd
      exact hd.resolve_left hdc
    subst hdl
    have hlc : (lf == cr) = false := by decide
    simp only [hlc, Bool.false_eq_true, if_false] at h
    exact ⟨_, _, D₄, by simp [hD], hline [lf] (Or.inr rfl), h⟩

theorem scanHeaders_ok_split {hs hs' : List Field} {D rest : Bytes}
    (h : scanHeaders T lim hs D = (.ok (), hs', rest)) :
    ∃ raw fs, D = raw ++ rest ∧ HeaderSection lim raw fs ∧ hs' = hs ++ fs ∧
      HeaderRoom lim.headers hs.length fs.length := by
  match D with
  | [] =>
    rw [scanHeaders.eq_def] at h
    cases h
  | b :: R =>
    by_cases hcr : b = cr
    · subst hcr
      rw [scanHeaders.eq_def] at h
      rcases R with _ | ⟨c, R⟩
      · cases h
      by_cases hc : c = lf
      case neg => simp [hc] at h
      subst hc
      simp only [beq_self_eq_true, if_true, bne_self_eq_false, Bool.false_eq_true, if_false,
        Prod.mk.injEq] at h
      obtain ⟨-, rfl, rfl⟩ := h
      exact ⟨[cr, lf], [], rfl, .done (Or.inl rfl), by simp, headerRoom_zero _ _⟩
    by_cases hlf : b = lf
    · subst hlf
      rw [scanHeaders.eq_def] at h
      have hlc : (lf == cr) = false := by decide
      simp only [hlc, beq_self_eq_true, Bool.false_eq_true, if_false, if_true,
        Prod.mk.injEq] at h
      obtain ⟨-, rfl, rfl⟩ := h
      exact ⟨[lf], [], rfl, .done (Or.inr rfl), by simp, headerRoom_zero _ _⟩
    obtain ⟨hc, raw, f, R', hD, hl, h'⟩ :=
      scanHeaders_line_split (beq_eq_false_iff_ne.mpr hcr) (beq_eq_false_iff_ne.mpr hlf) h
    have hlen : R'.length < R.length + 1 := by
      have hsum := congrArg List.length hD
      have hpos := List.length_pos_iff.mpr hl.ne_nil
      simp only [List.length_append, List.length_cons] at hsum
      omega
    obtain ⟨raw', fs, rfl, hsec, rfl, hroom⟩ := scanHeaders_ok_split h'
    refine ⟨raw ++ raw', f :: fs, by simp [hD], .line hl hsec, by simp, ?_⟩
    exact headerRoom_succ.mpr ⟨hc, by simpa using hroom⟩
termination_by D.length
decreasing_by
  simp only [List.length_cons]
  exact hlen

end Headers

/-! ## The end of the request line -/

/-- `S* LF`: blanks other than a line feed, then the line feed. -/
def LineTail (raw : Bytes) : Prop := ∃ s, raw = s ++ [lf] ∧ ∀ x ∈ s, inLine x = true

/-- The rest of a request line after its target, and the request `r'` it makes of `r`. A bare
`S* LF` ends a simple request, which must be a GET. `S+ HTTP/V S* LF` is followed by the header
section, and the method must be one the server implements; version 0.9 makes the request
simple and must come with GET. -/
def EndingText (lim : Limits) (m : Method) (r : Request) (raw : Bytes) (r' : Request) : Prop :=
  (LineTail raw ∧ m = .get ∧ r' = { r with form := .simple, version := Version.v09 }) ∨
  ∃ s rv t rh v hs, raw = s ++ Bytes.ofString "HTTP/" ++ rv ++ t ++ rh ∧ s ≠ [] ∧
    (∀ x ∈ s, inLine x = true) ∧ VersionText rv v ∧ LineTail t ∧ HeaderSection lim rh hs ∧
    HeaderRoom lim.headers r.headers.length hs.length ∧ (v = Version.v09 → m = .get) ∧
    m.implemented = true ∧
    r' =
      { r with
        version := v
        form := if v = Version.v09 then .simple else r.form
        headers := r.headers ++ hs }

theorem httpWord_eq : Bytes.ofString "HTTP/" = [72, 84, 84, 80, 47] := by decide +kernel

theorem isBlank_of_inLine {b : Byte} (h : inLine b = true) : Byte.isBlank b = true := by
  simp only [inLine, Bool.and_eq_true] at h
  exact h.2

theorem LineTail.ends {raw : Bytes} (h : LineTail raw) (R : Bytes) :
    Ends Byte.isBlank (raw ++ R) := by
  obtain ⟨s, rfl, hs⟩ := h
  cases s with
  | nil => exact (by decide : Byte.isBlank lf = true)
  | cons x s => exact isBlank_of_inLine (hs x List.mem_cons_self)

theorem EndingText.ends {lim : Limits} {m : Method} {r r' : Request} {raw : Bytes}
    (h : EndingText lim m r raw r') (R : Bytes) : Ends Byte.isBlank (raw ++ R) := by
  rcases h with ⟨ht, -⟩ | ⟨s, rv, t, rh, v, hs, rfl, hne, hs, -⟩
  · exact ht.ends R
  · obtain ⟨x, s, rfl⟩ := List.exists_cons_of_ne_nil hne
    exact isBlank_of_inLine (hs x List.mem_cons_self)

section Ending

variable {T : Stop} {lim : Limits}

theorem scanSkip_lineTail {t : Bytes} (ht : LineTail t) (R : Bytes) :
    ∃ s, t = s ++ [lf] ∧ scanSkip T inLine (t ++ R) = (.ok lf, lf :: R) := by
  obtain ⟨s, rfl, hs⟩ := ht
  refine ⟨s, rfl, ?_⟩
  rw [List.append_assoc, List.singleton_append]
  exact scanSkip_append hs (by decide)

theorem scanHeaderSection_append {m : Method} {r : Request} {raw : Bytes} {hs : List Field}
    (hsec : HeaderSection lim raw hs) (hroom : HeaderRoom lim.headers r.headers.length hs.length)
    (himp : m.implemented = true) (R : Bytes) :
    scanHeaderSection T lim m r (raw ++ R) = (some { r with headers := r.headers ++ hs }, none, R) := by
  simp [scanHeaderSection, scanHeaders_append hsec r.headers hroom R, himp]

theorem scanHeaderSection_ok_split {m : Method} {r r' : Request} {D rest : Bytes}
    (h : scanHeaderSection T lim m r D = (some r', none, rest)) :
    ∃ raw hs, D = raw ++ rest ∧ HeaderSection lim raw hs ∧
      HeaderRoom lim.headers r.headers.length hs.length ∧ m.implemented = true ∧
      r' = { r with headers := r.headers ++ hs } := by
  unfold scanHeaderSection at h
  rcases hH : scanHeaders T lim r.headers D with ⟨e | u, hs', D'⟩ <;> rw [hH] at h
  · simp at h
  cases himp : m.implemented
  · simp [himp] at h
  simp only [himp, Bool.not_true, Bool.false_eq_true, if_false, Prod.mk.injEq,
    Option.some.injEq, true_and] at h
  obtain ⟨rfl, rfl⟩ := h
  cases u
  obtain ⟨raw, hs, rfl, hsec, rfl, hroom⟩ := scanHeaders_ok_split hH
  exact ⟨raw, hs, rfl, hsec, hroom, rfl, rfl⟩

theorem scanEnding_append {m : Method} {r r' : Request} {raw : Bytes}
    (he : EndingText lim m r raw r') (R : Bytes) :
    scanEnding T lim m r (raw ++ R) = (some r', none, R) := by
  rcases he with ⟨ht, rfl, rfl⟩ | ⟨s, rv, t, rh, v, hs, rfl, -, hsp, hv, ht, hsec, hroom, h09,
    himp, rfl⟩
  · obtain ⟨s, -, hS⟩ := scanSkip_lineTail (T := T) ht R
    simp [scanEnding, hS]
  · have hS : scanSkip T inLine (s ++ Bytes.ofString "HTTP/" ++ rv ++ t ++ rh ++ R) =
        (.ok 72, Bytes.ofString "HTTP/" ++ rv ++ (t ++ (rh ++ R))) := by
      rw [httpWord_eq]
      simp only [List.append_assoc, List.cons_append]
      exact scanSkip_append hsp (by decide)
    have hV := scanVersion_append (T := T) hv (ht.ends (rh ++ R))
    obtain ⟨s₂, rfl, hS₂⟩ := scanSkip_lineTail (T := T) ht (rh ++ R)
    have h72 : ((72 : Byte) == lf) = false := by decide
    simp only [scanEnding, hS, h72, hV, Bool.false_eq_true, if_false, hS₂, bne_self_eq_false,
      List.tail_cons]
    by_cases hv9 : v = Version.v09
    · obtain rfl := h09 hv9
      subst hv9
      simp only [beq_self_eq_true, if_true, bne_self_eq_false, Bool.and_false,
        Bool.false_eq_true, if_false]
      rw [scanHeaderSection_append (r := { r with form := .simple, version := Version.v09 }) hsec
        hroom himp]
    · simp only [beq_eq_false_iff_ne.mpr hv9, Bool.false_and, Bool.false_eq_true, if_false]
      rw [scanHeaderSection_append (r := { r with version := v }) hsec hroom himp]
      simp [hv9]

theorem scanEnding_ok_split {m : Method} {r r' : Request} {D rest : Bytes}
    (hD : Ends Byte.isBlank D) (h : scanEnding T lim m r D = (some r', none, rest)) :
    ∃ raw, D = raw ++ rest ∧ EndingText lim m r raw r' := by
  unfold scanEnding at h
  rcases hS : scanSkip T inLine D with ⟨e | ch, D₁⟩ <;> rw [hS] at h
  · simp at h
  obtain ⟨s, R₁, rfl, hs, rfl, -⟩ := scanSkip_ok_split hS
  dsimp only at h
  by_cases hlf : ch = lf
  · subst hlf
    cases hm : m != .get
    · simp only [beq_self_eq_true, if_true, hm, Bool.false_eq_true, if_false, List.tail_cons,
        Prod.mk.injEq, Option.some.injEq, true_and] at h
      obtain ⟨rfl, rfl⟩ := h
      exact ⟨s ++ [lf], by simp, Or.inl ⟨⟨s, rfl, hs⟩, by simpa using hm, rfl⟩⟩
    · simp [hm] at h
  simp only [beq_eq_false_iff_ne.mpr hlf, Bool.false_eq_true, if_false] at h
  rcases hV : scanVersion T (ch :: R₁) with ⟨e | v, D₂⟩ <;> rw [hV] at h
  · simp at h
  obtain ⟨rv, hD₂, hv, hend⟩ := scanVersion_ok_split hV
  dsimp only at h
  rcases hS₂ : scanSkip T inLine D₂ with ⟨e | ch₂, D₃⟩ <;> rw [hS₂] at h
  · simp at h
  obtain ⟨s₂, R₃, rfl, hs₂, rfl, -⟩ := scanSkip_ok_split hS₂
  dsimp only at h
  by_cases hl₂ : ch₂ = lf
  case neg => simp [hl₂] at h
  subst hl₂
  simp only [bne_self_eq_false, Bool.false_eq_true, if_false, List.tail_cons] at h
  have hsne : s ≠ [] := by
    rintro rfl
    rw [httpWord_eq] at hD₂
    simp only [List.cons_append, List.cons.injEq] at hD₂
    rw [hD₂.1] at hD
    exact absurd hD (by simp only [List.nil_append, Ends]; decide)
  have hline : LineTail (s₂ ++ [lf]) := ⟨s₂, rfl, hs₂⟩
  by_cases hv9 : v = Version.v09
  · subst hv9
    cases hm : m != .get
    · simp only [beq_self_eq_true, if_true, hm, Bool.and_false, Bool.false_eq_true,
        if_false] at h
      obtain ⟨rh, hs', rfl, hsec, hroom, himp, rfl⟩ := scanHeaderSection_ok_split h
      refine ⟨s ++ Bytes.ofString "HTTP/" ++ rv ++ (s₂ ++ [lf]) ++ rh, by simp [hD₂],
        Or.inr ⟨s, rv, _, rh, _, hs', rfl, hsne, hs, hv, hline, hsec, hroom,
          fun _ => by simpa using hm, himp, by simp⟩⟩
    · simp [hm] at h
  · have hv9' : (v == Version.v09) = false := beq_eq_false_iff_ne.mpr hv9
    simp only [hv9', Bool.false_and, Bool.false_eq_true, if_false] at h
    obtain ⟨rh, hs', rfl, hsec, hroom, himp, rfl⟩ := scanHeaderSection_ok_split h
    refine ⟨s ++ Bytes.ofString "HTTP/" ++ rv ++ (s₂ ++ [lf]) ++ rh, by simp [hD₂],
      Or.inr ⟨s, rv, _, rh, _, hs', rfl, hsne, hs, hv, hline, hsec, hroom,
        fun h => absurd h hv9, himp, by simp [hv9]⟩⟩

end Ending

/-! ## The request target -/

/-- `['?' Q]`: no query, or a question mark and the query variables. -/
def QueryPart (lim : Limits) (raw : Bytes) (query : List Field) : Prop :=
  raw = [] ∧ query = [] ∨ ∃ q, raw = question :: q ∧ QueryText lim q query

/-- `['#' F]`: no fragment, or a hash and the fragment, a run of escapes and bytes that are not
blank, decoded within its limit. -/
def FragmentPart (lim : Limits) (raw fragment : Bytes) : Prop :=
  raw = [] ∧ fragment = [] ∨
    ∃ f, raw = hash :: f ∧ Encoded true Byte.isBlank f fragment ∧ Fits lim.fragment fragment

/-- `P ['?' Q] ['#' F]`: the request target, and the uri, query variables and fragment it
gives. -/
def TargetText (lim : Limits) (raw uri : Bytes) (query : List Field) (fragment : Bytes) : Prop :=
  ∃ rp rq rf, raw = rp ++ rq ++ rf ∧ PathText lim rp uri ∧ QueryPart lim rq query ∧
    FragmentPart lim rf fragment

theorem ends_of_nonempty {p : Byte → Bool} {D : Bytes} (h : Ends p D) :
    ∃ b R, D = b :: R ∧ p b = true := by
  cases D with
  | nil => exact h.elim
  | cons b R => exact ⟨b, R, rfl, h⟩

theorem FragmentPart.ends {lim : Limits} {rf fragment D : Bytes} (hf : FragmentPart lim rf fragment)
    (hD : Ends Byte.isBlank D) : Ends (fun b => Byte.isBlank b || b == hash) (rf ++ D) := by
  rcases hf with ⟨rfl, -⟩ | ⟨f, rfl, -⟩
  · obtain ⟨b, R, rfl, hb⟩ := ends_of_nonempty hD
    simp [Ends, hb]
  · simp [Ends]

theorem QueryPart.ends {lim : Limits} {rq D : Bytes} {query : List Field}
    (hq : QueryPart lim rq query) (hD : Ends (fun b => Byte.isBlank b || b == hash) D) :
    Ends endsPath (rq ++ D) := by
  rcases hq with ⟨rfl, -⟩ | ⟨q, rfl, -⟩
  · obtain ⟨b, R, rfl, hb⟩ := ends_of_nonempty hD
    simp only [Bool.or_eq_true, beq_iff_eq] at hb
    rcases hb with hb | rfl <;> simp [Ends, endsPath, *]
  · simp [Ends, endsPath]

section Target

variable {T : Stop} {lim : Limits}

theorem scanAfterQuery_append {m : Method} {r r' : Request} {rf fragment ending : Bytes}
    (hf : FragmentPart lim rf fragment) (hr : r.fragment = [])
    (he : EndingText lim m { r with fragment := fragment } ending r') (R : Bytes) :
    scanAfterQuery T lim m r (rf ++ (ending ++ R)) = (some r', none, R) := by
  rcases hf with ⟨rfl, rfl⟩ | ⟨f, rfl, henc, hfit⟩
  · have hr' : { r with fragment := [] } = r := by
      cases r
      simp only at hr
      rw [hr]
    rw [hr'] at he
    obtain ⟨c, D, hcD, hc⟩ := ends_of_nonempty (he.ends R)
    have hch : (c == hash) = false := beq_eq_false_of_isBlank (by rw [hc]; decide)
    rw [List.nil_append, hcD]
    simp only [scanAfterQuery, hch, Bool.false_eq_true, if_false]
    rw [← hcD, scanEnding_append he]
  · have hF := scanToken_append (T := T) lim.fragment .fragment
      (he.ends R) henc 0 [] ((fits_iff_fitsAfter _ _).mp hfit)
    simp only [List.reverse_nil, List.nil_append] at hF
    simp only [List.cons_append, scanAfterQuery, beq_self_eq_true, if_true, hF]
    exact scanEnding_append he R

theorem scanAfterQuery_ok_split {m : Method} {r r' : Request} {D rest : Bytes}
    (hD : Ends (fun b => Byte.isBlank b || b == hash) D) (hr : r.fragment = [])
    (h : scanAfterQuery T lim m r D = (some r', none, rest)) :
    ∃ rf fragment ending, D = rf ++ (ending ++ rest) ∧ FragmentPart lim rf fragment ∧
      EndingText lim m { r with fragment := fragment } ending r' := by
  obtain ⟨c, D', rfl, hc⟩ := ends_of_nonempty hD
  unfold scanAfterQuery at h
  by_cases hch : c = hash
  · subst hch
    simp only [beq_self_eq_true, if_true] at h
    rcases hF : scanToken T lim.fragment .fragment true Byte.isBlank 0 [] D' with
      ⟨e | fragment, D₁⟩ <;> rw [hF] at h
    · simp at h
    obtain ⟨f, text, rfl, henc, hend, hfit, htext⟩ := scanToken_ok_split 0 [] D' fragment D₁ hF
    simp only [List.reverse_nil, List.nil_append] at htext
    subst htext
    obtain ⟨ending, rfl, he⟩ := scanEnding_ok_split hend h
    exact ⟨hash :: f, fragment, ending, by simp, Or.inr ⟨f, rfl, henc,
      (fits_iff_fitsAfter _ _).mpr hfit⟩, he⟩
  · simp only [beq_eq_false_iff_ne.mpr hch, Bool.false_eq_true, if_false] at h
    have hb : Byte.isBlank c = true := by simpa [hch] using hc
    obtain ⟨ending, hD', he⟩ := scanEnding_ok_split (show Ends Byte.isBlank (c :: D') from hb) h
    have hr' : { r with fragment := [] } = r := by
      cases r
      simp only at hr
      rw [hr]
    exact ⟨[], [], ending, by simp [hD'], Or.inl ⟨rfl, rfl⟩, by rw [hr']; exact he⟩

theorem scanAfterPath_append {m : Method} {r r' : Request} {rq rf ending fragment : Bytes}
    {query : List Field} (hq : QueryPart lim rq query) (hf : FragmentPart lim rf fragment)
    (hrq : r.query = []) (hrf : r.fragment = [])
    (he : EndingText lim m { r with query := query, fragment := fragment } ending r') (R : Bytes) :
    scanAfterPath T lim m r (rq ++ (rf ++ (ending ++ R))) = (some r', none, R) := by
  rcases hq with ⟨rfl, rfl⟩ | ⟨q, rfl, hq⟩
  · have hr' : { r with query := [], fragment := fragment } = { r with fragment := fragment } := by
      cases r
      simp only at hrq
      rw [hrq]
    rw [hr'] at he
    obtain ⟨c, D, hcD, hc⟩ := ends_of_nonempty (hf.ends (he.ends R))
    have hcq : (c == question) = false := by
      simp only [Bool.or_eq_true, beq_iff_eq] at hc
      rcases hc with hc | rfl
      · exact beq_eq_false_of_isBlank (by rw [hc]; decide)
      · decide
    rw [List.nil_append, hcD]
    simp only [scanAfterPath, hcq, Bool.false_eq_true, if_false]
    rw [← hcD, scanAfterQuery_append hf hrf he]
  · have hQ := scanQuery_append (T := T) (hf.ends (he.ends R)) hq r.query
    simp only [List.cons_append, scanAfterPath, beq_self_eq_true, if_true]
    rw [hQ]
    dsimp only
    rw [hrq, List.nil_append]
    exact scanAfterQuery_append (r := { r with query := query }) hf hrf he R

theorem scanAfterPath_ok_split {m : Method} {r r' : Request} {D rest : Bytes}
    (hD : Ends endsPath D) (hrq : r.query = []) (hrf : r.fragment = [])
    (h : scanAfterPath T lim m r D = (some r', none, rest)) :
    ∃ rq query rf fragment ending, D = rq ++ (rf ++ (ending ++ rest)) ∧
      QueryPart lim rq query ∧ FragmentPart lim rf fragment ∧
      EndingText lim m { r with query := query, fragment := fragment } ending r' := by
  obtain ⟨c, D', rfl, hc⟩ := ends_of_nonempty hD
  unfold scanAfterPath at h
  by_cases hcq : c = question
  · subst hcq
    simp only [beq_self_eq_true, if_true] at h
    rcases hQ : scanQuery T lim r.query D' with ⟨res, vars, D₁⟩
    rw [hQ] at h
    rcases res with e | u
    · simp at h
    cases u
    dsimp only at h
    obtain ⟨q, query, rfl, hq, hend, rfl⟩ := scanQuery_ok_split hQ
    rw [hrq, List.nil_append] at h
    obtain ⟨rf, fragment, ending, rfl, hf, he⟩ :=
      scanAfterQuery_ok_split (r := { r with query := query }) hend hrf h
    exact ⟨question :: q, query, rf, fragment, ending, by simp, Or.inr ⟨q, rfl, hq⟩, hf, he⟩
  · simp only [beq_eq_false_iff_ne.mpr hcq, Bool.false_eq_true, if_false] at h
    have hc' : Ends (fun b => Byte.isBlank b || b == hash) (c :: D') := by
      simp only [endsPath, Bool.or_eq_true, beq_iff_eq] at hc
      simp only [Ends, Bool.or_eq_true, beq_iff_eq]
      rcases hc with (hc | hc) | hc
      · exact Or.inl hc
      · exact absurd hc hcq
      · exact Or.inr hc
    obtain ⟨rf, fragment, ending, hD', hf, he⟩ := scanAfterQuery_ok_split hc' hrf h
    have hr' : { r with query := [], fragment := fragment } = { r with fragment := fragment } := by
      cases r
      simp only at hrq
      rw [hrq]
    exact ⟨[], [], rf, fragment, ending, hD', Or.inl ⟨rfl, rfl⟩, hf, by rw [hr']; exact he⟩

end Target

/-! ## Whole requests -/

/-- `W* M S+ P ['?' Q] ['#' F] (S* LF | S+ HTTP/V S* LF H)`: a request, and the request it
reads as. The method token is at most seven bytes that are not blank, and names a method up to
ASCII case. -/
def RequestText (lim : Limits) (w : Bytes) (r : Request) : Prop :=
  ∃ lead tok sp target ending m uri query fragment,
    w = lead ++ tok ++ sp ++ target ++ ending ∧ (∀ x ∈ lead, Byte.isBlank x = true) ∧
    tok.length ≤ Method.maxNameLength ∧ (∀ x ∈ tok, Byte.isBlank x = false) ∧
    Bytes.toUpper tok = Bytes.ofString m.name ∧ sp ≠ [] ∧ (∀ x ∈ sp, inLine x = true) ∧
    TargetText lim target uri query fragment ∧
    EndingText lim m { method := m, uri := uri, query := query, fragment := fragment } ending r

theorem ofString_name_ne_nil (m : Method) : Bytes.ofString m.name ≠ [] := by
  cases m <;> decide +kernel

/-- The method token names `m` exactly when it spells the name of `m` up to ASCII case. -/
theorem matchMethod_eq_some {tok : Bytes} {m : Method} :
    matchMethod tok = some m ↔ Bytes.toUpper tok = Bytes.ofString m.name := by
  constructor
  · intro h
    have hm := List.find?_some h
    simp only [beq_iff_eq] at hm
    exact hm.symm
  · intro h
    unfold matchMethod
    rw [h]
    cases m <;> decide +kernel

theorem PathText.head {lim : Limits} {raw uri : Bytes} (h : PathText lim raw uri) :
    ∃ x R, raw = x :: R ∧ Byte.isBlank x = false := by
  obtain ⟨p, henc, hhead, -⟩ := h
  cases henc with
  | nil => cases hhead
  | plain hs _ _ =>
    simp only [endsPath, Bool.or_eq_false_iff] at hs
    exact ⟨_, _, rfl, hs.1.1⟩
  | escape _ _ _ _ _ => exact ⟨_, _, rfl, by decide⟩

theorem eq_lf_of_isBlank {b : Byte} (hb : Byte.isBlank b = true) (hl : inLine b = false) :
    b = lf := by
  simp only [inLine, hb, Bool.and_true, bne_eq_false_iff_eq] at hl
  exact hl

section Request

variable {T : Stop} {lim : Limits}

theorem scanRequest_append {w : Bytes} {r : Request} (h : RequestText lim w r) (R : Bytes) :
    scanRequest T lim (w ++ R) = (some r, none, R) := by
  obtain ⟨lead, tok, sp, target, ending, m, uri, query, fragment, rfl, hlead, hlen, htok, hname,
    hsp, hspin, ⟨rp, rq, rf, rfl, hp, hq, hf⟩, he⟩ := h
  obtain ⟨t, tok', rfl⟩ : ∃ t tok', tok = t :: tok' := by
    cases tok with
    | nil => exact absurd hname.symm (ofString_name_ne_nil m)
    | cons t tok' => exact ⟨t, tok', rfl⟩
  obtain ⟨s₀, sp', rfl⟩ := List.exists_cons_of_ne_nil hsp
  obtain ⟨x, rp', rfl, hx⟩ := hp.head
  have hE := hq.ends (hf.ends (he.ends R))
  have h₁ := scanSkip_append (T := T) (R := tok' ++ s₀ :: (sp' ++ x :: (rp' ++ (rq ++ (rf ++
    (ending ++ R)))))) hlead (htok t List.mem_cons_self)
  have h₂ := scanMethod_append (T := T) (R := sp' ++ x :: (rp' ++ (rq ++ (rf ++ (ending ++ R)))))
    (isBlank_of_inLine (hspin s₀ List.mem_cons_self)) (t :: tok') Method.maxNameLength [] htok hlen
  have h₃ : matchMethod (t :: tok') = some m := matchMethod_eq_some.mpr hname
  have hxl : inLine x = false := by simp [inLine, hx]
  have h₄ := scanSkip_append (T := T) (R := rp' ++ (rq ++ (rf ++ (ending ++ R)))) hspin hxl
  have h₅ := scanPath_append (T := T) hp hE
  have h₆ := scanAfterPath_append (T := T) (r := { method := m, uri := uri }) hq hf rfl rfl he R
  have hxlf : (x == lf) = false := beq_eq_false_of_isBlank (by rw [hx]; decide)
  simp only [List.append_assoc, List.cons_append, List.nil_append, List.reverse_nil] at h₁ h₂ h₄ h₅ ⊢
  simp only [scanRequest, h₁, h₂, h₃, h₄, hxlf, Bool.false_eq_true, if_false, h₅, h₆]

theorem scanRequest_ok_split {D rest : Bytes} {r : Request}
    (h : scanRequest T lim D = (some r, none, rest)) :
    ∃ w, D = w ++ rest ∧ RequestText lim w r := by
  unfold scanRequest at h
  rcases h₁ : scanSkip T Byte.isBlank D with ⟨e | t, D₁⟩ <;> rw [h₁] at h
  · simp at h
  obtain ⟨lead, R₁, rfl, hlead, rfl, -⟩ := scanSkip_ok_split h₁
  dsimp only at h
  rcases h₂ : scanMethod T Method.maxNameLength [] (t :: R₁) with ⟨e | tok, D₂⟩ <;> rw [h₂] at h
  · simp at h
  obtain ⟨tok', hD₁, htok, hlen, hend, htok'⟩ := scanMethod_ok_split _ _ _ _ _ h₂
  simp only [List.reverse_nil, List.nil_append] at htok'
  subst htok'
  dsimp only at h
  rcases h₃ : matchMethod tok with _ | m <;> rw [h₃] at h
  · simp at h
  dsimp only at h
  rcases h₄ : scanSkip T inLine D₂ with ⟨e | ch, D₃⟩ <;> rw [h₄] at h
  · simp at h
  obtain ⟨sp, R₃, rfl, hsp, rfl, hch⟩ := scanSkip_ok_split h₄
  dsimp only at h
  by_cases hchl : ch = lf
  case pos => simp [hchl] at h
  simp only [beq_eq_false_iff_ne.mpr hchl, Bool.false_eq_true, if_false] at h
  rcases h₅ : scanPath T lim (ch :: R₃) with ⟨e | uri, D₅⟩ <;> rw [h₅] at h
  · simp at h
  obtain ⟨rp, hD₅, hp, hpend⟩ := scanPath_ok_split h₅
  dsimp only at h
  obtain ⟨rq, query, rf, fragment, ending, rfl, hq, hf, he⟩ :=
    scanAfterPath_ok_split (r := { method := m, uri := uri }) hpend rfl rfl h
  have hspne : sp ≠ [] := by
    rintro rfl
    exact hchl (eq_lf_of_isBlank hend hch)
  refine ⟨lead ++ tok ++ sp ++ (rp ++ rq ++ rf) ++ ending, ?_,
    ⟨lead, tok, sp, rp ++ rq ++ rf, ending, m, uri, query, fragment, rfl, hlead, hlen, htok,
      matchMethod_eq_some.mp h₃, hspne, hsp, ⟨rp, rq, rf, rfl, hp, hq, hf⟩, he⟩⟩
  rw [hD₁, hD₅]
  simp

end Request

theorem scanRequest_eq_some_iff {T : Stop} {lim : Limits} {D rest : Bytes} {r : Request} :
    scanRequest T lim D = (some r, none, rest) ↔ ∃ w, D = w ++ rest ∧ RequestText lim w r := by
  constructor
  · exact scanRequest_ok_split
  · rintro ⟨w, rfl, hw⟩
    exact scanRequest_append hw rest

end Reading

open Transport Reading

/-- **The reader accepts exactly the request grammar.** Over any transport that delivers the
stream `D` and stops with `T`, the reader returns the request `r` and no failure, having
consumed `k` bytes, exactly when `D` begins with a request of the grammar of `k` bytes that
reads as `r`; the bytes after it, and how the stream ends, play no part. -/
theorem parse_accepts_request_grammar (lim : Limits) {s : Script} {D : Bytes} {T : Stop}
    (hs : s.Yields D T) (r : Request) (k : Int) :
    ((Request.parse lim (Cursor.ofScript s)).error = none ∧
        (Request.parse lim (Cursor.ofScript s)).request = some r ∧
        (Request.parse lim (Cursor.ofScript s)).consumed = k) ↔
      ∃ w rest, D = w ++ rest ∧ RequestText lim w r ∧ k = w.length := by
  obtain ⟨hreq, herr, hcons⟩ := parse_eq_scan lim hs
  rw [hreq, herr, hcons]
  constructor
  · rintro ⟨he, hr, rfl⟩
    have hscan : scanRequest T lim D = (some r, none, (scanRequest T lim D).2.2) := by
      rw [← hr, ← he]
    obtain ⟨w, hD, hw⟩ := scanRequest_eq_some_iff.mp hscan
    refine ⟨w, _, hD, hw, ?_⟩
    have hlen := congrArg List.length hD
    simp only [List.length_append] at hlen
    omega
  · rintro ⟨w, rest, rfl, hw, rfl⟩
    rw [scanRequest_append hw rest]
    simp

/-- A one-line GET, handed out in one read, reads as a simple request for the index of the
root. -/
theorem parse_accepts_simple_get :
    (⟨[Reply.ofBytes [71, 69, 84, 32, 47, 10]], Reply.ofBytes []⟩ : Script).Yields
      [71, 69, 84, 32, 47, 10] .endOfStream ∧
    ((Request.parse Limits.default
        (Cursor.ofScript ⟨[Reply.ofBytes [71, 69, 84, 32, 47, 10]], Reply.ofBytes []⟩)).error =
        none ∧
      (Request.parse Limits.default
        (Cursor.ofScript ⟨[Reply.ofBytes [71, 69, 84, 32, 47, 10]], Reply.ofBytes []⟩)).request =
        some
          { method := .get
            form := .simple
            uri := Bytes.ofString "/index.html"
            version := Version.v09 } ∧
      (Request.parse Limits.default
        (Cursor.ofScript ⟨[Reply.ofBytes [71, 69, 84, 32, 47, 10]], Reply.ofBytes []⟩)).consumed =
        6) := by
  have hs := Script.yields_one_read (d := [71, 69, 84, 32, 47, 10]) (by simp) (by decide)
  have hw : RequestText Limits.default [71, 69, 84, 32, 47, 10]
      { method := .get
        form := .simple
        uri := Bytes.ofString "/index.html"
        version := Version.v09 } :=
    ⟨[], [71, 69, 84], [32], [47], [10], .get, Bytes.ofString "/index.html", [], [], rfl,
      by simp, by decide, by decide +kernel, by decide +kernel, by simp, by decide +kernel,
      ⟨[47], [], [], rfl, ⟨[47], .plain (by decide +kernel) (by decide) .nil, rfl,
        Or.inr (by decide +kernel), by decide +kernel⟩, Or.inl ⟨rfl, rfl⟩, Or.inl ⟨rfl, rfl⟩⟩,
      Or.inl ⟨⟨[], rfl, by simp⟩, rfl, rfl⟩⟩
  exact ⟨hs, (parse_accepts_request_grammar Limits.default hs _ 6).mpr ⟨_, [], by simp, hw, rfl⟩⟩

end StaticHttp
