import StaticHttp.Proofs.Request.Refine

/-!
# A request is decided by a prefix of the stream

The reader looks at one byte ahead at most, and only while it needs it. So what it reads from
a stream is decided by the bytes it has looked at: reading from a longer stream gives the same
request, the same failure and the same count of bytes taken, unless the stream ran out under the
reader; and that is the only way the reader fails with a failure of the transport, having
taken every byte there was.

`Decided f T D` says this of one step `f` of the reader, read as a function of the bytes (the
mirror functions of `StaticHttp.Proofs.Request.Scan`): reading from `D` with stop `T` either
runs out of `D`, failing with `T`, or reads the same from `D ++ u` with any stop. Every step is
decided by every prefix, the loops by induction on their recursion, and the whole request by
composing its steps.

Main statements:
* `scanToken_decided`, `scanQuery_decided`, `scanHeaders_decided`: the loops of the reader.
* `scanRequest_decided`: a whole request.
* `parse_decides_on_prefix`: the reader over any two transports, one of which delivers a prefix
  of what the other delivers, agrees on everything unless it ran out of the shorter stream.
-/

namespace StaticHttp

namespace Reading

open Transport

/-! ## Reads that a prefix decides -/

/-- A result of reading from a byte stream: it leaves the rest of the stream after what it
took, and it may say that the stream ran out under it. -/
class Resumable (β : Type) where
  /-- The bytes the read leaves. -/
  left : β → Bytes
  /-- The same result, with the bytes `u` still to come after those it leaves. -/
  extend : β → Bytes → β
  /-- The read ran out of bytes and failed with the stop `T`. -/
  ranOut : β → Stop → Prop

/-- One piece: the piece or the failure, and the bytes after it. -/
instance (α : Type) : Resumable (Scanned α) where
  left r := r.2
  extend r u := (r.1, r.2 ++ u)
  ranOut r T := r.1 = .error (.transport T)

/-- The loops over query variables and header lines, which keep the fields read so far also
when they fail. -/
instance : Resumable (Except ParseError Unit × List Field × Bytes) where
  left r := r.2.2
  extend r u := (r.1, r.2.1, r.2.2 ++ u)
  ranOut r T := r.1 = .error (.transport T)

/-- A request as far as it was read, and the failure if there was one. -/
instance : Resumable Outcome where
  left r := r.2.2
  extend r u := (r.1, r.2.1, r.2.2 ++ u)
  ranOut r T := r.2.1 = some (.transport T)

/-- Reading with `f` from the bytes `D` of a stream that stops with `T` is decided by `D`:
either it runs out of `D`, failing with `T` having taken every byte, or it does not, and
reading from `D ++ u` with any stop gives the same, with `u` still to come. -/
def Decided {β : Type} [Resumable β] (f : Stop → Bytes → β) (T : Stop) (D : Bytes) : Prop :=
  (Resumable.ranOut (f T D) T ∧ Resumable.left (f T D) = []) ∨
    ((∀ t, ¬ Resumable.ranOut (f T D) t) ∧
      ∀ T' u, f T' (D ++ u) = Resumable.extend (f T D) u)

section Unfold

variable {α : Type} {T : Stop} {D : Bytes}

theorem decided_scanned_iff {f : Stop → Bytes → Scanned α} :
    Decided f T D ↔ f T D = (.error (.transport T), []) ∨
      ((∀ t, (f T D).1 ≠ .error (.transport t)) ∧
        ∀ T' u, f T' (D ++ u) = ((f T D).1, (f T D).2 ++ u)) := by
  constructor
  · rintro (⟨hout, hleft⟩ | h)
    · exact Or.inl (Prod.ext hout hleft)
    · exact Or.inr h
  · rintro (hout | h)
    · exact Or.inl ⟨by rw [hout]; rfl, by rw [hout]; rfl⟩
    · exact Or.inr h

theorem decided_fields_iff {f : Stop → Bytes → Except ParseError Unit × List Field × Bytes} :
    Decided f T D ↔ ((f T D).1 = .error (.transport T) ∧ (f T D).2.2 = []) ∨
      ((∀ t, (f T D).1 ≠ .error (.transport t)) ∧
        ∀ T' u, f T' (D ++ u) = ((f T D).1, (f T D).2.1, (f T D).2.2 ++ u)) :=
  Iff.rfl

theorem decided_outcome_iff {f : Stop → Bytes → Outcome} :
    Decided f T D ↔ ((f T D).2.1 = some (.transport T) ∧ (f T D).2.2 = []) ∨
      ((∀ t, (f T D).2.1 ≠ some (.transport t)) ∧
        ∀ T' u, f T' (D ++ u) = ((f T D).1, (f T D).2.1, (f T D).2.2 ++ u)) :=
  Iff.rfl

end Unfold

section Generic

variable {β : Type} [Resumable β] {T : Stop}

/-- A read that goes on as another one, on every stream that begins with `D`, is decided by
`D` when that one is decided by what it reads. -/
theorem Decided.of_eq {f g : Stop → Bytes → β} {D E : Bytes} (h₀ : f T D = g T E)
    (h : ∀ T' u, f T' (D ++ u) = g T' (E ++ u)) (hg : Decided g T E) : Decided f T D := by
  unfold Decided at hg ⊢
  rw [h₀]
  rcases hg with hout | ⟨hnot, hext⟩
  · exact Or.inl hout
  · exact Or.inr ⟨hnot, fun T' u => by rw [h, hext]⟩

theorem Decided.scanned {α : Type} {f : Stop → Bytes → Scanned α} {D rest : Bytes}
    {x : Except ParseError α} (hd : Decided f T D) (h : f T D = (x, rest)) :
    (x = .error (.transport T) ∧ rest = []) ∨
      ((∀ t, x ≠ .error (.transport t)) ∧ ∀ T' u, f T' (D ++ u) = (x, rest ++ u)) := by
  rcases decided_scanned_iff.mp hd with hout | ⟨hnot, hext⟩
  · rw [h] at hout
    cases hout
    exact Or.inl ⟨rfl, rfl⟩
  · rw [h] at hnot hext
    exact Or.inr ⟨hnot, hext⟩

theorem Decided.scanned_ok {α : Type} {f : Stop → Bytes → Scanned α} {D rest : Bytes} {a : α}
    (hd : Decided f T D) (h : f T D = (.ok a, rest)) :
    ∀ T' u, f T' (D ++ u) = (.ok a, rest ++ u) := by
  rcases hd.scanned h with ⟨h, -⟩ | ⟨-, hext⟩
  · cases h
  · exact hext

end Generic

/-! ## The pieces of a request line -/

section Pieces

variable {lim : Limits}

theorem scanSkip_decided (p : Byte → Bool) (T : Stop) (D : Bytes) :
    Decided (fun T D => scanSkip T p D) T D := by
  rw [decided_scanned_iff]
  cases h : D.dropWhile p with
  | nil => exact Or.inl (by simp [scanSkip, h])
  | cons b R =>
    have hD : scanSkip T p D = (.ok b, b :: R) := by simp [scanSkip, h]
    refine Or.inr ⟨by simp [hD], fun T' u => ?_⟩
    have hu : (D ++ u).dropWhile p = b :: (R ++ u) := by
      rw [List.dropWhile_append, h]
      simp
    rw [hD]
    simp [scanSkip, hu]

theorem scanMethod_decided (T : Stop) :
    ∀ (room : Nat) (acc D : Bytes), Decided (fun T D => scanMethod T room acc D) T D
  | _, _, [] => by
    rw [decided_scanned_iff]
    exact Or.inl (by simp [scanMethod])
  | room, acc, b :: D => by
    rw [decided_scanned_iff]
    cases hb : Byte.isBlank b
    · cases room with
      | zero => exact Or.inr ⟨by simp [scanMethod, hb], fun T' u => by simp [scanMethod, hb]⟩
      | succ room =>
        have ih := decided_scanned_iff.mp (scanMethod_decided T room (b :: acc) D)
        simp only [List.cons_append, scanMethod, hb, Bool.false_eq_true, if_false]
        exact ih
    · have hD : ∀ T D, scanMethod T room acc (b :: D) = (.ok acc.reverse, b :: D) := by
        intro T D
        cases room <;> simp [scanMethod, hb]
      exact Or.inr ⟨by simp [hD], fun T' u => by simp [hD]⟩

theorem scanToken_decided (T : Stop) (limit : Int) (what : Component) (decode : Bool)
    (stop : Byte → Bool) :
    ∀ (n : Nat) (acc D : Bytes),
      Decided (fun T D => scanToken T limit what decode stop n acc D) T D
  | _, _, [] => by
    rw [decided_scanned_iff]
    exact Or.inl (by simp [scanToken])
  | n, acc, b :: D => by
    rw [decided_scanned_iff]
    cases hs : stop b
    case true =>
      exact Or.inr ⟨by simp [scanToken_cons_stop hs],
        fun T' u => by simp [List.cons_append, scanToken_cons_stop hs]⟩
    cases hd : (decode && b == percent)
    case false =>
      simp only [List.cons_append, scanToken_cons_plain hs hd]
      by_cases hn : limit ≤ (n : Int)
      · simp [hn]
      · simp only [hn, if_false]
        exact decided_scanned_iff.mp (scanToken_decided T limit what decode stop (n + 1) (b :: acc) D)
    -- An escape takes its two digits before either is checked, so it runs out of bytes
    -- exactly when fewer than two are left.
    rcases D with _ | ⟨hi, _ | ⟨lo, D'⟩⟩
    · exact Or.inl (by simp [scanToken_cons_escape hs hd, scanEscape])
    · exact Or.inl (by simp [scanToken_cons_escape hs hd, scanEscape])
    simp only [List.cons_append, scanToken_cons_escape hs hd, scanEscape]
    cases hh : Byte.hexValue? hi with
    | none => simp
    | some h =>
      cases hl : Byte.hexValue? lo with
      | none => simp
      | some l =>
        dsimp only
        by_cases hn : limit ≤ (n : Int)
        · simp [hn]
        · simp only [hn, if_false]
          exact decided_scanned_iff.mp
            (scanToken_decided T limit what decode stop (n + 1) ((h * 16 + l) :: acc) D')

theorem scanPath_decided (T : Stop) (D : Bytes) : Decided (fun T D => scanPath T lim D) T D := by
  rw [decided_scanned_iff]
  rcases decided_scanned_iff.mp (scanToken_decided T lim.uri .path true endsPath 0 [] D) with
    hout | ⟨hnot, hext⟩
  · exact Or.inl (by simp [scanPath, hout])
  · rcases ht : scanToken T lim.uri .path true endsPath 0 [] D with ⟨e | p, rest⟩
    · rw [ht] at hnot hext
      exact Or.inr ⟨by simpa [scanPath, ht] using hnot, fun T' u => by simp [scanPath, ht, hext]⟩
    · rw [ht] at hext
      refine Or.inr ⟨fun t => ?_, fun T' u => ?_⟩
      · simp only [scanPath, ht]
        split <;> simp
      · simp only [scanPath, ht, hext]
        split <;> rfl

theorem scanWord_decided (T : Stop) :
    ∀ (w D : Bytes), Decided (fun T D => scanWord T w D) T D
  | [], D => by
    rw [decided_scanned_iff]
    exact Or.inr ⟨by simp [scanWord], fun T' u => by simp [scanWord]⟩
  | _ :: _, [] => by
    rw [decided_scanned_iff]
    exact Or.inl rfl
  | w :: ws, b :: D => by
    rw [decided_scanned_iff]
    cases hb : b != w
    · simp only [List.cons_append, scanWord, hb, Bool.false_eq_true, if_false]
      exact decided_scanned_iff.mp (scanWord_decided T ws D)
    · exact Or.inr ⟨by simp [scanWord, hb], fun T' u => by simp [scanWord, hb]⟩

theorem scanNumbers_decided (T : Stop) :
    ∀ (room : Nat) (seenDot : Bool) (digits : Nat) (major minor : Int) (D : Bytes),
      Decided (fun T D => scanNumbers T room seenDot digits major minor D) T D
  | _, _, _, _, _, [] => by
    rw [decided_scanned_iff]
    exact Or.inl (by simp [scanNumbers])
  | room, seenDot, digits, major, minor, b :: D => by
    rw [decided_scanned_iff]
    cases hb : Byte.isBlank b
    case true =>
      have h : ∀ T D, scanNumbers T room seenDot digits major minor (b :: D) =
          (.ok (seenDot, digits, major, minor), b :: D) := by
        intro T D
        cases room <;> simp [scanNumbers, hb]
      exact Or.inr ⟨by simp [h], fun T' u => by simp [h]⟩
    cases room with
    | zero => exact Or.inr ⟨by simp [scanNumbers, hb], fun T' u => by simp [scanNumbers, hb]⟩
    | succ room =>
      simp only [List.cons_append, scanNumbers, hb, Bool.false_eq_true, if_false]
      cases hdot : b == dot
      · cases hd : Byte.isDigit b
        · exact Or.inr ⟨by simp, fun T' u => by simp⟩
        · cases seenDot
          · simpa using decided_scanned_iff.mp
              (scanNumbers_decided T room false (digits + 1) (major * 10 + ((b - 48).toNat : Int))
                minor D)
          · simpa using decided_scanned_iff.mp
              (scanNumbers_decided T room true (digits + 1) major
                (minor * 10 + ((b - 48).toNat : Int)) D)
      · cases hz : (seenDot || digits == 0)
        · simpa using decided_scanned_iff.mp
            (scanNumbers_decided T room true 0 major minor D)
        · exact Or.inr ⟨by simp, fun T' u => by simp⟩

theorem scanVersion_decided (T : Stop) (D : Bytes) :
    Decided scanVersion T D := by
  rw [decided_scanned_iff]
  rcases hw : scanWord T (Bytes.ofString "HTTP/") D with ⟨x, D₁⟩
  rcases (scanWord_decided T _ D).scanned hw with ⟨hx, rfl⟩ | ⟨hnot, hext⟩
  · subst hx
    exact Or.inl (by simp [scanVersion, hw])
  rcases x with e | ⟨⟩
  · exact Or.inr ⟨by simpa [scanVersion, hw] using hnot, fun T' u => by simp [scanVersion, hext, hw]⟩
  rcases hn : scanNumbers T 9 false 0 0 0 D₁ with ⟨y, D₂⟩
  rcases (scanNumbers_decided T 9 false 0 0 0 D₁).scanned hn with ⟨hy, rfl⟩ | ⟨hnot', hext'⟩
  · subst hy
    exact Or.inl (by simp [scanVersion, hw, hn])
  rcases y with e | ⟨seenDot, digits, major, minor⟩
  · exact Or.inr ⟨by simpa [scanVersion, hw, hn] using hnot',
      fun T' u => by simp [scanVersion, hext, hext', hw, hn]⟩
  · refine Or.inr ⟨?_, fun T' u => ?_⟩
    · simp only [scanVersion, hw, hn]
      split <;> simp
    · simp only [scanVersion, hext, hext', hw, hn]
      split <;> rfl

end Pieces

/-! ## The loops over query variables and header lines -/

section Loops

variable {lim : Limits}

theorem scanQuery_decided (T : Stop) (vars : List Field) (D : Bytes) :
    Decided (fun T D => scanQuery T lim vars D) T D := by
  fun_induction scanQuery T lim vars D with
  | case1 vars =>
    have hq : scanQuery T lim vars [] = (.error (.transport T), vars, []) := by rw [scanQuery]
    rw [decided_fields_iff]
    exact Or.inl (by simp [hq])
  | case2 vars b R hb =>
    have hq : ∀ T R, scanQuery T lim vars (b :: R) = (.ok (), vars, b :: R) := by
      intro T R
      rw [scanQuery]
      simp [hb]
    rw [decided_fields_iff]
    exact Or.inr ⟨by simp [hq], fun T' u => by simp [hq]⟩
  | case3 vars b R hb e D₁ hN =>
    have hE := ends_var_cons hb
    rw [decided_fields_iff, scanQuery_of_ends vars (hE R), hN]
    rcases (scanToken_decided T _ _ _ _ 0 [] _).scanned hN with ⟨he, rfl⟩ | ⟨hnot, hext⟩
    · cases he
      exact Or.inl ⟨rfl, rfl⟩
    · refine Or.inr ⟨by simpa using hnot, fun T' u => ?_⟩
      rw [List.cons_append, scanQuery_of_ends vars (hE _), ← List.cons_append, hext]
  | case4 vars b R hb name hN =>
    have hE := ends_var_cons hb R
    rw [decided_fields_iff, scanQuery_of_ends vars hE, hN]
    exact Or.inl ⟨rfl, rfl⟩
  | case5 vars b R hb name c D₁ hN hc =>
    have hE := ends_var_cons hb
    rw [decided_fields_iff, scanQuery_of_ends vars (hE R), hN]
    rcases (scanToken_decided T _ _ _ _ 0 [] _).scanned hN with ⟨h, -⟩ | ⟨-, hext⟩
    · cases h
    · refine Or.inr ⟨by simp [hc], fun T' u => ?_⟩
      rw [List.cons_append, scanQuery_of_ends vars (hE _), ← List.cons_append, hext]
      simp [hc]
  | case6 vars b R hb name c D₁ hN hc e D₂ hV =>
    have hE := ends_var_cons hb
    have hN' := (scanToken_decided T _ _ _ _ 0 [] _).scanned_ok hN
    rw [decided_fields_iff, scanQuery_of_ends vars (hE R), hN]
    simp only [hc, Bool.false_eq_true, if_false, hV]
    rcases (scanToken_decided T _ _ _ _ 0 [] _).scanned hV with ⟨he, rfl⟩ | ⟨hnot, hext⟩
    · cases he
      exact Or.inl ⟨rfl, rfl⟩
    · refine Or.inr ⟨by simpa using hnot, fun T' u => ?_⟩
      rw [List.cons_append, scanQuery_of_ends vars (hE _), ← List.cons_append, hN']
      simp [hc, hext]
  | case7 vars b R hb name c D₁ hN hc value hV =>
    have hE := ends_var_cons hb R
    rw [decided_fields_iff, scanQuery_of_ends vars hE, hN]
    simp only [hc, Bool.false_eq_true, if_false, hV]
    exact Or.inl (by simp)
  | case8 vars b R hb name c D₁ hN hc value d D₂ hV hd ih =>
    have hE := ends_var_cons hb
    have hN' := (scanToken_decided T _ _ _ _ 0 [] _).scanned_ok hN
    have hV' := (scanToken_decided T _ _ _ _ 0 [] _).scanned_ok hV
    refine Decided.of_eq ?_ (fun T' u => ?_) ih
    · rw [scanQuery_of_ends vars (hE R), hN]
      simp [hc, hV, hd]
    · rw [List.cons_append, scanQuery_of_ends vars (hE _), ← List.cons_append, hN']
      simp [hc, hV', hd]
  | case9 vars b R hb name c D₁ hN hc value d D₂ hV hd ih =>
    have hE := ends_var_cons hb
    have hN' := (scanToken_decided T _ _ _ _ 0 [] _).scanned_ok hN
    have hV' := (scanToken_decided T _ _ _ _ 0 [] _).scanned_ok hV
    refine Decided.of_eq ?_ (fun T' u => ?_) ih
    · rw [scanQuery_of_ends vars (hE R), hN]
      simp [hc, hV, hd]
    · rw [List.cons_append, scanQuery_of_ends vars (hE _), ← List.cons_append, hN']
      simp [hc, hV', hd]

/-- A header line either fails, decided by the bytes it looked at, or is read whole and leaves
the loop to go on after it on every stream that begins with those bytes. -/
theorem scanHeaders_line_decided {T : Stop} {hs : List Field} {b : Byte} {R : Bytes}
    (hcr : (b == cr) = false) (hlf : (b == lf) = false)
    (hcount : ((hs.length : Int) == lim.headers) = false) :
    Decided (fun T D => scanHeaders T lim hs D) T (b :: R) ∨
      ∃ f R', R'.length < R.length + 1 ∧
        ∀ T' u, scanHeaders T' lim hs (b :: R ++ u) = scanHeaders T' lim (hs ++ [f]) (R' ++ u) := by
  have hline := fun T R => scanHeaders_line (T := T) (R := R) hs hcr hlf hcount
  simp only [decided_fields_iff, List.cons_append, hline]
  rcases hN : scanToken T lim.headerName .headerName false endsHeaderName 0 [] (b :: R) with
    ⟨x, D₁⟩
  have hlenN := (scanToken_suffix T lim.headerName .headerName false endsHeaderName 0 [] (b :: R)).length_le
  rw [hN] at hlenN
  rcases (scanToken_decided T _ _ _ _ 0 [] _).scanned hN with ⟨hx, rfl⟩ | ⟨hnot, hextN⟩
  · subst hx
    exact Or.inl (Or.inl (by simp))
  simp only [List.cons_append] at hextN
  simp only [hextN]
  rcases x with e | name
  · exact Or.inl (Or.inr ⟨by simpa using hnot, fun T' u => rfl⟩)
  by_cases hne : name.isEmpty = true
  · exact Or.inl (Or.inr ⟨by simp [hne], fun T' u => by simp [hne]⟩)
  simp only [hne, Bool.false_eq_true, if_false]
  rcases D₁ with _ | ⟨c, D₂⟩
  · exact Or.inl (Or.inl (by simp))
  simp only [List.cons_append]
  by_cases hc : c = colon
  case neg => exact Or.inl (Or.inr ⟨by simp [hc], fun T' u => by simp [hc]⟩)
  subst hc
  simp only [bne_self_eq_false, Bool.false_eq_true, if_false]
  rcases hI : scanSkip T isIndent D₂ with ⟨y, D₃⟩
  have hlenI := (scanSkip_suffix T isIndent D₂).length_le
  rw [hI] at hlenI
  rcases (scanSkip_decided isIndent T D₂).scanned hI with ⟨hy, rfl⟩ | ⟨hnotI, hextI⟩
  · subst hy
    exact Or.inl (Or.inl (by simp))
  simp only [hextI]
  rcases y with e | a
  · exact Or.inl (Or.inr ⟨by simpa using hnotI, fun T' u => rfl⟩)
  dsimp only
  rcases hV : scanToken T lim.headerValue .headerValue false endsHeaderValue 0 [] D₃ with
    ⟨z, D₄⟩
  have hlenV :=
    (scanToken_suffix T lim.headerValue .headerValue false endsHeaderValue 0 [] D₃).length_le
  rw [hV] at hlenV
  rcases (scanToken_decided T _ _ _ _ 0 [] _).scanned hV with ⟨hz, rfl⟩ | ⟨hnotV, hextV⟩
  · subst hz
    exact Or.inl (Or.inl (by simp))
  simp only [hextV]
  rcases z with e | value
  · exact Or.inl (Or.inr ⟨by simpa using hnotV, fun T' u => rfl⟩)
  rcases D₄ with _ | ⟨d, D₅⟩
  · exact Or.inl (Or.inl (by simp))
  simp only [List.cons_append, List.length_cons] at hlenN hlenI hlenV ⊢
  by_cases hd : d = cr
  case neg =>
    simp only [beq_eq_false_iff_ne.mpr hd, Bool.false_eq_true, if_false]
    exact Or.inr ⟨_, D₅, by omega, fun T' u => rfl⟩
  subst hd
  simp only [beq_self_eq_true, if_true]
  rcases D₅ with _ | ⟨e, D₆⟩
  · exact Or.inl (Or.inl (by simp))
  simp only [List.cons_append, List.length_cons] at hlenV ⊢
  by_cases he : e = lf
  case neg => exact Or.inl (Or.inr ⟨by simp [he], fun T' u => by simp [he]⟩)
  subst he
  simp only [bne_self_eq_false, Bool.false_eq_true, if_false]
  exact Or.inr ⟨_, D₆, by omega, fun T' u => rfl⟩

theorem scanHeaders_decided (T : Stop) (hs : List Field) (D : Bytes) :
    Decided (fun T D => scanHeaders T lim hs D) T D := by
  match D with
  | [] =>
    rw [decided_fields_iff]
    exact Or.inl (by rw [scanHeaders.eq_def]; simp)
  | b :: R =>
    by_cases hcr : b = cr
    · subst hcr
      rw [decided_fields_iff]
      rcases R with _ | ⟨c, R⟩
      · exact Or.inl (by rw [scanHeaders.eq_def]; simp)
      · have h : ∀ T R, scanHeaders T lim hs (cr :: c :: R) =
            (if c != lf then .error (.malformed (.unexpected lf c)) else .ok (), hs, R) := by
          intro T R
          rw [scanHeaders.eq_def]
          simp
        refine Or.inr ⟨by rw [h]; split <;> simp, fun T' u => by simp only [List.cons_append, h]⟩
    by_cases hlf : b = lf
    · subst hlf
      rw [decided_fields_iff]
      have h : ∀ T R, scanHeaders T lim hs (lf :: R) = (.ok (), hs, R) := by
        intro T R
        rw [scanHeaders.eq_def]
        simp [show (lf == cr) = false by decide]
      exact Or.inr ⟨by simp [h], fun T' u => by simp [h]⟩
    have hcr' : (b == cr) = false := beq_eq_false_iff_ne.mpr hcr
    have hlf' : (b == lf) = false := beq_eq_false_iff_ne.mpr hlf
    by_cases hcount : (hs.length : Int) = lim.headers
    · rw [decided_fields_iff]
      have h : ∀ T R, scanHeaders T lim hs (b :: R) =
          (.error (.oversized (.tooManyHeaders lim.headers)), hs, b :: R) := by
        intro T R
        rw [scanHeaders.eq_def]
        simp [hcr', hlf', hcount]
      exact Or.inr ⟨by simp [h], fun T' u => by simp [h]⟩
    rcases scanHeaders_line_decided (T := T) (R := R) hcr' hlf' (beq_eq_false_iff_ne.mpr hcount)
      with hdec | ⟨f, R', hlen, hnext⟩
    · exact hdec
    · have ih := scanHeaders_decided T (hs ++ [f]) R'
      exact Decided.of_eq (by simpa using hnext T []) hnext ih
termination_by D.length
decreasing_by
  simp only [List.length_cons]
  exact hlen

end Loops

/-! ## Whole requests -/

section Request

variable {lim : Limits}

theorem scanHeaderSection_decided (T : Stop) (m : Method) (r : Request) (D : Bytes) :
    Decided (fun T D => scanHeaderSection T lim m r D) T D := by
  simp only [decided_outcome_iff, scanHeaderSection]
  rcases hH : scanHeaders T lim r.headers D with ⟨res, hs, rest⟩
  rcases decided_fields_iff.mp (scanHeaders_decided T r.headers D) with ⟨hout, hrest⟩ | ⟨hnot, hext⟩
  · rw [hH] at hout hrest
    dsimp only at hout hrest
    subst hout hrest
    exact Or.inl (by simp)
  rw [hH] at hnot hext
  simp only [hext]
  rcases res with e | u
  · exact Or.inr ⟨by simpa using hnot, fun T' u => rfl⟩
  · cases u
    exact Or.inr ⟨by cases m.implemented <;> simp, fun T' u => rfl⟩

theorem scanEnding_decided (T : Stop) (m : Method) (r : Request) (D : Bytes) :
    Decided (fun T D => scanEnding T lim m r D) T D := by
  simp only [decided_outcome_iff, scanEnding]
  rcases hS : scanSkip T inLine D with ⟨x, D₁⟩
  rcases (scanSkip_decided inLine T D).scanned hS with ⟨hx, rfl⟩ | ⟨hnot, hext⟩
  · subst hx
    exact Or.inl (by simp)
  simp only [hext]
  rcases x with e | ch
  · exact Or.inr ⟨by simpa using hnot, fun T' u => rfl⟩
  obtain ⟨R₁, rfl⟩ := scanSkip_ok hS
  dsimp only
  by_cases hlf : ch = lf
  · subst hlf
    simp only [beq_self_eq_true, if_true]
    exact Or.inr ⟨by split <;> simp, fun T' u => rfl⟩
  simp only [beq_eq_false_iff_ne.mpr hlf, Bool.false_eq_true, if_false]
  rcases hV : scanVersion T (ch :: R₁) with ⟨y, D₂⟩
  rcases (scanVersion_decided T _).scanned hV with ⟨hy, rfl⟩ | ⟨hnotV, hextV⟩
  · subst hy
    exact Or.inl (by simp)
  simp only [hextV]
  rcases y with e | v
  · exact Or.inr ⟨by simpa using hnotV, fun T' u => rfl⟩
  dsimp only
  rcases hS₂ : scanSkip T inLine D₂ with ⟨z, D₃⟩
  rcases (scanSkip_decided inLine T D₂).scanned hS₂ with ⟨hz, rfl⟩ | ⟨hnotS, hextS⟩
  · subst hz
    exact Or.inl (by simp)
  simp only [hextS]
  rcases z with e | ch₂
  · exact Or.inr ⟨by simpa using hnotS, fun T' u => rfl⟩
  obtain ⟨R₃, rfl⟩ := scanSkip_ok hS₂
  dsimp only
  by_cases hl₂ : ch₂ = lf
  case neg => exact Or.inr ⟨by simp [hl₂], fun T' u => by simp [hl₂]⟩
  subst hl₂
  simp only [bne_self_eq_false, Bool.false_eq_true, if_false, List.tail_cons, List.cons_append]
  -- Version 0.9 makes the request simple, and must come with GET.
  by_cases hv : v = Version.v09
  · subst hv
    by_cases hm : m = .get
    · subst hm
      simp only [beq_self_eq_true, if_true, bne_self_eq_false, Bool.and_false,
        Bool.false_eq_true, if_false]
      exact decided_outcome_iff.mp (scanHeaderSection_decided T .get _ R₃)
    · have hm' : (m != .get) = true := by simpa using hm
      simp only [beq_self_eq_true, if_true, hm', Bool.and_true]
      exact Or.inr ⟨by simp, by simp⟩
  · simp only [beq_eq_false_iff_ne.mpr hv, Bool.false_eq_true, if_false, Bool.false_and]
    exact decided_outcome_iff.mp (scanHeaderSection_decided T m _ R₃)

theorem scanAfterQuery_decided (T : Stop) (m : Method) (r : Request) (D : Bytes) :
    Decided (fun T D => scanAfterQuery T lim m r D) T D := by
  match D with
  | [] =>
    rw [decided_outcome_iff]
    exact Or.inl ⟨rfl, rfl⟩
  | ch :: D' =>
    by_cases hh : ch = hash
    · subst hh
      simp only [decided_outcome_iff, List.cons_append, scanAfterQuery, beq_self_eq_true, if_true]
      rcases hF : scanToken T lim.fragment .fragment true Byte.isBlank 0 [] D' with ⟨x, D₁⟩
      rcases (scanToken_decided T _ _ _ _ 0 [] _).scanned hF with ⟨hx, rfl⟩ | ⟨hnot, hext⟩
      · subst hx
        exact Or.inl (by simp)
      simp only [hext]
      rcases x with e | f
      · exact Or.inr ⟨by simpa using hnot, fun T' u => rfl⟩
      · exact decided_outcome_iff.mp (scanEnding_decided T m _ D₁)
    · have hh' : (ch == hash) = false := beq_eq_false_iff_ne.mpr hh
      refine Decided.of_eq (g := fun T D => scanEnding T lim m r D) (E := ch :: D') ?_ (fun T' u => ?_)
        (scanEnding_decided T m r _)
      · simp [scanAfterQuery, hh']
      · simp [scanAfterQuery, hh']

theorem scanAfterPath_decided (T : Stop) (m : Method) (r : Request) (D : Bytes) :
    Decided (fun T D => scanAfterPath T lim m r D) T D := by
  match D with
  | [] =>
    rw [decided_outcome_iff]
    exact Or.inl ⟨rfl, rfl⟩
  | ch :: D' =>
    by_cases hq : ch = question
    · subst hq
      simp only [decided_outcome_iff, List.cons_append, scanAfterPath, beq_self_eq_true, if_true]
      rcases hQ : scanQuery T lim r.query D' with ⟨res, vars, D₁⟩
      rcases decided_fields_iff.mp (scanQuery_decided T r.query D') with ⟨hout, hrest⟩ |
        ⟨hnot, hext⟩
      · rw [hQ] at hout hrest
        dsimp only at hout hrest
        subst hout hrest
        exact Or.inl (by simp)
      rw [hQ] at hnot hext
      simp only [hext]
      rcases res with e | u
      · exact Or.inr ⟨by simpa using hnot, fun T' u => rfl⟩
      · cases u
        exact decided_outcome_iff.mp (scanAfterQuery_decided T m _ D₁)
    · have hq' : (ch == question) = false := beq_eq_false_iff_ne.mpr hq
      refine Decided.of_eq (g := fun T D => scanAfterQuery T lim m r D) (E := ch :: D') ?_
        (fun T' u => ?_) (scanAfterQuery_decided T m r _)
      · simp [scanAfterPath, hq']
      · simp [scanAfterPath, hq']

theorem scanRequest_decided (T : Stop) (D : Bytes) :
    Decided (fun T D => scanRequest T lim D) T D := by
  simp only [decided_outcome_iff, scanRequest]
  rcases hS : scanSkip T Byte.isBlank D with ⟨x, D₁⟩
  rcases (scanSkip_decided Byte.isBlank T D).scanned hS with ⟨hx, rfl⟩ | ⟨hnot, hext⟩
  · subst hx
    exact Or.inl (by simp)
  simp only [hext]
  rcases x with e | t
  · exact Or.inr ⟨by simpa using hnot, fun T' u => rfl⟩
  dsimp only
  rcases hM : scanMethod T Method.maxNameLength [] D₁ with ⟨y, D₂⟩
  rcases (scanMethod_decided T _ [] D₁).scanned hM with ⟨hy, rfl⟩ | ⟨hnotM, hextM⟩
  · subst hy
    exact Or.inl (by simp)
  simp only [hextM]
  rcases y with e | tok
  · exact Or.inr ⟨by simpa using hnotM, fun T' u => rfl⟩
  dsimp only
  rcases hm : matchMethod tok with _ | m
  · exact Or.inr ⟨by simp, fun T' u => rfl⟩
  dsimp only
  rcases hS₂ : scanSkip T inLine D₂ with ⟨z, D₃⟩
  rcases (scanSkip_decided inLine T D₂).scanned hS₂ with ⟨hz, rfl⟩ | ⟨hnotS, hextS⟩
  · subst hz
    exact Or.inl (by simp)
  simp only [hextS]
  rcases z with e | ch
  · exact Or.inr ⟨by simpa using hnotS, fun T' u => rfl⟩
  dsimp only
  by_cases hlf : ch = lf
  · subst hlf
    exact Or.inr ⟨by simp, fun T' u => by simp⟩
  simp only [beq_eq_false_iff_ne.mpr hlf, Bool.false_eq_true, if_false]
  rcases hP : scanPath T lim D₃ with ⟨w, D₄⟩
  rcases (scanPath_decided T D₃).scanned hP with ⟨hw, rfl⟩ | ⟨hnotP, hextP⟩
  · subst hw
    exact Or.inl (by simp)
  simp only [hextP]
  rcases w with e | p
  · exact Or.inr ⟨by simpa using hnotP, fun T' u => rfl⟩
  · exact decided_outcome_iff.mp (scanAfterPath_decided T m _ D₄)

end Request

end Reading

open Transport Reading

/-- **A request is decided by a prefix of the stream.** Take a transport that delivers the
bytes `s` and stops with `T`, and another that delivers `s ++ u` and stops with any `T'`. Unless
the reader fails with a failure of the transport over the first, it returns over the second the
same request, the same failure and the same count of bytes taken. And a failure of the transport
only comes from running out of `s`: it is the stop `T`, with every byte of `s` taken. -/
theorem parse_decides_on_prefix (lim : Limits) {sc sc' : Script} {s u : Bytes} {T T' : Stop}
    (hs : sc.Yields s T) (hs' : sc'.Yields (s ++ u) T') :
    ((∀ e, (Request.parse lim (Cursor.ofScript sc)).error = some e → e.kind ≠ .io) →
      (Request.parse lim (Cursor.ofScript sc')).request =
          (Request.parse lim (Cursor.ofScript sc)).request ∧
        (Request.parse lim (Cursor.ofScript sc')).error =
          (Request.parse lim (Cursor.ofScript sc)).error ∧
        (Request.parse lim (Cursor.ofScript sc')).consumed =
          (Request.parse lim (Cursor.ofScript sc)).consumed) ∧
    (∀ e, (Request.parse lim (Cursor.ofScript sc)).error = some e → e.kind = .io →
      e = .transport T ∧ (Request.parse lim (Cursor.ofScript sc)).consumed = s.length) := by
  obtain ⟨hreq, herr, hcons⟩ := parse_eq_scan lim hs
  obtain ⟨hreq', herr', hcons'⟩ := parse_eq_scan lim hs'
  rw [hreq, herr, hcons, hreq', herr', hcons']
  have hdec : Decided (fun T D => scanRequest T lim D) T s := scanRequest_decided T s
  rcases decided_outcome_iff.mp hdec with ⟨hout, hrest⟩ | ⟨hnot, hext⟩
  · -- The reader ran out of `s`: its failure is the stop of the stream.
    refine ⟨fun h => absurd rfl (h _ hout), fun e he _ => ?_⟩
    rw [hout] at he
    cases he
    exact ⟨rfl, by rw [hrest]; simp⟩
  · -- It did not: the longer stream reads the same, with `u` left over.
    rw [hext T' u]
    refine ⟨fun _ => ⟨rfl, rfl, ?_⟩, fun e he hk => ?_⟩
    · simp only [List.length_append]
      omega
    · obtain ⟨t, rfl⟩ := (ParseError.kind_transport e).mp hk
      exact absurd he (hnot t)

/-- A one-line GET and the same line with a second request pipelined after it. -/
theorem parse_decides_on_pipelined_get :
    (⟨[Reply.ofBytes [71, 69, 84, 32, 47, 10]], Reply.ofBytes []⟩ : Script).Yields
      [71, 69, 84, 32, 47, 10] .endOfStream ∧
    (⟨[Reply.ofBytes ([71, 69, 84, 32, 47, 10] ++ [71, 69, 84, 32, 47, 10])], Reply.ofBytes []⟩ :
      Script).Yields ([71, 69, 84, 32, 47, 10] ++ [71, 69, 84, 32, 47, 10]) .endOfStream ∧
    (((∀ e, (Request.parse Limits.default (Cursor.ofScript
          ⟨[Reply.ofBytes [71, 69, 84, 32, 47, 10]], Reply.ofBytes []⟩)).error = some e →
          e.kind ≠ .io) →
        (Request.parse Limits.default (Cursor.ofScript ⟨[Reply.ofBytes
            ([71, 69, 84, 32, 47, 10] ++ [71, 69, 84, 32, 47, 10])], Reply.ofBytes []⟩)).request =
          (Request.parse Limits.default (Cursor.ofScript
            ⟨[Reply.ofBytes [71, 69, 84, 32, 47, 10]], Reply.ofBytes []⟩)).request ∧
        (Request.parse Limits.default (Cursor.ofScript ⟨[Reply.ofBytes
            ([71, 69, 84, 32, 47, 10] ++ [71, 69, 84, 32, 47, 10])], Reply.ofBytes []⟩)).error =
          (Request.parse Limits.default (Cursor.ofScript
            ⟨[Reply.ofBytes [71, 69, 84, 32, 47, 10]], Reply.ofBytes []⟩)).error ∧
        (Request.parse Limits.default (Cursor.ofScript ⟨[Reply.ofBytes
            ([71, 69, 84, 32, 47, 10] ++ [71, 69, 84, 32, 47, 10])], Reply.ofBytes []⟩)).consumed =
          (Request.parse Limits.default (Cursor.ofScript
            ⟨[Reply.ofBytes [71, 69, 84, 32, 47, 10]], Reply.ofBytes []⟩)).consumed) ∧
      (∀ e, (Request.parse Limits.default (Cursor.ofScript
          ⟨[Reply.ofBytes [71, 69, 84, 32, 47, 10]], Reply.ofBytes []⟩)).error = some e →
        e.kind = .io → e = .transport .endOfStream ∧
          (Request.parse Limits.default (Cursor.ofScript
            ⟨[Reply.ofBytes [71, 69, 84, 32, 47, 10]], Reply.ofBytes []⟩)).consumed =
            ([71, 69, 84, 32, 47, 10] : Bytes).length)) := by
  have hs := Script.yields_one_read (d := [71, 69, 84, 32, 47, 10]) (by simp) (by decide)
  have hs' := Script.yields_one_read
    (d := [71, 69, 84, 32, 47, 10] ++ [71, 69, 84, 32, 47, 10]) (by simp) (by decide)
  exact ⟨hs, hs', parse_decides_on_prefix Limits.default hs hs'⟩

end StaticHttp
