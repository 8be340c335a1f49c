import StaticHttp.Proofs.Transport.Stream
import StaticHttp.Proofs.Request.Scan

/-!
# The reader computes the scan of its stream

`Reading.request` runs over a cursor and bounds its loops by fuel; `Reading.scanRequest` reads
a plain list of bytes. Over any transport that delivers the bytes `D` and then stops with `T`,
the two agree: `Request.parse` returns the request, the failure and the count of consumed bytes
that `scanRequest T lim D` gives. The fuel never runs out, since it exceeds every stream the
transport can deliver (`Script.Yields.length_le_budget`).

The proof follows the reader step by step. `Reads m T D r x D' r'` says that `m`, run from any
cursor that will hand out `D` and then stop with `T`, with the request `r` read so far, gives
`x` and leaves a cursor that will hand out `D'` and the request `r'`. Each step of the reader
gets one such lemma, stated with the scan that mirrors it, and the lemmas compose along the
binds of the reader (`Reads.bind`, `Reads.bind_error`). Consuming a byte that a peek has shown
is the one step that needs more than the stream: the window must hold the byte, which
`ReadsShown` and `ReadsShowing` record.

Main statements:
* `request_reads`: the whole reader computes `scanRequest`.
* `parse_eq_scan`: **parsing depends on the stream only**: over any transport that delivers
  `D` and then stops with `T`, `Request.parse` gives what `scanRequest T lim D` gives.
* `cursor_refines_stream`: a cursor answers every sequence of demands as the plain stream
  does, reads only when it must, and the parse of its transport is that of the stream.
-/

namespace StaticHttp

namespace Reading

open Transport

/-! ## Running the steps of the reader -/

section Run

variable {α β : Type}

theorem run_bind (m : Step α) (k : α → Step β) (p : Progress) :
    (m >>= k).run.run p = match m.run.run p with
      | (.ok a, p') => (k a).run.run p'
      | (.error e, p') => (.error e, p') := by
  simp only [ExceptT.run_bind, StateT.run_bind]
  rcases m.run.run p with ⟨_ | a, p'⟩ <;> rfl

theorem run_pure (a : α) (p : Progress) : (pure a : Step α).run.run p = (.ok a, p) := rfl

theorem peek_run (p : Progress) : peek.run.run p =
    (match p.cursor.peek.2 with
      | .ok b => (Pure.pure b : Step Byte)
      | .error e => throw (ParseError.transport e)).run.run ⟨p.cursor.peek.1, p.request⟩ := rfl

theorem next_run (p : Progress) : next.run.run p =
    (match p.cursor.next.2 with
      | .ok b => (Pure.pure b : Step Byte)
      | .error e => throw (ParseError.transport e)).run.run ⟨p.cursor.next.1, p.request⟩ := rfl

theorem advance_run (p : Progress) :
    advance.run.run p = (.ok (), { p with cursor := p.cursor.advance }) := rfl

end Run

/-! ## Reading a stream -/

/-- Reading with `m`, from any cursor that will hand out `D` and then stop with `T`, with the
request read so far `r`, gives `x`, leaves a cursor that will hand out `D'`, and leaves the
request `r'`. -/
def Reads {α : Type} (m : Step α) (T : Stop) (D : Bytes) (r : Option Request)
    (x : Except ParseError α) (D' : Bytes) (r' : Option Request) : Prop :=
  ∀ c n, c.At n D T → ∃ c', m.run.run ⟨c, r⟩ = (x, ⟨c', r'⟩) ∧ c'.At n D' T

/-- The same as `Reads`, from a cursor whose window shows `b`, the byte a peek has just shown;
only from there may the reader consume a byte without reading it again. -/
def ReadsShown {α : Type} (m : Step α) (T : Stop) (b : Byte) (D : Bytes) (r : Option Request)
    (x : Except ParseError α) (D' : Bytes) (r' : Option Request) : Prop :=
  ∀ c n w, c.window = b :: w → c.At n (b :: D) T →
    ∃ c', m.run.run ⟨c, r⟩ = (x, ⟨c', r'⟩) ∧ c'.At n D' T

/-- Reading with `m` succeeds with `a` and leaves a cursor whose window shows `b`, the first of
the bytes still to come, so that the reader may consume it next. -/
def ReadsShowing {α : Type} (m : Step α) (T : Stop) (D : Bytes) (r : Option Request) (a : α)
    (b : Byte) (D' : Bytes) (r' : Option Request) : Prop :=
  ∀ c n, c.At n D T → ∃ c' w, m.run.run ⟨c, r⟩ = (.ok a, ⟨c', r'⟩) ∧ c'.window = b :: w ∧
    c'.At n (b :: D') T

section Reads

variable {α β : Type} {T : Stop} {D D₁ D₂ : Bytes} {r r₁ r₂ : Option Request}

theorem Reads.pure (a : α) : Reads (Pure.pure a : Step α) T D r (.ok a) D r :=
  fun c _ h => ⟨c, rfl, h⟩

theorem Reads.throw (e : ParseError) : Reads (throw e : Step α) T D r (.error e) D r :=
  fun c _ h => ⟨c, rfl, h⟩

theorem Reads.bind {m : Step α} {k : α → Step β} {a : α} {x : Except ParseError β}
    (hm : Reads m T D r (.ok a) D₁ r₁) (hk : Reads (k a) T D₁ r₁ x D₂ r₂) :
    Reads (m >>= k) T D r x D₂ r₂ := by
  intro c n h
  obtain ⟨c₁, hrun₁, h₁⟩ := hm c n h
  obtain ⟨c₂, hrun₂, h₂⟩ := hk c₁ n h₁
  exact ⟨c₂, by rw [run_bind, hrun₁]; exact hrun₂, h₂⟩

theorem Reads.bind_error {m : Step α} {k : α → Step β} {e : ParseError}
    (hm : Reads m T D r (.error e) D₁ r₁) : Reads (m >>= k) T D r (.error e) D₁ r₁ := by
  intro c n h
  obtain ⟨c₁, hrun₁, h₁⟩ := hm c n h
  exact ⟨c₁, by rw [run_bind, hrun₁], h₁⟩

theorem Reads.update (f : Request → Request) :
    Reads (Reading.update f) T D r (.ok ()) D (r.map f) :=
  fun c _ h => ⟨c, rfl, h⟩

theorem Reads.peek_nil : Reads peek T [] r (.error (.transport T)) [] r := by
  intro c n h
  obtain ⟨c', hp, h', -⟩ := h.peek_nil
  exact ⟨c', by rw [peek_run]; simp only [hp]; rfl, h'⟩

theorem Reads.next_nil : Reads next T [] r (.error (.transport T)) [] r := by
  intro c n h
  obtain ⟨c', hp, h', -⟩ := h.next_nil
  exact ⟨c', by rw [next_run]; simp only [hp]; rfl, h'⟩

theorem Reads.next_cons {b : Byte} : Reads next T (b :: D) r (.ok b) D r := by
  intro c n h
  obtain ⟨c', hp, h'⟩ := h.next_cons
  exact ⟨c', by rw [next_run]; simp only [hp]; rfl, h'⟩

theorem Reads.peek_bind {k : Byte → Step β} {b : Byte} {x : Except ParseError β}
    (hk : ReadsShown (k b) T b D r x D₂ r₂) : Reads (peek >>= k) T (b :: D) r x D₂ r₂ := by
  intro c n h
  obtain ⟨c', w, hp, hw, h'⟩ := h.peek_cons
  obtain ⟨c₂, hrun, h₂⟩ := hk c' n w hw h'
  refine ⟨c₂, ?_, h₂⟩
  rw [run_bind, peek_run]
  simp only [hp]
  exact hrun

theorem Reads.get_bind {k : Progress → Step β} {x : Except ParseError β}
    (hk : ∀ c : Cursor, Reads (k ⟨c, r⟩) T D r x D₂ r₂) : Reads (get >>= k) T D r x D₂ r₂ := by
  intro c n h
  obtain ⟨c₂, hrun, h₂⟩ := hk c c n h
  exact ⟨c₂, hrun, h₂⟩

theorem Reads.setRequest (q : Option Request) :
    Reads (modify fun s : Progress => { s with request := q }) T D r (.ok ()) D q :=
  fun c _ h => ⟨c, rfl, h⟩

theorem Reads.expect_nil (want : Byte) :
    Reads (expect want) T [] r (.error (.transport T)) [] r :=
  Reads.next_nil.bind_error

theorem Reads.expect_cons (want c : Byte) :
    Reads (expect want) T (c :: D) r
      (if c != want then .error (.malformed (.unexpected want c)) else .ok ()) D r := by
  refine Reads.next_cons.bind ?_
  cases hc : (c != want)
  · exact Reads.pure ()
  · exact Reads.throw _

theorem Reads.expect_ok {want c : Byte} (h : (c != want) = false) :
    Reads (expect want) T (c :: D) r (.ok ()) D r := by
  have hc := Reads.expect_cons (T := T) (D := D) (r := r) want c
  simp only [h, Bool.false_eq_true, if_false] at hc
  exact hc

theorem Reads.expect_mismatch {want c : Byte} (h : (c != want) = true) :
    Reads (expect want) T (c :: D) r (.error (.malformed (.unexpected want c))) D r := by
  have hc := Reads.expect_cons (T := T) (D := D) (r := r) want c
  simp only [h, if_true] at hc
  exact hc

theorem Reads.ite_pos {c : Bool} {a b : Step α} {x : Except ParseError α} (h : c = true)
    (ha : Reads a T D r x D₂ r₂) : Reads (if c = true then a else b) T D r x D₂ r₂ := by
  rw [if_pos h]
  exact ha

theorem Reads.ite_neg {c : Bool} {a b : Step α} {x : Except ParseError α} (h : c = false)
    (hb : Reads b T D r x D₂ r₂) : Reads (if c = true then a else b) T D r x D₂ r₂ := by
  rw [if_neg (by simp [h])]
  exact hb

theorem Reads.currentVersion :
    Reads currentVersion T D r (.ok ((r.map Request.version).getD Version.zero)) D r :=
  fun c _ h => ⟨c, rfl, h⟩

theorem Reads.bind_showing {m : Step α} {k : α → Step β} {a : α} {b : Byte}
    {x : Except ParseError β} (hm : ReadsShowing m T D r a b D₁ r₁)
    (hk : ReadsShown (k a) T b D₁ r₁ x D₂ r₂) : Reads (m >>= k) T D r x D₂ r₂ := by
  intro c n h
  obtain ⟨c₁, w, hrun₁, hw, h₁⟩ := hm c n h
  obtain ⟨c₂, hrun₂, h₂⟩ := hk c₁ n w hw h₁
  exact ⟨c₂, by rw [run_bind, hrun₁]; exact hrun₂, h₂⟩

theorem ReadsShown.of {m : Step α} {b : Byte} {x : Except ParseError α}
    (h : Reads m T (b :: D) r x D₂ r₂) : ReadsShown m T b D r x D₂ r₂ :=
  fun c n _ _ hc => h c n hc

theorem ReadsShown.advance_bind {k : Unit → Step β} {b : Byte} {x : Except ParseError β}
    (hk : Reads (k ()) T D r x D₂ r₂) : ReadsShown (advance >>= k) T b D r x D₂ r₂ := by
  intro c n w hw h
  obtain ⟨c₂, hrun, h₂⟩ := hk c.advance n (h.advance hw)
  exact ⟨c₂, by rw [run_bind, advance_run]; exact hrun, h₂⟩

theorem ReadsShown.advance {b : Byte} :
    ReadsShown advance T b D r (.ok ()) D r := by
  intro c n w hw h
  exact ⟨c.advance, rfl, h.advance hw⟩

end Reads

/-! ## Blanks -/

section Skips

variable {T : Stop} {r : Option Request}

theorem skipLeading_reads : ∀ (fuel : Nat) (D : Bytes), D.length < fuel →
    Reads (skipLeading fuel) T D r ((scanSkip T Byte.isBlank D).1.map fun _ => ())
      (scanSkip T Byte.isBlank D).2 r
  | 0, _, h => absurd h (Nat.not_lt_zero _)
  | fuel + 1, [], _ => by
    rw [skipLeading, scanSkip_nil]
    exact Reads.peek_nil.bind_error
  | fuel + 1, b :: D, h => by
    rw [skipLeading]
    apply Reads.peek_bind
    cases hb : Byte.isBlank b
    · rw [scanSkip_cons_neg hb]
      exact ReadsShown.of (Reads.pure ())
    · rw [scanSkip_cons_pos hb]
      simp only [if_true]
      exact ReadsShown.advance_bind
        (skipLeading_reads fuel D (by simp only [List.length_cons] at h; omega))

theorem skipSpace_stops (b : Byte) : (b == lf || !Byte.isBlank b) = !inLine b := by
  simp only [inLine, bne, Bool.not_and, Bool.not_not]

theorem skipSpace_reads : ∀ (fuel : Nat) (D : Bytes), D.length < fuel →
    Reads (skipSpace fuel) T D r (scanSkip T inLine D).1 (scanSkip T inLine D).2 r
  | 0, _, h => absurd h (Nat.not_lt_zero _)
  | fuel + 1, [], _ => by
    rw [skipSpace, scanSkip_nil]
    exact Reads.peek_nil.bind_error
  | fuel + 1, b :: D, h => by
    rw [skipSpace]
    apply Reads.peek_bind
    cases hb : inLine b
    · rw [scanSkip_cons_neg hb]
      simp only [skipSpace_stops, hb, Bool.not_false, if_true]
      exact ReadsShown.of (Reads.pure b)
    · rw [scanSkip_cons_pos hb]
      simp only [skipSpace_stops, hb, Bool.not_true, Bool.false_eq_true, if_false]
      exact ReadsShown.advance_bind
        (skipSpace_reads fuel D (by simp only [List.length_cons] at h; omega))

theorem skipSpace_shows {b : Byte} {R : Bytes} : ∀ (fuel : Nat) (D : Bytes), D.length < fuel →
    scanSkip T inLine D = (.ok b, b :: R) → ReadsShowing (skipSpace fuel) T D r b b R r
  | 0, _, h, _ => absurd h (Nat.not_lt_zero _)
  | fuel + 1, [], _, hs => by
    cases hs
  | fuel + 1, d :: D, h, hs => by
    intro c n hc
    obtain ⟨c₁, w, hp, hw, h₁⟩ := hc.peek_cons
    cases hd : inLine d
    · rw [scanSkip_cons_neg hd] at hs
      cases hs
      refine ⟨c₁, w, ?_, hw, h₁⟩
      rw [skipSpace, run_bind, peek_run]
      simp only [hp]
      rw [run_pure]
      simp only [skipSpace_stops, hd, Bool.not_false, if_true]
      rfl
    · rw [scanSkip_cons_pos hd] at hs
      obtain ⟨c₂, w₂, hrun, hw₂, h₂⟩ := skipSpace_shows fuel D
        (by simp only [List.length_cons] at h; omega) hs c₁.advance n (h₁.advance hw)
      refine ⟨c₂, w₂, ?_, hw₂, h₂⟩
      rw [skipSpace, run_bind, peek_run]
      simp only [hp]
      rw [run_pure]
      simp only [skipSpace_stops, hd, Bool.not_true, Bool.false_eq_true, if_false]
      rw [run_bind, advance_run]
      exact hrun

theorem skipIndent_reads : ∀ (fuel : Nat) (D : Bytes), D.length < fuel →
    Reads (skipIndent fuel) T D r ((scanSkip T isIndent D).1.map fun _ => ())
      (scanSkip T isIndent D).2 r
  | 0, _, h => absurd h (Nat.not_lt_zero _)
  | fuel + 1, [], _ => by
    rw [skipIndent, scanSkip_nil]
    exact Reads.peek_nil.bind_error
  | fuel + 1, b :: D, h => by
    rw [skipIndent]
    apply Reads.peek_bind
    cases hb : isIndent b
    · rw [scanSkip_cons_neg hb]
      simp only [isIndent] at hb
      simp only [hb, Bool.false_eq_true, if_false]
      exact ReadsShown.of (Reads.pure ())
    · rw [scanSkip_cons_pos hb]
      simp only [isIndent] at hb
      simp only [hb, if_true]
      exact ReadsShown.advance_bind
        (skipIndent_reads fuel D (by simp only [List.length_cons] at h; omega))

end Skips

/-! ## Tokens -/

section Tokens

variable {T : Stop} {r : Option Request}

/-- One step of the method token loop. Stated by hand and proved per case, because the
equation Lean derives for the loop on its own takes seconds to build. -/
theorem methodToken_unfold (room : Nat) (acc : Bytes) :
    methodToken room acc = (do
      let ch ← peek
      if Byte.isBlank ch then pure acc.reverse
      else
        match room with
        | 0 => throw (.malformed .methodTooLong)
        | room + 1 =>
          advance
          methodToken room (ch :: acc)) := by
  cases room <;> rfl

theorem methodToken_reads : ∀ (D : Bytes) (room : Nat) (acc : Bytes),
    Reads (methodToken room acc) T D r (scanMethod T room acc D).1 (scanMethod T room acc D).2 r
  | [], room, acc => by
    rw [methodToken_unfold, scanMethod]
    exact Reads.peek_nil.bind_error
  | b :: D, room, acc => by
    rw [methodToken_unfold]
    apply Reads.peek_bind
    cases room with
    | zero =>
      cases hb : Byte.isBlank b
      · simp only [scanMethod, hb, Bool.false_eq_true, if_false]
        exact ReadsShown.of (Reads.throw _)
      · simp only [scanMethod, hb, if_true]
        exact ReadsShown.of (Reads.pure _)
    | succ room =>
      cases hb : Byte.isBlank b
      · simp only [scanMethod, hb, Bool.false_eq_true, if_false]
        exact ReadsShown.advance_bind (methodToken_reads D room (b :: acc))
      · simp only [scanMethod, hb, if_true]
        exact ReadsShown.of (Reads.pure _)

theorem escape_reads (D : Bytes) :
    Reads escape T D r (scanEscape T D).1 (scanEscape T D).2 r := by
  match D with
  | [] => exact Reads.next_nil.bind_error
  | [hi] => exact Reads.next_cons.bind Reads.next_nil.bind_error
  | hi :: lo :: D =>
    refine Reads.next_cons.bind (Reads.next_cons.bind ?_)
    simp only [scanEscape]
    cases Byte.hexValue? hi with
    | none => exact Reads.throw _
    | some h =>
      cases Byte.hexValue? lo with
      | none => exact Reads.throw _
      | some l => exact Reads.pure _

theorem token_reads (limit : Int) (what : Component) (decode : Bool) (stop : Byte → Bool) :
    ∀ (fuel n : Nat) (acc D : Bytes), D.length < fuel →
    Reads (token limit what decode stop fuel n acc) T D r
      (scanToken T limit what decode stop n acc D).1 (scanToken T limit what decode stop n acc D).2 r
  | 0, _, _, _, h => absurd h (Nat.not_lt_zero _)
  | fuel + 1, n, acc, [], _ => by
    rw [token, scanToken]
    exact Reads.peek_nil.bind_error
  | fuel + 1, n, acc, b :: D, h => by
    rw [token]
    apply Reads.peek_bind
    cases hs : stop b
    · simp only [Bool.false_eq_true, if_false]
      refine ReadsShown.advance_bind ?_
      cases hd : (decode && b == percent)
      · rw [scanToken_cons_plain hs hd]
        simp only [Bool.false_eq_true, if_false]
        refine (Reads.pure b).bind ?_
        by_cases hl : limit ≤ (n : Int)
        · simp only [hl, if_true]
          exact (Reads.throw _).bind_error
        · simp only [hl, if_false]
          exact token_reads limit what decode stop fuel (n + 1) (b :: acc) D
            (by simp only [List.length_cons] at h; omega)
      · rw [scanToken_cons_escape hs hd]
        simp only [if_true]
        have hD := (scanEscape_suffix T D).length_le
        have he := escape_reads (T := T) (r := r) D
        rcases hx : scanEscape T D with ⟨_ | c, D'⟩
        · rw [hx] at he
          exact he.bind_error
        · rw [hx] at he hD
          refine he.bind ?_
          by_cases hl : limit ≤ (n : Int)
          · simp only [hl, if_true]
            exact (Reads.throw _).bind_error
          · simp only [hl, if_false]
            exact token_reads limit what decode stop fuel (n + 1) (c :: acc) D'
              (by simp only [List.length_cons] at h hD; omega)
    · rw [scanToken_cons_stop hs]
      simp only [if_true]
      exact ReadsShown.of (Reads.pure _)

theorem path_reads (lim : Limits) {fuel : Nat} {D : Bytes} (h : D.length < fuel) :
    Reads (path lim fuel) T D r ((scanPath T lim D).1.map fun _ => ()) (scanPath T lim D).2
      (match (scanPath T lim D).1 with
        | .ok p => r.map fun q => { q with uri := p }
        | .error _ => r) := by
  have ht := token_reads (T := T) (r := r) lim.uri .path true endsPath fuel 0 [] D h
  unfold scanPath
  rcases hx : scanToken T lim.uri .path true endsPath 0 [] D with ⟨e | p, D'⟩
  · rw [hx] at ht
    exact ht.bind_error
  · rw [hx] at ht
    refine ht.bind ?_
    by_cases hs : p.head? == some slash
    · simp only [hs, if_true]
      exact Reads.update _
    · simp only [hs, Bool.false_eq_true, if_false]
      exact Reads.throw _

end Tokens

/-! ## The version -/

section Version

variable {T : Stop} {r : Option Request}

/-- One step of the loop over the version numbers, stated by hand as `methodToken_unfold` is. -/
theorem versionNumbers_unfold (room : Nat) (seenDot : Bool) (digits : Nat) (major minor : Int) :
    versionNumbers room seenDot digits major minor = (do
      let ch ← peek
      if Byte.isBlank ch then pure (seenDot, digits, major, minor)
      else
        match room with
        | 0 => throw (.malformed .versionTooLong)
        | room + 1 =>
          advance
          if ch == dot then
            if seenDot || digits == 0 then throw (.malformed .misplacedDot)
            versionNumbers room true 0 major minor
          else if Byte.isDigit ch then
            let d : Int := (ch - 48).toNat
            if seenDot then versionNumbers room seenDot (digits + 1) major (minor * 10 + d)
            else versionNumbers room seenDot (digits + 1) (major * 10 + d) minor
          else throw (.malformed (.versionChar ch))) := by
  cases room <;> rfl

theorem versionNumbers_reads : ∀ (D : Bytes) (room : Nat) (seenDot : Bool) (digits : Nat)
    (major minor : Int),
    Reads (versionNumbers room seenDot digits major minor) T D r
      (scanNumbers T room seenDot digits major minor D).1
      (scanNumbers T room seenDot digits major minor D).2 r
  | [], room, _, _, _, _ => by
    rw [versionNumbers_unfold, scanNumbers]
    exact Reads.peek_nil.bind_error
  | b :: D, room, seenDot, digits, major, minor => by
    rw [versionNumbers_unfold]
    apply Reads.peek_bind
    cases hb : Byte.isBlank b
    · cases room with
      | zero =>
        simp only [scanNumbers, hb, Bool.false_eq_true, if_false]
        exact ReadsShown.of (Reads.throw _)
      | succ room =>
        simp only [scanNumbers, hb, Bool.false_eq_true, if_false]
        refine ReadsShown.advance_bind ?_
        cases hdot : (b == dot)
        · cases hdigit : Byte.isDigit b
          · exact Reads.throw _
          · cases seenDot
            · exact versionNumbers_reads D room false (digits + 1) _ minor
            · exact versionNumbers_reads D room true (digits + 1) major _
        · cases hbad : (seenDot || digits == 0)
          · exact versionNumbers_reads D room true 0 major minor
          · exact (Reads.throw _).bind_error
    · cases room <;>
      · simp only [scanNumbers, hb, if_true]
        exact ReadsShown.of (Reads.pure _)

theorem versionWord_reads : ∀ (word D : Bytes),
    Reads (versionWord word) T D r (scanWord T word D).1 (scanWord T word D).2 r
  | [], D => Reads.pure ()
  | _ :: _, [] => Reads.next_nil.bind_error
  | w :: ws, b :: D => by
    refine Reads.next_cons.bind ?_
    simp only [scanWord]
    cases hb : (b != w)
    · exact versionWord_reads ws D
    · exact (Reads.throw _).bind_error

theorem version_reads (D : Bytes) :
    Reads version T D r ((scanVersion T D).1.map fun _ => ()) (scanVersion T D).2
      (match (scanVersion T D).1 with
        | .ok v => r.map fun q => { q with version := v }
        | .error _ => r) := by
  have hw := versionWord_reads (T := T) (r := r) (Bytes.ofString "HTTP/") D
  unfold scanVersion
  rcases hx : scanWord T (Bytes.ofString "HTTP/") D with ⟨e | u, D₁⟩
  · rw [hx] at hw
    exact hw.bind_error
  · rw [hx] at hw
    cases u
    refine hw.bind ?_
    have hn := versionNumbers_reads (T := T) (r := r) D₁ 9 false 0 0 0
    dsimp only
    rcases hy : scanNumbers T 9 false 0 0 0 D₁ with ⟨e | ⟨seenDot, digits, major, minor⟩, D₂⟩
    · rw [hy] at hn
      exact hn.bind_error
    · rw [hy] at hn
      refine hn.bind ?_
      dsimp only
      cases hc : (!seenDot || digits == 0)
      · exact Reads.update _
      · exact (Reads.throw _).bind_error

end Version

/-! ## Query variables and header lines -/

section Query

variable {T : Stop} (lim : Limits) (fuel : Nat)

theorem query_reads : ∀ (steps : Nat) (q : Request) (D : Bytes), D.length < steps →
    D.length < fuel →
    Reads (query lim fuel steps) T D (some q) (scanQuery T lim q.query D).1
      (scanQuery T lim q.query D).2.2 (some { q with query := (scanQuery T lim q.query D).2.1 })
  | 0, _, _, h, _ => absurd h (Nat.not_lt_zero _)
  | steps + 1, q, [], _, _ => by
    rw [query, scanQuery]
    exact Reads.peek_nil.bind_error
  | steps + 1, q, b :: R, hs, hf => by
    rw [query, scanQuery]
    apply Reads.peek_bind
    cases hb : (Byte.isBlank b || b == hash)
    · refine ReadsShown.of ?_
      have hn := token_reads (T := T) (r := some q) lim.queryName .queryName true endsQueryName
        fuel 0 [] (b :: R) hf
      have hnl := (scanToken_suffix T lim.queryName .queryName true endsQueryName 0 [] (b :: R)).length_le
      rcases hx : scanToken T lim.queryName .queryName true endsQueryName 0 [] (b :: R) with
        ⟨e | name, _ | ⟨c, D₁⟩⟩
      · rw [hx] at hn
        exact hn.bind_error
      · rw [hx] at hn
        exact hn.bind_error
      · rw [hx] at hn
        exact hn.bind Reads.peek_nil.bind_error
      · rw [hx] at hn hnl
        refine hn.bind (Reads.peek_bind ?_)
        dsimp only
        cases hc : (c != equals)
        · refine ReadsShown.advance_bind ?_
          simp only [Bool.false_eq_true, if_false]
          have hv := token_reads (T := T) (r := some q) lim.queryValue .queryValue true
            endsQueryValue fuel 0 [] D₁ (by simp only [List.length_cons] at hnl hf; omega)
          have hvl := (scanToken_suffix T lim.queryValue .queryValue true endsQueryValue 0 [] D₁).length_le
          rcases hy : scanToken T lim.queryValue .queryValue true endsQueryValue 0 [] D₁ with
            ⟨e | value, _ | ⟨d, D₂⟩⟩
          · rw [hy] at hv
            exact hv.bind_error
          · rw [hy] at hv
            exact hv.bind_error
          · rw [hy] at hv
            exact hv.bind ((Reads.update _).bind Reads.peek_nil.bind_error)
          · rw [hy] at hv hvl
            refine hv.bind ((Reads.update _).bind (Reads.peek_bind ?_))
            simp only [List.length_cons] at hnl hvl hs hf
            have ih := query_reads steps { q with query := q.query ++ [⟨name, value⟩] }
            dsimp only
            cases hd : (d == amp)
            · exact ReadsShown.of (ih (d :: D₂)
                (by simp only [List.length_cons]; omega) (by simp only [List.length_cons]; omega))
            · exact ReadsShown.advance_bind (ih D₂ (by omega) (by omega))
        · exact ReadsShown.of (Reads.throw _).bind_error
    · exact ReadsShown.of (Reads.pure ())

end Query

section Headers

variable {T : Stop} (lim : Limits) (fuel : Nat)

theorem headers_reads : ∀ (steps : Nat) (q : Request) (D : Bytes), D.length < steps →
    D.length < fuel →
    Reads (headers lim fuel steps) T D (some q) (scanHeaders T lim q.headers D).1
      (scanHeaders T lim q.headers D).2.2
      (some { q with headers := (scanHeaders T lim q.headers D).2.1 })
  | 0, _, _, h, _ => absurd h (Nat.not_lt_zero _)
  | steps + 1, q, [], _, _ => by
    rw [headers, scanHeaders.eq_def]
    exact Reads.peek_nil.bind_error
  | steps + 1, q, b :: R, hs, hf => by
    rw [headers, scanHeaders.eq_def]
    apply Reads.peek_bind
    dsimp -zeta only
    cases hcr : (b == cr)
    · cases hlf : (b == lf)
      · refine ReadsShown.of (Reads.get_bind fun _ => ?_)
        dsimp -zeta only [Option.map_some, Option.getD_some]
        cases hcount : ((q.headers.length : Int) == lim.headers)
        · refine Reads.ite_neg hcount ?_
          have hn := token_reads (T := T) (r := some q) lim.headerName .headerName false
            endsHeaderName fuel 0 [] (b :: R) hf
          have hnl := (scanToken_suffix T lim.headerName .headerName false endsHeaderName 0 []
            (b :: R)).length_le
          simp -zeta only [Bool.false_eq_true, if_false]
          split
          · rename_i e D₁ hx
            rw [hx] at hn
            exact hn.bind_error
          · rename_i name D₁ hx
            rw [hx] at hn hnl
            refine hn.bind ?_
            cases hne : name.isEmpty
            · simp -zeta only [Bool.false_eq_true, if_false]
              split
              · exact (Reads.expect_nil colon).bind_error
              rename_i c D₂ _
              cases hc : (c != colon)
              · refine (Reads.expect_ok hc).bind ?_
                simp -zeta only [Bool.false_eq_true, if_false]
                simp only [List.length_cons] at hnl hs hf
                have hi := skipIndent_reads (T := T) (r := some q) fuel D₂ (by omega)
                have hil := (scanSkip_suffix T isIndent D₂).length_le
                split
                · rename_i e D₃ hy
                  rw [hy] at hi
                  exact hi.bind_error
                rename_i D₃ hy
                rw [hy] at hi hil
                dsimp only at hil
                refine hi.bind ?_
                have hv := token_reads (T := T) (r := some q) lim.headerValue .headerValue false
                  endsHeaderValue fuel 0 [] D₃ (by omega)
                have hvl := (scanToken_suffix T lim.headerValue .headerValue false endsHeaderValue
                  0 [] D₃).length_le
                split
                · rename_i e D₄ hz
                  rw [hz] at hv
                  exact hv.bind_error
                · rename_i value hz
                  rw [hz] at hv
                  exact hv.bind ((Reads.update _).bind Reads.next_nil.bind_error)
                rename_i value d D₄ hz
                rw [hz] at hv hvl
                simp only [List.length_cons] at hvl
                refine hv.bind ((Reads.update _).bind (Reads.next_cons.bind ?_))
                have ih := headers_reads steps
                  { q with headers := q.headers ++ [⟨name, trimRight value⟩] }
                cases hd : (d == cr)
                · exact ih D₄ (by omega) (by omega)
                simp -zeta only [if_true]
                split
                · exact (Reads.expect_nil lf).bind_error
                rename_i e D₅ _
                simp only [List.length_cons] at hvl
                cases he : (e != lf)
                · exact (Reads.expect_ok he).bind (ih D₅ (by omega) (by omega))
                · exact (Reads.expect_mismatch he).bind_error
              · exact (Reads.expect_mismatch hc).bind_error
            · exact (Reads.throw _).bind_error
        · exact Reads.ite_pos hcount (Reads.throw _).bind_error
      · exact ReadsShown.advance
    · refine ReadsShown.advance_bind ?_
      cases R with
      | nil => exact Reads.expect_nil lf
      | cons c R => exact Reads.expect_cons lf c

end Headers

/-! ## The whole request -/

/-- The result a run of the reader ends with when its failure, if any, is `e`. -/
def failureResult : Option ParseError → Except ParseError Unit
  | none => .ok ()
  | some e => .error e

section Request

variable {T : Stop} (lim : Limits) {fuel : Nat}

theorem headerSection_reads (m : Method) (q : Request) {D : Bytes} (hf : D.length < fuel) :
    Reads (do headers lim fuel fuel; if !m.implemented then throw (.unsupported m)) T D (some q)
      (failureResult (scanHeaderSection T lim m q D).2.1) (scanHeaderSection T lim m q D).2.2
      (scanHeaderSection T lim m q D).1 := by
  have h := headers_reads (T := T) lim fuel fuel q D hf hf
  unfold scanHeaderSection
  rcases hh : scanHeaders T lim q.headers D with ⟨e | _, hs, D'⟩
  · rw [hh] at h
    exact h.bind_error
  · rw [hh] at h
    refine h.bind ?_
    cases hm : !m.implemented
    · exact Reads.pure ()
    · exact Reads.throw _

theorem ending_reads (m : Method) (q : Request) {D : Bytes} (hf : D.length < fuel) :
    Reads (ending lim fuel m) T D (some q) (failureResult (scanEnding T lim m q D).2.1)
      (scanEnding T lim m q D).2.2 (scanEnding T lim m q D).1 := by
  unfold ending scanEnding
  have h₁ := skipSpace_reads (T := T) (r := some q) fuel D hf
  have l₁ := (scanSkip_suffix T inLine D).length_le
  rcases hx : scanSkip T inLine D with ⟨e | ch, D₁⟩
  · rw [hx] at h₁
    exact h₁.bind_error
  obtain ⟨R, rfl⟩ := scanSkip_ok hx
  rw [hx] at l₁
  refine Reads.bind_showing (skipSpace_shows fuel D hf hx) ?_
  dsimp -zeta only at l₁ ⊢
  cases hlf : (ch == lf)
  · refine ReadsShown.of ?_
    have h₂ := version_reads (T := T) (r := some q) (ch :: R)
    have l₂ := (scanVersion_suffix T (ch :: R)).length_le
    rcases hv : scanVersion T (ch :: R) with ⟨e | v, D₂⟩
    · rw [hv] at h₂
      exact h₂.bind_error
    rw [hv] at h₂ l₂
    refine h₂.bind ?_
    dsimp -zeta only at l₂ ⊢
    rcases hy : scanSkip T inLine D₂ with ⟨e | ch₂, D₃⟩
    · have h₃ := skipSpace_reads (T := T) (r := some { q with version := v }) fuel D₂ (by omega)
      rw [hy] at h₃
      exact h₃.bind_error
    obtain ⟨R₂, rfl⟩ := scanSkip_ok hy
    have l₃ := (scanSkip_suffix T inLine D₂).length_le
    rw [hy] at l₃
    refine Reads.bind_showing (skipSpace_shows fuel D₂ (by omega) hy) ?_
    dsimp -zeta only at l₃ ⊢
    simp only [List.length_cons] at l₁ l₂ l₃
    cases hl : (ch₂ != lf)
    · refine ReadsShown.advance_bind (Reads.currentVersion.bind ?_)
      cases hv9 : (v == Version.v09)
      · refine Reads.ite_neg hv9 ?_
        simp only [hv9, Bool.false_and, Bool.false_eq_true, if_false, List.tail_cons]
        exact headerSection_reads lim m _ (by omega)
      · refine Reads.ite_pos hv9 ((Reads.update _).bind ?_)
        cases hm : (m != .get)
        · simp only [hv9, Bool.and_false, Bool.false_eq_true, if_true, if_false, List.tail_cons]
          exact headerSection_reads lim m _ (by omega)
        · simp only [hv9, Bool.and_true, if_true]
          exact (Reads.throw _).bind_error
    · exact ReadsShown.of (Reads.throw _).bind_error
  · refine ReadsShown.advance_bind ((Reads.update _).bind ?_)
    cases hm : (m != .get)
    · exact Reads.pure ()
    · exact Reads.throw _

theorem afterQuery_reads (m : Method) (q : Request) {ch : Byte} {D : Bytes}
    (hf : (ch :: D).length < fuel) :
    ReadsShown (afterQuery lim fuel m ch) T ch D (some q)
      (failureResult (scanAfterQuery T lim m q (ch :: D)).2.1)
      (scanAfterQuery T lim m q (ch :: D)).2.2 (scanAfterQuery T lim m q (ch :: D)).1 := by
  unfold afterQuery scanAfterQuery
  dsimp -zeta only
  cases hh : (ch == hash)
  · exact ReadsShown.of (ending_reads lim m q hf)
  · refine ReadsShown.advance_bind ?_
    simp only [List.length_cons] at hf
    have ht := token_reads (T := T) (r := some q) lim.fragment .fragment true Byte.isBlank fuel 0
      [] D (by omega)
    have lt := (scanToken_suffix T lim.fragment .fragment true Byte.isBlank 0 [] D).length_le
    rcases hx : scanToken T lim.fragment .fragment true Byte.isBlank 0 [] D with ⟨e | f, D'⟩
    · rw [hx] at ht
      exact ht.bind_error
    · rw [hx] at ht lt
      dsimp only at lt
      exact ht.bind ((Reads.update _).bind (ending_reads lim m _ (D := D') (by omega)))

theorem afterPath_reads (m : Method) (q : Request) {D : Bytes} (hf : D.length < fuel) :
    Reads (afterPath lim fuel m) T D (some q) (failureResult (scanAfterPath T lim m q D).2.1)
      (scanAfterPath T lim m q D).2.2 (scanAfterPath T lim m q D).1 := by
  unfold afterPath scanAfterPath
  match D with
  | [] => exact Reads.peek_nil.bind_error
  | ch :: D =>
    apply Reads.peek_bind
    dsimp -zeta only
    cases hq : (ch == question)
    · exact afterQuery_reads lim m q hf
    · refine ReadsShown.advance_bind ?_
      simp only [List.length_cons] at hf
      have hr := query_reads (T := T) lim fuel fuel q D (by omega) (by omega)
      have lr := (scanQuery_suffix T lim q.query D).length_le
      rcases hx : scanQuery T lim q.query D with ⟨e | _, vars, D'⟩
      · rw [hx] at hr
        exact hr.bind_error
      · rw [hx] at hr lr
        refine hr.bind ?_
        dsimp only at lr
        match D' with
        | [] => exact Reads.peek_nil.bind_error
        | c :: D'' => exact Reads.peek_bind (afterQuery_reads lim m _ (by omega))

theorem request_reads {D : Bytes} (hf : D.length < fuel) :
    Reads (request lim fuel) T D none (failureResult (scanRequest T lim D).2.1)
      (scanRequest T lim D).2.2 (scanRequest T lim D).1 := by
  unfold request scanRequest
  have h₁ := skipLeading_reads (T := T) (r := none) fuel D hf
  have l₁ := (scanSkip_suffix T Byte.isBlank D).length_le
  rcases hx : scanSkip T Byte.isBlank D with ⟨e | _, D₁⟩
  · rw [hx] at h₁
    exact h₁.bind_error
  rw [hx] at h₁ l₁
  refine h₁.bind ?_
  dsimp -zeta only at l₁ ⊢
  have h₂ := methodToken_reads (T := T) (r := none) D₁ Method.maxNameLength []
  have l₂ := (scanMethod_suffix T Method.maxNameLength [] D₁).length_le
  rcases hy : scanMethod T Method.maxNameLength [] D₁ with ⟨e | tok, D₂⟩
  · rw [hy] at h₂
    exact h₂.bind_error
  rw [hy] at h₂ l₂
  refine h₂.bind ?_
  dsimp -zeta only at l₂ ⊢
  rcases hm : matchMethod tok with _ | m
  · exact (Reads.throw _).bind_error
  refine (Reads.pure m).bind ((Reads.setRequest _).bind ?_)
  dsimp -zeta only
  have h₃ := skipSpace_reads (T := T) (r := some { method := m }) fuel D₂ (by omega)
  have l₃ := (scanSkip_suffix T inLine D₂).length_le
  rcases hz : scanSkip T inLine D₂ with ⟨e | ch, D₃⟩
  · rw [hz] at h₃
    exact h₃.bind_error
  rw [hz] at h₃ l₃
  refine h₃.bind ?_
  dsimp -zeta only at l₃ ⊢
  cases hlf : (ch == lf)
  · have h₄ := path_reads (T := T) (r := some { method := m }) lim
      (show D₃.length < fuel by omega)
    have l₄ := (scanPath_suffix T lim D₃).length_le
    rcases hp : scanPath T lim D₃ with ⟨e | p, D₄⟩
    · rw [hp] at h₄
      exact h₄.bind_error
    rw [hp] at h₄ l₄
    dsimp only at l₄
    exact h₄.bind (afterPath_reads lim m _ (D := D₄) (by omega))
  · exact (Reads.throw _).bind_error

end Request

end Reading

open Transport Reading

/-- **Parsing depends on the stream only.** Over any transport that delivers the bytes `D` and
then stops with `T`, `Request.parse` returns the request and the failure that `scanRequest`
reads off `D`, and consumes the bytes that it does not leave. -/
theorem parse_eq_scan (lim : Limits) {s : Script} {D : Bytes} {T : Stop} (hs : s.Yields D T) :
    (Request.parse lim (Cursor.ofScript s)).request = (scanRequest T lim D).1 ∧
    (Request.parse lim (Cursor.ofScript s)).error = (scanRequest T lim D).2.1 ∧
    (Request.parse lim (Cursor.ofScript s)).consumed =
      (D.length : Int) - (scanRequest T lim D).2.2.length := by
  have hb := hs.length_le_budget
    (show windowSize ≤ Parsed.endlessBudget + lim.largest by
      simp only [windowSize, Parsed.endlessBudget]; omega)
  have hf : D.length < (Cursor.ofScript s).budget (Parsed.endlessBudget + lim.largest) + 1 := by
    simp only [Cursor.budget, Cursor.ofScript, List.length_nil, Nat.zero_add]
    omega
  obtain ⟨c', hrun, hc'⟩ :=
    request_reads (T := T) lim hf (Cursor.ofScript s) D.length (Cursor.At.ofScript hs)
  have hd := hc'.delivered
  unfold Request.parse
  simp only [hrun]
  refine ⟨trivial, ?_, ?_⟩
  · cases (scanRequest T lim D).2.1 <;> rfl
  · simp only [Parsed.consumed, Cursor.buffered]
    omega

/-- **A cursor refines a plain byte stream.** Over a transport that delivers the bytes `D` and
then stops with `T`, a fresh cursor answers any sequence of demands as the stream `D` does, so
that the bytes it hands over come in order from the front of `D`; its window holds exactly the
bytes handed out by the transport and not yet taken; it reads from the transport only for a
byte demanded of an empty window before the stream has stopped, and every stop it reports is
`T`, after which it never reads again. Consequently the parse of the transport depends only on
`D` and `T`. -/
theorem cursor_refines_stream {s : Script} {D : Bytes} {T : Stop} (hs : s.Yields D T)
    (ds : List Cursor.Demand) (lim : Limits) :
    StreamAnswers T D ds ((Cursor.ofScript s).answerAll ds) ∧
    takenBytes ds ((Cursor.ofScript s).answerAll ds) <+: D ∧
    ((Cursor.ofScript s).after ds).buffered +
        (takenBytes ds ((Cursor.ofScript s).answerAll ds)).length =
      ((Cursor.ofScript s).after ds).delivered ∧
    (∀ d, ((Cursor.ofScript s).after ds).ReadsOnDemand d ∧
      ∀ e, (((Cursor.ofScript s).after ds).answer d).2 = .stop e →
        e = T ∧ (((Cursor.ofScript s).after ds).answer d).1.stopped = some T) ∧
    (Request.parse lim (Cursor.ofScript s)).request = (scanRequest T lim D).1 ∧
    (Request.parse lim (Cursor.ofScript s)).error = (scanRequest T lim D).2.1 ∧
    (Request.parse lim (Cursor.ofScript s)).consumed =
      (D.length : Int) - (scanRequest T lim D).2.2.length := by
  obtain ⟨hans, rest, hD, -, hcount, hdemand⟩ := cursor_answers_stream hs ds
  exact ⟨hans, ⟨rest, hD.symm⟩, hcount, hdemand, parse_eq_scan lim hs⟩

/-- A transport that hands out `GE`, then `T /` and a line feed together with a failure, and a
reader that peeks and takes its way across the boundary between the two reads and on past the
last byte: the answers are the bytes in order and then the failure, each read made only when the
window is empty, and the parse reads the simple request `GET /`. -/
theorem cursor_refines_split_stream :
    (⟨[Reply.ofBytes [71, 69]], ⟨[84, 32, 47, 10], 4, some (.failure "reset")⟩⟩ : Script).Yields [71, 69, 84, 32, 47, 10] (.readFailed "reset") ∧
    StreamAnswers (.readFailed "reset") [71, 69, 84, 32, 47, 10] [.peek, .next, .next, .buffered, .peek, .next, .buffered, .next, .next, .next, .next, .peek]
      ((Cursor.ofScript (⟨[Reply.ofBytes [71, 69]], ⟨[84, 32, 47, 10], 4, some (.failure "reset")⟩⟩ : Script)).answerAll [.peek, .next, .next, .buffered, .peek, .next, .buffered, .next, .next, .next, .next, .peek]) ∧
    takenBytes [.peek, .next, .next, .buffered, .peek, .next, .buffered, .next, .next, .next, .next, .peek] ((Cursor.ofScript (⟨[Reply.ofBytes [71, 69]], ⟨[84, 32, 47, 10], 4, some (.failure "reset")⟩⟩ : Script)).answerAll [.peek, .next, .next, .buffered, .peek, .next, .buffered, .next, .next, .next, .next, .peek]) <+: [71, 69, 84, 32, 47, 10] ∧
    ((Cursor.ofScript (⟨[Reply.ofBytes [71, 69]], ⟨[84, 32, 47, 10], 4, some (.failure "reset")⟩⟩ : Script)).after [.peek, .next, .next, .buffered, .peek, .next, .buffered, .next, .next, .next, .next, .peek]).buffered +
        (takenBytes [.peek, .next, .next, .buffered, .peek, .next, .buffered, .next, .next, .next, .next, .peek] ((Cursor.ofScript (⟨[Reply.ofBytes [71, 69]], ⟨[84, 32, 47, 10], 4, some (.failure "reset")⟩⟩ : Script)).answerAll [.peek, .next, .next, .buffered, .peek, .next, .buffered, .next, .next, .next, .next, .peek])).length =
      ((Cursor.ofScript (⟨[Reply.ofBytes [71, 69]], ⟨[84, 32, 47, 10], 4, some (.failure "reset")⟩⟩ : Script)).after [.peek, .next, .next, .buffered, .peek, .next, .buffered, .next, .next, .next, .next, .peek]).delivered ∧
    (∀ d, ((Cursor.ofScript (⟨[Reply.ofBytes [71, 69]], ⟨[84, 32, 47, 10], 4, some (.failure "reset")⟩⟩ : Script)).after [.peek, .next, .next, .buffered, .peek, .next, .buffered, .next, .next, .next, .next, .peek]).ReadsOnDemand d ∧
      ∀ e, (((Cursor.ofScript (⟨[Reply.ofBytes [71, 69]], ⟨[84, 32, 47, 10], 4, some (.failure "reset")⟩⟩ : Script)).after [.peek, .next, .next, .buffered, .peek, .next, .buffered, .next, .next, .next, .next, .peek]).answer d).2 = .stop e →
        e = (.readFailed "reset") ∧ (((Cursor.ofScript (⟨[Reply.ofBytes [71, 69]], ⟨[84, 32, 47, 10], 4, some (.failure "reset")⟩⟩ : Script)).after [.peek, .next, .next, .buffered, .peek, .next, .buffered, .next, .next, .next, .next, .peek]).answer d).1.stopped = some (.readFailed "reset")) ∧
    (Request.parse Limits.default (Cursor.ofScript (⟨[Reply.ofBytes [71, 69]], ⟨[84, 32, 47, 10], 4, some (.failure "reset")⟩⟩ : Script))).request = (scanRequest (.readFailed "reset") Limits.default [71, 69, 84, 32, 47, 10]).1 ∧
    (Request.parse Limits.default (Cursor.ofScript (⟨[Reply.ofBytes [71, 69]], ⟨[84, 32, 47, 10], 4, some (.failure "reset")⟩⟩ : Script))).error = (scanRequest (.readFailed "reset") Limits.default [71, 69, 84, 32, 47, 10]).2.1 ∧
    (Request.parse Limits.default (Cursor.ofScript (⟨[Reply.ofBytes [71, 69]], ⟨[84, 32, 47, 10], 4, some (.failure "reset")⟩⟩ : Script))).consumed =
      (([71, 69, 84, 32, 47, 10] : Bytes).length : Int) - (scanRequest (.readFailed "reset") Limits.default [71, 69, 84, 32, 47, 10]).2.2.length := by
  have hs : (⟨[Reply.ofBytes [71, 69]], ⟨[84, 32, 47, 10], 4, some (.failure "reset")⟩⟩ : Script).Yields [71, 69, 84, 32, 47, 10] (.readFailed "reset") :=
    Script.Yields.more (d := [71, 69]) rfl (by decide) (by decide)
      (Script.Yields.last (f := some (.failure "reset")) rfl (by decide) (Or.inr rfl))
  exact ⟨hs, cursor_refines_stream hs [.peek, .next, .next, .buffered, .peek, .next, .buffered, .next, .next, .next, .next, .peek] Limits.default⟩

end StaticHttp
