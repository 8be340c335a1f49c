import StaticHttp.Transport.Cursor

/-!
# A cursor reads a plain byte stream

A transport that hands out bytes over its reads and then stops is, seen through a cursor, a
plain byte stream: its bytes in order, then the reason it stopped. This module says what a
transport that keeps the read contract delivers (`Script.Yields`), ties a cursor to the part of
that stream it has not yet handed over (`Cursor.At`), and shows that every demand made of the
cursor is answered as the stream answers it.

`Script.Yields` is the reference: a read of some bytes and no fault is followed by more reads,
and the stream ends at the first read that hands out no bytes, comes with a fault, or reports a
count outside the window. The stop is the end of the stream for an empty read without a fault,
the fault itself otherwise, and a bad count for a count out of range.

Main statements:
* `Script.Yields.length_le_budget`: a transport that delivers a stream hands out no more than
  the budget a reader bounds its loops by.
* `Cursor.At.peek_cons`, `Cursor.At.peek_nil`, `Cursor.At.advance`, `Cursor.At.next_cons`,
  `Cursor.At.next_nil`: the steps of a reader, said on the stream.
* `Cursor.answer_reads`: a demand reads at most once, for a byte, from an empty window and only
  while the stream has not stopped.
* `Cursor.At.answerAll`: any sequence of demands is answered as the stream answers it.
* `cursor_answers_stream`: the same from a fresh cursor over any transport that delivers a
  stream, with the window holding exactly what was handed out and not yet taken.
-/

namespace StaticHttp

namespace Transport

namespace Script

/-- The transport hands out the bytes `D` over its reads and then stops with `T`. -/
inductive Yields : Script → Bytes → Stop → Prop
  /-- A read of some bytes and no fault: more reads follow. -/
  | more {s : Script} {d D : Bytes} {T : Stop} :
      s.next.1 = Reply.ofBytes d → d ≠ [] → d.length ≤ windowSize →
      Yields s.next.2 D T → Yields s (d ++ D) T
  /-- The read that ends the stream: no bytes, or bytes together with a fault. -/
  | last {s : Script} {d : Bytes} {f : Option Fault} :
      s.next.1 = ⟨d, d.length, f⟩ → d.length ≤ windowSize → (d = [] ∨ f.isSome) →
      Yields s d ((f.map Stop.ofFault).getD .endOfStream)
  /-- A read whose count lies outside the window. -/
  | badCount {s : Script} :
      (s.next.1.count < 0 ∨ (windowSize : Int) < s.next.1.count) →
      Yields s [] (.badCount s.next.1.count)

/-! ## A stream fits in its budget -/

theorem delivers_of_length {d : Bytes} {f : Option Fault} (hw : d.length ≤ windowSize) :
    Reply.delivers ⟨d, d.length, f⟩ = d.length := by
  have hc : (decide (0 ≤ (d.length : Int)) && decide ((d.length : Int) ≤ windowSize)) = true := by
    simp only [Bool.and_eq_true, decide_eq_true_eq]
    omega
  simp only [Reply.delivers, hc, if_true, Int.toNat_natCast]

theorem budget_cons (r : Reply) (rs : List Reply) (final : Reply) (extra : Nat) :
    budget ⟨r :: rs, final⟩ extra = r.delivers + budget ⟨rs, final⟩ extra := by
  simp only [budget, List.map_cons, List.foldr_cons]
  omega

theorem next_of_nil {s : Script} (hr : s.replies = []) : s.next = (s.final, s) := by
  simp only [next, hr]

/-- A transport whose reads, once its replies are used up, hand out bytes and no fault for ever
never stops. -/
theorem Yields.not_endless {s : Script} {D : Bytes} {T : Stop} (h : s.Yields D T) :
    s.replies = [] → ∀ d, s.final = Reply.ofBytes d → d ≠ [] → d.length ≤ windowSize →
      False := by
  induction h with
  | more hn _ _ _ ih =>
    intro hr d hf hd hw
    rw [next_of_nil hr] at ih
    exact ih hr d hf hd hw
  | last hn _ hdf =>
    intro hr d hf hd _
    rw [next_of_nil hr, hf] at hn
    simp only [Reply.ofBytes, Reply.mk.injEq] at hn
    obtain ⟨rfl, -, rfl⟩ := hn
    simp_all
  | badCount hc =>
    intro hr d hf _ hw
    rw [next_of_nil hr, hf] at hc
    simp only [Reply.ofBytes] at hc
    omega

/-- A transport that delivers a stream hands out no more bytes than its budget, when the
budget of a last read that comes with bytes is at least a window. -/
theorem Yields.length_le_budget {s : Script} {D : Bytes} {T : Stop} (h : s.Yields D T)
    {extra : Nat} (he : windowSize ≤ extra) : D.length ≤ s.budget extra := by
  induction h with
  | @more s d D T hn hd hw hy ih =>
    rcases s with ⟨_ | ⟨r, rs⟩, final⟩
    · rw [next_of_nil rfl] at hy hn
      exact (hy.not_endless rfl d hn hd hw).elim
    · simp only [next] at hn ih
      rw [budget_cons, hn, Reply.ofBytes, delivers_of_length hw, List.length_append]
      omega
  | @last s d f hn hw hdf =>
    rcases s with ⟨_ | ⟨r, rs⟩, final⟩
    · simp only [next] at hn
      simp only [budget, List.map_nil, List.foldr_nil, hn, delivers_of_length hw]
      split <;> omega
    · simp only [next] at hn
      rw [budget_cons, hn, delivers_of_length hw]
      omega
  | badCount => exact Nat.zero_le _

/-- A transport that hands out the bytes `d` in one read, and then ends, delivers them. -/
theorem yields_one_read {d : Bytes} (hd : d ≠ []) (hw : d.length ≤ windowSize) :
    (⟨[Reply.ofBytes d], Reply.ofBytes []⟩ : Script).Yields d .endOfStream := by
  have h := Yields.more (s := ⟨[Reply.ofBytes d], Reply.ofBytes []⟩) (D := []) rfl hd hw
    (Yields.last (f := none) rfl (Nat.zero_le _) (Or.inl rfl))
  rwa [List.append_nil] at h

end Script

/-- What a plain byte stream answers to a demand for a byte: its next byte, or, once it has
none left, the reason it stopped. -/
def streamAnswer (D : Bytes) (T : Stop) : Cursor.Answer :=
  match D with
  | b :: _ => .byte b
  | [] => .stop T

/-- The answers a plain byte stream `D` that stops with `T` gives to a sequence of demands: a
peek shows the next byte and keeps it, a next hands it over, and a count of buffered bytes may
be anything, the stream having no window. -/
inductive StreamAnswers (T : Stop) : Bytes → List Cursor.Demand → List Cursor.Answer → Prop
  | nil {D : Bytes} : StreamAnswers T D [] []
  | peek {D : Bytes} {ds : List Cursor.Demand} {as : List Cursor.Answer} :
      StreamAnswers T D ds as → StreamAnswers T D (.peek :: ds) (streamAnswer D T :: as)
  | next {D : Bytes} {ds : List Cursor.Demand} {as : List Cursor.Answer} :
      StreamAnswers T D.tail ds as → StreamAnswers T D (.next :: ds) (streamAnswer D T :: as)
  | buffered {D : Bytes} {ds : List Cursor.Demand} {as : List Cursor.Answer} (k : Nat) :
      StreamAnswers T D ds as → StreamAnswers T D (.buffered :: ds) (.buffered k :: as)

/-- The bytes that the `next` demands among `ds` received, in order. -/
def takenBytes : List Cursor.Demand → List Cursor.Answer → Bytes
  | .next :: ds, .byte b :: as => b :: takenBytes ds as
  | _ :: ds, _ :: as => takenBytes ds as
  | _, _ => []

namespace Cursor

/-- A read of `d` within the window, by a cursor that has not stopped: the window becomes `d`,
and an empty read stops the cursor. -/
theorem fill_read {c : Cursor} {d : Bytes} {f : Option Fault} {rest : Script}
    (hs : c.stopped = none) (hn : c.script.next = (⟨d, d.length, f⟩, rest))
    (hd : d.length ≤ windowSize) :
    ∃ buf, c.fill =
      if d = [] then
        ({ c with script := rest, buffer := buf, window := d, delivered := c.delivered + d.length,
                  stopped := some ((f.map Stop.ofFault).getD .endOfStream) },
          some ((f.map Stop.ofFault).getD .endOfStream))
      else
        ({ c with script := rest, buffer := buf, window := d, delivered := c.delivered + d.length,
                  stopped := f.map Stop.ofFault }, none) := by
  refine ⟨(d ++ c.buffer.drop d.length).take windowSize, ?_⟩
  have hcount : (decide ((d.length : Int) < 0) || decide ((d.length : Int) > windowSize)) = false := by
    simp only [Bool.or_eq_false_iff, decide_eq_false_iff_not]
    omega
  have hwin : ((d ++ c.buffer.drop d.length).take windowSize).take d.length = d := by
    rw [List.take_take, Nat.min_eq_left hd]
    simp
  simp only [fill, hs, hn, hcount, Int.toNat_natCast, hwin, Nat.min_self, List.length_eq_zero_iff,
    Bool.false_eq_true, if_false]

theorem fill_badCount {c : Cursor} {r : Reply} {rest : Script}
    (hs : c.stopped = none) (hn : c.script.next = (r, rest))
    (hb : r.count < 0 ∨ (windowSize : Int) < r.count) :
    c.fill = ({ c with script := rest, stopped := some (.badCount r.count) },
      some (.badCount r.count)) := by
  have hcount : (decide (r.count < 0) || decide (r.count > windowSize)) = true := by
    simp only [Bool.or_eq_true, decide_eq_true_eq]
    omega
  simp only [fill, hs, hn, hcount, if_true]

/-- The cursor will hand out the bytes `D`, those of its window first, and then stop with `T`. -/
def Yields (c : Cursor) (D : Bytes) (T : Stop) : Prop :=
  match c.stopped with
  | some e => D = c.window ∧ e = T
  | none => ∃ D', D = c.window ++ D' ∧ c.script.Yields D' T

/-- The cursor reads a stream of `n` bytes that stops with `T`, and will still hand out `D`:
the bytes its transport handed out are the `n - D.length` already taken and those in the
window. -/
structure At (c : Cursor) (n : Nat) (D : Bytes) (T : Stop) : Prop where
  yields : c.Yields D T
  delivered : c.delivered + D.length = n + c.window.length
  le : D.length ≤ n

theorem At.ofScript {s : Script} {D : Bytes} {T : Stop} (h : s.Yields D T) :
    (ofScript s).At D.length D T :=
  ⟨⟨D, rfl, h⟩, by rw [Nat.add_comm]; rfl, Nat.le_refl _⟩

/-- A peek at a stream with a byte left shows that byte, and leaves it in the window. -/
theorem At.peek_cons {c : Cursor} {n : Nat} {b : Byte} {D : Bytes} {T : Stop}
    (h : c.At n (b :: D) T) :
    ∃ c' w, c.peek = (c', .ok b) ∧ c'.window = b :: w ∧ c'.At n (b :: D) T := by
  obtain ⟨hy, hcount, hle⟩ := h
  cases hw : c.window with
  | cons b' w =>
    have hb : b' = b := by
      unfold Yields at hy
      split at hy
      · rw [hw] at hy; exact (List.cons.inj hy.1).1.symm
      · obtain ⟨D', hD, -⟩ := hy
        rw [hw] at hD
        exact (List.cons.inj hD).1.symm
    subst hb
    exact ⟨c, w, by simp [peek, hw], hw, ⟨hy, hcount, hle⟩⟩
  | nil =>
    unfold Yields at hy
    split at hy
    · rw [hw] at hy; exact absurd hy.1 (List.cons_ne_nil b D)
    · rename_i hs
      obtain ⟨D', hD, hyD⟩ := hy
      rw [hw, List.nil_append] at hD
      cases hyD with
      | more hnext hne hlen hrest =>
        rename_i d D₀
        obtain ⟨buf, hfill⟩ := fill_read hs (Prod.ext hnext rfl) hlen
        cases d with
        | nil => exact absurd rfl hne
        | cons x d' =>
          obtain ⟨rfl, rfl⟩ := List.cons.inj hD
          rw [if_neg hne] at hfill
          refine ⟨c.fill.1, d', by simp [peek, hw, hfill], by simp [hfill], ?_, ?_, hle⟩
          · rw [hfill]
            exact ⟨D₀, rfl, hrest⟩
          · rw [hfill]
            simp only [List.length_cons, hw, List.length_nil] at hcount ⊢
            omega
      | last hnext hlen hend =>
        rename_i d f
        obtain ⟨buf, hfill⟩ := fill_read hs (Prod.ext hnext rfl) hlen
        subst hD
        obtain ⟨x, rfl⟩ : ∃ x, f = some x := by
          rcases hend with h | h
          · exact absurd h (List.cons_ne_nil b D)
          · exact Option.isSome_iff_exists.mp h
        rw [if_neg (List.cons_ne_nil b D)] at hfill
        refine ⟨c.fill.1, D, by simp [peek, hw, hfill], by simp [hfill], ?_, ?_, hle⟩
        · rw [hfill]
          exact ⟨rfl, rfl⟩
        · rw [hfill]
          simp only [List.length_cons, hw, List.length_nil] at hcount ⊢
          omega
      | badCount hb => exact absurd hD (List.cons_ne_nil b D)

/-- A peek at a used-up stream gives its stop, and the cursor stays stopped. -/
theorem At.peek_nil {c : Cursor} {n : Nat} {T : Stop} (h : c.At n [] T) :
    ∃ c', c.peek = (c', .error T) ∧ c'.At n [] T ∧ c'.stopped = some T := by
  obtain ⟨hy, hcount, hle⟩ := h
  unfold Yields at hy
  split at hy
  · rename_i e hs
    obtain ⟨hw, rfl⟩ := hy
    refine ⟨c, by simp [peek, ← hw, fill_held c e hs], ⟨?_, hcount, hle⟩, hs⟩
    unfold Yields
    rw [hs]
    exact ⟨hw, rfl⟩
  · rename_i hs
    obtain ⟨D', hD, hyD⟩ := hy
    obtain ⟨hw, hD'⟩ := List.append_eq_nil_iff.mp hD.symm
    cases hyD with
    | more hnext hne hlen hrest => exact absurd (List.append_eq_nil_iff.mp hD').1 hne
    | last hnext hlen hend =>
      subst hD'
      obtain ⟨buf, hfill⟩ := fill_read hs (Prod.ext hnext rfl) hlen
      rw [if_pos rfl] at hfill
      refine ⟨c.fill.1, by simp [peek, hw, hfill], ⟨?_, ?_, hle⟩, by simp [hfill]⟩
      · rw [hfill]
        exact ⟨rfl, rfl⟩
      · rw [hfill]
        simp only [hw, List.length_nil] at hcount ⊢
        omega
    | badCount hb =>
      have hfill := fill_badCount hs (show c.script.next = (c.script.next.1, c.script.next.2)
        from rfl) hb
      refine ⟨c.fill.1, by simp [peek, hw, hfill], ⟨?_, ?_, hle⟩, by simp [hfill]⟩
      · rw [hfill]
        exact ⟨hw.symm, rfl⟩
      · rw [hfill]
        exact hcount

/-- Consuming a byte that a peek left in the window takes it off the stream. -/
theorem At.advance {c : Cursor} {n : Nat} {b : Byte} {D w : Bytes} {T : Stop}
    (h : c.At n (b :: D) T) (hw : c.window = b :: w) : c.advance.At n D T := by
  obtain ⟨hy, hcount, hle⟩ := h
  refine ⟨?_, ?_, ?_⟩
  · unfold Yields at hy ⊢
    simp only [Cursor.advance, hw, List.tail_cons]
    split at hy
    · obtain ⟨hD, he⟩ := hy
      rw [hw] at hD
      exact ⟨(List.cons.inj hD).2, he⟩
    · obtain ⟨D', hD, hyD⟩ := hy
      rw [hw, List.cons_append] at hD
      exact ⟨D', (List.cons.inj hD).2, hyD⟩
  · simp only [Cursor.advance, hw, List.tail_cons, List.length_cons] at hcount ⊢
    omega
  · simp only [List.length_cons] at hle
    omega

theorem At.next_cons {c : Cursor} {n : Nat} {b : Byte} {D : Bytes} {T : Stop}
    (h : c.At n (b :: D) T) : ∃ c', c.next = (c', .ok b) ∧ c'.At n D T := by
  obtain ⟨c', w, hp, hw, h'⟩ := h.peek_cons
  exact ⟨c'.advance, by simp [next, hp], h'.advance hw⟩

theorem At.next_nil {c : Cursor} {n : Nat} {T : Stop} (h : c.At n [] T) :
    ∃ c', c.next = (c', .error T) ∧ c'.At n [] T ∧ c'.stopped = some T := by
  obtain ⟨c', hp, h', hs⟩ := h.peek_nil
  exact ⟨c', by simp [next, hp], h', hs⟩

/-- The cursor after answering the demands in turn. -/
def after (c : Cursor) : List Demand → Cursor
  | [] => c
  | d :: ds => (c.answer d).1.after ds

/-- A demand reads at most once: only for a byte, only from an empty window, and only while
the stream has not stopped. -/
def ReadsOnDemand (c : Cursor) (d : Demand) : Prop :=
  (c.answer d).1.script = c.script ∨
    (d ≠ .buffered ∧ c.buffered = 0 ∧ c.stopped = none ∧ (c.answer d).1.script = c.script.next.2)

theorem fill_script (c : Cursor) :
    c.fill.1.script = c.script ∨ (c.stopped = none ∧ c.fill.1.script = c.script.next.2) := by
  unfold fill
  split
  · exact Or.inl rfl
  · rename_i hs
    refine Or.inr ⟨hs, ?_⟩
    rcases hn : c.script.next with ⟨r, rest⟩
    dsimp only
    split
    · rfl
    · split <;> rfl

theorem peek_fst_of_nil {c : Cursor} (hw : c.window = []) : c.peek.1 = c.fill.1 := by
  unfold peek
  rw [hw]
  dsimp only
  rcases c.fill with ⟨c', _ | e⟩
  · dsimp only
    split <;> rfl
  · rfl

theorem next_fst_script (c : Cursor) : c.next.1.script = c.peek.1.script := by
  unfold Cursor.next
  rcases c.peek with ⟨c', _ | b⟩ <;> rfl

theorem answer_fst (c : Cursor) (d : Demand) :
    (c.answer d).1 = match d with
      | .peek => c.peek.1
      | .next => c.next.1
      | .buffered => c := by
  cases d with
  | peek => unfold answer; rcases c.peek with ⟨c', _ | b⟩ <;> rfl
  | next => unfold answer; rcases c.next with ⟨c', _ | b⟩ <;> rfl
  | buffered => rfl

theorem peek_script (c : Cursor) :
    c.peek.1.script = c.script ∨
      (c.window = [] ∧ c.stopped = none ∧ c.peek.1.script = c.script.next.2) := by
  cases hw : c.window with
  | cons b w => exact Or.inl (by simp [peek, hw])
  | nil =>
    rw [peek_fst_of_nil hw]
    rcases fill_script c with h | ⟨hs, h⟩
    · exact Or.inl h
    · exact Or.inr ⟨rfl, hs, h⟩

theorem answer_reads (c : Cursor) (d : Demand) : c.ReadsOnDemand d := by
  unfold ReadsOnDemand buffered
  rw [answer_fst]
  cases d with
  | buffered => exact Or.inl rfl
  | peek =>
    rcases peek_script c with h | ⟨hw, hs, h⟩
    · exact Or.inl h
    · exact Or.inr ⟨by simp, by simp [hw], hs, h⟩
  | next =>
    dsimp only
    rw [next_fst_script]
    rcases peek_script c with h | ⟨hw, hs, h⟩
    · exact Or.inl h
    · exact Or.inr ⟨by simp, by simp [hw], hs, h⟩

theorem answerAll_cons (c : Cursor) (d : Demand) (ds : List Demand) :
    c.answerAll (d :: ds) = (c.answer d).2 :: (c.answer d).1.answerAll ds := by
  simp only [answerAll]

/-- **Run lemma.** A cursor reading a stream answers any sequence of demands as the stream
does, and the bytes its `next` demands took are the front of the stream. -/
theorem At.answerAll {c : Cursor} {n : Nat} {D : Bytes} {T : Stop} (h : c.At n D T)
    (ds : List Demand) :
    StreamAnswers T D ds (c.answerAll ds) ∧
      ∃ rest, D = takenBytes ds (c.answerAll ds) ++ rest ∧ (c.after ds).At n rest T := by
  induction ds generalizing c D with
  | nil => exact ⟨.nil, D, rfl, h⟩
  | cons d ds ih =>
    rw [answerAll_cons]
    cases d with
    | peek =>
      obtain ⟨c', ha, h'⟩ : ∃ c', c.answer .peek = (c', streamAnswer D T) ∧ c'.At n D T := by
        cases D with
        | nil =>
          obtain ⟨c', hp, h', -⟩ := h.peek_nil
          exact ⟨c', by simp [answer, hp, streamAnswer], h'⟩
        | cons b D =>
          obtain ⟨c', w, hp, -, h'⟩ := h.peek_cons
          exact ⟨c', by simp [answer, hp, streamAnswer], h'⟩
      obtain ⟨hs, rest, hD, hc⟩ := ih h'
      rw [ha]
      exact ⟨.peek hs, rest, by simpa [takenBytes] using hD, by simpa [after, ha] using hc⟩
    | next =>
      cases D with
      | nil =>
        obtain ⟨c', hp, h', -⟩ := h.next_nil
        have ha : c.answer .next = (c', .stop T) := by simp [answer, hp]
        obtain ⟨hs, rest, hD, hc⟩ := ih h'
        rw [ha]
        exact ⟨.next hs, rest, by simpa [takenBytes] using hD, by simpa [after, ha] using hc⟩
      | cons b D =>
        obtain ⟨c', hp, h'⟩ := h.next_cons
        have ha : c.answer .next = (c', .byte b) := by simp [answer, hp]
        obtain ⟨hs, rest, hD, hc⟩ := ih h'
        rw [ha]
        exact ⟨.next hs, rest, by simp [takenBytes, hD], by simpa [after, ha] using hc⟩
    | buffered =>
      obtain ⟨hs, rest, hD, hc⟩ := ih h
      exact ⟨.buffered _ hs, rest, by simpa [answer, takenBytes] using hD,
        by simpa [after, answer] using hc⟩

theorem At.answer_stop {c : Cursor} {n : Nat} {D : Bytes} {T : Stop} (h : c.At n D T)
    {d : Demand} {e : Stop} (ha : (c.answer d).2 = .stop e) :
    e = T ∧ (c.answer d).1.stopped = some T := by
  cases d with
  | buffered => simp [answer] at ha
  | peek =>
    cases D with
    | nil =>
      obtain ⟨c', hp, -, hs⟩ := h.peek_nil
      simp only [answer, hp] at ha ⊢
      exact ⟨(Answer.stop.inj ha).symm, hs⟩
    | cons b D =>
      obtain ⟨c', w, hp, -, -⟩ := h.peek_cons
      simp [answer, hp] at ha
  | next =>
    cases D with
    | nil =>
      obtain ⟨c', hp, -, hs⟩ := h.next_nil
      simp only [answer, hp] at ha ⊢
      exact ⟨(Answer.stop.inj ha).symm, hs⟩
    | cons b D =>
      obtain ⟨c', hp, -⟩ := h.next_cons
      simp [answer, hp] at ha

end Cursor

/-- Over a transport that hands out `D` and then stops with `T`, a cursor is the plain byte
stream `D`, `T`. Whatever demands are made of it: the bytes that `next` hands over are a
prefix of `D`, taken in order; a peek shows the byte the next `next` would take, and keeps it;
once `D` is used up every byte demand answers the stop `T`; the window holds exactly the bytes
handed out and not yet taken; and a demand reads at most once, for a byte, from an empty
window, and never after the stream has stopped. -/
theorem cursor_answers_stream {s : Script} {D : Bytes} {T : Stop} (hs : s.Yields D T)
    (ds : List Cursor.Demand) :
    StreamAnswers T D ds ((Cursor.ofScript s).answerAll ds) ∧
      ∃ rest, D = takenBytes ds ((Cursor.ofScript s).answerAll ds) ++ rest ∧
        ((Cursor.ofScript s).after ds).At D.length rest T ∧
        ((Cursor.ofScript s).after ds).buffered +
          (takenBytes ds ((Cursor.ofScript s).answerAll ds)).length =
          ((Cursor.ofScript s).after ds).delivered ∧
        ∀ d, ((Cursor.ofScript s).after ds).ReadsOnDemand d ∧
          ∀ e, (((Cursor.ofScript s).after ds).answer d).2 = .stop e →
            e = T ∧ (((Cursor.ofScript s).after ds).answer d).1.stopped = some T := by
  obtain ⟨hans, rest, hD, hc⟩ := (Cursor.At.ofScript hs).answerAll ds
  refine ⟨hans, rest, hD, hc, ?_, fun d => ⟨Cursor.answer_reads _ d, fun e he => hc.answer_stop he⟩⟩
  have hlen := congrArg List.length hD
  have hcount := hc.delivered
  simp only [List.length_append] at hlen
  simp only [Cursor.buffered]
  omega

end Transport

end StaticHttp
