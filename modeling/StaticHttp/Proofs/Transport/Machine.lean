import Mathlib
import StaticHttp.Transport.Cursor

/-!
# The cursor as the machine keeps it

The window cursor keeps its unread bytes as a list. The machine keeps them as two indices into
its buffer of `windowSize` bytes: `pos`, the next byte, and `endPos`, the end of the bytes the
last read put there. Both a peek and a next read first when `pos` has reached `endPos`, then
read the byte at `pos`, and a next steps past it; an advance steps past it unchecked, so nothing
in the machine itself keeps `pos` at or below `endPos`.

A reader's calls are logged as `Call`s, each with what it returned. A log keeps the peek rule
when every advance in it comes right after a peek that returned a byte. The machine answers
every call of such a log as the window cursor does, passes only through states with
`0 ≤ pos ≤ endPos ≤ windowSize`, and reads its buffer only in range.

Main statements:
* `Call.Disciplined.after_peek`: in a log that keeps the rule from its start, the call before
  each advance is a peek that returned a byte.
* `Mirrors.peek`, `Mirrors.next`, `Mirrors.advance`: each call on both cursors.
* `Mirrors.replay`: a log that keeps the rule, on both cursors.
-/

namespace StaticHttp

namespace Transport

/-- A call a reader makes of its cursor, with what it returned. -/
inductive Call where
  /-- A peek, and the byte it showed or the stop. -/
  | peek (r : Except Stop Byte)
  /-- A next, and the byte it took or the stop. -/
  | next (r : Except Stop Byte)
  /-- An advance past the byte shown. -/
  | advance

namespace Call

/-- The calls keep the peek rule: every advance comes right after a peek that returned a byte.
`shown` says whether the call before them was such a peek. -/
def Disciplined : Bool → List Call → Prop
  | _, [] => True
  | _, peek r :: l => Disciplined r.isOk l
  | _, next _ :: l => Disciplined false l
  | shown, advance :: l => shown = true ∧ Disciplined false l

/-- Whether the last of the calls was a peek that returned a byte; `shown` when there are
none. -/
def shownAfter : Bool → List Call → Bool
  | shown, [] => shown
  | _, peek r :: l => shownAfter r.isOk l
  | _, next _ :: l => shownAfter false l
  | _, advance :: l => shownAfter false l

theorem disciplined_append :
    ∀ (shown : Bool) (l l' : List Call), Disciplined shown (l ++ l') ↔
      Disciplined shown l ∧ Disciplined (shownAfter shown l) l'
  | _, [], _ => by simp [Disciplined, shownAfter]
  | _, peek r :: l, l' => disciplined_append r.isOk l l'
  | _, next _ :: l, l' => disciplined_append false l l'
  | shown, advance :: l, l' => by
    simp only [List.cons_append, Disciplined, shownAfter, disciplined_append false l l', and_assoc]

/-- **The call before an advance.** In a log that keeps the peek rule, an advance is either the
first call, when the call before the log was a peek that showed a byte, or it comes right after
such a peek in the log. -/
theorem Disciplined.before_advance {shown : Bool} {pre post : List Call}
    (h : Disciplined shown (pre ++ advance :: post)) :
    (pre = [] ∧ shown = true) ∨ ∃ pre' b, pre = pre' ++ [peek (.ok b)] := by
  induction pre using List.reverseRecOn generalizing shown with
  | nil => exact .inl ⟨rfl, h.1⟩
  | append_singleton pre x _ =>
    rw [List.append_assoc, List.singleton_append, disciplined_append] at h
    right
    -- only a peek that returned a byte may stand right before the advance
    cases x with
    | peek r =>
      cases r with
      | ok b => exact ⟨pre, b, rfl⟩
      | error e => exact absurd h.2.1 (by simp [Except.isOk, Except.toBool])
    | next r => exact absurd h.2.1 (by simp)
    | advance => exact absurd h.2.2.1 (by simp)

/-- **An advance follows a peek that showed a byte.** In a log that keeps the peek rule from its
start, the call right before each advance is a peek that returned a byte. -/
theorem Disciplined.after_peek {l : List Call} (h : Disciplined false l) :
    ∀ pre post, l = pre ++ advance :: post → ∃ pre' b, pre = pre' ++ [peek (.ok b)] := by
  intro pre post hl
  subst hl
  rcases h.before_advance with ⟨-, hf⟩ | hpre
  · cases hf
  · exact hpre

end Call

namespace Cursor

/-- The log is what the cursor answers when its calls are made of it in order. -/
def Answers : Cursor → List Call → Prop
  | _, [] => True
  | c, .peek r :: l => c.peek.2 = r ∧ Answers c.peek.1 l
  | c, .next r :: l => c.next.2 = r ∧ Answers c.next.1 l
  | c, .advance :: l => Answers c.advance l

/-- A peek that returns a byte leaves it at the front of the window. -/
theorem peek_ok_window {c : Cursor} {b : Byte} (h : c.peek.2 = .ok b) :
    ∃ w, c.peek.1.window = b :: w := by
  unfold peek at h ⊢
  split
  · rename_i b' w hw
    rw [hw] at h
    cases h
    exact ⟨w, hw⟩
  · rename_i hw
    rw [hw] at h
    simp only at h ⊢
    split
    · rename_i c' e hf
      rw [hf] at h
      cases h
    · rename_i c' hf
      rw [hf] at h
      simp only at h ⊢
      split
      · rename_i b' w hw'
        rw [hw'] at h
        cases h
        exact ⟨w, hw'⟩
      · rename_i hw'
        rw [hw'] at h
        cases h

end Cursor

/-- The cursor as the machine keeps it: the buffer, the position of the next byte and the end
of the bytes the last read put in the buffer, the stop it keeps, and the transport. -/
structure Machine where
  buf : Bytes := List.replicate windowSize 0
  pos : Int := 0
  endPos : Int := 0
  err : Option Stop := none
  script : Script

namespace Machine

/-- A fresh machine over a transport: an empty window at the start of a zeroed buffer. -/
def ofScript (s : Script) : Machine := { script := s }

/-- One read into the buffer. A kept stop is given again without a read; a count outside the
window is kept as the stop; otherwise the window becomes the bytes read, from the start of the
buffer, and a read of none is the end of the stream or the fault that came with it. -/
def fill (m : Machine) : Machine × Option Stop :=
  match m.err with
  | some e => (m, some e)
  | none =>
    let (r, rest) := m.script.next
    if r.count < 0 || r.count > windowSize then
      let e := Stop.badCount r.count
      ({ m with script := rest, err := some e }, some e)
    else
      let buf := (r.written ++ m.buf.drop r.written.length).take windowSize
      let m' := { m with script := rest, buf := buf, pos := 0, endPos := r.count }
      let held := r.fault.map Stop.ofFault
      if r.count = 0 then
        let e := held.getD Stop.endOfStream
        ({ m' with err := some e }, some e)
      else ({ m' with err := held }, none)

/-- The read that a peek and a next begin with, made only once `pos` has reached `endPos`. -/
def ready (m : Machine) : Machine × Option Stop :=
  if m.pos < m.endPos then (m, none) else m.fill

/-- The byte at `pos`; `none` when `pos` lies outside the buffer, where the machine faults. -/
def read (m : Machine) : Option Byte := if 0 ≤ m.pos then m.buf[m.pos.toNat]? else none

/-- The byte at `pos`, after a read if the window is used up; `none` for a fault. -/
def peek (m : Machine) : Machine × Option (Except Stop Byte) :=
  match m.ready with
  | (m', some e) => (m', some (.error e))
  | (m', none) => (m', m'.read.map .ok)

/-- The byte at `pos`, after a read if the window is used up, and a step past it. -/
def next (m : Machine) : Machine × Option (Except Stop Byte) :=
  match m.ready with
  | (m', some e) => (m', some (.error e))
  | (m', none) => ({ m' with pos := m'.pos + 1 }, m'.read.map .ok)

/-- A step past the byte at `pos`, unchecked. -/
def advance (m : Machine) : Machine := { m with pos := m.pos + 1 }

/-- Makes a call of the kind that `call` is: what the machine returned, as a call, or `none`
for a fault. -/
def perform (m : Machine) : Call → Machine × Option Call
  | .peek _ => (m.peek.1, m.peek.2.map .peek)
  | .next _ => (m.next.1, m.next.2.map .next)
  | .advance => (m.advance, some .advance)

/-- Makes the calls of a log in order: what the machine returned to each, and every state it
passed through, the first included. -/
def replay : Machine → List Call → List (Option Call) × List Machine
  | m, [] => ([], [m])
  | m, call :: calls =>
    ((m.perform call).2 :: ((m.perform call).1.replay calls).1,
      m :: ((m.perform call).1.replay calls).2)

/-- After a read that gave no stop, the window holds a byte. -/
theorem fill_lt (m : Machine) (hf : m.fill.2 = none) : m.fill.1.pos < m.fill.1.endPos := by
  unfold fill at hf ⊢
  rcases hs : m.err with _ | e
  · rw [hs] at hf
    simp only at hf ⊢
    rcases hn : m.script.next with ⟨r, rest⟩
    rw [hn] at hf
    simp only at hf ⊢
    by_cases hbad : (r.count < 0 || r.count > (windowSize : Int)) = true
    · simp [hbad] at hf
    · simp only [hbad, Bool.false_eq_true, if_false] at hf ⊢
      simp only [Bool.or_eq_true, decide_eq_true_eq, not_or, not_lt] at hbad
      by_cases h0 : r.count = 0
      · simp [h0] at hf
      · simp only [h0, if_false]
        omega
  · rw [hs] at hf
    cases hf

theorem ready_of_lt {m : Machine} (hlt : m.pos < m.endPos) : m.ready = (m, none) := if_pos hlt

theorem ready_of_ge {m : Machine} (hge : ¬m.pos < m.endPos) : m.ready = m.fill := if_neg hge

/-- The indices stay in the buffer's order: `0 ≤ pos ≤ endPos ≤ windowSize`. -/
structure Bounded (m : Machine) : Prop where
  nonneg : 0 ≤ m.pos
  le_end : m.pos ≤ m.endPos
  end_le : m.endPos ≤ windowSize

/-- A replay answers each call and stays bounded when its first state is bounded, its first
call is answered, and the replay of the rest does both. -/
theorem replay_cons {m : Machine} {call : Call} {l : List Call} (hb : m.Bounded)
    (hcall : (m.perform call).2 = some call)
    (hrest : ((m.perform call).1.replay l).1 = l.map some ∧
      ∀ m' ∈ ((m.perform call).1.replay l).2, m'.Bounded) :
    (m.replay (call :: l)).1 = (call :: l).map some ∧
      ∀ m' ∈ (m.replay (call :: l)).2, m'.Bounded := by
  refine ⟨by simp only [replay, hcall, hrest.1, List.map_cons], ?_⟩
  simp only [replay, List.mem_cons]
  rintro m' (rfl | hm')
  · exact hb
  · exact hrest.2 m' hm'

end Machine

open Machine

/-- The machine `m` keeps what the window cursor `c` keeps: the same buffer of `windowSize`
bytes, the window as the bytes from `pos` to `endPos`, the same stop and transport. -/
structure Mirrors (m : Machine) (c : Cursor) : Prop where
  bounded : m.Bounded
  buffer : m.buf = c.buffer
  size : c.buffer.length = windowSize
  window : c.window = (c.buffer.take m.endPos.toNat).drop m.pos.toNat
  stopped : m.err = c.stopped
  script : m.script = c.script

namespace Mirrors

variable {m : Machine} {c : Cursor}

theorem ofScript (s : Script) : Mirrors (Machine.ofScript s) (Cursor.ofScript s) :=
  ⟨⟨le_refl 0, le_refl 0, Int.natCast_nonneg windowSize⟩, rfl, List.length_replicate, rfl, rfl,
    rfl⟩

theorem length_window (h : Mirrors m c) : c.window.length = (m.endPos - m.pos).toNat := by
  have hb := h.bounded
  rw [h.window, List.length_drop, List.length_take, h.size]
  have := hb.nonneg
  have := hb.le_end
  have := hb.end_le
  omega

/-- The window is empty exactly when `pos` has reached `endPos`. -/
theorem window_eq_nil_iff (h : Mirrors m c) : c.window = [] ↔ m.endPos ≤ m.pos := by
  have hlen := h.length_window
  have := h.bounded.le_end
  constructor
  · intro he
    rw [he] at hlen
    simp only [List.length_nil] at hlen
    omega
  · intro hle
    apply List.eq_nil_of_length_eq_zero
    rw [hlen]
    omega

/-- Below `endPos`, the byte at `pos` is the first of the window, and it lies in the buffer. -/
theorem read_of_lt (h : Mirrors m c) (hlt : m.pos < m.endPos) :
    ∃ b w, m.read = some b ∧ c.window = b :: w := by
  have hb := h.bounded
  have hlen := h.length_window
  have hpos := hb.nonneg
  have hend := hb.end_le
  have hne : c.window ≠ [] := by
    intro he
    rw [he, List.length_nil] at hlen
    omega
  obtain ⟨b, w, hw⟩ := List.exists_cons_of_ne_nil hne
  refine ⟨b, w, ?_, hw⟩
  have hhead : c.window[0]? = some b := by rw [hw]; rfl
  rw [h.window, List.getElem?_drop, List.getElem?_take, if_pos (by omega), Nat.add_zero,
    ← h.buffer] at hhead
  simp only [Machine.read, if_pos hb.nonneg, hhead]

theorem advance (h : Mirrors m c) (hw : c.window ≠ []) : Mirrors m.advance c.advance := by
  have hb := h.bounded
  have hpos := hb.nonneg
  have hlt : m.pos < m.endPos := by
    by_contra hge
    exact hw (h.window_eq_nil_iff.2 (by omega))
  refine ⟨⟨?_, ?_, hb.end_le⟩, h.buffer, h.size, ?_, h.stopped, h.script⟩
  · show 0 ≤ m.pos + 1
    omega
  · show m.pos + 1 ≤ m.endPos
    omega
  · show c.window.tail = (c.buffer.take m.endPos.toNat).drop (m.pos + 1).toNat
    rw [h.window, List.tail_drop]
    congr 1
    omega

/-- A read on both cursors: the same stop, or the same new window at the start of the same
buffer. -/
theorem fill (h : Mirrors m c) : m.fill.2 = c.fill.2 ∧ Mirrors m.fill.1 c.fill.1 := by
  have hb := h.bounded
  unfold Machine.fill Cursor.fill
  rw [h.stopped, h.script]
  rcases hs : c.stopped with _ | e
  · simp only
    rcases hn : c.script.next with ⟨r, rest⟩
    simp only
    by_cases hbad : (decide (r.count < 0) || decide (r.count > (windowSize : Int))) = true
    · -- a count outside the window: both keep it as the stop
      rw [if_pos hbad, if_pos hbad]
      exact ⟨rfl, ⟨⟨hb.nonneg, hb.le_end, hb.end_le⟩, h.buffer, h.size, h.window, rfl, rfl⟩⟩
    · -- the window becomes the bytes read, at the start of the same new buffer
      rw [if_neg hbad, if_neg hbad]
      simp only [Bool.or_eq_true, decide_eq_true_eq, not_or, not_lt] at hbad
      have hsize : (List.take windowSize
          (r.written ++ List.drop r.written.length c.buffer)).length = windowSize := by
        simp only [List.length_take, List.length_append, List.length_drop, h.size]
        omega
      have hbounded : (0 : Int) ≤ 0 ∧ (0 : Int) ≤ r.count ∧ r.count ≤ windowSize :=
        ⟨le_refl 0, hbad.1, hbad.2⟩
      by_cases h0 : r.count = 0
      · rw [if_pos h0, if_pos (by omega)]
        exact ⟨rfl, ⟨⟨hbounded.1, hbounded.2.1, hbounded.2.2⟩, by rw [h.buffer], hsize,
          by simp, rfl, rfl⟩⟩
      · rw [if_neg h0, if_neg (by omega)]
        exact ⟨rfl, ⟨⟨hbounded.1, hbounded.2.1, hbounded.2.2⟩, by rw [h.buffer], hsize,
          by simp, rfl, rfl⟩⟩
  · exact ⟨rfl, h⟩

/-- When the window cursor's peek shows a byte, the machine's read before it gives no stop, and
the byte at `pos` is that byte. -/
theorem ready_ok (h : Mirrors m c) {c' : Cursor} {b : Byte} (hp : c.peek = (c', .ok b)) :
    ∃ m', m.ready = (m', none) ∧ m'.read = some b ∧ Mirrors m' c' := by
  by_cases hlt : m.pos < m.endPos
  · -- the window holds the byte at `pos`: no read
    obtain ⟨b', w, hr, hw⟩ := h.read_of_lt hlt
    rw [Cursor.peek_window c b' w hw, Prod.mk.injEq, Except.ok.injEq] at hp
    obtain ⟨rfl, rfl⟩ := hp
    exact ⟨m, Machine.ready_of_lt hlt, hr, h⟩
  · -- the window is used up: both read, alike
    have hnil := h.window_eq_nil_iff.2 (by omega)
    obtain ⟨hf, hm⟩ := h.fill
    rw [Machine.ready_of_ge hlt]
    rcases hcf : c.fill with ⟨c'', _ | e⟩
    · rw [hcf] at hf hm
      simp only at hf hm
      obtain ⟨b', w, hr, hw⟩ := hm.read_of_lt (Machine.fill_lt m hf)
      have hpc : c.peek = (c'', .ok b') := by simp only [Cursor.peek, hnil, hcf, hw]
      rw [hpc, Prod.mk.injEq, Except.ok.injEq] at hp
      obtain ⟨rfl, rfl⟩ := hp
      exact ⟨m.fill.1, Prod.ext rfl hf, hr, hm⟩
    · have hpc : c.peek = (c'', .error e) := by simp only [Cursor.peek, hnil, hcf]
      rw [hpc] at hp
      cases hp

/-- When the window cursor's peek stops, the machine's read before it stops alike. -/
theorem ready_error (h : Mirrors m c) {c' : Cursor} {e : Stop} (hp : c.peek = (c', .error e)) :
    ∃ m', m.ready = (m', some e) ∧ Mirrors m' c' := by
  by_cases hlt : m.pos < m.endPos
  · obtain ⟨b', w, -, hw⟩ := h.read_of_lt hlt
    rw [Cursor.peek_window c b' w hw] at hp
    cases hp
  · have hnil := h.window_eq_nil_iff.2 (by omega)
    obtain ⟨hf, hm⟩ := h.fill
    rw [Machine.ready_of_ge hlt]
    rcases hcf : c.fill with ⟨c'', _ | e'⟩
    · rw [hcf] at hf hm
      simp only at hf hm
      obtain ⟨b', w, -, hw⟩ := hm.read_of_lt (Machine.fill_lt m hf)
      have hpc : c.peek = (c'', .ok b') := by simp only [Cursor.peek, hnil, hcf, hw]
      rw [hpc] at hp
      cases hp
    · rw [hcf] at hf hm
      have hpc : c.peek = (c'', .error e') := by simp only [Cursor.peek, hnil, hcf]
      rw [hpc, Prod.mk.injEq, Except.error.injEq] at hp
      obtain ⟨rfl, rfl⟩ := hp
      exact ⟨m.fill.1, Prod.ext rfl hf, hm⟩

/-- **A peek on both cursors**: the machine returns what the window cursor returns, reading in
range, and the two go on mirroring each other. -/
theorem peek (h : Mirrors m c) : m.peek.2 = some c.peek.2 ∧ Mirrors m.peek.1 c.peek.1 := by
  rcases hp : c.peek with ⟨c', e | b⟩
  · obtain ⟨m', hr, hm⟩ := h.ready_error hp
    have hpm : m.peek = (m', some (.error e)) := by simp only [Machine.peek, hr]
    rw [hpm]
    exact ⟨rfl, hm⟩
  · obtain ⟨m', hr, hread, hm⟩ := h.ready_ok hp
    have hpm : m.peek = (m', some (.ok b)) := by simp only [Machine.peek, hr, hread, Option.map_some]
    rw [hpm]
    exact ⟨rfl, hm⟩

/-- **A next on both cursors**: the machine returns what the window cursor returns, reading in
range, and steps past the byte as the window cursor does. -/
theorem next (h : Mirrors m c) : m.next.2 = some c.next.2 ∧ Mirrors m.next.1 c.next.1 := by
  rcases hp : c.peek with ⟨c', e | b⟩
  · obtain ⟨m', hr, hm⟩ := h.ready_error hp
    have hnm : m.next = (m', some (.error e)) := by simp only [Machine.next, hr]
    have hnc : c.next = (c', .error e) := by simp only [Cursor.next, hp]
    rw [hnm, hnc]
    exact ⟨rfl, hm⟩
  · obtain ⟨m', hr, hread, hm⟩ := h.ready_ok hp
    obtain ⟨w, hw⟩ := Cursor.peek_ok_window (c := c) (b := b) (by rw [hp])
    rw [hp] at hw
    have hnm : m.next = (m'.advance, some (.ok b)) := by
      simp only [Machine.next, hr, hread, Option.map_some, Machine.advance]
    have hnc : c.next = (c'.advance, .ok b) := by simp only [Cursor.next, hp]
    rw [hnm, hnc]
    exact ⟨rfl, hm.advance (by rw [hw]; exact List.cons_ne_nil b w)⟩

/-- **A log that keeps the peek rule, on both cursors.** From mirroring states, a log the window
cursor answers and that keeps the rule is answered alike by the machine, call by call, and every
state the machine passes through keeps `0 ≤ pos ≤ endPos ≤ windowSize`. The rule is what makes
each advance step within the window: it comes right after a peek that showed a byte. -/
theorem replay : ∀ (l : List Call) {m : Machine} {c : Cursor} {shown : Bool}, Mirrors m c →
    (shown = true → c.window ≠ []) → Call.Disciplined shown l → c.Answers l →
    (m.replay l).1 = l.map some ∧ ∀ m' ∈ (m.replay l).2, m'.Bounded
  | [], _, _, _, h, _, _, _ => ⟨rfl, by simp [Machine.replay]; exact h.bounded⟩
  | .peek r :: l, m, c, _, h, _, hd, ha => by
    obtain ⟨hp, hm⟩ := h.peek
    obtain ⟨hr, ha'⟩ := ha
    -- a peek that returned a byte leaves it in the window
    have hshown : r.isOk = true → c.peek.1.window ≠ [] := by
      intro hok
      cases r with
      | ok b =>
        obtain ⟨w, hw⟩ := Cursor.peek_ok_window hr
        rw [hw]
        exact List.cons_ne_nil b w
      | error e => cases hok
    refine Machine.replay_cons h.bounded ?_ (replay l hm hshown hd ha')
    simp only [Machine.perform, hp, hr, Option.map_some]
  | .next r :: l, m, c, _, h, _, hd, ha => by
    obtain ⟨hn, hm⟩ := h.next
    obtain ⟨hr, ha'⟩ := ha
    refine Machine.replay_cons h.bounded ?_ (replay l hm (fun hf => by cases hf) hd ha')
    simp only [Machine.perform, hn, hr, Option.map_some]
  | .advance :: l, m, c, _, h, hw, hd, ha => by
    obtain ⟨hshown, hd'⟩ := hd
    exact Machine.replay_cons h.bounded rfl
      (replay l (h.advance (hw hshown)) (fun hf => by cases hf) hd' ha)

end Mirrors

end Transport

end StaticHttp
