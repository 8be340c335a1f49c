import StaticHttp.Server.Lifecycle

/-!
# Shutdown covers every connection handed off

`Shutdown` and the accept loop of `Serve` meet under the server's mutex: `Serve` checks
`closed` and adds to the wait group in one critical section, and `Shutdown` sets `closed` and
closes the listener in another. So, whatever the interleaving of `Serve`, the handlers and
`Shutdown`:

* once `Shutdown`'s critical section has run, no connection is handed off, and one accepted
  after it is closed by `Serve` and never served;
* Accept returns at most once more, and `Serve` then returns `ErrServerClosed`, never
  `listener closed`; a `Serve` begun after it returns `ErrServerClosed` at once;
* `Shutdown` returns nil only when every handler handed a connection has finished;
* every connection is closed once, by `Serve` or by its handler, and never twice.

The proof is an invariant of every state a run reaches (`Lifecycle.Inv`): the wait group
counts the handlers not yet done, only the connection `Serve` holds is held, and each closed
connection is recorded once. On a closed server, `Lifecycle.loop_step_of_closed` says what a
step can do to the accept loop, from which a second invariant counts the returns of Accept
left (`Lifecycle.Settling`), and `Lifecycle.handed_step_of_closed` says that no step hands a
connection off.

Main statements:
* `Lifecycle.shutdown_covers_handoffs`: all of the above.
-/

namespace StaticHttp

namespace Server

/-- `Serve` has the return of an Accept to act on. -/
def Loop.afterAccept : Loop → Bool
  | .holding _ | .failed _ => true
  | _ => false

/-- How many more times Accept can return to a closed server's loop: once from Accept or from
the wait before it, never from elsewhere. -/
def Loop.acceptsLeft : Loop → Nat
  | .accepting | .retrying => 1
  | _ => 0

theorem Loop.acceptsLeft_of_afterAccept {l : Loop} (h : l.afterAccept = true) :
    l.acceptsLeft = 0 := by
  cases l <;> simp_all [Loop.afterAccept, Loop.acceptsLeft]

namespace Lifecycle

/-! ## Moving one connection to another phase -/

section Phases

variable {l : List Phase} {k : Nat} {p q : Phase}

theorem getElem?_set_of (hk : l[k]? = some p) (j : Nat) :
    (l.set k q)[j]? = if k = j then some q else l[j]? := by
  have hlt : k < l.length := (List.getElem?_eq_some_iff.1 hk).1
  simp [List.getElem?_set, hlt]

/-- Counting after a move, without subtraction: what leaves the count on one side comes in on
the other. -/
theorem countP_set_add (hk : l[k]? = some p) (f : Phase → Bool) :
    (l.set k q).countP f + (if f p then 1 else 0) = l.countP f + (if f q then 1 else 0) := by
  obtain ⟨hlt, hp⟩ := List.getElem?_eq_some_iff.1 hk
  have hle := List.boole_getElem_le_countP (p := f) hlt
  rw [List.countP_set hlt, hp] at *
  omega

/-- The closing record stays exact across a move that never reopens a connection, when the
connection is recorded as closed just as it becomes closed. -/
theorem closes_set {closes : List Nat}
    (hc : ∀ j, closes.count j = if (l[j]?.any Phase.isClosed) then 1 else 0)
    (hk : l[k]? = some p) (hre : p.isClosed → q.isClosed) :
    ∀ j, (if q.isClosed && !p.isClosed then closes ++ [k] else closes).count j =
      if ((l.set k q)[j]?.any Phase.isClosed) then 1 else 0 := by
  intro j
  rw [getElem?_set_of hk]
  by_cases hj : k = j
  · subst hj
    have := hc k
    rw [hk] at this
    cases hp : p.isClosed <;> cases hq : q.isClosed <;> simp_all
  · have := hc j
    split <;> simp [List.count_append, hj, this]

/-- Only the connection `Serve` holds is held, across a move of another phase and a step of
the loop that lets go of the connection moved, if it held it. -/
theorem held_set {loop loop' : Loop} (hh : ∀ j, l[j]? = some .held ↔ loop = .holding j)
    (hk : l[k]? = some p) (hq : q ≠ .held)
    (hloop : ∀ j, loop' = .holding j ↔ loop = .holding j ∧ j ≠ k) :
    ∀ j, (l.set k q)[j]? = some .held ↔ loop' = .holding j := by
  intro j
  rw [getElem?_set_of hk, hloop]
  by_cases hj : k = j
  · subst hj
    simp [hq]
  · simp [hj, hh j, Ne.symm hj]

end Phases

/-! ## The invariant -/

/-- What holds of every state a run reaches: the server is closed exactly when `Shutdown` is
past its critical section, `done` is closed with it, the wait group counts the handlers not yet
done, the only connection held is the one `Serve` holds, every connection closed was closed
once, and none is counted once `Shutdown` returned nil. -/
structure Inv (s : Lifecycle) : Prop where
  closed : s.closed = true ↔ s.stop ≠ .notCalled
  done : s.done = s.closed
  conns : s.conns = s.phases.countP Phase.active
  held : ∀ k, s.phases[k]? = some .held ↔ s.loop = .holding k
  closes : ∀ k, s.closes.count k = if (s.phases[k]?.any Phase.isClosed) then 1 else 0
  drained : s.stop = .returned true → s.phases.countP Phase.active = 0

theorem Inv.init : ({} : Lifecycle).Inv where
  closed := by simp
  done := rfl
  conns := rfl
  held := by simp
  closes := by simp
  drained := by simp

variable {s : Lifecycle}

/-- A step of a handler keeps the invariant, when it never brings a connection back to life or
reopens it, closes it just as it becomes closed, and marks the handler done just as it stops
counting. -/
theorem Inv.handle (h : s.Inv) {k : Nat} {p q : Phase} {closesIt marksDone : Bool}
    (hp : p ≠ .held) (hq : q ≠ .held)
    (hclose : closesIt = (q.isClosed && !p.isClosed)) (hre : p.isClosed → q.isClosed)
    (hdone : marksDone = (p.active && !q.active)) (hwake : q.active → p.active) :
    (s.handle k p q closesIt marksDone).Inv := by
  unfold Lifecycle.handle
  split
  · next hk =>
    have hcount := countP_set_add (q := q) hk Phase.active
    refine ⟨h.closed, h.done, ?_, ?_, ?_, ?_⟩
    · -- the wait group loses one exactly when the connection stops counting
      rw [h.conns, hdone]
      grind
    · refine held_set h.held hk hq fun j => ?_
      have : s.loop ≠ .holding k := fun hl => hp (by simpa [hk] using (h.held k).2 hl)
      constructor
      · intro hj
        exact ⟨hj, fun hjk => this (hjk ▸ hj)⟩
      · exact And.left
    · subst hclose
      exact closes_set h.closes hk hre
    · intro hstop
      have := h.drained hstop
      grind
  · exact h

/-- A step of the loop alone, between states that hold no connection, keeps the invariant. -/
theorem Inv.reloop (h : s.Inv) {t : Lifecycle} (hs : ∀ k, s.loop ≠ .holding k)
    (ht : ∀ k, t.loop ≠ .holding k) (hclosed : t.closed = s.closed) (hdone : t.done = s.done)
    (hstop : t.stop = s.stop) (hconns : t.conns = s.conns) (hphases : t.phases = s.phases)
    (hcloses : t.closes = s.closes) : t.Inv := by
  refine ⟨?_, ?_, ?_, ?_, ?_, ?_⟩
  · rw [hclosed, hstop]
    exact h.closed
  · rw [hdone, hclosed]
    exact h.done
  · rw [hconns, hphases]
    exact h.conns
  · intro k
    rw [hphases, h.held k]
    simp [hs k, ht k]
  · rw [hcloses, hphases]
    exact h.closes
  · rw [hstop, hphases]
    exact h.drained

theorem Inv.start (h : s.Inv) : (s.step .start).Inv := by
  simp only [step]
  split
  · next hl =>
    split
    · exact h.reloop (by simp [hl]) (by simp) rfl rfl rfl rfl rfl rfl
    · exact h.reloop (by simp [hl]) (by simp) rfl rfl rfl rfl rfl rfl
  · exact h

theorem Inv.accept (h : s.Inv) (a : Accepted) : (s.step (.accept a)).Inv := by
  simp only [step]
  split
  · next hl =>
    cases a with
    | conn =>
      dsimp only
      -- the new connection is held, and no other was
      have hfree : ∀ j, s.phases[j]? ≠ some Phase.held := fun j hj => by
        simpa [hl] using (h.held j).1 hj
      refine ⟨h.closed, h.done, by simp [h.conns, Phase.active], ?_, ?_, ?_⟩
      · intro j
        rcases Nat.lt_or_ge j s.phases.length with hj | hj
        · rw [List.getElem?_append_left hj]
          simp only [hfree j, false_iff, Loop.holding.injEq]
          omega
        · rw [List.getElem?_append_right hj, List.getElem?_singleton]
          simp only [Loop.holding.injEq]
          split <;> simp <;> omega
      · intro j
        rw [h.closes j]
        rcases Nat.lt_or_ge j s.phases.length with hj | hj
        · rw [List.getElem?_append_left hj]
        · rw [List.getElem?_append_right hj, List.getElem?_eq_none hj, List.getElem?_singleton]
          by_cases hz : j - s.phases.length = 0 <;> simp [hz, Phase.isClosed]
      · intro hstop
        simpa [Phase.active] using h.drained hstop
    | closedListener => exact h.reloop (by simp [hl]) (by simp) rfl rfl rfl rfl rfl rfl
    | failure => exact h.reloop (by simp [hl]) (by simp) rfl rfl rfl rfl rfl rfl
  · exact h

theorem Inv.react (h : s.Inv) : (s.step .react).Inv := by
  simp only [step]
  split
  · next k hl =>
    have hk : s.phases[k]? = some .held := (h.held k).2 hl
    -- `Serve` lets go of the connection it held
    have hloop : ∀ (l : Loop), (∀ j, l ≠ .holding j) → ∀ j, l = .holding j ↔
        s.loop = .holding j ∧ j ≠ k := by
      intro l hl' j
      constructor
      · intro hj
        exact absurd hj (hl' j)
      · rintro ⟨hj, hne⟩
        rw [hl] at hj
        exact absurd (Loop.holding.inj hj).symm hne
    split
    · -- the server is closed: the connection is refused, and closed for the first time
      have hcount := countP_set_add (q := .refused) hk Phase.active
      refine ⟨h.closed, h.done, ?_, held_set h.held hk (by decide) (hloop _ (by simp)), ?_, ?_⟩
      · dsimp only
        simp [Phase.active] at hcount
        rw [h.conns]
        omega
      · simpa [Phase.isClosed] using closes_set (q := .refused) h.closes hk (by decide)
      · intro hstop
        have := h.drained hstop
        dsimp only
        simp [Phase.active] at hcount
        omega
    · next hopen =>
      have hrun := countP_set_add (q := .running) hk Phase.active
      refine ⟨h.closed, h.done, ?_, held_set h.held hk (by decide) (hloop _ (by simp)), ?_, ?_⟩
      · dsimp only
        simp [Phase.active] at hrun
        rw [h.conns]
        omega
      · simpa [Phase.isClosed] using closes_set (q := .running) h.closes hk (by decide)
      · -- a server still open has no `Shutdown` that returned
        intro hstop
        have hstop : s.stop = .returned true := hstop
        exact absurd (h.closed.2 (by simp [hstop])) hopen
  · next hl =>
    split
    · exact h.reloop (by simp [hl]) (by simp) rfl rfl rfl rfl rfl rfl
    · split
      · exact h.reloop (by simp [hl]) (by simp) rfl rfl rfl rfl rfl rfl
      · exact h.reloop (by simp [hl]) (by simp) rfl rfl rfl rfl rfl rfl
  · exact h

theorem Inv.wake (h : s.Inv) (byDone : Bool) : (s.step (.wake byDone)).Inv := by
  simp only [step]
  split
  · next hl =>
    split
    · exact h
    · exact h.reloop (by simp [hl]) (by simp) rfl rfl rfl rfl rfl rfl
  · exact h

theorem Inv.shutdown (h : s.Inv) : (s.step .shutdown).Inv := by
  simp only [step]
  split
  · exact ⟨by simp, rfl, h.conns, h.held, h.closes, by simp⟩
  · exact h

theorem Inv.idle (h : s.Inv) : (s.step .idle).Inv := by
  simp only [step]
  split
  · split
    · next hw hz =>
      -- the wait returns only once the wait group counts nothing
      exact ⟨by simp [h.closed, hw], h.done, h.conns, h.held, h.closes, fun _ => h.conns ▸ hz⟩
    · exact h
  · exact h

theorem Inv.expire (h : s.Inv) : (s.step .expire).Inv := by
  simp only [step]
  split
  · next hw =>
    exact ⟨by simp [h.closed, hw], h.done, h.conns, h.held, h.closes, by simp⟩
  · exact h

/-- Every step keeps the invariant. -/
theorem Inv.step (h : s.Inv) : ∀ e, (s.step e).Inv
  | .start => h.start
  | .accept a => h.accept a
  | .react => h.react
  | .wake byDone => h.wake byDone
  | .answer _ => h.handle (by decide) (by decide) (by decide) (by decide) (by decide) (by decide)
  | .abort _ => h.handle (by decide) (by decide) (by decide) (by decide) (by decide) (by decide)
  | .close _ => h.handle (by decide) (by decide) (by decide) (by decide) (by decide) (by decide)
  | .finish _ => h.handle (by decide) (by decide) (by decide) (by decide) (by decide) (by decide)
  | .shutdown => h.shutdown
  | .idle => h.idle
  | .expire => h.expire

/-- Every run keeps the invariant. -/
theorem Inv.run (h : s.Inv) (es : List Event) : (s.run es).Inv := by
  induction es generalizing s with
  | nil => exact h
  | cons e es ih => exact ih (h.step e)

/-! ## After `Shutdown`'s critical section -/

/-- Once closed, the server stays closed. -/
theorem closed_step (h : s.closed = true) (e : Event) : (s.step e).closed = true := by
  cases e with
  | start | accept | react | wake =>
    simp only [step]
    repeat' split
    all_goals exact h
  | answer | abort | close | finish => simpa [step] using h
  | shutdown | idle | expire =>
    simp only [step]
    repeat' split
    all_goals simp [h]

/-- What a step of a closed server does to the accept loop and the count of Accept's returns:
nothing, or `Serve` returns `ErrServerClosed` from its start, or Accept returns, or `Serve`
returns `ErrServerClosed` upon that return, or the wait before the next Accept ends. -/
theorem loop_step_of_closed (h : s.closed = true) (e : Event) :
    ((s.step e).loop = s.loop ∧ (s.step e).accepts = s.accepts) ∨
    (s.loop = .starting ∧ (s.step e).loop = .ended .serverClosed ∧
      (s.step e).accepts = s.accepts) ∨
    (s.loop = .accepting ∧ (s.step e).loop.afterAccept ∧ (s.step e).accepts = s.accepts + 1) ∨
    (s.loop.afterAccept ∧ (s.step e).loop = .ended .serverClosed ∧
      (s.step e).accepts = s.accepts) ∨
    (s.loop = .retrying ∧ (s.step e).loop = .accepting ∧ (s.step e).accepts = s.accepts) := by
  cases e with
  | start =>
    simp only [step]
    split
    · next hl => exact .inr (.inl ⟨hl, by simp [h], by simp [h]⟩)
    · exact .inl ⟨rfl, rfl⟩
  | accept a =>
    simp only [step]
    split
    · next hl => cases a <;> exact .inr (.inr (.inl ⟨hl, rfl, rfl⟩))
    · exact .inl ⟨rfl, rfl⟩
  | react =>
    simp only [step]
    split
    · next k hl =>
      exact .inr (.inr (.inr (.inl ⟨by simp [hl, Loop.afterAccept], by simp [h], by simp [h]⟩)))
    · next b hl =>
      exact .inr (.inr (.inr (.inl ⟨by simp [hl, Loop.afterAccept], by simp [h], by simp [h]⟩)))
    · exact .inl ⟨rfl, rfl⟩
  | wake byDone =>
    simp only [step]
    split
    · next hl =>
      split
      · exact .inl ⟨rfl, rfl⟩
      · exact .inr (.inr (.inr (.inr ⟨hl, rfl, rfl⟩)))
    · exact .inl ⟨rfl, rfl⟩
  | answer | abort | close | finish => exact .inl ⟨by simp [step], by simp [step]⟩
  | shutdown | idle | expire =>
    left
    simp only [step]
    repeat' split
    all_goals exact ⟨rfl, rfl⟩

/-- A handler's step from a phase of a handed connection hands no other connection off. -/
theorem handed_of_handle {k j : Nat} {p q : Phase} {closesIt marksDone : Bool}
    (hp : p.handed = true)
    (hj : ((s.handle k p q closesIt marksDone).phases[j]?.any Phase.handed) = true) :
    (s.phases[j]?.any Phase.handed) = true := by
  rw [handle_phases] at hj
  split at hj
  · next hk =>
    rw [List.getElem?_set] at hj
    by_cases hkj : k = j
    · subst hkj
      simp [hk, hp]
    · simpa [hkj] using hj
  · exact hj

/-- **A closed server hands no connection off**: a connection handed after a step was handed
before it. -/
theorem handed_step_of_closed (h : s.closed = true) (e : Event) {j : Nat}
    (hj : ((s.step e).phases[j]?.any Phase.handed) = true) :
    (s.phases[j]?.any Phase.handed) = true := by
  cases e with
  | accept a =>
    simp only [step] at hj
    split at hj
    · cases a with
      | conn =>
        -- the connection accepted is held, not handed
        rcases Nat.lt_or_ge j s.phases.length with hlt | hge
        · rwa [List.getElem?_append_left hlt] at hj
        · rw [List.getElem?_append_right hge, List.getElem?_singleton] at hj
          split at hj <;> simp [Phase.handed] at hj
      | closedListener | failure => exact hj
    · exact hj
  | react =>
    simp only [step] at hj
    split at hj
    · next k hl =>
      -- the connection held is refused
      rw [if_pos h, List.getElem?_set] at hj
      by_cases hkj : k = j
      · subst hkj
        rw [if_pos rfl] at hj
        split at hj <;> simp [Phase.handed] at hj
      · simpa [hkj] using hj
    · split at hj
      all_goals exact hj
    · exact hj
  | answer | abort | close | finish => exact handed_of_handle (by decide) hj
  | start | wake | shutdown | idle | expire =>
    simp only [step] at hj
    repeat' split at hj
    all_goals exact hj

/-- Every connection handed off after a run from a closed server was handed off before it. -/
theorem handed_run_of_closed (h : s.closed = true) (es : List Event) {j : Nat}
    (hj : ((s.run es).phases[j]?.any Phase.handed) = true) :
    (s.phases[j]?.any Phase.handed) = true := by
  induction es generalizing s with
  | nil => exact hj
  | cons e es ih => exact handed_step_of_closed h e (ih (closed_step h e) hj)

/-- A closed server settles: Accept returns to it at most once more, and after that `Serve` is
about to return `ErrServerClosed`, or has. Here `a₀` counts the returns of Accept when it was
found closed. -/
structure Settling (a₀ : Nat) (s : Lifecycle) : Prop where
  closed : s.closed = true
  budget : s.accepts + s.loop.acceptsLeft ≤ a₀ + 1
  settles : a₀ < s.accepts → s.loop.afterAccept = true ∨ s.loop = .ended .serverClosed

theorem Settling.of_closed (h : s.closed = true) : s.Settling s.accepts where
  closed := h
  budget := by
    have : s.loop.acceptsLeft ≤ 1 := by cases s.loop <;> simp [Loop.acceptsLeft]
    omega
  settles := by omega

theorem Settling.step {a₀ : Nat} (h : s.Settling a₀) (e : Event) :
    (s.step e).Settling a₀ := by
  have hb := h.budget
  have hs := h.settles
  refine ⟨closed_step h.closed e, ?_, ?_⟩
  all_goals
    rcases loop_step_of_closed h.closed e with
      ⟨hl, ha⟩ | ⟨hl, hl', ha⟩ | ⟨hl, hl', ha⟩ | ⟨hl, hl', ha⟩ | ⟨hl, hl', ha⟩
  -- the count can only grow by the one return Accept had left
  · rwa [hl, ha]
  · rw [hl', ha]
    simpa [hl, Loop.acceptsLeft] using hb
  · rw [Loop.acceptsLeft_of_afterAccept hl', ha]
    simpa [hl, Loop.acceptsLeft] using hb
  · rw [hl', ha]
    rw [Loop.acceptsLeft_of_afterAccept hl] at hb
    simpa [Loop.acceptsLeft] using hb
  · rw [hl', ha]
    simpa [hl, Loop.acceptsLeft] using hb
  -- after that return, `Serve` only moves on to `ErrServerClosed`
  · rwa [hl, ha]
  · rw [hl']
    exact fun _ => .inr rfl
  · exact fun _ => .inl hl'
  · rw [hl']
    exact fun _ => .inr rfl
  · rw [ha]
    intro hlt
    rcases hs hlt with hs | hs <;> simp [hl, Loop.afterAccept] at hs

theorem Settling.run {a₀ : Nat} (h : s.Settling a₀) (es : List Event) :
    (s.run es).Settling a₀ := by
  induction es generalizing s with
  | nil => exact h
  | cons e es ih => exact ih (h.step e)

/-- A closed server's `Serve`, with the return of an Accept to act on, returns
`ErrServerClosed`. -/
theorem react_of_closed (h : s.closed = true)
    (hl : s.loop.afterAccept = true ∨ s.loop = .ended .serverClosed) :
    (s.step .react).loop = .ended .serverClosed := by
  simp only [step]
  split
  · simp [h]
  · simp [h]
  · next hno =>
    rcases hl with hl | hl
    · cases hloop : s.loop <;> simp_all [Loop.afterAccept]
    · exact hl

/-- A closed server's `Serve` never returns `listener closed` unless it already had. -/
theorem listenerClosed_run_of_closed (h : s.closed = true) (es : List Event)
    (hl : (s.run es).loop = .ended .listenerClosed) : s.loop = .ended .listenerClosed := by
  induction es generalizing s with
  | nil => exact hl
  | cons e es ih =>
    have hstep := ih (closed_step h e) hl
    rcases loop_step_of_closed h e with
      ⟨hl', -⟩ | ⟨-, hl', -⟩ | ⟨-, hl', -⟩ | ⟨-, hl', -⟩ | ⟨-, hl', -⟩
    · rwa [← hl']
    all_goals rw [hstep] at hl'
    all_goals simp [Loop.afterAccept] at hl'

/-- A `Serve` begun on a closed server closes its listener and returns `ErrServerClosed` at
once. -/
theorem start_of_closed (h : s.closed = true) (hl : s.loop = .starting) :
    (s.step .start).loop = .ended .serverClosed ∧ (s.step .start).listening = false := by
  simp [step, hl, h]

/-- A closed server's `Serve`, waiting before its next Accept, is woken at once by `done`. -/
theorem Inv.wake_of_closed (h : s.Inv) (hc : s.closed = true) (hl : s.loop = .retrying) :
    (s.step (.wake true)).loop = .accepting := by
  simp [Lifecycle.step, hl, h.done, hc]

/-- A connection accepted after the server was found closed is never handed off: `Serve` still
holds it, or it refused it and closed it, once. -/
theorem Inv.late_of_closed (h : s.Inv) (hc : s.closed = true) (es : List Event) {k : Nat}
    (hk : s.phases.length ≤ k) (hk' : k < (s.run es).phases.length) :
    ((s.run es).phases[k]? = some .held ∧ (s.run es).loop = .holding k) ∨
      ((s.run es).phases[k]? = some .refused ∧ (s.run es).closes.count k = 1) := by
  have ht := h.run es
  -- it was not there to be handed off when the server was found closed
  have hnot : ((s.run es).phases[k]?.any Phase.handed) = false := by
    cases hh : ((s.run es).phases[k]?.any Phase.handed)
    · rfl
    · have := handed_run_of_closed hc es hh
      simp [List.getElem?_eq_none hk] at this
  obtain ⟨p, hp⟩ : ∃ p, (s.run es).phases[k]? = some p :=
    ⟨_, List.getElem?_eq_getElem hk'⟩
  rw [hp] at hnot
  cases p with
  | held => exact .inl ⟨hp, (ht.held k).1 hp⟩
  | refused => exact .inr ⟨hp, by simp [ht.closes k, hp, Phase.isClosed]⟩
  | running | answered | shut | finished => simp [Phase.handed] at hnot

/-- Once `Shutdown` returned nil, every connection handed off has finished. -/
theorem Inv.finished_of_returned (h : s.Inv) (hs : s.stop = .returned true) :
    ∀ p ∈ s.phases, p.handed = true → p = .finished := by
  intro p hp hhanded
  have hidle := List.countP_eq_zero.1 (h.drained hs) p hp
  cases p <;> simp_all [Phase.handed, Phase.active]

/-! ## Shutdown covers every connection handed off -/

/-- **Shutdown covers every connection that `Serve` hands off.** Run any interleaving of
`Serve`, the handlers and `Shutdown` from a fresh server, and split it anywhere: `s` is the
server at the split, `s'` at the end. The server is closed exactly when `Shutdown` is past its
critical section. If it was closed at the split, then after it: no connection was handed off;
one accepted is held by `Serve` or was refused and closed; Accept returned at most once more,
and `Serve`'s next step after that return is to return `ErrServerClosed`; `Serve` never
returned `listener closed`; a wait before the next Accept is cut short by `done`; and a `Serve`
begun then closes its listener and returns
`ErrServerClosed` at once. Once `Shutdown` returned nil, every connection handed off has
finished. And every connection was closed once if it was refused or its handler closed it,
and never otherwise. -/
theorem shutdown_covers_handoffs (es₁ es₂ : List Event) :
    let s := ({} : Lifecycle).run es₁
    let s' := s.run es₂
    (s.closed = true ↔ s.stop ≠ .notCalled) ∧
    (s.closed = true →
      (∀ k : Nat, (s'.phases[k]?.any Phase.handed) = true →
        (s.phases[k]?.any Phase.handed) = true) ∧
      (∀ k : Nat, s.phases.length ≤ k → k < s'.phases.length →
        (s'.phases[k]? = some .held ∧ s'.loop = .holding k) ∨
        (s'.phases[k]? = some .refused ∧ s'.closes.count k = 1)) ∧
      s'.accepts ≤ s.accepts + 1 ∧
      (s'.accepts = s.accepts + 1 → (s'.step .react).loop = .ended .serverClosed) ∧
      (s'.loop = .ended .listenerClosed → s.loop = .ended .listenerClosed) ∧
      (s'.loop = .retrying → (s'.step (.wake true)).loop = .accepting) ∧
      (s.loop = .starting →
        (s.step .start).loop = .ended .serverClosed ∧ (s.step .start).listening = false)) ∧
    (s'.stop = .returned true → ∀ p ∈ s'.phases, p.handed = true → p = .finished) ∧
    (∀ k : Nat, s'.closes.count k = if (s'.phases[k]?.any Phase.isClosed) then 1 else 0) := by
  intro s s'
  have hs : s.Inv := Inv.init.run es₁
  have hs' : s'.Inv := hs.run es₂
  refine ⟨hs.closed, fun hc => ?_, hs'.finished_of_returned, hs'.closes⟩
  have hsettled := (Settling.of_closed hc).run es₂
  refine ⟨fun k => handed_run_of_closed hc es₂, fun k => hs.late_of_closed hc es₂, ?_, ?_,
    listenerClosed_run_of_closed hc es₂, hs'.wake_of_closed hsettled.closed, start_of_closed hc⟩
  · show (s.run es₂).accepts ≤ s.accepts + 1
    have := hsettled.budget
    omega
  · intro hmore
    have hmore : (s.run es₂).accepts = s.accepts + 1 := hmore
    exact react_of_closed hsettled.closed (hsettled.settles (by omega))

end Lifecycle

end Server

end StaticHttp
