import Mathlib
import StaticHttp.Proofs.Transport.Machine
import StaticHttp.Proofs.Request.Refine

/-!
# Programs of cursor calls

A step of the reader is a function of its state, so a run of it does not say which calls it
made of its cursor. `Prog` writes a reader as data: each cursor call, and each look at or
change of the request read so far, is a node followed by the rest of the program. A program is
run in two ways. `Prog.toStep` runs it as the reader runs, in `Step`; `Prog.runLog` runs it the
same way and also logs each cursor call with what it returned.

`Prog.Safe shown p Q` is the condition that `p` advance only right after a peek that showed a
byte, from a cursor whose last call was such a peek exactly when `shown` holds, and that `Q`
hold of what it returns and of the flag then. It is computed on the program alone, as a
weakest precondition, node by node.

Main statements:
* `Prog.toStep_bind`: running a composed program is composing the runs.
* `Prog.runLog_erase`: the logged run, its log set aside, is the run.
* `Prog.runLog_answers`: the log is what the cursor answers to the calls in it.
* `Prog.Safe.runLog_disciplined`: a safe program logs only calls that keep the peek rule.
-/

namespace StaticHttp

namespace Reading

open Transport

/-- A reader written as a program: each call it makes of its cursor, and each look at or change
of the request read so far, is a node followed by the rest of the program. -/
inductive Prog (α : Type) where
  /-- The program is done, with this value. -/
  | pure (a : α)
  /-- The program fails. -/
  | fail (e : ParseError)
  /-- A peek; the rest follows from the byte shown, a stop failing the program. -/
  | peek (k : Byte → Prog α)
  /-- A next; the rest follows from the byte taken, a stop failing the program. -/
  | next (k : Byte → Prog α)
  /-- An advance past the byte shown. -/
  | advance (k : Prog α)
  /-- A change of the request read so far. -/
  | update (f : Request → Request) (k : Prog α)
  /-- A new request read so far. -/
  | start (r : Request) (k : Prog α)
  /-- A look at the request read so far. -/
  | inspect (k : Option Request → Prog α)

namespace Prog

variable {α β : Type}

/-- Runs `f` on the value of `x`. -/
def bind : Prog α → (α → Prog β) → Prog β
  | pure a, f => f a
  | fail e, _ => fail e
  | peek k, f => peek fun b => (k b).bind f
  | next k, f => next fun b => (k b).bind f
  | advance k, f => advance (k.bind f)
  | update g k, f => update g (k.bind f)
  | start r k, f => start r (k.bind f)
  | inspect k, f => inspect fun r => (k r).bind f

/-- Runs `h` on a failure of `x`. -/
def handle : Prog α → (ParseError → Prog α) → Prog α
  | pure a, _ => pure a
  | fail e, h => h e
  | peek k, h => peek fun b => (k b).handle h
  | next k, h => next fun b => (k b).handle h
  | advance k, h => advance (k.handle h)
  | update g k, h => update g (k.handle h)
  | start r k, h => start r (k.handle h)
  | inspect k, h => inspect fun r => (k r).handle h

instance : Monad Prog where
  pure := Prog.pure
  bind := Prog.bind

instance : MonadExceptOf ParseError Prog where
  throw := Prog.fail
  tryCatch := Prog.handle

theorem bind_eq (x : Prog α) (f : α → Prog β) : x >>= f = x.bind f := rfl

theorem pure_eq (a : α) : (Pure.pure a : Prog α) = Prog.pure a := rfl

theorem throw_eq (e : ParseError) : (throw e : Prog α) = Prog.fail e := rfl

theorem pure_bind_eq (a : α) (f : α → Prog β) : (Pure.pure a >>= f) = f a := rfl

/-! ## Running as the reader runs -/

/-- The program run as the reader runs, over the window cursor and the request read so far. -/
def toStep : Prog α → Step α
  | pure a => Pure.pure a
  | fail e => throw e
  | peek k => Reading.peek >>= fun b => (k b).toStep
  | next k => Reading.next >>= fun b => (k b).toStep
  | advance k => Reading.advance >>= fun _ => k.toStep
  | update f k => Reading.update f >>= fun _ => k.toStep
  | start r k => modify (fun s : Progress => { s with request := some r }) >>= fun _ => k.toStep
  | inspect k => get >>= fun s : Progress => (k s.request).toStep

/-- Running a composed program is composing the runs. -/
@[simp] theorem toStep_bind (x : Prog α) (f : α → Prog β) :
    (x >>= f).toStep = x.toStep >>= fun a => (f a).toStep := by
  rw [bind_eq]
  induction x with
  | pure a => exact (pure_bind a fun a => (f a).toStep).symm
  | fail e => rfl
  | peek k ih => simp only [bind, toStep, ih, bind_assoc]
  | next k ih => simp only [bind, toStep, ih, bind_assoc]
  | advance k ih => simp only [bind, toStep, ih, bind_assoc]
  | update g k ih => simp only [bind, toStep, ih, bind_assoc]
  | start r k ih => simp only [bind, toStep, ih, bind_assoc]
  | inspect k ih => simp only [bind, toStep, ih, bind_assoc]

@[simp] theorem toStep_pure (a : α) : (Pure.pure a : Prog α).toStep = Pure.pure a := rfl

@[simp] theorem toStep_throw (e : ParseError) : (throw e : Prog α).toStep = throw e := rfl

theorem toStep_ite (c : Prop) [Decidable c] (x y : Prog α) :
    (if c then x else y).toStep = if c then x.toStep else y.toStep := by
  split <;> rfl

/-! ## Running with a log of the cursor calls -/

/-- The program run as `toStep` runs it, from a cursor and the request read so far, with each
call made of the cursor logged with what it returned. -/
def runLog : Prog α → Progress → Except ParseError α × Progress × List Call
  | pure a, s => (.ok a, s, [])
  | fail e, s => (.error e, s, [])
  | peek k, s =>
    match s.cursor.peek with
    | (c, .ok b) =>
      let t := (k b).runLog { s with cursor := c }
      (t.1, t.2.1, .peek (.ok b) :: t.2.2)
    | (c, .error e) => (.error (.transport e), { s with cursor := c }, [.peek (.error e)])
  | next k, s =>
    match s.cursor.next with
    | (c, .ok b) =>
      let t := (k b).runLog { s with cursor := c }
      (t.1, t.2.1, .next (.ok b) :: t.2.2)
    | (c, .error e) => (.error (.transport e), { s with cursor := c }, [.next (.error e)])
  | advance k, s =>
    let t := k.runLog { s with cursor := s.cursor.advance }
    (t.1, t.2.1, .advance :: t.2.2)
  | update f k, s => k.runLog { s with request := s.request.map f }
  | start r k, s => k.runLog { s with request := some r }
  | inspect k, s => (k s.request).runLog s

/-- **The log sets nothing else apart.** The logged run, its log left out, is the run. -/
theorem runLog_erase (p : Prog α) (s : Progress) :
    ((p.runLog s).1, (p.runLog s).2.1) = p.toStep.run.run s := by
  induction p generalizing s with
  | pure a => rfl
  | fail e => rfl
  | peek k ih =>
    rw [toStep, run_bind, peek_run]
    rcases hp : s.cursor.peek with ⟨c, e | b⟩
    · simp only [runLog, hp]
      rfl
    · simp only [runLog, hp]
      exact ih b _
  | next k ih =>
    rw [toStep, run_bind, next_run]
    rcases hp : s.cursor.next with ⟨c, e | b⟩
    · simp only [runLog, hp]
      rfl
    · simp only [runLog, hp]
      exact ih b _
  | advance k ih =>
    rw [toStep, run_bind, advance_run]
    exact ih _
  | update f k ih => exact ih _
  | start r k ih => exact ih _
  | inspect k ih => exact ih s.request s

/-- **The log is the cursor's.** The calls in the log are what the cursor answers when they are
made of it in order. -/
theorem runLog_answers (p : Prog α) (s : Progress) : s.cursor.Answers (p.runLog s).2.2 := by
  induction p generalizing s with
  | pure a => trivial
  | fail e => trivial
  | peek k ih =>
    rcases hp : s.cursor.peek with ⟨c, e | b⟩
    · simp only [runLog, hp]
      exact ⟨by rw [hp], trivial⟩
    · simp only [runLog, hp]
      refine ⟨by rw [hp], ?_⟩
      rw [hp]
      exact ih b { s with cursor := c }
  | next k ih =>
    rcases hp : s.cursor.next with ⟨c, e | b⟩
    · simp only [runLog, hp]
      exact ⟨by rw [hp], trivial⟩
    · simp only [runLog, hp]
      refine ⟨by rw [hp], ?_⟩
      rw [hp]
      exact ih b { s with cursor := c }
  | advance k ih => exact ih { s with cursor := s.cursor.advance }
  | update f k ih => exact ih { s with request := s.request.map f }
  | start r k ih => exact ih { s with request := some r }
  | inspect k ih => exact ih s.request s

/-! ## Advancing only after a peek -/

/-- `Safe shown p Q`: run from a cursor whose last call was a peek that showed a byte exactly
when `shown` holds, `p` advances only right after such a peek, and `Q` holds of what it returns
and of whether its own last call was such a peek. A failure ends the program, so it asks
nothing. -/
def Safe : Bool → Prog α → (α → Bool → Prop) → Prop
  | shown, pure a, Q => Q a shown
  | _, fail _, _ => True
  | _, peek k, Q => ∀ b, Safe true (k b) Q
  | _, next k, Q => ∀ b, Safe false (k b) Q
  | shown, advance k, Q => shown = true ∧ Safe false k Q
  | shown, update _ k, Q => Safe shown k Q
  | shown, start _ k, Q => Safe shown k Q
  | shown, inspect k, Q => ∀ r, Safe shown (k r) Q

/-- A composed program is safe when the first part is, with the second safe after it. -/
theorem safe_bind (x : Prog α) (f : α → Prog β) (shown : Bool) (Q : β → Bool → Prop) :
    Safe shown (x >>= f) Q ↔ Safe shown x fun a shown' => Safe shown' (f a) Q := by
  rw [bind_eq]
  induction x generalizing shown with
  | pure a => rfl
  | fail e => rfl
  | peek k ih => simp only [bind, Safe, ih]
  | next k ih => simp only [bind, Safe, ih]
  | advance k ih => simp only [bind, Safe, ih]
  | update g k ih => simp only [bind, Safe, ih]
  | start r k ih => simp only [bind, Safe, ih]
  | inspect k ih => simp only [bind, Safe, ih]

theorem Safe.mono {x : Prog α} {shown : Bool} {Q Q' : α → Bool → Prop} (h : Safe shown x Q)
    (hQ : ∀ a shown', Q a shown' → Q' a shown') : Safe shown x Q' := by
  induction x generalizing shown with
  | pure a => exact hQ a shown h
  | fail e => trivial
  | peek k ih => exact fun b => ih b (h b)
  | next k ih => exact fun b => ih b (h b)
  | advance k ih => exact ⟨h.1, ih h.2⟩
  | update g k ih => exact ih h
  | start r k ih => exact ih h
  | inspect k ih => exact fun r => ih r (h r)

/-- Sequencing: `x` safe with postcondition `P`, and what follows safe from whatever `P`
allows. -/
theorem Safe.bind {x : Prog α} {f : α → Prog β} {shown : Bool} {P : α → Bool → Prop}
    {Q : β → Bool → Prop} (hx : Safe shown x P) (hf : ∀ a g, P a g → Safe g (f a) Q) :
    Safe shown (x >>= f) Q :=
  (safe_bind x f shown Q).2 (hx.mono hf)

@[simp] theorem safe_pure (a : α) (shown : Bool) (Q : α → Bool → Prop) :
    Safe shown (Pure.pure a : Prog α) Q ↔ Q a shown := Iff.rfl

@[simp] theorem safe_throw (e : ParseError) (shown : Bool) (Q : α → Bool → Prop) :
    Safe shown (throw e : Prog α) Q := trivial

theorem safe_ite (c : Prop) [Decidable c] (x y : Prog α) (shown : Bool) (Q : α → Bool → Prop) :
    Safe shown (if c then x else y) Q ↔ (c → Safe shown x Q) ∧ (¬c → Safe shown y Q) := by
  split <;> simp_all

/-- **A safe program keeps the peek rule.** Every call it logs keeps the rule that an advance
comes right after a peek that showed a byte, and what it returns meets `Q` with the flag its
last call leaves. -/
theorem Safe.runLog_disciplined {p : Prog α} {shown : Bool} {Q : α → Bool → Prop} (h : Safe shown p Q)
    (s : Progress) :
    Call.Disciplined shown (p.runLog s).2.2 ∧
      ∀ a, (p.runLog s).1 = .ok a → Q a (Call.shownAfter shown (p.runLog s).2.2) := by
  induction p generalizing shown s with
  | pure a => exact ⟨trivial, fun a' ha => by cases ha; exact h⟩
  | fail e => exact ⟨trivial, fun a ha => by cases ha⟩
  | peek k ih =>
    rcases hp : s.cursor.peek with ⟨c, e | b⟩
    · simp only [runLog, hp]
      exact ⟨trivial, fun a ha => by cases ha⟩
    · simp only [runLog, hp]
      exact ih b (h b) _
  | next k ih =>
    rcases hp : s.cursor.next with ⟨c, e | b⟩
    · simp only [runLog, hp]
      exact ⟨trivial, fun a ha => by cases ha⟩
    · simp only [runLog, hp]
      exact ih b (h b) _
  | advance k ih =>
    obtain ⟨h₁, h₂⟩ := ih h.2 { s with cursor := s.cursor.advance }
    exact ⟨⟨h.1, h₁⟩, h₂⟩
  | update f k ih => exact ih h _
  | start r k ih => exact ih h _
  | inspect k ih => exact ih s.request (h s.request) s

end Prog

end Reading

end StaticHttp
