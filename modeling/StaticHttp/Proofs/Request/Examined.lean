import StaticHttp.Proofs.Request.Grammar

/-!
# What the reader examined before it failed

The reader rejects a request as malformed on the bytes it examined: those it took and, for some
failures, the byte after them that it looked at without taking it. `Malformed.lookedAhead` says
which failures are found in that byte. `FinalAt f pre rest c` says that a step `f` of the reader
took `pre` and failed with `c` before `rest`, and that it fails over every stream that begins
with what it examined, under any limits and any stop. `SteadyAt` says that what a step read is
read again over such streams, or the step fails; a limit met under other limits only turns a
read into a failure.

Main statements:
* `scanMethod_final`, `scanToken_final`, `scanPath_final`, `scanQuery_final`, `scanWord_final`,
  `scanNumbers_final`, `scanVersion_final`: each piece of the request line fails finally.
* `scanToken_steady`, `scanPath_steady`, `scanQuery_steady`, `scanNumbers_steady`,
  `scanVersion_steady`, `scanMethod_steady`: what a piece read is read again.
* `FinalAt.map`, `FinalAt.after`: a final step stays final inside a step that runs it, after
  reading bytes that are read again.
-/

namespace StaticHttp

/-- Whether the reader finds a grammar failure in the byte it looked at last without taking it,
the byte that shows the token or the line is wrong; otherwise it finds it in a byte it took. -/
def Malformed.lookedAhead : Malformed → Bool
  | .methodTooLong | .unknownMethod _ | .missingUri _ | .notAbsolute _ | .queryWithoutValue _
  | .versionTooLong | .incompleteVersion | .afterVersion _ | .emptyHeaderName => true
  | .badEscape _ | .simpleNotGet _ | .versionPrefix | .misplacedDot | .versionChar _
  | .oldVersionNotGet _ | .unexpected _ _ => false

namespace Reading

open Transport

/-! ## Failures found in the bytes examined -/

/-- A result of reading that may be a failure. -/
class Failing (β : Type) where
  /-- The result is a failure. -/
  Failed : β → Prop

instance (α : Type) : Failing (Scanned α) where
  Failed r := ∃ e D, r = (.error e, D)

instance : Failing (Except ParseError Unit × List Field × Bytes) where
  Failed r := ∃ e fs D, r = (.error e, fs, D)

instance : Failing Outcome where
  Failed r := ∃ e, r.2.1 = some e

open Failing

/-- A step `f` of the reader, read with some limit, took `pre` and failed with `c` before
`rest`, and that failure is final: the reader examined something (the bytes it took, and the
first byte of `rest` if it looked at it), and over every stream that begins with what it
examined, under any limit and any stop, `f` fails. -/
structure FinalAt {Λ β : Type} [Failing β] (f : Λ → Stop → Bytes → β) (pre rest : Bytes)
    (c : Malformed) : Prop where
  examined : pre ≠ [] ∨ c.lookedAhead = true
  peeked : c.lookedAhead = true → rest ≠ []
  fails : ∀ l T rest', (c.lookedAhead = true → rest'.head? = rest.head?) →
    Failed (f l T (pre ++ rest'))

/-- A step `f` of the reader, read with some limit, took `pre` and read `a` before `rest`, and
what it read is steady: over every stream that has `pre` and then the first byte of `rest`,
under any limit and any stop, `f` reads `a` again before the same bytes, or fails. -/
structure SteadyAt {Λ α : Type} (f : Λ → Stop → Bytes → Scanned α) (pre rest : Bytes)
    (a : α) : Prop where
  reads : ∀ l T rest', rest'.head? = rest.head? →
    f l T (pre ++ rest') = (.ok a, rest') ∨ Failed (f l T (pre ++ rest'))

/-- What follows `pre` plays a part in the first byte of `pre ++ D` only through its own first
byte. -/
theorem head?_append_of_head? (pre : Bytes) {D D' : Bytes} (h : D'.head? = D.head?) :
    (pre ++ D').head? = (pre ++ D).head? := by
  cases pre with
  | nil => exact h
  | cons x pre => rfl

/-- Over a stream that begins with what was examined, the step starts where it did. -/
theorem FinalAt.head {Λ β : Type} [Failing β] {f : Λ → Stop → Bytes → β}
    {pre rest rest' : Bytes} {c : Malformed} (h : FinalAt f pre rest c)
    (hr : c.lookedAhead = true → rest'.head? = rest.head?) :
    (pre ++ rest').head? = (pre ++ rest).head? := by
  rcases h.examined with hpre | hc
  · obtain ⟨x, pre, rfl⟩ := List.exists_cons_of_ne_nil hpre
    rfl
  · exact head?_append_of_head? pre (hr hc)

/-- A piece that a byte ends starts the same over any bytes with that first byte. -/
theorem Ends.of_head {p : Byte → Bool} {D D' : Bytes} (h : Ends p D) (hd : D'.head? = D.head?) :
    Ends p D' := by
  cases D with
  | nil => exact h.elim
  | cons b R =>
    cases D' with
    | nil => cases hd
    | cons b' R' =>
      simp only [List.head?_cons, Option.some.injEq] at hd
      subst hd
      exact h

theorem Ends.ne_nil {p : Byte → Bool} {D : Bytes} (h : Ends p D) : D ≠ [] := by
  rintro rfl
  exact h

section Final

variable {Λ β : Type} [Failing β] {f : Λ → Stop → Bytes → β} {pre : Bytes}
  {c : Malformed}

/-- A failure found in the bytes taken, whatever follows them. -/
theorem FinalAt.taken {rest : Bytes} (hpre : pre ≠ []) (hc : c.lookedAhead = false)
    (hf : ∀ l T rest', Failed (f l T (pre ++ rest'))) : FinalAt f pre rest c :=
  ⟨.inl hpre, fun h => by simp [hc] at h, fun l T rest' _ => hf l T rest'⟩

/-- A failure found in the byte looked at after the bytes taken. -/
theorem FinalAt.lookingAt {b : Byte} {R : Bytes} (hc : c.lookedAhead = true)
    (hf : ∀ l T R', Failed (f l T (pre ++ b :: R'))) : FinalAt f pre (b :: R) c := by
  refine ⟨.inr hc, fun _ => List.cons_ne_nil b R, fun l T rest' hr => ?_⟩
  obtain ⟨R', rfl⟩ := List.head?_eq_some_iff.mp (hr hc)
  exact hf l T R'

/-- A final step stays final inside a step that runs it over the same bytes. -/
theorem FinalAt.map {Λ' γ : Type} [Failing γ] {g : Λ' → Stop → Bytes → γ} {rest : Bytes}
    (h : FinalAt f pre rest c)
    (hg : ∀ l T rest', (pre ++ rest').head? = (pre ++ rest).head? →
      (∀ l', Failed (f l' T (pre ++ rest'))) → Failed (g l T (pre ++ rest'))) :
    FinalAt g pre rest c :=
  ⟨h.examined, h.peeked, fun l T rest' hr =>
    hg l T rest' (h.head hr) fun l' => h.fails l' T rest' hr⟩

/-- A final step stays final inside a step that reads `p` first and then runs it. -/
theorem FinalAt.after {Λ' γ : Type} [Failing γ] {g : Λ' → Stop → Bytes → γ}
    {p rest : Bytes} (h : FinalAt f pre rest c)
    (hg : ∀ l T rest', (pre ++ rest').head? = (pre ++ rest).head? →
      (∀ l', Failed (f l' T (pre ++ rest'))) → Failed (g l T (p ++ (pre ++ rest')))) :
    FinalAt g (p ++ pre) rest c := by
  refine ⟨?_, h.peeked, fun l T rest' hr => ?_⟩
  · rcases h.examined with hpre | hc
    · exact .inl (by simp [hpre])
    · exact .inr hc
  · rw [List.append_assoc]
    exact hg l T rest' (h.head hr) fun l' => h.fails l' T rest' hr

end Final

/-- Bytes with the first byte of `b :: R` start with `b`. -/
theorem exists_cons_of_head? {b : Byte} {R D D' : Bytes} (hD : b :: R = D)
    (h : D'.head? = D.head?) : ∃ R', D' = b :: R' :=
  List.head?_eq_some_iff.mp (by rw [h, ← hD]; rfl)

/-- Bytes after `pre` with the first byte of `D` start as `pre ++ D` does. -/
theorem eq_cons_of_head? {b : Byte} {R pre D D' : Bytes} (hD : b :: R = pre ++ D)
    (h : D'.head? = D.head?) : ∃ R', pre ++ D' = b :: R' :=
  exists_cons_of_head? hD (head?_append_of_head? pre h)

/-! ## The pieces of a request line -/

section Pieces

variable {T : Stop}

/-- A method token that runs on is found at the byte after its seventh. -/
theorem scanMethod_final : ∀ (room : Nat) (acc D rest : Bytes) (c : Malformed),
    scanMethod T room acc D = (.error (.malformed c), rest) →
      ∃ pre, D = pre ++ rest ∧
        FinalAt (fun (_ : Unit) T D => scanMethod T room acc D) pre rest c
  | _, _, [], _, _, h => by simp [scanMethod] at h
  | room, acc, b :: D, rest, c, h => by
    cases hb : Byte.isBlank b
    case true =>
      have : scanMethod T room acc (b :: D) = (.ok acc.reverse, b :: D) := by
        cases room <;> simp [scanMethod, hb]
      rw [this] at h
      cases h
    cases room with
    | zero =>
      -- the byte after the seventh is not blank: the reader looked at it and stopped
      simp only [scanMethod, hb, Bool.false_eq_true, if_false, Prod.mk.injEq,
        Except.error.injEq, ParseError.malformed.injEq] at h
      obtain ⟨rfl, rfl⟩ := h
      exact ⟨[], rfl, FinalAt.lookingAt rfl fun _ T' R' =>
        ⟨.malformed .methodTooLong, b :: R', by simp [scanMethod, hb]⟩⟩
    | succ room =>
      simp only [scanMethod, hb, Bool.false_eq_true, if_false] at h
      obtain ⟨pre, rfl, hf⟩ := scanMethod_final room (b :: acc) D rest c h
      refine ⟨b :: pre, rfl, ⟨.inl (by simp), hf.peeked, fun u T' rest' hr => ?_⟩⟩
      have := hf.fails u T' rest' hr
      simpa [scanMethod, hb] using this

/-- A method token read is read again over any bytes with the same first byte after it. -/
theorem scanMethod_steady {room : Nat} {acc D tok rest : Bytes}
    (h : scanMethod T room acc D = (.ok tok, rest)) :
    ∃ pre, D = pre ++ rest ∧ ∀ T' rest', rest'.head? = rest.head? →
      scanMethod T' room acc (pre ++ rest') = (.ok tok, rest') := by
  obtain ⟨raw, rfl, hraw, hlen, hend, rfl⟩ := scanMethod_ok_split D room acc tok rest h
  refine ⟨raw, rfl, fun T' rest' hr => ?_⟩
  obtain ⟨b, R, rfl⟩ := List.exists_cons_of_ne_nil (hend.of_head hr).ne_nil
  exact scanMethod_append (hend.of_head hr) raw room acc hraw hlen

section Token

variable {decode : Bool} {stop : Byte → Bool}

/-- A token read under one limit reads the same under any other, or fails. -/
theorem scanToken_append_or (limit : Int) (what : Component) {rest : Bytes}
    (hend : Ends stop rest) {raw text : Bytes} (h : Encoded decode stop raw text) :
    ∀ (n : Nat) (acc : Bytes),
      scanToken T limit what decode stop n acc (raw ++ rest) = (.ok (acc.reverse ++ text), rest) ∨
        Failed (scanToken T limit what decode stop n acc (raw ++ rest)) := by
  induction h with
  | nil =>
    intro n acc
    left
    cases rest with
    | nil => exact hend.elim
    | cons b R => rw [List.nil_append, scanToken_cons_stop hend, List.append_nil]
  | @plain b raw text hs hd _ ih =>
    intro n acc
    rw [List.cons_append, scanToken_cons_plain hs hd]
    by_cases hn : limit ≤ (n : Int)
    · exact .inr ⟨_, _, if_pos hn⟩
    · rw [if_neg hn]
      rcases ih (n + 1) (b :: acc) with h | h
      · left
        rw [h]
        simp
      · exact .inr h
  | @escape hi lo h l raw text hd hp hh hl _ ih =>
    intro n acc
    have he : scanEscape T (hi :: lo :: (raw ++ rest)) = (.ok (h * 16 + l), raw ++ rest) := by
      simp [scanEscape, hh, hl]
    rw [List.cons_append, List.cons_append, List.cons_append,
      scanToken_cons_escape hp (by simp [hd]), he]
    dsimp only
    by_cases hn : limit ≤ (n : Int)
    · exact .inr ⟨_, _, if_pos hn⟩
    · rw [if_neg hn]
      rcases ih (n + 1) ((h * 16 + l) :: acc) with h | h
      · left
        rw [h]
        simp
      · exact .inr h

/-- What a token reads is steady under any other limit. -/
theorem scanToken_steady {limit : Int} {what : Component} {n : Nat} {acc D tok rest : Bytes}
    (h : scanToken T limit what decode stop n acc D = (.ok tok, rest)) :
    ∃ pre, D = pre ++ rest ∧
      SteadyAt (fun limit T D => scanToken T limit what decode stop n acc D) pre rest tok := by
  obtain ⟨raw, text, rfl, henc, hend, -, rfl⟩ := scanToken_ok_split n acc D tok rest h
  exact ⟨raw, rfl, ⟨fun limit' T' rest' hr =>
    scanToken_append_or limit' what (hend.of_head hr) henc n acc⟩⟩

/-- A bad escape is found in the bytes taken, under any limit. -/
theorem scanToken_final (limit : Int) (what : Component) :
    ∀ (n : Nat) (acc D rest : Bytes) (c : Malformed),
      scanToken T limit what decode stop n acc D = (.error (.malformed c), rest) →
        ∃ pre, D = pre ++ rest ∧
          FinalAt (fun limit T D => scanToken T limit what decode stop n acc D) pre rest c
  | _, _, [], _, _, h => by simp [scanToken] at h
  | n, acc, b :: D, rest, c, h => by
    cases hs : stop b
    case true => simp [scanToken_cons_stop hs] at h
    cases hd : (decode && b == percent)
    case false =>
      rw [scanToken_cons_plain hs hd] at h
      by_cases hn : limit ≤ (n : Int)
      · simp [hn] at h
      rw [if_neg hn] at h
      obtain ⟨pre, rfl, hf⟩ := scanToken_final limit what (n + 1) (b :: acc) D rest c h
      refine ⟨b :: pre, rfl, ⟨.inl (by simp), hf.peeked, fun limit' T' rest' hr => ?_⟩⟩
      rw [List.cons_append, scanToken_cons_plain hs hd]
      by_cases hn' : limit' ≤ (n : Int)
      · exact ⟨_, _, if_pos hn'⟩
      · rw [if_neg hn']
        exact hf.fails limit' T' rest' hr
    -- an escape takes both its digits before it checks them
    rcases D with _ | ⟨hi, _ | ⟨lo, D'⟩⟩
    · simp [scanToken_cons_escape hs hd, scanEscape] at h
    · simp [scanToken_cons_escape hs hd, scanEscape] at h
    cases hh : Byte.hexValue? hi with
    | none =>
      -- the first digit is no hex digit
      have hbad : ∀ limit' T' R, scanToken T' limit' what decode stop n acc (b :: hi :: lo :: R) =
          (.error (.malformed (.badEscape hi)), R) := by
        intro limit' T' R
        simp only [scanToken_cons_escape hs hd, scanEscape, hh]
      rw [hbad] at h
      cases h
      exact ⟨[b, hi, lo], rfl, FinalAt.taken (by simp) rfl fun limit' T' rest' =>
        ⟨_, _, hbad limit' T' rest'⟩⟩
    | some vh =>
      cases hl : Byte.hexValue? lo with
      | none =>
        -- the second digit is no hex digit
        have hbad : ∀ limit' T' R,
            scanToken T' limit' what decode stop n acc (b :: hi :: lo :: R) =
              (.error (.malformed (.badEscape lo)), R) := by
          intro limit' T' R
          simp only [scanToken_cons_escape hs hd, scanEscape, hh, hl]
        rw [hbad] at h
        cases h
        exact ⟨[b, hi, lo], rfl, FinalAt.taken (by simp) rfl fun limit' T' rest' =>
          ⟨_, _, hbad limit' T' rest'⟩⟩
      | some vl =>
        have hok : ∀ limit' T' R,
            scanToken T' limit' what decode stop n acc (b :: hi :: lo :: R) =
              if limit' ≤ (n : Int) then (.error (.oversized (.tooLong what limit')), R)
              else scanToken T' limit' what decode stop (n + 1) ((vh * 16 + vl) :: acc) R := by
          intro limit' T' R
          simp only [scanToken_cons_escape hs hd, scanEscape, hh, hl]
        rw [hok] at h
        by_cases hn : limit ≤ (n : Int)
        · simp [hn] at h
        rw [if_neg hn] at h
        obtain ⟨pre, rfl, hf⟩ :=
          scanToken_final limit what (n + 1) ((vh * 16 + vl) :: acc) D' rest c h
        refine ⟨b :: hi :: lo :: pre, rfl,
          ⟨.inl (by simp), hf.peeked, fun limit' T' rest' hr => ?_⟩⟩
        rw [List.cons_append, List.cons_append, List.cons_append, hok]
        by_cases hn' : limit' ≤ (n : Int)
        · exact ⟨_, _, if_pos hn'⟩
        · rw [if_neg hn']
          exact hf.fails limit' T' rest' hr

end Token

section Path

variable {lim : Limits}

/-- A path fails with the token it is read from. -/
theorem scanPath_failed {D : Bytes}
    (h : Failed (scanToken T lim.uri .path true endsPath 0 [] D)) : Failed (scanPath T lim D) := by
  obtain ⟨e, D', h⟩ := h
  exact ⟨e, D', by simp [scanPath, h]⟩

theorem scanPath_steady {D uri rest : Bytes} (h : scanPath T lim D = (.ok uri, rest)) :
    ∃ pre, D = pre ++ rest ∧ SteadyAt (fun lim T D => scanPath T lim D) pre rest uri := by
  unfold scanPath at h
  rcases ht : scanToken T lim.uri .path true endsPath 0 [] D with ⟨e | p, D₁⟩ <;> rw [ht] at h
  · cases h
  dsimp only at h
  obtain ⟨pre, rfl, hs⟩ := scanToken_steady ht
  split at h
  · next hslash =>
    simp only [Prod.mk.injEq, Except.ok.injEq] at h
    obtain ⟨rfl, rfl⟩ := h
    refine ⟨pre, rfl, ⟨fun lim' T' rest' hr => ?_⟩⟩
    rcases hs.reads lim'.uri T' rest' hr with ht' | ht'
    · exact .inl (by simp only [scanPath, ht', hslash, if_true])
    · exact .inr (scanPath_failed ht')
  · cases h

/-- A path that is no absolute path is found at the byte that ends it; a bad escape in it is
found where it stands. -/
theorem scanPath_final {D rest : Bytes} {c : Malformed}
    (h : scanPath T lim D = (.error (.malformed c), rest)) :
    ∃ pre, D = pre ++ rest ∧ FinalAt (fun lim T D => scanPath T lim D) pre rest c := by
  unfold scanPath at h
  rcases ht : scanToken T lim.uri .path true endsPath 0 [] D with ⟨e | p, D₁⟩ <;> rw [ht] at h
  · -- the token failed
    cases h
    obtain ⟨pre, rfl, hf⟩ := scanToken_final lim.uri .path 0 [] D rest c ht
    exact ⟨pre, rfl, ⟨hf.examined, hf.peeked, fun lim' T' rest' hr =>
      scanPath_failed (hf.fails lim'.uri T' rest' hr)⟩⟩
  · -- the token was read and does not begin with a slash
    dsimp only at h
    split at h
    · cases h
    · next hslash =>
      simp only [Prod.mk.injEq, Except.error.injEq, ParseError.malformed.injEq] at h
      obtain ⟨rfl, rfl⟩ := h
      obtain ⟨raw, text, rfl, -, hend, -, htok⟩ := scanToken_ok_split 0 [] D p D₁ ht
      obtain ⟨pre, hpre, hs⟩ := scanToken_steady ht
      have : pre = raw := (List.append_cancel_right hpre).symm
      subst this
      refine ⟨pre, rfl, ⟨.inr rfl, fun _ => hend.ne_nil, fun lim' T' rest' hr => ?_⟩⟩
      rcases hs.reads lim'.uri T' rest' (hr rfl) with ht' | ht'
      · exact ⟨.malformed (.notAbsolute p), rest', by simp [scanPath, ht', hslash]⟩
      · exact scanPath_failed ht'

end Path

section Query

variable {lim : Limits}

/-- A query variable read under one set of limits reads the same under any other, or fails. -/
theorem scanQuery_var_or {raw : Bytes} {f : Field} (hv : VarText lim raw f) {d : Byte} {R : Bytes}
    (hd : endsQueryValue d = true) (lim' : Limits) (vars : List Field) :
    scanQuery T lim' vars (raw ++ d :: R) =
        (if d == amp then scanQuery T lim' (vars ++ [f]) R
        else scanQuery T lim' (vars ++ [f]) (d :: R)) ∨
      Failed (scanQuery T lim' vars (raw ++ d :: R)) := by
  rw [scanQuery_of_ends vars (varText_ends hv _)]
  obtain ⟨name, value⟩ := f
  obtain ⟨n, x, rfl, hn, hx, -, -⟩ := hv
  rw [List.append_assoc, List.cons_append]
  have hendN : Ends endsQueryName (equals :: (x ++ d :: R)) := by simp [Ends, endsQueryName]
  rcases scanToken_append_or (T := T) lim'.queryName .queryName hendN hn 0 [] with
    hN | ⟨e, D₁, hN⟩
  · rw [hN]
    simp only [List.reverse_nil, List.nil_append, bne_self_eq_false, Bool.false_eq_true, if_false]
    have hendV : Ends endsQueryValue (d :: R) := hd
    rcases scanToken_append_or (T := T) lim'.queryValue .queryValue hendV hx 0 [] with
      hV | ⟨e, D₂, hV⟩
    · exact .inl (by simp only [hV, List.reverse_nil, List.nil_append])
    · exact .inr ⟨e, vars, D₂, by rw [hV]⟩
  · exact .inr ⟨e, vars, D₁, by rw [hN]⟩

/-- A query read under one set of limits reads the same under any other, or fails. -/
theorem scanQuery_append_or {rest : Bytes} (hend : Ends endsQuery rest) {raw : Bytes}
    {fs : List Field} (h : QueryText lim raw fs) (lim' : Limits) :
    ∀ vars, scanQuery T lim' vars (raw ++ rest) = (.ok (), vars ++ fs, rest) ∨
      Failed (scanQuery T lim' vars (raw ++ rest)) := by
  obtain ⟨d, R, rfl⟩ := List.exists_cons_of_ne_nil hend.ne_nil
  obtain ⟨hd, hna⟩ := endsQueryValue_of_endsQuery hend
  induction h with
  | nil =>
    intro vars
    left
    rw [List.nil_append, scanQuery_done hend, List.append_nil]
  | @last raw f hv =>
    intro vars
    rcases scanQuery_var_or hv hd lim' vars with hq | hq
    · left
      rw [hq, hna, if_neg Bool.false_ne_true, scanQuery_done hend]
    · exact .inr hq
  | @more raw rest' f fs hv _ ih =>
    intro vars
    rw [List.append_assoc, List.cons_append]
    rcases scanQuery_var_or hv (show endsQueryValue amp = true by decide) lim' vars with hq | hq
    · rw [hq]
      simp only [beq_self_eq_true, if_true]
      rcases ih (vars ++ [f]) with hq' | hq'
      · left
        rw [hq', List.append_assoc, List.singleton_append]
      · exact .inr hq'
    · exact .inr hq

/-- The query variables read are read again over any bytes with the same first byte after them,
under any limits, or the query fails. -/
theorem scanQuery_steady {vars vars' : List Field} {D rest : Bytes}
    (h : scanQuery T lim vars D = (.ok (), vars', rest)) :
    ∃ pre, D = pre ++ rest ∧ ∀ lim' T' rest', rest'.head? = rest.head? →
      scanQuery T' lim' vars (pre ++ rest') = (.ok (), vars', rest') ∨
        Failed (scanQuery T' lim' vars (pre ++ rest')) := by
  obtain ⟨raw, fs, rfl, hq, hend, rfl⟩ := scanQuery_ok_split h
  exact ⟨raw, rfl, fun lim' T' rest' hr => scanQuery_append_or (hend.of_head hr) hq lim' vars⟩

/-- A name with no `=` after it is found at the byte after the name; a bad escape is found where
it stands. -/
theorem scanQuery_final (vars : List Field) (D : Bytes) :
    ∀ {fs : List Field} {rest : Bytes} {c : Malformed},
      scanQuery T lim vars D = (.error (.malformed c), fs, rest) →
        ∃ pre, D = pre ++ rest ∧
          FinalAt (fun lim T D => scanQuery T lim vars D) pre rest c := by
  fun_induction scanQuery T lim vars D with
  | case1 vars =>
    intro fs rest c h
    cases h
  | case2 vars b R hb =>
    intro fs rest c h
    cases h
  | case3 vars b R hb e D₁ hN =>
    -- the name fails
    intro fs rest c h
    cases h
    obtain ⟨pre, hpre, hf⟩ := scanToken_final lim.queryName .queryName 0 [] (b :: R) _ _ hN
    refine ⟨pre, hpre, ⟨hf.examined, hf.peeked, fun lim' T' rest' hr => ?_⟩⟩
    have hE := (ends_var_cons hb R).of_head (show (pre ++ rest').head? = (b :: R).head? by
      rw [hf.head hr, ← hpre])
    obtain ⟨e', D', he⟩ := hf.fails lim'.queryName T' rest' hr
    exact ⟨e', vars, D', by rw [scanQuery_of_ends vars hE, he]⟩
  | case4 vars b R hb name hN =>
    intro fs rest c h
    cases h
  | case5 vars b R hb name x D₁ hN hx =>
    -- the name is not followed by `=`
    intro fs rest c h
    cases h
    obtain ⟨pre, hpre, hs⟩ := scanToken_steady hN
    refine ⟨pre, hpre, FinalAt.lookingAt rfl fun lim' T' R' => ?_⟩
    have hE := (ends_var_cons hb R).of_head (show (pre ++ x :: R').head? = (b :: R).head? by
      rw [hpre]
      exact head?_append_of_head? pre rfl)
    rw [scanQuery_of_ends vars hE]
    rcases hs.reads lim'.queryName T' (x :: R') rfl with hN' | ⟨e', D', hN'⟩
    · exact ⟨.malformed (.queryWithoutValue name), vars, x :: R', by rw [hN']; simp [hx]⟩
    · exact ⟨e', vars, D', by rw [hN']⟩
  | case6 vars b R hb name x D₁ hN hx e D₂ hV =>
    -- the value fails
    intro fs rest c h
    cases h
    obtain ⟨preN, hpreN, hs⟩ := scanToken_steady hN
    obtain ⟨preV, rfl, hf⟩ := scanToken_final lim.queryValue .queryValue 0 [] D₁ _ _ hV
    refine ⟨preN ++ x :: preV, by rw [hpreN, List.append_assoc, List.cons_append],
      ⟨.inl (by simp), hf.peeked, fun lim' T' rest' hr => ?_⟩⟩
    have hE := (ends_var_cons hb R).of_head
      (show (preN ++ x :: preV ++ rest').head? = (b :: R).head? by
        rw [hpreN, List.append_assoc, List.cons_append]
        exact head?_append_of_head? preN rfl)
    rw [scanQuery_of_ends vars hE, List.append_assoc, List.cons_append]
    rcases hs.reads lim'.queryName T' (x :: (preV ++ rest')) rfl with hN' | ⟨e', D', hN'⟩
    · obtain ⟨e', D', hV'⟩ := hf.fails lim'.queryValue T' rest' hr
      exact ⟨e', vars, D', by rw [hN']; simp [hx, hV']⟩
    · exact ⟨e', vars, D', by rw [hN']⟩
  | case7 vars b R hb name x D₁ hN hx value hV =>
    intro fs rest c h
    cases h
  | case8 vars b R hb name x D₁ hN hx value d D₂ hV hd ih =>
    -- a variable and `&` are read, and the next variable fails
    intro fs rest c h
    obtain ⟨pre, rfl, hf⟩ := ih h
    simp only [bne_iff_ne, ne_eq, Decidable.not_not] at hx
    subst hx
    obtain ⟨raw, hD, hv, hend⟩ := varText_of_scans hN hV
    refine ⟨raw ++ d :: pre, by rw [hD]; simp, ⟨.inl (by simp), hf.peeked,
      fun lim' T' rest' hr => ?_⟩⟩
    rw [List.append_assoc, List.cons_append]
    rcases scanQuery_var_or hv hend lim' vars (R := pre ++ rest') with hq | hq
    · rw [hq, if_pos hd]
      exact hf.fails lim' T' rest' hr
    · exact hq
  | case9 vars b R hb name x D₁ hN hx value d D₂ hV hd ih =>
    -- a variable is read, and what ends it is no `&`
    intro fs rest c h
    obtain ⟨pre, hpre, hf⟩ := ih h
    simp only [bne_iff_ne, ne_eq, Decidable.not_not] at hx
    subst hx
    obtain ⟨raw, hD, hv, hend⟩ := varText_of_scans hN hV
    refine ⟨raw ++ pre, by rw [hD, hpre, List.append_assoc], ⟨.inl ?_, hf.peeked,
      fun lim' T' rest' hr => ?_⟩⟩
    · obtain ⟨n, x, rfl, -⟩ := hv
      simp
    obtain ⟨R', hR'⟩ := exists_cons_of_head? hpre (hf.head hr)
    rw [List.append_assoc, hR']
    rcases scanQuery_var_or hv hend lim' vars (R := R') with hq | hq
    · rw [hq, if_neg (by simpa using hd), ← hR']
      exact hf.fails lim' T' rest' hr
    · exact hq

end Query

section Version

/-- A byte of `HTTP/` that differs is found where it stands. -/
theorem scanWord_final : ∀ (w D rest : Bytes) (c : Malformed),
    scanWord T w D = (.error (.malformed c), rest) →
      ∃ pre, D = pre ++ rest ∧ FinalAt (fun (_ : Unit) T D => scanWord T w D) pre rest c
  | [], _, _, _, h => by cases h
  | _ :: _, [], _, _, h => by cases h
  | w :: ws, b :: D, rest, c, h => by
    by_cases hb : b = w
    · subst hb
      simp only [scanWord, bne_self_eq_false, Bool.false_eq_true, if_false] at h
      obtain ⟨pre, rfl, hf⟩ := scanWord_final ws D rest c h
      refine ⟨b :: pre, rfl, ⟨.inl (by simp), hf.peeked, fun u T' rest' hr => ?_⟩⟩
      simpa [scanWord] using hf.fails u T' rest' hr
    · simp only [scanWord, bne_iff_ne, ne_eq, hb, not_false_eq_true, if_true, Prod.mk.injEq,
        Except.error.injEq, ParseError.malformed.injEq] at h
      obtain ⟨rfl, rfl⟩ := h
      exact ⟨[b], rfl, FinalAt.taken (by simp) rfl fun _ T' rest' =>
        ⟨.malformed .versionPrefix, rest', by simp [scanWord, hb]⟩⟩

/-- One byte of the version numbers that is not blank, with room left for it. -/
theorem scanNumbers_cons_succ {b : Byte} (hb : Byte.isBlank b = false) (room : Nat)
    (seenDot : Bool) (digits : Nat) (major minor : Int) (R : Bytes) :
    scanNumbers T (room + 1) seenDot digits major minor (b :: R) =
      if b == dot then
        if seenDot || digits == 0 then (.error (.malformed .misplacedDot), R)
        else scanNumbers T room true 0 major minor R
      else if Byte.isDigit b then
        if seenDot then
          scanNumbers T room seenDot (digits + 1) major (minor * 10 + ((b - 48).toNat : Int)) R
        else
          scanNumbers T room seenDot (digits + 1) (major * 10 + ((b - 48).toNat : Int)) minor R
      else (.error (.malformed (.versionChar b)), R) := by
  simp [scanNumbers, hb]

/-- Version numbers read end before a blank. -/
theorem scanNumbers_ends (room : Nat) (seenDot : Bool) (digits : Nat) (major minor : Int)
    (D : Bytes) {res : Bool × Nat × Int × Int} {rest : Bytes}
    (h : scanNumbers T room seenDot digits major minor D = (.ok res, rest)) :
    Ends Byte.isBlank rest := by
  fun_induction scanNumbers T room seenDot digits major minor D with
  | case2 _ _ _ _ _ b D hb =>
    simp only [Prod.mk.injEq] at h
    obtain ⟨-, rfl⟩ := h
    exact hb
  | _ => simp_all

/-- The numbers of a version read are read again over any bytes with the same first byte after
them. -/
theorem scanNumbers_steady : ∀ (room : Nat) (seenDot : Bool) (digits : Nat) (major minor : Int)
    (D rest : Bytes) (res : Bool × Nat × Int × Int),
    scanNumbers T room seenDot digits major minor D = (.ok res, rest) →
      ∃ pre, D = pre ++ rest ∧ SteadyAt (fun (_ : Unit) T D =>
        scanNumbers T room seenDot digits major minor D) pre rest res
  | _, _, _, _, _, [], _, _, h => by simp [scanNumbers] at h
  | room, seenDot, digits, major, minor, b :: D, rest, res, h => by
    cases hb : Byte.isBlank b
    case true =>
      rw [scanNumbers_blank hb] at h
      cases h
      refine ⟨[], rfl, ⟨fun _ T' rest' hr => .inl ?_⟩⟩
      obtain ⟨R', rfl⟩ := List.head?_eq_some_iff.mp hr
      exact scanNumbers_blank hb _ _ _ _ _
    cases room with
    | zero => simp [scanNumbers, hb] at h
    | succ room =>
      -- one more byte of the version is taken, and the rest is read on from there
      rw [scanNumbers_cons_succ hb] at h
      split at h
      · split at h
        · cases h
        · obtain ⟨pre, rfl, hs⟩ := scanNumbers_steady room true 0 major minor D rest res h
          refine ⟨b :: pre, rfl, ⟨fun u T' rest' hr => ?_⟩⟩
          rw [List.cons_append, scanNumbers_cons_succ hb]
          simpa only [*, Bool.false_eq_true, ↓reduceIte] using hs.reads u T' rest' hr
      · split at h
        · split at h
          · obtain ⟨pre, rfl, hs⟩ := scanNumbers_steady room seenDot _ major _ D rest res h
            refine ⟨b :: pre, rfl, ⟨fun u T' rest' hr => ?_⟩⟩
            rw [List.cons_append, scanNumbers_cons_succ hb]
            simpa only [*, Bool.false_eq_true, ↓reduceIte] using hs.reads u T' rest' hr
          · obtain ⟨pre, rfl, hs⟩ := scanNumbers_steady room seenDot _ _ minor D rest res h
            refine ⟨b :: pre, rfl, ⟨fun u T' rest' hr => ?_⟩⟩
            rw [List.cons_append, scanNumbers_cons_succ hb]
            simpa only [*, Bool.false_eq_true, ↓reduceIte] using hs.reads u T' rest' hr
        · cases h

/-- Version numbers that run on are found at the byte after the ninth; a misplaced dot or a
byte that is neither digit nor dot is found where it stands. -/
theorem scanNumbers_final : ∀ (room : Nat) (seenDot : Bool) (digits : Nat) (major minor : Int)
    (D rest : Bytes) (c : Malformed),
    scanNumbers T room seenDot digits major minor D = (.error (.malformed c), rest) →
      ∃ pre, D = pre ++ rest ∧ FinalAt (fun (_ : Unit) T D =>
        scanNumbers T room seenDot digits major minor D) pre rest c
  | _, _, _, _, _, [], _, _, h => by simp [scanNumbers] at h
  | room, seenDot, digits, major, minor, b :: D, rest, c, h => by
    cases hb : Byte.isBlank b
    case true => simp [scanNumbers_blank hb] at h
    cases room with
    | zero =>
      simp only [scanNumbers, hb, Bool.false_eq_true, if_false, Prod.mk.injEq,
        Except.error.injEq, ParseError.malformed.injEq] at h
      obtain ⟨rfl, rfl⟩ := h
      exact ⟨[], rfl, FinalAt.lookingAt rfl fun _ T' R' =>
        ⟨.malformed .versionTooLong, b :: R', by simp [scanNumbers, hb]⟩⟩
    | succ room =>
      rw [scanNumbers_cons_succ hb] at h
      split at h
      · next hdot =>
        split at h
        · next hmis =>
          cases h
          exact ⟨[b], rfl, FinalAt.taken (by simp) rfl fun _ T' rest' =>
            ⟨_, _, by
              rw [List.singleton_append, scanNumbers_cons_succ hb, if_pos hdot, if_pos hmis]⟩⟩
        · next hmis =>
          obtain ⟨pre, rfl, hf⟩ := scanNumbers_final room true 0 major minor D rest c h
          refine ⟨b :: pre, rfl, ⟨.inl (by simp), hf.peeked, fun u T' rest' hr => ?_⟩⟩
          rw [List.cons_append, scanNumbers_cons_succ hb, if_pos hdot, if_neg hmis]
          exact hf.fails u T' rest' hr
      · next hdot =>
        split at h
        · next hdig =>
          split at h
          · next hseen =>
            obtain ⟨pre, rfl, hf⟩ := scanNumbers_final room seenDot _ major _ D rest c h
            refine ⟨b :: pre, rfl, ⟨.inl (by simp), hf.peeked, fun u T' rest' hr => ?_⟩⟩
            rw [List.cons_append, scanNumbers_cons_succ hb, if_neg hdot, if_pos hdig, if_pos hseen]
            exact hf.fails u T' rest' hr
          · next hseen =>
            obtain ⟨pre, rfl, hf⟩ := scanNumbers_final room seenDot _ _ minor D rest c h
            refine ⟨b :: pre, rfl, ⟨.inl (by simp), hf.peeked, fun u T' rest' hr => ?_⟩⟩
            rw [List.cons_append, scanNumbers_cons_succ hb, if_neg hdot, if_pos hdig, if_neg hseen]
            exact hf.fails u T' rest' hr
        · next hdig =>
          cases h
          exact ⟨[b], rfl, FinalAt.taken (by simp) rfl fun _ T' rest' =>
            ⟨_, _, by
              rw [List.singleton_append, scanNumbers_cons_succ hb, if_neg hdot, if_neg hdig]⟩⟩

/-- A version read is read again over any bytes with the same first byte after it. -/
theorem scanVersion_steady {D rest : Bytes} {v : Version} (h : scanVersion T D = (.ok v, rest)) :
    ∃ pre, D = pre ++ rest ∧ ∀ T' rest', rest'.head? = rest.head? →
      scanVersion T' (pre ++ rest') = (.ok v, rest') := by
  obtain ⟨raw, rfl, hv, hend⟩ := scanVersion_ok_split h
  exact ⟨_, rfl, fun T' rest' hr => scanVersion_append hv (hend.of_head hr)⟩

/-- A version is found wrong where it stands, or at the byte after it when its numbers are
incomplete or run on. -/
theorem scanVersion_final {D rest : Bytes} {c : Malformed}
    (h : scanVersion T D = (.error (.malformed c), rest)) :
    ∃ pre, D = pre ++ rest ∧ FinalAt (fun (_ : Unit) T D => scanVersion T D) pre rest c := by
  unfold scanVersion at h
  rcases hw : scanWord T (Bytes.ofString "HTTP/") D with ⟨e | u, D₁⟩ <;> rw [hw] at h
  · -- a byte of the word differs
    cases h
    obtain ⟨pre, rfl, hf⟩ := scanWord_final _ D rest c hw
    refine ⟨pre, rfl, ⟨hf.examined, hf.peeked, fun u T' rest' hr => ?_⟩⟩
    obtain ⟨e', D', he⟩ := hf.fails u T' rest' hr
    exact ⟨e', D', by simp [scanVersion, he]⟩
  have hD := scanWord_ok_split _ D D₁ hw
  subst hD
  dsimp only at h
  rcases hn : scanNumbers T 9 false 0 0 0 D₁ with
    ⟨e | ⟨seenDot, digits, major, minor⟩, D₂⟩ <;> rw [hn] at h
  · -- the numbers fail
    cases h
    obtain ⟨pre, rfl, hf⟩ := scanNumbers_final 9 false 0 0 0 D₁ rest c hn
    refine ⟨Bytes.ofString "HTTP/" ++ pre, by rw [List.append_assoc],
      ⟨.inl (by simp [httpWord_eq]), hf.peeked, fun u T' rest' hr => ?_⟩⟩
    obtain ⟨e', D', he⟩ := hf.fails u T' rest' hr
    refine ⟨e', D', ?_⟩
    -- the word is read over any bytes after it, and the numbers fail again
    rw [List.append_assoc, scanVersion, scanWord_append]
    dsimp only
    rw [he]
  · -- the numbers are read, and are incomplete
    dsimp only at h
    split at h
    · next hinc =>
      simp only [Prod.mk.injEq, Except.error.injEq, ParseError.malformed.injEq] at h
      obtain ⟨rfl, rfl⟩ := h
      obtain ⟨pre, rfl, hs⟩ := scanNumbers_steady 9 false 0 0 0 D₁ D₂ _ hn
      refine ⟨Bytes.ofString "HTTP/" ++ pre, by rw [List.append_assoc],
        ⟨.inl (by simp [httpWord_eq]), fun _ => ?_, fun u T' rest' hr => ?_⟩⟩
      · exact (scanNumbers_ends 9 false 0 0 0 _ hn).ne_nil
      · rw [List.append_assoc, scanVersion, scanWord_append]
        dsimp only
        rcases hs.reads u T' rest' (hr rfl) with hn' | ⟨e', D', hn'⟩
        · exact ⟨.malformed .incompleteVersion, rest', by
            rw [hn']
            simp only [hinc, ↓reduceIte]⟩
        · exact ⟨e', D', by rw [hn']⟩
    · cases h

end Version

end Pieces

end Reading

end StaticHttp
