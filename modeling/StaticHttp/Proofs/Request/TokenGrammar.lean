import StaticHttp.Proofs.Request.Scan

/-!
# The tokens of a request line

The grammar of the pieces a request line is made of, and what reading each of them gives. A
token is a run of bytes that do not end it, in which, where escapes are decoded, a percent sign
and two hexadecimal digits stand for the byte they spell (`Encoded`); its limit counts the
decoded bytes (`Fits`). The path is a token whose decoding begins with a slash (`PathText`),
the query is variables `N=X` separated by `&` (`QueryText`), and the version is two runs of
digits around a dot, at most nine bytes (`VersionText`).

Each piece has two statements, which together say that reading it accepts exactly its
grammar: `scanX_append` reads a text of the grammar followed by a byte that ends it, and gives
its meaning and the bytes from that byte on; `scanX_ok_split` goes back from a successful read
to the text it took. The byte that ends a piece is only looked at, never taken.

Main statements:
* `scanToken_append`, `scanToken_ok_split`: a token reads as the text its escapes stand for,
  and fails once that text outgrows its limit.
* `scanPath_append`, `scanPath_ok_split`: the path, with `index.html` added to a directory.
* `scanQuery_append`, `scanQuery_ok_split`: the query variables, in order.
* `scanVersion_append`, `scanVersion_ok_split`: the version and its two numbers.
-/

namespace StaticHttp

namespace Reading

open Transport

/-! ## The grammar of tokens -/

/-- A decoded component within its limit: a component of `n` bytes passes a limit that is at
least `n`, and an empty one passes any limit. -/
def Fits (limit : Int) (text : Bytes) : Prop := text = [] ∨ (text.length : Int) ≤ limit

/-- The bytes `text` still fit a limit after `n` bytes of the same component. -/
def FitsAfter (limit : Int) (n : Nat) (text : Bytes) : Prop :=
  text = [] ∨ ((n + text.length : Nat) : Int) ≤ limit

theorem fitsAfter_nil (limit : Int) (n : Nat) : FitsAfter limit n [] := Or.inl rfl

theorem fitsAfter_cons {limit : Int} {n : Nat} {b : Byte} {text : Bytes} :
    FitsAfter limit n (b :: text) ↔ ¬ limit ≤ n ∧ FitsAfter limit (n + 1) text := by
  cases text with
  | nil =>
    simp only [FitsAfter, List.length_singleton, reduceCtorEq, false_or, true_or, and_true]
    omega
  | cons c text =>
    simp only [FitsAfter, reduceCtorEq, false_or, List.length_cons]
    omega

theorem fits_iff_fitsAfter (limit : Int) (text : Bytes) : Fits limit text ↔ FitsAfter limit 0 text := by
  simp [Fits, FitsAfter]

/-- The raw bytes of a token and the text they stand for. A byte that does not end the token
stands for itself, a percent sign excepted when escapes are decoded; with `decode`, a percent
sign and two hexadecimal digits stand for the byte they spell. -/
inductive Encoded (decode : Bool) (stop : Byte → Bool) : Bytes → Bytes → Prop
  | nil : Encoded decode stop [] []
  | plain {b : Byte} {raw text : Bytes} : stop b = false → (decode && b == percent) = false →
      Encoded decode stop raw text → Encoded decode stop (b :: raw) (b :: text)
  | escape {hi lo h l : Byte} {raw text : Bytes} : decode = true → stop percent = false →
      Byte.hexValue? hi = some h → Byte.hexValue? lo = some l → Encoded decode stop raw text →
      Encoded decode stop (percent :: hi :: lo :: raw) ((h * 16 + l) :: text)

/-- The uri a decoded path names: a path that ends in a slash names the `index.html` of that
directory. -/
def withIndex (p : Bytes) : Bytes :=
  if p.getLast? == some slash then p ++ Bytes.ofString "index.html" else p

/-- `P`: a run of escapes and bytes that end no path, whose decoding begins with a slash and fits
the limit on the uri; and the uri it names. -/
def PathText (lim : Limits) (raw uri : Bytes) : Prop :=
  ∃ p, Encoded true endsPath raw p ∧ p.head? = some slash ∧ Fits lim.uri p ∧ uri = withIndex p

/-- What ends the query: a blank or a `#`. -/
def endsQuery (b : Byte) : Bool := Byte.isBlank b || b == hash

/-- One query variable `N=X`: a name and a value, each a run of escapes and bytes that do not
end it, within their limits. -/
def VarText (lim : Limits) (raw : Bytes) (f : Field) : Prop :=
  ∃ n x, raw = n ++ equals :: x ∧ Encoded true endsQueryName n f.name ∧
    Encoded true endsQueryValue x f.value ∧ Fits lim.queryName f.name ∧ Fits lim.queryValue f.value

/-- `Q`: no variables, or variables separated by `&`, with one more `&` allowed at the end. -/
inductive QueryText (lim : Limits) : Bytes → List Field → Prop
  | nil : QueryText lim [] []
  | last {raw : Bytes} {f : Field} : VarText lim raw f → QueryText lim raw [f]
  | more {raw rest : Bytes} {f : Field} {fs : List Field} : VarText lim raw f →
      QueryText lim rest fs → QueryText lim (raw ++ amp :: rest) (f :: fs)

/-! ## Blanks, method names and tokens -/

section Skip

variable {T : Stop} {p : Byte → Bool}

theorem scanSkip_append {pre R : Bytes} {b : Byte} (hpre : ∀ x ∈ pre, p x = true)
    (hb : p b = false) : scanSkip T p (pre ++ b :: R) = (.ok b, b :: R) := by
  have hd : (pre ++ b :: R).dropWhile p = b :: R := by
    rw [List.dropWhile_append_of_pos hpre, List.dropWhile_cons_of_neg (by simp [hb])]
  simp only [scanSkip, hd]

theorem scanSkip_ok_split {D rest : Bytes} {b : Byte} (h : scanSkip T p D = (.ok b, rest)) :
    ∃ pre R, D = pre ++ rest ∧ (∀ x ∈ pre, p x = true) ∧ rest = b :: R ∧ p b = false := by
  unfold scanSkip at h
  split at h
  · cases h
  · rename_i c R hc
    cases h
    have hall := List.all_eq_true.mp (List.all_takeWhile (p := p) (l := D))
    refine ⟨D.takeWhile p, R, ?_, hall, rfl, ?_⟩
    · rw [← hc, List.takeWhile_append_dropWhile]
    · have := List.head_dropWhile_not p (l := D) (by rw [hc]; simp)
      simpa only [hc, List.head_cons] using this

end Skip

section Method

variable {T : Stop}

theorem scanMethod_append {b : Byte} {R : Bytes} (hb : Byte.isBlank b = true) :
    ∀ (raw : Bytes) (room : Nat) (acc : Bytes), (∀ x ∈ raw, Byte.isBlank x = false) →
      raw.length ≤ room → scanMethod T room acc (raw ++ b :: R) = (.ok (acc.reverse ++ raw), b :: R)
  | [], room, acc, _, _ => by
    cases room <;> simp [scanMethod, hb]
  | x :: raw, room, acc, hraw, hlen => by
    obtain ⟨room, rfl⟩ : ∃ k, room = k + 1 := ⟨room - 1, by simp at hlen; omega⟩
    have hx := hraw x List.mem_cons_self
    rw [List.cons_append, scanMethod, if_neg (by simp [hx])]
    rw [scanMethod_append hb raw room (x :: acc) (fun y hy => hraw y (List.mem_cons_of_mem _ hy))
      (by simp at hlen; omega)]
    simp

theorem scanMethod_ok_split : ∀ (D : Bytes) (room : Nat) (acc tok rest : Bytes),
    scanMethod T room acc D = (.ok tok, rest) →
      ∃ raw, D = raw ++ rest ∧ (∀ x ∈ raw, Byte.isBlank x = false) ∧ raw.length ≤ room ∧
        Ends Byte.isBlank rest ∧ tok = acc.reverse ++ raw
  | [], _, _, _, _, h => by simp [scanMethod] at h
  | b :: D, room, acc, tok, rest, h => by
    cases hb : Byte.isBlank b
    · cases room with
      | zero => simp [scanMethod, hb] at h
      | succ room =>
        simp only [scanMethod, hb, Bool.false_eq_true, if_false] at h
        obtain ⟨raw, rfl, hraw, hlen, hend, rfl⟩ := scanMethod_ok_split D room (b :: acc) tok rest h
        refine ⟨b :: raw, rfl, ?_, by simp; omega, hend, by simp⟩
        intro x hx
        rcases List.mem_cons.mp hx with rfl | hx
        · exact hb
        · exact hraw x hx
    · have h' : scanMethod T room acc (b :: D) = (.ok acc.reverse, b :: D) := by
        cases room <;> simp [scanMethod, hb]
      rw [h'] at h
      cases h
      exact ⟨[], rfl, by simp, by simp, hb, by simp⟩

end Method

section Token

variable {T : Stop} {decode : Bool} {stop : Byte → Bool}

theorem scanToken_append (limit : Int) (what : Component) {rest : Bytes} (hend : Ends stop rest)
    {raw text : Bytes}
    (h : Encoded decode stop raw text) : ∀ (n : Nat) (acc : Bytes), FitsAfter limit n text →
      scanToken T limit what decode stop n acc (raw ++ rest) = (.ok (acc.reverse ++ text), rest) := by
  induction h with
  | nil =>
    intro n acc _
    cases rest with
    | nil => exact hend.elim
    | cons b R => rw [List.nil_append, scanToken_cons_stop hend, List.append_nil]
  | @plain b raw text hs hd _ ih =>
    intro n acc hfit
    obtain ⟨hn, hfit⟩ := fitsAfter_cons.mp hfit
    rw [List.cons_append, scanToken_cons_plain hs hd, if_neg hn, ih (n + 1) (b :: acc) hfit]
    simp
  | @escape hi lo h l raw text hd hp hh hl _ ih =>
    intro n acc hfit
    obtain ⟨hn, hfit⟩ := fitsAfter_cons.mp hfit
    have he : scanEscape T (hi :: lo :: (raw ++ rest)) = (.ok (h * 16 + l), raw ++ rest) := by
      simp [scanEscape, hh, hl]
    rw [List.cons_append, List.cons_append, List.cons_append,
      scanToken_cons_escape hp (by simp [hd]), he]
    simp only
    rw [if_neg hn, ih (n + 1) ((h * 16 + l) :: acc) hfit]
    simp

theorem scanToken_ok_split {limit : Int} {what : Component} (n : Nat) (acc D tok rest : Bytes)
    (h : scanToken T limit what decode stop n acc D = (.ok tok, rest)) :
    ∃ raw text, D = raw ++ rest ∧ Encoded decode stop raw text ∧ Ends stop rest ∧
      FitsAfter limit n text ∧ tok = acc.reverse ++ text := by
  fun_induction scanToken T limit what decode stop n acc D generalizing tok rest with
  | case2 n acc b D hs =>
    cases h
    exact ⟨[], [], rfl, .nil, hs, fitsAfter_nil _ _, by simp⟩
  | case6 n acc b hs hd hi lo D' vh vl hl hh hn ih =>
    obtain ⟨raw, text, rfl, henc, hend, hfit, rfl⟩ := ih tok rest h
    simp only [Bool.and_eq_true, beq_iff_eq] at hd
    obtain ⟨rfl, rfl⟩ := hd
    refine ⟨percent :: hi :: lo :: raw, (vh * 16 + vl) :: text, rfl,
      .escape rfl (by simpa using hs) hh hl henc, hend, fitsAfter_cons.mpr ⟨hn, hfit⟩, by simp⟩
  | case9 n acc b D hs hd hn ih =>
    obtain ⟨raw, text, rfl, henc, hend, hfit, rfl⟩ := ih tok rest h
    refine ⟨b :: raw, b :: text, rfl, .plain (by simpa using hs) (by simpa using hd) henc, hend,
      fitsAfter_cons.mpr ⟨hn, hfit⟩, by simp⟩
  | _ => cases h

end Token

/-! ## Paths and queries -/

section Path

variable {T : Stop} {lim : Limits}

theorem scanPath_append {raw uri rest : Bytes} (h : PathText lim raw uri)
    (hend : Ends endsPath rest) : scanPath T lim (raw ++ rest) = (.ok uri, rest) := by
  obtain ⟨p, henc, hhead, hfit, rfl⟩ := h
  have ht := scanToken_append (T := T) lim.uri .path hend henc 0 []
    ((fits_iff_fitsAfter _ _).mp hfit)
  simp only [List.reverse_nil, List.nil_append] at ht
  simp only [scanPath, ht, hhead, beq_self_eq_true, if_true, withIndex]

theorem scanPath_ok_split {D uri rest : Bytes} (h : scanPath T lim D = (.ok uri, rest)) :
    ∃ raw, D = raw ++ rest ∧ PathText lim raw uri ∧ Ends endsPath rest := by
  unfold scanPath at h
  rcases ht : scanToken T lim.uri .path true endsPath 0 [] D with ⟨e | p, D'⟩
  · rw [ht] at h
    cases h
  · rw [ht] at h
    obtain ⟨raw, text, rfl, henc, hend, hfit, htext⟩ := scanToken_ok_split 0 [] D p D' ht
    simp only [List.reverse_nil, List.nil_append] at htext
    subst htext
    by_cases hs : p.head? = some slash
    · simp only [hs, beq_self_eq_true, if_true, Prod.mk.injEq, Except.ok.injEq] at h
      obtain ⟨rfl, rfl⟩ := h
      exact ⟨raw, rfl, ⟨p, henc, hs, (fits_iff_fitsAfter _ _).mpr hfit, rfl⟩, hend⟩
    · simp [hs] at h

end Path

section Query

variable {T : Stop} {lim : Limits}

theorem varText_ends {raw : Bytes} {f : Field} (h : VarText lim raw f) (rest : Bytes) :
    Ends (fun b => !(Byte.isBlank b || b == hash)) (raw ++ rest) := by
  obtain ⟨name, value⟩ := f
  obtain ⟨n, x, rfl, hn, -⟩ := h
  cases hn with
  | nil => simp [Ends]; decide
  | plain hs _ _ =>
    simp only [endsQueryName, Bool.or_eq_false_iff] at hs
    simp [Ends, hs]
  | escape _ _ _ _ _ => simp [Ends]; decide

theorem scanQuery_done {b : Byte} {R : Bytes} (hb : endsQuery b = true) (vars : List Field) :
    scanQuery T lim vars (b :: R) = (.ok (), vars, b :: R) := by
  rw [scanQuery]
  simp only [endsQuery] at hb
  simp [hb]

theorem scanQuery_var {raw : Bytes} {f : Field} (hv : VarText lim raw f) {d : Byte} {R : Bytes}
    (hd : endsQueryValue d = true) (vars : List Field) :
    scanQuery T lim vars (raw ++ d :: R) =
      if d == amp then scanQuery T lim (vars ++ [f]) R
      else scanQuery T lim (vars ++ [f]) (d :: R) := by
  rw [scanQuery_of_ends vars (varText_ends hv _)]
  obtain ⟨n, x, rfl, hn, hx, hfn, hfx⟩ := hv
  have h₁ := scanToken_append (T := T) lim.queryName .queryName
    (show Ends endsQueryName (equals :: (x ++ d :: R)) by simp [Ends, endsQueryName]) hn 0 []
    ((fits_iff_fitsAfter _ _).mp hfn)
  have h₂ := scanToken_append (T := T) lim.queryValue .queryValue
    (show Ends endsQueryValue (d :: R) from hd) hx 0 [] ((fits_iff_fitsAfter _ _).mp hfx)
  rw [List.append_assoc, List.cons_append, h₁]
  simp only [List.reverse_nil, List.nil_append, bne_self_eq_false, Bool.false_eq_true, if_false,
    h₂]

theorem varText_of_scans {D D₁ D₂ name value : Bytes} {d : Byte}
    (hN : scanToken T lim.queryName .queryName true endsQueryName 0 [] D =
      (.ok name, equals :: D₁))
    (hV : scanToken T lim.queryValue .queryValue true endsQueryValue 0 [] D₁ =
      (.ok value, d :: D₂)) :
    ∃ raw, D = raw ++ d :: D₂ ∧ VarText lim raw ⟨name, value⟩ ∧ endsQueryValue d = true := by
  obtain ⟨n, tn, rfl, hn, -, hfn, rfl⟩ := scanToken_ok_split 0 [] D name _ hN
  obtain ⟨x, tx, rfl, hx, hd, hfx, rfl⟩ := scanToken_ok_split 0 [] D₁ value _ hV
  refine ⟨n ++ equals :: x, by simp, ⟨n, x, rfl, ?_, ?_, ?_, ?_⟩, hd⟩ <;>
    simp_all [fits_iff_fitsAfter]

/-- A byte that ends the query ends its last value too, and is no `&`. -/
theorem endsQueryValue_of_endsQuery {d : Byte} (hend : endsQuery d = true) :
    endsQueryValue d = true ∧ (d == amp) = false := by
  have hd' : Byte.isBlank d = true ∨ d = hash := by
    simpa only [endsQuery, Bool.or_eq_true, beq_iff_eq] using hend
  have hd : endsQueryValue d = true := by
    rcases hd' with hb | rfl <;> simp [endsQueryValue, *]
  have hna : (d == amp) = false := by
    rcases hd' with hb | rfl
    · cases hda : d == amp
      · rfl
      · rw [beq_iff_eq] at hda
        subst hda
        exact absurd hb (by decide)
    · decide
  exact ⟨hd, hna⟩

theorem scanQuery_append {rest : Bytes} (hend : Ends endsQuery rest) {raw : Bytes}
    {fs : List Field} (h : QueryText lim raw fs) :
    ∀ vars, scanQuery T lim vars (raw ++ rest) = (.ok (), vars ++ fs, rest) := by
  obtain ⟨d, R, rfl⟩ : ∃ d R, rest = d :: R := by
    cases rest with
    | nil => exact hend.elim
    | cons d R => exact ⟨d, R, rfl⟩
  obtain ⟨hd, hna⟩ := endsQueryValue_of_endsQuery hend
  induction h with
  | nil =>
    intro vars
    rw [List.nil_append, scanQuery_done hend, List.append_nil]
  | @last raw f hv =>
    intro vars
    rw [scanQuery_var hv hd, hna, if_neg Bool.false_ne_true, scanQuery_done hend]
  | @more raw rest' f fs hv _ ih =>
    intro vars
    rw [List.append_assoc, List.cons_append, scanQuery_var hv (by decide)]
    simp only [beq_self_eq_true, if_true]
    rw [ih, List.append_assoc, List.singleton_append]

theorem scanQuery_ok_split {vars vars' : List Field} {D rest : Bytes}
    (h : scanQuery T lim vars D = (.ok (), vars', rest)) :
    ∃ raw fs, D = raw ++ rest ∧ QueryText lim raw fs ∧ Ends endsQuery rest ∧
      vars' = vars ++ fs := by
  fun_induction scanQuery T lim vars D generalizing vars' rest with
  | case2 vars b R hb =>
    cases h
    exact ⟨[], [], rfl, .nil, hb, by simp⟩
  | case8 vars b R _ name c D₁ hN hc value d D₂ hV _ ih =>
    obtain ⟨raw', fs, rfl, hq, hend, rfl⟩ := ih h
    simp only [bne_iff_ne, ne_eq, Decidable.not_not] at hc
    subst hc
    obtain ⟨raw, hD, hv, -⟩ := varText_of_scans hN hV
    refine ⟨raw ++ amp :: raw', ⟨name, value⟩ :: fs, ?_, .more hv hq, hend, by simp⟩
    rw [hD]
    simp_all
  | case9 vars b R _ name c D₁ hN hc value d D₂ hV hd _ =>
    simp only [bne_iff_ne, ne_eq, Decidable.not_not] at hc
    subst hc
    obtain ⟨raw, hD, hv, he⟩ := varText_of_scans hN hV
    have hq : endsQuery d = true := by
      simp only [endsQueryValue, Bool.or_eq_true] at he
      simp only [endsQuery, Bool.or_eq_true]
      rcases he with (he | he) | he
      · exact absurd he hd
      · exact Or.inr he
      · exact Or.inl he
    rw [scanQuery_done hq] at h
    cases h
    exact ⟨raw, [⟨name, value⟩], hD, .last hv, hq, rfl⟩
  | _ => cases h

end Query

/-! ## Versions -/

/-- One more decimal digit after the number `n`. -/
def digitStep (n : Int) (d : Byte) : Int := n * 10 + ((d - 48).toNat : Int)

/-- The number a run of decimal digits spells. -/
def decimal (ds : Bytes) : Int := ds.foldl digitStep 0

/-- `V`: two runs of digits around a dot, at most nine bytes, and the version they spell. -/
def VersionText (raw : Bytes) (v : Version) : Prop :=
  ∃ a b, raw = a ++ dot :: b ∧ a ≠ [] ∧ b ≠ [] ∧ (∀ x ∈ a, Byte.isDigit x = true) ∧
    (∀ x ∈ b, Byte.isDigit x = true) ∧ raw.length ≤ 9 ∧ v = ⟨decimal a, decimal b⟩

theorem isBlank_of_isDigit {b : Byte} (h : Byte.isDigit b = true) : Byte.isBlank b = false := by
  simp only [Byte.isDigit, Bool.and_eq_true, decide_eq_true_eq, UInt8.le_iff_toNat_le] at h
  simp only [Byte.isBlank, Bool.or_eq_false_iff, beq_eq_false_iff_ne, ne_eq, ← UInt8.toNat_inj]
  simp at h ⊢
  omega

theorem ne_dot_of_isDigit {b : Byte} (h : Byte.isDigit b = true) : (b == dot) = false := by
  simp only [Byte.isDigit, Bool.and_eq_true, decide_eq_true_eq, UInt8.le_iff_toNat_le] at h
  simp only [beq_eq_false_iff_ne, ne_eq, ← UInt8.toNat_inj, dot]
  simp at h ⊢
  omega

section Version

variable {T : Stop}

theorem scanWord_append : ∀ (w R : Bytes), scanWord T w (w ++ R) = (.ok (), R)
  | [], _ => rfl
  | w :: ws, R => by
    simp only [List.cons_append, scanWord, bne_self_eq_false, Bool.false_eq_true, if_false]
    exact scanWord_append ws R

theorem scanWord_ok_split : ∀ (w D rest : Bytes), scanWord T w D = (.ok (), rest) → D = w ++ rest
  | [], _, _, h => by cases h; rfl
  | _ :: _, [], _, h => by cases h
  | w :: ws, b :: D, rest, h => by
    by_cases hb : b = w
    · subst hb
      simp only [scanWord, bne_self_eq_false, Bool.false_eq_true, if_false] at h
      rw [scanWord_ok_split ws D rest h, List.cons_append]
    · simp [scanWord, hb] at h

theorem scanNumbers_blank {b : Byte} {D : Bytes} (hb : Byte.isBlank b = true) (room : Nat)
    (seenDot : Bool) (digits : Nat) (major minor : Int) :
    scanNumbers T room seenDot digits major minor (b :: D) =
      (.ok (seenDot, digits, major, minor), b :: D) := by
  cases room <;> simp [scanNumbers, hb]

theorem scanNumbers_digit {b : Byte} {D : Bytes} (hb : Byte.isDigit b = true) (room : Nat)
    (seenDot : Bool) (digits : Nat) (major minor : Int) :
    scanNumbers T (room + 1) seenDot digits major minor (b :: D) =
      if seenDot then scanNumbers T room seenDot (digits + 1) major (digitStep minor b) D
      else scanNumbers T room seenDot (digits + 1) (digitStep major b) minor D := by
  simp only [scanNumbers, isBlank_of_isDigit hb, ne_dot_of_isDigit hb, hb, Bool.false_eq_true,
    if_false, if_true, digitStep]

theorem scanNumbers_dot {D : Bytes} (room : Nat) (digits : Nat) (major minor : Int)
    (hd : digits ≠ 0) :
    scanNumbers T (room + 1) false digits major minor (dot :: D) =
      scanNumbers T room true 0 major minor D := by
  have hb : Byte.isBlank dot = false := by decide
  simp [scanNumbers, hb, hd]

theorem scanNumbers_minor_append {b : Byte} {R : Bytes} (hb : Byte.isBlank b = true) :
    ∀ (ds : Bytes) (room digits : Nat) (major minor : Int), (∀ x ∈ ds, Byte.isDigit x = true) →
      ds.length ≤ room →
      scanNumbers T room true digits major minor (ds ++ b :: R) =
        (.ok (true, digits + ds.length, major, ds.foldl digitStep minor), b :: R)
  | [], room, digits, major, minor, _, _ => by
    rw [List.nil_append, scanNumbers_blank hb]
    rfl
  | x :: ds, room, digits, major, minor, hds, hlen => by
    obtain ⟨room, rfl⟩ : ∃ k, room = k + 1 := ⟨room - 1, by simp at hlen; omega⟩
    rw [List.cons_append, scanNumbers_digit (hds x List.mem_cons_self), if_pos rfl,
      scanNumbers_minor_append hb ds room (digits + 1) major (digitStep minor x)
        (fun y hy => hds y (List.mem_cons_of_mem _ hy)) (by simp at hlen; omega)]
    simp only [List.length_cons, List.foldl_cons]
    rw [show digits + 1 + ds.length = digits + (ds.length + 1) by omega]

theorem scanNumbers_major_append {D : Bytes} :
    ∀ (a : Bytes) (room digits : Nat) (major minor : Int), (∀ x ∈ a, Byte.isDigit x = true) →
      a.length < room → digits + a.length ≠ 0 →
      scanNumbers T room false digits major minor (a ++ dot :: D) =
        scanNumbers T (room - a.length - 1) true 0 (a.foldl digitStep major) minor D
  | [], room, digits, major, minor, _, hlen, hd => by
    obtain ⟨room, rfl⟩ : ∃ k, room = k + 1 := ⟨room - 1, by simp at hlen; omega⟩
    rw [List.nil_append, scanNumbers_dot room digits major minor (by simpa using hd)]
    rfl
  | x :: a, room, digits, major, minor, ha, hlen, _ => by
    obtain ⟨room, rfl⟩ : ∃ k, room = k + 1 := ⟨room - 1, by simp at hlen; omega⟩
    rw [List.cons_append, scanNumbers_digit (ha x List.mem_cons_self), if_neg Bool.false_ne_true,
      scanNumbers_major_append a room (digits + 1) (digitStep major x) minor
        (fun y hy => ha y (List.mem_cons_of_mem _ hy)) (by simp at hlen; omega) (by omega)]
    simp only [List.length_cons, List.foldl_cons]
    congr 1
    omega

theorem scanNumbers_minor_split : ∀ (D : Bytes) (room digits : Nat) (major minor : Int)
    (res : Bool × Nat × Int × Int) (rest : Bytes),
    scanNumbers T room true digits major minor D = (.ok res, rest) →
      ∃ ds, D = ds ++ rest ∧ Ends Byte.isBlank rest ∧ (∀ x ∈ ds, Byte.isDigit x = true) ∧
        ds.length ≤ room ∧ res = (true, digits + ds.length, major, ds.foldl digitStep minor)
  | [], _, _, _, _, _, _, h => by simp [scanNumbers] at h
  | b :: D, room, digits, major, minor, res, rest, h => by
    cases hb : Byte.isBlank b
    · cases room with
      | zero => simp [scanNumbers, hb] at h
      | succ room =>
        cases hd : Byte.isDigit b
        · have hdot : (b == dot) = true ∨ (b == dot) = false := by cases b == dot <;> simp
          rcases hdot with hdot | hdot <;> simp [scanNumbers, hb, hd, hdot] at h
        · rw [scanNumbers_digit hd, if_pos rfl] at h
          obtain ⟨ds, rfl, hend, hds, hlen, rfl⟩ := scanNumbers_minor_split D room _ _ _ res rest h
          refine ⟨b :: ds, rfl, hend, ?_, by simp; omega, ?_⟩
          · intro x hx
            rcases List.mem_cons.mp hx with rfl | hx
            · exact hd
            · exact hds x hx
          · simp only [List.length_cons, List.foldl_cons, Prod.mk.injEq, true_and, and_true]
            omega
    · rw [scanNumbers_blank hb] at h
      cases h
      exact ⟨[], rfl, hb, by simp, by simp, by simp⟩

theorem scanNumbers_major_split : ∀ (D : Bytes) (room digits : Nat) (major minor : Int)
    (res : Bool × Nat × Int × Int) (rest : Bytes),
    scanNumbers T room false digits major minor D = (.ok res, rest) → res.1 = true →
      ∃ a ds, D = a ++ dot :: ds ++ rest ∧ (∀ x ∈ a, Byte.isDigit x = true) ∧
        digits + a.length ≠ 0 ∧ (∀ x ∈ ds, Byte.isDigit x = true) ∧ Ends Byte.isBlank rest ∧
        a.length + 1 + ds.length ≤ room ∧
        res = (true, ds.length, a.foldl digitStep major, ds.foldl digitStep minor)
  | [], _, _, _, _, _, _, h, _ => by simp [scanNumbers] at h
  | b :: D, room, digits, major, minor, res, rest, h, hseen => by
    cases hb : Byte.isBlank b
    · cases room with
      | zero => simp [scanNumbers, hb] at h
      | succ room =>
        cases hd : Byte.isDigit b
        · cases hdot : b == dot
          · simp [scanNumbers, hb, hd, hdot] at h
          · rw [beq_iff_eq] at hdot
            subst hdot
            cases digits with
            | zero => simp [scanNumbers, hb] at h
            | succ digits =>
              rw [scanNumbers_dot room _ major minor (by omega)] at h
              obtain ⟨ds, rfl, hend, hds, hlen, rfl⟩ :=
                scanNumbers_minor_split D room 0 major minor res rest h
              exact ⟨[], ds, rfl, by simp, by simp, hds, hend, by simp; omega, by simp⟩
        · rw [scanNumbers_digit hd, if_neg Bool.false_ne_true] at h
          obtain ⟨a, ds, rfl, ha, hnz, hds, hend, hlen, rfl⟩ :=
            scanNumbers_major_split D room _ _ minor res rest h hseen
          refine ⟨b :: a, ds, rfl, ?_, by simp, hds, hend, by simp; omega, by simp⟩
          intro x hx
          rcases List.mem_cons.mp hx with rfl | hx
          · exact hd
          · exact ha x hx
    · rw [scanNumbers_blank hb] at h
      cases h
      simp at hseen

theorem scanVersion_append {raw rest : Bytes} {v : Version} (hv : VersionText raw v)
    (hend : Ends Byte.isBlank rest) :
    scanVersion T (Bytes.ofString "HTTP/" ++ raw ++ rest) = (.ok v, rest) := by
  obtain ⟨a, b, rfl, ha, hb, hda, hdb, hlen, rfl⟩ := hv
  obtain ⟨c, R, rfl⟩ : ∃ c R, rest = c :: R := by
    cases rest with
    | nil => exact hend.elim
    | cons c R => exact ⟨c, R, rfl⟩
  simp only [List.length_append, List.length_cons] at hlen
  have ha' : a.length ≠ 0 := by simpa using ha
  have hb' : b.length ≠ 0 := by simpa using hb
  unfold scanVersion
  rw [List.append_assoc, scanWord_append]
  dsimp only
  rw [List.append_assoc, List.cons_append, scanNumbers_major_append a 9 0 0 0 hda (by omega) (by omega),
    scanNumbers_minor_append hend b _ 0 _ 0 hdb (by omega)]
  simp [hb', decimal]

theorem scanVersion_ok_split {D rest : Bytes} {v : Version}
    (h : scanVersion T D = (.ok v, rest)) :
    ∃ raw, D = Bytes.ofString "HTTP/" ++ raw ++ rest ∧ VersionText raw v ∧
      Ends Byte.isBlank rest := by
  unfold scanVersion at h
  rcases hw : scanWord T (Bytes.ofString "HTTP/") D with ⟨e | u, D₁⟩ <;> rw [hw] at h
  · cases h
  cases u
  dsimp only at h
  have hD := scanWord_ok_split _ D D₁ hw
  rcases hn : scanNumbers T 9 false 0 0 0 D₁ with ⟨e | ⟨seenDot, digits, major, minor⟩, D₂⟩ <;>
    rw [hn] at h
  · cases h
  cases hc : (!seenDot || digits == 0)
  · simp only [hc, Bool.false_eq_true, if_false, Prod.mk.injEq, Except.ok.injEq] at h
    obtain ⟨rfl, rfl⟩ := h
    simp only [Bool.or_eq_false_iff, Bool.not_eq_false', beq_eq_false_iff_ne] at hc
    obtain ⟨rfl, hdigits⟩ := hc
    obtain ⟨a, ds, rfl, ha, hna, hds, hend, hlen, hres⟩ :=
      scanNumbers_major_split D₁ 9 0 0 0 _ D₂ hn rfl
    simp only [Prod.mk.injEq, true_and] at hres
    obtain ⟨rfl, rfl, rfl⟩ := hres
    refine ⟨a ++ dot :: ds, by simp [hD], ⟨a, ds, rfl, ?_, ?_, ha, hds, ?_, rfl⟩, hend⟩
    · simpa using hna
    · simpa using hdigits
    · simp; omega
  · simp [hc] at h

end Version

end Reading

end StaticHttp
