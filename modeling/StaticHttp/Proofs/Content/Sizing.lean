import Mathlib
import StaticHttp.Proofs.Content.WellFormed

/-!
# Sizing a table for its entries

`nextPowerOfTwo n` starts from one and doubles while it is below `n`. It is the least power of
two at or above `max n 1`. The loop runs on signed 64-bit words, where a shift past `2 ^ 62`
wraps: `shiftUntil` is that loop, and for every word up to `2 ^ 62` it stops within 62 shifts
with the same value, so no shift wraps. Above `2 ^ 62` it never stops.

A table for `n` entries is made with `sizeFor n = nextPowerOfTwo (n + 1)` slots, rounded once
more to a power of two, which changes nothing. Adding an entry doubles the table only when one
more entry would leave no slot empty; `n` additions count at most `n` entries, so a table
built from `n` entries never doubles, however many of their paths repeat.

Main statements:
* `nextPowerOfTwo_least`: the least power of two at or above `max n 1`.
* `shiftUntil_nextPowerOfTwo`, `shiftUntil_sizeFor`: the loop on words gives it, without
  wrapping, up to `2 ^ 62`; `shiftUntil_runs_on` shows it never stops above.
* `build_capacity`: a built table keeps the capacity it was made with.
* `table_sizing_exact`: the three together.
-/

namespace StaticHttp

namespace Content

/-! ## The least power of two -/

theorem isPowerOfTwo_of_pow {c : Nat} (h : ∃ k, c = Nat.pow 2 k) : c.isPowerOfTwo := by
  obtain ⟨k, hk⟩ := h
  exact ⟨k, by rw [hk, Nat.pow_eq]⟩

theorem isPowerOfTwo_two_mul {c : Nat} (hc : c.isPowerOfTwo) : (2 * c).isPowerOfTwo :=
  Nat.mul_comm c 2 ▸ Nat.isPowerOfTwo_mul_two_of_isPowerOfTwo hc

/-- Below a power of two, a smaller power of two has room to double. -/
theorem two_mul_le_of_lt {c p : Nat} (hc : c.isPowerOfTwo) (hp : p.isPowerOfTwo) (h : c < p) :
    2 * c ≤ p := by
  obtain ⟨i, rfl⟩ := hc
  obtain ⟨k, rfl⟩ := hp
  have hik : i < k := (Nat.pow_lt_pow_iff_right (by decide)).1 h
  calc 2 * 2 ^ i = 2 ^ (i + 1) := by rw [Nat.pow_succ, Nat.mul_comm]
    _ ≤ 2 ^ k := Nat.pow_le_pow_right (by decide) hik

/-- The loop never passes a power of two that is at least `n`: doubling stops on reaching it. -/
theorem doubleUntil_le {n p : Nat} (hp : p.isPowerOfTwo) (hn : n ≤ p) :
    ∀ (fuel c : Nat), c.isPowerOfTwo → c ≤ p → doubleUntil n fuel c ≤ p
  | 0, _, _, hc => hc
  | fuel + 1, c, hpow, hc => by
    rw [doubleUntil]
    split
    · exact doubleUntil_le hp hn fuel _ (isPowerOfTwo_two_mul hpow)
        (two_mul_le_of_lt hpow hp (by omega))
    · exact hc

/-- With `fuel` doublings, the loop from `c` reaches `n` once `c · 2 ^ fuel` does. -/
theorem le_doubleUntil_of_le_mul {n : Nat} :
    ∀ (fuel c : Nat), n ≤ c * 2 ^ fuel → n ≤ doubleUntil n fuel c
  | 0, c, h => by simpa [doubleUntil] using h
  | fuel + 1, c, h => by
    rw [doubleUntil]
    split
    · apply le_doubleUntil_of_le_mul fuel (2 * c)
      rw [Nat.pow_succ] at h
      calc n ≤ c * (2 ^ fuel * 2) := h
        _ = 2 * c * 2 ^ fuel := by ring
    · omega

theorem isPowerOfTwo_nextPowerOfTwo (n : Int) : (nextPowerOfTwo n).isPowerOfTwo :=
  isPowerOfTwo_of_pow (nextPowerOfTwo_isPow n)

/-- **`nextPowerOfTwo n` is the least power of two at or above `max n 1`.** -/
theorem nextPowerOfTwo_least (n : Int) :
    (nextPowerOfTwo n).isPowerOfTwo ∧ max n 1 ≤ nextPowerOfTwo n ∧
      ∀ p : Nat, p.isPowerOfTwo → max n 1 ≤ p → nextPowerOfTwo n ≤ p := by
  have hpos : 1 ≤ nextPowerOfTwo n := Nat.pos_of_isPowerOfTwo (isPowerOfTwo_nextPowerOfTwo n)
  refine ⟨isPowerOfTwo_nextPowerOfTwo n, max_le (le_nextPowerOfTwo n) (by exact_mod_cast hpos),
    fun p hp hle => ?_⟩
  exact doubleUntil_le hp (by omega) _ 1 ⟨0, rfl⟩ (by omega)

/-- A power of two is its own next power of two: rounding twice is rounding once. -/
theorem nextPowerOfTwo_of_isPowerOfTwo {p : Nat} (hp : p.isPowerOfTwo) :
    nextPowerOfTwo p = p := by
  have hpos : 1 ≤ p := Nat.pos_of_isPowerOfTwo hp
  obtain ⟨-, hge, hleast⟩ := nextPowerOfTwo_least p
  exact Nat.le_antisymm (hleast p hp (by omega)) (by omega)

/-- `sizeFor n` leaves room above `n`. -/
theorem lt_sizeFor (n : Int) : n < sizeFor n := by
  have h := le_nextPowerOfTwo (n + 1)
  unfold sizeFor
  omega

/-! ## The loop on machine words -/

/-- The loop of `nextPowerOfTwo` as the machine runs it, on signed 64-bit words: while `c` is
below `n`, it shifts `c` left by one, wrapping past `2 ^ 63 - 1`. It is `none` when the loop
has not stopped after `fuel` shifts. -/
def shiftUntil (n : Int64) : Nat → Int64 → Option Int64
  | 0, c => if c < n then none else some c
  | fuel + 1, c => if c < n then shiftUntil n fuel (c <<< 1) else some c

/-- A shift left by one is a doubling, wrapping like it. -/
theorem shiftLeft_one_eq_mul_two (c : Int64) : c <<< 1 = c * 2 := by
  apply Int64.toBitVec_inj.mp
  rw [Int64.toBitVec_shiftLeft, Int64.toBitVec_mul]
  have h1 : (1 : Int64).toBitVec.smod 64 = 1 := by decide
  have h2 : (2 : Int64).toBitVec = 2 := by decide
  rw [h1, h2, BitVec.shiftLeft_eq', BitVec.shiftLeft_eq_mul_twoPow]
  congr 1

/-- Up to `2 ^ 62`, a power of two doubles on words as on numbers. -/
theorem shiftLeft_one_ofNat {c : Nat} (hc : 2 * c ≤ 2 ^ 62) :
    Int64.ofNat c <<< 1 = Int64.ofNat (2 * c) := by
  apply Int64.toInt_inj.mp
  rw [shiftLeft_one_eq_mul_two, Int64.toInt_mul, Int64.toInt_ofNat_of_lt (by omega),
    Int64.toInt_ofNat_of_lt (by omega)]
  have h2 : (2 : Int64).toInt = 2 := by decide
  rw [h2, Int.bmod_eq_of_le (by omega) (by omega)]
  push_cast
  ring

theorem ofNat_lt_iff {c : Nat} {n : Int64} (hc : c < 2 ^ 63) :
    Int64.ofNat c < n ↔ (c : Int) < n.toInt := by
  rw [Int64.lt_iff_toInt_lt, Int64.toInt_ofNat_of_lt hc]

/-- With enough shifts, the loop on words runs as the loop on numbers does, from a power of two
at most `2 ^ 62`: every shift it makes is from a value below `n`, so at most `2 ^ 61`. -/
theorem shiftUntil_ofNat {n : Int64} (hn : n.toInt ≤ 2 ^ 62) :
    ∀ (fuel c : Nat), c.isPowerOfTwo → c ≤ 2 ^ 62 → n.toInt ≤ c * 2 ^ fuel →
      shiftUntil n fuel (Int64.ofNat c) = some (Int64.ofNat (doubleUntil n.toInt.toNat fuel c))
  | 0, c, _, hc, h => by
    have hlt : ¬ Int64.ofNat c < n := by rw [ofNat_lt_iff (by omega)]; simp at h; omega
    simp [shiftUntil, hlt, doubleUntil]
  | fuel + 1, c, hpow, hc, h => by
    rw [shiftUntil, doubleUntil]
    by_cases hlt : (c : Int) < n.toInt
    · -- `c` is below `n ≤ 2 ^ 62`, so it doubles without wrapping
      have hdouble : 2 * c ≤ 2 ^ 62 :=
        two_mul_le_of_lt hpow ⟨62, rfl⟩ (by omega)
      rw [if_pos ((ofNat_lt_iff (by omega)).2 hlt), if_pos (by omega), shiftLeft_one_ofNat hdouble]
      apply shiftUntil_ofNat hn fuel _ (isPowerOfTwo_two_mul hpow) hdouble
      calc n.toInt ≤ (c : Int) * 2 ^ (fuel + 1) := h
        _ = ((2 * c : Nat) : Int) * 2 ^ fuel := by push_cast; ring
    · rw [if_neg (by rw [ofNat_lt_iff (by omega)]; exact hlt), if_neg (by omega)]

/-- **The loop on words computes `nextPowerOfTwo`.** For every word `n` up to `2 ^ 62`, the
loop stops within 62 shifts, and its value is `nextPowerOfTwo n`, which fits in a word: no
shift wrapped. -/
theorem shiftUntil_nextPowerOfTwo (n : Int64) (hn : n.toInt ≤ 2 ^ 62) :
    shiftUntil n 62 1 = some (Int64.ofNat (nextPowerOfTwo n.toInt)) ∧
      (Int64.ofNat (nextPowerOfTwo n.toInt)).toInt = nextPowerOfTwo n.toInt := by
  have hrun := shiftUntil_ofNat hn 62 1 ⟨0, rfl⟩ (by norm_num) (by norm_num; exact hn)
  -- both runs stop at the least power of two at or above `n`
  set m := n.toInt.toNat
  have hwide : doubleUntil m 62 1 ≤ nextPowerOfTwo n.toInt := by
    obtain ⟨hpow, hge, -⟩ := nextPowerOfTwo_least n.toInt
    exact doubleUntil_le hpow (by omega) 62 1 ⟨0, rfl⟩ (by omega)
  have hnarrow : nextPowerOfTwo n.toInt ≤ doubleUntil m 62 1 := by
    obtain ⟨-, -, hleast⟩ := nextPowerOfTwo_least n.toInt
    have hpow : (doubleUntil m 62 1).isPowerOfTwo := isPowerOfTwo_of_pow (doubleUntil_isPow m 62 1 ⟨0, rfl⟩)
    have hge : m ≤ doubleUntil m 62 1 := le_doubleUntil_of_le_mul 62 1 (by omega)
    exact hleast _ hpow (max_le (by omega) (by exact_mod_cast Nat.pos_of_isPowerOfTwo hpow))
  have heq : doubleUntil m 62 1 = nextPowerOfTwo n.toInt := Nat.le_antisymm hwide hnarrow
  have hfits : nextPowerOfTwo n.toInt < 2 ^ 63 := by
    have := doubleUntil_le (n := m) ⟨62, rfl⟩ (by omega) 62 1 ⟨0, rfl⟩ (by norm_num)
    omega
  refine ⟨by rw [← heq]; exact hrun, Int64.toInt_ofNat_of_lt hfits⟩

/-- For every word `n` up to `2 ^ 62 - 1`, `n + 1` does not wrap and the loop from it stops
with `sizeFor n`. -/
theorem shiftUntil_sizeFor (n : Int64) (hn : n.toInt ≤ 2 ^ 62 - 1) :
    (n + 1).toInt = n.toInt + 1 ∧ shiftUntil (n + 1) 62 1 = some (Int64.ofNat (sizeFor n.toInt)) := by
  have hsucc : (n + 1).toInt = n.toInt + 1 := by
    rw [Int64.toInt_add]
    have h1 : (1 : Int64).toInt = 1 := by decide
    have hlow := Int64.le_toInt n
    rw [h1, Int.bmod_eq_of_le (by omega) (by omega)]
  refine ⟨hsucc, ?_⟩
  have h := (shiftUntil_nextPowerOfTwo (n + 1) (by omega)).1
  rw [hsucc] at h
  exact h

/-- The words the loop holds when `n` is above `2 ^ 62`: the powers of two up to `2 ^ 62`,
the word that a shift of `2 ^ 62` wraps to, and zero. -/
def Wrapping (c : Int64) : Prop := c = 0 ∨ c = Int64.minValue ∨ ∃ i ≤ 62, c = Int64.ofNat (2 ^ i)

theorem Wrapping.toInt_le {c : Int64} (h : Wrapping c) : c.toInt ≤ 2 ^ 62 := by
  rcases h with rfl | rfl | ⟨i, hi, rfl⟩
  · decide
  · decide
  · have hpow : 2 ^ i ≤ 2 ^ 62 := Nat.pow_le_pow_right (by decide) hi
    rw [Int64.toInt_ofNat_of_lt (by omega)]
    exact_mod_cast hpow

/-- A shift keeps the loop among these words: a power of two doubles up to `2 ^ 62`, which
wraps to the least word, which wraps to zero. -/
theorem Wrapping.shift {c : Int64} (h : Wrapping c) : Wrapping (c <<< 1) := by
  rcases h with rfl | rfl | ⟨i, hi, rfl⟩
  · exact Or.inl (by decide)
  · exact Or.inl (by decide)
  · rcases Nat.lt_or_ge i 62 with hlt | hge
    · have hpow : 2 * 2 ^ i ≤ 2 ^ 62 := by
        rw [← Nat.pow_succ']
        exact Nat.pow_le_pow_right (by decide) hlt
      refine Or.inr (Or.inr ⟨i + 1, hlt, ?_⟩)
      rw [shiftLeft_one_ofNat hpow, Nat.pow_succ']
    · obtain rfl : i = 62 := by omega
      exact Or.inr (Or.inl (by decide))

theorem shiftUntil_none_of_wrapping {n : Int64} (hn : 2 ^ 62 < n.toInt) :
    ∀ (fuel : Nat) (c : Int64), Wrapping c → shiftUntil n fuel c = none := by
  intro fuel
  induction fuel with
  | zero =>
    intro c hc
    have hlt : c < n := Int64.lt_iff_toInt_lt.2 (by have := hc.toInt_le; omega)
    simp [shiftUntil, hlt]
  | succ fuel ih =>
    intro c hc
    have hlt : c < n := Int64.lt_iff_toInt_lt.2 (by have := hc.toInt_le; omega)
    rw [shiftUntil, if_pos hlt]
    exact ih _ hc.shift

/-- Above `2 ^ 62` the loop on words never stops: `c` runs through the powers of two up to
`2 ^ 62`, wraps to `-2 ^ 63`, then to zero, and stays there, always below `n`. -/
theorem shiftUntil_runs_on (n : Int64) (hn : 2 ^ 62 < n.toInt) (fuel : Nat) :
    shiftUntil n fuel 1 = none :=
  shiftUntil_none_of_wrapping hn fuel 1 (Or.inr (Or.inr ⟨0, by decide, rfl⟩))

/-! ## Building without growth -/

namespace Table

theorem grows_placeFrom (e : Entry) :
    ∀ (k i : Nat) (t : Table), (placeFrom e k i t).grows = t.grows
  | 0, _, _ => rfl
  | k + 1, i, t => by
    rcases hs : t.slots[i]? with _ | _ | x
    · simp [placeFrom, hs]
    · simp [placeFrom, hs]
    · by_cases hm : x.hash = e.hash ∧ x.path = e.path
      · simp [placeFrom, hs, hm.1, hm.2]
      · rw [placeFrom_succ_of_pass hs hm]
        exact grows_placeFrom e k _ t

/-- Placing counts at most one more entry, whatever the table holds. -/
theorem count_placeFrom_le (e : Entry) :
    ∀ (k i : Nat) (t : Table), (placeFrom e k i t).count ≤ t.count + 1
  | 0, _, _ => Nat.le_succ _
  | k + 1, i, t => by
    rcases hs : t.slots[i]? with _ | _ | x
    · simp [placeFrom, hs]
    · simp [placeFrom, hs]
    · by_cases hm : x.hash = e.hash ∧ x.path = e.path
      · simp [placeFrom, hs, hm.1, hm.2]
      · rw [placeFrom_succ_of_pass hs hm]
        exact count_placeFrom_le e k _ t

/-- With room for one more entry and a slot to spare, adding an entry only places it. -/
theorem insert_of_room {t : Table} {e : Entry} (h : t.count + 1 < t.capacity) :
    t.insert e = t.place e := by
  unfold insert
  split
  · rw [growForOneMore, if_neg (by omega)]
  · rfl

/-- Adding entries to a table with room for all of them and a slot to spare never doubles it.
The room is the invariant: each addition counts at most one entry, and uses up one entry of
the room. -/
theorem foldl_insert_of_room : ∀ (L : List Entry) (t : Table), t.count + L.length < t.capacity →
    (L.foldl insert t).capacity = t.capacity ∧ (L.foldl insert t).grows = t.grows
  | [], _, _ => ⟨rfl, rfl⟩
  | e :: L, t, h => by
    simp only [List.length_cons] at h
    have hins := insert_of_room (e := e) (by omega : t.count + 1 < t.capacity)
    have hcap : (t.insert e).capacity = t.capacity := by rw [hins]; exact capacity_place t e
    have hgrows : (t.insert e).grows = t.grows := by rw [hins]; exact grows_placeFrom e _ _ t
    have hcount : (t.insert e).count ≤ t.count + 1 := by rw [hins]; exact count_placeFrom_le e _ _ t
    obtain ⟨h₁, h₂⟩ := foldl_insert_of_room L (t.insert e) (by omega)
    exact ⟨h₁.trans hcap, h₂.trans hgrows⟩

/-- **A built table never doubles.** The table built from any list of `n` entries has the
`max 2 (nextPowerOfTwo (n + 1))` slots it was made with and has doubled no time, whatever the
paths and hashes of the entries, repeated paths included. -/
theorem build_capacity (es : List Entry) :
    (build es).capacity = max 2 (nextPowerOfTwo (es.length + 1)) ∧ (build es).grows = 0 := by
  have hround : nextPowerOfTwo (sizeFor es.length) = nextPowerOfTwo (es.length + 1) :=
    nextPowerOfTwo_of_isPowerOfTwo (isPowerOfTwo_nextPowerOfTwo _)
  have hcap : (empty (sizeFor es.length)).capacity = max 2 (nextPowerOfTwo (es.length + 1)) := by
    simp only [empty, capacity, Array.size_replicate, hround]
  have hroom : (empty (sizeFor es.length)).count + es.length <
      (empty (sizeFor es.length)).capacity := by
    have h := lt_sizeFor es.length
    rw [hcap]
    show 0 + es.length < max 2 (nextPowerOfTwo (es.length + 1))
    have := le_nextPowerOfTwo ((es.length : Int) + 1)
    omega
  obtain ⟨h₁, h₂⟩ := foldl_insert_of_room es _ hroom
  exact ⟨h₁.trans hcap, h₂⟩

end Table

/-- **Tables are sized exactly.** `nextPowerOfTwo n` is the least power of two at or above
`max n 1`. For every word `n` up to `2 ^ 62`, the loop on signed 64-bit words stops within 62
shifts with that value, which fits in a word, so no shift wraps. `sizeFor n` is
`nextPowerOfTwo (n + 1)` and lies above `n`; for every word `n` up to `2 ^ 62 - 1`, `n + 1`
does not wrap and the loop from it gives `sizeFor n`. A table built from any list of `n`
entries has `max 2 (nextPowerOfTwo (n + 1))` slots and never doubled, whatever the paths,
repeated ones included. -/
theorem table_sizing_exact :
    (∀ n : Int, (nextPowerOfTwo n).isPowerOfTwo ∧ max n 1 ≤ nextPowerOfTwo n ∧
      ∀ p : Nat, p.isPowerOfTwo → max n 1 ≤ p → nextPowerOfTwo n ≤ p) ∧
    (∀ n : Int64, n.toInt ≤ 2 ^ 62 →
      shiftUntil n 62 1 = some (Int64.ofNat (nextPowerOfTwo n.toInt)) ∧
        (Int64.ofNat (nextPowerOfTwo n.toInt)).toInt = nextPowerOfTwo n.toInt) ∧
    (∀ n : Int, sizeFor n = nextPowerOfTwo (n + 1) ∧ n < sizeFor n) ∧
    (∀ n : Int64, n.toInt ≤ 2 ^ 62 - 1 →
      (n + 1).toInt = n.toInt + 1 ∧ shiftUntil (n + 1) 62 1 = some (Int64.ofNat (sizeFor n.toInt))) ∧
    ∀ es : List Entry, (Table.build es).capacity = max 2 (nextPowerOfTwo (es.length + 1)) ∧
      (Table.build es).grows = 0 :=
  ⟨nextPowerOfTwo_least, shiftUntil_nextPowerOfTwo, fun n => ⟨rfl, lt_sizeFor n⟩,
    shiftUntil_sizeFor, Table.build_capacity⟩

/-- At a thousand the loop on words stops at 1024, and the loop for a table of 999 entries
also stops at 1024. -/
theorem table_sizing_at_thousand :
    (1000 : Int64).toInt ≤ 2 ^ 62 ∧ shiftUntil 1000 62 1 = some 1024 ∧
      (999 : Int64).toInt ≤ 2 ^ 62 - 1 ∧ shiftUntil (999 + 1) 62 1 = some 1024 := by
  have h₁ : (1000 : Int64).toInt ≤ 2 ^ 62 := by decide
  have h₂ : (999 : Int64).toInt ≤ 2 ^ 62 - 1 := by decide
  refine ⟨h₁, ?_, h₂, ?_⟩
  · rw [(table_sizing_exact.2.1 1000 h₁).1]
    decide
  · rw [(table_sizing_exact.2.2.2.1 999 h₂).2]
    decide

end Content

end StaticHttp
