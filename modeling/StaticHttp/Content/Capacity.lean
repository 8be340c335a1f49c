/-!
# Table capacities

Slot arrays have a power-of-two length. `nextPowerOfTwo n` is the least power of two that is
at least `n` (and one for `n` below one); `sizeFor n` is the capacity that holds `n` entries
with a free slot left over.

Main statements:
* `nextPowerOfTwo_isPow`: the answer is a power of two.
* `le_nextPowerOfTwo`: it is at least `n`.
-/

namespace StaticHttp

namespace Content

/-- Doubles `c` while it stays below `n`, for at most `fuel` doublings. -/
def doubleUntil (n : Nat) : Nat → Nat → Nat
  | 0, c => c
  | fuel + 1, c => if c < n then doubleUntil n fuel (2 * c) else c

/-- The least power of two that is at least `n`; one when `n` is below one. -/
def nextPowerOfTwo (n : Int) : Nat := doubleUntil n.toNat n.toNat 1

/-- The capacity of a table built for `n` entries: one more than `n`, to the next power of
two. -/
def sizeFor (n : Int) : Nat := nextPowerOfTwo (n + 1)

theorem doubleUntil_isPow (n : Nat) :
    ∀ (fuel c : Nat), (∃ k, c = Nat.pow 2 k) → ∃ k, doubleUntil n fuel c = Nat.pow 2 k
  | 0, _, h => h
  | fuel + 1, c, ⟨k, hk⟩ => by
    rw [doubleUntil]
    split
    · exact doubleUntil_isPow n fuel (2 * c) ⟨k + 1, by rw [hk]; exact Nat.mul_comm 2 _⟩
    · exact ⟨k, hk⟩

theorem le_doubleUntil (n : Nat) :
    ∀ (fuel c : Nat), 1 ≤ c → n ≤ c + fuel → n ≤ doubleUntil n fuel c
  | 0, c, _, h => by simpa [doubleUntil] using h
  | fuel + 1, c, hc, h => by
    rw [doubleUntil]
    split
    · exact le_doubleUntil n fuel (2 * c) (by omega) (by omega)
    · omega

theorem nextPowerOfTwo_isPow (n : Int) : ∃ k, nextPowerOfTwo n = Nat.pow 2 k :=
  doubleUntil_isPow _ _ 1 ⟨0, rfl⟩

theorem le_nextPowerOfTwo (n : Int) : n ≤ nextPowerOfTwo n := by
  have h := le_doubleUntil n.toNat n.toNat 1 (Nat.le_refl 1) (by omega)
  unfold nextPowerOfTwo
  omega

end Content

end StaticHttp
