import Mathlib.Data.Finset.Card
import StaticHttp.Proofs.Content.Loaded

/-!
# The path table's representation invariant

A table is well formed when it is valid (`Table.Valid`: each entry's hash is its path's, no
path is stored twice, each entry can be reached from its home slot, the count is the number of
entries and below the capacity) and its capacity is a power of two of at least two. On such a
table the home slot of a hash, and the slot after a slot, are what masking with one less than
the capacity gives, the way the table is indexed.

Doubling is the one operation that does not need a well-formed table. It re-places the entries
of whatever slot array it is given, in slot order, so it also serves a slot array written slot
by slot: an entry stored twice, an entry away from its probe run, a count that does not match.
As long as each entry's hash is its path's and the capacity is a power of two, the doubled
table is well formed, keeps for each path the entry that came last in slot order, and counts
each path once.

Main statements:
* `Table.WellFormed.home_eq_and_mask`, `Table.WellFormed.nextSlot_eq_and_mask`: slots are
  found by masking.
* `Table.WellFormed.insert`: adding an entry keeps a table well formed.
* `Table.grow_wellFormed`: doubling any slot array of entries with correct hashes gives a well
  formed table that keeps the last entry of each path.
* `table_representation_invariant`: a new table is well formed, adding keeps it so, lookups on
  it are exact, and doubling repairs any slot array.
-/

namespace StaticHttp

namespace Content

namespace Table

variable {t : Table} {e : Entry}

/-! ## Sizes -/

/-- The mask that folds a hash or a slot number into the slot range: one less than the
capacity. -/
def mask (t : Table) : Nat := t.capacity - 1

/-- On a power-of-two capacity, masking is taking the remainder. -/
theorem and_mask_eq_mod (hp : t.capacity.isPowerOfTwo) (x : Nat) :
    x &&& t.mask = x % t.capacity := by
  obtain ⟨k, hk⟩ := hp
  rw [mask, hk, Nat.and_two_pow_sub_one_eq_mod]

theorem capacity_pos_of_isPowerOfTwo (hp : t.capacity.isPowerOfTwo) : 0 < t.capacity := by
  obtain ⟨k, hk⟩ := hp
  rw [hk]
  exact Nat.two_pow_pos k

theorem isPowerOfTwo_mul_pow {c : Nat} (hc : c.isPowerOfTwo) (j : Nat) :
    (c * Nat.pow 2 j).isPowerOfTwo := by
  obtain ⟨k, rfl⟩ := hc
  exact ⟨k + j, by rw [Nat.pow_eq, Nat.pow_add]⟩

theorem length_entries_le (t : Table) : t.entries.length ≤ t.capacity := by
  unfold entries capacity
  rw [← Array.length_toList]
  exact List.length_filterMap_le _ _

theorem capacity_placeFrom (e : Entry) :
    ∀ (k i : Nat) (t : Table), (placeFrom e k i t).capacity = t.capacity
  | 0, _, _ => rfl
  | k + 1, i, t => by
    rcases hs : t.slots[i]? with _ | _ | x
    · simp [placeFrom, hs]
    · simp [placeFrom, hs, capacity]
    · by_cases hm : x.hash = e.hash ∧ x.path = e.path
      · simp [placeFrom, hs, hm.1, hm.2, capacity]
      · rw [placeFrom_succ_of_pass hs hm]
        exact capacity_placeFrom e k _ t

theorem capacity_place (t : Table) (e : Entry) : (t.place e).capacity = t.capacity :=
  capacity_placeFrom e _ _ t

theorem capacity_foldl_place :
    ∀ (L : List Entry) (acc : Table), (L.foldl place acc).capacity = acc.capacity
  | [], _ => rfl
  | x :: L, acc => (capacity_foldl_place L (acc.place x)).trans (capacity_place acc x)

/-- Doubling doubles the slots, whatever they hold. -/
theorem capacity_grow (t : Table) : t.grow.capacity = 2 * t.capacity := by
  unfold grow
  rw [capacity_foldl_place]
  simp [capacity]

theorem isPowerOfTwo_grow (hp : t.capacity.isPowerOfTwo) : t.grow.capacity.isPowerOfTwo := by
  obtain ⟨k, hk⟩ := hp
  exact ⟨k + 1, by rw [capacity_grow, hk, Nat.pow_succ, Nat.mul_comm]⟩

theorem capacity_blank (m c g : Nat) :
    (⟨Array.replicate m none, c, g⟩ : Table).capacity = m := by
  simp [capacity]

theorem growForOneMore_capacity :
    ∀ (k : Nat) (t : Table), ∃ j, (growForOneMore k t).capacity = t.capacity * Nat.pow 2 j
  | 0, t => ⟨0, by simp [growForOneMore]⟩
  | k + 1, t => by
    rw [growForOneMore]
    split
    · obtain ⟨j, hj⟩ := growForOneMore_capacity k t.grow
      refine ⟨j + 1, ?_⟩
      rw [hj, capacity_grow, mul_pow_two_succ]
    · exact ⟨0, by simp⟩

/-- Adding an entry leaves the capacity doubled some number of times. -/
theorem insert_capacity (t : Table) (e : Entry) :
    ∃ j, (t.insert e).capacity = t.capacity * Nat.pow 2 j := by
  unfold insert
  split
  · rw [capacity_place]
    exact growForOneMore_capacity _ t
  · exact ⟨0, by rw [capacity_place]; simp⟩

/-! ## The invariant -/

/-- The representation invariant: a valid table whose capacity is a power of two of at least
two. -/
structure WellFormed (t : Table) : Prop extends t.Valid where
  two_le : 2 ≤ t.capacity
  isPowerOfTwo : t.capacity.isPowerOfTwo

/-- The home slot of a hash is the hash masked. -/
theorem WellFormed.home_eq_and_mask (hw : t.WellFormed) (h : UInt64) :
    t.home h = h.toNat &&& t.mask := by
  rw [and_mask_eq_mod hw.isPowerOfTwo]
  rfl

/-- The slot after a slot is one more, masked. -/
theorem WellFormed.nextSlot_eq_and_mask (hw : t.WellFormed) (i : Nat) :
    t.nextSlot i = (i + 1) &&& t.mask := by
  rw [and_mask_eq_mod hw.isPowerOfTwo]
  rfl

theorem empty_wellFormed (c : Int) : (empty c).WellFormed := by
  obtain ⟨htwo, k, hk⟩ := capacity_empty c
  exact ⟨empty_valid c, htwo, k, by rw [hk, Nat.pow_eq]⟩

/-- Adding an entry whose hash is its path's keeps a table well formed. -/
theorem WellFormed.insert (hw : t.WellFormed) (hhash : e.hash = pathHash e.path) :
    (t.insert e).WellFormed := by
  obtain ⟨j, hj⟩ := insert_capacity t e
  have hpow := isPowerOfTwo_mul_pow hw.isPowerOfTwo j
  have hle : t.capacity ≤ t.capacity * Nat.pow 2 j :=
    Nat.le_mul_of_pos_right _ (Nat.two_pow_pos j)
  refine ⟨(insert_spec hw.toValid hhash).1, ?_, ?_⟩
  · rw [hj]
    exact Nat.le_trans hw.two_le hle
  · rw [hj]
    exact hpow

/-! ## Placing into a valid table, path by path -/

/-- The paths of a list of entries, as a set. -/
def pathSet (L : List Entry) : Finset Bytes := (L.map Entry.path).toFinset

/-- A valid table counts each stored path once. -/
theorem Valid.card_paths (hv : t.Valid) : (pathSet t.entries).card = t.count := by
  rw [pathSet, List.toFinset_card_of_nodup hv.nodup_paths, List.length_map, hv.count_eq]

section Place

variable (hv : t.Valid) (hhash : e.hash = pathHash e.path)
  (hroom : t.find? e.path = none → t.count + 1 < t.capacity)
include hv hhash hroom

/-- After placing, the stored paths are those before and the new entry's. -/
theorem mem_paths_place (p : Bytes) :
    p ∈ (t.place e).entries.map Entry.path ↔ p = e.path ∨ p ∈ t.entries.map Entry.path := by
  obtain ⟨-, hperm, -⟩ := place_spec hv hhash hroom
  rw [List.mem_map, List.mem_map]
  simp only [hperm.mem_iff, List.mem_cons, List.mem_filter, bne_iff_ne, ne_eq]
  constructor
  · rintro ⟨y, rfl | ⟨hy, -⟩, rfl⟩
    · exact Or.inl rfl
    · exact Or.inr ⟨y, hy, rfl⟩
  · rintro (rfl | ⟨y, hy, rfl⟩)
    · exact ⟨e, Or.inl rfl, rfl⟩
    · by_cases hye : y.path = e.path
      · exact ⟨e, Or.inl rfl, hye.symm⟩
      · exact ⟨y, Or.inr ⟨hy, hye⟩, rfl⟩

/-- After placing, a lookup answers the new entry under its path and as before elsewhere. -/
theorem find?_place (p : Bytes) :
    (t.place e).find? p = if e.path = p then some e else t.find? p := by
  obtain ⟨hv', hperm, -⟩ := place_spec hv hhash hroom
  apply Option.ext
  intro y
  rw [find?_eq_some_iff hv', hperm.mem_iff, List.mem_cons, List.mem_filter, bne_iff_ne]
  by_cases hp : e.path = p
  · rw [if_pos hp, Option.some_inj]
    constructor
    · rintro ⟨rfl | ⟨-, hne⟩, hyp⟩
      · rfl
      · exact absurd (hyp.trans hp.symm) hne
    · rintro rfl
      exact ⟨Or.inl rfl, hp⟩
  · rw [if_neg hp, find?_eq_some_iff hv]
    constructor
    · rintro ⟨rfl | ⟨hy, -⟩, hyp⟩
      · exact absurd hyp hp
      · exact ⟨hy, hyp⟩
    · rintro ⟨hy, rfl⟩
      exact ⟨Or.inr ⟨hy, fun h => hp h.symm⟩, rfl⟩

end Place

/-- Placing entries with correct hashes into a valid table with room for all their paths: the
table stays valid, and holds the paths it held and theirs; a lookup answers the entry placed
last under the path, or what the table answered before. -/
theorem foldl_place_latest : ∀ (L : List Entry) {acc : Table}, acc.Valid →
    (∀ x ∈ L, x.hash = pathHash x.path) → (pathSet (acc.entries ++ L)).card < acc.capacity →
    (L.foldl place acc).Valid ∧ (L.foldl place acc).capacity = acc.capacity ∧
      pathSet (L.foldl place acc).entries = pathSet (acc.entries ++ L) ∧
      ∀ p, (L.foldl place acc).find? p = (Entry.latest L p).or (acc.find? p)
  | [], acc, hv, _, _ => ⟨hv, rfl, by simp, fun p => by simp [Entry.latest]⟩
  | x :: L, acc, hv, hh, hcard => by
    have hx := hh x List.mem_cons_self
    -- a new path still fits: with it the table holds fewer paths than slots
    have hroom : acc.find? x.path = none → acc.count + 1 < acc.capacity := fun hf => by
      have hnew : x.path ∉ pathSet acc.entries := by
        simpa [pathSet] using (find?_eq_none_iff hv).1 hf
      have hsub :
          Insert.insert x.path (pathSet acc.entries) ⊆ pathSet (acc.entries ++ x :: L) := by
        intro p
        simp only [pathSet, Finset.mem_insert, List.mem_toFinset, List.map_append, List.map_cons,
          List.mem_append, List.mem_cons]
        tauto
      have hle := Finset.card_le_card hsub
      rw [Finset.card_insert_of_notMem hnew, hv.card_paths] at hle
      omega
    have hset : pathSet ((acc.place x).entries ++ L) = pathSet (acc.entries ++ x :: L) := by
      ext p
      simp only [pathSet, List.mem_toFinset, List.map_append, List.mem_append,
        mem_paths_place hv hx hroom, List.map_cons, List.mem_cons]
      tauto
    have hv' := (place_spec hv hx hroom).1
    obtain ⟨h₁, h₂, h₃, h₄⟩ :=
      foldl_place_latest L hv' (fun y hy => hh y (List.mem_cons_of_mem x hy))
      (by rw [hset, capacity_place]; exact hcard)
    refine ⟨h₁, h₂.trans (capacity_place acc x), h₃.trans hset, fun p => ?_⟩
    rw [List.foldl_cons, h₄ p, find?_place hv hx hroom p, Entry.latest_cons, Option.or_assoc]
    by_cases hp : x.path = p <;> simp [hp]

/-! ## Doubling a slot array written by hand -/

/-- **Doubling repairs any slot array.** Doubling a table whose capacity is a power of two and
whose entries all carry their path's hash, whatever slots they sit in and whatever its count
says, gives a well-formed table with twice the slots; under each path it keeps the entry that
came last in slot order, and it counts each path once. -/
theorem grow_wellFormed (hp : t.capacity.isPowerOfTwo)
    (hh : ∀ e ∈ t.entries, e.hash = pathHash e.path) :
    t.grow.WellFormed ∧ t.grow.capacity = 2 * t.capacity ∧
      (∀ p, t.grow.find? p = Entry.latest t.entries p) ∧
      t.grow.count = (pathSet t.entries).card := by
  have hpos := capacity_pos_of_isPowerOfTwo hp
  have hblank := blank_valid (2 * t.capacity) (t.grows + 1) (by omega)
  have hcard : (pathSet t.entries).card < 2 * t.capacity := by
    have h₁ : (pathSet t.entries).card ≤ t.entries.length :=
      (List.toFinset_card_le _).trans (List.length_map _).le
    have h₂ := length_entries_le t
    omega
  obtain ⟨hv, -, hset, hfind⟩ := foldl_place_latest t.entries hblank hh
    (by rw [blank_entries, List.nil_append, capacity_blank]; exact hcard)
  have hg : t.entries.foldl place ⟨Array.replicate (2 * t.capacity) none, 0, t.grows + 1⟩ =
      t.grow := rfl
  rw [hg] at hv hset hfind
  rw [blank_entries, List.nil_append] at hset
  have hcap' : t.grow.capacity = 2 * t.capacity := capacity_grow t
  refine ⟨⟨hv, by omega, isPowerOfTwo_grow hp⟩, hcap', fun p => ?_, ?_⟩
  · have hnone : (⟨Array.replicate (2 * t.capacity) none, 0, t.grows + 1⟩ : Table).find? p =
        none := (find?_eq_none_iff hblank).2 (by simp [blank_entries])
    rw [hfind p, hnone, Option.or_none]
  · rw [← hv.card_paths]
    exact congrArg Finset.card hset

/-! ## The invariant is kept -/

/-- **The table's representation invariant.** A new table of any requested size is well
formed, and on a well-formed table slots are found by masking with one less than the
capacity; adding an entry whose hash is its path's keeps a table well formed; on a
well-formed table a lookup answers an entry exactly when it is stored under the path asked
for. Doubling any slot array of power-of-two length whose entries carry their paths' hashes,
stored twice, away from their probe runs or miscounted as they may be, gives a well-formed
table with twice the slots that keeps under each path the entry of the highest slot holding
it, and counts each path once. -/
theorem table_representation_invariant :
    (∀ c : Int, (empty c).WellFormed) ∧
    (∀ t : Table, t.WellFormed →
      ∀ h i, t.home h = h.toNat &&& t.mask ∧ t.nextSlot i = (i + 1) &&& t.mask) ∧
    (∀ (t : Table) (e : Entry), t.WellFormed → e.hash = pathHash e.path →
      (t.insert e).WellFormed) ∧
    (∀ (t : Table) (p : Bytes) (e : Entry), t.WellFormed →
      (t.find? p = some e ↔ e ∈ t.entries ∧ e.path = p)) ∧
    (∀ t : Table, t.capacity.isPowerOfTwo → (∀ e ∈ t.entries, e.hash = pathHash e.path) →
      t.grow.WellFormed ∧ t.grow.capacity = 2 * t.capacity ∧
        (∀ p, t.grow.find? p = Entry.latest t.entries p) ∧
        t.grow.count = (t.entries.map Entry.path).toFinset.card) :=
  ⟨empty_wellFormed, fun _ hw h i => ⟨hw.home_eq_and_mask h, hw.nextSlot_eq_and_mask i⟩,
    fun _ _ hw hhash => hw.insert hhash, fun _ _ _ hw => find?_eq_some_iff hw.toValid,
    fun _ hp hh => grow_wellFormed hp hh⟩

end Table

end Content

end StaticHttp
