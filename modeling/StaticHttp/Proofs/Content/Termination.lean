import StaticHttp.Proofs.Content.WellFormed

/-!
# The path table's loops end

The table's loops carry no bound of their own. A lookup probes from the home slot of the
path's hash until it meets an empty slot, the entry, or its starting slot again. Placing an
entry probes until it meets an empty slot or the entry's path. Adding a path that is not
stored doubles the table for as long as one more entry would leave no slot empty, and doubling
places every old entry again. The functions of `StaticHttp.Content.Table` bound each of these
loops by fuel instead.

This module runs the loops as they are written: a round at a time, with the next slot found by
masking with one less than the capacity, and with no bound but the number of rounds allowed
(`Round.within`). It shows that on a power-of-two capacity they end, and with what the fuelled
functions give. A lookup ends within as many probes as there are slots, whatever the slots
hold. Doubling ends on every slot array. Adding an entry ends on every table whose count is at
least its number of entries: a hand-filled table counted to its size, and every table the
operations build, are such tables. A table counted below its entries can fill up unnoticed,
and then placing a new path would probe for ever.

Main statements:
* `Table.lookupWithin_capacity`: a lookup ends within the capacity, with the lookup's answer.
* `Table.growWithin_eq`: doubling ends, each placement within the new capacity.
* `Table.insertWithin_eq`: adding an entry ends, every loop within a common bound.
* `table_loops_end`: the three together.
-/

namespace StaticHttp

namespace Content

/-- What one round of a loop does: return a value, or go round again from a new state. -/
inductive Round (σ α : Type) where
  /-- The loop returns `a`. -/
  | done (a : α)
  /-- The loop goes round again from the state `s`. -/
  | again (s : σ)

namespace Round

variable {σ α : Type} {body : σ → Option (Round σ α)} {s s' : σ} {a : α}

/-- Runs the loop with body `body` from `s` for at most `n` rounds: the value it returns, or
`none` when it has not returned by then. A body answers `none` for a round that does not end,
one that indexes past the slots or whose inner loop does not return. -/
def within (body : σ → Option (Round σ α)) : Nat → σ → Option α
  | 0, _ => none
  | n + 1, s =>
    match body s with
    | some (.done a) => some a
    | some (.again s') => within body n s'
    | none => none

theorem within_done {n : Nat} (h : body s = some (.done a)) : within body (n + 1) s = some a := by
  simp [within, h]

theorem within_again {n : Nat} (h : body s = some (.again s')) :
    within body (n + 1) s = within body n s' := by
  simp [within, h]

/-- A loop that has returned returns the same with more rounds allowed. -/
theorem within_mono : ∀ {n m : Nat} {s : σ}, within body n s = some a → n ≤ m →
    within body m s = some a
  | 0, _, _, h, _ => by simp [within] at h
  | n + 1, m + 1, s, h, hle => by
    rcases hb : body s with _ | ⟨a'⟩ | ⟨s'⟩
    · simp [within, hb] at h
    · rw [within_done hb] at h ⊢
      exact h
    · rw [within_again hb] at h ⊢
      exact within_mono h (by omega)

end Round

namespace Table

variable {t : Table} {e : Entry}

/-! ## The loops as written -/

/-- One round of a lookup for hash `h` and path `p` that started at slot `start`, at slot `i`:
an empty slot misses and the entry is found; past any other entry the lookup moves to the next
slot, masked, and misses when that brings it back to `start`. -/
def lookupRound (t : Table) (h : UInt64) (p : Bytes) (start i : Nat) :
    Option (Round Nat (Option Entry)) :=
  match t.slots[i]? with
  | some none => some (.done none)
  | some (some e) =>
    some <|
      if e.hash == h && e.path == p then .done (some e)
      else if (i + 1) &&& t.mask = start then .done none
      else .again ((i + 1) &&& t.mask)
  | none => none

/-- A lookup as the table runs it, from the hash masked, for at most `n` probes. -/
def lookupWithin (t : Table) (p : Bytes) (n : Nat) : Option (Option Entry) :=
  Round.within (t.lookupRound (pathHash p) p ((pathHash p).toNat &&& t.mask)) n
    ((pathHash p).toNat &&& t.mask)

/-- One round of placing `e`, at slot `i`: an empty slot takes the entry and counts it, an
entry with its hash and path is replaced, and past any other the placement moves to the next
slot, masked. -/
def placeRound (t : Table) (e : Entry) (i : Nat) : Option (Round Nat Table) :=
  match t.slots[i]? with
  | some none => some (.done { t.setSlot i e with count := t.count + 1 })
  | some (some cur) =>
    some <|
      if cur.hash == e.hash && cur.path == e.path then .done (t.setSlot i e)
      else .again ((i + 1) &&& t.mask)
  | none => none

/-- Placing as the table runs it, from the entry's hash masked, for at most `n` probes. -/
def placeWithin (t : Table) (e : Entry) (n : Nat) : Option Table :=
  Round.within (t.placeRound e) n (e.hash.toNat &&& t.mask)

/-- Doubling as the table runs it: twice the slots, then every entry in slot order placed
again, each placement within `n` probes. -/
def growWithin (t : Table) (n : Nat) : Option Table :=
  t.entries.foldlM (fun acc x => acc.placeWithin x n)
    ⟨Array.replicate (2 * t.capacity) none, 0, t.grows + 1⟩

/-- One round of making room for one more entry: double while it would leave no slot empty. -/
def roomRound (n : Nat) (t : Table) : Option (Round Table Table) :=
  if t.count + 1 ≥ t.capacity then (t.growWithin n).map .again else some (.done t)

/-- Adding an entry as the table runs it, each loop for at most `n` rounds: a lookup of the
path, room made when it is new, then the placement. -/
def insertWithin (t : Table) (e : Entry) (n : Nat) : Option Table := do
  let found ← t.lookupWithin e.path n
  let t ← if found.isNone then Round.within (roomRound n) n t else pure t
  t.placeWithin e n

/-! ## Lookups -/

theorem getElem?_eq_none_of_lt {i : Nat} (hi : i < t.capacity) (h : t.slots[i]? = none) : False :=
  absurd hi (Nat.not_lt.mpr (Array.getElem?_eq_none_iff.mp h))

/-- From the `d`-th slot of a walk from `start`, with `m + 1` probes left of a capacity's worth,
the lookup as written answers what the fuelled probe answers. The walk misses on coming back
to `start` exactly when the fuel runs out. -/
theorem lookup_runs (hp : t.capacity.isPowerOfTwo) (h : UInt64) (p : Bytes) {start : Nat}
    (hs : start < t.capacity) :
    ∀ m d, d + (m + 1) = t.capacity →
      Round.within (t.lookupRound h p start) (m + 1) ((start + d) % t.capacity) =
        some (t.probe h p (m + 1) ((start + d) % t.capacity))
  | m, d, hd => by
    have hpos := capacity_pos_of_isPowerOfTwo hp
    have hi : (start + d) % t.capacity < t.capacity := Nat.mod_lt _ hpos
    have hnext : ((start + d) % t.capacity + 1) &&& t.mask = (start + (d + 1)) % t.capacity := by
      rw [and_mask_eq_mod hp, offset_succ]
    rcases hslot : t.slots[(start + d) % t.capacity]? with _ | _ | x
    · exact (getElem?_eq_none_of_lt hi hslot).elim
    · have hround : t.lookupRound h p start ((start + d) % t.capacity) = some (.done none) := by
        simp [lookupRound, hslot]
      rw [Round.within_done hround]
      simp [probe, hslot]
    · by_cases hm : x.hash = h ∧ x.path = p
      · have hround :
            t.lookupRound h p start ((start + d) % t.capacity) = some (.done (some x)) := by
          simp [lookupRound, hslot, hm.1, hm.2]
        rw [Round.within_done hround, probe_succ_of_hit hslot hm]
      · rw [probe_succ_of_pass hslot hm, nextSlot, offset_succ]
        have hround : t.lookupRound h p start ((start + d) % t.capacity) =
            some (if (start + (d + 1)) % t.capacity = start then .done none
              else .again ((start + (d + 1)) % t.capacity)) := by
          simp only [lookupRound, hslot, hnext]
          rw [if_neg (by simpa using hm)]
        cases m with
        | zero =>
          -- the last probe: the next slot is the start again, and the fuel is spent
          have hwrap : (start + (d + 1)) % t.capacity = start := by
            rw [show start + (d + 1) = start + t.capacity by omega, Nat.add_mod_right,
              Nat.mod_eq_of_lt hs]
          rw [if_pos hwrap] at hround
          rw [Round.within_done hround]
          rfl
        | succ m =>
          have hback : (start + (d + 1)) % t.capacity ≠ start := fun hwrap => by
            have h0 : (start + 0) % t.capacity = (start + (d + 1)) % t.capacity := by
              rw [hwrap, Nat.add_zero, Nat.mod_eq_of_lt hs]
            exact absurd (offset_inj hpos (by omega) h0) (by omega)
          rw [if_neg hback] at hround
          rw [Round.within_again hround]
          exact lookup_runs hp h p hs m (d + 1) (by omega)

/-- **A lookup ends within the capacity.** On a power-of-two capacity, whatever the slots hold,
a lookup as written returns within as many probes as there are slots, with the answer of
`find?`. -/
theorem lookupWithin_capacity (hp : t.capacity.isPowerOfTwo) (p : Bytes) :
    t.lookupWithin p t.capacity = some (t.find? p) := by
  have hpos := capacity_pos_of_isPowerOfTwo hp
  have hs : t.home (pathHash p) < t.capacity := home_lt hpos _
  have h := lookup_runs hp (pathHash p) p hs (t.capacity - 1) 0 (by omega)
  have h₀ : (t.home (pathHash p) + 0) % t.capacity = t.home (pathHash p) := by
    rw [Nat.add_zero, Nat.mod_eq_of_lt hs]
  rw [h₀, show t.capacity - 1 + 1 = t.capacity by omega] at h
  unfold lookupWithin
  rw [and_mask_eq_mod hp]
  exact h

/-! ## Placing -/

/-- Slot `j` ends a placement of `e`: it is empty, or it holds an entry with `e`'s hash and
path. -/
def StopsPlace (t : Table) (e : Entry) (j : Nat) : Prop :=
  t.Free j ∨ ∃ x, t.Holds j x ∧ x.hash = e.hash ∧ x.path = e.path

/-- A placement as written that meets a slot ending it within `k` probes answers what the
fuelled placement answers. -/
theorem place_runs (hp : t.capacity.isPowerOfTwo) :
    ∀ k i, i < t.capacity → (∃ d < k, t.StopsPlace e ((i + d) % t.capacity)) →
      Round.within (t.placeRound e) k i = some (placeFrom e k i t)
  | 0, _, _, ⟨_, hd, _⟩ => absurd hd (Nat.not_lt_zero _)
  | k + 1, i, hi, ⟨d, hd, hstop⟩ => by
    rcases hslot : t.slots[i]? with _ | _ | x
    · exact (getElem?_eq_none_of_lt hi hslot).elim
    · have hround :
          t.placeRound e i = some (.done { t.setSlot i e with count := t.count + 1 }) := by
        simp [placeRound, hslot]
      rw [Round.within_done hround, placeFrom_succ_of_free hslot]
    · by_cases hm : x.hash = e.hash ∧ x.path = e.path
      · have hround : t.placeRound e i = some (.done (t.setSlot i e)) := by
          simp [placeRound, hslot, hm.1, hm.2]
        rw [Round.within_done hround, placeFrom_succ_of_hit hslot hm]
      · -- slot `i` holds another path, so the slot that ends the placement lies further on
        have hnext : (i + 1) &&& t.mask = t.nextSlot i := by rw [and_mask_eq_mod hp]; rfl
        have hround : t.placeRound e i = some (.again (t.nextSlot i)) := by
          simp only [placeRound, hslot, hnext]
          rw [if_neg (by simpa using hm)]
        obtain ⟨d', rfl⟩ : ∃ d', d = d' + 1 := by
          refine Nat.exists_eq_add_one.mpr (Nat.pos_of_ne_zero fun hd0 => ?_)
          rw [hd0, Nat.add_zero, Nat.mod_eq_of_lt hi] at hstop
          rcases hstop with hfree | ⟨y, hy, hym⟩
          · exact absurd (hslot.symm.trans hfree) (by simp)
          · unfold Holds at hy
            rw [hslot, Option.some_inj, Option.some_inj] at hy
            exact hm (hy ▸ hym)
        rw [Round.within_again hround, placeFrom_succ_of_pass hslot hm]
        refine place_runs hp k (t.nextSlot i) (Nat.mod_lt _ (Nat.zero_lt_of_lt hi))
          ⟨d', by omega, ?_⟩
        rwa [nextSlot, Nat.mod_add_mod, show i + 1 + d' = i + (d' + 1) by omega]

/-- A placement that meets a slot ending it within a capacity's worth of probes returns, with
the entry placed as `place` places it. -/
theorem placeWithin_eq (hp : t.capacity.isPowerOfTwo)
    (hstop : ∃ d < t.capacity, t.StopsPlace e ((t.home e.hash + d) % t.capacity)) {n : Nat}
    (hn : t.capacity ≤ n) : t.placeWithin e n = some (t.place e) := by
  have hpos := capacity_pos_of_isPowerOfTwo hp
  have h := place_runs hp t.capacity (t.home e.hash) (home_lt hpos _) hstop
  unfold placeWithin
  rw [and_mask_eq_mod hp]
  exact Round.within_mono h hn

/-- A table with an empty slot ends every placement: the walk from any slot meets it. -/
theorem stopsPlace_of_free {s : Nat} (hs : t.Free s) (e : Entry) :
    ∃ d < t.capacity, t.StopsPlace e ((t.home e.hash + d) % t.capacity) := by
  obtain ⟨d, hd, hend⟩ := exists_offset (home_lt (Nat.zero_lt_of_lt hs.lt) e.hash) hs.lt
  exact ⟨d, hd, Or.inl (hend ▸ hs)⟩

/-- A table with fewer entries than slots has an empty slot. -/
theorem exists_free_of_length_lt (h : t.entries.length < t.capacity) : ∃ s, t.Free s := by
  have hlt : t.entries.length < t.slots.toList.length := by
    rwa [Array.length_toList]
  obtain ⟨o, ho, hnone⟩ := List.length_filterMap_lt_length_iff_exists.1 hlt
  obtain ⟨s, hs⟩ := List.mem_iff_getElem?.1 ho
  rw [Array.getElem?_toList, show o = none from hnone] at hs
  exact ⟨s, hs⟩

/-- A probe that finds an entry has met it within its fuel, after slots that hold others. -/
theorem probe_eq_some_at {h : UInt64} {p : Bytes} {x : Entry} :
    ∀ {k i}, i < t.capacity → t.probe h p k i = some x →
      ∃ d < k, t.Holds ((i + d) % t.capacity) x ∧ x.hash = h ∧ x.path = p
  | 0, _, _, hpr => by simp [probe] at hpr
  | k + 1, i, hi, hpr => by
    rcases hs : t.slots[i]? with _ | _ | y
    · simp [probe, hs] at hpr
    · simp [probe, hs] at hpr
    · by_cases hm : y.hash = h ∧ y.path = p
      · rw [probe_succ_of_hit hs hm, Option.some_inj] at hpr
        subst hpr
        exact ⟨0, Nat.zero_lt_succ k, by rwa [Nat.add_zero, Nat.mod_eq_of_lt hi], hm⟩
      · rw [probe_succ_of_pass hs hm] at hpr
        obtain ⟨d, hd, hx, hxm⟩ := probe_eq_some_at (Nat.mod_lt _ (Nat.zero_lt_of_lt hi)) hpr
        refine ⟨d + 1, by omega, ?_, hxm⟩
        rwa [Nat.mod_add_mod, Nat.add_assoc, Nat.add_comm 1 d] at hx

/-- A stored path ends the placement of an entry with that path where the lookup found it. -/
theorem stopsPlace_of_find? (hhash : e.hash = pathHash e.path) {x : Entry}
    (hf : t.find? e.path = some x) :
    ∃ d < t.capacity, t.StopsPlace e ((t.home e.hash + d) % t.capacity) := by
  have hpos : 0 < t.capacity := by
    rcases Nat.eq_zero_or_pos t.capacity with h0 | hpos
    · simp [find?, h0, probe] at hf
    · exact hpos
  rw [hhash]
  obtain ⟨d, hd, hx, hxh, hxp⟩ := probe_eq_some_at (home_lt hpos _) hf
  exact ⟨d, hd, Or.inr ⟨x, hx, hhash ▸ hxh, hxp⟩⟩

/-! ## Counting, on any slot array -/

/-- Filling an empty slot adds one entry. -/
theorem length_entries_setSlot_of_free {i : Nat} (hs : t.slots[i]? = some none) :
    (t.setSlot i e).entries.length = t.entries.length + 1 := by
  simpa using (entries_setSlot_of_free (e := e) hs).length_eq

/-- Writing over an entry keeps the number of entries. -/
theorem length_entries_setSlot_of_holds {i : Nat} {x : Entry} (hs : t.slots[i]? = some (some x)) :
    (t.setSlot i e).entries.length = t.entries.length := by
  obtain ⟨R, h₀, h₁⟩ := entries_setSlot (e := e) hs
  rw [h₁.length_eq, h₀.length_eq]
  simp

/-- Placing adds at most one entry. -/
theorem length_entries_placeFrom (e : Entry) :
    ∀ (k i : Nat) (t : Table), (placeFrom e k i t).entries.length ≤ t.entries.length + 1
  | 0, _, _ => Nat.le_succ _
  | k + 1, i, t => by
    rcases hs : t.slots[i]? with _ | _ | x
    · simp [placeFrom, hs]
    · rw [placeFrom_succ_of_free hs]
      exact (length_entries_setSlot_of_free hs).le
    · by_cases hm : x.hash = e.hash ∧ x.path = e.path
      · rw [placeFrom_succ_of_hit hs hm, length_entries_setSlot_of_holds hs]
        exact Nat.le_succ _
      · rw [placeFrom_succ_of_pass hs hm]
        exact length_entries_placeFrom e k _ t

/-- Placing keeps a count that matches the entries matching: it counts a slot it fills. -/
theorem count_placeFrom (e : Entry) :
    ∀ (k i : Nat) (t : Table), t.count = t.entries.length →
      (placeFrom e k i t).count = (placeFrom e k i t).entries.length
  | 0, _, _, h => h
  | k + 1, i, t, h => by
    rcases hs : t.slots[i]? with _ | _ | x
    · simpa [placeFrom, hs] using h
    · rw [placeFrom_succ_of_free hs]
      show t.count + 1 = (t.setSlot i e).entries.length
      rw [length_entries_setSlot_of_free hs, h]
    · by_cases hm : x.hash = e.hash ∧ x.path = e.path
      · rw [placeFrom_succ_of_hit hs hm]
        show t.count = (t.setSlot i e).entries.length
        rw [length_entries_setSlot_of_holds hs, h]
      · rw [placeFrom_succ_of_pass hs hm]
        exact count_placeFrom e k _ t h

/-- Placing entries one by one into a table whose count matches its entries: the count still
matches, and at most one entry was added per placement. -/
theorem foldl_place_counts : ∀ (L : List Entry) (acc : Table), acc.count = acc.entries.length →
    (L.foldl place acc).count = (L.foldl place acc).entries.length ∧
      (L.foldl place acc).entries.length ≤ acc.entries.length + L.length
  | [], _, h => ⟨h, Nat.le_refl _⟩
  | x :: L, acc, h => by
    obtain ⟨h₁, h₂⟩ := foldl_place_counts L (acc.place x) (count_placeFrom x _ _ acc h)
    have h₃ := length_entries_placeFrom x acc.capacity (acc.home x.hash) acc
    refine ⟨h₁, ?_⟩
    simp only [List.foldl_cons, List.length_cons]
    exact Nat.le_trans h₂ (by unfold place at *; omega)

/-- A doubled table counts exactly its entries, and has no more entries than before. -/
theorem grow_counts (t : Table) :
    t.grow.count = t.grow.entries.length ∧ t.grow.entries.length ≤ t.entries.length := by
  have h := foldl_place_counts t.entries ⟨Array.replicate (2 * t.capacity) none, 0, t.grows + 1⟩
    (by rw [blank_entries]; rfl)
  rw [blank_entries, List.length_nil, Nat.zero_add] at h
  exact h

/-! ## Doubling -/

/-- Placing entries into a table with room to spare for all of them, each placement within
`n` probes, returns what placing them with fuel gives. -/
theorem foldlM_placeWithin : ∀ (L : List Entry) (acc : Table) {n : Nat},
    acc.capacity.isPowerOfTwo → acc.capacity ≤ n →
      acc.entries.length + L.length < acc.capacity →
      L.foldlM (fun acc x => acc.placeWithin x n) acc = some (L.foldl place acc)
  | [], _, _, _, _, _ => rfl
  | x :: L, acc, n, hp, hn, hlen => by
    obtain ⟨s, hs⟩ := exists_free_of_length_lt (t := acc) (by simp at hlen; omega)
    have hplace := placeWithin_eq hp (stopsPlace_of_free hs x) hn
    have hgrow := length_entries_placeFrom x acc.capacity (acc.home x.hash) acc
    have hcap := capacity_place acc x
    rw [List.foldlM_cons, hplace, List.foldl_cons]
    refine foldlM_placeWithin L (acc.place x) (hcap ▸ hp) (hcap ▸ hn) ?_
    rw [hcap]
    simp only [List.length_cons] at hlen
    unfold place at hcap
    show (placeFrom x acc.capacity (acc.home x.hash) acc).entries.length + L.length < _
    omega

/-- **Doubling ends.** Doubling a table of power-of-two capacity, whatever its slots hold,
returns the doubled table, each placement within the new capacity. -/
theorem growWithin_eq (hp : t.capacity.isPowerOfTwo) {n : Nat} (hn : 2 * t.capacity ≤ n) :
    t.growWithin n = some t.grow := by
  have hpos := capacity_pos_of_isPowerOfTwo hp
  have hlen := length_entries_le t
  have hblank := capacity_blank (2 * t.capacity) 0 (t.grows + 1)
  unfold growWithin
  have hp' :
      (⟨Array.replicate (2 * t.capacity) none, 0, t.grows + 1⟩ : Table).capacity.isPowerOfTwo := by
    rw [hblank, ← capacity_grow]
    exact isPowerOfTwo_grow hp
  refine foldlM_placeWithin t.entries _ hp' (by rw [hblank]; exact hn) ?_
  rw [blank_entries, hblank, List.length_nil, Nat.zero_add]
  omega

/-! ## Making room -/

/-- Doubling while one more entry would leave no slot empty ends, and the fuel runs out no
sooner than the loop as written, as long as the table then has room. -/
theorem room_runs {n : Nat} : ∀ (k : Nat) (t : Table), t.capacity.isPowerOfTwo →
    (growForOneMore k t).count + 1 < (growForOneMore k t).capacity →
    (growForOneMore k t).capacity ≤ n →
    Round.within (roomRound n) (k + 1) t = some (growForOneMore k t)
  | 0, t, _, hroom, _ => by
    have hround : roomRound n t = some (.done t) := by
      simpa [roomRound, growForOneMore] using hroom
    exact Round.within_done hround
  | k + 1, t, hp, hroom, hn => by
    rw [growForOneMore] at hroom hn ⊢
    by_cases hfull : t.count + 1 ≥ t.capacity
    · rw [if_pos hfull] at hroom hn ⊢
      obtain ⟨j, hj⟩ := growForOneMore_capacity k t.grow
      have hle : t.grow.capacity ≤ n :=
        Nat.le_trans (Nat.le_mul_of_pos_right _ (Nat.two_pow_pos j)) (hj ▸ hn)
      have hround : roomRound n t = some (.again t.grow) := by
        rw [roomRound, if_pos hfull, growWithin_eq hp (capacity_grow t ▸ hle)]
        rfl
      rw [Round.within_again hround]
      exact room_runs k t.grow (isPowerOfTwo_grow hp) hroom hn
    · rw [if_neg hfull] at hroom hn ⊢
      have hround : roomRound n t = some (.done t) := by
        simp [roomRound, hfull]
      exact Round.within_done hround

/-- Doubling a table that counts its entries exactly leaves room, once it has doubled often
enough for the entries and one more. -/
theorem growForOneMore_room_of_counted : ∀ (k : Nat) (t : Table), t.count = t.entries.length →
    t.entries.length + 1 < t.capacity * Nat.pow 2 k →
    (growForOneMore k t).count + 1 < (growForOneMore k t).capacity
  | 0, t, hc, h => by simpa [growForOneMore, hc] using h
  | k + 1, t, hc, h => by
    rw [growForOneMore]
    split
    · obtain ⟨hc', hlen⟩ := grow_counts t
      apply growForOneMore_room_of_counted k t.grow hc'
      rw [capacity_grow, ← mul_pow_two_succ]
      omega
    · omega

/-- The doublings adding allows always leave room: one doubling already leaves a table that
counts exactly its entries, of which there are no more than slots before. -/
theorem room_after_growth_of_pos (hpos : 0 < t.capacity) :
    (growForOneMore (t.count + 2) t).count + 1 < (growForOneMore (t.count + 2) t).capacity := by
  rw [growForOneMore]
  split
  · obtain ⟨hc, hlen⟩ := grow_counts t
    apply growForOneMore_room_of_counted _ t.grow hc
    have hle := length_entries_le t
    have hpow : 2 ≤ Nat.pow 2 (t.count + 1) := by
      show 2 ≤ Nat.pow 2 t.count * 2
      have : 0 < Nat.pow 2 t.count := Nat.two_pow_pos t.count
      omega
    rw [capacity_grow]
    have hbig : 2 * t.capacity * 2 ≤ 2 * t.capacity * Nat.pow 2 (t.count + 1) :=
      Nat.mul_le_mul_left _ hpow
    generalize 2 * t.capacity * Nat.pow 2 (t.count + 1) = X at hbig ⊢
    omega
  · omega

/-- Making room keeps a count of at least the entries. -/
theorem length_le_count_growForOneMore : ∀ (k : Nat) (t : Table), t.entries.length ≤ t.count →
    (growForOneMore k t).entries.length ≤ (growForOneMore k t).count
  | 0, _, h => h
  | k + 1, t, h => by
    rw [growForOneMore]
    split
    · exact length_le_count_growForOneMore k t.grow (grow_counts t).1.ge
    · exact h

/-! ## Adding -/

/-- **Adding an entry ends.** On a table of power-of-two capacity that counts at least its
entries, adding an entry made from a file, with every loop allowed enough rounds, returns the
table `insert` gives: the lookup ends, the doubling loop ends as soon as one more entry leaves a
slot empty, and the placement ends at an empty slot or at the entry's path. -/
theorem insertWithin_eq (hp : t.capacity.isPowerOfTwo) (hcount : t.entries.length ≤ t.count)
    (path data : Bytes) :
    ∃ n, t.insertWithin (Entry.ofFile path data) n =
      some (t.insert (Entry.ofFile path data)) := by
  -- every loop ends within the capacity the table ends with, and the doubling loop within the
  -- doublings the count allows
  obtain ⟨j, hj⟩ := growForOneMore_capacity (t.count + 2) t
  have hcap : t.capacity ≤ (growForOneMore (t.count + 2) t).capacity :=
    hj ▸ Nat.le_mul_of_pos_right _ (Nat.two_pow_pos j)
  refine ⟨t.count + 3 + (growForOneMore (t.count + 2) t).capacity, ?_⟩
  generalize hn : t.count + 3 + (growForOneMore (t.count + 2) t).capacity = n
  have hlookup : t.lookupWithin (Entry.ofFile path data).path n =
      some (t.find? (Entry.ofFile path data).path) :=
    Round.within_mono (lookupWithin_capacity hp _) (by omega)
  unfold insertWithin
  simp only [hlookup, Option.bind_eq_bind, Option.bind_some]
  rcases hf : t.find? (Entry.ofFile path data).path with _ | x
  · -- a new path: room is made, then the entry goes into an empty slot
    have hp' : (growForOneMore (t.count + 2) t).capacity.isPowerOfTwo :=
      hj ▸ isPowerOfTwo_mul_pow hp j
    have hroom := room_after_growth_of_pos (capacity_pos_of_isPowerOfTwo hp)
    have hroom_runs := room_runs (n := n) (t.count + 2) t hp hroom (by omega)
    obtain ⟨s, hs⟩ : ∃ s, (growForOneMore (t.count + 2) t).Free s := by
      have hle := length_le_count_growForOneMore (t.count + 2) t hcount
      exact exists_free_of_length_lt (by omega)
    rw [Option.isNone_none, if_pos rfl, Round.within_mono hroom_runs (by omega), Option.bind_some,
      placeWithin_eq hp' (stopsPlace_of_free hs _) (by omega), insert_of_missing hf]
  · -- a stored path: the entry replaces it where the lookup found it
    rw [Option.isNone_some, if_neg Bool.false_ne_true, Option.pure_def, Option.bind_some,
      placeWithin_eq hp (stopsPlace_of_find? (Entry.ofFile_hash path data) hf) (by omega),
      insert_of_found (by simp [hf])]

/-- **The table's loops end.** On a table whose capacity is a power of two, so that masking
with one less than the capacity takes a slot number round: a lookup, whatever the slots hold,
returns within as many probes as there are slots with the answer of `find?`; doubling, whatever
the slots hold, returns with each placement within the new capacity; and adding an entry made
from a file to a table that counts at least its entries returns what `insert` gives. -/
theorem table_loops_end :
    (∀ (t : Table) (p : Bytes), t.capacity.isPowerOfTwo →
      t.lookupWithin p t.capacity = some (t.find? p)) ∧
    (∀ t : Table, t.capacity.isPowerOfTwo → t.growWithin (2 * t.capacity) = some t.grow) ∧
    (∀ (t : Table) (path data : Bytes), t.capacity.isPowerOfTwo →
      t.entries.length ≤ t.count →
      ∃ n, t.insertWithin (Entry.ofFile path data) n =
        some (t.insert (Entry.ofFile path data))) :=
  ⟨fun _ p hp => lookupWithin_capacity hp p, fun _ hp => growWithin_eq hp (Nat.le_refl _),
    fun _ path data hp hcount => insertWithin_eq hp hcount path data⟩

/-- A two-slot table holding one file's entry meets both conditions, so a lookup, a doubling and
adding a second file all return. -/
theorem table_loops_end_one_entry :
    let t := (empty 2).insert (Entry.ofFile [47, 97] [104])
    let e := Entry.ofFile [47, 98] [105]
    t.capacity.isPowerOfTwo ∧ t.entries.length ≤ t.count ∧
      t.lookupWithin [47, 97] t.capacity = some (t.find? [47, 97]) ∧
      t.growWithin (2 * t.capacity) = some t.grow ∧
      ∃ n, t.insertWithin e n = some (t.insert e) := by
  intro t e
  have hp : t.capacity.isPowerOfTwo := ⟨1, by decide⟩
  have hc : t.entries.length ≤ t.count := by decide
  exact ⟨hp, hc, table_loops_end.1 t _ hp, table_loops_end.2.1 t hp, table_loops_end.2.2 t _ _ hp hc⟩

end Table

end Content

end StaticHttp
