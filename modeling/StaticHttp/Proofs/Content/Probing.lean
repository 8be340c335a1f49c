import Mathlib.Data.Nat.Find
import Mathlib.Data.Nat.ModEq
import Mathlib.Data.List.Nodup
import StaticHttp.Content.Table

/-!
# Linear probing in the path table

A lookup in the path table walks from the home slot of the path's hash, one slot at a time
and wrapping at the end, until it meets the entry or an empty slot. That is only right if
every stored entry can be reached that way: between its home slot and the slot it sits in,
no slot is empty. This module names that shape, `Table.Valid`, together with the bookkeeping
the table carries, and proves that lookups are exact on it and that placing an entry keeps
it; `StaticHttp.Proofs.Content.TableMap` builds doubling and adding on that.

* `Table.Valid`: each entry's hash is its path's, no path is stored twice, each entry sits
  at the end of a run of occupied slots from its home slot, the count is the number of
  entries, and at least one slot is empty.
* `Table.find?_eq_some_iff`: on a valid table a lookup returns `e` exactly when `e` is stored
  and has the path asked for.
* `Table.place_spec`: placing an entry keeps the table valid, as long as a new path leaves a
  slot empty; the entry goes in front of the entries with other paths, and the count grows
  only for a new path.
* `Table.Valid.fill` and `Table.Valid.replace`: the two ways a placement ends, filling the
  first empty slot of a run or overwriting the entry with the same path, keep the shape.
-/

namespace StaticHttp

namespace Content

namespace Table

/-! ## Slots -/

/-- Slot `i` holds `e`. -/
def Holds (t : Table) (i : Nat) (e : Entry) : Prop := t.slots[i]? = some (some e)

/-- Slot `i` exists and is empty. -/
def Free (t : Table) (i : Nat) : Prop := t.slots[i]? = some none

/-- The `d` slots from `b` on, wrapping at the end, all hold entries. -/
def Packed (t : Table) (b d : Nat) : Prop := ∀ l < d, ∃ e, t.Holds ((b + l) % t.capacity) e

/-- The `d` slots from `b` on all hold entries, and none of them has hash `h` and path `p`:
a probe for `(h, p)` walks past them. -/
def Passes (t : Table) (h : UInt64) (p : Bytes) (b d : Nat) : Prop :=
  ∀ l < d, ∃ e, t.Holds ((b + l) % t.capacity) e ∧ ¬(e.hash = h ∧ e.path = p)

/-- Slot `i` ends a run of occupied slots that starts at the home slot of `e`'s hash: a probe
for `e` gets there without meeting an empty slot. -/
def Reaches (t : Table) (i : Nat) (e : Entry) : Prop :=
  ∃ d < t.capacity, (t.home e.hash + d) % t.capacity = i ∧ t.Packed (t.home e.hash) d

variable {t : Table} {i s : Nat} {e e' : Entry}

theorem Holds.lt (h : t.Holds i e) : i < t.capacity :=
  (Array.getElem?_eq_some_iff.mp h).1

theorem Free.lt (h : t.Free i) : i < t.capacity :=
  (Array.getElem?_eq_some_iff.mp h).1

theorem free_or_holds (hi : i < t.capacity) : t.Free i ∨ ∃ e, t.Holds i e := by
  unfold Free Holds
  rw [Array.getElem?_eq_getElem hi]
  cases t.slots[i] with
  | none => exact Or.inl rfl
  | some e => exact Or.inr ⟨e, rfl⟩

theorem mem_entries : e ∈ t.entries ↔ ∃ i, t.Holds i e := by
  unfold entries Holds
  rw [List.mem_filterMap]
  simp only [id_eq, exists_eq_right, List.mem_iff_getElem?, Array.getElem?_toList]

theorem home_lt (hn : 0 < t.capacity) (h : UInt64) : t.home h < t.capacity :=
  Nat.mod_lt _ hn

/-! ## Offsets from a slot

Probes count slots from a start `b`; the `l`-th is `(b + l) % n`. -/

section Offsets

variable {n b l d : Nat}

theorem offset_succ (n b l : Nat) : ((b + l) % n + 1) % n = (b + (l + 1)) % n := by
  rw [Nat.mod_add_mod, Nat.add_assoc]

/-- Fewer than `n` steps from one start never meet the same slot twice. -/
theorem offset_inj (hl : l < n) (hd : d < n) (h : (b + l) % n = (b + d) % n) : l = d :=
  Nat.ModEq.eq_of_lt_of_lt (Nat.ModEq.add_left_cancel' b h) hl hd

/-- Every slot is fewer than `n` steps from every start. -/
theorem exists_offset {s : Nat} (hb : b < n) (hs : s < n) : ∃ d < n, (b + d) % n = s := by
  by_cases h : b ≤ s
  · exact ⟨s - b, by omega, by rw [Nat.add_sub_cancel' h, Nat.mod_eq_of_lt hs]⟩
  · refine ⟨s + n - b, by omega, ?_⟩
    rw [show b + (s + n - b) = s + n by omega, Nat.add_mod_right, Nat.mod_eq_of_lt hs]

end Offsets

/-- A run of occupied slots in which no entry carries `e`'s path is passed by a probe for
`e`: on a table where paths are unique, a run that ends at `e`'s slot is such a run. -/
theorem Packed.passes {b d i : Nat} (hpack : t.Packed b d) (hd : d < t.capacity)
    (hend : (b + d) % t.capacity = i)
    (huniq : ∀ {j x}, t.Holds j x → x.path = e.path → j = i) :
    t.Passes e.hash e.path b d := by
  intro l hl
  obtain ⟨x, hx⟩ := hpack l hl
  refine ⟨x, hx, fun ⟨_, hpath⟩ => ?_⟩
  have hslot : (b + l) % t.capacity = (b + d) % t.capacity := (huniq hx hpath).trans hend.symm
  exact absurd (offset_inj (by omega) hd hslot) (by omega)

/-! ## The invariant -/

/-- The shape lookups rely on, with the bookkeeping the table carries. -/
structure Valid (t : Table) : Prop where
  capacity_pos : 0 < t.capacity
  hash_eq : ∀ {i e}, t.Holds i e → e.hash = pathHash e.path
  slot_unique : ∀ {i j e e'}, t.Holds i e → t.Holds j e' → e.path = e'.path → i = j
  reachable : ∀ {i e}, t.Holds i e → t.Reaches i e
  count_eq : t.count = t.entries.length
  count_lt : t.count < t.capacity

/-- On a valid table the run before an entry holds no other entry with its path, so a probe
for the entry walks past all of it. -/
theorem Valid.passes (hv : t.Valid) (hi : t.Holds i e) :
    ∃ d < t.capacity, (t.home e.hash + d) % t.capacity = i ∧
      t.Passes e.hash e.path (t.home e.hash) d := by
  obtain ⟨d, hd, hend, hpack⟩ := hv.reachable hi
  exact ⟨d, hd, hend, hpack.passes hd hend (fun hx hpath => hv.slot_unique hx hi hpath)⟩

/-! ## Lookups -/

section Probe

variable {h : UInt64} {p : Bytes} {k : Nat}

theorem probe_succ_of_hit (hi : t.Holds i e) (hm : e.hash = h ∧ e.path = p) :
    t.probe h p (k + 1) i = some e := by
  unfold Holds at hi
  simp [probe, hi, hm.1, hm.2]

theorem probe_succ_of_pass (hi : t.Holds i e) (hm : ¬(e.hash = h ∧ e.path = p)) :
    t.probe h p (k + 1) i = t.probe h p k (t.nextSlot i) := by
  unfold Holds at hi
  simp only [probe, hi]
  rw [if_neg (by simpa using hm)]

/-- A probe walks past a run it passes, one slot and one unit of fuel at a time. -/
theorem probe_offset {b : Nat} (hb : b < t.capacity) :
    ∀ d k, t.Passes h p b d → t.probe h p (d + k) b = t.probe h p k ((b + d) % t.capacity)
  | 0, k, _ => by rw [Nat.zero_add, Nat.add_zero, Nat.mod_eq_of_lt hb]
  | d + 1, k, hpass => by
    obtain ⟨x, hx, hm⟩ := hpass d (Nat.lt_succ_self d)
    calc t.probe h p (d + 1 + k) b = t.probe h p (d + (k + 1)) b := by
          rw [show d + 1 + k = d + (k + 1) by omega]
      _ = t.probe h p (k + 1) ((b + d) % t.capacity) :=
          probe_offset hb d (k + 1) (fun l hl => hpass l (by omega))
      _ = t.probe h p k ((b + (d + 1)) % t.capacity) := by
          rw [probe_succ_of_pass hx hm, nextSlot, offset_succ]

/-- A probe only ever answers with a stored entry of the path asked for. -/
theorem probe_eq_some : ∀ {k i}, t.probe h p k i = some e → (∃ j, t.Holds j e) ∧ e.path = p
  | 0, _, hpr => by simp [probe] at hpr
  | k + 1, i, hpr => by
    rcases hs : t.slots[i]? with _ | _ | x
    · simp [probe, hs] at hpr
    · simp [probe, hs] at hpr
    · have hx : t.Holds i x := hs
      by_cases hm : x.hash = h ∧ x.path = p
      · rw [probe_succ_of_hit hx hm] at hpr
        cases hpr
        exact ⟨⟨i, hx⟩, hm.2⟩
      · rw [probe_succ_of_pass hx hm] at hpr
        exact probe_eq_some hpr

end Probe

/-- A lookup probes from the home slot with the full capacity as fuel; past a run shorter than
the capacity it goes on from the run's end. -/
theorem find?_eq_probe {p : Bytes} {d : Nat} (hd : d < t.capacity)
    (hb : t.home (pathHash p) < t.capacity)
    (hpass : t.Passes (pathHash p) p (t.home (pathHash p)) d) :
    t.find? p =
      t.probe (pathHash p) p (t.capacity - d) ((t.home (pathHash p) + d) % t.capacity) := by
  obtain ⟨k, hk⟩ : ∃ k, t.capacity = d + k := ⟨t.capacity - d, by omega⟩
  have h := probe_offset hb d k hpass
  rw [← hk] at h
  rw [show t.capacity - d = k by omega, ← h]
  rfl

/-- On a valid table every stored entry is found under its path. -/
theorem find?_of_holds (hv : t.Valid) (hi : t.Holds i e) : t.find? e.path = some e := by
  obtain ⟨d, hd, hend, hpass⟩ := hv.passes hi
  have hh : e.hash = pathHash e.path := hv.hash_eq hi
  rw [hh] at hend hpass
  rw [find?_eq_probe hd (home_lt hv.capacity_pos _) hpass, hend,
    show t.capacity - d = t.capacity - d - 1 + 1 by omega, probe_succ_of_hit hi ⟨hh, rfl⟩]

/-- **Lookups are exact.** On a valid table, looking up `p` answers `e` exactly when `e` is
stored and has path `p`. -/
theorem find?_eq_some_iff (hv : t.Valid) {p : Bytes} :
    t.find? p = some e ↔ e ∈ t.entries ∧ e.path = p := by
  constructor
  · intro hf
    obtain ⟨⟨j, hj⟩, hp⟩ := probe_eq_some hf
    exact ⟨mem_entries.2 ⟨j, hj⟩, hp⟩
  · rintro ⟨he, rfl⟩
    obtain ⟨i, hi⟩ := mem_entries.1 he
    exact find?_of_holds hv hi

theorem find?_eq_none_iff (hv : t.Valid) {p : Bytes} :
    t.find? p = none ↔ ∀ e ∈ t.entries, e.path ≠ p := by
  rw [Option.eq_none_iff_forall_ne_some]
  simp only [ne_eq, find?_eq_some_iff hv, not_and]

/-! ## Entries as a list

The entries are the occupied slots read in order; a slot's contents move into and out of that
list without disturbing the others. -/

/-- Setting position `i` of a list of optional values trades what stood there for `x` among
the values present. -/
theorem filterMap_id_set_perm {α : Type} :
    ∀ (l : List (Option α)) (i : Nat) (x : Option α), i < l.length →
      ((l.set i x).filterMap id).Perm (x.toList ++ (l.eraseIdx i).filterMap id)
  | [], _, _, h => absurd h (Nat.not_lt_zero _)
  | y :: l, 0, x, _ => by cases x <;> simp
  | y :: l, i + 1, x, h => by
    have ih := filterMap_id_set_perm l i x (by simpa using h)
    cases y with
    | none => simpa using ih
    | some a => simpa using (ih.cons a).trans List.perm_middle.symm

/-- Values that sit at different positions whenever their keys agree have distinct keys. -/
theorem nodup_map_filterMap_id {α β : Type} (f : α → β) :
    ∀ (l : List (Option α)),
      (∀ (i j : Nat) (a b : α), l[i]? = some (some a) → l[j]? = some (some b) → f a = f b →
        i = j) →
        ((l.filterMap id).map f).Nodup
  | [], _ => List.nodup_nil
  | none :: l, h => by
    simpa using nodup_map_filterMap_id f l
      (fun i j a b hi hj hab => Nat.succ_injective (h (i + 1) (j + 1) a b hi hj hab))
  | some a :: l, h => by
    show ((a :: l.filterMap id).map f).Nodup
    rw [List.map_cons, List.nodup_cons]
    refine ⟨fun hmem => ?_, nodup_map_filterMap_id f l
      (fun i j a b hi hj hab => Nat.succ_injective (h (i + 1) (j + 1) a b hi hj hab))⟩
    obtain ⟨b, hb, hab⟩ := List.mem_map.1 hmem
    obtain ⟨o, ho, hob⟩ := List.mem_filterMap.1 hb
    obtain ⟨j, hj⟩ := List.mem_iff_getElem?.1 ho
    rw [show o = some b from hob] at hj
    exact absurd (h 0 (j + 1) a b rfl hj hab.symm) (by omega)

theorem Valid.nodup_paths (hv : t.Valid) : (t.entries.map Entry.path).Nodup :=
  nodup_map_filterMap_id Entry.path t.slots.toList fun i j a b hi hj hab => by
    rw [Array.getElem?_toList] at hi hj
    exact hv.slot_unique hi hj hab

/-! ## Setting a slot -/

theorem capacity_setSlot (t : Table) (s : Nat) (e : Entry) :
    (t.setSlot s e).capacity = t.capacity := by
  simp [setSlot, capacity]

theorem holds_setSlot (hs : s < t.capacity) :
    (t.setSlot s e).Holds i e' ↔ (i = s ∧ e' = e) ∨ (i ≠ s ∧ t.Holds i e') := by
  unfold Holds setSlot
  simp only [Array.set!_eq_setIfInBounds, Array.getElem?_setIfInBounds]
  by_cases his : s = i
  · subst his
    simp [show s < t.slots.size from hs, eq_comm]
  · simp [his, Ne.symm his]

/-- Writing slot `s` replaces what it held among the entries, leaving the rest as they were. -/
theorem entries_setSlot {o : Option Entry} (ho : t.slots[s]? = some o) :
    ∃ R, t.entries.Perm (o.toList ++ R) ∧ (t.setSlot s e).entries.Perm (e :: R) := by
  rw [← Array.getElem?_toList] at ho
  obtain ⟨hlt, hget⟩ := List.getElem?_eq_some_iff.1 ho
  have hself : t.slots.toList.set s o = t.slots.toList := by
    rw [← hget, List.set_getElem_self]
  refine ⟨(t.slots.toList.eraseIdx s).filterMap id, ?_, ?_⟩
  · have h := filterMap_id_set_perm t.slots.toList s o hlt
    rwa [hself] at h
  · have h := filterMap_id_set_perm t.slots.toList s (some e) hlt
    simpa [entries, setSlot, Array.toList_set!] using h

theorem entries_setSlot_of_free (hs : t.Free s) :
    (t.setSlot s e).entries.Perm (e :: t.entries) := by
  obtain ⟨R, h₀, h₁⟩ := entries_setSlot (e := e) hs
  exact h₁.trans ((h₀.trans (by simp)).symm.cons e)

/-- A run keeps its shape in a table with as many slots in which every occupied slot stays
occupied. -/
theorem Packed.mono {r : Table} {b d : Nat} (hcap : r.capacity = t.capacity)
    (hocc : ∀ {i x}, t.Holds i x → ∃ y, r.Holds i y) (hp : t.Packed b d) : r.Packed b d := by
  intro l hl
  obtain ⟨x, hx⟩ := hp l hl
  rw [hcap]
  exact hocc hx

theorem Reaches.mono {r : Table} (hcap : r.capacity = t.capacity)
    (hocc : ∀ {i x}, t.Holds i x → ∃ y, r.Holds i y) (hr : t.Reaches i e) :
    r.Reaches i e := by
  obtain ⟨d, hd, hend, hpack⟩ := hr
  have hhome : r.home e.hash = t.home e.hash := by simp only [home, hcap]
  refine ⟨d, hcap ▸ hd, ?_, ?_⟩
  · rw [hhome, hcap]
    exact hend
  · rw [hhome]
    exact hpack.mono hcap hocc

/-- Writing a slot leaves every occupied slot occupied. -/
theorem occupied_setSlot {y : Entry} (hs : s < t.capacity) (hi : t.Holds i y) :
    ∃ z, (t.setSlot s e).Holds i z := by
  by_cases his : i = s
  · exact ⟨e, (holds_setSlot hs).2 (Or.inl ⟨his, rfl⟩)⟩
  · exact ⟨y, (holds_setSlot hs).2 (Or.inr ⟨his, hi⟩)⟩

/-- Every entry of a valid table stays reachable when a slot is written. -/
theorem Valid.reaches_setSlot {y : Entry} (hv : t.Valid) (hs : s < t.capacity)
    (hi : t.Holds i y) : (t.setSlot s e).Reaches i y :=
  (hv.reachable hi).mono (capacity_setSlot t s e) (occupied_setSlot hs)

/-- Writing an entry whose hash is its path's keeps every hash its path's. -/
theorem Valid.hash_eq_setSlot {y : Entry} (hv : t.Valid) (hs : s < t.capacity)
    (hhash : e.hash = pathHash e.path) (hi : (t.setSlot s e).Holds i y) :
    y.hash = pathHash y.path := by
  rcases (holds_setSlot hs).1 hi with ⟨-, hy⟩ | ⟨-, hi⟩
  · rw [hy]
    exact hhash
  · exact hv.hash_eq hi

/-- Filling an empty slot with an entry of a new path keeps a table valid, when the entry's
hash is its path's, the slot ends a run from the entry's home slot, and a slot stays empty. -/
theorem Valid.fill (hv : t.Valid) (hs : t.Free s) (hhash : e.hash = pathHash e.path)
    (hfresh : ∀ x ∈ t.entries, x.path ≠ e.path) (hreach : t.Reaches s e)
    (hroom : t.count + 1 < t.capacity) :
    ({ t.setSlot s e with count := t.count + 1 } : Table).Valid := by
  have hcap := capacity_setSlot t s e
  have hunique : ∀ {i j x y}, (t.setSlot s e).Holds i x → (t.setSlot s e).Holds j y →
      x.path = y.path → i = j := fun hi hj hxy => by
    rcases (holds_setSlot hs.lt).1 hi with ⟨hi_s, hx⟩ | ⟨-, hi⟩ <;>
      rcases (holds_setSlot hs.lt).1 hj with ⟨hj_s, hy⟩ | ⟨-, hj⟩
    · rw [hi_s, hj_s]
    · rw [hx] at hxy
      exact absurd hxy.symm (hfresh _ (mem_entries.2 ⟨_, hj⟩))
    · rw [hy] at hxy
      exact absurd hxy (hfresh _ (mem_entries.2 ⟨_, hi⟩))
    · exact hv.slot_unique hi hj hxy
  have hreach' : ∀ {i x}, (t.setSlot s e).Holds i x → (t.setSlot s e).Reaches i x :=
    fun hi => by
    rcases (holds_setSlot hs.lt).1 hi with ⟨hi_s, hx⟩ | ⟨-, hi⟩
    · rw [hi_s, hx]
      exact hreach.mono hcap (occupied_setSlot hs.lt)
    · exact hv.reaches_setSlot hs.lt hi
  have hcount : t.count + 1 = (t.setSlot s e).entries.length := by
    rw [(entries_setSlot_of_free hs).length_eq, hv.count_eq, List.length_cons]
  exact ⟨hcap ▸ hv.capacity_pos, hv.hash_eq_setSlot hs.lt hhash, hunique, hreach', hcount,
    hcap ▸ hroom⟩

/-- Overwriting an entry with one of the same path keeps a table valid, when the new entry's
hash is its path's. -/
theorem Valid.replace {x : Entry} (hv : t.Valid) (hs : t.Holds s x) (hpath : x.path = e.path)
    (hhash : e.hash = pathHash e.path) : (t.setSlot s e).Valid := by
  have hcap := capacity_setSlot t s e
  have hunique : ∀ {i j y z}, (t.setSlot s e).Holds i y → (t.setSlot s e).Holds j z →
      y.path = z.path → i = j := fun hi hj hyz => by
    rcases (holds_setSlot hs.lt).1 hi with ⟨hi_s, hy⟩ | ⟨hne, hi⟩ <;>
      rcases (holds_setSlot hs.lt).1 hj with ⟨hj_s, hz⟩ | ⟨hne', hj⟩
    · rw [hi_s, hj_s]
    · rw [hy, ← hpath] at hyz
      exact absurd (hv.slot_unique hj hs hyz.symm) hne'
    · rw [hz, ← hpath] at hyz
      exact absurd (hv.slot_unique hi hs hyz) hne
    · exact hv.slot_unique hi hj hyz
  -- the new entry has the old one's hash, so it inherits the old one's run
  have hreach' : ∀ {i y}, (t.setSlot s e).Holds i y → (t.setSlot s e).Reaches i y :=
    fun hi => by
    have hxhash : x.hash = e.hash := by rw [hv.hash_eq hs, hpath, hhash]
    rcases (holds_setSlot hs.lt).1 hi with ⟨hi_s, hy⟩ | ⟨-, hi⟩
    · have hr := hv.reaches_setSlot (e := e) hs.lt hs
      rw [hi_s, hy]
      unfold Reaches at hr ⊢
      rwa [← hxhash]
    · exact hv.reaches_setSlot hs.lt hi
  have hcount : t.count = (t.setSlot s e).entries.length := by
    obtain ⟨R, h₀, h₁⟩ := entries_setSlot (e := e) hs
    rw [h₁.length_eq, hv.count_eq, h₀.length_eq]
    rfl
  exact ⟨hcap ▸ hv.capacity_pos, hv.hash_eq_setSlot hs.lt hhash, hunique, hreach', hcount,
    hcap ▸ hv.count_lt⟩

/-! ## Placing -/

section Place

variable {k : Nat} {x : Entry}

theorem placeFrom_succ_of_free (hi : t.Free i) :
    placeFrom e (k + 1) i t = { t.setSlot i e with count := t.count + 1 } := by
  unfold Free at hi
  simp [placeFrom, hi, setSlot]

theorem placeFrom_succ_of_hit (hi : t.Holds i x) (hm : x.hash = e.hash ∧ x.path = e.path) :
    placeFrom e (k + 1) i t = t.setSlot i e := by
  unfold Holds at hi
  simp [placeFrom, hi, hm.1, hm.2, setSlot]

theorem placeFrom_succ_of_pass (hi : t.Holds i x) (hm : ¬(x.hash = e.hash ∧ x.path = e.path)) :
    placeFrom e (k + 1) i t = placeFrom e k (t.nextSlot i) t := by
  unfold Holds at hi
  simp only [placeFrom, hi]
  rw [if_neg (by simpa using hm)]

/-- Placing walks past a run it passes, as a probe does. -/
theorem placeFrom_offset {b : Nat} (hb : b < t.capacity) :
    ∀ d k, t.Passes e.hash e.path b d →
      placeFrom e (d + k) b t = placeFrom e k ((b + d) % t.capacity) t
  | 0, k, _ => by rw [Nat.zero_add, Nat.add_zero, Nat.mod_eq_of_lt hb]
  | d + 1, k, hpass => by
    obtain ⟨x, hx, hm⟩ := hpass d (Nat.lt_succ_self d)
    calc placeFrom e (d + 1 + k) b t = placeFrom e (d + (k + 1)) b t := by
          rw [show d + 1 + k = d + (k + 1) by omega]
      _ = placeFrom e (k + 1) ((b + d) % t.capacity) t :=
          placeFrom_offset hb d (k + 1) (fun l hl => hpass l (by omega))
      _ = placeFrom e k ((b + (d + 1)) % t.capacity) t := by
          rw [placeFrom_succ_of_pass hx hm, nextSlot, offset_succ]

/-- Placing from the home slot with the full capacity as fuel, past a run shorter than the
capacity. -/
theorem place_eq_placeFrom {d : Nat} (hd : d < t.capacity) (hb : t.home e.hash < t.capacity)
    (hpass : t.Passes e.hash e.path (t.home e.hash) d) :
    t.place e = placeFrom e (t.capacity - d) ((t.home e.hash + d) % t.capacity) t := by
  obtain ⟨k, hk⟩ : ∃ k, t.capacity = d + k := ⟨t.capacity - d, by omega⟩
  have h := placeFrom_offset hb d k hpass
  rw [← hk] at h
  rw [show t.capacity - d = k by omega, ← h]
  rfl

end Place

/-- A table with fewer entries than slots has an empty slot. -/
theorem Valid.exists_free (hv : t.Valid) : ∃ s, t.Free s := by
  have hlt : t.entries.length < t.slots.toList.length := by
    rw [← hv.count_eq, Array.length_toList]
    exact hv.count_lt
  obtain ⟨o, ho, hnone⟩ := List.length_filterMap_lt_length_iff_exists.1 hlt
  obtain ⟨s, hs⟩ := List.mem_iff_getElem?.1 ho
  rw [Array.getElem?_toList, show o = none from hnone] at hs
  exact ⟨s, hs⟩

/-- From any slot, the first empty slot ends a run of occupied ones. -/
theorem Valid.first_free {b : Nat} (hv : t.Valid) (hb : b < t.capacity) :
    ∃ d < t.capacity, t.Free ((b + d) % t.capacity) ∧ t.Packed b d := by
  classical
  obtain ⟨s, hs⟩ := hv.exists_free
  obtain ⟨d₀, hd₀, hend⟩ := exists_offset hb hs.lt
  have hex : ∃ d, t.Free ((b + d) % t.capacity) := ⟨d₀, hend ▸ hs⟩
  refine ⟨Nat.find hex, lt_of_le_of_lt (Nat.find_min' hex (hend ▸ hs)) hd₀, Nat.find_spec hex,
    fun l hl => ?_⟩
  rcases free_or_holds (Nat.mod_lt (b + l) hv.capacity_pos) with hfree | hocc
  · exact absurd hfree (Nat.find_min hex hl)
  · exact hocc

/-- Over a list of entries with distinct paths, dropping the path of one of them leaves the
others. -/
theorem filter_path_of_perm {l R : List Entry} {x : Entry} (hperm : l.Perm (x :: R))
    (hnodup : (l.map Entry.path).Nodup) :
    (l.filter fun y => y.path != x.path).Perm R := by
  have hnot : x.path ∉ R.map Entry.path :=
    (List.nodup_cons.1 (by simpa using (hperm.map Entry.path).nodup_iff.1 hnodup)).1
  have hR : R.filter (fun y => y.path != x.path) = R := List.filter_eq_self.2 fun y hy => by
    have hne : y.path ≠ x.path := fun h => hnot (h ▸ List.mem_map_of_mem hy)
    simpa using hne
  calc (l.filter fun y => y.path != x.path).Perm ((x :: R).filter fun y => y.path != x.path) :=
        hperm.filter _
    _ = R := by rw [List.filter_cons, if_neg (by simp), hR]

/-- **Placing an entry.** On a valid table, placing an entry whose hash is its path's keeps
the table valid, provided a new path still leaves a slot empty. The entry takes the place of
the one with its path, if any, and the count grows by one exactly for a new path. -/
theorem place_spec (hv : t.Valid) (hhash : e.hash = pathHash e.path)
    (hroom : t.find? e.path = none → t.count + 1 < t.capacity) :
    (t.place e).Valid ∧
      (t.place e).entries.Perm (e :: t.entries.filter fun x => x.path != e.path) ∧
      (t.place e).count = (if (t.find? e.path).isSome then t.count else t.count + 1) ∧
      (t.place e).capacity = t.capacity ∧ (t.place e).grows = t.grows := by
  have hb := home_lt hv.capacity_pos e.hash
  rcases hf : t.find? e.path with _ | x
  · -- a new path goes into the first empty slot from its home slot
    have hfresh := (find?_eq_none_iff hv).1 hf
    obtain ⟨d, hd, hfree, hpack⟩ := hv.first_free hb
    have hpass : t.Passes e.hash e.path (t.home e.hash) d := fun l hl => by
      obtain ⟨y, hy⟩ := hpack l hl
      exact ⟨y, hy, fun ⟨_, hp⟩ => hfresh y (mem_entries.2 ⟨_, hy⟩) hp⟩
    have hplace : t.place e =
        { t.setSlot ((t.home e.hash + d) % t.capacity) e with count := t.count + 1 } := by
      rw [place_eq_placeFrom hd hb hpass, show t.capacity - d = t.capacity - d - 1 + 1 by omega,
        placeFrom_succ_of_free hfree]
    have hfilter : (t.entries.filter fun x => x.path != e.path) = t.entries :=
      List.filter_eq_self.2 fun y hy => by simpa using hfresh y hy
    rw [hplace, hfilter]
    exact ⟨hv.fill hfree hhash hfresh ⟨d, hd, rfl, hpack⟩ (hroom hf),
      entries_setSlot_of_free hfree, rfl, capacity_setSlot _ _ _, rfl⟩
  · -- a stored path is overwritten where it sits
    obtain ⟨hx, hpath⟩ := (find?_eq_some_iff hv).1 hf
    obtain ⟨i, hi⟩ := mem_entries.1 hx
    have hxhash : x.hash = e.hash := by rw [hv.hash_eq hi, hpath, hhash]
    obtain ⟨d, hd, hend, hpass⟩ := hv.passes hi
    rw [hxhash, hpath] at hpass
    rw [hxhash] at hend
    have hplace : t.place e = t.setSlot i e := by
      rw [place_eq_placeFrom hd hb hpass, hend,
        show t.capacity - d = t.capacity - d - 1 + 1 by omega,
        placeFrom_succ_of_hit hi ⟨hxhash, hpath⟩]
    obtain ⟨R, h₀, h₁⟩ := entries_setSlot (e := e) hi
    have hR := filter_path_of_perm (by simpa using h₀) hv.nodup_paths
    rw [hpath] at hR
    rw [hplace]
    exact ⟨hv.replace hi hpath hhash, h₁.trans (hR.symm.cons e), rfl, capacity_setSlot _ _ _,
      rfl⟩

end Table

end Content

end StaticHttp
