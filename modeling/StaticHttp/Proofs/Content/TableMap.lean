import StaticHttp.Proofs.Content.Probing

/-!
# The path table is a finite map

Seen from outside, the path table is a map from paths to entries: adding an entry replaces
the one with its path, and a lookup answers the entry stored under a path. This module proves
that the table is that map under every sequence of additions, lookups and doublings from a
new table, and that its size follows the doubling rule exactly.

* `Table.grow_spec`: doubling keeps a valid table valid, with the same entries up to order.
* `Table.insert_spec`: adding an entry keeps the table valid and replaces the entry with the
  same path.
* `Table.insert_snug`: adding entries never leaves more than twice as many slots as entries
  once the table has doubled.
* `table_refines_map`: **the table refines the map.** After any sequence of operations on a
  new table, a lookup answers what the map holds under the path, the count is the size of the
  map and below the capacity, the capacity is the first one doubled once per doubling, and the
  entries in slot order are those of the map, each once. Without explicit doublings, the
  capacity is the least such size above the size of the map, and adding a stored path again
  never doubles.
-/

namespace StaticHttp

namespace Content

namespace Table

variable {t : Table} {e : Entry}

/-! ## Doubling -/

theorem blank_entries (m g : Nat) : (⟨Array.replicate m none, 0, g⟩ : Table).entries = [] := by
  simp [entries]

theorem blank_valid (m g : Nat) (hm : 0 < m) :
    (⟨Array.replicate m none, 0, g⟩ : Table).Valid := by
  have hnot : ∀ {i x}, ¬(⟨Array.replicate m none, 0, g⟩ : Table).Holds i x := by
    intro i x h
    simp only [Holds, Array.getElem?_replicate] at h
    split at h <;> simp at h
  refine ⟨by simpa [capacity] using hm, fun h => absurd h hnot, fun h => absurd h hnot,
    fun h => absurd h hnot, by rw [blank_entries]; rfl, by simpa [capacity] using hm⟩

/-- Placing entries with distinct paths, each hash its path's, into a valid table with room for
all of them adds them all. -/
theorem foldl_place_spec : ∀ (L : List Entry) {acc : Table} {P : List Entry}, acc.Valid →
    acc.entries.Perm P → ((P ++ L).map Entry.path).Nodup →
    (∀ x ∈ L, x.hash = pathHash x.path) → P.length + L.length < acc.capacity →
    (L.foldl place acc).Valid ∧ (L.foldl place acc).entries.Perm (P ++ L) ∧
      (L.foldl place acc).capacity = acc.capacity ∧ (L.foldl place acc).grows = acc.grows
  | [], acc, P, hv, hp, _, _, _ => by simpa using ⟨hv, hp⟩
  | x :: L, acc, P, hv, hp, hnd, hh, hlen => by
    -- `x`'s path is not stored yet, so placing it adds it
    have hx : x.path ∉ (P ++ L).map Entry.path :=
      (List.nodup_cons.1 (((@List.perm_middle _ x P L).map Entry.path).nodup_iff.1 hnd)).1
    have hfresh : ∀ y ∈ acc.entries, y.path ≠ x.path := fun y hy hyx =>
      hx (hyx ▸ List.mem_map_of_mem (List.mem_append_left L (hp.subset hy)))
    obtain ⟨hv', hp', -, hcap', hg'⟩ := place_spec hv (hh x List.mem_cons_self) (fun _ => by
      rw [hv.count_eq, hp.length_eq]
      simp only [List.length_cons] at hlen
      omega)
    have hfilter : (acc.entries.filter fun y => y.path != x.path) = acc.entries :=
      List.filter_eq_self.2 fun y hy => by simpa using hfresh y hy
    rw [hfilter] at hp'
    have hroom : (P ++ [x]).length + L.length < (acc.place x).capacity := by
      rw [hcap']
      simp only [List.length_append, List.length_cons, List.length_nil] at hlen ⊢
      omega
    have hnext := foldl_place_spec L hv'
      (hp'.trans ((hp.cons x).trans (List.perm_append_singleton x P).symm))
      (by simpa using hnd) (fun y hy => hh y (List.mem_cons_of_mem x hy)) hroom
    rw [List.foldl_cons, ← hcap', ← hg']
    simpa using hnext

/-- **Doubling.** On a valid table, doubling gives a valid table with the same entries up to
order, the same count, twice the slots and one more doubling on record. -/
theorem grow_spec (hv : t.Valid) :
    t.grow.Valid ∧ t.grow.entries.Perm t.entries ∧ t.grow.count = t.count ∧
      t.grow.capacity = 2 * t.capacity ∧ t.grow.grows = t.grows + 1 := by
  unfold grow
  have hpos := hv.capacity_pos
  have hlen : t.entries.length < t.capacity := hv.count_eq ▸ hv.count_lt
  obtain ⟨hv', hp, hcap, hg⟩ := foldl_place_spec t.entries
    (blank_valid (2 * t.capacity) (t.grows + 1) (by omega)) (by rw [blank_entries])
    (by simpa using hv.nodup_paths)
    (fun x hx => by obtain ⟨i, hi⟩ := mem_entries.1 hx; exact hv.hash_eq hi)
    (by simp only [capacity, Array.size_replicate, List.length_nil] at hlen ⊢; omega)
  rw [List.nil_append] at hp
  refine ⟨hv', hp, ?_, by simpa [capacity] using hcap, hg⟩
  rw [hv'.count_eq, hp.length_eq, hv.count_eq]

/-- One more doubling on record doubles a capacity scaled by the doublings. -/
theorem mul_pow_two_succ (c k : Nat) : c * Nat.pow 2 (k + 1) = 2 * c * Nat.pow 2 k := by
  show c * (Nat.pow 2 k * 2) = 2 * c * Nat.pow 2 k
  rw [Nat.mul_comm (Nat.pow 2 k) 2, ← Nat.mul_assoc, Nat.mul_comm c 2]

/-- The capacity is the first capacity `c₀` doubled once per doubling on record. -/
theorem grow_scaled {c₀ : Nat} (hv : t.Valid) (h : t.capacity = c₀ * Nat.pow 2 t.grows) :
    t.grow.capacity = c₀ * Nat.pow 2 t.grow.grows := by
  obtain ⟨-, -, -, hcap, hg⟩ := grow_spec hv
  rw [hcap, hg, h, mul_pow_two_succ, Nat.mul_assoc]

/-! ## Making room -/

theorem growForOneMore_spec :
    ∀ (k : Nat) {t : Table}, t.Valid →
      (growForOneMore k t).Valid ∧ (growForOneMore k t).entries.Perm t.entries ∧
        (growForOneMore k t).count = t.count
  | 0, _, hv => ⟨hv, List.Perm.refl _, rfl⟩
  | k + 1, t, hv => by
    rw [growForOneMore]
    split
    · obtain ⟨hv', hp, hc, -, -⟩ := grow_spec hv
      obtain ⟨h₁, h₂, h₃⟩ := growForOneMore_spec k hv'
      exact ⟨h₁, h₂.trans hp, h₃.trans hc⟩
    · exact ⟨hv, List.Perm.refl _, rfl⟩

/-- Enough doublings leave room for one more entry with a slot to spare. -/
theorem growForOneMore_room :
    ∀ (k : Nat) {t : Table}, t.Valid → t.count + 1 < t.capacity * Nat.pow 2 k →
      (growForOneMore k t).count + 1 < (growForOneMore k t).capacity
  | 0, t, _, h => by simpa [growForOneMore] using h
  | k + 1, t, hv, h => by
    rw [growForOneMore]
    split
    · obtain ⟨hv', -, hc, hcap, -⟩ := grow_spec hv
      apply growForOneMore_room k hv'
      rw [hc, hcap, ← mul_pow_two_succ]
      exact h
    · omega

theorem growForOneMore_scaled {c₀ : Nat} :
    ∀ (k : Nat) {t : Table}, t.Valid → t.capacity = c₀ * Nat.pow 2 t.grows →
      (growForOneMore k t).capacity = c₀ * Nat.pow 2 (growForOneMore k t).grows
  | 0, _, _, h => h
  | k + 1, t, hv, h => by
    rw [growForOneMore]
    split
    · exact growForOneMore_scaled k (grow_spec hv).1 (grow_scaled hv h)
    · exact h

/-- The table doubles only while it lacks room: either it is left as it was, or it ends with
at most twice as many slots as it will hold entries after one more. -/
theorem growForOneMore_snug :
    ∀ (k : Nat) {t : Table}, t.Valid →
      growForOneMore k t = t ∨ (growForOneMore k t).capacity ≤ 2 * (t.count + 1)
  | 0, _, _ => Or.inl rfl
  | k + 1, t, hv => by
    rw [growForOneMore]
    split
    · rename_i hfull
      obtain ⟨hv', -, hc, hcap, -⟩ := grow_spec hv
      rcases growForOneMore_snug k hv' with h | h
      · rw [h, hcap]
        exact Or.inr (by omega)
      · rw [hc] at h
        exact Or.inr h
    · exact Or.inl rfl

/-! ## Adding an entry -/

theorem insert_of_found (h : (t.find? e.path).isSome) : t.insert e = t.place e := by
  simp [insert, ← Option.not_isSome, h]

theorem insert_of_missing (h : t.find? e.path = none) :
    t.insert e = (growForOneMore (t.count + 2) t).place e := by
  simp [insert, h]

/-- `count + 2` doublings always suffice to make room. -/
theorem room_after_growth (hv : t.Valid) :
    (growForOneMore (t.count + 2) t).count + 1 < (growForOneMore (t.count + 2) t).capacity := by
  apply growForOneMore_room _ hv
  have hpow : t.count + 2 < Nat.pow 2 (t.count + 2) := Nat.lt_two_pow_self
  have hle : Nat.pow 2 (t.count + 2) ≤ t.capacity * Nat.pow 2 (t.count + 2) :=
    Nat.le_mul_of_pos_left _ hv.capacity_pos
  omega

/-- For a new path, the table after making room still lacks it. -/
theorem find?_growForOneMore (hv : t.Valid) (h : t.find? e.path = none) (k : Nat) :
    (growForOneMore k t).find? e.path = none := by
  obtain ⟨hv', hp, -⟩ := growForOneMore_spec k hv
  rw [find?_eq_none_iff hv']
  exact fun y hy => (find?_eq_none_iff hv).1 h y (hp.subset hy)

/-- **Adding an entry.** On a valid table, adding an entry whose hash is its path's gives a
valid table whose entries are the new one and the old ones with other paths. -/
theorem insert_spec (hv : t.Valid) (hhash : e.hash = pathHash e.path) :
    (t.insert e).Valid ∧
      (t.insert e).entries.Perm (e :: t.entries.filter fun x => x.path != e.path) := by
  rcases hf : t.find? e.path with _ | x
  · obtain ⟨hv₁, hp₁, -⟩ := growForOneMore_spec (t.count + 2) hv
    obtain ⟨hv₂, hp₂, -⟩ := place_spec hv₁ hhash (fun _ => room_after_growth hv)
    rw [insert_of_missing hf]
    exact ⟨hv₂, hp₂.trans ((hp₁.filter _).cons e)⟩
  · obtain ⟨hv₂, hp₂, -⟩ :=
      place_spec hv hhash (fun h => absurd (hf.symm.trans h) (by simp))
    rw [insert_of_found (by simp [hf])]
    exact ⟨hv₂, hp₂⟩

theorem insert_scaled {c₀ : Nat} (hv : t.Valid) (hhash : e.hash = pathHash e.path)
    (h : t.capacity = c₀ * Nat.pow 2 t.grows) :
    (t.insert e).capacity = c₀ * Nat.pow 2 (t.insert e).grows := by
  rcases hf : t.find? e.path with _ | x
  · obtain ⟨hv₁, -, -⟩ := growForOneMore_spec (t.count + 2) hv
    obtain ⟨-, -, -, hcap, hg⟩ := place_spec hv₁ hhash (fun _ => room_after_growth hv)
    rw [insert_of_missing hf, hcap, hg]
    exact growForOneMore_scaled _ hv h
  · obtain ⟨-, -, -, hcap, hg⟩ :=
      place_spec hv hhash (fun h => absurd (hf.symm.trans h) (by simp))
    rw [insert_of_found (by simp [hf]), hcap, hg]
    exact h

/-- Adding a path that is already stored never doubles the table. -/
theorem insert_of_found_size (hv : t.Valid) (hhash : e.hash = pathHash e.path)
    (h : (t.find? e.path).isSome) :
    (t.insert e).capacity = t.capacity ∧ (t.insert e).grows = t.grows := by
  obtain ⟨-, -, -, hcap, hg⟩ := place_spec hv hhash (fun hn => by simp [hn] at h)
  rw [insert_of_found h]
  exact ⟨hcap, hg⟩

/-- The table has doubled only when it had to: it never doubled, or its slots are at most
twice its entries. -/
def Snug (t : Table) : Prop := t.grows = 0 ∨ t.capacity ≤ 2 * t.count

/-- Adding entries keeps a table snug. -/
theorem insert_snug (hv : t.Valid) (hhash : e.hash = pathHash e.path) (hs : t.Snug) :
    (t.insert e).Snug := by
  rcases hf : t.find? e.path with _ | x
  · -- a new path: the count grows by one, after doublings that each were needed
    obtain ⟨hv₁, -, hc₁⟩ := growForOneMore_spec (t.count + 2) hv
    obtain ⟨-, -, hc, hcap, hg⟩ := place_spec hv₁ hhash (fun _ => room_after_growth hv)
    rw [find?_growForOneMore hv hf] at hc
    rw [insert_of_missing hf]
    unfold Snug
    rw [hc, hcap, hg, hc₁]
    simp only [Option.isSome_none, Bool.false_eq_true, if_false]
    rcases growForOneMore_snug (t.count + 2) hv with heq | hle
    · rw [heq]
      unfold Snug at hs
      omega
    · exact Or.inr (by omega)
  · -- a stored path: nothing about the size changes
    obtain ⟨-, -, hc, hcap, hg⟩ :=
      place_spec hv hhash (fun h => absurd (hf.symm.trans h) (by simp))
    rw [hf, Option.isSome_some, if_pos rfl] at hc
    rw [insert_of_found (by simp [hf])]
    unfold Snug
    rw [hc, hcap, hg]
    exact hs

/-- A new table is valid and empty. -/
theorem empty_valid (c : Int) : (empty c).Valid :=
  blank_valid _ _ (Nat.lt_of_lt_of_le (by decide) (Nat.le_max_left 2 _))

theorem empty_entries (c : Int) : (empty c).entries = [] := blank_entries _ _

end Table

/-! ## Operations and the map they build -/

/-- One operation on the path table: add the file at a path, look a path up, or double. -/
inductive TableOp
  | insert (path data : Bytes)
  | find (path : Bytes)
  | grow
  deriving DecidableEq, Repr

namespace TableOp

/-- The table after an operation; a lookup leaves it as it is. -/
def apply (t : Table) : TableOp → Table
  | insert path data => t.insert (Entry.ofFile path data)
  | find _ => t
  | grow => t.grow

/-- The map after an operation, kept as a list of entries with distinct paths: an addition puts
its entry in front and drops the entry with the same path. -/
def update (M : List Entry) : TableOp → List Entry
  | insert path data => Entry.ofFile path data :: M.filter fun e => e.path != path
  | find _ => M
  | grow => M

/-- The map a sequence of operations builds from the empty map. -/
def mapOf (ops : List TableOp) : List Entry := ops.foldl update []

end TableOp

/-- The table after a sequence of operations. -/
def Table.run (t : Table) (ops : List TableOp) : Table := ops.foldl TableOp.apply t

/-- In a map with distinct paths, the entry found under a path is the one stored with it. -/
theorem find?_path_eq_some_iff {M : List Entry} (hnd : (M.map Entry.path).Nodup) {p : Bytes}
    {e : Entry} : (M.find? fun x => x.path == p) = some e ↔ e ∈ M ∧ e.path = p := by
  constructor
  · intro hf
    exact ⟨List.mem_of_find?_eq_some hf, by simpa using List.find?_some hf⟩
  · rintro ⟨he, rfl⟩
    obtain ⟨x, hx⟩ := Option.isSome_iff_exists.1
      (List.find?_isSome.2 ⟨e, he, by simp⟩ : (M.find? fun x => x.path == e.path).isSome)
    have hpath : x.path = e.path := by simpa using List.find?_some hx
    rw [hx, List.inj_on_of_nodup_map hnd (List.mem_of_find?_eq_some hx) he hpath]

/-! ## The refinement -/

/-- The table `t` stands for the map `M`, and its capacity is `c₀` doubled once per doubling on
record. -/
structure Table.Refines (c₀ : Nat) (t : Table) (M : List Entry) : Prop where
  valid : t.Valid
  perm : t.entries.Perm M
  scaled : t.capacity = c₀ * Nat.pow 2 t.grows

namespace Table.Refines

variable {c₀ : Nat} {t : Table} {M : List Entry}

/-- Every operation keeps the table standing for the map. -/
theorem step (h : t.Refines c₀ M) (op : TableOp) : (op.apply t).Refines c₀ (op.update M) := by
  cases op with
  | insert path data =>
    obtain ⟨hv, hp⟩ := Table.insert_spec h.valid (Entry.ofFile_hash path data)
    exact ⟨hv, hp.trans ((h.perm.filter _).cons _),
      Table.insert_scaled h.valid (Entry.ofFile_hash path data) h.scaled⟩
  | find _ => exact h
  | grow =>
    obtain ⟨hv, hp, -, -, -⟩ := Table.grow_spec h.valid
    exact ⟨hv, hp.trans h.perm, Table.grow_scaled h.valid h.scaled⟩

/-- Every run keeps the table standing for the map. -/
theorem run : ∀ (ops : List TableOp) {t : Table} {M : List Entry}, t.Refines c₀ M →
    (t.run ops).Refines c₀ (ops.foldl TableOp.update M)
  | [], _, _, h => h
  | op :: ops, _, _, h => run ops (h.step op)

/-- A run without explicit doublings keeps the table snug. -/
theorem snug_run : ∀ (ops : List TableOp) {t : Table} {M : List Entry}, t.Refines c₀ M →
    t.Snug → (∀ op ∈ ops, op ≠ .grow) → (t.run ops).Snug
  | [], _, _, _, hs, _ => hs
  | op :: ops, t, _, h, hs, hng => by
    have hop : (op.apply t).Snug := by
      cases op with
      | insert path data => exact Table.insert_snug h.valid (Entry.ofFile_hash path data) hs
      | find _ => exact hs
      | grow => exact absurd rfl (hng .grow List.mem_cons_self)
    exact snug_run ops (h.step op) hop (fun o ho => hng o (List.mem_cons_of_mem op ho))

/-- A lookup in the table answers what the map holds under the path. -/
theorem find?_eq (h : t.Refines c₀ M) (p : Bytes) :
    t.find? p = M.find? fun e => e.path == p := by
  have hnd : (M.map Entry.path).Nodup := (h.perm.map Entry.path).nodup_iff.1 h.valid.nodup_paths
  apply Option.ext
  intro e
  rw [Table.find?_eq_some_iff h.valid, find?_path_eq_some_iff hnd, h.perm.mem_iff]

/-- A snug table has the least capacity of the form `c₀ · 2 ^ j` above its count. -/
theorem capacity_le_of_snug (h : t.Refines c₀ M) (hs : t.Snug) (j : Nat)
    (hj : t.count < c₀ * Nat.pow 2 j) : t.capacity ≤ c₀ * Nat.pow 2 j := by
  rw [h.scaled]
  rcases Nat.lt_or_ge j t.grows with hlt | hle
  · -- doubling past `c₀ · 2 ^ j` needed more than that many entries
    have hmono : c₀ * Nat.pow 2 (j + 1) ≤ c₀ * Nat.pow 2 t.grows :=
      Nat.mul_le_mul_left c₀ (Nat.pow_le_pow_right (by decide) hlt)
    have hsucc : c₀ * Nat.pow 2 (j + 1) = 2 * (c₀ * Nat.pow 2 j) := by
      rw [mul_pow_two_succ, Nat.mul_assoc]
    rcases hs with h0 | hcap
    · omega
    · rw [h.scaled] at hcap
      generalize c₀ * Nat.pow 2 j = a at *
      generalize c₀ * Nat.pow 2 t.grows = b at *
      omega
  · exact Nat.mul_le_mul_left c₀ (Nat.pow_le_pow_right (by decide) hle)

end Table.Refines

/-- **The path table refines a finite map.** Start from a new table with room for `c` slots, so
with capacity `c₀ = max 2 (nextPowerOfTwo c)`, and apply any sequence of additions, lookups and
doublings; let `M` be the map the additions build, a later addition of a path replacing the
earlier one. Then a lookup answers exactly what `M` holds under the path; the count is the
size of `M` and below the capacity; the capacity is `c₀` doubled once per doubling; and the
entries in slot order are those of `M`, each once. When the sequence has no explicit
doubling, the capacity is the least `c₀ · 2 ^ j` above the size of `M`; and adding a path that
`M` holds never doubles the table. -/
theorem table_refines_map (c : Int) (ops : List TableOp) :
    let t := (Table.empty c).run ops
    let M := TableOp.mapOf ops
    let c₀ := max 2 (nextPowerOfTwo c)
    (∀ p, t.find? p = M.find? fun e => e.path == p) ∧
      t.count = M.length ∧ t.count < t.capacity ∧
      t.capacity = c₀ * Nat.pow 2 t.grows ∧ t.entries.Perm M ∧
      ((∀ op ∈ ops, op ≠ .grow) →
        ∀ j, M.length < c₀ * Nat.pow 2 j → t.capacity ≤ c₀ * Nat.pow 2 j) ∧
      ∀ p d, (M.find? fun e => e.path == p).isSome →
        (t.insert (Entry.ofFile p d)).capacity = t.capacity ∧
          (t.insert (Entry.ofFile p d)).grows = t.grows := by
  intro t M c₀
  have h₀ : (Table.empty c).Refines c₀ [] :=
    ⟨Table.empty_valid c, by rw [Table.empty_entries],
      by simp [Table.empty, Table.capacity, c₀]⟩
  have h : t.Refines c₀ M := Table.Refines.run ops h₀
  have hcount : t.count = M.length := by rw [h.valid.count_eq, h.perm.length_eq]
  refine ⟨h.find?_eq, hcount, h.valid.count_lt, h.scaled, h.perm, fun hng j hj => ?_,
    fun p d hp => ?_⟩
  · have hs := Table.Refines.snug_run ops h₀ (Or.inl rfl) hng
    exact h.capacity_le_of_snug hs j (hcount ▸ hj)
  · rw [← h.find?_eq] at hp
    exact Table.insert_of_found_size h.valid (Entry.ofFile_hash p d) hp

end Content

end StaticHttp
