import StaticHttp.Content.Load
import StaticHttp.Proofs.Content.TableMap

/-!
# What a loaded table answers

Loading walks the content tree and gathers an entry for each regular file it reads, in the
order it reads them; the table is then built by adding the entries one by one. Two facts tie
the table to the walk.

* `loadTree_made`: every entry the walk gathers is made from its file, so its hash is the hash
  of its path. The walk is a program of the loading monad; `GathersFiles` says of such a
  program that it only ever gathers such entries, and it is proved once for each primitive and
  combinator the walk uses, then for `readEntry` and, by induction on the depth, for `visit`.
* `build_find?`: a table built from entries made from files answers for a path with the entry
  read last under it (`Entry.latest`), through the map the table refines.
-/

namespace StaticHttp

namespace Content

/-! ## The walk gathers only entries made from files -/

/-- An entry made from a file: its type and hash are those of its path. -/
def Entry.Made (e : Entry) : Prop := e = Entry.ofFile e.path e.data

/-- A step of the walk that only ever gathers entries made from files. -/
def GathersFiles {α : Type} (m : Walk α) : Prop :=
  ∀ g : Gathered, (∀ e ∈ g.entries, e.Made) → ∀ e ∈ (m.run.run g).2.entries, e.Made

namespace GathersFiles

variable {α β : Type}

theorem pure' (a : α) : GathersFiles (Pure.pure a : Walk α) := fun _ h => h

theorem throw' (e : LoadError) : GathersFiles (throw e : Walk α) := fun _ h => h

theorem bind {m : Walk α} {k : α → Walk β} (hm : GathersFiles m) (hk : ∀ a, GathersFiles (k a)) :
    GathersFiles (m >>= k) := by
  intro g hg
  have h₁ := hm g hg
  simp only [ExceptT.run_bind, StateT.run_bind]
  rcases hrun : m.run.run g with ⟨_ | a, g'⟩
  · rw [hrun] at h₁
    exact h₁
  · rw [hrun] at h₁
    exact hk a g' h₁

theorem get' : GathersFiles (get : Walk Gathered) := fun _ h => h

/-- A failure ends the walk where it stands, whatever was to follow. -/
theorem throw_bind' (e : LoadError) (k : α → Walk β) : GathersFiles (throw e >>= k) :=
  fun _ h => h

theorem ite' {c : Prop} [Decidable c] {a b : Walk α} (ha : GathersFiles a) (hb : GathersFiles b) :
    GathersFiles (if c then a else b) := by
  split
  · exact ha
  · exact hb

/-- Gathering an entry made from a file. -/
theorem push' {e : Entry} (he : e.Made) :
    GathersFiles (modify fun g : Gathered => { g with entries := g.entries.push e }) := by
  intro g hg x hx
  have hrun : ((modify fun g : Gathered => { g with entries := g.entries.push e } : Walk Unit).run.run
      g) = (.ok (), { g with entries := g.entries.push e }) := rfl
  rw [hrun, Array.mem_push] at hx
  rcases hx with hx | rfl
  · exact hg x hx
  · exact he

theorem note' (level : Log.Level) (msg : String) : GathersFiles (note level msg) := fun _ h => h

theorem forM' {γ : Type} (l : List γ) {f : γ → Walk PUnit} (hf : ∀ x ∈ l, GathersFiles (f x)) :
    GathersFiles (l.forM f) := by
  induction l with
  | nil => exact pure' _
  | cons x l ih =>
    show GathersFiles (f x >>= fun _ => l.forM f)
    exact bind (hf x List.mem_cons_self) fun _ => ih fun y hy => hf y (List.mem_cons_of_mem x hy)

/-- A walk that gathers only file entries, started with nothing gathered, ends with only file
entries. -/
theorem run_fresh {m : Walk α} (hm : GathersFiles m) {x : Except LoadError α} {g : Gathered}
    (h : m.run.run {} = (x, g)) : ∀ e ∈ g.entries, e.Made := by
  have hg := hm {} (by simp)
  rw [h] at hg
  exact hg

end GathersFiles

open GathersFiles

theorem made_ofFile (path data : Bytes) : (Entry.ofFile path data).Made := rfl

theorem readEntry_gathersFiles (w : WalkSpec) (name : String) (rel : List String) :
    GathersFiles (readEntry w name rel) := by
  unfold readEntry
  refine bind get' fun g => ?_
  dsimp only
  refine ite' (throw_bind' _ _) ?_
  split
  · exact throw' _
  · exact bind (note' _ _) fun _ => push' (made_ofFile _ _)

theorem visit_gathersFiles (w : WalkSpec) (fuel : Nat) (name : String) (node : Files.Path)
    (rel : List String) (k : Files.Kind) : GathersFiles (visit w fuel name node rel k) := by
  induction fuel generalizing name node rel k with
  | zero => exact pure' _
  | succ fuel ih =>
    unfold visit
    refine ite' (note' _ _) ?_
    split
    · -- a directory: its listing fails, or each of its entries is visited in turn
      split
      · exact throw' _
      · exact forM' _ fun x _ => ih _ _ _ _
    · split
      · exact throw' _
      · exact note' _ _
      · exact readEntry_gathersFiles _ _ _
    · exact ite' (readEntry_gathersFiles _ _ _) (note' _ _)

/-- **The walk reads files into entries made from them**: each entry's type and hash are those
of its path. -/
theorem loadTree_made {t : Files.Tree} {root : String} {max : Nat} {entries : List Entry}
    (h : (loadTree t root max).1 = .ok entries) : ∀ e ∈ entries, e.Made := by
  unfold loadTree at h
  split at h
  · cases h
  split at h
  · cases h
  split at h
  · cases h
  split at h
  · cases h
  split at h
  · cases h
  dsimp only at h
  split at h
  · rename_i g hrun
    cases h
    intro e he
    refine GathersFiles.run_fresh ?_ hrun e (by simpa using he)
    exact forM' _ fun x _ => visit_gathersFiles _ _ _ _ _ _
  · cases h


/-! ## A built table answers with the entry read last -/

/-- The entry read last for a path, among entries read in order. -/
def Entry.latest (es : List Entry) (p : Bytes) : Option Entry :=
  (es.filter fun e => e.path == p).getLast?

theorem Entry.latest_cons (e : Entry) (es : List Entry) (p : Bytes) :
    Entry.latest (e :: es) p = (Entry.latest es p).or (if e.path = p then some e else none) := by
  unfold Entry.latest
  by_cases hp : e.path = p
  · simp [hp, List.getLast?_cons]
  · simp [hp]

/-- Adding files one by one to a table is running the additions of their paths and bytes. -/
theorem foldl_insert_eq_run : ∀ (es : List Entry) (t : Table), (∀ e ∈ es, e.Made) →
    es.foldl Table.insert t = t.run (es.map fun e => .insert e.path e.data)
  | [], _, _ => rfl
  | e :: es, t, h => by
    have he : Entry.ofFile e.path e.data = e := (h e List.mem_cons_self).symm
    simp only [List.foldl_cons, List.map_cons, Table.run]
    rw [foldl_insert_eq_run es _ fun x hx => h x (List.mem_cons_of_mem e hx)]
    simp only [Table.run, TableOp.apply, he]

/-- Dropping the entries of another path leaves a lookup as it was. -/
theorem find?_filter_other {M : List Entry} {p q : Bytes} (h : q ≠ p) :
    ((M.filter fun e => e.path != q).find? fun e => e.path == p) = M.find? fun e => e.path == p := by
  rw [List.find?_filter]
  congr 1
  funext e
  by_cases he : e.path = p
  · simp [he, Ne.symm h]
  · simp [he]

/-- After additions of files, the map answers for a path with the file added last under it,
and otherwise as it did before. -/
theorem find?_foldl_update : ∀ (es : List Entry) (M : List Entry) (p : Bytes), (∀ e ∈ es, e.Made) →
    ((es.map fun e => TableOp.insert e.path e.data).foldl TableOp.update M).find?
        (fun e => e.path == p) =
      (Entry.latest es p).or (M.find? fun e => e.path == p)
  | [], M, p, _ => by simp [Entry.latest]
  | e :: es, M, p, h => by
    have he : Entry.ofFile e.path e.data = e := (h e List.mem_cons_self).symm
    simp only [List.map_cons, List.foldl_cons]
    rw [find?_foldl_update es _ p fun x hx => h x (List.mem_cons_of_mem e hx), Entry.latest_cons]
    simp only [TableOp.update, he, List.find?_cons]
    by_cases hp : e.path = p
    · simp [hp]
    · have hne : (e.path == p) = false := by simpa using hp
      simp [hp, hne, find?_filter_other hp]

/-- **A built table answers with the file read last for each path.** -/
theorem build_find? {es : List Entry} (h : ∀ e ∈ es, e.Made) (p : Bytes) :
    (Table.build es).find? p = Entry.latest es p := by
  have h₀ : (Table.empty (sizeFor es.length)).Refines (max 2 (nextPowerOfTwo (sizeFor es.length))) [] :=
    ⟨Table.empty_valid _, by rw [Table.empty_entries], by simp [Table.empty, Table.capacity]⟩
  have hrun := Table.Refines.run (es.map fun e => .insert e.path e.data) h₀
  unfold Table.build
  rw [foldl_insert_eq_run es _ h, hrun.find?_eq p, find?_foldl_update es [] p h]
  simp

end Content

end StaticHttp
