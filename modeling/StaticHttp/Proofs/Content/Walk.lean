import Mathlib
import StaticHttp.Content.Load
import StaticHttp.Proofs.Text.Encoding

/-!
# What a load reads

A load walks the content tree from the node its root names. It enters directories, skips every
name that begins with a dot with all below it, and reads each regular file, and each link that
leads to something other than a directory, into an entry keyed by its path below the root. It
fails on a link that leads nowhere, on a file it cannot read, and on a file beyond the maximum
count.

`Reached` says which entries the walk comes to, through the listings of directories; `visits`
lists them in the order of the walk, and its list is exactly the reached entries
(`mem_visits_iff`), in lexical order of their paths (`visits_sorted`). The walk itself
`Performs` that list (`visit_performs`): it succeeds exactly when each link on the list can be
looked at, each entry it reads can be read and they fit below the maximum, and it then holds
their entries in the order of the list.

Main statements:
* `loadTree_reads_eligible`: a load succeeds exactly when its root is a directory and the
  entries it would read can be read and fit, and then it returns one entry for each of them, in
  lexical order of their paths.
-/

namespace StaticHttp

/-! ## Listings of directories -/

namespace Files.Tree

variable {t : Tree}

theorem mem_children {p : Path} {c : String} {k : Kind} :
    (c, k) ∈ t.children p ↔ (p ++ [c], k) ∈ t.nodes := by
  unfold Tree.children
  rw [(List.mergeSort_perm _ _).mem_iff, List.mem_filterMap]
  constructor
  · rintro ⟨⟨q, k'⟩, hq, h⟩
    simp only [Bool.and_eq_true, beq_iff_eq] at h
    split at h
    · rename_i hp
      obtain ⟨c', hc', hck⟩ := Option.map_eq_some_iff.mp h
      cases hck
      rw [← hp.1, List.dropLast_append_getLast? c hc']
      exact hq
    · cases h
  · intro h
    refine ⟨(p ++ [c], k), h, ?_⟩
    simp

/-- A listing that succeeds gives the entries of the directory. -/
theorem readDir_eq_ok {s : String} {p : Path} {cs : List (String × Kind)}
    (h : t.readDir s p = .ok cs) : cs = t.children p := by
  unfold Tree.readDir at h
  split at h
  · cases h
  · exact (Except.ok.inj h).symm

/-- In a tree that lists each path once, a listing names each entry once. -/
theorem children_names_nodup (hwf : (t.nodes.map Prod.fst).Nodup) (p : Path) :
    ((t.children p).map Prod.fst).Nodup := by
  unfold Tree.children
  rw [((List.mergeSort_perm _ _).map Prod.fst).nodup_iff]
  obtain ⟨l, cwd⟩ := t
  dsimp only at hwf ⊢
  induction l with
  | nil => simp
  | cons x l ih =>
    obtain ⟨q, k⟩ := x
    simp only [List.map_cons, List.nodup_cons] at hwf
    rw [List.filterMap_cons]
    split
    · exact ih hwf.2
    · rename_i b hb
      simp only [Bool.and_eq_true, beq_iff_eq] at hb
      split at hb
      · rename_i hq
        obtain ⟨c, hc, rfl⟩ := Option.map_eq_some_iff.mp hb
        -- The name `c` is the last component of `q`; another node so named below `p` is `q`.
        refine List.nodup_cons.mpr ⟨fun hmem => hwf.1 ?_, ih hwf.2⟩
        obtain ⟨⟨c₁, k₁⟩, hy, rfl⟩ := List.mem_map.mp hmem
        obtain ⟨⟨q₁, k₂⟩, hq₁, hy₁⟩ := List.mem_filterMap.mp hy
        simp only [Bool.and_eq_true, beq_iff_eq] at hy₁
        split at hy₁
        · rename_i hq₂
          obtain ⟨c₂, hc₂, hcc⟩ := Option.map_eq_some_iff.mp hy₁
          cases hcc
          have hqq : q₁ = q := by
            rw [← List.dropLast_append_getLast? _ hc₂, ← List.dropLast_append_getLast? _ hc,
              hq₂.1, hq.1]
          exact List.mem_map.mpr ⟨_, hq₁, hqq⟩
        · cases hy₁
      · cases hb

/-- In a tree that lists each path once, a listing is in strictly increasing order of names. -/
theorem children_names_lt (hwf : (t.nodes.map Prod.fst).Nodup) (p : Path) :
    ((t.children p).map Prod.fst).Pairwise (· < ·) := by
  have hnd := children_names_nodup hwf p
  unfold Tree.children at hnd ⊢
  exact mergeSort_names_lt (((List.mergeSort_perm _ _).map Prod.fst).nodup_iff.mp hnd)

end Files.Tree

namespace Content

open Files

/-! ## The entries a walk comes to -/

/-- The path text of the entry `rel` below the root text `root`, as the walk names it. -/
def nameOf (root : String) (rel : List String) : String := rel.foldl Tree.join root

/-- The entries a walk from the node `node` comes to, by their paths below it and with what they
are: the node itself, a directory, and each entry named in the listing of a directory it comes
to, unless the name begins with a dot. -/
inductive Reached (t : Tree) (node : Path) : List String → Kind → Prop
  | root : Reached t node [] .dir
  | child {rel : List String} {c : String} {k : Kind} : Reached t node rel .dir →
      (c, k) ∈ t.children (node ++ rel) → c.startsWith "." = false → Reached t node (rel ++ [c]) k

/-- The entries a walk visits, in order, entering `rel` of kind `k` at the node `node`, at most
`fuel` levels deep. -/
def visits (t : Tree) : Nat → Path → List String → Kind → List (List String × Kind)
  | 0, _, _, _ => []
  | fuel + 1, node, rel, k =>
    if (rel.getLast?.getD "").startsWith "." then []
    else (rel, k) :: if k = .dir then
      (t.children node).flatMap fun x => visits t fuel (node ++ [x.1]) (rel ++ [x.1]) x.2
    else []

section Visits

variable {t : Tree} {node : Path}

theorem infix_flatMap {α β : Type} {f : α → List β} {a : α} {l : List α} (h : a ∈ l) :
    f a <:+: l.flatMap f := by
  obtain ⟨s, u, rfl⟩ := List.append_of_mem h
  exact ⟨s.flatMap f, u.flatMap f, by simp⟩

theorem visits_hidden {fuel : Nat} {node : Path} {rel : List String} {k : Kind}
    (h : (rel.getLast?.getD "").startsWith "." = true) : visits t fuel node rel k = [] := by
  cases fuel with
  | zero => rfl
  | succ fuel => simp [visits, h]

theorem visits_succ {fuel : Nat} {node : Path} {rel : List String} {k : Kind}
    (h : (rel.getLast?.getD "").startsWith "." = false) :
    visits t (fuel + 1) node rel k = (rel, k) :: if k = .dir then
      (t.children node).flatMap fun x => visits t fuel (node ++ [x.1]) (rel ++ [x.1]) x.2
    else [] := by
  simp [visits, h]

theorem Reached.visible {rel : List String} {k : Kind} (h : Reached t node rel k) :
    (rel.getLast?.getD "").startsWith "." = false := by
  cases h with
  | root => decide
  | child _ _ hc => simpa using hc

/-- Every entry a walk visits from a reached entry is reached. -/
theorem reached_of_mem_visits : ∀ {fuel : Nat} {rel : List String} {k : Kind},
    Reached t node rel k → ∀ x ∈ visits t fuel (node ++ rel) rel k, Reached t node x.1 x.2
  | 0, _, _, _, x, hx => by simp [visits] at hx
  | fuel + 1, rel, k, h, x, hx => by
    rw [visits_succ h.visible] at hx
    rcases List.mem_cons.mp hx with rfl | hx
    · exact h
    by_cases hk : k = .dir
    · subst hk
      rw [if_pos rfl] at hx
      obtain ⟨⟨c, ck⟩, hc, hx⟩ := List.mem_flatMap.mp hx
      -- A child whose name begins with a dot is not visited at all.
      cases hdot : c.startsWith "." with
      | true =>
        have hhidden : ((rel ++ [c]).getLast?.getD "").startsWith "." = true := by simpa using hdot
        rw [visits_hidden hhidden] at hx
        cases hx
      | false =>
        have hr : Reached t node (rel ++ [c]) ck := .child h hc hdot
        exact reached_of_mem_visits hr x (by simpa using hx)
    · rw [if_neg hk] at hx
      simp at hx

/-- The visits of a reached entry `rel`, with the fuel left when the walk comes to it, are a
part of the visits of the whole walk. -/
theorem visits_infix {fuel : Nat} {rel : List String} {k : Kind} (h : Reached t node rel k)
    (hlen : rel.length ≤ fuel) :
    visits t (fuel + 1 - rel.length) (node ++ rel) rel k <:+: visits t (fuel + 1) node [] .dir := by
  induction h with
  | root => simp
  | @child rel c k hrel hc hdot ih =>
    simp only [List.length_append, List.length_singleton] at hlen
    have hf : fuel + 1 - rel.length = (fuel - rel.length) + 1 := by omega
    have hin := ih (by omega)
    rw [hf, visits_succ hrel.visible, if_pos rfl] at hin
    have hchild := infix_flatMap
      (f := fun x => visits t (fuel - rel.length) (node ++ rel ++ [x.1]) (rel ++ [x.1]) x.2) hc
    have hf' : fuel + 1 - (rel ++ [c]).length = fuel - rel.length := by
      simp only [List.length_append, List.length_singleton]
      omega
    rw [hf', ← List.append_assoc]
    exact (List.infix_cons hchild).trans hin

/-- The nodes on the way to a reached entry are nodes of the tree. -/
theorem Reached.prefix_mem {rel : List String} {k : Kind} (h : Reached t node rel k) :
    ∀ i < rel.length, node ++ rel.take (i + 1) ∈ t.nodes.map Prod.fst := by
  induction h with
  | root => simp
  | @child rel c k _ hc _ ih =>
    intro i hi
    simp only [List.length_append, List.length_singleton] at hi
    rcases Nat.lt_succ_iff_lt_or_eq.mp hi with hi | rfl
    · rw [List.take_append_of_le_length (by omega)]
      exact ih i hi
    · rw [List.take_of_length_le (by simp)]
      exact List.mem_map.mpr ⟨_, Tree.mem_children.mp hc, by simp⟩

/-- A reached entry lies at most as many levels down as the tree has nodes. -/
theorem Reached.length_le {rel : List String} {k : Kind} (h : Reached t node rel k) :
    rel.length ≤ t.nodes.length := by
  -- The nodes on the way down are distinct, having distinct lengths.
  let chain := (List.range rel.length).map fun i => node ++ rel.take (i + 1)
  have hnd : chain.Nodup := by
    refine List.Nodup.map_on (fun i hi j hj hij => ?_) List.nodup_range
    have := congrArg List.length hij
    simp only [List.mem_range] at hi hj
    simp only [List.length_append, List.length_take] at this
    omega
  have hsub : chain ⊆ t.nodes.map Prod.fst := by
    intro q hq
    obtain ⟨i, hi, rfl⟩ := List.mem_map.mp hq
    exact h.prefix_mem i (List.mem_range.mp hi)
  simpa [chain] using (hnd.subperm hsub).length_le

/-- The walk, given fuel for the whole depth of the tree, visits exactly the reached entries. -/
theorem mem_visits_iff {x : List String × Kind} :
    x ∈ visits t (t.nodes.length + 1) node [] .dir ↔ Reached t node x.1 x.2 := by
  constructor
  · intro hx
    exact reached_of_mem_visits .root x (by simpa using hx)
  · intro h
    have hin := visits_infix h h.length_le
    have hf : t.nodes.length + 1 - x.1.length = (t.nodes.length - x.1.length) + 1 := by
      have := h.length_le
      omega
    rw [hf, visits_succ h.visible] at hin
    exact hin.subset List.mem_cons_self

/-- Below the entry `rel`, the walk visits `rel` first and then entries below it, in strictly
increasing lexical order of their paths, when the tree lists each path once. -/
theorem visits_sorted (hwf : (t.nodes.map Prod.fst).Nodup) :
    ∀ (fuel : Nat) (node : Path) (rel : List String) (k : Kind),
      ((visits t fuel node rel k).map Prod.fst).Pairwise (· < ·) ∧
        ∀ x ∈ visits t fuel node rel k, rel <+: x.1
  | 0, _, _, _ => by simp [visits]
  | fuel + 1, node, rel, k => by
    cases hdot : (rel.getLast?.getD "").startsWith "." with
    | true =>
      rw [visits_hidden hdot]
      simp
    | false =>
      rw [visits_succ hdot]
      -- The entries below `rel` after it: those of each child in turn, in the order of names.
      have hbelow : ((if k = .dir then (t.children node).flatMap fun x =>
            visits t fuel (node ++ [x.1]) (rel ++ [x.1]) x.2 else []).map Prod.fst).Pairwise
              (· < ·) ∧
          ∀ x ∈ (if k = .dir then (t.children node).flatMap fun x =>
            visits t fuel (node ++ [x.1]) (rel ++ [x.1]) x.2 else []), ∃ c s, x.1 = rel ++ c :: s := by
        split
        · refine ⟨?_, ?_⟩
          · rw [List.map_flatMap, List.pairwise_flatMap]
            refine ⟨fun y _ => (visits_sorted hwf fuel _ _ _).1, ?_⟩
            have hnames := List.pairwise_map.mp (Tree.children_names_lt hwf node)
            refine hnames.imp fun {a b} hab x hx y hy => ?_
            obtain ⟨x', hx', rfl⟩ := List.mem_map.mp hx
            obtain ⟨y', hy', rfl⟩ := List.mem_map.mp hy
            obtain ⟨u, hu⟩ := (visits_sorted hwf fuel _ _ _).2 x' hx'
            obtain ⟨v, hv⟩ := (visits_sorted hwf fuel _ _ _).2 y' hy'
            rw [← hu, ← hv]
            simpa using (List.append_left_lt (List.cons_lt_cons_iff.mpr (Or.inl hab)) :
              rel ++ a.1 :: u < rel ++ b.1 :: v)
          · intro x hx
            obtain ⟨y, _, hx⟩ := List.mem_flatMap.mp hx
            obtain ⟨u, hu⟩ := (visits_sorted hwf fuel _ _ _).2 x hx
            exact ⟨y.1, u, by simp [← hu]⟩
        · simp
      refine ⟨List.pairwise_cons.mpr ⟨fun y hy => ?_, hbelow.1⟩, fun x hx => ?_⟩
      · obtain ⟨x, hx, rfl⟩ := List.mem_map.mp hy
        obtain ⟨c, s, hs⟩ := hbelow.2 x hx
        rw [hs]
        simpa using (List.append_left_lt (List.nil_lt_cons c s) : rel ++ [] < rel ++ c :: s)
      · rcases List.mem_cons.mp hx with rfl | hx
        · exact List.prefix_refl _
        · obtain ⟨c, s, hs⟩ := hbelow.2 x hx
          exact ⟨c :: s, hs.symm⟩

end Visits

/-! ## What the walk does at the entries it visits -/

/-- Whether the walk reads a visited entry: a regular file, or a link that leads to something
other than a directory. -/
def readsEntry (t : Tree) (root : String) (x : List String × Kind) : Bool :=
  match x.2 with
  | .link _ => (t.stat (nameOf root x.1)).toOption.any fun k => !k.isDir
  | k => k.isRegular

/-- Whether the walk from the node `node` fails at a visited entry before reading anything: a
directory it cannot list, or a link it cannot follow. -/
def failsAt (t : Tree) (root : String) (node : Path) (x : List String × Kind) : Bool :=
  match x.2 with
  | .dir => !(t.readDir (nameOf root x.1) (node ++ x.1)).isOk
  | .link _ => !(t.stat (nameOf root x.1)).isOk
  | _ => false

/-- The entry a load makes of the file `rel` below the root text `root`. -/
def entryAt (t : Tree) (root : String) (rel : List String) : Entry :=
  Entry.ofFile (Bytes.ofString ("/" ++ "/".intercalate rel))
    ((t.readFile (nameOf root rel)).toOption.getD [])

/-- The entries `L` visited from the node `node` let a walk that has gathered `n` entries
succeed: the walk fails at none of them, the files among them can be read, and they fit below
the maximum. -/
def Fits (w : WalkSpec) (node : Path) (L : List (List String × Kind)) (n : Nat) : Prop :=
  (∀ x ∈ L, failsAt w.tree w.root node x = false) ∧
  n + (L.filter (readsEntry w.tree w.root)).length ≤ w.max ∧
  ∀ x ∈ L, readsEntry w.tree w.root x = true → (w.tree.readFile (nameOf w.root x.1)).isOk = true

/-- A step of the walk from the node `node` performs the visited entries `L`: from every state
with at most the maximum of entries gathered, it succeeds exactly when `L` fits, and then it has
added the entries of the files among `L`, in their order. -/
def Performs (w : WalkSpec) (node : Path) (L : List (List String × Kind)) (m : Walk Unit) : Prop :=
  ∀ g : Gathered, g.entries.size ≤ w.max →
    ((m.run.run g).1 = .ok () ↔ Fits w node L g.entries.size) ∧
    ((m.run.run g).1 = .ok () → (m.run.run g).2.entries.toList =
      g.entries.toList ++ (L.filter (readsEntry w.tree w.root)).map fun x => entryAt w.tree w.root x.1)

section Performs

variable {w : WalkSpec} {node : Path}

theorem fits_nil {n : Nat} : Fits w node [] n ↔ n ≤ w.max := by
  simp [Fits]

theorem fits_append {L₁ L₂ : List (List String × Kind)} {n : Nat} :
    Fits w node (L₁ ++ L₂) n ↔
      Fits w node L₁ n ∧ Fits w node L₂ (n + (L₁.filter (readsEntry w.tree w.root)).length) := by
  simp only [Fits, List.mem_append, List.filter_append, List.length_append]
  constructor
  · rintro ⟨hl, hn, hr⟩
    exact ⟨⟨fun x hx => hl x (.inl hx), by omega, fun x hx => hr x (.inl hx)⟩,
      ⟨fun x hx => hl x (.inr hx), by omega, fun x hx => hr x (.inr hx)⟩⟩
  · rintro ⟨⟨hl₁, _, hr₁⟩, ⟨hl₂, hn₂, hr₂⟩⟩
    refine ⟨fun x hx => hx.elim (hl₁ x) (hl₂ x), by omega, fun x hx => hx.elim (hr₁ x) (hr₂ x)⟩

/-- Entries that fit after a first entry at which the walk fails do not fit. -/
theorem not_fits_cons {x : List String × Kind} {L : List (List String × Kind)} {n : Nat}
    (hf : failsAt w.tree w.root node x = true) : ¬Fits w node (x :: L) n := fun h => by
  simp [h.1 x List.mem_cons_self] at hf

@[simp] theorem run_pure (g : Gathered) : ((pure () : Walk Unit).run.run g) = (.ok (), g) := rfl

@[simp] theorem run_note (level : Log.Level) (msg : String) (g : Gathered) :
    (note level msg).run.run g = (.ok (), { g with logs := g.logs.push (Log.Entry.plain level msg) }) :=
  rfl

theorem Performs.pure' : Performs w node [] (pure ()) := fun g hg =>
  ⟨by simp only [run_pure, fits_nil, hg], fun _ => by simp only [run_pure]; simp⟩

theorem Performs.note' (level : Log.Level) (msg : String) : Performs w node [] (note level msg) :=
  fun g hg => ⟨by simp [fits_nil, hg], fun _ => by simp⟩

theorem run_bind_ok {m₁ m₂ : Walk Unit} {g g₁ : Gathered} (h : m₁.run.run g = (.ok (), g₁)) :
    (m₁ >>= fun _ => m₂).run.run g = m₂.run.run g₁ := by
  simp only [ExceptT.run_bind, StateT.run_bind, h]
  rfl

theorem run_bind_error {m₁ m₂ : Walk Unit} {g g₁ : Gathered} {e : LoadError}
    (h : m₁.run.run g = (.error e, g₁)) : (m₁ >>= fun _ => m₂).run.run g = (.error e, g₁) := by
  simp only [ExceptT.run_bind, StateT.run_bind, h]
  rfl

theorem Performs.bind {L₁ L₂ : List (List String × Kind)} {m₁ m₂ : Walk Unit}
    (h₁ : Performs w node L₁ m₁) (h₂ : Performs w node L₂ m₂) :
    Performs w node (L₁ ++ L₂) (m₁ >>= fun _ => m₂) := by
  intro g hg
  obtain ⟨hok₁, hent₁⟩ := h₁ g hg
  rcases hrun : m₁.run.run g with ⟨_ | ⟨⟩, g₁⟩
  · -- The first step fails, and so does all: the entries before the failure do not fit.
    rw [run_bind_error hrun, fits_append]
    rw [hrun] at hok₁
    simp only [reduceCtorEq, false_iff] at hok₁
    simp [hok₁]
  · -- The first step succeeds with its entries added; the second starts from there.
    rw [run_bind_ok hrun]
    rw [hrun] at hok₁ hent₁
    have hfit₁ := hok₁.mp rfl
    have hents := hent₁ rfl
    have hsize : g₁.entries.size = g.entries.size +
        (L₁.filter (readsEntry w.tree w.root)).length := by
      have := congrArg List.length hents
      simpa using this
    obtain ⟨hok₂, hent₂⟩ := h₂ g₁ (hsize ▸ hfit₁.2.1)
    refine ⟨by rw [hok₂, fits_append, hsize]; exact ⟨fun h => ⟨hfit₁, h⟩, fun h => h.2⟩, fun h => ?_⟩
    rw [hent₂ h, hents]
    simp

theorem Performs.cons_inert {x : List String × Kind} {L : List (List String × Kind)}
    {m : Walk Unit} (hr : readsEntry w.tree w.root x = false)
    (hl : failsAt w.tree w.root node x = false) (h : Performs w node L m) :
    Performs w node (x :: L) m := by
  have hfilter : (x :: L).filter (readsEntry w.tree w.root) = L.filter (readsEntry w.tree w.root) := by
    simp [hr]
  have hfits : ∀ n, Fits w node (x :: L) n ↔ Fits w node L n := by
    intro n
    simp only [Fits, List.mem_cons, forall_eq_or_imp, hl, hr, hfilter, true_and,
      Bool.false_eq_true, false_implies]
  intro g hg
  rw [hfits, hfilter]
  exact h g hg

/-- A step that fails at the first entry it visits performs those entries, whatever follows. -/
theorem Performs.throw' {x : List String × Kind} {L : List (List String × Kind)}
    (hl : failsAt w.tree w.root node x = true) (e : LoadError) :
    Performs w node (x :: L) (throw e) := by
  intro g _
  simp [not_fits_cons hl]

theorem run_get_bind {f : Gathered → Walk Unit} (g : Gathered) :
    (get >>= f).run.run g = (f g).run.run g := rfl

theorem run_modify (f : Gathered → Gathered) (g : Gathered) :
    (modify f : Walk Unit).run.run g = (.ok (), f g) := rfl

theorem run_throw (e : LoadError) (g : Gathered) : (throw e : Walk Unit).run.run g = (.error e, g) :=
  rfl

theorem Performs.readEntry' {x : List String × Kind} (hr : readsEntry w.tree w.root x = true)
    (hl : failsAt w.tree w.root node x = false) :
    Performs w node [x] (readEntry w (nameOf w.root x.1) x.1) := by
  intro g hg
  have hfits : Fits w node [x] g.entries.size ↔
      g.entries.size + 1 ≤ w.max ∧ (w.tree.readFile (nameOf w.root x.1)).isOk = true := by
    simp [Fits, hr, hl]
  rw [hfits]
  by_cases hmax : g.entries.size = w.max
  · -- The table is full: the walk fails before reading.
    simp only [readEntry, run_get_bind, if_pos hmax]
    rw [run_bind_error (run_throw _ g)]
    simp [hmax]
  · simp only [readEntry, run_get_bind, if_neg hmax]
    have hroom : g.entries.size + 1 ≤ w.max := by omega
    cases hread : w.tree.readFile (nameOf w.root x.1) with
    | error e =>
      simp only [run_throw]
      simp [Except.isOk, Except.toBool]
    | ok d =>
      simp only
      rw [run_bind_ok (run_note _ _ g), run_modify]
      simp [hread, hr, entryAt, hroom, Except.isOk, Except.toBool, Except.toOption]

theorem Performs.forM' {α : Type} {l : List α} {f : α → List (List String × Kind)}
    {m : α → Walk PUnit} (h : ∀ y ∈ l, Performs w node (f y) (m y)) :
    Performs w node (l.flatMap f) (l.forM m) := by
  induction l with
  | nil => exact Performs.pure'
  | cons y l ih =>
    rw [List.flatMap_cons]
    exact (h y List.mem_cons_self).bind (ih fun z hz => h z (List.mem_cons_of_mem y hz))

end Performs

theorem nameOf_snoc (root : String) (rel : List String) (c : String) :
    nameOf root (rel ++ [c]) = Tree.join (nameOf root rel) c := by
  simp [nameOf]

theorem isOk_iff {ε α : Type} {x : Except ε α} : x.isOk = true ↔ ∃ a, x = .ok a := by
  cases x <;> simp [Except.isOk, Except.toBool]

/-- A directory the walk lists: its listing is the directory's entries, and the walk does not
fail there. -/
theorem listed_dir {t : Tree} {root : String} {node : Path} {rel : List String}
    {cs : List (String × Kind)} (h : t.readDir (nameOf root rel) (node ++ rel) = .ok cs) :
    cs = t.children (node ++ rel) ∧ failsAt t root node (rel, .dir) = false := by
  refine ⟨Tree.readDir_eq_ok h, ?_⟩
  simp [failsAt, h, Except.isOk, Except.toBool]

/-- A directory the walk cannot list: the walk fails there. -/
theorem unlisted_dir {t : Tree} {root : String} {node : Path} {rel : List String}
    {e : PathError} (h : t.readDir (nameOf root rel) (node ++ rel) = .error e) :
    failsAt t root node (rel, .dir) = true := by
  simp [failsAt, h, Except.isOk, Except.toBool]

/-- A link the walk can follow: the walk does not fail there. -/
theorem followed_link {t : Tree} {root : String} {node : Path} {rel : List String}
    {target : String} {k : Kind} (h : t.stat (nameOf root rel) = .ok k) :
    failsAt t root node (rel, .link target) = false := by
  simp [failsAt, h, Except.isOk, Except.toBool]

/-- A link the walk cannot follow: the walk fails there. -/
theorem broken_link {t : Tree} {root : String} {node : Path} {rel : List String}
    {target : String} {e : PathError} (h : t.stat (nameOf root rel) = .error e) :
    failsAt t root node (rel, .link target) = true := by
  simp [failsAt, h, Except.isOk, Except.toBool]

/-- **The walk performs its visits**: entering `rel` of kind `k`, at the node `base ++ rel` of a
walk from `base`, it does what the entries it visits call for, each in turn. -/
theorem visit_performs (w : WalkSpec) (base : Path) :
    ∀ (fuel : Nat) (rel : List String) (k : Kind),
      Performs w base (visits w.tree fuel (base ++ rel) rel k)
        (visit w fuel (nameOf w.root rel) (base ++ rel) rel k)
  | 0, rel, k => Performs.pure'
  | fuel + 1, rel, k => by
    unfold visit
    dsimp only
    by_cases hdot : (rel.getLast?.getD "").startsWith "." = true
    · rw [if_pos hdot, visits_hidden hdot]
      exact Performs.note' _ _
    rw [if_neg hdot, visits_succ (by simpa using hdot)]
    cases k with
    | dir =>
      rw [if_pos rfl]
      cases hd : w.tree.readDir (nameOf w.root rel) (base ++ rel) with
      | error e =>
        -- A directory it cannot list stops the walk.
        exact Performs.throw' (unlisted_dir hd) _
      | ok cs =>
        -- A directory it lists: nothing of its own, then its entries in order.
        obtain ⟨rfl, hl⟩ := listed_dir hd
        refine Performs.cons_inert rfl hl ?_
        refine Performs.forM' fun y _ => ?_
        obtain ⟨c, ck⟩ := y
        show Performs w base (visits w.tree fuel (base ++ rel ++ [c]) (rel ++ [c]) ck)
          (visit w fuel (Tree.join (nameOf w.root rel) c) (base ++ rel ++ [c]) (rel ++ [c]) ck)
        rw [← nameOf_snoc, List.append_assoc]
        exact visit_performs w base fuel _ _
    | link target =>
      rw [if_neg (by simp)]
      dsimp only
      cases hs : w.tree.stat (nameOf w.root rel) with
      | error e => exact Performs.throw' (broken_link hs) _
      | ok k =>
        -- A link is followed to what it names; a directory there is left alone.
        have hl : failsAt w.tree w.root base (rel, .link target) = false := followed_link hs
        cases k with
        | dir =>
          exact Performs.cons_inert (by simp [readsEntry, hs, Except.toOption, Kind.isDir]) hl
            (Performs.note' _ _)
        | _ => exact Performs.readEntry' (by simp [readsEntry, hs, Except.toOption, Kind.isDir]) hl
    | file d => exact Performs.readEntry' rfl rfl
    | fifo => exact Performs.cons_inert rfl rfl (Performs.note' _ _)
    | device d => exact Performs.cons_inert rfl rfl (Performs.note' _ _)
    | faulty => exact Performs.readEntry' rfl rfl

/-- The walk from the root, as a load starts it once the root's node is listed: each entry of
the listing entered with its own name. -/
theorem performs_root (w : WalkSpec) (node : Path) {cs : List (String × Kind)}
    (hd : w.tree.readDir w.root node = .ok cs) {F : String × Kind → Walk PUnit}
    (hF : ∀ c ck, F (c, ck) = visit w w.tree.nodes.length (Tree.join w.root c) (node ++ [c]) [c] ck) :
    Performs w node (visits w.tree (w.tree.nodes.length + 1) node [] .dir) (cs.forM F) := by
  have hd' : w.tree.readDir (nameOf w.root []) (node ++ []) = .ok cs := by simpa [nameOf] using hd
  obtain ⟨rfl, hl⟩ := listed_dir hd'
  rw [visits_succ (by decide)]
  refine Performs.cons_inert rfl hl ?_
  rw [if_pos rfl, List.append_nil]
  refine Performs.forM' fun y _ => ?_
  obtain ⟨c, ck⟩ := y
  rw [hF, List.nil_append]
  exact visit_performs w node w.tree.nodes.length [c] ck

/-- What the run of the walk from a listed root ends with. -/
theorem root_run {w : WalkSpec} {node : Path} {cs : List (String × Kind)} {F : String × Kind → Walk PUnit}
    {r : Except LoadError PUnit} {g : Gathered} (h : (cs.forM F).run.run {} = (r, g))
    (hd : w.tree.readDir w.root node = .ok cs)
    (hF : ∀ c ck, F (c, ck) = visit w w.tree.nodes.length (Tree.join w.root c) (node ++ [c]) [c] ck) :
    (r = .ok () ↔ Fits w node (visits w.tree (w.tree.nodes.length + 1) node [] .dir) 0) ∧
      (r = .ok () → g.entries.toList =
        ((visits w.tree (w.tree.nodes.length + 1) node [] .dir).filter (readsEntry w.tree w.root)).map
          fun x => entryAt w.tree w.root x.1) := by
  have hp := performs_root w node hd hF {} (by simp)
  rw [h] at hp
  simpa using hp

/-! ## Loading the tree -/

/-- The root text `root` resolves, through its links, to the text `resolved` of a directory,
the node `node` of the tree. -/
structure RootDir (t : Tree) (root resolved : String) (node : Path) : Prop where
  resolves : t.evalSymlinks root = .ok resolved
  isDir : t.stat resolved = .ok .dir
  locates : t.locate resolved true = .ok node

/-- A load succeeds only past its root, a directory. -/
theorem rootDir_of_loadTree {t : Tree} {root : String} {max : Nat} {es : List Entry}
    (h : (loadTree t root max).1 = .ok es) : ∃ resolved node, RootDir t root resolved node := by
  unfold loadTree at h
  split at h
  · cases h
  rename_i resolved hres
  split at h
  · cases h
  rename_i k hk
  split at h
  · cases h
  rename_i hdir
  split at h
  · cases h
  rename_i node hnode
  have hk' : k = .dir := by
    cases k <;> simp_all [Kind.isDir]
  exact ⟨resolved, node, hres, hk' ▸ hk, hnode⟩

/-- Past a root that is a directory, a load succeeds exactly when the entries the walk visits
fit, and it then returns the entries of the files among them, in order. -/
theorem loadTree_ok_iff {t : Tree} {root resolved : String} {node : Path} {max : Nat}
    (h : RootDir t root resolved node) {es : List Entry} :
    (loadTree t root max).1 = .ok es ↔
      Fits ⟨t, resolved, root, max⟩ node (visits t (t.nodes.length + 1) node [] .dir) 0 ∧
        es = ((visits t (t.nodes.length + 1) node [] .dir).filter (readsEntry t resolved)).map
          fun x => entryAt t resolved x.1 := by
  unfold loadTree
  simp only [h.resolves, h.isDir, h.locates, Kind.isDir, Bool.not_true, Bool.false_eq_true,
    ↓reduceIte]
  cases hd : t.readDir resolved node with
  | error e =>
    -- The root cannot be listed: the walk fails at its first entry, the root itself.
    have hd' : t.readDir (nameOf resolved []) (node ++ []) = .error e := by simpa [nameOf] using hd
    have hfail : failsAt t resolved node ([], .dir) = true := unlisted_dir hd'
    simp only [reduceCtorEq, false_iff, not_and]
    rw [visits_succ (by decide)]
    exact fun hfit => absurd hfit (not_fits_cons hfail)
  | ok cs =>
    dsimp only
    split
    · rename_i u g heq
      obtain ⟨hok, hents⟩ := root_run (w := ⟨t, resolved, root, max⟩) heq hd fun _ _ => rfl
      simp only [Except.ok.injEq, hents rfl, hok.mp rfl, true_and]
      exact eq_comm
    · rename_i e g heq
      obtain ⟨hok, -⟩ := root_run (w := ⟨t, resolved, root, max⟩) heq hd fun _ _ => rfl
      simp only [reduceCtorEq, false_iff, not_and]
      intro hfit
      exact absurd (hok.mpr hfit) (by simp)

/-! ## What a load returns -/

/-- The files a load reads below the node `node`, named from the root text `root`: the reached
entries that are regular files, or links to something other than a directory. -/
def Eligible (t : Tree) (root : String) (node : Path) (rel : List String) : Prop :=
  ∃ k, Reached t node rel k ∧ readsEntry t root (rel, k) = true

/-- The paths of the eligible files, each once, in lexical order. -/
structure Listing (t : Tree) (root : String) (node : Path) (rels : List (List String)) : Prop where
  sorted : rels.Pairwise (· < ·)
  mem_iff : ∀ rel, rel ∈ rels ↔ Eligible t root node rel

/-- The paths of the files the walk from `node` reads, in the order it reads them. -/
def readPaths (t : Tree) (root : String) (node : Path) : List (List String) :=
  ((visits t (t.nodes.length + 1) node [] .dir).filter (readsEntry t root)).map Prod.fst

section Listing

variable {t : Tree} {root : String} {node : Path}

/-- There is one listing of the eligible files. -/
theorem Listing.unique {rels rels' : List (List String)} (h : Listing t root node rels)
    (h' : Listing t root node rels') : rels = rels' := by
  have hperm : rels.Perm rels' :=
    (List.perm_ext_iff_of_nodup h.sorted.nodup h'.sorted.nodup).mpr fun rel =>
      (h.mem_iff rel).trans (h'.mem_iff rel).symm
  exact hperm.eq_of_pairwise (fun _ _ _ _ hab hba => absurd hba (List.lt_asymm hab)) h.sorted
    h'.sorted

/-- The walk reads the eligible files in lexical order, when the tree lists each path once. -/
theorem listing_readPaths (hwf : (t.nodes.map Prod.fst).Nodup) :
    Listing t root node (readPaths t root node) where
  sorted := (visits_sorted hwf _ _ _ _).1.sublist (List.filter_sublist.map _)
  mem_iff rel := by
    simp only [readPaths, List.mem_map, List.mem_filter]
    constructor
    · rintro ⟨x, ⟨hx, hr⟩, rfl⟩
      exact ⟨x.2, mem_visits_iff.mp hx, hr⟩
    · rintro ⟨k, hk, hr⟩
      exact ⟨(rel, k), ⟨mem_visits_iff.mpr hk, hr⟩, rfl⟩

end Listing

/-- The entries a walk from the root visits fit exactly when every reached directory can be
listed, every reached link leads somewhere, and the files it reads can be read and number at
most the maximum. -/
theorem fits_visits_iff {t : Tree} {root resolved : String} {node : Path} {max : Nat} :
    Fits ⟨t, resolved, root, max⟩ node (visits t (t.nodes.length + 1) node [] .dir) 0 ↔
      (∀ rel, Reached t node rel .dir →
        ∃ cs, t.readDir (nameOf resolved rel) (node ++ rel) = .ok cs) ∧
      (∀ rel target, Reached t node rel (.link target) →
        ∃ k, t.stat (nameOf resolved rel) = .ok k) ∧
      (readPaths t resolved node).length ≤ max ∧
      ∀ rel ∈ readPaths t resolved node, ∃ d, t.readFile (nameOf resolved rel) = .ok d := by
  simp only [Fits, readPaths, Nat.zero_add, List.length_map]
  refine (and_congr ?_ (and_congr_right fun _ => ?_)).trans and_assoc
  · -- the walk fails nowhere: at no directory, as at no link, of those it comes to
    constructor
    · intro h
      refine ⟨fun rel hr => ?_, fun rel target hr => ?_⟩
      · simpa [failsAt, isOk_iff] using h (rel, .dir) (mem_visits_iff.mpr hr)
      · simpa [failsAt, isOk_iff] using h (rel, .link target) (mem_visits_iff.mpr hr)
    · rintro ⟨hdir, hlink⟩ ⟨rel, k⟩ hx
      cases k with
      | dir =>
        obtain ⟨cs, hcs⟩ := hdir rel (mem_visits_iff.mp hx)
        exact (listed_dir hcs).2
      | link target =>
        obtain ⟨k, hk⟩ := hlink rel target (mem_visits_iff.mp hx)
        exact followed_link hk
      | _ => rfl
  · simp only [List.mem_map, List.mem_filter, isOk_iff]
    constructor
    · rintro h rel ⟨x, ⟨hx, hr⟩, rfl⟩
      exact h x hx hr
    · intro h x hx hr
      exact h x.1 ⟨x, ⟨hx, hr⟩, rfl⟩

/-- **A load reads exactly the eligible files.** In a tree that lists each path once, a load
succeeds exactly when its root resolves to a directory, every directory the walk comes to can be
listed, every link it comes to leads somewhere, and the eligible files below the root can be read
and number at most the maximum. It then returns one entry for each eligible file, in lexical
order of their paths, made of the bytes read from it. The eligible files are the regular files
and the links to anything but a directory, reached through directories and names that do not
begin with a dot. -/
theorem loadTree_reads_eligible {t : Tree} (hwf : (t.nodes.map Prod.fst).Nodup) (root : String)
    (max : Nat) :
    ((∃ es, (loadTree t root max).1 = .ok es) ↔
      ∃ resolved node rels, RootDir t root resolved node ∧ Listing t resolved node rels ∧
        (∀ rel, Reached t node rel .dir →
          ∃ cs, t.readDir (nameOf resolved rel) (node ++ rel) = .ok cs) ∧
        (∀ rel target, Reached t node rel (.link target) →
          ∃ k, t.stat (nameOf resolved rel) = .ok k) ∧
        rels.length ≤ max ∧ ∀ rel ∈ rels, ∃ d, t.readFile (nameOf resolved rel) = .ok d) ∧
    ∀ es, (loadTree t root max).1 = .ok es →
      ∃ resolved node rels, RootDir t root resolved node ∧ Listing t resolved node rels ∧
        es = rels.map (entryAt t resolved) := by
  refine ⟨⟨?_, ?_⟩, ?_⟩
  · rintro ⟨es, hes⟩
    obtain ⟨resolved, node, hroot⟩ := rootDir_of_loadTree hes
    obtain ⟨hfit, -⟩ := (loadTree_ok_iff hroot).mp hes
    exact ⟨resolved, node, _, hroot, listing_readPaths hwf, fits_visits_iff.mp hfit⟩
  · rintro ⟨resolved, node, rels, hroot, hlist, hfit⟩
    -- The listing is the one the walk reads, so the walk fits and the load succeeds.
    obtain rfl := hlist.unique (listing_readPaths hwf)
    exact ⟨_, (loadTree_ok_iff hroot).mpr ⟨fits_visits_iff.mpr hfit, rfl⟩⟩
  · intro es hes
    obtain ⟨resolved, node, hroot⟩ := rootDir_of_loadTree hes
    obtain ⟨-, rfl⟩ := (loadTree_ok_iff hroot).mp hes
    exact ⟨resolved, node, _, hroot, listing_readPaths hwf, by simp [readPaths]⟩

/-- A tree below `/c` holding a file, a link to it, a named pipe and a dot directory with a
file: the load reads the file and the link, and nothing else, with room for two entries. -/
theorem loadTree_reads_file_and_link :
    (([(["c"], .dir), (["c", ".git"], .dir), (["c", ".git", "x"], .file [120]),
        (["c", "a"], .file [104, 105]), (["c", "l"], .link "/c/a"), (["c", "p"], .fifo)] :
        List (Path × Kind)).map Prod.fst).Nodup ∧
      ∃ resolved node rels,
        RootDir ⟨[(["c"], .dir), (["c", ".git"], .dir), (["c", ".git", "x"], .file [120]),
          (["c", "a"], .file [104, 105]), (["c", "l"], .link "/c/a"), (["c", "p"], .fifo)], [], []⟩
          "/c" resolved node ∧
        Listing ⟨[(["c"], .dir), (["c", ".git"], .dir), (["c", ".git", "x"], .file [120]),
          (["c", "a"], .file [104, 105]), (["c", "l"], .link "/c/a"), (["c", "p"], .fifo)], [], []⟩
          resolved node rels ∧
        rels.length ≤ 2 := by
  have hwf : (([(["c"], .dir), (["c", ".git"], .dir), (["c", ".git", "x"], .file [120]),
      (["c", "a"], .file [104, 105]), (["c", "l"], .link "/c/a"), (["c", "p"], .fifo)] :
      List (Path × Kind)).map Prod.fst).Nodup := by decide
  have hrun : (loadTree ⟨[(["c"], .dir), (["c", ".git"], .dir), (["c", ".git", "x"], .file [120]),
      (["c", "a"], .file [104, 105]), (["c", "l"], .link "/c/a"), (["c", "p"], .fifo)], [], []⟩
      "/c" 2).1 =
      .ok [Entry.ofFile (Bytes.ofString "/a") [104, 105], Entry.ofFile (Bytes.ofString "/l") [104, 105]] := by
    cbv
  obtain ⟨resolved, node, rels, hroot, hlist, -, -, hlen, -⟩ :=
    (loadTree_reads_eligible (t := ⟨[(["c"], .dir), (["c", ".git"], .dir),
      (["c", ".git", "x"], .file [120]), (["c", "a"], .file [104, 105]), (["c", "l"], .link "/c/a"),
      (["c", "p"], .fifo)], [], []⟩) hwf "/c" 2).1.mp ⟨_, hrun⟩
  exact ⟨hwf, resolved, node, rels, hroot, hlist, hlen⟩

/-- A link below the root to a device is read as a file, though a device is none: the load
returns an entry for it. -/
theorem loadTree_reads_device_link :
    Tree.stat ⟨[(["c"], .dir), (["c", "n"], .link "/d"), (["d"], .device [])], [], []⟩ "/c/n" =
        .ok (.device []) ∧
      (loadTree ⟨[(["c"], .dir), (["c", "n"], .link "/d"), (["d"], .device [])], [], []⟩ "/c" 1).1 =
        .ok [Entry.ofFile (Bytes.ofString "/n") []] :=
  ⟨by cbv, by cbv⟩

/-- A directory below the root that cannot be listed fails the load, with the name it was
walked by. -/
example :
    (loadTree ⟨[(["c"], .dir), (["c", "s"], .dir)], [], [["c", "s"]]⟩ "/c" 1).1 =
      .error (.walk "/c/s" ⟨"open", "/c/s", .access⟩) := by
  cbv

end Content

end StaticHttp
