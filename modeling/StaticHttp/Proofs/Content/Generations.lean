import StaticHttp.Content.Shared
import StaticHttp.Proofs.Content.Loaded

/-!
# Generations of a shared cache

A cache is shared by many goroutines: some call `Load`, some look paths up, and the content
tree may change at any moment. Whatever the interleaving, the cache behaves as a sequence of
generations that only moves forward.

* The generations published carry the numbers 1, 2, 3, … in the order they go live, and the
  live one is the last of them; there is none before the first rebuild that succeeds.
* Each is the table built from the entries its rebuild read from the tree, so a lookup answers
  with the entry that rebuild read last for the path, or misses.
* Only two steps touch the cache: taking the next number, after a rebuild read the tree
  successfully, and publishing that number. A rebuild that fails to read never reaches them,
  so it leaves the live generation and the count as they were.
* Every caller gets either a generation that was published or the failure of loading, as
  `failed to load cache: …`; the load hook is called once for each rebuild, with the outcome
  its callers get.

The proof is one invariant, `Shared.Inv`, kept by every step (`Shared.Inv.step`), so by every
run (`Shared.Inv.run`). It keeps a record of what was published (`Shared.history`) beside the
cache, and says of the rebuild in flight what its stage has done (`Stage.Ok`).

Main statements:
* `Shared.generations_monotone`: all of the above, for every run from a fresh cache.
-/

namespace StaticHttp

namespace Content

/-! ## What each stage of a rebuild has done -/

/-- The entries are what loading some tree under the cache's root, with its limit, read. -/
def Cache.ReadBy (c : Cache) (es : List Entry) : Prop :=
  ∃ t, (loadTree t c.root c.maxEntries).1 = .ok es

/-- What a rebuild may end with: a generation that was published, or the failure that loading
some tree gave. -/
def Cache.Ends (c : Cache) (history : List (Generation × List Entry)) :
    Except LoadError Generation → Prop
  | .ok g => ∃ es, (g, es) ∈ history
  | .error e => ∃ t, (loadTree t c.root c.maxEntries).1 = .error e

namespace Stage

/-- One for a stage that holds a number it has not published, zero otherwise. -/
def unpublished : Stage → Nat
  | .numbered _ _ => 1
  | _ => 0

/-- The outcome a stage has reported to the load hook, if it has. -/
def reportedOutcome : Stage → List (Except String Generation)
  | .reported r => [Cache.outcome r]
  | _ => []

/-- What a stage says of a cache whose counter is `published` and which published `history`:
what it read came from loading a tree, the number it took is the counter, its table is built
from what it read, and its outcome is a published generation or a failure of loading. -/
def Ok (c : Cache) (published : Nat) (history : List (Generation × List Entry)) : Stage → Prop
  | .reading => True
  | .built es => c.ReadBy es
  | .numbered es g => g.id = published ∧ g.table = Table.build es ∧ c.ReadBy es
  | .over r => c.Ends history r
  | .reported r => c.Ends history r

end Stage

/-- What a rebuild ended with stays sound as more generations are published. -/
theorem Cache.Ends.append {history : List (Generation × List Entry)} {c : Cache}
    {r : Except LoadError Generation}
    (h : c.Ends history r) (more : List (Generation × List Entry)) : c.Ends (history ++ more) r := by
  cases r with
  | ok g =>
    obtain ⟨es, hes⟩ := h
    exact ⟨es, List.mem_append_left more hes⟩
  | error e => exact h

namespace Shared

/-! ## The invariant -/

/-- One while the rebuild in flight holds a number it has not published, zero otherwise. -/
def pending (s : Shared) : Nat := (s.flight.map (·.stage.unpublished)).getD 0

/-- The outcome the rebuild in flight reported to the load hook, if it has. -/
def reportedNow (s : Shared) : List (Except String Generation) :=
  (s.flight.map (·.stage.reportedOutcome)).getD []

/-- What the stage of the rebuild in flight, if any, says of the cache. -/
def StageOk (c : Cache) (s : Shared) : Prop :=
  ∀ f, s.flight = some f → f.stage.Ok c s.cache.published s.history

/-- The invariant of a cache made with root and limit those of `c`. -/
structure Inv (c : Cache) (s : Shared) : Prop where
  root : s.cache.root = c.root
  maxEntries : s.cache.maxEntries = c.maxEntries
  ids : s.history.map (·.1.id) = List.range' 1 s.history.length
  live : s.cache.current = (s.history.getLast?).map Prod.fst
  counter : s.cache.published = s.history.length + s.pending
  built : ∀ x ∈ s.history, x.1.table = Table.build x.2 ∧ c.ReadBy x.2
  stage : s.StageOk c
  answered : ∀ x ∈ s.answered, ∃ r, c.Ends s.history r ∧ x.2 = Cache.outcome r
  hooked : s.hooked = s.answered.map Prod.snd ++ s.reportedNow

theorem Inv.start (root : String) (max : Nat) (t : Files.Tree) :
    (Shared.start { root, maxEntries := max } t).Inv { root, maxEntries := max } where
  root := rfl
  maxEntries := rfl
  ids := rfl
  live := rfl
  counter := rfl
  built := by simp [Shared.start]
  stage := by simp [StageOk, Shared.start]
  answered := by simp [Shared.start]
  hooked := rfl

variable {c : Cache} {s : Shared}

/-! ## Every step keeps it -/

/-- A step that only moves the rebuild in flight to a stage that holds the same number and
reported outcome keeps the invariant, as long as the new stage is sound. -/
theorem Inv.reflight (h : s.Inv c) {f f' : Flight} (hf : s.flight = some f)
    (hu : f'.stage.unpublished = f.stage.unpublished)
    (hr : f'.stage.reportedOutcome = f.stage.reportedOutcome)
    (hok : f'.stage.Ok c s.cache.published s.history) :
    ({ s with flight := some f' } : Shared).Inv c := by
  refine ⟨h.root, h.maxEntries, h.ids, h.live, ?_, h.built, ?_, h.answered, ?_⟩
  · simpa only [pending, hf, Option.map_some, Option.getD_some, hu] using h.counter
  · simpa [StageOk] using hok
  · simpa only [reportedNow, hf, Option.map_some, Option.getD_some, hr] using h.hooked

theorem Inv.load (h : s.Inv c) (k : Nat) : (s.step (.load k)).Inv c := by
  rcases hf : s.flight with _ | f
  · simp only [step, hf]
    refine ⟨h.root, h.maxEntries, h.ids, h.live, ?_, h.built, ?_, h.answered, ?_⟩
    · simpa [pending, hf, Stage.unpublished] using h.counter
    · simp [StageOk, Stage.Ok]
    · simpa [reportedNow, hf, Stage.reportedOutcome] using h.hooked
  · simp only [step, hf]
    exact h.reflight hf rfl rfl (h.stage f hf)

theorem Inv.read (h : s.Inv c) : (s.step .read).Inv c := by
  rcases hf : s.flight with _ | f
  · simpa [step, hf] using h
  simp only [step, hf]
  split
  · next hst =>
    -- the rebuild reads the tree as it stands, under the cache's own root and limit
    have hload : loadTree s.tree c.root c.maxEntries = loadTree s.tree s.cache.root
        s.cache.maxEntries := by rw [h.root, h.maxEntries]
    split
    · next es hes =>
      exact h.reflight hf (by simp [hst, Stage.unpublished]) (by simp [hst, Stage.reportedOutcome])
        ⟨s.tree, by rw [hload, hes]⟩
    · next e he =>
      exact h.reflight hf (by simp [hst, Stage.unpublished]) (by simp [hst, Stage.reportedOutcome])
        ⟨s.tree, by rw [hload, he]⟩
  · exact h

theorem Inv.number (h : s.Inv c) (now : Int) : (s.step (.number now)).Inv c := by
  rcases hf : s.flight with _ | f
  · simpa [step, hf] using h
  simp only [step, hf]
  split
  · next es hst =>
    have hok : c.ReadBy es := by simpa [hst, Stage.Ok] using h.stage f hf
    have hp : s.pending = 0 := by simp [pending, hf, hst, Stage.unpublished]
    refine ⟨h.root, h.maxEntries, h.ids, h.live, ?_, h.built, ?_, h.answered, ?_⟩
    · -- the number taken is one past every published one
      show s.cache.published + 1 = s.history.length + 1
      rw [h.counter, hp]
    · simp [StageOk, advance, Stage.Ok, hok]
    · simpa [reportedNow, advance, hf, hst, Stage.reportedOutcome] using h.hooked
  · exact h

theorem Inv.swap (h : s.Inv c) : (s.step .swap).Inv c := by
  rcases hf : s.flight with _ | f
  · simpa [step, hf] using h
  simp only [step, hf]
  split
  · next es g hst =>
    obtain ⟨hid, htable, hok⟩ : g.id = s.cache.published ∧ g.table = Table.build es ∧ c.ReadBy es :=
      by simpa [hst, Stage.Ok] using h.stage f hf
    -- the generation published is numbered one past the last one published
    have hnext : g.id = s.history.length + 1 := by
      simpa [hid, pending, hf, hst, Stage.unpublished] using h.counter
    refine ⟨h.root, h.maxEntries, ?_, ?_, ?_, ?_, ?_, ?_, ?_⟩
    · simp [List.range'_1_concat, h.ids, hnext, Nat.add_comm]
    · simp
    · simpa [advance, pending, Stage.unpublished] using hid ▸ hnext
    · intro x hx
      simp only [List.mem_append, List.mem_singleton] at hx
      rcases hx with hx | rfl
      · exact h.built x hx
      · exact ⟨htable, hok⟩
    · simp [StageOk, advance, Stage.Ok, Cache.Ends]
    · intro x hx
      obtain ⟨r, hr, hx⟩ := h.answered x hx
      exact ⟨r, hr.append _, hx⟩
    · simpa [reportedNow, advance, hf, hst, Stage.reportedOutcome] using h.hooked
  · exact h

theorem Inv.report (h : s.Inv c) : (s.step .report).Inv c := by
  rcases hf : s.flight with _ | f
  · simpa [step, hf] using h
  simp only [step, hf]
  split
  · next r hst =>
    refine ⟨h.root, h.maxEntries, h.ids, h.live, ?_, h.built, ?_, h.answered, ?_⟩
    · simpa [pending, advance, hf, hst, Stage.unpublished] using h.counter
    · simpa [StageOk, advance, hst, Stage.Ok] using h.stage f hf
    · -- the hook is called with the outcome now reported
      simp [reportedNow, advance, hf, hst, Stage.reportedOutcome, h.hooked]
  · exact h

theorem Inv.finish (h : s.Inv c) : (s.step .finish).Inv c := by
  rcases hf : s.flight with _ | f
  · simpa [step, hf] using h
  simp only [step, hf]
  split
  · next r hst =>
    have hr : c.Ends s.history r := by simpa [hst, Stage.Ok] using h.stage f hf
    refine ⟨h.root, h.maxEntries, h.ids, h.live, ?_, h.built, ?_, ?_, ?_⟩
    · simpa [pending, hf, hst, Stage.unpublished] using h.counter
    · simp [StageOk]
    · intro x hx
      simp only [List.mem_append, List.mem_singleton] at hx
      rcases hx with hx | rfl
      · exact h.answered x hx
      · exact ⟨r, hr, rfl⟩
    · simpa [reportedNow, hf, hst, Stage.reportedOutcome] using h.hooked
  · exact h

theorem Inv.change (h : s.Inv c) (t : Files.Tree) : (s.step (.change t)).Inv c :=
  ⟨h.root, h.maxEntries, h.ids, h.live, h.counter, h.built, h.stage, h.answered, h.hooked⟩

/-- Every step keeps the invariant. -/
theorem Inv.step (h : s.Inv c) : ∀ e, (s.step e).Inv c
  | .load k => h.load k
  | .read => h.read
  | .number now => h.number now
  | .swap => h.swap
  | .report => h.report
  | .finish => h.finish
  | .change t => h.change t

/-- Every run keeps the invariant. -/
theorem Inv.run (h : s.Inv c) (es : List Event) : (s.run es).Inv c := by
  induction es generalizing s with
  | nil => exact h
  | cons e es ih => exact ih (h.step e)

/-! ## What a step does to the cache -/

/-- The stage of the rebuild in flight, if one is. -/
def stage (s : Shared) : Option Stage := s.flight.map (·.stage)

/-- **What a step does to the cache and to the record of publications.** Only two steps touch
them: taking the next number, once the rebuild has read and built, and publishing, once it has
taken its number. -/
theorem step_effect (s : Shared) (e : Event) :
    ((s.step e).cache = s.cache ∧ (s.step e).history = s.history) ∨
    (∃ now es, s.stage = some (.built es) ∧ e = .number now ∧
      (s.step e).cache = { s.cache with published := s.cache.published + 1 } ∧
      (s.step e).history = s.history) ∨
    (∃ es g, s.stage = some (.numbered es g) ∧ e = .swap ∧
      (s.step e).cache = { s.cache with current := some g } ∧
      (s.step e).history = s.history ++ [(g, es)]) := by
  rcases hf : s.flight with _ | f
  · -- with no rebuild in flight, a step starts one or changes the tree
    left
    cases e <;> simp [step, hf]
  cases e with
  | number now =>
    simp only [step, hf]
    split
    · next es hst => exact .inr (.inl ⟨now, es, by simp [stage, hf, hst], rfl, rfl, rfl⟩)
    · exact .inl ⟨rfl, rfl⟩
  | swap =>
    simp only [step, hf]
    split
    · next es g hst => exact .inr (.inr ⟨es, g, by simp [stage, hf, hst], trivial, rfl, rfl⟩)
    · exact .inl ⟨rfl, rfl⟩
  | read =>
    -- reading the tree, whatever it finds, only moves the rebuild on
    left
    simp only [step, hf]
    split
    · split <;> exact ⟨rfl, rfl⟩
    · exact ⟨rfl, rfl⟩
  | report | finish =>
    left
    simp only [step, hf]
    split <;> exact ⟨rfl, rfl⟩
  | load k | change t =>
    left
    simp [step, hf]

/-- A step only ever adds to the record of publications. -/
theorem history_prefix_step (s : Shared) (e : Event) : s.history <+: (s.step e).history := by
  rcases s.step_effect e with ⟨-, h⟩ | ⟨_, _, -, -, -, h⟩ | ⟨es, g, -, -, -, h⟩
  · exact h ▸ List.prefix_refl _
  · exact h ▸ List.prefix_refl _
  · exact h ▸ List.prefix_append _ _

theorem history_prefix_run (s : Shared) (es : List Event) : s.history <+: (s.run es).history := by
  induction es generalizing s with
  | nil => exact List.prefix_refl _
  | cons e es ih => exact (s.history_prefix_step e).trans (ih (s.step e))

/-! ## What the invariant gives -/

/-- The live generation is the last published, so its number counts the publications. -/
theorem Inv.live_id (h : s.Inv c) {g : Generation} (hg : s.live = some g) :
    g.id = s.history.length := by
  have hlast : (s.history.map (·.1.id)).getLast? = some g.id := by
    rw [List.getLast?_map]
    simpa [Shared.live, h.live, Option.map_map] using congrArg (Option.map Generation.id) hg
  rw [h.ids, List.getLast?_range'] at hlast
  split at hlast
  · cases hlast
  · simp only [Option.some.injEq] at hlast
    omega

/-- A lookup answers from the last generation published, with the entry its rebuild read last
for the path. -/
theorem Inv.find (h : s.Inv c) (p : Bytes) :
    s.find p = s.history.getLast?.bind fun x => Entry.latest x.2 p := by
  unfold Shared.find Generation.lookup
  rw [h.live]
  rcases hl : s.history.getLast? with _ | x
  · rfl
  · obtain ⟨htable, t, ht⟩ := h.built x (List.mem_of_getLast? hl)
    simp [htable, build_find? (loadTree_made ht) p]

/-- At most one outcome is reported and not yet handed to callers. -/
theorem reportedNow_length (s : Shared) : s.reportedNow.length ≤ 1 := by
  unfold reportedNow
  rcases s.flight with _ | ⟨stage, callers⟩
  · simp
  · cases stage <;> simp [Stage.reportedOutcome]

/-- The live generation never goes back: whatever steps follow, the generation live then is
numbered at least as high. -/
theorem Inv.live_monotone (h : s.Inv c) (more : List Event) :
    ∀ g ∈ s.live, ∃ g' ∈ (s.run more).live, g.id ≤ g'.id := by
  intro g hg
  have h' := h.run more
  have hlen := (s.history_prefix_run more).length_le
  have hpos : 0 < s.history.length := by
    rcases hh : s.history with _ | _
    · simp [Shared.live, h.live, hh] at hg
    · simp
  -- the run keeps what was published, so something is live after it
  obtain ⟨x, hx⟩ : ∃ x, (s.run more).history.getLast? = some x := by
    cases hl : (s.run more).history.getLast? with
    | none =>
      rw [List.getLast?_eq_none_iff] at hl
      rw [hl, List.length_nil] at hlen
      omega
    | some x => exact ⟨x, rfl⟩
  have hlive : (s.run more).live = some x.1 := by simp [Shared.live, h'.live, hx]
  refine ⟨x.1, hlive, ?_⟩
  rw [h.live_id hg, h'.live_id hlive]
  exact hlen

/-- Every caller of `Load` got a generation that was published, or the failure of loading some
tree, wrapped. -/
theorem Inv.answered_outcome (h : s.Inv c) : ∀ x ∈ s.answered,
    (∃ g, (∃ es, (g, es) ∈ s.history) ∧ x.2 = .ok g) ∨
      ∃ e, (∃ t, (loadTree t c.root c.maxEntries).1 = .error e) ∧
        x.2 = .error (Cache.failureText e) := by
  intro x hx
  obtain ⟨r, hr, hx⟩ := h.answered x hx
  cases r with
  | ok g => exact .inl ⟨g, hr, hx⟩
  | error e => exact .inr ⟨e, hr, hx⟩

theorem stage_eq_some {st : Stage} (h : s.stage = some st) :
    ∃ f, s.flight = some f ∧ f.stage = st := by
  simpa [stage] using h

/-- The two steps that touch the cache, with what the invariant says of them: the number taken
is one past the count of publications, and the generation published carries it and the table
built from what its rebuild read. -/
theorem Inv.step_effect (h : s.Inv c) (e : Event) :
    ((s.step e).cache = s.cache ∧ (s.step e).history = s.history) ∨
    (∃ now es, s.stage = some (.built es) ∧ e = .number now ∧
      s.cache.published = s.history.length ∧
      (s.step e).cache = { s.cache with published := s.cache.published + 1 } ∧
      (s.step e).history = s.history) ∨
    (∃ es g, s.stage = some (.numbered es g) ∧ e = .swap ∧
      g.id = s.cache.published ∧ g.id = s.history.length + 1 ∧ g.table = Table.build es ∧
      (s.step e).cache = { s.cache with current := some g } ∧
      (s.step e).history = s.history ++ [(g, es)]) := by
  rcases s.step_effect e with hsame | ⟨now, es, hst, he, hc, hh⟩ | ⟨es, g, hst, he, hc, hh⟩
  · exact .inl hsame
  · obtain ⟨f, hf, hfs⟩ := stage_eq_some hst
    -- a rebuild that has built its table holds no number yet
    have hcount : s.cache.published = s.history.length := by
      simpa [pending, hf, hfs, Stage.unpublished] using h.counter
    exact .inr (.inl ⟨now, es, hst, he, hcount, hc, hh⟩)
  · obtain ⟨f, hf, hfs⟩ := stage_eq_some hst
    obtain ⟨hid, htable, -⟩ : g.id = s.cache.published ∧ g.table = Table.build es ∧ c.ReadBy es :=
      by simpa [hfs, Stage.Ok] using h.stage f hf
    have hnext : g.id = s.history.length + 1 := by
      simpa [hid, pending, hf, hfs, Stage.unpublished] using h.counter
    exact .inr (.inr ⟨es, g, hst, he, hid, hnext, htable, hc, hh⟩)

/-! ## Generations only move forward -/

/-- **Cache generations form a monotone, failure-atomic sequence.** Run any interleaving of
loads and changes of the tree on a fresh cache; lookups and reads of the live generation may
fall between any two steps. Then the generations published carry the numbers 1, 2, 3, … in
the order they went live, and the live one is the last of them (none before the first
success); each is the table built from what its rebuild read from some tree, so a lookup
answers with the entry that rebuild read last for the path. Only two steps touch the cache:
taking the number one past the count of publications, once a rebuild has read the tree and
built its table, and publishing that number; a rebuild whose read failed never reaches them.
The live generation never goes back. Every caller got a published generation or the failure
of loading, wrapped; and the hook was called once for each rebuild that ended, with what its
callers got, and at most once more for the rebuild still in flight. -/
theorem generations_monotone (root : String) (max : Nat) (t : Files.Tree) (es : List Event) :
    let c : Cache := { root, maxEntries := max }
    let s := (Shared.start c t).run es
    s.history.map (·.1.id) = List.range' 1 s.history.length ∧
    s.live = s.history.getLast?.map Prod.fst ∧
    (∀ x ∈ s.history, x.1.table = Table.build x.2 ∧ c.ReadBy x.2) ∧
    (∀ p, s.find p = s.history.getLast?.bind fun x => Entry.latest x.2 p) ∧
    (∀ e, ((s.step e).cache = s.cache ∧ (s.step e).history = s.history) ∨
      (∃ now es, s.stage = some (.built es) ∧ e = .number now ∧
        s.cache.published = s.history.length ∧
        (s.step e).cache = { s.cache with published := s.cache.published + 1 } ∧
        (s.step e).history = s.history) ∨
      (∃ es g, s.stage = some (.numbered es g) ∧ e = .swap ∧
        g.id = s.cache.published ∧ g.id = s.history.length + 1 ∧ g.table = Table.build es ∧
        (s.step e).cache = { s.cache with current := some g } ∧
        (s.step e).history = s.history ++ [(g, es)])) ∧
    (∀ more, ∀ g ∈ s.live, ∃ g' ∈ (s.run more).live, g.id ≤ g'.id) ∧
    (∀ x ∈ s.answered, (∃ g, (∃ es, (g, es) ∈ s.history) ∧ x.2 = .ok g) ∨
      ∃ e, (∃ t', (loadTree t' root max).1 = .error e) ∧
        x.2 = .error ("failed to load cache: " ++ e.message)) ∧
    ∃ pending, s.hooked = s.answered.map Prod.snd ++ pending ∧ pending.length ≤ 1 := by
  intro c s
  have h : s.Inv c := (Inv.start root max t).run es
  exact ⟨h.ids, h.live, h.built, h.find, h.step_effect, h.live_monotone, h.answered_outcome,
    s.reportedNow, h.hooked, s.reportedNow_length⟩

end Shared

end Content

end StaticHttp
