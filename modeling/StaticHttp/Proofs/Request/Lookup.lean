import Mathlib.Data.List.Find
import StaticHttp.Request.Basic

/-!
# Looking up headers and query variables

A header is looked up by its name up to case, a query variable by its exact name. Either
lookup answers with the value of the first match, in the order the request carries them, and
misses when nothing matches (`lookups_return_first_match`).

Up to case means under the simple case folding of Unicode, with the names read as UTF-8: two
names are equal up to case exactly when their code points fold to the same sequence
(`equalFold_iff`). For names of ASCII bytes alone this is ASCII case (`equalFold_ascii_iff`);
but a name outside ASCII can equal an ASCII one, and a header named by the Kelvin sign is found
as `k` (`header_kelvin_sign_found_as_k`).
-/

namespace StaticHttp

namespace Text

/-- Two lists of code points fold alike exactly when they fold to the same list. -/
theorem foldsAlike_iff (xs ys : List Nat) :
    foldsAlike xs ys = true ↔ xs.map simpleFold = ys.map simpleFold := by
  induction xs generalizing ys with
  | nil => cases ys <;> simp [foldsAlike]
  | cons x xs ih => cases ys <;> simp [foldsAlike, ih]

/-- Two byte strings are equal up to case exactly when their code points fold to the same
sequence. -/
theorem equalFold_iff (a b : Bytes) :
    equalFold a b = true ↔ (codePoints a).map simpleFold = (codePoints b).map simpleFold :=
  foldsAlike_iff _ _

theorem toNat_charOfNat_of_lt {n : Nat} (h : n < 128) : (Char.ofNat n).toNat = n := by
  have hv : n.isValidChar := Or.inl (by omega)
  show (dite n.isValidChar (fun h => Char.ofNatAux n h) _).toNat = n
  rw [dif_pos hv]
  exact BitVec.toNat_ofNatLT _ _

/-- An ASCII byte string reads as one code point per byte. -/
theorem codePoints_of_ascii {a : Bytes} (h : ∀ x ∈ a, x < 128) :
    codePoints a = a.map UInt8.toNat := by
  induction a with
  | nil => simp [codePoints, Utf8.pieces]
  | cons x rest ih =>
    have hx8 : x < 128 := h x List.mem_cons_self
    have hx : x.toNat < 128 := UInt8.lt_iff_toNat_lt.mp hx8
    have hlead : Utf8.lead? (x :: rest) = some (Char.ofNat x.toNat, 1) := by
      simp [Utf8.lead?, hx8]
    have hpieces : Utf8.pieces (x :: rest) =
        .scalar (Char.ofNat x.toNat) [x] :: Utf8.pieces rest := by
      rw [Utf8.pieces, hlead]
      simp
    have hrest := ih fun y hy => h y (List.mem_cons_of_mem x hy)
    unfold codePoints at hrest ⊢
    rw [hpieces, List.map_cons, hrest, List.map_cons]
    exact congrArg (· :: _) (toNat_charOfNat_of_lt hx)

/-- Below the micro sign only the capital ASCII letters fold, each to its small letter. -/
theorem simpleFold_of_lt {c : Nat} (hc : c < 0xB5) :
    simpleFold c = if 0x41 ≤ c ∧ c ≤ 0x5A then c + 32 else c := by
  have hruns : foldRuns = (0x41, 0x5A, 1, 32) :: foldRuns.tail := rfl
  have hrest : ∀ r ∈ foldRuns.tail, 0xB5 ≤ r.1 := by decide +kernel
  unfold simpleFold
  rw [hruns, List.find?_cons]
  by_cases hcap : 0x41 ≤ c ∧ c ≤ 0x5A
  · simp [hcap, Nat.mod_one]
    omega
  · have hnone : foldRuns.tail.find?
        (fun r => r.1 ≤ c && c ≤ r.2.1 && (c - r.1) % r.2.2.1 == 0) = none := by
      rw [List.find?_eq_none]
      intro r hr
      have := hrest r hr
      simp only [Bool.and_eq_true, decide_eq_true_eq, not_and]
      omega
    have hfirst : (decide (0x41 ≤ c) && decide (c ≤ 0x5A)) = false := by
      rw [Bool.and_eq_false_iff]
      simp only [decide_eq_false_iff_not]
      omega
    rw [if_neg hcap]
    simp [hnone, hfirst]

/-- On an ASCII byte simple folding is ASCII lower-casing. -/
theorem simpleFold_ascii {x : Byte} (hx : x < 128) : simpleFold x.toNat = x.toLower.toNat := by
  have hlt : x.toNat < 128 := UInt8.lt_iff_toNat_lt.mp hx
  rw [simpleFold_of_lt (by omega)]
  unfold Byte.toLower Byte.isUpper
  by_cases hcap : 0x41 ≤ x.toNat ∧ x.toNat ≤ 0x5A
  · have hup : (65 ≤ x && x ≤ 90) = true := by
      simp [UInt8.le_iff_toNat_le]
      omega
    rw [if_pos hcap, if_pos hup, UInt8.toNat_add]
    simp
    omega
  · have hup : (65 ≤ x && x ≤ 90) = false := by
      simp [UInt8.le_iff_toNat_le]
      omega
    rw [if_neg hcap, hup]
    rfl

/-- Two ASCII byte strings are equal up to case exactly when they are equal after ASCII
lower-casing. -/
theorem equalFold_ascii_iff {a b : Bytes} (ha : ∀ x ∈ a, x < 128) (hb : ∀ x ∈ b, x < 128) :
    equalFold a b = true ↔ a.map Byte.toLower = b.map Byte.toLower := by
  have hfold : ∀ c : Bytes, (∀ x ∈ c, x < 128) →
      (codePoints c).map simpleFold = (c.map Byte.toLower).map UInt8.toNat := by
    intro c hc
    rw [codePoints_of_ascii hc, List.map_map, List.map_map]
    exact List.map_congr_left fun x hx => simpleFold_ascii (hc x hx)
  rw [equalFold_iff, hfold a ha, hfold b hb]
  exact List.map_inj_right fun _ _ => UInt8.toNat_inj.mp

end Text

namespace Request

/-- A lookup by a test on names answers with the value of the first field that passes it. -/
theorem lookup_eq_some_iff (p : Field → Bool) (fs : List Field) (v : Bytes) :
    (fs.find? p).map Field.value = some v ↔
      ∃ pre f post, fs = pre ++ f :: post ∧ p f = true ∧ f.value = v ∧
        ∀ g ∈ pre, p g = false := by
  rw [Option.map_eq_some_iff]
  constructor
  · rintro ⟨f, hf, rfl⟩
    obtain ⟨hpf, pre, post, rfl, hpre⟩ := List.find?_eq_some_iff_append.mp hf
    exact ⟨pre, f, post, rfl, hpf, rfl, fun g hg => by simpa using hpre g hg⟩
  · rintro ⟨pre, f, post, rfl, hpf, rfl, hpre⟩
    refine ⟨f, List.find?_eq_some_iff_append.mpr ⟨hpf, pre, post, rfl, fun g hg => ?_⟩, rfl⟩
    simp [hpre g hg]

/-- A lookup misses exactly when no field passes the test. -/
theorem lookup_eq_none_iff (p : Field → Bool) (fs : List Field) :
    (fs.find? p).map Field.value = none ↔ ∀ f ∈ fs, p f = false := by
  simp [List.find?_eq_none]

end Request

/-- **Lookups return the first match.** A header lookup answers with the value of the first
header whose name is equal to the one asked up to case, and misses when there is none; equal up
to case means that the two names, read as UTF-8, fold to the same code points, which for ASCII
names is ASCII case. A query lookup answers with the value of the first query variable of
exactly the name asked, and misses when there is none. -/
theorem lookups_return_first_match (r : Request) (name v : Bytes) :
    (r.header? name = some v ↔ ∃ pre f post, r.headers = pre ++ f :: post ∧
        Text.equalFold f.name name = true ∧ f.value = v ∧
        ∀ g ∈ pre, Text.equalFold g.name name = false) ∧
    (r.header? name = none ↔ ∀ f ∈ r.headers, Text.equalFold f.name name = false) ∧
    (∀ a : Bytes, Text.equalFold a name = true ↔
        (Text.codePoints a).map Text.simpleFold = (Text.codePoints name).map Text.simpleFold) ∧
    ((∀ x ∈ name, x < 128) → (∀ f ∈ r.headers, ∀ x ∈ f.name, x < 128) →
      r.header? name =
        (r.headers.find? fun f => f.name.map Byte.toLower == name.map Byte.toLower).map
          Field.value) ∧
    (r.query? name = some v ↔ ∃ pre f post, r.query = pre ++ f :: post ∧ f.name = name ∧
        f.value = v ∧ ∀ g ∈ pre, g.name ≠ name) ∧
    (r.query? name = none ↔ ∀ f ∈ r.query, f.name ≠ name) := by
  refine ⟨Request.lookup_eq_some_iff _ _ v, Request.lookup_eq_none_iff _ _,
    fun a => Text.equalFold_iff a name, fun hname hnames => ?_, ?_, ?_⟩
  · -- over ASCII names folding is lower-casing, header by header
    unfold Request.header?
    congr 1
    refine List.find?_congr fun f hf => ?_
    rw [Bool.eq_iff_iff, Text.equalFold_ascii_iff (hnames f hf) hname, beq_iff_eq]
  · rw [Request.query?, Request.lookup_eq_some_iff]
    simp only [beq_iff_eq, beq_eq_false_iff_ne]
  · rw [Request.query?, Request.lookup_eq_none_iff]
    simp only [beq_eq_false_iff_ne]

/-- The Kelvin sign `K` (U+212A) folds to `k`, so a header named by it is found as `k`, though
the two names differ in more than ASCII case. -/
theorem header_kelvin_sign_found_as_k :
    ({ method := .get, headers := [⟨[0xE2, 0x84, 0xAA], Bytes.ofString "v"⟩] } :
        Request).header? (Bytes.ofString "k") = some (Bytes.ofString "v") ∧
    ([0xE2, 0x84, 0xAA] : Bytes).map Byte.toLower ≠ (Bytes.ofString "k").map Byte.toLower := by
  decide +kernel

end StaticHttp
