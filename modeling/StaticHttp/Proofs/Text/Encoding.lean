import Mathlib
import StaticHttp.Bytes.Basic

/-!
# The bytes of a string

`Bytes.ofString` writes a string in UTF-8. Written a character at a time
(`ofString_eq_flatMap`), a character below 128 is the one byte of its value and every other
character is written with bytes of 128 and above, so a byte below 128 among the bytes of a
string is a character of the string (`mem_ofString_of_lt`). And the writing keeps the order of
strings: two characters are written with bytes that differ at some place, in the order of the
characters (`utf8EncodeChar_diverges`), so a string before another in the order of characters
is before it byte for byte (`ofString_lt_ofString`).

The encoding is read as numbers through `utf8Nat`, the bytes of a scalar value as a lead byte
and continuation bytes of six bits each.

Main statements:
* `ofString_eq_flatMap`, `ofString_append`: the bytes of a string, character by character.
* `mem_ofString_of_lt`: the bytes of a string below 128 are its ASCII characters.
* `ofString_lt_ofString`: the bytes keep the order of strings.
* `mergeSort_names_lt`: named pairs with distinct names sort into increasing order of names.
-/

namespace StaticHttp

namespace Bytes

/-! ## A string, character by character -/

theorem byteArray_toList_loop (bs : ByteArray) (i : Nat) (r : List UInt8) :
    ByteArray.toList.loop bs i r = r.reverse ++ bs.data.toList.drop i := by
  fun_induction ByteArray.toList.loop bs i r with
  | case1 i r h ih =>
    have hi : i < bs.data.toList.length := by simpa using h
    rw [ih, List.drop_eq_getElem_cons hi]
    simp [ByteArray.get!, h]
  | case2 i r h =>
    rw [List.drop_eq_nil_of_le (by simpa using Nat.le_of_not_lt h)]
    simp

theorem ofString_eq_flatMap (s : String) : ofString s = s.toList.flatMap String.utf8EncodeChar := by
  have hs : s.toUTF8 = (s.toList.flatMap String.utf8EncodeChar).toByteArray := by
    conv => lhs; rw [← String.ofList_toList (s := s)]
    rw [String.toUTF8_eq_toByteArray, String.toByteArray_ofList]
    rfl
  rw [ofString, hs, ByteArray.toList, byteArray_toList_loop, List.toList_data_toByteArray]
  simp

@[simp] theorem ofString_append (s t : String) : ofString (s ++ t) = ofString s ++ ofString t := by
  simp [ofString_eq_flatMap]

theorem ofString_join (l : List String) : ofString (String.join l) = l.flatMap ofString := by
  induction l with
  | nil => simp [ofString_eq_flatMap]
  | cons s l ih => rw [String.join_cons, ofString_append, ih, List.flatMap_cons]

/-! ## One character as numbers -/

/-- The bytes of the scalar value `v` in UTF-8, as numbers: the value itself below 128, else a
lead byte that tells the length and continuation bytes of six bits each. -/
def utf8Nat (v : Nat) : List Nat :=
  if v ≤ 127 then [v]
  else if v ≤ 2047 then [192 + v / 64, 128 + v % 64]
  else if v ≤ 65535 then [224 + v / 4096, 128 + v / 64 % 64, 128 + v % 64]
  else [240 + v / 262144, 128 + v / 4096 % 64, 128 + v / 64 % 64, 128 + v % 64]

theorem utf8EncodeChar_toNat (c : Char) :
    (String.utf8EncodeChar c).map UInt8.toNat = utf8Nat c.toNat := by
  have hc := c.valid
  simp only [UInt32.isValidChar, Nat.isValidChar] at hc
  simp only [String.utf8EncodeChar, utf8Nat, Char.toNat]
  generalize c.val.toNat = v at hc ⊢
  split_ifs <;> simp [UInt8.toNat_ofNat] <;> omega

/-- A byte of a character that is below 128 is the whole character. -/
theorem utf8Nat_of_lt {v x : Nat} (hx : x ∈ utf8Nat v) (h : x < 128) : v = x := by
  unfold utf8Nat at hx
  split_ifs at hx <;> simp at hx <;> omega

/-- A byte below 128 among the bytes of a string is a character of the string. -/
theorem mem_ofString_of_lt {s : String} {x : Byte} (hx : x ∈ ofString s) (h : x.toNat < 128) :
    Char.ofNat x.toNat ∈ s.toList := by
  rw [ofString_eq_flatMap, List.mem_flatMap] at hx
  obtain ⟨c, hc, hxc⟩ := hx
  have hxn : x.toNat ∈ utf8Nat c.toNat := by
    rw [← utf8EncodeChar_toNat]
    exact List.mem_map_of_mem hxc
  rwa [← utf8Nat_of_lt hxn h, Char.ofNat_toNat]

/-! ## Lists that part at some place -/

/-- `l₁` and `l₂` agree up to some place, where `l₁` holds the smaller element. -/
def Diverges {α : Type} [LT α] (l₁ l₂ : List α) : Prop :=
  ∃ p a b u v, a < b ∧ l₁ = p ++ a :: u ∧ l₂ = p ++ b :: v

section Diverges

variable {α : Type} [LT α]

/-- Whatever follows two lists that part, the first comes before the second. -/
theorem Diverges.append_lt {l₁ l₂ : List α} (h : Diverges l₁ l₂) (x y : List α) :
    l₁ ++ x < l₂ ++ y := by
  obtain ⟨p, a, b, u, v, hab, rfl, rfl⟩ := h
  simp only [List.append_assoc, List.cons_append]
  exact List.append_left_lt (List.cons_lt_cons_iff.mpr (Or.inl hab))

/-- A list before another that is no prefix of it parts from it. -/
theorem diverges_of_lt {l₁ l₂ : List α} (h : l₁ < l₂) (hp : ¬ l₁ <+: l₂) : Diverges l₁ l₂ := by
  induction h with
  | nil => exact absurd List.nil_prefix hp
  | rel hab => exact ⟨[], _, _, _, _, hab, rfl, rfl⟩
  | @cons a l₁ l₂ _ ih =>
    obtain ⟨p, a', b', u, v, hab, rfl, rfl⟩ := ih fun hq => hp ((List.prefix_cons_inj a).mpr hq)
    exact ⟨a :: p, a', b', u, v, hab, rfl, rfl⟩

theorem Diverges.map {β : Type} [LT β] {l₁ l₂ : List α} (h : Diverges l₁ l₂) (f : α → β)
    (hf : ∀ a ∈ l₁, ∀ b ∈ l₂, a < b → f a < f b) : Diverges (l₁.map f) (l₂.map f) := by
  obtain ⟨p, a, b, u, v, hab, rfl, rfl⟩ := h
  exact ⟨p.map f, f a, f b, u.map f, v.map f, hf a (by simp) b (by simp) hab, by simp, by simp⟩

end Diverges

/-! ## The order of strings, byte for byte -/

/-- The bytes of two scalar values part where the smaller has the smaller byte. -/
theorem utf8Nat_diverges {v w : Nat} (h : v < w) (hw : w < 1114112) :
    Diverges (utf8Nat v) (utf8Nat w) := by
  apply diverges_of_lt
  · unfold utf8Nat
    split_ifs <;> simp [List.cons_lt_cons_iff] <;> omega
  · -- Two encodings of one length differ, and a shorter one has a smaller lead byte.
    unfold utf8Nat
    split_ifs <;> simp <;> omega

theorem utf8EncodeChar_diverges {c d : Char} (h : c < d) :
    Diverges (String.utf8EncodeChar c) (String.utf8EncodeChar d) := by
  have hd := d.valid
  simp only [UInt32.isValidChar, Nat.isValidChar] at hd
  have hn := utf8Nat_diverges (v := c.toNat) (w := d.toNat) (Char.lt_def.mp h) (by
    simp only [Char.toNat]
    omega)
  rw [← utf8EncodeChar_toNat, ← utf8EncodeChar_toNat] at hn
  -- Read back as bytes, the numbers keep their order, every one of them being below 256.
  have hb := hn.map UInt8.ofNat fun a ha b hb hab => by
    obtain ⟨x, -, rfl⟩ := List.mem_map.mp ha
    obtain ⟨y, -, rfl⟩ := List.mem_map.mp hb
    simpa [UInt8.ofNat_toNat, UInt8.lt_iff_toNat_lt] using hab
  simpa [List.map_map, Function.comp_def, UInt8.ofNat_toNat] using hb

theorem flatMap_utf8EncodeChar_lt {s t : List Char} (h : s < t) :
    s.flatMap String.utf8EncodeChar < t.flatMap String.utf8EncodeChar := by
  induction h with
  | @nil d t =>
    obtain ⟨x, xs, hx⟩ := List.exists_cons_of_ne_nil (String.utf8EncodeChar_ne_nil (c := d))
    simp [hx]
  | rel hcd => exact (utf8EncodeChar_diverges hcd).append_lt _ _
  | cons _ ih =>
    simp only [List.flatMap_cons]
    exact List.append_left_lt ih

/-- **The bytes keep the order of strings.** -/
theorem ofString_lt_ofString {s t : String} (h : s < t) : ofString s < ofString t := by
  rw [ofString_eq_flatMap, ofString_eq_flatMap]
  exact flatMap_utf8EncodeChar_lt h

end Bytes

/-- Pairs sorted by name, no two with one name, come in strictly increasing order of names. -/
theorem mergeSort_names_lt {β : Type} {l : List (String × β)}
    (hnd : (l.map Prod.fst).Nodup) :
    ((l.mergeSort fun a b => decide (a.1 ≤ b.1)).map Prod.fst).Pairwise (· < ·) := by
  have hperm := (List.mergeSort_perm l fun a b => decide (a.1 ≤ b.1)).map Prod.fst
  have hle : ((l.mergeSort fun a b => decide (a.1 ≤ b.1)).map Prod.fst).Pairwise (· ≤ ·) := by
    rw [List.pairwise_map]
    refine (List.pairwise_mergeSort (fun a b c hab hbc => ?_) (fun a b => ?_) _).imp fun h => ?_
    · simp only [decide_eq_true_eq] at hab hbc ⊢
      exact String.le_trans hab hbc
    · simpa using String.le_total a.1 b.1
    · simpa using h
  exact (hle.and (hperm.nodup_iff.mpr hnd)).imp fun h => lt_of_le_of_ne h.1 h.2

end StaticHttp
