/-!
# Byte strings and byte classes

Requests, paths and pages are byte strings. This module fixes the type and the byte classes
that the request grammar and the content table are written in: the six blank bytes, decimal
and hexadecimal digits, and ASCII case.

Main statements:
* `Byte.hexValue?_lt`: a hexadecimal digit stands for a value below sixteen.
* `Byte.toUpper_of_not_lower`: upper-casing moves only the lower-case letters.
-/

namespace StaticHttp

/-- A byte string: the unit of every request, path and page. -/
abbrev Bytes := List UInt8

/-- A single byte of a byte string. -/
abbrev Byte := UInt8

namespace Byte

/-- The blank bytes of a request line: space, tab, line feed, vertical tab, form feed and
carriage return. -/
def isBlank (b : Byte) : Bool :=
  b == 32 || b == 9 || b == 10 || b == 11 || b == 12 || b == 13

/-- A decimal digit `0` to `9`. -/
def isDigit (b : Byte) : Bool := 48 ≤ b && b ≤ 57

/-- The value of a hexadecimal digit of either case, and `none` for any other byte. -/
def hexValue? (b : Byte) : Option Byte :=
  if 48 ≤ b && b ≤ 57 then some (b - 48)
  else if 97 ≤ b && b ≤ 102 then some (b - 87)
  else if 65 ≤ b && b ≤ 70 then some (b - 55)
  else none

/-- A lower-case ASCII letter. -/
def isLower (b : Byte) : Bool := 97 ≤ b && b ≤ 122

/-- An upper-case ASCII letter. -/
def isUpper (b : Byte) : Bool := 65 ≤ b && b ≤ 90

/-- ASCII upper-casing: lower-case letters move up by 32, all other bytes stay. -/
def toUpper (b : Byte) : Byte := if isLower b then b - 32 else b

/-- ASCII lower-casing: upper-case letters move down by 32, all other bytes stay. -/
def toLower (b : Byte) : Byte := if isUpper b then b + 32 else b

/-- The lower-case hexadecimal digit of a value below sixteen. -/
def hexDigit (n : Nat) : Char :=
  if n < 10 then Char.ofNat (48 + n) else Char.ofNat (87 + n)

theorem hexValue?_lt {b v : Byte} (h : hexValue? b = some v) : v.toNat < 16 := by
  unfold hexValue? at h
  split at h
  · simp only [Option.some.injEq] at h
    subst h
    rename_i hb
    simp only [Bool.and_eq_true, decide_eq_true_eq] at hb
    rw [UInt8.toNat_sub_of_le _ _ hb.1]
    have h1 := UInt8.le_iff_toNat_le.mp hb.2
    simp at h1 ⊢
    omega
  · split at h
    · simp only [Option.some.injEq] at h
      subst h
      rename_i hb
      simp only [Bool.and_eq_true, decide_eq_true_eq] at hb
      have h0 := UInt8.le_iff_toNat_le.mp hb.1
      rw [UInt8.toNat_sub_of_le _ _ (UInt8.le_iff_toNat_le.mpr (by simp at h0 ⊢; omega))]
      have h1 := UInt8.le_iff_toNat_le.mp hb.2
      simp at h0 h1 ⊢
      omega
    · split at h
      · simp only [Option.some.injEq] at h
        subst h
        rename_i hb
        simp only [Bool.and_eq_true, decide_eq_true_eq] at hb
        have h0 := UInt8.le_iff_toNat_le.mp hb.1
        rw [UInt8.toNat_sub_of_le _ _ (UInt8.le_iff_toNat_le.mpr (by simp at h0 ⊢; omega))]
        have h1 := UInt8.le_iff_toNat_le.mp hb.2
        simp at h0 h1 ⊢
        omega
      · cases h

theorem toUpper_of_not_lower {b : Byte} (h : isLower b = false) : toUpper b = b := by
  simp [toUpper, h]

end Byte

namespace Bytes

/-- The UTF-8 bytes of a text. -/
def ofString (s : String) : Bytes := s.toUTF8.toList

/-- ASCII upper-casing of every byte. -/
def toUpper (s : Bytes) : Bytes := s.map Byte.toUpper

/-- ASCII lower-casing of every byte. -/
def toLower (s : Bytes) : Bytes := s.map Byte.toLower

/-- The decimal text of a natural number, as bytes. -/
def ofNat (n : Nat) : Bytes := ofString (toString n)

end Bytes

/-- The simple lower case of a character, as far as names spelled in ASCII need it. The
capital ASCII letters, the capital I with a dot above and the Kelvin sign are the only
characters whose lower case is an ASCII letter, and they are lowered; every other character is
kept. So a name lowered this way equals an ASCII lower-case name exactly when its full lower
case does. -/
def foldCase (c : Char) : Char :=
  if 'A' ≤ c && c ≤ 'Z' then Char.ofNat (c.toNat + 32)
  else if c.toNat = 0x130 then 'i'
  else if c.toNat = 0x212A then 'k'
  else c

/-- A name lowered character by character with `foldCase`. -/
def foldName (s : String) : String := String.ofList (s.toList.map foldCase)

end StaticHttp
