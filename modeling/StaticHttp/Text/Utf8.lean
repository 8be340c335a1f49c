import StaticHttp.Bytes.Basic

/-!
# Reading UTF-8

A byte string read as UTF-8 is a sequence of pieces: a scalar value encoded in its shortest
form, or a stray byte that begins no such encoding. A stray byte is read alone, so every byte
string has exactly one reading, and the pieces written back give the bytes again.

Main statements:
* `Utf8.encode_pieces`: writing the pieces back gives the bytes read.
-/

namespace StaticHttp

namespace Utf8

/-- One piece of a UTF-8 reading: a scalar value with the bytes that encoded it, or a byte
that starts no well-formed encoding. -/
inductive Piece where
  | scalar (c : Char) (enc : Bytes)
  | stray (b : Byte)
  deriving Repr, DecidableEq

/-- A continuation byte `10xxxxxx` in the range `lo` to `hi`. -/
def inRange (lo hi : Byte) (b : Byte) : Bool := lo ≤ b && b ≤ hi

/-- The scalar value of a well-formed encoding, from the lead byte's payload bits and the
continuation bytes. -/
def scalarOf (lead : Nat) (conts : List Byte) : Char :=
  Char.ofNat (conts.foldl (fun acc b => acc * 64 + (b.toNat % 64)) lead)

/-- The well-formed encoding at the front of a byte string, as its scalar value and length.
The ranges of the second byte are those that exclude overlong forms, surrogates and values
above `U+10FFFF`. -/
def lead? : Bytes → Option (Char × Nat)
  | [] => none
  | b0 :: rest =>
    if b0 < 0x80 then some (Char.ofNat b0.toNat, 1)
    else
      match rest with
      | b1 :: rest1 =>
        if inRange 0xC2 0xDF b0 && inRange 0x80 0xBF b1 then
          some (scalarOf (b0.toNat % 32) [b1], 2)
        else
          let second : Option (Byte × Byte) :=
            if b0 == 0xE0 then some (0xA0, 0xBF)
            else if inRange 0xE1 0xEC b0 || b0 == 0xEE || b0 == 0xEF then some (0x80, 0xBF)
            else if b0 == 0xED then some (0x80, 0x9F)
            else none
          match second with
          | some (lo, hi) =>
            match rest1 with
            | b2 :: _ =>
              if inRange lo hi b1 && inRange 0x80 0xBF b2 then
                some (scalarOf (b0.toNat % 16) [b1, b2], 3)
              else none
            | [] => none
          | none =>
            let second4 : Option (Byte × Byte) :=
              if b0 == 0xF0 then some (0x90, 0xBF)
              else if inRange 0xF1 0xF3 b0 then some (0x80, 0xBF)
              else if b0 == 0xF4 then some (0x80, 0x8F)
              else none
            match second4, rest1 with
            | some (lo, hi), b2 :: b3 :: _ =>
              if inRange lo hi b1 && inRange 0x80 0xBF b2 && inRange 0x80 0xBF b3 then
                some (scalarOf (b0.toNat % 8) [b1, b2, b3], 4)
              else none
            | _, _ => none
      | [] => none

/-- Reads a byte string as UTF-8 pieces, front to back. -/
def pieces (s : Bytes) : List Piece :=
  match s with
  | [] => []
  | b :: rest =>
    match lead? (b :: rest) with
    | some (c, n) =>
      if _h : 0 < n then
        .scalar c ((b :: rest).take n) :: pieces ((b :: rest).drop n)
      else .stray b :: pieces rest
    | none => .stray b :: pieces rest
termination_by s.length
decreasing_by
  all_goals simp_wf
  all_goals omega

/-- The bytes of a piece. -/
def Piece.bytes : Piece → Bytes
  | .scalar _ enc => enc
  | .stray b => [b]

/-- Writes pieces back as bytes. -/
def encode (ps : List Piece) : Bytes := ps.flatMap Piece.bytes

/-- The text of a byte string, each stray byte shown as the replacement character. -/
def lossy (b : Bytes) : String :=
  String.ofList ((pieces b).map fun p => match p with
    | .scalar c _ => c
    | .stray _ => '\uFFFD')

theorem encode_pieces (s : Bytes) : encode (pieces s) = s := by
  fun_induction pieces s with
  | case1 => rfl
  | case2 b rest c n h _ ih =>
    simp only [encode, List.flatMap_cons, Piece.bytes] at ih ⊢
    rw [ih, List.take_append_drop]
  | case3 b rest c n _ h ih =>
    simp only [encode, List.flatMap_cons, Piece.bytes] at ih ⊢
    rw [ih]
    rfl
  | case4 b rest _ ih =>
    simp only [encode, List.flatMap_cons, Piece.bytes] at ih ⊢
    rw [ih]
    rfl

end Utf8

end StaticHttp
