import StaticHttp.Bytes.Basic

/-!
# PEM text

Certificates and keys come as PEM text: blocks that open with a line `-----BEGIN TYPE-----`
and close with a line `-----END TYPE-----`, holding base64 of their bytes.

The lines are read strictly. A line runs to the next line feed; a carriage return right before
the line feed and the spaces and tabs at its end are not part of it. A block is found from its
end: the first line feed followed by `-----END `, and the last `-----BEGIN ` before it, which
must start the text or follow a line feed. The begin line's type is what stands before its final
five dashes. Header lines `key: value` may follow the begin line; with headers the end line
must come after a line feed of its own, and a text that ends among the headers holds no further
block. The end line names the same type, and after its dashes only blanks may stand. The body is
base64 with padding once spaces and tabs are taken out, line feeds and carriage returns allowed
anywhere in it. A block that breaks one of these rules is passed over.
-/

namespace StaticHttp

namespace Crypto

namespace Base64

/-- The value of a base64 digit. -/
def value? (c : Byte) : Option Nat :=
  if 65 ≤ c && c ≤ 90 then some (c.toNat - 65)
  else if 97 ≤ c && c ≤ 122 then some (c.toNat - 71)
  else if 48 ≤ c && c ≤ 57 then some (c.toNat + 4)
  else if c = 43 then some 62
  else if c = 47 then some 63
  else none

/-- Decodes groups of four digits, the last group padded with `=`. The bits a padded group
leaves over are dropped. -/
def decodeGroups : List Byte → Option Bytes
  | [] => some []
  | [a, b, 61, 61] => do
    let x ← value? a; let y ← value? b
    pure [(x * 4 + y / 16).toUInt8]
  | [a, b, c, 61] => do
    let x ← value? a; let y ← value? b; let z ← value? c
    pure [(x * 4 + y / 16).toUInt8, ((y % 16) * 16 + z / 4).toUInt8]
  | a :: b :: c :: d :: rest => do
    let x ← value? a; let y ← value? b; let z ← value? c; let w ← value? d
    let tail ← decodeGroups rest
    pure ((x * 4 + y / 16).toUInt8 :: ((y % 16) * 16 + z / 4).toUInt8 :: ((z % 4) * 64 + w).toUInt8 :: tail)
  | _ => none

/-- Decodes base64 with padding, line feeds and carriage returns left out wherever they stand. -/
def decode (s : Bytes) : Option Bytes :=
  decodeGroups (s.filter fun c => c != 10 && c != 13)

end Base64

/-- A PEM block: its type and its bytes. -/
structure PemBlock where
  type : Bytes
  bytes : Bytes
  deriving DecidableEq, Repr

namespace Pem

/-- The place of the first occurrence of a pattern in bytes. -/
def indexOf (pat : Bytes) : Bytes → Option Nat
  | [] => if pat.isEmpty then some 0 else none
  | b :: rest => if pat.isPrefixOf (b :: rest) then some 0 else (indexOf pat rest).map (· + 1)

/-- The place of the last occurrence of a pattern that lies wholly in some bytes. -/
def lastIndexOf (pat : Bytes) : Bytes → Option Nat
  | [] => if pat.isEmpty then some 0 else none
  | b :: rest =>
    match lastIndexOf pat rest with
    | some i => some (i + 1)
    | none => if pat.isPrefixOf (b :: rest) then some 0 else none

/-- Bytes without the spaces and tabs at their end. -/
def trimEnd (s : Bytes) : Bytes := (s.reverse.dropWhile fun c => c == 32 || c == 9).reverse

/-- The first line of some bytes and the bytes after its line feed. -/
def getLine (data : Bytes) : Bytes × Bytes :=
  match data.idxOf? 10 with
  | none => (trimEnd data, [])
  | some i =>
    let line := data.take i
    let line := if i > 0 && data.getD (i - 1) 0 == 13 then line.take (i - 1) else line
    (trimEnd line, data.drop (i + 1))

/-- The start of a begin line, `-----BEGIN `. -/
def beginMark : Bytes := [45, 45, 45, 45, 45, 66, 69, 71, 73, 78, 32]

/-- The start of an end line, `-----END `. -/
def endMark : Bytes := [45, 45, 45, 45, 45, 69, 78, 68, 32]

/-- An end line with the line feed before it. -/
def endLine : Bytes := 10 :: endMark

/-- The dashes that close a begin or end line. -/
def dashes : Bytes := [45, 45, 45, 45, 45]

/-- Reads the header lines at the front of some bytes, the lines holding a colon: how many there
were, how many bytes they took, and the bytes after them; none when the bytes run out among
them. -/
def headerLines : Nat → Bytes → Option (Nat × Nat × Bytes)
  | 0, _ => none
  | fuel + 1, rest =>
    if rest.isEmpty then none
    else
      let (line, next) := getLine rest
      if line.contains 58 then
        (headerLines fuel next).map fun (n, used, after) =>
          (n + 1, used + (rest.length - next.length), after)
      else some (0, 0, rest)

/-- The first block of some bytes and the bytes after it.

The search starts from the first end line and takes the last begin line before it; a begin
mark that does not start a line sends the search past that end line. A block that breaks a rule
is passed over and the search goes on from where its reading stopped, so every step leaves
fewer bytes. Bytes that run out among a block's headers end the search. -/
def first : Nat → Bytes → Option (PemBlock × Bytes)
  | 0, _ => none
  | fuel + 1, rest =>
    match indexOf endLine rest with
    | none => none
    | some endAt =>
      let pastEnd := first fuel (rest.drop (endAt + 10))
      match lastIndexOf beginMark (rest.take endAt) with
      | none => pastEnd
      | some b =>
        if b > 0 && rest.getD (b - 1) 0 != 10 then pastEnd
        else
          let rest := rest.drop (b + 11)
          let (typeLine, afterType) := getLine rest
          if !dashes.isSuffixOf typeLine then first fuel afterType
          else
            let type := typeLine.take (typeLine.length - 5)
            match headerLines (afterType.length + 1) afterType with
            | none => none
            | some (count, used, body) =>
              let endIndex : Int := (endAt : Int) - (b + 11) - (rest.length - afterType.length) - used
              if count > 0 && endIndex < 0 then first fuel body
              else
                let trailer := body.drop (endIndex + 10).toNat
                let need := type.length + 5
                let closing := trailer.take need
                if trailer.length < need then first fuel body
                else if !(type.isPrefixOf closing && dashes.isSuffixOf closing) then first fuel body
                else if !(getLine (trailer.drop need)).1.isEmpty then first fuel body
                else
                  match Base64.decode ((body.take endIndex.toNat).filter fun c => c != 32 && c != 9) with
                  | none => first fuel body
                  | some bytes => some (⟨type, bytes⟩, (getLine (body.drop (endIndex + 9).toNat)).2)

/-- The blocks of some bytes in order, up to the first place no block follows. -/
def blocksFrom : Nat → Bytes → List PemBlock
  | 0, _ => []
  | fuel + 1, rest =>
    match first (rest.length + 1) rest with
    | none => []
    | some (b, after) => b :: blocksFrom fuel after

end Pem

/-- The PEM blocks of some bytes, in order. -/
def PemBlock.allOf (b : Bytes) : List PemBlock := Pem.blocksFrom (b.length + 1) b

end Crypto

end StaticHttp
