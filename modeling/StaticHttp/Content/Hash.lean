import StaticHttp.Bytes.Basic

/-!
# The path hash

Paths are keyed by the polynomial rolling hash with multiplier 31 over 64-bit words:
`h = h * 31 + b` for each byte `b`, from zero, wrapping at `2 ^ 64`.

Main statements:
* `pathHash_append`: the hash of a concatenation continues from the hash of its first part.
-/

namespace StaticHttp

namespace Content

/-- One step of the rolling hash. -/
def hashStep (h : UInt64) (b : Byte) : UInt64 := h * 31 + b.toUInt64

/-- The rolling hash of a path continued from `h`. -/
def hashFrom (h : UInt64) (path : Bytes) : UInt64 := path.foldl hashStep h

/-- The rolling hash of a path. -/
def pathHash (path : Bytes) : UInt64 := hashFrom 0 path

theorem pathHash_append (a b : Bytes) : pathHash (a ++ b) = hashFrom (pathHash a) b := by
  simp [pathHash, hashFrom, List.foldl_append]

end Content

end StaticHttp
