import StaticHttp.Content.Hash
import StaticHttp.Content.Mime

/-!
# Cached entries

An entry is one servable file: its lookup path (a leading slash and forward separators), its
bytes, its content type and the full hash of its path. The type and hash are functions of the
path, fixed when the entry is made.

Main statements:
* `Entry.ofFile_hash`: a made entry carries the hash of its path.
-/

namespace StaticHttp

namespace Content

/-- One servable file. -/
structure Entry where
  path : Bytes
  data : Bytes
  mime : String
  hash : UInt64
  deriving DecidableEq, Repr

namespace Entry

/-- The entry for a file at `path` with content `data`. -/
def ofFile (path data : Bytes) : Entry := ⟨path, data, mimeType path, pathHash path⟩

/-- The content length of an entry. -/
def size (e : Entry) : Nat := e.data.length

theorem ofFile_hash (path data : Bytes) : (ofFile path data).hash = pathHash path := rfl

end Entry

end Content

end StaticHttp
