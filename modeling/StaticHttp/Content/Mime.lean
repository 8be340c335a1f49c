import StaticHttp.Text.Utf8

/-!
# Content types

A path's content type comes from its extension: the bytes after its last dot, read as UTF-8,
lowered and compared with the known extensions. Lowering maps the capital ASCII letters, the
capital I with a dot above and the Kelvin sign to ASCII letters, so `gİf` is a `gif`; any
other character, or a byte that is not UTF-8, matches no known extension. A path with no dot, ending in a dot, or with a slash
after its last dot has no extension and is served as `application/octet-stream`, as is any
unknown extension.

Main statements:
* `mimeType_of_no_dot`: a path without a dot has the default type.
-/

namespace StaticHttp

namespace Content

/-- The content type of a path with no known extension. -/
def defaultMime : String := "application/octet-stream"

/-- The known extensions, in lower case, with their content types. -/
def mimeTable : List (String × String) := [
  ("css", "text/css"),
  ("docx", "application/vnd.openxmlformats-officedocument.wordprocessingml.document"),
  ("gif", "image/gif"),
  ("htm", "text/html; charset=UTF-8"),
  ("html", "text/html; charset=UTF-8"),
  ("ico", "image/x-icon"),
  ("jpeg", "image/jpeg"),
  ("jpg", "image/jpeg"),
  ("js", "application/javascript"),
  ("json", "application/json"),
  ("md", "text/markdown"),
  ("pdf", "application/pdf"),
  ("png", "image/png"),
  ("svg", "image/svg+xml"),
  ("txt", "text/plain; charset=UTF-8"),
  ("webmanifest", "application/manifest+json"),
  ("webp", "image/webp"),
  ("woff", "font/woff"),
  ("woff2", "font/woff2"),
  ("xml", "text/xml")]

/-- The extension of a path: the bytes after its last dot, when there is a dot, something
follows it, and no slash does. -/
def extension? (path : Bytes) : Option Bytes :=
  let tail := (path.reverse.takeWhile (· != 46)).reverse
  if tail.length = path.length || tail = [] || tail.contains 47 then none else some tail

/-- The content type of a path. -/
def mimeType (path : Bytes) : String :=
  match extension? path with
  | none => defaultMime
  | some ext =>
    match mimeTable.find? (fun kv => kv.1 == foldName (Utf8.lossy ext)) with
    | some kv => kv.2
    | none => defaultMime

theorem takeWhile_ne_dot (l : Bytes) (h : 46 ∉ l) : l.takeWhile (· != 46) = l := by
  induction l with
  | nil => rfl
  | cons x xs ih =>
    have hx : x ≠ 46 := fun e => h (e ▸ List.mem_cons_self)
    have hxs : 46 ∉ xs := fun m => h (List.mem_cons_of_mem x m)
    simp [hx, ih hxs]

theorem mimeType_of_no_dot (path : Bytes) (h : 46 ∉ path) : mimeType path = defaultMime := by
  have ht := takeWhile_ne_dot path.reverse (by simpa using h)
  simp [mimeType, extension?, ht]

end Content

end StaticHttp
