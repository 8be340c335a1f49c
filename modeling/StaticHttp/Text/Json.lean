import StaticHttp.Bytes.Basic

/-!
# JSON text

Strings are written between double quotes. The quote and the backslash are escaped with a
backslash, the usual control characters by their letters, other control characters and the
characters `<`, `>` and `&` by `\u` and four hexadecimal digits, so that the text can be put
inside an HTML page as it is; the line and paragraph separators U+2028 and U+2029 are escaped
the same way for JavaScript.
-/

namespace StaticHttp

namespace Json

/-- A code below 65536 as `\u` and four lower-case hexadecimal digits. -/
def unicodeEscape (n : Nat) : String :=
  "\\u" ++ String.ofList ([12, 8, 4, 0].map fun k => Byte.hexDigit (n / Nat.pow 2 k % 16))

/-- The text of one character inside a JSON string. -/
def escapeChar (c : Char) : String :=
  if c = '"' then "\\\""
  else if c = '\\' then "\\\\"
  else if c = '\n' then "\\n"
  else if c = '\r' then "\\r"
  else if c = '\t' then "\\t"
  else if c.toNat = 8 then "\\b"
  else if c.toNat = 12 then "\\f"
  else if c.toNat < 32 || c = '<' || c = '>' || c = '&' || c.toNat = 0x2028 || c.toNat = 0x2029 then
    unicodeEscape c.toNat
  else c.toString

/-- A string as a JSON string. -/
def quote (s : String) : String := "\"" ++ String.join (s.toList.map escapeChar) ++ "\""

/-- An object from its members, each a name and the JSON text of its value. -/
def object (members : List (String × String)) : String :=
  "\x7b" ++ ",".intercalate (members.map fun (k, v) => quote k ++ ":" ++ v) ++ "\x7d"

/-- A Boolean as JSON text. -/
def bool (b : Bool) : String := if b then "true" else "false"

end Json

end StaticHttp
