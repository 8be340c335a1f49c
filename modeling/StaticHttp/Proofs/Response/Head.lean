import Mathlib
import StaticHttp.Proofs.Text.Encoding
import StaticHttp.Proofs.Content.Loaded
import StaticHttp.Response.Basic
import StaticHttp.Server.Config
import StaticHttp.Request.Parse

/-!
# Response heads are well formed

The head of a response is its status line, the date, content type and content length lines,
the configured extra lines and an empty line, each line ended by CR LF (`Response.head`). For
every configuration that validation accepts, and every response read from loaded content or
made up for a status, the head is well formed (`Response.head_well_formed`):

* it is the layout of its lines (`Response.head_eq_layout`): the status line, then a line
  `name: value` for each fixed field and each configured one, each ended by CR LF, then CR LF;
* no line holds a CR or an LF, and each field name is a header name (`HeadForm`), so that the
  first empty line of what is written, whatever body follows, ends the head (`layout_first_blank`);
* the configured names come in strictly increasing byte order (`headerFields_names_lt`);
* the fixed `Content-Length` field, with the length of the body, is the first of the fields
  named `Content-Length` up to case, and the others are the configured ones so named
  (`headFields_contentLength`): validation lets a configured header repeat it.

The texts that make up the fixed lines, the date, the status line, the content types, hold no
line break (`OneLine`); neither do the names and values that validation accepts.
-/

namespace StaticHttp

/-! ## Texts on one line -/

/-- A text with no carriage return and no line feed. -/
def OneLine (s : String) : Prop := '\r' ∉ s.toList ∧ '\n' ∉ s.toList

instance : DecidablePred OneLine := fun _ => inferInstanceAs (Decidable (_ ∧ _))

namespace OneLine

@[simp] theorem append_iff {s t : String} : OneLine (s ++ t) ↔ OneLine s ∧ OneLine t := by
  simp only [OneLine, String.toList_append, List.mem_append, not_or]
  constructor
  · rintro ⟨⟨hr, hr'⟩, hn, hn'⟩
    exact ⟨⟨hr, hn⟩, hr', hn'⟩
  · rintro ⟨⟨hr, hn⟩, hr', hn'⟩
    exact ⟨⟨hr, hr'⟩, hn, hn'⟩

theorem of_digits {s : String} (h : ∀ ch ∈ s.toList, ch.isDigit = true) : OneLine s :=
  ⟨fun hr => absurd (h _ hr) (by decide), fun hn => absurd (h _ hn) (by decide)⟩

theorem toString_nat (n : Nat) : OneLine (toString n) := of_digits fun ch hch => by
  rw [Nat.toString_eq_repr, Nat.toList_repr] at hch
  exact Nat.isDigit_of_mem_toDigits (by decide) (by decide) hch

theorem toString_int (i : Int) : OneLine (toString i) := by
  rw [Int.toString_eq_repr, Int.repr_eq_if]
  split
  · simpa [Nat.toString_eq_repr] using toString_nat i.toNat
  · simpa [Nat.toString_eq_repr] using And.intro (by decide : OneLine "-") (toString_nat (-i).toNat)

theorem getD {l : List String} {d : String} (hl : ∀ t ∈ l, OneLine t) (hd : OneLine d) (i : Nat) :
    OneLine (l.getD i d) := by
  rw [List.getD_eq_getElem?_getD]
  cases h : l[i]? with
  | none => exact hd
  | some t => exact hl t (List.mem_of_getElem? h)

theorem padded (w n : Nat) : OneLine (Date.padded w n) := by
  simp only [Date.padded, append_iff]
  refine ⟨?_, toString_nat n⟩
  simp [OneLine, List.mem_replicate]

theorem yearText (y : Int) : OneLine (Date.yearText y) := by
  unfold Date.yearText
  split
  · exact append_iff.mpr ⟨by decide, padded 4 _⟩
  · exact padded 4 _

theorem weekday (i : Nat) : OneLine (Date.weekdays.getD i "") := getD (by decide) (by decide) i

theorem month (i : Nat) : OneLine (Date.months.getD i "") := getD (by decide) (by decide) i

/-- The date of a head is on one line, at any time. -/
theorem httpDate (secs : Int) : OneLine (Date.httpDate secs) := by
  unfold Date.httpDate
  simp only [append_iff, weekday, month, padded, yearText, and_true, true_and]
  decide

/-- The status line is on one line, for every status. -/
theorem statusLine (s : Status) : OneLine ("HTTP/1.1 " ++ s.line) := by
  simp only [Status.line, append_iff]
  refine ⟨by decide, ⟨toString_int _, by decide⟩, ?_⟩
  unfold Status.reason
  split_ifs <;> decide

/-- Every content type a path can have is on one line. -/
theorem mimeType (p : Bytes) : OneLine (Content.mimeType p) := by
  have htable : ∀ kv ∈ Content.mimeTable, OneLine kv.2 := by decide
  unfold Content.mimeType
  split
  · decide
  · split
    · rename_i kv hkv
      exact htable kv (List.mem_of_find?_eq_some hkv)
    · decide

/-- A text in which no character is a CR or an LF is on one line. -/
theorem of_any {s : String} (h : (s.any fun ch => ch == '\r' || ch == '\n') = false) :
    OneLine s := by
  rw [String.any, String.contains_bool_eq, List.any_eq_false] at h
  exact ⟨fun hr => by simpa using h _ hr, fun hn => by simpa using h _ hn⟩

end OneLine

/-! ## Lines of bytes -/

open Reading (cr lf colon)

/-- Bytes with no carriage return and no line feed. -/
def LineBreakFree (b : Bytes) : Prop := cr ∉ b ∧ lf ∉ b

/-- The bytes of a text on one line hold no line break. -/
theorem OneLine.lineBreakFree {s : String} (h : OneLine s) : LineBreakFree (Bytes.ofString s) := by
  refine ⟨fun hx => h.1 ?_, fun hx => h.2 ?_⟩
  · simpa [show Char.ofNat cr.toNat = '\r' by decide] using Bytes.mem_ofString_of_lt hx (by decide)
  · simpa [show Char.ofNat lf.toNat = '\n' by decide] using Bytes.mem_ofString_of_lt hx (by decide)

/-- A header name: not empty, and without colon, space, tab or line break. -/
def FieldName (n : Bytes) : Prop :=
  n ≠ [] ∧ ∀ x ∈ n, x ≠ colon ∧ x ≠ 32 ∧ x ≠ 9 ∧ x ≠ cr ∧ x ≠ lf

/-- A name that validation accepts is a header name. -/
theorem fieldName_of_valid {n : String} (h : Server.Config.validHeaderName n = true) :
    FieldName (Bytes.ofString n) := by
  simp only [Server.Config.validHeaderName, Bool.and_eq_true, Bool.not_eq_true'] at h
  obtain ⟨hne, hany⟩ := h
  rw [String.any, String.contains_bool_eq, List.any_eq_false] at hany
  refine ⟨?_, fun x hx => ?_⟩
  · have hn : n.toList ≠ [] := fun h => String.isEmpty_eq_false_iff.mp hne (String.toList_eq_nil_iff.mp h)
    obtain ⟨ch, rest, hch⟩ := List.exists_cons_of_ne_nil hn
    rw [Bytes.ofString_eq_flatMap, hch, List.flatMap_cons]
    exact fun h => String.utf8EncodeChar_ne_nil (List.append_eq_nil_iff.mp h).1
  · -- A forbidden byte would be the code of a forbidden character of the name.
    refine ⟨?_, ?_, ?_, ?_, ?_⟩ <;> rintro rfl <;>
      exact hany _ (Bytes.mem_ofString_of_lt hx (by decide)) (by decide)

/-! ## The layout of a head -/

namespace Response

/-- A field line: the name, a colon and a space, and the value. -/
def fieldLine (f : Bytes × Bytes) : Bytes := f.1 ++ [colon, 32] ++ f.2

/-- Lines laid out as a head: each line ended by CR LF, then CR LF on its own. -/
def layout (lines : List Bytes) : Bytes := lines.flatMap (· ++ [cr, lf]) ++ [cr, lf]

/-- A status line and fields that lay out as a well-formed head: the status line is not empty,
no line holds a line break, and the fields are named by header names. -/
structure HeadForm (status : Bytes) (fields : List (Bytes × Bytes)) : Prop where
  status_ne_nil : status ≠ []
  status_free : LineBreakFree status
  names : ∀ f ∈ fields, FieldName f.1
  values : ∀ f ∈ fields, LineBreakFree f.2

/-- A field line of a header name and a value with no line break is a line with none. -/
theorem fieldLine_line {f : Bytes × Bytes} (hn : FieldName f.1) (hv : LineBreakFree f.2) :
    fieldLine f ≠ [] ∧ LineBreakFree (fieldLine f) := by
  refine ⟨by simp [fieldLine, hn.1], ?_, ?_⟩ <;>
    simp only [fieldLine, List.mem_append, not_or] <;>
    refine ⟨⟨fun h => ?_, by decide⟩, ?_⟩
  · exact (hn.2 _ h).2.2.2.1 rfl
  · exact hv.1
  · exact (hn.2 _ h).2.2.2.2 rfl
  · exact hv.2

theorem HeadForm.lines {status : Bytes} {fields : List (Bytes × Bytes)}
    (h : HeadForm status fields) : ∀ l ∈ status :: fields.map fieldLine, l ≠ [] ∧ LineBreakFree l := by
  intro l hl
  rcases List.mem_cons.mp hl with rfl | hl
  · exact ⟨h.status_ne_nil, h.status_free⟩
  · obtain ⟨f, hf, rfl⟩ := List.mem_map.mp hl
    exact fieldLine_line (h.names f hf) (h.values f hf)

/-- The layout of lines that are not empty does not begin with CR. -/
theorem layout_cons_ne_cr {l : Bytes} (hl : l ≠ [] ∧ LineBreakFree l) (ls : List Bytes)
    (rest w : Bytes) : layout (l :: ls) ++ rest ≠ cr :: w := by
  obtain ⟨x, xs, rfl⟩ := List.exists_cons_of_ne_nil hl.1
  intro h
  simp only [layout, List.flatMap_cons, List.cons_append, List.append_assoc, List.cons.injEq] at h
  exact hl.2.1 (h.1 ▸ List.mem_cons_self)

/-- **The first empty line ends the head.** In the layout of lines that are not empty and hold
no line break, followed by any bytes, every CR LF CR LF ends at the end of the layout or
after it. -/
theorem layout_first_blank {lines : List Bytes} (hl : ∀ l ∈ lines, l ≠ [] ∧ LineBreakFree l)
    {rest u w : Bytes} (h : layout lines ++ rest = u ++ [cr, lf, cr, lf] ++ w) :
    (layout lines).length ≤ u.length + 4 := by
  induction lines generalizing u with
  | nil => simp [layout]
  | cons l ls ih =>
    have hl₀ := hl l List.mem_cons_self
    have hls : ∀ l' ∈ ls, l' ≠ [] ∧ LineBreakFree l' := fun l' h' => hl l' (List.mem_cons_of_mem l h')
    have hlen : (layout (l :: ls)).length = l.length + 2 + (layout ls).length := by
      simp [layout]
      omega
    -- After the line `l` and its CR LF: the rest of the layout begins with CR LF only if it is
    -- the final CR LF, there being no more lines.
    have hnext : ∀ w', layout ls ++ rest = cr :: lf :: w' → ls = [] := by
      intro w' hw
      cases ls with
      | nil => rfl
      | cons l' ls' => exact absurd hw (layout_cons_ne_cr (hls l' List.mem_cons_self) ls' rest _)
    have h' : l ++ cr :: lf :: (layout ls ++ rest) = u ++ cr :: lf :: cr :: lf :: w := by
      simpa [layout] using h
    rw [hlen]
    rcases List.append_eq_append_iff.mp h' with ⟨a, rfl, ha⟩ | ⟨c, rfl, hc⟩
    · match a, ha with
      | [], ha =>
        obtain rfl := hnext w (by simpa using ha)
        simp [layout]
      | [_], ha =>
        simp only [List.cons_append, List.nil_append, List.cons.injEq] at ha
        exact absurd ha.2.1 (by decide)
      | _ :: _ :: a, ha =>
        simp only [List.cons_append, List.cons.injEq] at ha
        have := ih hls (u := a) (by simpa using ha.2.2)
        simp only [List.length_append, List.length_cons]
        omega
    · match c, hc with
      | [], hc =>
        obtain rfl := hnext w (by simpa using hc.symm)
        simp [layout]
      | _ :: _, hc =>
        simp only [List.cons_append, List.cons.injEq] at hc
        exact absurd (List.mem_append_right u (hc.1 ▸ List.mem_cons_self)) hl₀.2.1

end Response

/-! ## What validation accepts -/

namespace Server.Config

/-- A check that succeeds has passed its guard: what follows the guard succeeded. -/
theorem ok_of_passed_guard {ε α : Type} {p : Prop} [Decidable p] {e : ε} {k : Unit → Except ε α}
    {a : α} (h : (if p then throw e >>= k else k ()) = .ok a) : k () = .ok a := by
  split at h
  · cases h
  · exact h

theorem ok_of_bind_ok {ε α β : Type} {x : Except ε α} {f : α → Except ε β} {b : β}
    (h : x >>= f = .ok b) : ∃ a, x = .ok a ∧ f a = .ok b := by
  cases x with
  | error e => cases h
  | ok a => exact ⟨a, rfl, h⟩

/-- Validation succeeds only through the header check, its last step: every step before it
either fails or goes on to the next. -/
theorem checkHeaders_of_validate {c : Config} {t : Files.Tree} (h : c.validate t = .ok ()) :
    checkHeaders c.sortedHeaders = .ok () := by
  unfold validate at h
  -- the port, then the content root: given, found, a directory
  replace h := ok_of_passed_guard (ok_of_passed_guard h)
  cases hs : t.stat c.server.htmlPath with
  | error e => rw [hs] at h; cases h
  | ok k =>
    rw [hs] at h
    -- the directory, the entry bound, the timeouts, then the log level, which is only parsed
    replace h := ok_of_passed_guard (ok_of_passed_guard (ok_of_passed_guard h))
    obtain ⟨_, -, h⟩ := ok_of_bind_ok h
    -- with TLS on, the certificate and the key must be given
    split at h
    · exact ok_of_passed_guard (ok_of_passed_guard h)
    · exact h

/-- Every header that passes the check has a usable name and a value on one line. -/
theorem checkHeaders_mem {hs : List (String × String)} (h : checkHeaders hs = .ok ()) :
    ∀ f ∈ hs, validHeaderName f.1 = true ∧ OneLine f.2 := by
  induction hs with
  | nil => simp
  | cons f hs ih =>
    obtain ⟨n, v⟩ := f
    unfold checkHeaders at h
    split at h
    · cases h
    split at h
    · cases h
    rename_i hn hv
    intro f hf
    rcases List.mem_cons.mp hf with rfl | hf
    · exact ⟨by simpa using hn, OneLine.of_any (by simpa using hv)⟩
    · exact ih h f hf

theorem mem_sortedHeaders {c : Config} {h : String × String} :
    h ∈ c.sortedHeaders ↔ h ∈ c.responseHeaders :=
  (List.mergeSort_perm _ _).mem_iff

/-- Distinct configured names come out of the sort in strictly increasing order. -/
theorem sortedHeaders_names_lt {c : Config} (hn : (c.responseHeaders.map Prod.fst).Nodup) :
    (c.sortedHeaders.map Prod.fst).Pairwise (· < ·) :=
  mergeSort_names_lt hn

/-- The configured headers as fields of bytes, in order of name. -/
def headerFields (c : Config) : List (Bytes × Bytes) :=
  c.sortedHeaders.map fun h => (Bytes.ofString h.1, Bytes.ofString h.2)

/-- The configured field names are in strictly increasing byte order. -/
theorem headerFields_names_lt {c : Config} (hn : (c.responseHeaders.map Prod.fst).Nodup) :
    (c.headerFields.map Prod.fst).Pairwise (· < ·) := by
  have h := sortedHeaders_names_lt hn
  simp only [headerFields, List.map_map, List.pairwise_map] at h ⊢
  exact h.imp Bytes.ofString_lt_ofString

/-- Under a configuration that validation accepts, the configured fields have header names and
values on one line. -/
theorem headerFields_form {c : Config} {t : Files.Tree} (hv : c.validate t = .ok ()) :
    ∀ f ∈ c.headerFields, FieldName f.1 ∧ LineBreakFree f.2 := by
  intro f hf
  obtain ⟨h, hh, rfl⟩ := List.mem_map.mp hf
  have hok := checkHeaders_mem (checkHeaders_of_validate hv) h hh
  exact ⟨fieldName_of_valid hok.1, hok.2.lineBreakFree⟩

theorem ofString_colon_space : Bytes.ofString ": " = [colon, 32] := by decide +kernel

theorem ofString_crlf : Bytes.ofString "\r\n" = [cr, lf] := by decide +kernel

/-- The extra lines are the field lines of the configured headers, each ended by CR LF. -/
theorem ofString_extraHeaders (c : Config) :
    Bytes.ofString c.extraHeaders = (c.headerFields.map Response.fieldLine).flatMap (· ++ [cr, lf]) := by
  simp only [extraHeaders, headerFields, Bytes.ofString_join, List.flatMap_map, List.map_map]
  congr 1
  funext h
  simp [Response.fieldLine, ofString_colon_space, ofString_crlf]

end Server.Config

/-! ## The head of a response -/

namespace Response

open Content

/-- The status line of a response. -/
def statusLine (r : Response) : Bytes := Bytes.ofString ("HTTP/1.1 " ++ r.status.line)

/-- The fields of a response's head at a time: the date, the content type and the content
length, then the extra ones. -/
def headFields (r : Response) (secs : Int) (extra : List (Bytes × Bytes)) : List (Bytes × Bytes) :=
  (Bytes.ofString "Date", Bytes.ofString (Date.httpDate secs)) ::
  (Bytes.ofString "Content-Type", r.mime) ::
  (Bytes.ofString "Content-Length", Bytes.ofString (toString r.body.length)) :: extra

theorem ofString_date_sep :
    Bytes.ofString "\r\nDate: " = [cr, lf] ++ Bytes.ofString "Date" ++ [colon, 32] := by
  decide +kernel

theorem ofString_contentType_sep :
    Bytes.ofString "\r\nContent-Type: " = [cr, lf] ++ Bytes.ofString "Content-Type" ++ [colon, 32] := by
  decide +kernel

theorem ofString_contentLength_sep :
    Bytes.ofString "\r\nContent-Length: " =
      [cr, lf] ++ Bytes.ofString "Content-Length" ++ [colon, 32] := by
  decide +kernel

/-- **A head is the layout of its lines**: the status line, then the fixed fields and the
configured ones. -/
theorem head_eq_layout (r : Response) (c : Server.Config) (secs : Int) :
    r.head (Bytes.ofString c.extraHeaders) secs =
      layout (r.statusLine :: (r.headFields secs c.headerFields).map fieldLine) := by
  simp only [head, layout, statusLine, headFields, fieldLine, Server.Config.ofString_extraHeaders,
    Bytes.ofString_append, ofString_date_sep, ofString_contentType_sep, ofString_contentLength_sep,
    Server.Config.ofString_crlf, List.map_cons, List.flatMap_cons, List.append_assoc,
    List.cons_append, List.nil_append]

/-- A response made from what a generation holds, for a path or for a status. -/
def FromContent (g : Option Generation) (r : Response) : Prop :=
  (∃ p, r = resolve g p) ∨ ∃ s, r = canned g s

theorem mime_made {e : Entry} (h : e.Made) : OneLine e.mime := by
  rw [h]
  exact OneLine.mimeType _

theorem canned_mime {g : Option Generation} (hg : ∀ p e, Generation.lookup g p = some e → e.Made)
    (s : Status) : ∃ m, (canned g s).mime = Bytes.ofString m ∧ OneLine m := by
  unfold canned
  split
  · rename_i e he
    exact ⟨e.mime, rfl, mime_made (hg _ e he)⟩
  · exact ⟨fallbackMime, rfl, by decide⟩

/-- The content type of a response made from a generation of files is a text on one line. -/
theorem FromContent.mime {g : Option Generation}
    (hg : ∀ p e, Generation.lookup g p = some e → e.Made) {r : Response} (hr : FromContent g r) :
    ∃ m, r.mime = Bytes.ofString m ∧ OneLine m := by
  rcases hr with ⟨p, rfl⟩ | ⟨s, rfl⟩
  · unfold resolve
    split
    · rename_i e he
      exact ⟨e.mime, rfl, mime_made (hg _ e he)⟩
    · exact canned_mime hg _
  · exact canned_mime hg s

theorem statusLine_ne_nil (r : Response) : r.statusLine ≠ [] := by
  have h : Bytes.ofString "HTTP/1.1 " ≠ [] := by decide +kernel
  rw [statusLine, Bytes.ofString_append]
  exact fun hs => h (List.append_eq_nil_iff.mp hs).1

/-- The fixed fields of a head have header names, and values on one line when the content type
is on one line. -/
theorem fixedFields_form {r : Response} (hm : ∃ m, r.mime = Bytes.ofString m ∧ OneLine m)
    (secs : Int) : ∀ f ∈ r.headFields secs [], FieldName f.1 ∧ LineBreakFree f.2 := by
  obtain ⟨m, hm, hline⟩ := hm
  simp only [headFields, List.mem_cons, List.not_mem_nil, or_false]
  rintro f (rfl | rfl | rfl)
  · exact ⟨fieldName_of_valid (by cbv), (OneLine.httpDate secs).lineBreakFree⟩
  · exact ⟨fieldName_of_valid (by cbv), hm ▸ hline.lineBreakFree⟩
  · exact ⟨fieldName_of_valid (by cbv), (OneLine.toString_nat _).lineBreakFree⟩

theorem mem_headFields {r : Response} {secs : Int} {extra : List (Bytes × Bytes)}
    {f : Bytes × Bytes} : f ∈ r.headFields secs extra ↔ f ∈ r.headFields secs [] ∨ f ∈ extra := by
  simp [headFields, or_assoc]

/-- **Heads are well formed under a valid configuration**: the status line and the fields of a
response made from a generation of files, with the headers of a configuration that validation
accepts, lay out as a head. -/
theorem headForm {c : Server.Config} {t : Files.Tree} (hv : c.validate t = .ok ())
    {g : Option Generation} (hg : ∀ p e, Generation.lookup g p = some e → e.Made) {r : Response}
    (hr : FromContent g r) (secs : Int) :
    HeadForm r.statusLine (r.headFields secs c.headerFields) := by
  have hf : ∀ f ∈ r.headFields secs c.headerFields, FieldName f.1 ∧ LineBreakFree f.2 := by
    intro f hf
    rcases mem_headFields.mp hf with hf | hf
    · exact fixedFields_form (hr.mime hg) secs f hf
    · exact Server.Config.headerFields_form hv f hf
  exact ⟨statusLine_ne_nil r, (OneLine.statusLine r.status).lineBreakFree,
    fun f h => (hf f h).1, fun f h => (hf f h).2⟩

/-- The layout of lines, one at least, ends with CR LF CR LF. -/
theorem layout_cons_end (l : Bytes) (ls : List Bytes) :
    ∃ u, layout (l :: ls) = u ++ [cr, lf, cr, lf] := by
  -- The lines each end with CR LF; the layout adds one more.
  have hlines : ∀ l ls, ∃ u, (l :: ls).flatMap (· ++ [cr, lf]) = u ++ [cr, lf] := by
    intro l ls
    induction ls generalizing l with
    | nil => exact ⟨l, by simp⟩
    | cons l' ls ih =>
      obtain ⟨u, hu⟩ := ih l'
      exact ⟨l ++ [cr, lf] ++ u, by rw [List.flatMap_cons, hu]; simp only [List.append_assoc]⟩
  obtain ⟨u, hu⟩ := hlines l ls
  exact ⟨u, by simp [layout, hu]⟩

/-! ## The `Content-Length` lines -/

/-- Whether a field is named `Content-Length`, up to case. -/
def namesContentLength (f : Bytes × Bytes) : Bool :=
  Text.equalFold f.1 (Bytes.ofString "Content-Length")

/-- The fixed `Content-Length` field, with the length of the body, is the first of a head's
fields so named, and the others so named are the extra ones. -/
theorem headFields_contentLength (r : Response) (secs : Int) (extra : List (Bytes × Bytes)) :
    (r.headFields secs extra).filter namesContentLength =
      (Bytes.ofString "Content-Length", Bytes.ofString (toString r.body.length)) ::
        extra.filter namesContentLength := by
  have hdate : namesContentLength (Bytes.ofString "Date", Bytes.ofString (Date.httpDate secs)) =
      false := by
    show Text.equalFold (Bytes.ofString "Date") (Bytes.ofString "Content-Length") = false
    decide +kernel
  have htype : namesContentLength (Bytes.ofString "Content-Type", r.mime) = false := by
    show Text.equalFold (Bytes.ofString "Content-Type") (Bytes.ofString "Content-Length") = false
    decide +kernel
  have hlen : namesContentLength
      (Bytes.ofString "Content-Length", Bytes.ofString (toString r.body.length)) = true :=
    Text.equalFold_refl _
  simp only [headFields, List.filter_cons, hdate, htype, hlen, Bool.false_eq_true, ↓reduceIte]

/-- A head has exactly one `Content-Length` field just when no configured header is so named. -/
theorem one_contentLength_iff (r : Response) (secs : Int) (c : Server.Config) :
    ((r.headFields secs c.headerFields).filter namesContentLength).length = 1 ↔
      ∀ h ∈ c.responseHeaders,
        Text.equalFold (Bytes.ofString h.1) (Bytes.ofString "Content-Length") = false := by
  simp only [headFields_contentLength, List.length_cons, Nat.add_eq_right, List.length_eq_zero_iff,
    List.filter_eq_nil_iff, Server.Config.headerFields, List.mem_map, Server.Config.mem_sortedHeaders,
    namesContentLength, Bool.not_eq_true]
  constructor
  · intro h x hx
    exact h _ ⟨x, hx, rfl⟩
  · rintro h _ ⟨x, hx, rfl⟩
    exact h x hx

/-- **The head of every response is well formed** under a configuration that validation
accepts, with distinct configured names, for every response made from a generation of files and
at every time. It is the layout of the status line and the fields, each line ended by CR LF and
holding no other line break and each field named by a header name; the configured names are in
strictly increasing byte order; it ends with the first CR LF CR LF of anything written with it.
Its fields named `Content-Length` up to case are the fixed one, whose value is the length of the
body, then the configured ones so named: there is exactly one just when no configured header is
so named, which validation does not check. -/
theorem head_well_formed {c : Server.Config} {t : Files.Tree} (hv : c.validate t = .ok ())
    (hn : (c.responseHeaders.map Prod.fst).Nodup) {g : Option Generation}
    (hg : ∀ p e, Generation.lookup g p = some e → e.Made) {r : Response} (hr : FromContent g r)
    (secs : Int) :
    r.head (Bytes.ofString c.extraHeaders) secs =
        layout (r.statusLine :: (r.headFields secs c.headerFields).map fieldLine) ∧
      HeadForm r.statusLine (r.headFields secs c.headerFields) ∧
      (c.headerFields.map Prod.fst).Pairwise (· < ·) ∧
      (∃ u, r.head (Bytes.ofString c.extraHeaders) secs = u ++ [cr, lf, cr, lf]) ∧
      (∀ body u w, r.head (Bytes.ofString c.extraHeaders) secs ++ body = u ++ [cr, lf, cr, lf] ++ w →
        (r.head (Bytes.ofString c.extraHeaders) secs).length ≤ u.length + 4) ∧
      (r.headFields secs c.headerFields).filter namesContentLength =
        (Bytes.ofString "Content-Length", Bytes.ofString (toString r.body.length)) ::
          c.headerFields.filter namesContentLength ∧
      (((r.headFields secs c.headerFields).filter namesContentLength).length = 1 ↔
        ∀ h ∈ c.responseHeaders,
          Text.equalFold (Bytes.ofString h.1) (Bytes.ofString "Content-Length") = false) := by
  have hform := headForm hv hg hr secs
  have hlay := head_eq_layout r c secs
  refine ⟨hlay, hform, Server.Config.headerFields_names_lt hn, ?_, ?_,
    headFields_contentLength r secs _, one_contentLength_iff r secs c⟩
  · rw [hlay]
    exact layout_cons_end _ _
  · intro body u w h
    rw [hlay] at h ⊢
    exact layout_first_blank hform.lines h

theorem stat_top_empty : Files.Tree.stat ⟨[], [], []⟩ "/" = .ok .dir := by cbv

/-- Validation of a configuration with the content root at the top of an empty tree and every
other setting at its default comes down to the check of its headers. -/
theorem validate_top_root (hs : List (String × String)) :
    ({ server := { htmlPath := "/" }, responseHeaders := hs } : Server.Config).validate ⟨[], [], []⟩ =
      Server.Config.checkHeaders ({ responseHeaders := hs } : Server.Config).sortedHeaders := by
  have hl : Log.Level.parse? "info" = some .info := Log.Level.parse?_name .info
  unfold Server.Config.validate Server.parseLevel
  dsimp only
  rw [hl, stat_top_empty]
  cbv

/-- The default 404 page under a configuration with one extra header has one `Content-Length`
field. -/
theorem head_well_formed_server_header :
    ({ server := { htmlPath := "/" }, responseHeaders := [("Server", "nvhttpd")] } :
        Server.Config).validate ⟨[], [], []⟩ = .ok () ∧
      (((canned none Status.notFound).headFields 0
          ({ server := { htmlPath := "/" }, responseHeaders := [("Server", "nvhttpd")] } :
            Server.Config).headerFields).filter namesContentLength).length = 1 := by
  have hv : ({ server := { htmlPath := "/" }, responseHeaders := [("Server", "nvhttpd")] } :
      Server.Config).validate ⟨[], [], []⟩ = .ok () := by
    rw [validate_top_root]
    simp [Server.Config.sortedHeaders, Server.Config.checkHeaders, Server.Config.validHeaderName,
      String.any, String.contains_bool_eq]
  have hg : ∀ p e, Generation.lookup none p = some e → e.Made := fun _ _ h => nomatch h
  refine ⟨hv, (head_well_formed hv (by decide) hg (Or.inr ⟨_, rfl⟩) 0).2.2.2.2.2.2.mpr ?_⟩
  decide +kernel

/-- Validation accepts a configured header named `Content-Length`, and the head of the 404 page
then carries two `Content-Length` lines with different values. -/
theorem head_repeats_configured_contentLength :
    ({ server := { htmlPath := "/" }, responseHeaders := [("Content-Length", "0")] } :
        Server.Config).validate ⟨[], [], []⟩ = .ok () ∧
      (canned none Status.notFound).head (Bytes.ofString
          ({ server := { htmlPath := "/" }, responseHeaders := [("Content-Length", "0")] } :
            Server.Config).extraHeaders) 0 =
        Bytes.ofString ("HTTP/1.1 404 Not Found\r\nDate: Thu, 01 Jan 1970 00:00:00 GMT\r\n" ++
          "Content-Type: text/plain\r\nContent-Length: 14\r\nContent-Length: 0\r\n\r\n") := by
  refine ⟨?_, by decide +kernel⟩
  rw [validate_top_root]
  simp [Server.Config.sortedHeaders, Server.Config.checkHeaders, Server.Config.validHeaderName,
    String.any, String.contains_bool_eq]

end Response

end StaticHttp
