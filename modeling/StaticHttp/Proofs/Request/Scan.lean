import StaticHttp.Request.Parse

/-!
# Reading a request from a byte stream

The reader of `StaticHttp.Request.Parse` runs over a cursor, and bounds each of its loops by
fuel. This module states what it computes as a function of the bytes alone: each step of the
reader becomes a function from the bytes still to come to the piece it reads (or the failure)
and the bytes after it, and the whole request becomes `scanRequest`. Running out of bytes in
the middle of a piece fails with the stop `T` of the stream, every byte taken. The loops
recurse on the bytes, structurally or on their length, so no fuel is needed.

`StaticHttp.Proofs.Request.Refine` shows that the reader over a cursor computes exactly these
functions; the statements about the request grammar are proved here, on the bytes.

Main statements:
* `scanToken_suffix`, `scanSkip_suffix`: a piece leaves a suffix of its input, which is what
  ends the loops over query variables and header lines.
* `scanHeaders_line`: one header line read, then the loop goes on from the rest.
* `scanQuery_suffix`, `scanHeaders_suffix` and the like: every step of the reader leaves a
  suffix of the bytes it was given.
-/

namespace StaticHttp

namespace Reading

/-- What reading one piece of a request from a byte stream gives: the piece or the failure,
and the bytes left after it. -/
abbrev Scanned (α : Type) := Except ParseError α × Bytes

/-- `D` has a first byte, and `p` holds of it: the byte that ends a piece and is left in place
for the next step. -/
def Ends (p : Byte → Bool) : Bytes → Prop
  | [] => False
  | b :: _ => p b = true

/-- A blank that does not end the line: every blank but the line feed. -/
def inLine (b : Byte) : Bool := b != lf && Byte.isBlank b

/-- A space or a tab, which may indent a header value. -/
def isIndent (b : Byte) : Bool := b == 32 || b == 9

/-- Skips the bytes `p` holds of, and shows the first other byte. -/
def scanSkip (T : Transport.Stop) (p : Byte → Bool) (D : Bytes) : Scanned Byte :=
  match D.dropWhile p with
  | [] => (.error (.transport T), [])
  | b :: R => (.ok b, b :: R)

section SkipEquations

variable {T : Transport.Stop}

theorem scanSkip_nil (p : Byte → Bool) : scanSkip T p [] = (.error (.transport T), []) := rfl

theorem scanSkip_cons_pos {p : Byte → Bool} {b : Byte} {D : Bytes} (h : p b = true) :
    scanSkip T p (b :: D) = scanSkip T p D := by
  simp [scanSkip, h]

theorem scanSkip_cons_neg {p : Byte → Bool} {b : Byte} {D : Bytes} (h : p b = false) :
    scanSkip T p (b :: D) = (.ok b, b :: D) := by
  simp [scanSkip, h]

theorem scanSkip_ok {p : Byte → Bool} {D D' : Bytes} {b : Byte}
    (h : scanSkip T p D = (.ok b, D')) : ∃ R, D' = b :: R := by
  unfold scanSkip at h
  split at h
  · cases h
  · cases h
    exact ⟨_, rfl⟩

end SkipEquations

/-- The method token: at most `room` more bytes before a blank; `acc` holds those read, last
first. -/
def scanMethod (T : Transport.Stop) : Nat → Bytes → Bytes → Scanned Bytes
  | _, _, [] => (.error (.transport T), [])
  | room, acc, b :: D =>
    if Byte.isBlank b then (.ok acc.reverse, b :: D)
    else
      match room with
      | 0 => (.error (.malformed .methodTooLong), b :: D)
      | room + 1 => scanMethod T room (b :: acc) D

/-- The byte a percent escape stands for, read from the two bytes after the `%`. -/
def scanEscape (T : Transport.Stop) : Bytes → Scanned Byte
  | hi :: lo :: D =>
    (match Byte.hexValue? hi, Byte.hexValue? lo with
      | none, _ => .error (.malformed (.badEscape hi))
      | some _, none => .error (.malformed (.badEscape lo))
      | some h, some l => .ok (h * 16 + l), D)
  | _ => (.error (.transport T), [])

/-- The bytes up to the first one that `stop` holds of, which is shown and left; `n` counts
the bytes in `acc`, last first. With `decode`, escapes are decoded before they count against
`limit`. -/
def scanToken (T : Transport.Stop) (limit : Int) (what : Component) (decode : Bool)
    (stop : Byte → Bool) : Nat → Bytes → Bytes → Scanned Bytes
  | _, _, [] => (.error (.transport T), [])
  | n, acc, b :: D =>
    if stop b then (.ok acc.reverse, b :: D)
    else if decode && b == percent then
      match D with
      | hi :: lo :: D' =>
        match Byte.hexValue? hi, Byte.hexValue? lo with
        | none, _ => (.error (.malformed (.badEscape hi)), D')
        | some _, none => (.error (.malformed (.badEscape lo)), D')
        | some h, some l =>
          if limit ≤ (n : Int) then (.error (.oversized (.tooLong what limit)), D')
          else scanToken T limit what decode stop (n + 1) ((h * 16 + l) :: acc) D'
      | _ => (.error (.transport T), [])
    else if limit ≤ (n : Int) then (.error (.oversized (.tooLong what limit)), D)
    else scanToken T limit what decode stop (n + 1) (b :: acc) D

section TokenEquations

variable {T : Transport.Stop} {limit : Int} {what : Component} {decode : Bool} {stop : Byte → Bool}
  {n : Nat} {acc : Bytes} {b : Byte} {D : Bytes}

theorem scanToken_cons_stop (hs : stop b = true) :
    scanToken T limit what decode stop n acc (b :: D) = (.ok acc.reverse, b :: D) := by
  match D with
  | [] | [_] => simp [scanToken, hs]
  | _ :: _ :: _ => simp [scanToken, hs]

theorem scanToken_cons_plain (hs : stop b = false) (hd : (decode && b == percent) = false) :
    scanToken T limit what decode stop n acc (b :: D) =
      if limit ≤ (n : Int) then (.error (.oversized (.tooLong what limit)), D)
      else scanToken T limit what decode stop (n + 1) (b :: acc) D := by
  match D with
  | [] | [_] => simp [scanToken, hs, hd]
  | _ :: _ :: _ => simp [scanToken, hs, hd]

theorem scanToken_cons_escape (hs : stop b = false) (hd : (decode && b == percent) = true) :
    scanToken T limit what decode stop n acc (b :: D) =
      match scanEscape T D with
      | (.error e, D') => (.error e, D')
      | (.ok c, D') =>
        if limit ≤ (n : Int) then (.error (.oversized (.tooLong what limit)), D')
        else scanToken T limit what decode stop (n + 1) (c :: acc) D' := by
  match D with
  | [] | [_] => simp [scanToken, scanEscape, hs, hd]
  | hi :: lo :: _ =>
    simp only [scanToken, scanEscape, hs, hd, Bool.false_eq_true, if_false, if_true]
    cases Byte.hexValue? hi <;> cases Byte.hexValue? lo <;> rfl

end TokenEquations

theorem scanToken_suffix (T : Transport.Stop) (limit : Int) (what : Component) (decode : Bool)
    (stop : Byte → Bool) (n : Nat) (acc D : Bytes) :
    (scanToken T limit what decode stop n acc D).2 <:+ D := by
  fun_induction scanToken T limit what decode stop n acc D <;> simp_all [List.suffix_cons_iff]

theorem scanSkip_suffix (T : Transport.Stop) (p : Byte → Bool) (D : Bytes) :
    (scanSkip T p D).2 <:+ D := by
  unfold scanSkip
  split
  · exact List.nil_suffix
  · rename_i b R h
    rw [← h]
    exact List.dropWhile_suffix p

/-- The path: a token decoded and checked to be absolute, given `index.html` when it names a
directory. -/
def scanPath (T : Transport.Stop) (lim : Limits) (D : Bytes) : Scanned Bytes :=
  match scanToken T lim.uri .path true endsPath 0 [] D with
  | (.error e, D) => (.error e, D)
  | (.ok p, D) =>
    if p.head? == some slash then
      (.ok (if p.getLast? == some slash then p ++ Bytes.ofString "index.html" else p), D)
    else (.error (.malformed (.notAbsolute p)), D)

/-- The query variables after `?`, up to a blank or `#`: `vars` holds those read so far, and a
failure keeps them. -/
def scanQuery (T : Transport.Stop) (lim : Limits) (vars : List Field) (D : Bytes) :
    Except ParseError Unit × List Field × Bytes :=
  match D with
  | [] => (.error (.transport T), vars, [])
  | b :: R =>
    if Byte.isBlank b || b == hash then (.ok (), vars, b :: R)
    else
      match _hN : scanToken T lim.queryName .queryName true endsQueryName 0 [] (b :: R) with
      | (.error e, D₁) => (.error e, vars, D₁)
      | (.ok _, []) => (.error (.transport T), vars, [])
      | (.ok name, c :: D₁) =>
        if c != equals then (.error (.malformed (.queryWithoutValue name)), vars, c :: D₁)
        else
          match hV : scanToken T lim.queryValue .queryValue true endsQueryValue 0 [] D₁ with
          | (.error e, D₂) => (.error e, vars, D₂)
          | (.ok value, []) => (.error (.transport T), vars ++ [⟨name, value⟩], [])
          | (.ok value, d :: D₂) =>
            if d == amp then scanQuery T lim (vars ++ [⟨name, value⟩]) D₂
            else scanQuery T lim (vars ++ [⟨name, value⟩]) (d :: D₂)
termination_by D.length
decreasing_by
  all_goals
    have h₁ :=
      (scanToken_suffix T lim.queryName .queryName true endsQueryName 0 [] (b :: R)).length_le
    have h₂ :=
      (scanToken_suffix T lim.queryValue .queryValue true endsQueryValue 0 [] D₁).length_le
    rw [_hN] at h₁
    rw [hV] at h₂
    simp only [List.length_cons] at h₁ h₂ ⊢
    omega

section QueryEquation

variable {T : Transport.Stop} {lim : Limits}

/-- A byte that is neither blank nor `#` starts a query variable, whatever follows it. -/
theorem ends_var_cons {b : Byte} (hb : ¬(Byte.isBlank b || b == hash) = true) (u : Bytes) :
    Ends (fun b => !(Byte.isBlank b || b == hash)) (b :: u) := by
  simpa [Ends] using hb

/-- One step of the query loop, with the matches on the two tokens laid open. -/
theorem scanQuery_of_ends {D : Bytes} (vars : List Field)
    (hD : Ends (fun b => !(Byte.isBlank b || b == hash)) D) :
    scanQuery T lim vars D =
      match scanToken T lim.queryName .queryName true endsQueryName 0 [] D with
      | (.error e, D₁) => (.error e, vars, D₁)
      | (.ok _, []) => (.error (.transport T), vars, [])
      | (.ok name, c :: D₁) =>
        if c != equals then (.error (.malformed (.queryWithoutValue name)), vars, c :: D₁)
        else
          match scanToken T lim.queryValue .queryValue true endsQueryValue 0 [] D₁ with
          | (.error e, D₂) => (.error e, vars, D₂)
          | (.ok value, []) => (.error (.transport T), vars ++ [⟨name, value⟩], [])
          | (.ok value, d :: D₂) =>
            if d == amp then scanQuery T lim (vars ++ [⟨name, value⟩]) D₂
            else scanQuery T lim (vars ++ [⟨name, value⟩]) (d :: D₂) := by
  obtain ⟨b, R, rfl⟩ : ∃ b R, D = b :: R := by
    cases D with
    | nil => exact hD.elim
    | cons b R => exact ⟨b, R, rfl⟩
  rw [scanQuery]
  simp only [Ends, Bool.not_eq_true'] at hD
  simp only [hD, Bool.false_eq_true, if_false]
  split <;> rename_i heq <;> simp only [heq]
  split
  · rfl
  · split <;> rename_i heq' <;> simp only [heq']

end QueryEquation

/-- The numbers of a version after `HTTP/`: at most `room` more bytes before a blank, with the
dot seen or not, the digits since the dot or the start, and the two numbers. -/
def scanNumbers (T : Transport.Stop) :
    Nat → Bool → Nat → Int → Int → Bytes → Scanned (Bool × Nat × Int × Int)
  | _, _, _, _, _, [] => (.error (.transport T), [])
  | room, seenDot, digits, major, minor, b :: D =>
    if Byte.isBlank b then (.ok (seenDot, digits, major, minor), b :: D)
    else
      match room with
      | 0 => (.error (.malformed .versionTooLong), b :: D)
      | room + 1 =>
        if b == dot then
          if seenDot || digits == 0 then (.error (.malformed .misplacedDot), D)
          else scanNumbers T room true 0 major minor D
        else if Byte.isDigit b then
          if seenDot then
            scanNumbers T room seenDot (digits + 1) major (minor * 10 + ((b - 48).toNat : Int)) D
          else scanNumbers T room seenDot (digits + 1) (major * 10 + ((b - 48).toNat : Int)) minor D
        else (.error (.malformed (.versionChar b)), D)

/-- The bytes of `word`, each of which must come in turn. -/
def scanWord (T : Transport.Stop) : Bytes → Bytes → Scanned Unit
  | [], D => (.ok (), D)
  | _ :: _, [] => (.error (.transport T), [])
  | w :: ws, b :: D => if b != w then (.error (.malformed .versionPrefix), D) else scanWord T ws D

/-- The version token `HTTP/major.minor`. -/
def scanVersion (T : Transport.Stop) (D : Bytes) : Scanned Version :=
  match scanWord T (Bytes.ofString "HTTP/") D with
  | (.error e, D) => (.error e, D)
  | (.ok (), D) =>
    match scanNumbers T 9 false 0 0 0 D with
    | (.error e, D) => (.error e, D)
    | (.ok (seenDot, digits, major, minor), D) =>
      if !seenDot || digits == 0 then (.error (.malformed .incompleteVersion), D)
      else (.ok ⟨major, minor⟩, D)

/-- The header lines up to and including the empty line that ends them: `hs` holds those read
so far, and a failure keeps them. -/
def scanHeaders (T : Transport.Stop) (lim : Limits) (hs : List Field) (D : Bytes) :
    Except ParseError Unit × List Field × Bytes :=
  match D with
  | [] => (.error (.transport T), hs, [])
  | b :: R =>
    if b == cr then
      match R with
      | [] => (.error (.transport T), hs, [])
      | c :: R' => (if c != lf then .error (.malformed (.unexpected lf c)) else .ok (), hs, R')
    else if b == lf then (.ok (), hs, R)
    else if (hs.length : Int) == lim.headers then
      (.error (.oversized (.tooManyHeaders lim.headers)), hs, b :: R)
    else
      match _hN : scanToken T lim.headerName .headerName false endsHeaderName 0 [] (b :: R) with
      | (.error e, D₁) => (.error e, hs, D₁)
      | (.ok name, D₁) =>
        if name.isEmpty then (.error (.malformed .emptyHeaderName), hs, D₁)
        else
          match D₁ with
          | [] => (.error (.transport T), hs, [])
          | c :: D₂ =>
            if c != colon then (.error (.malformed (.unexpected colon c)), hs, D₂)
            else
              match _hI : scanSkip T isIndent D₂ with
              | (.error e, D₃) => (.error e, hs, D₃)
              | (.ok _, D₃) =>
                match hV : scanToken T lim.headerValue .headerValue false endsHeaderValue 0 [] D₃
                with
                | (.error e, D₄) => (.error e, hs, D₄)
                | (.ok value, []) => (.error (.transport T), hs ++ [⟨name, trimRight value⟩], [])
                | (.ok value, d :: D₄) =>
                  if d == cr then
                    match D₄ with
                    | [] => (.error (.transport T), hs ++ [⟨name, trimRight value⟩], [])
                    | e :: D₅ =>
                      if e != lf then
                        (.error (.malformed (.unexpected lf e)), hs ++ [⟨name, trimRight value⟩], D₅)
                      else scanHeaders T lim (hs ++ [⟨name, trimRight value⟩]) D₅
                  else scanHeaders T lim (hs ++ [⟨name, trimRight value⟩]) D₄
termination_by D.length
decreasing_by
  all_goals
    have h₁ :=
      (scanToken_suffix T lim.headerName .headerName false endsHeaderName 0 [] (b :: R)).length_le
    have h₂ := (scanSkip_suffix T isIndent D₂).length_le
    have h₃ :=
      (scanToken_suffix T lim.headerValue .headerValue false endsHeaderValue 0 [] D₃).length_le
    rw [_hN] at h₁
    rw [_hI] at h₂
    rw [hV] at h₃
    simp only [List.length_cons] at h₁ h₂ h₃ ⊢
    omega

section HeaderEquation

variable {T : Transport.Stop} {lim : Limits}

/-- One header line of the header loop, with the matches on its pieces laid open. -/
theorem scanHeaders_line {b : Byte} {R : Bytes} (hs : List Field) (hcr : (b == cr) = false)
    (hlf : (b == lf) = false) (hcount : ((hs.length : Int) == lim.headers) = false) :
    scanHeaders T lim hs (b :: R) =
      match scanToken T lim.headerName .headerName false endsHeaderName 0 [] (b :: R) with
      | (.error e, D₁) => (.error e, hs, D₁)
      | (.ok name, D₁) =>
        if name.isEmpty then (.error (.malformed .emptyHeaderName), hs, D₁)
        else
          match D₁ with
          | [] => (.error (.transport T), hs, [])
          | c :: D₂ =>
            if c != colon then (.error (.malformed (.unexpected colon c)), hs, D₂)
            else
              match scanSkip T isIndent D₂ with
              | (.error e, D₃) => (.error e, hs, D₃)
              | (.ok _, D₃) =>
                match scanToken T lim.headerValue .headerValue false endsHeaderValue 0 [] D₃ with
                | (.error e, D₄) => (.error e, hs, D₄)
                | (.ok value, []) => (.error (.transport T), hs ++ [⟨name, trimRight value⟩], [])
                | (.ok value, d :: D₄) =>
                  if d == cr then
                    match D₄ with
                    | [] => (.error (.transport T), hs ++ [⟨name, trimRight value⟩], [])
                    | e :: D₅ =>
                      if e != lf then
                        (.error (.malformed (.unexpected lf e)), hs ++ [⟨name, trimRight value⟩], D₅)
                      else scanHeaders T lim (hs ++ [⟨name, trimRight value⟩]) D₅
                  else scanHeaders T lim (hs ++ [⟨name, trimRight value⟩]) D₄ := by
  rw [scanHeaders.eq_def]
  simp only [hcr, hlf, hcount, Bool.false_eq_true, if_false]
  split <;> rename_i heq <;> simp only [heq]
  split
  · rfl
  rename_i name D₁ _
  cases D₁ with
  | nil => rfl
  | cons c D₂ =>
    dsimp only
    split
    · rfl
    split <;> rename_i heq₂ <;> simp only [heq₂]
    split <;> rename_i heq₃ <;> simp only [heq₃]
    rename_i value d D₄
    split
    · cases D₄ <;> rfl
    · rfl

end HeaderEquation

/-- What reading a whole request from a stream gives: the request as far as it was read, the
failure if there was one, and the bytes left. -/
abbrev Outcome := Option Request × Option ParseError × Bytes

/-- The header section of a request of method `m`, and the check that the method is one the
server implements, made only once the section has been read. -/
def scanHeaderSection (T : Transport.Stop) (lim : Limits) (m : Method) (r : Request)
    (D : Bytes) : Outcome :=
  match scanHeaders T lim r.headers D with
  | (res, hs, D) =>
    let r := { r with headers := hs }
    match res with
    | .error e => (some r, some e, D)
    | .ok () => (some r, if !m.implemented then some (.unsupported m) else none, D)

/-- The rest of a request line of method `m`, from the first byte after the target: a line
feed ends a simple request; otherwise the version, the end of the line, and the header
section. -/
def scanEnding (T : Transport.Stop) (lim : Limits) (m : Method) (r : Request) (D : Bytes) :
    Outcome :=
  match scanSkip T inLine D with
  | (.error e, D) => (some r, some e, D)
  | (.ok ch, D) =>
    if ch == lf then
      let r := { r with form := .simple, version := Version.v09 }
      (some r, if m != .get then some (.malformed (.simpleNotGet m)) else none, D.tail)
    else
      match scanVersion T D with
      | (.error e, D) => (some r, some e, D)
      | (.ok v, D) =>
        let r := { r with version := v }
        match scanSkip T inLine D with
        | (.error e, D) => (some r, some e, D)
        | (.ok ch, D) =>
          if ch != lf then (some r, some (.malformed (.afterVersion ch)), D)
          else
            let r := if r.version == Version.v09 then { r with form := .simple } else r
            if r.version == Version.v09 && m != .get then
              (some r, some (.malformed (.oldVersionNotGet m)), D.tail)
            else scanHeaderSection T lim m r D.tail

/-- From the byte after the path and the query: the fragment after `#`, then the rest of the
line. -/
def scanAfterQuery (T : Transport.Stop) (lim : Limits) (m : Method) (r : Request) (D : Bytes) :
    Outcome :=
  match D with
  | [] => (some r, some (.transport T), [])
  | ch :: D' =>
    if ch == hash then
      match scanToken T lim.fragment .fragment true Byte.isBlank 0 [] D' with
      | (.error e, D) => (some r, some e, D)
      | (.ok f, D) => scanEnding T lim m { r with fragment := f } D
    else scanEnding T lim m r (ch :: D')

/-- From the byte after the path: the query variables after `?`, then the fragment and the
rest of the line. -/
def scanAfterPath (T : Transport.Stop) (lim : Limits) (m : Method) (r : Request) (D : Bytes) :
    Outcome :=
  match D with
  | [] => (some r, some (.transport T), [])
  | ch :: D' =>
    if ch == question then
      match scanQuery T lim r.query D' with
      | (res, vars, D) =>
        let r := { r with query := vars }
        match res with
        | .error e => (some r, some e, D)
        | .ok () => scanAfterQuery T lim m r D
    else scanAfterQuery T lim m r (ch :: D')

/-- A whole request read from a byte stream that stops with `T`. -/
def scanRequest (T : Transport.Stop) (lim : Limits) (D : Bytes) : Outcome :=
  match scanSkip T Byte.isBlank D with
  | (.error e, D) => (none, some e, D)
  | (.ok _, D) =>
    match scanMethod T Method.maxNameLength [] D with
    | (.error e, D) => (none, some e, D)
    | (.ok tok, D) =>
      match matchMethod tok with
      | none => (none, some (.malformed (.unknownMethod tok)), D)
      | some m =>
        let r : Request := { method := m }
        match scanSkip T inLine D with
        | (.error e, D) => (some r, some e, D)
        | (.ok ch, D) =>
          if ch == lf then (some r, some (.malformed (.missingUri m)), D)
          else
            match scanPath T lim D with
            | (.error e, D) => (some r, some e, D)
            | (.ok p, D) => scanAfterPath T lim m { r with uri := p } D

/-! ## Every piece leaves a suffix of its input -/

section Suffix

variable (T : Transport.Stop) (lim : Limits)

theorem scanMethod_suffix (room : Nat) (acc D : Bytes) : (scanMethod T room acc D).2 <:+ D := by
  fun_induction scanMethod T room acc D <;> simp_all [List.suffix_cons_iff]

theorem scanEscape_suffix (D : Bytes) : (scanEscape T D).2 <:+ D := by
  unfold scanEscape
  split <;> simp [List.suffix_cons_iff]

theorem scanPath_suffix (D : Bytes) : (scanPath T lim D).2 <:+ D := by
  have h := scanToken_suffix T lim.uri .path true endsPath 0 [] D
  unfold scanPath
  split <;> grind

theorem scanQuery_suffix (vars : List Field) (D : Bytes) : (scanQuery T lim vars D).2.2 <:+ D := by
  fun_induction scanQuery T lim vars D <;>
    grind [scanToken_suffix, List.IsSuffix.trans, List.suffix_cons]

theorem scanNumbers_suffix (room : Nat) (seenDot : Bool) (digits : Nat) (major minor : Int)
    (D : Bytes) : (scanNumbers T room seenDot digits major minor D).2 <:+ D := by
  fun_induction scanNumbers T room seenDot digits major minor D <;>
    simp_all [List.suffix_cons_iff]

theorem scanWord_suffix (word D : Bytes) : (scanWord T word D).2 <:+ D := by
  fun_induction scanWord T word D <;> simp_all [List.suffix_cons_iff]

theorem scanVersion_suffix (D : Bytes) : (scanVersion T D).2 <:+ D := by
  have h := scanWord_suffix T (Bytes.ofString "HTTP/") D
  unfold scanVersion
  split
  · grind
  · rename_i D₁ _
    have h₁ := scanNumbers_suffix T 9 false 0 0 0 D₁
    split <;> grind

theorem scanHeaders_suffix (hs : List Field) (D : Bytes) : (scanHeaders T lim hs D).2.2 <:+ D := by
  fun_induction scanHeaders T lim hs D <;>
    grind [scanToken_suffix, scanSkip_suffix, List.IsSuffix.trans, List.suffix_cons]

end Suffix

end Reading

end StaticHttp
