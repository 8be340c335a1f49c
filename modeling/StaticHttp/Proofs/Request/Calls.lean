import StaticHttp.Proofs.Request.Program

/-!
# The calls the reader makes of its cursor

`Reading.Program` writes each step of the reader as a program of cursor calls, line for line,
and `toStep` of each is that step of the reader (`Program.request_toStep`). So the log of a
run of `Program.request` is the sequence of calls `Request.parse` makes.

Every advance of the reader consumes a byte that a peek has just shown: the peek ends a skip,
a token, the method or the version numbers, or it is made for the byte itself, and no other
cursor call comes between. `Prog.Safe` checks this program by program; the steps that end with
such a peek say so in their postcondition, and the steps that take the byte shown before them,
`afterQuery` among them, ask for it in their precondition.

Main statements:
* `Program.request_toStep`: the program is the reader.
* `Program.request_safe`: the reader advances only right after a peek that showed a byte.
* `parse_advances_after_peek`: so every advance of a parse comes right after such a peek, and
  a cursor that keeps its window as indices into its buffer stays within the buffer.
-/

namespace StaticHttp

namespace Reading

open Transport

namespace Program

/-- The next byte, not consumed. -/
def peek : Prog Byte := .peek .pure

/-- The next byte, consumed. -/
def next : Prog Byte := .next .pure

/-- Consumes the byte the last peek showed. -/
def advance : Prog Unit := .advance (.pure ())

/-- Changes the request read so far. -/
def update (f : Request → Request) : Prog Unit := .update f (.pure ())

/-- The request read so far. -/
def current : Prog (Option Request) := .inspect .pure

/-- Starts the request read so far with its method. -/
def begin (m : Method) : Prog Unit := .start { method := m } (.pure ())

/-- A loop that has run for more steps than the input has bytes. -/
def outOfInput {α : Type} : Prog α := throw (.transport .endOfStream)

/-- Consumes the next byte, which must be `want`. -/
def expect (want : Byte) : Prog Unit := do
  let ch ← next
  if ch != want then throw (.malformed (.unexpected want ch))

/-- Skips blank bytes, line feeds included. -/
def skipLeading : Nat → Prog Unit
  | 0 => outOfInput
  | fuel + 1 => do
    let ch ← peek
    if Byte.isBlank ch then
      advance
      skipLeading fuel

/-- Skips blank bytes up to a line feed, and shows the first byte not skipped. -/
def skipSpace : Nat → Prog Byte
  | 0 => outOfInput
  | fuel + 1 => do
    let ch ← peek
    if ch == lf || !Byte.isBlank ch then pure ch
    else
      advance
      skipSpace fuel

/-- Skips spaces and tabs. -/
def skipIndent : Nat → Prog Unit
  | 0 => outOfInput
  | fuel + 1 => do
    let ch ← peek
    if ch == 32 || ch == 9 then
      advance
      skipIndent fuel

/-- The method token: up to `room` more bytes before a blank. -/
def methodToken : Nat → Bytes → Prog Bytes
  | room, acc => do
    let ch ← peek
    if Byte.isBlank ch then pure acc.reverse
    else
      match room with
      | 0 => throw (.malformed .methodTooLong)
      | room + 1 =>
        advance
        methodToken room (ch :: acc)

/-- One step of the method token loop, stated by hand as `Reading.methodToken_unfold` is: the
equation Lean derives for the loop takes seconds to build. -/
theorem methodToken_unfold (room : Nat) (acc : Bytes) :
    methodToken room acc = (do
      let ch ← peek
      if Byte.isBlank ch then pure acc.reverse
      else
        match room with
        | 0 => throw (.malformed .methodTooLong)
        | room + 1 =>
          advance
          methodToken room (ch :: acc)) := by
  cases room <;> rfl

/-- The byte that a percent escape stands for. -/
def escape : Prog Byte := do
  let hi ← next
  let lo ← next
  match Byte.hexValue? hi with
  | none => throw (.malformed (.badEscape hi))
  | some h =>
    match Byte.hexValue? lo with
    | none => throw (.malformed (.badEscape lo))
    | some l => pure (h * 16 + l)

/-- The bytes up to the first one that `stop` holds of, which stays unread. -/
def token (limit : Int) (what : Component) (decode : Bool) (stop : Byte → Bool) :
    Nat → Nat → Bytes → Prog Bytes
  | 0, _, _ => outOfInput
  | fuel + 1, n, acc => do
    let ch ← peek
    if stop ch then pure acc.reverse
    else
      advance
      let b ← if decode && ch == percent then escape else pure ch
      if limit ≤ (n : Int) then throw (.oversized (.tooLong what limit))
      token limit what decode stop fuel (n + 1) (b :: acc)

/-- The path, made absolute-checked and given `index.html` when it names a directory. -/
def path (lim : Limits) (fuel : Nat) : Prog Unit := do
  let p ← token lim.uri .path true endsPath fuel 0 []
  if p.head? == some slash then
    let p := if p.getLast? == some slash then p ++ Bytes.ofString "index.html" else p
    update fun r => { r with uri := p }
  else throw (.malformed (.notAbsolute p))

/-- The query variables, up to a blank or `#`. -/
def query (lim : Limits) (fuel : Nat) : Nat → Prog Unit
  | 0 => outOfInput
  | steps + 1 => do
    let ch ← peek
    if Byte.isBlank ch || ch == hash then pure ()
    else
      let name ← token lim.queryName .queryName true endsQueryName fuel 0 []
      let ch ← peek
      if ch != equals then throw (.malformed (.queryWithoutValue name))
      advance
      let value ← token lim.queryValue .queryValue true endsQueryValue fuel 0 []
      update fun r => { r with query := r.query ++ [⟨name, value⟩] }
      let ch ← peek
      if ch == amp then advance
      query lim fuel steps

/-- The bytes of the version after `HTTP/`. -/
def versionNumbers : Nat → Bool → Nat → Int → Int → Prog (Bool × Nat × Int × Int)
  | room, seenDot, digits, major, minor => do
    let ch ← peek
    if Byte.isBlank ch then pure (seenDot, digits, major, minor)
    else
      match room with
      | 0 => throw (.malformed .versionTooLong)
      | room + 1 =>
        advance
        if ch == dot then
          if seenDot || digits == 0 then throw (.malformed .misplacedDot)
          versionNumbers room true 0 major minor
        else if Byte.isDigit ch then
          let d : Int := (ch - 48).toNat
          if seenDot then versionNumbers room seenDot (digits + 1) major (minor * 10 + d)
          else versionNumbers room seenDot (digits + 1) (major * 10 + d) minor
        else throw (.malformed (.versionChar ch))

/-- One step of the loop over the version numbers, stated by hand as `methodToken_unfold` is. -/
theorem versionNumbers_unfold (room : Nat) (seenDot : Bool) (digits : Nat) (major minor : Int) :
    versionNumbers room seenDot digits major minor = (do
      let ch ← peek
      if Byte.isBlank ch then pure (seenDot, digits, major, minor)
      else
        match room with
        | 0 => throw (.malformed .versionTooLong)
        | room + 1 =>
          advance
          if ch == dot then
            if seenDot || digits == 0 then throw (.malformed .misplacedDot)
            versionNumbers room true 0 major minor
          else if Byte.isDigit ch then
            let d : Int := (ch - 48).toNat
            if seenDot then versionNumbers room seenDot (digits + 1) major (minor * 10 + d)
            else versionNumbers room seenDot (digits + 1) (major * 10 + d) minor
          else throw (.malformed (.versionChar ch))) := by
  cases room <;> rfl

/-- Consumes the bytes of `word`, each of which must come in turn. -/
def versionWord : Bytes → Prog Unit
  | [] => pure ()
  | w :: ws => do
    let ch ← next
    if ch != w then throw (.malformed .versionPrefix)
    versionWord ws

/-- The version token `HTTP/major.minor`. -/
def version : Prog Unit := do
  versionWord (Bytes.ofString "HTTP/")
  let (seenDot, digits, major, minor) ← versionNumbers 9 false 0 0 0
  if !seenDot || digits == 0 then throw (.malformed .incompleteVersion)
  update fun r => { r with version := ⟨major, minor⟩ }

/-- The header lines, up to and including the empty line that ends them. -/
def headers (lim : Limits) (fuel : Nat) : Nat → Prog Unit
  | 0 => outOfInput
  | steps + 1 => do
    let ch ← peek
    if ch == cr then
      advance
      expect lf
    else if ch == lf then
      advance
    else
      let count := ((← current).map fun r => r.headers.length).getD 0
      if (count : Int) == lim.headers then throw (.oversized (.tooManyHeaders lim.headers))
      let name ← token lim.headerName .headerName false endsHeaderName fuel 0 []
      if name.isEmpty then throw (.malformed .emptyHeaderName)
      expect colon
      skipIndent fuel
      let value ← token lim.headerValue .headerValue false endsHeaderValue fuel 0 []
      update fun r => { r with headers := r.headers ++ [⟨name, trimRight value⟩] }
      let ch ← next
      if ch == cr then expect lf
      headers lim fuel steps

/-- The version read so far. -/
def currentVersion : Prog Version := do
  pure (((← current).map Request.version).getD Version.zero)

/-- The rest of a request line of method `m`, from the first byte after the target. -/
def ending (lim : Limits) (fuel : Nat) (m : Method) : Prog Unit := do
  let ch ← skipSpace fuel
  if ch == lf then
    advance
    update fun r => { r with form := .simple, version := Version.v09 }
    if m != .get then throw (.malformed (.simpleNotGet m))
  else
    version
    let ch ← skipSpace fuel
    if ch != lf then throw (.malformed (.afterVersion ch))
    advance
    if (← currentVersion) == Version.v09 then
      update fun r => { r with form := .simple }
      if m != .get then throw (.malformed (.oldVersionNotGet m))
    headers lim fuel fuel
    if !m.implemented then throw (.unsupported m)

/-- From the byte `ch` after the path and the query, which the last peek showed. -/
def afterQuery (lim : Limits) (fuel : Nat) (m : Method) (ch : Byte) : Prog Unit := do
  if ch == hash then
    advance
    let f ← token lim.fragment .fragment true Byte.isBlank fuel 0 []
    update fun r => { r with fragment := f }
  ending lim fuel m

/-- From the byte after the path. -/
def afterPath (lim : Limits) (fuel : Nat) (m : Method) : Prog Unit := do
  let ch ← peek
  if ch == question then
    advance
    query lim fuel fuel
    afterQuery lim fuel m (← peek)
  else afterQuery lim fuel m ch

/-- A whole request. -/
def request (lim : Limits) (fuel : Nat) : Prog Unit := do
  skipLeading fuel
  let tok ← methodToken Method.maxNameLength []
  let m ← match matchMethod tok with
    | some m => pure m
    | none => throw (.malformed (.unknownMethod tok))
  begin m
  let ch ← skipSpace fuel
  if ch == lf then throw (.malformed (.missingUri m))
  path lim fuel
  afterPath lim fuel m

/-! ## The program is the reader -/

open Prog

@[simp] theorem peek_toStep : peek.toStep = Reading.peek := bind_pure _

@[simp] theorem next_toStep : next.toStep = Reading.next := bind_pure _

@[simp] theorem advance_toStep : advance.toStep = Reading.advance := bind_pure_unit

@[simp] theorem update_toStep (f : Request → Request) : (update f).toStep = Reading.update f :=
  bind_pure_unit

@[simp] theorem current_toStep :
    current.toStep = (get >>= fun s : Progress => Pure.pure s.request : Step (Option Request)) :=
  rfl

@[simp] theorem begin_toStep (m : Method) :
    (begin m).toStep = modify fun s : Progress => { s with request := some { method := m } } :=
  bind_pure_unit

@[simp] theorem outOfInput_toStep {α : Type} : (outOfInput : Prog α).toStep = Reading.outOfInput :=
  rfl

theorem expect_toStep (want : Byte) : (expect want).toStep = Reading.expect want := by
  simp only [expect, Reading.expect, toStep_bind, next_toStep, toStep_ite, toStep_throw,
    toStep_pure]

theorem skipLeading_toStep : ∀ fuel, (skipLeading fuel).toStep = Reading.skipLeading fuel
  | 0 => rfl
  | fuel + 1 => by
    simp only [skipLeading, Reading.skipLeading, toStep_bind, peek_toStep, toStep_ite,
      advance_toStep, skipLeading_toStep fuel, toStep_pure]

theorem skipSpace_toStep : ∀ fuel, (skipSpace fuel).toStep = Reading.skipSpace fuel
  | 0 => rfl
  | fuel + 1 => by
    simp only [skipSpace, Reading.skipSpace, toStep_bind, peek_toStep, toStep_ite,
      advance_toStep, skipSpace_toStep fuel, toStep_pure]

theorem skipIndent_toStep : ∀ fuel, (skipIndent fuel).toStep = Reading.skipIndent fuel
  | 0 => rfl
  | fuel + 1 => by
    simp only [skipIndent, Reading.skipIndent, toStep_bind, peek_toStep, toStep_ite,
      advance_toStep, skipIndent_toStep fuel, toStep_pure]

theorem methodToken_toStep :
    ∀ (room : Nat) (acc : Bytes), (methodToken room acc).toStep = Reading.methodToken room acc
  | 0, acc => by
    rw [methodToken_unfold, Reading.methodToken_unfold]
    simp only [toStep_bind, peek_toStep, toStep_ite, toStep_pure, toStep_throw]
  | room + 1, acc => by
    rw [methodToken_unfold, Reading.methodToken_unfold]
    simp only [toStep_bind, peek_toStep, toStep_ite, toStep_pure, advance_toStep,
      methodToken_toStep room]

theorem escape_toStep : escape.toStep = Reading.escape := by
  simp only [escape, Reading.escape, toStep_bind, next_toStep]
  congr 1
  funext hi
  congr 1
  funext lo
  rcases Byte.hexValue? hi with _ | h
  · rfl
  · rcases Byte.hexValue? lo with _ | l <;> rfl

theorem token_toStep (limit : Int) (what : Component) (decode : Bool) (stop : Byte → Bool) :
    ∀ (fuel n : Nat) (acc : Bytes), (token limit what decode stop fuel n acc).toStep =
      Reading.token limit what decode stop fuel n acc
  | 0, _, _ => rfl
  | fuel + 1, n, acc => by
    simp only [token, Reading.token, toStep_bind, peek_toStep, toStep_ite, toStep_pure,
      advance_toStep, escape_toStep, toStep_throw, token_toStep limit what decode stop fuel]

theorem path_toStep (lim : Limits) (fuel : Nat) : (path lim fuel).toStep = Reading.path lim fuel := by
  simp only [path, Reading.path, toStep_bind, token_toStep, toStep_ite, update_toStep,
    toStep_throw]

theorem query_toStep (lim : Limits) (fuel : Nat) :
    ∀ steps, (query lim fuel steps).toStep = Reading.query lim fuel steps
  | 0 => rfl
  | steps + 1 => by
    simp only [query, Reading.query, toStep_bind, peek_toStep, toStep_ite, toStep_pure,
      token_toStep, toStep_throw, advance_toStep, update_toStep, query_toStep lim fuel steps]

theorem versionNumbers_toStep : ∀ (room : Nat) (seenDot : Bool) (digits : Nat) (major minor : Int),
    (versionNumbers room seenDot digits major minor).toStep =
      Reading.versionNumbers room seenDot digits major minor
  | 0, seenDot, digits, major, minor => by
    rw [versionNumbers_unfold, Reading.versionNumbers_unfold]
    simp only [toStep_bind, peek_toStep, toStep_ite, toStep_pure, toStep_throw]
  | room + 1, seenDot, digits, major, minor => by
    rw [versionNumbers_unfold, Reading.versionNumbers_unfold]
    simp only [toStep_bind, peek_toStep, toStep_ite, toStep_pure, toStep_throw, advance_toStep,
      versionNumbers_toStep room]

theorem versionWord_toStep : ∀ word, (versionWord word).toStep = Reading.versionWord word
  | [] => rfl
  | w :: ws => by
    simp only [versionWord, Reading.versionWord, toStep_bind, next_toStep, toStep_ite,
      toStep_throw, versionWord_toStep ws]

theorem version_toStep : version.toStep = Reading.version := by
  simp only [version, Reading.version, toStep_bind, versionWord_toStep, versionNumbers_toStep]
  congr 1
  funext u
  congr 1
  funext x
  rcases x with ⟨seenDot, digits, major, minor⟩
  simp only [toStep_bind, toStep_ite, toStep_throw, update_toStep]

theorem currentVersion_toStep : currentVersion.toStep = Reading.currentVersion := by
  simp only [currentVersion, Reading.currentVersion, toStep_bind, current_toStep, bind_assoc,
    pure_bind, toStep_pure]

theorem headers_toStep (lim : Limits) (fuel : Nat) :
    ∀ steps, (headers lim fuel steps).toStep = Reading.headers lim fuel steps
  | 0 => rfl
  | steps + 1 => by
    simp only [headers, Reading.headers, toStep_bind, peek_toStep, toStep_ite, advance_toStep, expect_toStep, current_toStep, bind_assoc, pure_bind, toStep_throw,
      token_toStep, skipIndent_toStep, update_toStep, next_toStep, headers_toStep lim fuel steps]

theorem ending_toStep (lim : Limits) (fuel : Nat) (m : Method) :
    (ending lim fuel m).toStep = Reading.ending lim fuel m := by
  simp only [ending, Reading.ending, toStep_bind, skipSpace_toStep, toStep_ite, advance_toStep,
    update_toStep, toStep_throw, toStep_pure, version_toStep, currentVersion_toStep,
    headers_toStep]

theorem afterQuery_toStep (lim : Limits) (fuel : Nat) (m : Method) (ch : Byte) :
    (afterQuery lim fuel m ch).toStep = Reading.afterQuery lim fuel m ch := by
  simp only [afterQuery, Reading.afterQuery, toStep_bind, toStep_ite, advance_toStep,
    token_toStep, update_toStep, ending_toStep]

theorem afterPath_toStep (lim : Limits) (fuel : Nat) (m : Method) :
    (afterPath lim fuel m).toStep = Reading.afterPath lim fuel m := by
  simp only [afterPath, Reading.afterPath, toStep_bind, peek_toStep, toStep_ite, advance_toStep,
    query_toStep, afterQuery_toStep]

/-- **The program is the reader.** Run as the reader runs, the program of a whole request is
`Reading.request`. -/
theorem request_toStep (lim : Limits) (fuel : Nat) :
    (request lim fuel).toStep = Reading.request lim fuel := by
  simp only [request, Reading.request, toStep_bind, skipLeading_toStep, methodToken_toStep]
  congr 1
  funext u
  congr 1
  funext tok
  rcases matchMethod tok with _ | m
  · rfl
  · simp only [pure_bind_eq, pure_bind, toStep_bind, begin_toStep, skipSpace_toStep, toStep_ite,
      toStep_throw, path_toStep, afterPath_toStep]

/-! ## Every advance comes right after a peek -/

@[simp] theorem safe_peek (shown : Bool) (Q : Byte → Bool → Prop) :
    Safe shown peek Q ↔ ∀ b, Q b true := Iff.rfl

@[simp] theorem safe_next (shown : Bool) (Q : Byte → Bool → Prop) :
    Safe shown next Q ↔ ∀ b, Q b false := Iff.rfl

@[simp] theorem safe_advance (shown : Bool) (Q : Unit → Bool → Prop) :
    Safe shown advance Q ↔ shown = true ∧ Q () false := Iff.rfl

@[simp] theorem safe_update (f : Request → Request) (shown : Bool) (Q : Unit → Bool → Prop) :
    Safe shown (update f) Q ↔ Q () shown := Iff.rfl

@[simp] theorem safe_current (shown : Bool) (Q : Option Request → Bool → Prop) :
    Safe shown current Q ↔ ∀ r, Q r shown := Iff.rfl

@[simp] theorem safe_begin (m : Method) (shown : Bool) (Q : Unit → Bool → Prop) :
    Safe shown (begin m) Q ↔ Q () shown := Iff.rfl

@[simp] theorem safe_outOfInput (shown : Bool) (Q : α → Bool → Prop) :
    Safe shown (outOfInput : Prog α) Q := trivial

section

variable {α : Type} {shown : Bool}

theorem expect_safe (want : Byte) {Q : Unit → Bool → Prop} (hQ : ∀ a, Q a false) :
    Safe shown (expect want) Q := by
  simp [expect, safe_bind, safe_ite, hQ]

theorem skipLeading_safe {Q : Unit → Bool → Prop} (hQ : ∀ a, Q a true) :
    ∀ fuel shown, Safe shown (skipLeading fuel) Q
  | 0, _ => trivial
  | fuel + 1, _ => by
    simp [skipLeading, safe_bind, safe_ite, hQ, skipLeading_safe hQ fuel]

theorem skipSpace_safe {Q : Byte → Bool → Prop} (hQ : ∀ a, Q a true) :
    ∀ fuel shown, Safe shown (skipSpace fuel) Q
  | 0, _ => trivial
  | fuel + 1, _ => by
    simp [skipSpace, safe_bind, safe_ite, hQ, skipSpace_safe hQ fuel]

theorem skipIndent_safe {Q : Unit → Bool → Prop} (hQ : ∀ a, Q a true) :
    ∀ fuel shown, Safe shown (skipIndent fuel) Q
  | 0, _ => trivial
  | fuel + 1, _ => by
    simp [skipIndent, safe_bind, safe_ite, hQ, skipIndent_safe hQ fuel]

theorem methodToken_safe {Q : Bytes → Bool → Prop} (hQ : ∀ a, Q a true) :
    ∀ room acc shown, Safe shown (methodToken room acc) Q
  | 0, acc, shown => by
    rw [methodToken_unfold]
    simp [safe_bind, safe_ite, hQ]
  | room + 1, acc, shown => by
    rw [methodToken_unfold]
    simp [safe_bind, safe_ite, hQ, methodToken_safe hQ room]

theorem escape_safe {Q : Byte → Bool → Prop} (hQ : ∀ a, Q a false) : Safe shown escape Q := by
  simp only [escape, safe_bind, safe_next]
  intro hi lo
  rcases Byte.hexValue? hi with _ | h
  · trivial
  · rcases Byte.hexValue? lo with _ | l
    · trivial
    · exact hQ _

theorem token_safe (limit : Int) (what : Component) (decode : Bool) (stop : Byte → Bool)
    {Q : Bytes → Bool → Prop} (hQ : ∀ a, Q a true) :
    ∀ fuel n acc shown, Safe shown (token limit what decode stop fuel n acc) Q
  | 0, _, _, _ => trivial
  | fuel + 1, n, acc, shown => by
    simp [token, safe_bind, safe_ite, hQ, escape_safe, token_safe limit what decode stop hQ fuel]

theorem path_safe (lim : Limits) (fuel : Nat) {Q : Unit → Bool → Prop} (hQ : ∀ a, Q a true) :
    Safe shown (path lim fuel) Q := by
  simp [path, safe_bind, safe_ite, hQ, token_safe]

theorem query_safe (lim : Limits) (fuel : Nat) {Q : Unit → Bool → Prop} (hQ : ∀ a, Q a true) :
    ∀ steps shown, Safe shown (query lim fuel steps) Q
  | 0, _ => trivial
  | steps + 1, _ => by
    simp [query, safe_bind, safe_ite, hQ, token_safe, query_safe lim fuel hQ steps]

theorem versionNumbers_safe {Q : Bool × Nat × Int × Int → Bool → Prop} (hQ : ∀ a, Q a true) :
    ∀ room seenDot digits major minor shown,
      Safe shown (versionNumbers room seenDot digits major minor) Q
  | 0, seenDot, digits, major, minor, shown => by
    rw [versionNumbers_unfold]
    simp [safe_bind, safe_ite, hQ]
  | room + 1, seenDot, digits, major, minor, shown => by
    rw [versionNumbers_unfold]
    simp [safe_bind, safe_ite, hQ, versionNumbers_safe hQ room]

theorem versionWord_safe {Q : Unit → Bool → Prop} (hQ : ∀ a g, Q a g) :
    ∀ word shown, Safe shown (versionWord word) Q
  | [], _ => hQ _ _
  | w :: ws, _ => by
    simp [versionWord, safe_bind, safe_ite, versionWord_safe hQ ws]

theorem version_safe {Q : Unit → Bool → Prop} (hQ : ∀ a, Q a true) : Safe shown version Q := by
  simp [version, safe_bind, safe_ite, hQ, versionWord_safe, versionNumbers_safe]

theorem currentVersion_safe {Q : Version → Bool → Prop} (hQ : ∀ a, Q a shown) :
    Safe shown currentVersion Q := by
  simp [currentVersion, safe_bind, hQ]

theorem headers_safe (lim : Limits) (fuel : Nat) {Q : Unit → Bool → Prop} (hQ : ∀ a g, Q a g) :
    ∀ steps shown, Safe shown (headers lim fuel steps) Q
  | 0, _ => trivial
  | steps + 1, _ => by
    simp [headers, safe_bind, safe_ite, hQ, expect_safe, token_safe, skipIndent_safe,
      headers_safe lim fuel hQ steps]

theorem ending_safe (lim : Limits) (fuel : Nat) (m : Method) {Q : Unit → Bool → Prop}
    (hQ : ∀ a g, Q a g) : Safe shown (ending lim fuel m) Q := by
  simp [ending, safe_bind, safe_ite, hQ, skipSpace_safe, version_safe, currentVersion_safe,
    headers_safe]

/-- `afterQuery` takes the byte the last peek showed, so it asks that the last call was that
peek. -/
theorem afterQuery_safe (lim : Limits) (fuel : Nat) (m : Method) (ch : Byte)
    {Q : Unit → Bool → Prop} (hQ : ∀ a g, Q a g) : Safe true (afterQuery lim fuel m ch) Q := by
  simp [afterQuery, safe_bind, safe_ite, hQ, token_safe, ending_safe]

theorem afterPath_safe (lim : Limits) (fuel : Nat) (m : Method) {Q : Unit → Bool → Prop}
    (hQ : ∀ a g, Q a g) : Safe shown (afterPath lim fuel m) Q := by
  simp [afterPath, safe_bind, safe_ite, hQ, query_safe, afterQuery_safe]

/-- **The reader advances only after a peek.** Whatever state a request starts from, each
advance of `request` comes right after a peek that showed a byte. -/
theorem request_safe (lim : Limits) (fuel : Nat) {Q : Unit → Bool → Prop} (hQ : ∀ a g, Q a g) :
    Safe shown (request lim fuel) Q := by
  rw [request, safe_bind]
  refine skipLeading_safe (fun _ => ?_) fuel shown
  rw [safe_bind]
  refine methodToken_safe (fun tok => ?_) _ _ _
  -- the rest of the request depends on which method the token names
  cases matchMethod tok with
  | none => trivial
  | some m => simp [safe_bind, safe_ite, hQ, skipSpace_safe, path_safe, afterPath_safe]

end

end Program

end Reading

namespace Request

open Reading Transport

/-- `Request.parse` run as the program of its cursor calls: the result, the progress it ends
with, and the calls it made of the cursor, in order. -/
def parseLogged (lim : Limits) (c : Cursor) : Except ParseError Unit × Progress × List Call :=
  (Program.request lim (c.budget (Parsed.endlessBudget + lim.largest) + 1)).runLog ⟨c, none⟩

/-- The calls `Request.parse` makes of its cursor, in order. -/
def parseCalls (lim : Limits) (c : Cursor) : List Call := (parseLogged lim c).2.2

/-- The logged run, its log left out, is the run `Request.parse` makes. -/
theorem parseLogged_erase (lim : Limits) (c : Cursor) :
    ((parseLogged lim c).1, (parseLogged lim c).2.1) =
      (Reading.request lim (c.budget (Parsed.endlessBudget + lim.largest) + 1)).run.run
        ⟨c, none⟩ := by
  rw [parseLogged, Prog.runLog_erase, Program.request_toStep]

/-- The parse ends with the cursor and the request the logged run ends with. -/
theorem parse_eq_parseLogged (lim : Limits) (c : Cursor) :
    (Request.parse lim c).cursor = (parseLogged lim c).2.1.cursor ∧
      (Request.parse lim c).request = (parseLogged lim c).2.1.request := by
  simp only [Request.parse, ← parseLogged_erase, and_self]

theorem parseCalls_answers (lim : Limits) (c : Cursor) : c.Answers (parseCalls lim c) :=
  Prog.runLog_answers _ ⟨c, none⟩

theorem parseCalls_disciplined (lim : Limits) (c : Cursor) :
    Call.Disciplined false (parseCalls lim c) :=
  (Program.request_safe lim _ (fun _ _ => trivial)).runLog_disciplined ⟨c, none⟩ |>.1

/-- From any cursor the machine mirrors, the machine answers the calls of a parse as the
window cursor does and stays within its buffer. -/
theorem parseCalls_replay (lim : Limits) {m : Machine} {c : Cursor} (h : Mirrors m c) :
    (m.replay (parseCalls lim c)).1 = (parseCalls lim c).map some ∧
      ∀ m' ∈ (m.replay (parseCalls lim c)).2, m'.Bounded :=
  Mirrors.replay _ h (fun hf => by cases hf) (parseCalls_disciplined lim c)
    (parseCalls_answers lim c)

/-- **A parse advances only after a peek, so the cursor stays within its buffer.** On any
transport and with any limits, the calls `Request.parse` makes of a fresh cursor lead it to
where the parse ends, each is answered as the cursor answers it, and each advance among them
comes right after a peek that showed a byte. Made of a cursor that keeps its window as indices
`pos` and `endPos` into its buffer, the same calls get the same answers, every read is in range,
and every state keeps `0 ≤ pos ≤ endPos ≤ windowSize`. -/
theorem parse_advances_after_peek (lim : Limits) (s : Script) :
    (Request.parse lim (Cursor.ofScript s)).cursor =
        (parseLogged lim (Cursor.ofScript s)).2.1.cursor ∧
      (Cursor.ofScript s).Answers (parseCalls lim (Cursor.ofScript s)) ∧
      (∀ pre post, parseCalls lim (Cursor.ofScript s) = pre ++ .advance :: post →
        ∃ pre' b, pre = pre' ++ [.peek (.ok b)]) ∧
      ((Machine.ofScript s).replay (parseCalls lim (Cursor.ofScript s))).1 =
        (parseCalls lim (Cursor.ofScript s)).map some ∧
      ∀ m ∈ ((Machine.ofScript s).replay (parseCalls lim (Cursor.ofScript s))).2, m.Bounded :=
  ⟨(parse_eq_parseLogged lim _).1, parseCalls_answers lim _,
    (parseCalls_disciplined lim _).after_peek, parseCalls_replay lim (Mirrors.ofScript s)⟩

end Request

end StaticHttp
