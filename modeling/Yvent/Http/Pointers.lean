import Yvent.Buffer.Refinement
import Yvent.Http.Rejection
import Yvent.Http.Server

/-!
# The request parser on its buffer

`HttpContext::parseRequest` and the setters that it calls, with the pointers of the source as
indices into the vector of the input buffer. To read a byte that is not among the readable ones is a
fault here. So is a failed assertion; that of `setMethod` is there in a debug build only.
-/

namespace Yvent.Http

open Buffer

namespace Pointers

/-- `*p` -/
def deref (b : Buffer) (p : Nat) : Checked UInt8 :=
  if b.readerIndex ≤ p ∧ p < b.writerIndex then
    match b.buffer[p]? with
    | some c => .ok c
    | none => .error .outOfBounds
  else .error .outOfBounds

/-- `std::string(first, last)` -/
def text (b : Buffer) (first last : Nat) : Checked Bytes :=
  if b.readerIndex ≤ first ∧ first ≤ last ∧ last ≤ b.writerIndex ∧
      b.writerIndex ≤ b.buffer.length then
    .ok (window b.buffer first last)
  else .error .outOfBounds

/-- `std::find(first, last, c)` -/
def find (b : Buffer) (c : UInt8) (first last : Nat) : Checked Nat :=
  if _ : first < last then do
    let d ← deref b first
    if d = c then return first else find b c (first + 1) last
  else if first = last then .ok last
  else .error .outOfBounds
termination_by last - first

/-! ## `HttpRequest` -/

/-- `setMethod` on the range, with its assertion in a debug build. -/
def setMethod (debug : Bool) (b : Buffer) (req : HttpRequest) (start stop : Nat) :
    Checked (Bool × HttpRequest) := do
  assert (debug = true → req.method = .invalid)
  let m ← text b start stop
  return req.setMethod m

/-- The loop of `setPath`, with `p` at the next byte: what is appended to `path_`. The second digit
of an escape may be the byte at `stop`. -/
def pathLoop (b : Buffer) (state : PathState) (p stop : Nat) : Checked Bytes :=
  if _ : p < stop then do
    let c ← deref b p
    match state with
    | .kStart =>
      if c = PERCENT then pathLoop b .kPercent (p + 1) stop
      else do
        let rest ← pathLoop b .kStart (p + 1) stop
        return c :: rest
    | .kPercent =>
      match hexDigit c with
      | none => pathLoop b .kPercent (p + 1) stop
      | some hex1 => do
        let c ← deref b (p + 1)
        match hexDigit c with
        | none => pathLoop b .kPercent (p + 2) stop
        | some hex2 => do
          let rest ← pathLoop b .kStart (p + 2) stop
          return ((hex1 <<< 4) + hex2) :: rest
  else .ok []
termination_by stop - p

/-- `setPath` on the range. -/
def setPath (b : Buffer) (req : HttpRequest) (start stop : Nat) : Checked HttpRequest := do
  let bytes ← pathLoop b .kStart start stop
  return { req with path := req.path ++ bytes }

/-- The loop of `addHeader` over the blanks behind the colon. -/
def skipSpace (b : Buffer) (p stop : Nat) : Checked Nat :=
  if _ : p < stop then do
    let c ← deref b p
    if isspace c then skipSpace b (p + 1) stop else return p
  else .ok p
termination_by stop - p

/-- `addHeader` with the colon between key and value. -/
def addHeader (b : Buffer) (req : HttpRequest) (start colon stop : Nat) : Checked HttpRequest := do
  let key ← text b start colon
  let p ← skipSpace b (colon + 1) stop
  let value ← text b p stop
  return { req with headers := req.headers.insert key (value.rdropWhile isspace) }

/-! ## `HttpContext` -/

/-- The version behind the second blank. -/
def parseVersion (b : Buffer) (req : HttpRequest) (start stop : Nat) :
    Checked (Bool × HttpRequest) :=
  if stop - start = 8 then do
    let slash ← text b start (stop - 1)
    if slash = httpSlash then do
      let c ← deref b (stop - 1)
      if c = 48 then return (true, req.setVersion .http10)
      else if c = 49 then return (true, req.setVersion .http11)
      else return (false, req)
    else return (false, req)
  else return (false, req)

/-- The path and the query between the blanks. -/
def parseTarget (b : Buffer) (req : HttpRequest) (start space : Nat) : Checked HttpRequest := do
  let question ← find b QUESTION start space
  if question = space then setPath b req start space
  else do
    let req ← setPath b req start question
    let query ← text b question space
    return req.setQuery query

/-- `parseRequestLine` on the range. -/
def parseRequestLine (debug : Bool) (b : Buffer) (req : HttpRequest) (start stop : Nat) :
    Checked (Bool × HttpRequest) := do
  let space ← find b SP start stop
  if space = stop then return (false, req)
  else do
    let (known, req) ← setMethod debug b req start space
    if known then do
      let start := space + 1
      let space ← find b SP start stop
      if space = stop then return (false, req)
      else do
        let req ← parseTarget b req start space
        parseVersion b req (space + 1) stop
    else return (false, req)

/-- What one turn of the loop does. -/
inductive Turn
  | more (c : HttpContext) (b : Buffer)
  | stop (result : Bool) (c : HttpContext) (b : Buffer)

/-- One turn of the loop of `parseRequest`. -/
def parseTurn (debug : Bool) (c : HttpContext) (b : Buffer) : Checked Turn :=
  match c.state with
  | .requestLine =>
    match b.findCRLFIndex with
    | some crlf => do
      let (result, request) ← parseRequestLine debug b c.request b.readerIndex crlf
      if result then do
        let b ← b.retrieveUntilIndex (crlf + 2)
        return .more ⟨.headers, request⟩ b
      else return .stop false { c with request } b
    | none => return .stop true c b
  | .headers =>
    match b.findCRLFIndex with
    | some crlf => do
      let colon ← find b COLON b.readerIndex crlf
      if colon = crlf then do
        let b ← b.retrieveUntilIndex (crlf + 2)
        return .stop true { c with state := .allDone } b
      else do
        let request ← addHeader b c.request b.readerIndex colon crlf
        let b ← b.retrieveUntilIndex (crlf + 2)
        return .more { c with request } b
    | none => return .stop true c b
  | .body | .allDone => return .more c b

/-- At most `fuel` turns of the loop. -/
def parseLoop (debug : Bool) :
    Nat → HttpContext → Buffer → Option (Checked (Bool × HttpContext × Buffer))
  | 0, _, _ => none
  | fuel + 1, c, b =>
    match parseTurn debug c b with
    | .error fault => some (.error fault)
    | .ok (.more c b) => parseLoop debug fuel c b
    | .ok (.stop result c b) => some (.ok (result, c, b))

/-- `parseRequest`, whose loop takes at most one turn more than there are readable bytes. -/
def parseRequest (debug : Bool) (c : HttpContext) (b : Buffer) :
    Option (Checked (Bool × HttpContext × Buffer)) :=
  parseLoop debug (b.content.length + 1) c b

/-! ## `HttpServer` -/

/-- A connection of the server with its buffer. -/
structure Connection where
  context : HttpContext
  inBuffer : Buffer
  log : List Action

/-- `onConnection` -/
def Connection.create : Connection where
  context := {}
  inBuffer := .create kInitialSize
  log := []

/-- `onMessage` -/
def Connection.onMessage (debug : Bool) (conn : Connection) : Option (Checked Connection) :=
  (parseRequest debug conn.context conn.inBuffer).map fun returned => do
    let (result, context, inBuffer) ← returned
    let log := if result then conn.log else conn.log ++ [.send badRequest, .shutdown]
    if context.parseDone then
      return { context := context.reset, inBuffer, log := log ++ [.onRequest context.request] }
    else return { context, inBuffer, log }

/-- `handleRead` with the bytes of a read, and the message callback after it. -/
def Connection.deliver (debug : Bool) (conn : Connection) (chunk : Bytes) :
    Option (Checked Connection) :=
  match conn.inBuffer.readFd (some chunk) with
  | .error fault => some (.error fault)
  | .ok inBuffer => { conn with inBuffer }.onMessage debug

/-- The reads of a connection one after another, up to a fault. -/
def Connection.deliverAll (debug : Bool) :
    Connection → List Bytes → Option (Checked Connection)
  | conn, [] => some (.ok conn)
  | conn, chunk :: chunks =>
    match conn.deliver debug chunk with
    | some (.ok conn) => conn.deliverAll debug chunks
    | some (.error fault) => some (.error fault)
    | none => none

/-! ## Reading between the indices -/

variable {b b' : Buffer} {q : ByteQueue} {req : HttpRequest} {c : HttpContext} {state : PathState}
  {debug : Bool} {byte after : UInt8} {first last p start stop space : Nat}

/-- A range of readable bytes. -/
structure Inside (b : Buffer) (first last : Nat) : Prop where
  low : b.readerIndex ≤ first
  ordered : first ≤ last
  high : last ≤ b.writerIndex
  vector : b.writerIndex ≤ b.buffer.length

theorem window_cons {α : Type} {l : List α} {i j : Nat} (less : i < j) (inside : j ≤ l.length) :
    ∃ x, l[i]? = some x ∧ window l i j = x :: window l (i + 1) j := by
  have short : i < (l.take j).length := by
    rw [List.length_take]
    omega
  refine ⟨l[i], List.getElem?_eq_getElem (by omega), ?_⟩
  rw [window, window, List.drop_eq_getElem_cons short, List.getElem_take]

theorem deref_eq (low : b.readerIndex ≤ p) (high : p < b.writerIndex)
    (there : b.buffer[p]? = some byte) : deref b p = .ok byte := by
  rw [deref, if_pos ⟨low, high⟩, there]

theorem text_eq (inside : Inside b first last) :
    text b first last = .ok (window b.buffer first last) :=
  if_pos ⟨inside.low, inside.ordered, inside.high, inside.vector⟩

theorem Inside.cons (inside : Inside b first last) (less : first < last) :
    Inside b (first + 1) last ∧ ∃ byte, deref b first = .ok byte ∧
      b.buffer[first]? = some byte ∧
      window b.buffer first last = byte :: window b.buffer (first + 1) last := by
  obtain ⟨low, ordered, high, vector⟩ := inside
  obtain ⟨byte, there, split⟩ := window_cons (l := b.buffer) less (by omega)
  exact ⟨⟨by omega, less, high, vector⟩, byte, deref_eq low (by omega) there, there, split⟩

/-- `std::find` and the two ranges that the callers form. -/
theorem find_spec (inside : Inside b first last) (byte : UInt8) :
    ∃ s, find b byte first last = .ok s ∧ first ≤ s ∧ s ≤ last ∧
      (s = last ∧ splitAtByte byte (window b.buffer first last) = none ∨
        s < last ∧ b.buffer[s]? = some byte ∧
          splitAtByte byte (window b.buffer first last) =
            some (window b.buffer first s, window b.buffer (s + 1) last)) := by
  induction size : last - first generalizing first with
  | zero =>
    have same : first = last := by
      have := inside.ordered
      omega
    subst same
    refine ⟨first, ?_, Nat.le_refl _, Nat.le_refl _, .inl ⟨rfl, ?_⟩⟩
    · rw [find, dif_neg (Nat.lt_irrefl _), if_pos rfl]
    · rw [window_self]
      rfl
  | succ size ih =>
    have less : first < last := by omega
    obtain ⟨tail, d, read, there, split⟩ := inside.cons less
    rw [find, dif_pos less, read, ok_bind, split, splitAtByte]
    by_cases here : d = byte
    · subst here
      rw [if_pos rfl, if_pos rfl]
      exact ⟨first, rfl, Nat.le_refl _, inside.ordered, .inr ⟨less, there, by rw [window_self]⟩⟩
    · rw [if_neg here, if_neg here]
      obtain ⟨s, found, low, high, either⟩ := ih tail (by omega)
      refine ⟨s, found, by omega, high, ?_⟩
      rcases either with ⟨same, none⟩ | ⟨before, at_, cut⟩
      · exact .inl ⟨same, by rw [none]; rfl⟩
      · have front : window b.buffer first s = d :: window b.buffer (first + 1) s := by
          obtain ⟨x, same, split⟩ := window_cons (l := b.buffer) (show first < s by omega)
            (by have := inside.high; have := inside.vector; omega)
          rw [there] at same
          cases same
          exact split
        exact .inr ⟨before, at_, by rw [cut, front]; rfl⟩

/-! ## The setters -/

theorem window_nil {α : Type} {l : List α} {i j : Nat} (le : j ≤ i) : window l i j = [] := by
  apply List.drop_eq_nil_of_le
  rw [List.length_take]
  omega

/-- The scanner of the path reads the byte behind its range at most. -/
theorem pathLoop_eq (low : b.readerIndex ≤ p) (high : stop < b.writerIndex)
    (vector : b.writerIndex ≤ b.buffer.length) (behind : b.buffer[stop]? = some after) :
    pathLoop b state p stop = .ok (pathBytes after state (window b.buffer p stop)) := by
  induction size : stop - p using Nat.strong_induction_on generalizing p state with
  | _ size ih =>
    subst size
    by_cases less : p < stop
    · have inside : Inside b p stop := ⟨low, Nat.le_of_lt less, Nat.le_of_lt high, vector⟩
      obtain ⟨tail, c, read, -, split⟩ := inside.cons less
      have rest : ∀ state, pathLoop b state (p + 1) stop =
          .ok (pathBytes after state (window b.buffer (p + 1) stop)) := fun state =>
        ih _ (by omega) (by omega) rfl
      rw [pathLoop, dif_pos less, read, ok_bind, split]
      cases state with
      | kStart =>
        dsimp only
        rw [rest, rest, pathBytes]
        split <;> rfl
      | kPercent =>
        by_cases last : p + 1 < stop
        · obtain ⟨-, d, read', -, split'⟩ := tail.cons last
          have skipped : ∀ state, pathLoop b state (p + 2) stop =
              .ok (pathBytes after state (window b.buffer (p + 2) stop)) := fun state =>
            ih _ (by omega) (by omega) rfl
          dsimp only
          rw [rest, split', pathBytes]
          cases hexDigit c with
          | none => rfl
          | some hex1 =>
            dsimp only
            rw [read', ok_bind, skipped, skipped]
            cases hexDigit d <;> rfl
        · -- the second digit is the byte behind the range
          have same : p + 1 = stop := by omega
          have empty : window b.buffer (p + 1) stop = [] := window_nil (by omega)
          have past : ∀ state, pathLoop b state (p + 2) stop = .ok [] := by
            intro state
            rw [pathLoop, dif_neg (by omega)]
          dsimp only
          rw [rest, empty, same, past, past, deref_eq (by omega) high behind]
          simp only [pathBytes]
          cases hexDigit c with
          | none => rfl
          | some hex1 =>
            simp only [ok_bind]
            cases hexDigit after <;> rfl
    · rw [pathLoop, dif_neg less, window_nil (by omega)]
      cases state <;> rfl

theorem setPath_eq (inside : Inside b start stop) (high : stop < b.writerIndex)
    (behind : b.buffer[stop]? = some after) :
    setPath b req start stop = .ok (req.setPath (window b.buffer start stop) after) := by
  rw [setPath, pathLoop_eq inside.low high inside.vector behind]
  rfl

theorem skipSpace_spec (inside : Inside b p stop) :
    ∃ s, skipSpace b p stop = .ok s ∧ Inside b s stop ∧
      window b.buffer s stop = (window b.buffer p stop).dropWhile isspace := by
  induction size : stop - p generalizing p with
  | zero =>
    have ordered := inside.ordered
    refine ⟨p, by rw [skipSpace, dif_neg (by omega)], inside, ?_⟩
    rw [window_nil (by omega)]
    rfl
  | succ size ih =>
    have less : p < stop := by omega
    obtain ⟨tail, c, read, -, split⟩ := inside.cons less
    rw [skipSpace, dif_pos less, read, ok_bind, split, List.dropWhile_cons]
    by_cases blank : isspace c
    · rw [if_pos blank, if_pos blank]
      exact ih tail (by omega)
    · rw [if_neg blank, if_neg blank, ← split]
      exact ⟨p, rfl, inside, rfl⟩

theorem addHeader_eq {colon : Nat} (key : Inside b start colon)
    (value : Inside b (colon + 1) stop) :
    addHeader b req start colon stop =
      .ok (req.addHeader (window b.buffer start colon) (window b.buffer (colon + 1) stop)) := by
  obtain ⟨p, skipped, left, same⟩ := skipSpace_spec value
  rw [addHeader, text_eq key, ok_bind, skipped, ok_bind, text_eq left, same]
  rfl

/-! ## The request line -/

theorem parseVersion_eq (inside : Inside b start stop) :
    parseVersion b req start stop = .ok (Http.parseVersion req (window b.buffer start stop)) := by
  obtain ⟨low, ordered, high, vector⟩ := inside
  have length := length_window (i := start) (show stop ≤ b.buffer.length by omega)
  rw [parseVersion, Http.parseVersion, length]
  by_cases eight : stop - start = 8
  · have front : window b.buffer start (stop - 1) = (window b.buffer start stop).take 7 := by
      rw [take_window (by omega)]
      congr 1
      omega
    have last : (window b.buffer start stop)[7]? = b.buffer[stop - 1]? := by
      rw [window, List.getElem?_drop, List.getElem?_take_of_lt (by omega)]
      congr 1
      omega
    obtain ⟨c, there, -⟩ := window_cons (l := b.buffer) (show stop - 1 < stop by omega) (by omega)
    rw [if_pos eight, text_eq ⟨low, by omega, by omega, vector⟩, ok_bind, front, last, there]
    by_cases slash : (window b.buffer start stop).take 7 = httpSlash
    · rw [if_pos slash, if_pos ⟨eight, slash⟩, deref_eq (by omega) (by omega) there, ok_bind]
      by_cases zero : c = 48
      · rw [if_pos zero, if_pos (congrArg some zero)]
        rfl
      · have other : ¬some c = some 48 := by simpa using zero
        rw [if_neg zero, if_neg other]
        by_cases one : c = 49
        · rw [if_pos one, if_pos (congrArg some one)]
          rfl
        · have other : ¬some c = some 49 := by simpa using one
          rw [if_neg one, if_neg other]
          rfl
    · rw [if_neg slash, if_neg fun both => slash both.2]
      rfl
  · rw [if_neg eight, if_neg fun both => eight both.1]
    rfl

theorem parseTarget_eq (inside : Inside b start space) (high : space < b.writerIndex)
    (ends : b.buffer[space]? = some SP) :
    parseTarget b req start space = .ok (Http.parseTarget req (window b.buffer start space)) := by
  obtain ⟨question, found, low, ordered, either⟩ := find_spec inside QUESTION
  rw [parseTarget, found, ok_bind, Http.parseTarget]
  rcases either with ⟨same, none⟩ | ⟨before, mark, cut⟩
  · rw [if_pos same, none, setPath_eq inside high ends]
  · have path : Inside b start question :=
      ⟨inside.low, low, by omega, inside.vector⟩
    have query : Inside b question space := ⟨by have := inside.low; omega, ordered, by omega,
      inside.vector⟩
    obtain ⟨-, d, -, same, split⟩ := query.cons before
    rw [mark] at same
    cases same
    rw [if_neg (Nat.ne_of_lt before), setPath_eq path (by omega) mark, ok_bind, text_eq query,
      cut, split]
    rfl

/-- A line behind which the buffer goes on is parsed as its bytes are, but for the assertion. -/
theorem parseRequestLine_eq (inside : Inside b start stop) (high : stop < b.writerIndex) :
    parseRequestLine debug b req start stop =
      if debug && assertionFails req (window b.buffer start stop) then .error .assertFailed
      else .ok (Http.parseRequestLine req (window b.buffer start stop)) := by
  obtain ⟨space, found, low, ordered, either⟩ := find_spec inside SP
  rw [parseRequestLine, found, ok_bind, Http.parseRequestLine, assertionFails]
  rcases either with ⟨same, none⟩ | ⟨before, -, cut⟩
  · rw [if_pos same, none]
    simp only [Option.isSome_none, Bool.false_and, Bool.and_false]
    rfl
  · have method : Inside b start space := ⟨inside.low, low, by omega, inside.vector⟩
    have rest : Inside b (space + 1) stop :=
      ⟨by have := inside.low; omega, before, inside.high, inside.vector⟩
    rw [if_neg (Nat.ne_of_lt before), cut, setMethod]
    by_cases fails : debug = true ∧ req.method ≠ .invalid
    · rw [if_pos (by simp [fails])]
      rw [assert, if_neg fun holds => fails.2 (holds fails.1)]
      rfl
    · have holds : debug = true → req.method = .invalid := by
        intro on
        by_contra known
        exact fails ⟨on, known⟩
      rw [if_neg (by simpa using holds), assert_ok holds, ok_bind, text_eq method, ok_bind]
      by_cases known : methodOf (window b.buffer start space) = .invalid
      · simp only [HttpRequest.setMethod, known, ne_eq, not_true_eq_false, decide_false]
        rfl
      · simp only [HttpRequest.setMethod, known, ne_eq, not_false_eq_true, decide_true, if_true]
        obtain ⟨space', found', low', ordered', either'⟩ := find_spec rest SP
        show (find b SP (space + 1) stop >>= _) = _
        rw [found', ok_bind]
        rcases either' with ⟨same', none'⟩ | ⟨before', mark, cut'⟩
        · rw [if_pos same', none']
          rfl
        · have target : Inside b (space + 1) space' :=
            ⟨rest.low, low', by omega, inside.vector⟩
          have version : Inside b (space' + 1) stop :=
            ⟨by have := rest.low; omega, before', inside.high, inside.vector⟩
          rw [if_neg (Nat.ne_of_lt before'), cut', parseTarget_eq target (by omega) mark, ok_bind,
            parseVersion_eq version]

end Pointers

end Yvent.Http
