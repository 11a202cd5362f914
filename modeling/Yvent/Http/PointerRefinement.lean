import Yvent.Codec.Refinement
import Yvent.Http.Incremental
import Yvent.Http.Pointers

/-!
# The parser reads the readable bytes only

Over every sequence of reads the parser on the buffer comes to the same as the parser on the bytes,
and reads nothing else. In a debug build there is one way to stop it, the assertion of `setMethod`;
it fails when a read follows a request line that was rejected although its method is known.
-/

namespace Yvent.Http

open Buffer

namespace Pointers

variable {b b' : Buffer} {q : ByteQueue} {c c' : HttpContext} {debug result : Bool}
  {readable rest chunk : Bytes} {n size : Nat} {r : Connection} {s s' : Http.Connection}

/-- The buffer holds these bytes, in a vector of at most this size. -/
def Holds (b : Buffer) (size : Nat) (readable : Bytes) : Prop :=
  ∃ q : ByteQueue, b.Refines q ∧ q.content = readable ∧ b.buffer.length ≤ size

theorem buffer_of_retrieveUntilIndex {stop : Nat} (returns : b.retrieveUntilIndex stop = .ok b') :
    b'.buffer = b.buffer := by
  obtain ⟨_, -, returns⟩ := exists_of_bind returns
  obtain ⟨_, -, returns⟩ := exists_of_bind returns
  obtain ⟨len, -, returns⟩ := exists_of_bind returns
  exact buffer_of_retrieve returns

/-- What `findCRLF` and `retrieveUntil` do when there is a whole line. -/
structure Line (b : Buffer) (size : Nat) (readable : Bytes) (n : Nat) : Prop where
  found : b.findCRLFIndex = some (b.readerIndex + n)
  inside : Inside b b.readerIndex (b.readerIndex + n)
  behind : b.readerIndex + n < b.writerIndex
  text : window b.buffer b.readerIndex (b.readerIndex + n) = readable.take n
  retrieved : ∃ b', b.retrieveUntilIndex (b.readerIndex + n + 2) = .ok b' ∧
    Holds b' size (retrieveUntil readable (n + 2))

theorem Holds.line (holds : Holds b size readable) (found : findCRLF readable = some n) :
    Line b size readable n := by
  obtain ⟨q, refined, rfl, small⟩ := holds
  have ordered := refined.ordered
  have inside := refined.inside
  have short := length_of_findCRLF found
  rw [refined.length] at short
  obtain ⟨b', retrieved, left⟩ := refined.retrieveLine found
  constructor
  · rw [findCRLFIndex, refined.content, found]
    rfl
  · exact ⟨Nat.le_refl _, Nat.le_add_right _ _, by omega, inside⟩
  · omega
  · rw [← refined.content, Buffer.content, take_window (by omega)]
  · exact ⟨b', retrieved, _, left, rfl, by rwa [buffer_of_retrieveUntilIndex retrieved]⟩

theorem Holds.noLine (holds : Holds b size readable) (none : findCRLF readable = none) :
    b.findCRLFIndex = Option.none := by
  obtain ⟨q, refined, rfl, -⟩ := holds
  rw [findCRLFIndex, refined.content, none]
  rfl

/-! ## The loop -/

/-- Both turns come to the same. -/
def Turn.Refines (size : Nat) : Turn → Http.Turn → Prop
  | .more c b, .more c' readable => c = c' ∧ Holds b size readable
  | .stop result c b, .stop result' c' readable => result = result' ∧ c = c' ∧ Holds b size readable
  | _, _ => False

theorem parseTurn_requestLine (holds : Holds b size readable) (here : c.state = .requestLine)
    (fine : (debug && turnAsserts c readable) = false) :
    ∃ t, parseTurn debug c b = .ok t ∧ t.Refines size (Http.parseTurn c readable) := by
  rw [parseTurn, Http.parseTurn, here]
  dsimp only
  cases found : findCRLF readable with
  | none =>
    rw [holds.noLine found]
    exact ⟨_, rfl, rfl, rfl, holds⟩
  | some n =>
    obtain ⟨index, inside, behind, text, b', retrieved, left⟩ := holds.line found
    rw [turnAsserts, here, found] at fine
    rw [index]
    dsimp only
    rw [parseRequestLine_eq inside behind, text, if_neg (by simpa using fine), ok_bind]
    cases parsed : Http.parseRequestLine c.request (readable.take n) with
    | mk accepted req =>
      cases accepted with
      | true =>
        dsimp only
        rw [if_pos rfl, retrieved]
        exact ⟨_, rfl, rfl, left⟩
      | false => exact ⟨_, rfl, rfl, rfl, holds⟩

theorem parseTurn_headers (holds : Holds b size readable) (here : c.state = .headers) :
    ∃ t, parseTurn debug c b = .ok t ∧ t.Refines size (Http.parseTurn c readable) := by
  rw [parseTurn, Http.parseTurn, here]
  dsimp only
  cases found : findCRLF readable with
  | none =>
    rw [holds.noLine found]
    exact ⟨_, rfl, rfl, rfl, holds⟩
  | some n =>
    obtain ⟨index, inside, behind, text, b', retrieved, left⟩ := holds.line found
    rw [index]
    dsimp only
    obtain ⟨colon, finds, low, high, either⟩ := find_spec inside COLON
    rw [finds, ok_bind, ← text]
    rcases either with ⟨same, none⟩ | ⟨before, -, cut⟩
    · rw [if_pos same, none, retrieved]
      exact ⟨_, rfl, rfl, rfl, left⟩
    · have key : Inside b b.readerIndex colon := ⟨Nat.le_refl _, low, by omega, inside.vector⟩
      have value : Inside b (colon + 1) (b.readerIndex + n) :=
        ⟨by omega, before, inside.high, inside.vector⟩
      rw [if_neg (Nat.ne_of_lt before), cut, addHeader_eq key value, ok_bind, retrieved]
      exact ⟨_, rfl, rfl, left⟩

theorem parseTurn_refines (debug : Bool) (holds : Holds b size readable)
    (fine : (debug && turnAsserts c readable) = false) :
    ∃ t, parseTurn debug c b = .ok t ∧ t.Refines size (Http.parseTurn c readable) := by
  cases here : c.state with
  | requestLine => exact parseTurn_requestLine holds here fine
  | headers => exact parseTurn_headers holds here
  | body | allDone =>
    rw [parseTurn, Http.parseTurn, here]
    exact ⟨_, rfl, rfl, holds⟩

theorem parseTurn_asserts (holds : Holds b size readable) (fails : turnAsserts c readable = true) :
    parseTurn true c b = .error .assertFailed := by
  cases here : c.state with
  | requestLine =>
    rw [turnAsserts, here] at fails
    cases found : findCRLF readable with
    | none =>
      rw [found] at fails
      cases fails
    | some n =>
      obtain ⟨index, inside, behind, text, -⟩ := holds.line found
      rw [found] at fails
      rw [parseTurn, here, index]
      dsimp only
      rw [parseRequestLine_eq inside behind, text, if_pos (by simpa using fails)]
      rfl
  | headers | body | allDone =>
    rw [turnAsserts, here] at fails
    cases fails

/-- Both loops come to the same. -/
def Returns (size : Nat) :
    Option (Checked (Bool × HttpContext × Buffer)) → Option (Bool × HttpContext × Bytes) → Prop
  | some (.ok (result, c, b)), some (result', c', readable) =>
    result = result' ∧ c = c' ∧ Holds b size readable
  | none, none => True
  | _, _ => False

theorem parseLoop_refines {fuel : Nat} (holds : Holds b size readable)
    (fine : (debug && loopAsserts fuel c readable) = false) :
    Returns size (parseLoop debug fuel c b) (Http.parseLoop fuel c readable) := by
  induction fuel generalizing c b readable with
  | zero => trivial
  | succ fuel ih =>
    rw [loopAsserts, Bool.and_or_distrib_left, Bool.or_eq_false_iff] at fine
    obtain ⟨t, turned, agree⟩ := parseTurn_refines debug holds fine.1
    rw [parseLoop, Http.parseLoop, turned]
    cases turn : Http.parseTurn c readable with
    | more c' readable' =>
      rw [turn] at agree fine
      cases t with
      | more c₁ b₁ =>
        obtain ⟨rfl, holds'⟩ := agree
        exact ih holds' fine.2
      | stop => exact agree.elim
    | stop result c' readable' =>
      rw [turn] at agree
      cases t with
      | more => exact agree.elim
      | stop result₁ c₁ b₁ =>
        obtain ⟨rfl, rfl, holds'⟩ := agree
        exact ⟨rfl, rfl, holds'⟩

theorem parseLoop_asserts {fuel : Nat} (holds : Holds b size readable)
    (fails : loopAsserts fuel c readable = true) :
    parseLoop true fuel c b = some (.error .assertFailed) := by
  induction fuel generalizing c b readable with
  | zero => cases fails
  | succ fuel ih =>
    rw [parseLoop]
    cases now : turnAsserts c readable with
    | true => rw [parseTurn_asserts holds now]
    | false =>
      rw [loopAsserts, now, Bool.false_or] at fails
      obtain ⟨t, turned, agree⟩ := parseTurn_refines true holds now
      rw [turned]
      cases turn : Http.parseTurn c readable with
      | more c' readable' =>
        rw [turn] at agree fails
        cases t with
        | more c₁ b₁ =>
          obtain ⟨rfl, holds'⟩ := agree
          exact ih holds' fails
        | stop => exact agree.elim
      | stop =>
        rw [turn] at fails
        cases fails

/-- The bytes of a buffer are parsed where they are. -/
theorem parseRequest_refines (debug : Bool) (holds : Holds b size readable)
    (parsing : c.Parsing) :
    ∃ result c' rest, Http.parseRequest c readable = some (result, c', rest) ∧
      ((debug && c.asserts readable) = true ∧
          parseRequest debug c b = some (.error .assertFailed) ∨
        (debug && c.asserts readable) = false ∧
          ∃ b', parseRequest debug c b = some (.ok (result, c', b')) ∧ Holds b' size rest) := by
  obtain ⟨result, c', rest, returns⟩ := parseRequest_returns parsing readable
  refine ⟨result, c', rest, returns, ?_⟩
  have content : b.content = readable := by
    obtain ⟨q, refined, rfl, -⟩ := holds
    exact refined.content
  cases fails : debug && c.asserts readable with
  | true =>
    obtain ⟨rfl, asserted⟩ := (Bool.and_eq_true ..).mp fails
    rw [parseRequest, content]
    exact .inl ⟨rfl, parseLoop_asserts holds asserted⟩
  | false =>
    have agree := parseLoop_refines holds fails
    rw [← Http.parseRequest, returns] at agree
    rw [parseRequest, content]
    refine .inr ⟨rfl, ?_⟩
    cases looped : parseLoop debug (readable.length + 1) c b with
    | none =>
      rw [looped] at agree
      exact agree.elim
    | some outcome =>
      rw [looped] at agree
      cases outcome with
      | error => exact agree.elim
      | ok parsed =>
        obtain ⟨result₁, c₁, b'⟩ := parsed
        obtain ⟨rfl, rfl, holds'⟩ := agree
        exact ⟨b', rfl, holds'⟩

/-! ## The reads of a connection -/

/-- The connections agree: of the buffer, its bytes matter. -/
structure Connection.Refines (size : Nat) (r : Connection) (s : Http.Connection) : Prop where
  context : r.context = s.context
  log : r.log = s.log
  inBuffer : Holds r.inBuffer size s.inBuffer

theorem Holds.readFd (holds : Holds b size readable) (room : size + chunk.length ≤ maxSize) :
    ∃ b', b.readFd (some chunk) = .ok b' ∧ Holds b' (size + chunk.length) (readable ++ chunk) := by
  obtain ⟨q, refined, rfl, small⟩ := holds
  obtain ⟨b', read, behind⟩ :=
    refined.readFd (LenHeaderCodec.affords_of_room
      (show b.buffer.length + chunk.length ≤ maxSize by omega))
  exact ⟨b', read, _, behind, rfl, (length_of_readFd read).trans (Nat.add_le_add_right small _)⟩

theorem deliver_returns (parsing : s.context.Parsing) (chunk : Bytes) :
    ∃ s', s.deliver chunk = some s' ∧ s'.context.Parsing := by
  obtain ⟨result, c', rest, returns⟩ := parseRequest_returns parsing (s.inBuffer ++ chunk)
  rw [Http.Connection.deliver, Http.Connection.onMessage, returns, Option.map_some]
  refine ⟨_, rfl, ?_⟩
  dsimp only
  split
  · exact Or.inl rfl
  · next unfinished =>
    exact parsing_of_unfinished parsing returns fun done => unfinished (decide_eq_true done)

theorem deliverAll_returns (parsing : s.context.Parsing) (chunks : List Bytes) :
    ∃ s', s.deliverAll chunks = some s' := by
  induction chunks generalizing s with
  | nil => exact ⟨s, rfl⟩
  | cons chunk chunks ih =>
    obtain ⟨s₁, delivered, parsing₁⟩ := deliver_returns parsing chunk
    obtain ⟨s', all⟩ := ih parsing₁
    refine ⟨s', ?_⟩
    rw [Http.Connection.deliverAll, List.foldlM_cons, delivered]
    exact all

/-- Every read is handled as its bytes are, unless the assertion fails. -/
theorem Connection.Refines.deliver (refines : r.Refines size s) (debug : Bool)
    (parsing : s.context.Parsing) (room : size + chunk.length ≤ maxSize)
    (delivered : s.deliver chunk = some s') :
    (debug && s.context.asserts (s.inBuffer ++ chunk)) = true ∧
        r.deliver debug chunk = some (.error .assertFailed) ∨
      (debug && s.context.asserts (s.inBuffer ++ chunk)) = false ∧
        ∃ r', r.deliver debug chunk = some (.ok r') ∧ r'.Refines (size + chunk.length) s' := by
  obtain ⟨b, read, holds⟩ := refines.inBuffer.readFd room
  obtain ⟨result, c', rest, returns, either⟩ := parseRequest_refines debug holds parsing
  rw [Http.Connection.deliver, Http.Connection.onMessage, returns, ← refines.log,
    Option.map_some] at delivered
  cases delivered
  rw [Connection.deliver, read]
  dsimp only
  rw [Connection.onMessage]
  dsimp only
  rw [refines.context]
  rcases either with ⟨asserts, fails⟩ | ⟨fine, b', parsed, holds'⟩
  · rw [fails]
    exact .inl ⟨asserts, rfl⟩
  · rw [parsed]
    refine .inr ⟨fine, ?_⟩
    dsimp only [Option.map_some]
    rw [ok_bind]
    dsimp only
    split
    · exact ⟨_, rfl, rfl, rfl, holds'⟩
    · exact ⟨_, rfl, rfl, rfl, holds'⟩

/-- The assertion fails in one of the reads. -/
def asserts (conn : Http.Connection) : List Bytes → Bool
  | [] => false
  | chunk :: chunks =>
    conn.context.asserts (conn.inBuffer ++ chunk) ||
      (conn.deliver chunk).any fun conn => asserts conn chunks

theorem Connection.Refines.deliverAll {chunks : List Bytes} (refines : r.Refines size s)
    (debug : Bool) (parsing : s.context.Parsing) (room : size + chunks.flatten.length ≤ maxSize)
    (delivered : s.deliverAll chunks = some s') :
    (debug && asserts s chunks) = true ∧
        r.deliverAll debug chunks = some (.error .assertFailed) ∨
      (debug && asserts s chunks) = false ∧ ∃ r', r.deliverAll debug chunks = some (.ok r') ∧
        r'.Refines (size + chunks.flatten.length) s' := by
  induction chunks generalizing r s size with
  | nil =>
    cases delivered
    exact .inr ⟨Bool.and_false _, r, rfl, refines⟩
  | cons chunk chunks ih =>
    rw [List.flatten_cons, List.length_append] at room ⊢
    obtain ⟨s₁, first, parsing₁⟩ := deliver_returns parsing chunk
    rw [Http.Connection.deliverAll, List.foldlM_cons, first] at delivered
    rw [Connection.deliverAll, asserts, first, Option.any_some, Bool.and_or_distrib_left]
    rcases refines.deliver debug parsing (by omega) first with
      ⟨fails, stopped⟩ | ⟨fine, r₁, read, now⟩
    · rw [fails, Bool.true_or, stopped]
      exact .inl ⟨rfl, rfl⟩
    · rw [fine, Bool.false_or, read, ← Nat.add_assoc]
      exact ih now parsing₁ (by omega) delivered

/-! ## When the assertion fails -/

/-- A request line has been rejected although its method is known, and is still there. -/
def Stale (conn : Http.Connection) : Prop :=
  conn.context.state = .requestLine ∧ conn.context.request.method ≠ .invalid

instance (conn : Http.Connection) : Decidable (Stale conn) := inferInstanceAs (Decidable (_ ∧ _))

/-- It stands at the head of the buffer, with a space in it. -/
structure Marked (conn : Http.Connection) : Prop where
  parsing : conn.context.Parsing
  line : Stale conn → ∃ n, findCRLF conn.inBuffer = some n ∧
    (splitAtByte SP (conn.inBuffer.take n)).isSome = true

theorem stale_of_asserts (parsing : c.Parsing) (fails : c.asserts readable = true) :
    c.state = .requestLine ∧ c.request.method ≠ .invalid := by
  rcases parsing with here | here
  · refine ⟨here, ?_⟩
    rw [HttpContext.asserts, loopAsserts, Bool.or_eq_true] at fails
    rcases fails with now | later
    · rw [turnAsserts, here] at now
      dsimp only at now
      split at now
      · rw [assertionFails, Bool.and_eq_true, decide_eq_true_eq] at now
        exact now.2
      · cases now
    · split at later
      · next c' readable' turn =>
        -- the turn has gone on to the headers
        have headers : c'.state = .headers := by
          simp only [Http.parseTurn, here] at turn
          split at turn
          · split at turn
            · cases turn
              rfl
            · cases turn
          · cases turn
        rw [loopAsserts_headers headers] at later
        cases later
      · cases later
  · rw [HttpContext.asserts, loopAsserts_headers here] at fails
    cases fails

theorem asserts_of_line (stale : c.state = .requestLine ∧ c.request.method ≠ .invalid)
    (found : findCRLF readable = some n)
    (space : (splitAtByte SP (readable.take n)).isSome = true) : c.asserts readable = true := by
  rw [HttpContext.asserts, loopAsserts, turnAsserts, stale.1, found]
  dsimp only
  rw [assertionFails, space, decide_eq_true stale.2]
  rfl

theorem headers_stay (here : c.state = .headers)
    (returns : Http.parseRequest c readable = some (result, c', rest)) :
    c'.state ≠ .requestLine := by
  induction size : readable.length using Nat.strong_induction_on generalizing c readable with
  | _ size ih =>
    subst size
    rw [parseRequest_eq (Or.inr here)] at returns
    cases turn : Http.parseTurn c readable with
    | more c₁ readable₁ =>
      obtain ⟨-, shorter⟩ := parseTurn_more (Or.inr here) turn
      rw [turn] at returns
      exact ih readable₁.length shorter (headers_of_more here turn) returns rfl
    | stop result₁ c₁ rest₁ =>
      rw [turn] at returns
      cases returns
      simp only [Http.parseTurn, here] at turn
      split at turn
      · split at turn
        · cases turn
        · cases turn
          simp
      · cases turn
        simp [here]

/-- A method that is set while the parser waits for a request line is one that `setMethod` has put
there, from the line at the head of the buffer. -/
theorem line_of_stale (parsing : c.Parsing)
    (old : c.state = .requestLine → c.request.method ≠ .invalid → ∃ n, findCRLF readable = some n ∧
      (splitAtByte SP (readable.take n)).isSome = true)
    (returns : Http.parseRequest c readable = some (result, c', rest))
    (waits : c'.state = .requestLine) (known : c'.request.method ≠ .invalid) :
    rest = readable ∧ ∃ n, findCRLF readable = some n ∧
      (splitAtByte SP (readable.take n)).isSome = true := by
  rcases parsing with here | here
  · rw [parseRequest_eq (Or.inl here)] at returns
    cases found : findCRLF readable with
    | none =>
      rw [parseTurn_waits (Or.inl here) found] at returns
      cases returns
      obtain ⟨n, there, -⟩ := old here known
      rw [found] at there
      cases there
    | some n =>
      simp only [Http.parseTurn, here, found] at returns
      cases parsed : Http.parseRequestLine c.request (readable.take n) with
      | mk accepted req =>
        rw [parsed] at returns
        cases accepted with
        | true => exact absurd waits (headers_stay rfl returns)
        | false =>
          cases returns
          refine ⟨rfl, n, rfl, ?_⟩
          cases cut : splitAtByte SP (readable.take n) with
          | some => rfl
          | none =>
            rw [Http.parseRequestLine, cut] at parsed
            cases parsed
            obtain ⟨m, there, space⟩ := old here known
            rw [found] at there
            cases there
            rw [cut] at space
            cases space
  · exact absurd waits (headers_stay here returns)

theorem Marked.append (marked : Marked s) (stale : Stale s) (chunk : Bytes) :
    ∃ n, findCRLF (s.inBuffer ++ chunk) = some n ∧
      (splitAtByte SP ((s.inBuffer ++ chunk).take n)).isSome = true := by
  obtain ⟨n, found, space⟩ := marked.line stale
  have short := length_of_findCRLF found
  refine ⟨n, findCRLF_append found chunk, ?_⟩
  rwa [List.take_append_of_le_length (by omega)]

theorem Marked.deliver (marked : Marked s) (delivered : s.deliver chunk = some s') : Marked s' := by
  obtain ⟨s₁, delivered₁, parsing⟩ := deliver_returns marked.parsing chunk
  cases delivered.symm.trans delivered₁
  refine ⟨parsing, ?_⟩
  obtain ⟨result, c', rest, returns⟩ := parseRequest_returns marked.parsing (s.inBuffer ++ chunk)
  rw [Http.Connection.deliver, Http.Connection.onMessage, returns, Option.map_some] at delivered
  cases delivered
  dsimp only
  split
  · rintro ⟨-, known⟩
    exact absurd rfl known
  · rintro ⟨waits, known⟩
    obtain ⟨rfl, line⟩ := line_of_stale marked.parsing
      (fun here known => marked.append ⟨here, known⟩ chunk) returns waits known
    exact line

/-- A read follows a request line that was rejected although its method is known. -/
def ReadsOn (conn : Http.Connection) (chunks : List Bytes) : Prop :=
  ∃ first next later conn', chunks = first ++ next :: later ∧ conn.deliverAll first = some conn' ∧
    Stale conn'

theorem asserts_iff (marked : Marked s) (chunks : List Bytes) :
    asserts s chunks = true ↔ ReadsOn s chunks := by
  induction chunks generalizing s with
  | nil =>
    constructor
    · intro fails
      cases fails
    · rintro ⟨first, next, later, conn, split, -⟩
      simp at split
  | cons chunk chunks ih =>
    obtain ⟨s₁, delivered, -⟩ := deliver_returns marked.parsing chunk
    have step : ∀ first, s.deliverAll (chunk :: first) = s₁.deliverAll first := by
      intro first
      rw [Http.Connection.deliverAll, List.foldlM_cons, delivered]
      rfl
    rw [asserts, delivered, Option.any_some, Bool.or_eq_true, ih (marked.deliver delivered)]
    constructor
    · rintro (now | ⟨first, next, later, conn, split, reached, stale⟩)
      · exact ⟨[], chunk, chunks, s, rfl, rfl, stale_of_asserts marked.parsing now⟩
      · exact ⟨chunk :: first, next, later, conn, by rw [split, List.cons_append],
          (step first).trans reached, stale⟩
    · rintro ⟨first, next, later, conn, split, reached, stale⟩
      cases first with
      | nil =>
        cases split
        cases reached
        obtain ⟨n, found, space⟩ := marked.append stale chunk
        exact .inl (asserts_of_line stale found space)
      | cons x first =>
        cases split
        exact .inr ⟨first, next, later, conn, rfl, (step first).symm.trans reached, stale⟩

/-- Over all reads of a connection, as long as a vector can hold them, `onMessage` on the buffer
comes to the same as on the bytes: it reads no byte but the readable ones, and no assertion of
`Buffer` fails. Only the assertion of `setMethod` can, in a debug build, and it does exactly when a
read follows a request line that was rejected although its method is known. -/
theorem deliverAll_on_buffer (debug : Bool) (chunks : List Bytes)
    (room : kCheapPrepend + kInitialSize + chunks.flatten.length ≤ maxSize) :
    ∃ conn, Http.Connection.deliverAll {} chunks = some conn ∧
      ((debug = true ∧ ReadsOn {} chunks) ∧
          Connection.create.deliverAll debug chunks = some (.error .assertFailed) ∨
        ¬(debug = true ∧ ReadsOn {} chunks) ∧ ∃ r,
          Connection.create.deliverAll debug chunks = some (.ok r) ∧
          r.context = conn.context ∧ r.log = conn.log ∧ r.inBuffer.content = conn.inBuffer) := by
  have parsing : HttpContext.Parsing {} := Or.inl rfl
  have marked : Marked {} := ⟨parsing, fun stale => absurd rfl stale.2⟩
  have fresh : Connection.create.Refines (kCheapPrepend + kInitialSize) {} := by
    refine ⟨rfl, rfl, _, Buffer.Refines.create kInitialSize, rfl, ?_⟩
    rw [Connection.create, Buffer.create, List.length_replicate]
  obtain ⟨conn, delivered⟩ := deliverAll_returns (s := {}) parsing chunks
  refine ⟨conn, delivered, ?_⟩
  have agree := fresh.deliverAll debug parsing room delivered
  rw [← asserts_iff marked, ← Bool.and_eq_true]
  rcases agree with ⟨fails, stopped⟩ | ⟨fine, r, read, refines⟩
  · exact .inl ⟨fails, stopped⟩
  · obtain ⟨q, buffer, content, -⟩ := refines.inBuffer
    exact .inr ⟨by simp [fine], r, read, refines.context, refines.log,
      buffer.content.trans content⟩

/-- `"GET x\r\n"` is rejected, and another byte is read. -/
theorem deliverAll_on_buffer_rejected : ∃ chunks : List Bytes,
    Connection.create.deliverAll true chunks = some (.error .assertFailed) ∧
      ∃ r, Connection.create.deliverAll false chunks = some (.ok r) := by
  let line := ascii ['G', 'E', 'T', ' ', 'x', '\r', '\n']
  have rejected : (Http.Connection.deliverAll {} [line]).any (fun conn => Stale conn) = true := by
    decide +kernel
  obtain ⟨conn, reached, stale⟩ := (Option.any_eq_true _ _).mp rejected
  have reads : ReadsOn {} [line, [65]] :=
    ⟨[line], [65], [], conn, rfl, reached, of_decide_eq_true stale⟩
  have room : kCheapPrepend + kInitialSize + [line, [65]].flatten.length ≤ maxSize := by decide
  obtain ⟨_, -, debug⟩ := deliverAll_on_buffer true [line, [65]] room
  obtain ⟨_, -, release⟩ := deliverAll_on_buffer false [line, [65]] room
  refine ⟨[line, [65]], ?_, ?_⟩
  · obtain ⟨-, stopped⟩ := debug.resolve_right fun goesOn => goesOn.1 ⟨rfl, reads⟩
    exact stopped
  · obtain ⟨-, r, read, -⟩ := release.resolve_left fun stopped => by cases stopped.1.1
    exact ⟨r, read⟩

end Pointers

end Yvent.Http
