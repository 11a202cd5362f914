import Yvent.Buffer.Readable
import Yvent.Http.Request

/-!
# The request parser

`HttpContext::parseRequest` goes round a loop that takes one line from the buffer per turn. In
the states `Body` and `AllDone` a turn does nothing at all, so the loop never ends there; the
result of `parseRequest` is then `none`.
-/

namespace Yvent.Http

open Buffer

/-- How far a request has been parsed. -/
inductive HttpRequestParseState
  | requestLine | headers | body | allDone
  deriving DecidableEq, Repr

/-- The state of the parser and the request it fills. -/
structure HttpContext where
  state : HttpRequestParseState := .requestLine
  request : HttpRequest := {}

/-- A whole request has been parsed. -/
def HttpContext.parseDone (c : HttpContext) : Bool := c.state = .allDone

/-- The context before a request. -/
def HttpContext.reset (_ : HttpContext) : HttpContext := { state := .requestLine, request := {} }

/-- `"HTTP/1."` -/
def httpSlash : Bytes := ascii ['H', 'T', 'T', 'P', '/', '1', '.']

/-- The end of `parseRequestLine`, which looks at the text after the second space. -/
def parseVersion (req : HttpRequest) (text : Bytes) : Bool × HttpRequest :=
  if text.length = 8 ∧ text.take 7 = httpSlash then
    if text[7]? = some 48 then (true, req.setVersion .http10)
    else if text[7]? = some 49 then (true, req.setVersion .http11)
    else (false, req)
  else (false, req)

/-- The path and the query of the target. The query keeps its question mark. -/
def parseTarget (req : HttpRequest) (target : Bytes) : HttpRequest :=
  match splitAtByte QUESTION target with
  | some (path, query) => (req.setPath path QUESTION).setQuery (QUESTION :: query)
  | none => req.setPath target SP

/-- `parseRequestLine(begin, end)`. What it has set before it fails stays in the request. -/
def parseRequestLine (req : HttpRequest) (line : Bytes) : Bool × HttpRequest :=
  match splitAtByte SP line with
  | none => (false, req)
  | some (method, rest) =>
    let (known, req) := req.setMethod method
    if known then
      match splitAtByte SP rest with
      | none => (false, req)
      | some (target, version) => parseVersion (parseTarget req target) version
    else (false, req)

/-- What one turn of the loop does: go on, or leave with a result. -/
inductive Turn
  | more (c : HttpContext) (readable : Bytes)
  | stop (result : Bool) (c : HttpContext) (readable : Bytes)

/-- The body of the loop. Only a failed request line sets `result` to false, and it ends the
loop, so every other exit returns the initial `true`. -/
def parseTurn (c : HttpContext) (readable : Bytes) : Turn :=
  match c.state with
  | .requestLine =>
    match findCRLF readable with
    | some crlf =>
      match parseRequestLine c.request (readable.take crlf) with
      | (true, request) => .more ⟨.headers, request⟩ (retrieveUntil readable (crlf + 2))
      | (false, request) => .stop false { c with request := request } readable
    | none => .stop true c readable
  | .headers =>
    match findCRLF readable with
    | some crlf =>
      match splitAtByte COLON (readable.take crlf) with
      | some (key, rest) =>
        .more { c with request := c.request.addHeader key rest }
          (retrieveUntil readable (crlf + 2))
      | none => .stop true { c with state := .allDone } (retrieveUntil readable (crlf + 2))
    | none => .stop true c readable
  | .body => .more c readable
  | .allDone => .more c readable

/-- At most `fuel` turns of the loop. -/
def parseLoop : Nat → HttpContext → Bytes → Option (Bool × HttpContext × Bytes)
  | 0, _, _ => none
  | fuel + 1, c, readable =>
    match parseTurn c readable with
    | .more c readable => parseLoop fuel c readable
    | .stop result c readable => some (result, c, readable)

/-- `parseRequest`: its result, the context and the bytes left in the buffer. Each turn that goes
on in `RequestLine` or `Headers` takes a line, so the fuel is enough for those two. -/
def parseRequest (c : HttpContext) (readable : Bytes) : Option (Bool × HttpContext × Bytes) :=
  parseLoop (readable.length + 1) c readable

/-- The states in which the loop waits for a line. -/
def HttpContext.Parsing (c : HttpContext) : Prop := c.state = .requestLine ∨ c.state = .headers

/-- A turn takes a line off the buffer, or leaves a loop that has nothing to wait for. -/
theorem parseTurn_more {c c' : HttpContext} {readable readable' : Bytes} (parsing : c.Parsing)
    (turn : parseTurn c readable = .more c' readable') :
    c'.Parsing ∧ readable'.length < readable.length := by
  have shorter : ∀ crlf, findCRLF readable = some crlf →
      (retrieveUntil readable (crlf + 2)).length < readable.length := by
    intro crlf found
    have fits := length_of_findCRLF found
    rw [retrieveUntil, List.length_drop]
    omega
  rcases parsing with state | state
  · simp only [parseTurn, state] at turn
    split at turn
    · next crlf found =>
      split at turn
      · cases turn
        exact ⟨Or.inr rfl, shorter crlf found⟩
      · cases turn
    · cases turn
  · simp only [parseTurn, state] at turn
    split at turn
    · next crlf found =>
      split at turn
      · cases turn
        exact ⟨Or.inr rfl, shorter crlf found⟩
      · cases turn
    · cases turn

/-- More fuel than the buffer has bytes makes no difference. -/
theorem parseLoop_fuel {c : HttpContext} {readable : Bytes} {fuel : Nat} (parsing : c.Parsing)
    (enough : readable.length < fuel) : parseLoop fuel c readable = parseRequest c readable := by
  induction fuel using Nat.strong_induction_on generalizing c readable with
  | _ fuel ih =>
    cases fuel with
    | zero => omega
    | succ fuel =>
      rw [parseRequest, parseLoop, parseLoop]
      cases turn : parseTurn c readable with
      | stop => rfl
      | more c' readable' =>
        obtain ⟨parsing', shorter⟩ := parseTurn_more parsing turn
        show parseLoop fuel c' readable' = parseLoop readable.length c' readable'
        rw [ih fuel (by omega) parsing' (by omega), ih readable.length (by omega) parsing' shorter]

/-- `parseRequest` takes its first turn and goes on from there. -/
theorem parseRequest_eq {c : HttpContext} (parsing : c.Parsing) (readable : Bytes) :
    parseRequest c readable =
      match parseTurn c readable with
      | .more c' readable' => parseRequest c' readable'
      | .stop result c' readable' => some (result, c', readable') := by
  rw [parseRequest, parseLoop]
  cases turn : parseTurn c readable with
  | stop => rfl
  | more c' readable' =>
    obtain ⟨parsing', shorter⟩ := parseTurn_more parsing turn
    exact parseLoop_fuel parsing' shorter

/-- In the two line states the loop ends. -/
theorem parseRequest_returns {c : HttpContext} (parsing : c.Parsing) (readable : Bytes) :
    ∃ result c' rest, parseRequest c readable = some (result, c', rest) := by
  induction size : readable.length using Nat.strong_induction_on generalizing c readable with
  | _ size ih =>
    subst size
    rw [parseRequest_eq parsing]
    cases turn : parseTurn c readable with
    | stop result c' rest => exact ⟨result, c', rest, rfl⟩
    | more c' rest =>
      obtain ⟨parsing', shorter⟩ := parseTurn_more parsing turn
      exact ih rest.length shorter parsing' rest rfl

end Yvent.Http
