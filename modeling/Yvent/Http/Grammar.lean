import Yvent.Http.Resume

/-!
# Well-formed requests without a body

A request line, header lines that each hold a colon, and the empty line. The parser takes exactly
the bytes of such a request and leaves what follows them unread; on a part of them it waits.
-/

namespace Yvent.Http

open Buffer

/-- The text of a version in a request line. -/
def Version.text : Version → Bytes
  | .unknown => []
  | .http10 => httpSlash ++ [48]
  | .http11 => httpSlash ++ [49]

/-- A request line without its line end. -/
def requestLine (method : Method) (target : Bytes) (version : Version) : Bytes :=
  method.methodString ++ SP :: (target ++ SP :: version.text)

/-- The header lines and the empty line behind them. -/
def headerBlock : List Bytes → Bytes
  | [] => kCRLF
  | line :: lines => line ++ (kCRLF ++ headerBlock lines)

/-- A well-formed request without a body. -/
structure Request where
  method : Method
  target : Bytes
  version : Version
  headerLines : List Bytes
  knownMethod : method ≠ .invalid
  knownVersion : version ≠ .unknown
  noSpace : SP ∉ target
  oneLine : OneLine (requestLine method target version)
  fields : ∀ line ∈ headerLines, COLON ∈ line ∧ OneLine line

/-- The bytes of a request on the wire. -/
def Request.bytes (r : Request) : Bytes :=
  requestLine r.method r.target r.version ++ (kCRLF ++ headerBlock r.headerLines)

/-- What a fresh context obtains from `text` alone. -/
def freshRequest (text : Bytes) : Option HttpRequest :=
  match parseRequest {} text with
  | some (true, c, _) => if c.parseDone then some c.request else none
  | _ => none

theorem parsing_fresh : HttpContext.Parsing {} := Or.inl rfl

theorem parseVersion_text {version : Version} (known : version ≠ .unknown) (req : HttpRequest) :
    parseVersion req version.text = (true, req.setVersion version) := by
  cases version with
  | unknown => exact absurd rfl known
  | http10 => rfl
  | http11 => rfl

theorem parseRequestLine_requestLine (r : Request) :
    ∃ req, parseRequestLine {} (requestLine r.method r.target r.version) = (true, req) := by
  have method := splitAtByte_append (r.target ++ SP :: r.version.text)
    (space_not_mem_methodString r.method)
  have target := splitAtByte_append r.version.text r.noSpace
  have known : (HttpRequest.setMethod {} r.method.methodString).1 = true := by
    rw [HttpRequest.setMethod, methodOf_methodString r.knownMethod]
    exact decide_eq_true r.knownMethod
  rw [parseRequestLine, requestLine, method]
  simp only [known, if_true, target]
  exact ⟨_, parseVersion_text r.knownVersion _⟩

/-- The header lines are taken up to the empty line. -/
theorem parseRequest_headerBlock {lines : List Bytes}
    (fields : ∀ line ∈ lines, COLON ∈ line ∧ OneLine line) (req : HttpRequest) :
    ∃ req', ∀ later, parseRequest ⟨.headers, req⟩ (headerBlock lines ++ later) =
      some (true, ⟨.allDone, req'⟩, later) := by
  induction lines generalizing req with
  | nil =>
    refine ⟨req, fun later => ?_⟩
    have found : findCRLF (kCRLF ++ later) = some 0 := rfl
    rw [parseRequest_eq (Or.inr rfl)]
    simp only [parseTurn, headerBlock, found, List.take_zero, splitAtByte_nil]
    rfl
  | cons line lines ih =>
    obtain ⟨colon, oneLine⟩ := fields line List.mem_cons_self
    obtain ⟨key, rest, atColon⟩ := exists_splitAtByte colon
    obtain ⟨req', taken⟩ :=
      ih (fun line mem => fields line (List.mem_cons_of_mem _ mem)) (req.addHeader key rest)
    refine ⟨req', fun later => ?_⟩
    have found := findCRLF_line oneLine (headerBlock lines ++ later)
    rw [parseRequest_eq (Or.inr rfl), headerBlock, List.append_assoc, List.append_assoc]
    simp only [parseTurn, found, List.take_left, atColon, retrieveUntil_line]
    exact taken later

/-- A fresh context takes the bytes of one request and nothing of what follows. -/
theorem parseRequest_bytes (r : Request) :
    ∃ req, ∀ later, parseRequest {} (r.bytes ++ later) =
      some (true, ⟨.allDone, req⟩, later) := by
  obtain ⟨req, accepted⟩ := parseRequestLine_requestLine r
  obtain ⟨req', taken⟩ := parseRequest_headerBlock r.fields req
  refine ⟨req', fun later => ?_⟩
  have found := findCRLF_line r.oneLine (headerBlock r.headerLines ++ later)
  rw [parseRequest_eq parsing_fresh, Request.bytes, List.append_assoc, List.append_assoc]
  simp only [parseTurn, found, List.take_left, accepted, retrieveUntil_line]
  exact taken later

theorem freshRequest_bytes {r : Request} {req : HttpRequest}
    (parsed : ∀ later, parseRequest {} (r.bytes ++ later) =
      some (true, ⟨.allDone, req⟩, later)) : freshRequest r.bytes = some req := by
  have alone := parsed []
  rw [List.append_nil] at alone
  rw [freshRequest, alone]
  rfl

/-- On a part of a request the parser waits for the rest. -/
theorem parseRequest_part (r : Request) {part missing : Bytes} (split : part ++ missing = r.bytes)
    (proper : missing ≠ []) :
    ∃ c rest, parseRequest {} part = some (true, c, rest) ∧ c.state ≠ .allDone := by
  obtain ⟨result, c, rest, returns⟩ := parseRequest_returns parsing_fresh part
  obtain ⟨req, parsed⟩ := parseRequest_bytes r
  have whole : parseRequest {} (part ++ missing) = some (true, ⟨.allDone, req⟩, []) := by
    rw [split, ← parsed [], List.append_nil]
  -- had the call ended for good, the missing bytes would be left over after the whole request
  have notFinal : ¬(result = false ∨ c.state = .allDone) := by
    intro final
    rw [parseRequest_append_of_final parsing_fresh returns final missing] at whole
    have leftover : rest ++ missing = [] := congrArg (fun x => x.2.2) (Option.some.inj whole)
    exact proper (List.append_eq_nil_iff.mp leftover).2
  rw [not_or, Bool.not_eq_false] at notFinal
  obtain ⟨rfl, unfinished⟩ := notFinal
  exact ⟨c, rest, returns, unfinished⟩

end Yvent.Http
