import Yvent.Http.Acceptance

/-!
# Rejected requests

A request line that `parseRequest` rejects stays at the head of the buffer, and every later call meets
it again with the same verdict. The context is not as it was, though: `parseRequestLine` sets the
method, the path and the query before its last check, so the next attempt fails the assertion of
`setMethod` and appends the path once more. Lines that are rejected for their method leave no trace.
-/

namespace Yvent.Http

open Buffer

variable {c c' : HttpContext} {req req' : HttpRequest} {line later readable rest : Bytes}

/-! ## The verdict -/

theorem parseVersion_verdict (req req' : HttpRequest) (text : Bytes) :
    (parseVersion req text).1 = (parseVersion req' text).1 := by
  unfold parseVersion
  split
  · split
    · rfl
    · split <;> rfl
  · rfl

/-- Whether a line is accepted does not depend on what earlier attempts have left in the request. -/
theorem parseRequestLine_verdict (req req' : HttpRequest) (line : Bytes) :
    (parseRequestLine req line).1 = (parseRequestLine req' line).1 := by
  unfold parseRequestLine
  split
  · rfl
  · next method rest cut =>
    by_cases known : methodOf method = .invalid
    · simp [HttpRequest.setMethod, known]
    · simp only [HttpRequest.setMethod, known, ne_eq, not_false_eq_true, decide_true, if_true]
      split
      · rfl
      · exact parseVersion_verdict _ _ _

/-- The first line of the buffer is complete and is not accepted. -/
def HeadRejected (readable : Bytes) : Prop :=
  ∃ line later, readable = line ++ (kCRLF ++ later) ∧ OneLine line ∧
    (parseRequestLine {} line).1 = false

theorem HeadRejected.append (rejected : HeadRejected readable) (chunk : Bytes) :
    HeadRejected (readable ++ chunk) := by
  obtain ⟨line, later, rfl, oneLine, refused⟩ := rejected
  exact ⟨line, later ++ chunk, by simp, oneLine, refused⟩

/-- In `RequestLine` the parser gives such a line the same verdict again and leaves it in place. -/
theorem parseRequest_of_headRejected (here : c.state = .requestLine)
    (rejected : HeadRejected readable) :
    ∃ req, parseRequest c readable = some (false, { c with request := req }, readable) := by
  obtain ⟨line, later, rfl, oneLine, refused⟩ := rejected
  rw [parseRequestLine_verdict {} c.request line] at refused
  have found := findCRLF_line oneLine later
  cases parsed : parseRequestLine c.request line with
  | mk result req =>
    rw [parsed] at refused
    obtain rfl : result = false := refused
    refine ⟨req, ?_⟩
    rw [parseRequest_eq (Or.inl here)]
    simp only [parseTurn, here, found, List.take_left, parsed]

theorem headers_of_more (here : c.state = .headers) (turn : parseTurn c readable = .more c' rest) :
    c'.state = .headers := by
  simp only [parseTurn, here] at turn
  split at turn
  · split at turn
    · cases turn
      rfl
    · cases turn
  · cases turn

/-- Header lines are never rejected. -/
theorem parseRequest_headers (here : c.state = .headers) {result : Bool}
    (returns : parseRequest c readable = some (result, c', rest)) : result = true := by
  induction size : readable.length using Nat.strong_induction_on generalizing c readable with
  | _ size ih =>
    subst size
    rw [parseRequest_eq (Or.inr here)] at returns
    cases turn : parseTurn c readable with
    | more c₁ readable₁ =>
      obtain ⟨-, shorter⟩ := parseTurn_more (Or.inr here) turn
      rw [turn] at returns
      have still := headers_of_more here turn
      exact ih readable₁.length shorter still returns rfl
    | stop result₁ c₁ rest₁ =>
      rw [turn] at returns
      cases returns
      simp only [parseTurn, here] at turn
      split at turn
      · split at turn
        · cases turn
        · cases turn
          rfl
      · cases turn
        rfl

/-- What a call that returns false has met: a request line that it did not accept. -/
theorem line_of_rejected (parsing : c.Parsing)
    (returns : parseRequest c readable = some (false, c', rest)) :
    c.state = .requestLine ∧ rest = readable ∧ ∃ line later, readable = line ++ (kCRLF ++ later) ∧
      OneLine line ∧ parseRequestLine c.request line = (false, c'.request) ∧
      c' = { c with request := c'.request } := by
  rcases parsing with here | here
  · rw [parseRequest_eq (Or.inl here)] at returns
    cases found : findCRLF readable with
    | none =>
      rw [parseTurn_waits (Or.inl here) found] at returns
      cases returns
    | some crlf =>
      obtain ⟨line, later, rfl, rfl, oneLine⟩ := line_of_findCRLF found
      simp only [parseTurn, here, found, List.take_left, retrieveUntil_line] at returns
      cases parsed : parseRequestLine c.request line with
      | mk accepted req =>
        rw [parsed] at returns
        cases accepted with
        | true =>
          have accepts := parseRequest_headers rfl returns
          cases accepts
        | false =>
          cases returns
          exact ⟨here, rfl, line, later, rfl, oneLine, parsed, by rw [here]⟩
  · have accepts := parseRequest_headers here returns
    cases accepts

theorem headRejected_of_rejected (parsing : c.Parsing)
    (returns : parseRequest c readable = some (false, c', rest)) :
    c'.state = .requestLine ∧ rest = readable ∧ HeadRejected readable := by
  obtain ⟨here, same, line, later, split, oneLine, refused, context⟩ :=
    line_of_rejected parsing returns
  refine ⟨by rw [context, here], same, line, later, split, oneLine, ?_⟩
  rw [parseRequestLine_verdict {} c.request, refused]

/-! ## The context -/

/-- `assert(method_ == Invalid)` fails in `parseRequestLine`: it comes to `setMethod` with a method
set. -/
def assertionFails (req : HttpRequest) (line : Bytes) : Bool :=
  (splitAtByte SP line).isSome && req.method ≠ .invalid

/-- It fails in one turn of the loop. -/
def turnAsserts (c : HttpContext) (readable : Bytes) : Bool :=
  match c.state with
  | .requestLine =>
    match findCRLF readable with
    | some crlf => assertionFails c.request (readable.take crlf)
    | none => false
  | .headers | .body | .allDone => false

/-- It fails in one of the first `fuel` turns. -/
def loopAsserts : Nat → HttpContext → Bytes → Bool
  | 0, _, _ => false
  | fuel + 1, c, readable =>
    turnAsserts c readable ||
      match parseTurn c readable with
      | .more c' readable' => loopAsserts fuel c' readable'
      | .stop _ _ _ => false

/-- It fails in this call of `parseRequest`. -/
def HttpContext.asserts (c : HttpContext) (readable : Bytes) : Bool :=
  loopAsserts (readable.length + 1) c readable

/-- Calls of `parseRequest` with a chunk appended to the buffer before each. -/
def HttpContext.calls (c : HttpContext) (readable : Bytes) :
    List Bytes → Option (HttpContext × Bytes)
  | [] => some (c, readable)
  | chunk :: chunks =>
    (parseRequest c (readable ++ chunk)).bind fun (_, c', rest) => c'.calls rest chunks

/-- When `parseRequest` rejects the text, the new context and the buffer are as they were, and
however often it is called afterwards, the assertion holds in the next call and the path is still
the same. -/
structure LeavesIntact (readable : Bytes) : Prop where
  intact : ∀ c rest, parseRequest {} readable = some (false, c, rest) → c = {} ∧ rest = readable
  later : ∀ c rest, parseRequest {} readable = some (false, c, rest) →
    ∀ chunks c' rest', c.calls rest chunks = some (c', rest') →
      (∀ chunk, c'.asserts (rest' ++ chunk) = false) ∧ c'.request.path = c.request.path

/-- A first line that begins with a known method and a space is a request line. -/
def WellBegun (readable : Bytes) : Prop :=
  ∀ line later, readable = line ++ (kCRLF ++ later) → OneLine line →
    ∀ m : Method, m ≠ .invalid → m.methodString ++ [SP] <+: line →
      ∃ target version, version ≠ Version.unknown ∧ SP ∉ target ∧
        line = requestLine m target version

/-- A line that is rejected although its method is known leaves the method in the request. -/
theorem method_of_known {rest : Bytes} {m : Method} (known : m ≠ .invalid)
    (cut : splitAtByte SP line = some (m.methodString, rest)) :
    (parseRequestLine req line).2.method = m := by
  have sets : req.setMethod m.methodString = (true, { req with method := m }) := by
    simp [HttpRequest.setMethod, methodOf_methodString known, known]
  simp only [parseRequestLine, cut, sets, if_true]
  split
  · rfl
  · next target text cut' =>
    have target : (parseTarget { req with method := m } target).method = m := by
      unfold parseTarget
      split <;> rfl
    unfold parseVersion
    split
    · split
      · exact target
      · split <;> exact target
    · exact target

/-- A fresh request is left as it is by a line whose method is not known. -/
theorem parseRequestLine_of_unknown
    (unknown : ∀ m : Method, m ≠ .invalid → ¬m.methodString ++ [SP] <+: line) :
    parseRequestLine {} line = (false, {}) := by
  unfold parseRequestLine
  split
  · rfl
  · next method rest cut =>
    obtain ⟨rfl, -⟩ := eq_of_splitAtByte cut
    have invalid : methodOf method = .invalid := by
      by_contra known
      refine unknown _ known ⟨rest, ?_⟩
      rw [methodString_methodOf known, List.append_assoc]
      rfl
    simp [HttpRequest.setMethod, invalid]

/-- Later calls on a rejected line that left no trace leave none either. -/
theorem calls_of_intact (rejects : ∀ more, parseRequest {} (readable ++ more) =
      some (false, {}, readable ++ more)) (chunks : List Bytes)
    (called : HttpContext.calls {} readable chunks = some (c', rest)) : c' = {} := by
  induction chunks generalizing readable with
  | nil =>
    cases called
    rfl
  | cons chunk chunks ih =>
    rw [HttpContext.calls, rejects chunk, Option.bind_some] at called
    apply ih _ called
    intro more
    rw [List.append_assoc]
    exact rejects (chunk ++ more)

theorem loopAsserts_headers (here : c.state = .headers) (fuel : Nat) :
    loopAsserts fuel c readable = false := by
  induction fuel generalizing c readable with
  | zero => rfl
  | succ fuel ih =>
    have quiet : turnAsserts c readable = false := by rw [turnAsserts, here]
    rw [loopAsserts, quiet, Bool.false_or]
    cases turn : parseTurn c readable with
    | more c₁ readable₁ => exact ih (headers_of_more here turn)
    | stop => rfl

/-- With no method set the assertion holds. -/
theorem asserts_fresh : HttpContext.asserts {} readable = false := by
  have quiet : turnAsserts {} readable = false := by
    simp only [turnAsserts]
    split
    · simp [assertionFails]
    · rfl
  rw [HttpContext.asserts, loopAsserts, quiet, Bool.false_or]
  cases turn : parseTurn {} readable with
  | more c₁ readable₁ =>
    refine loopAsserts_headers ?_ readable.length
    simp only [parseTurn] at turn
    split at turn
    · split at turn
      · cases turn
        rfl
      · cases turn
    · cases turn
  | stop => rfl

/-- The method of a line that is accepted is the one that it begins with. -/
theorem requestLine_of_accepted {m : Method} (known : m ≠ .invalid)
    (begins : m.methodString ++ [SP] <+: line)
    (accepted : (parseRequestLine {} line).1 = true) :
    ∃ target version, version ≠ Version.unknown ∧ SP ∉ target ∧
      line = requestLine m target version := by
  obtain ⟨rest, rfl⟩ := begins
  have parsed : parseRequestLine {} (m.methodString ++ [SP] ++ rest) = (true, _) :=
    Prod.ext accepted rfl
  obtain ⟨m', target, version, known', knownVersion, noSpace, same⟩ :=
    line_of_parseRequestLine parsed
  have cut := splitAtByte_append rest (space_not_mem_methodString m)
  have cut' := splitAtByte_append (target ++ SP :: version.text) (space_not_mem_methodString m')
  rw [List.append_assoc, List.singleton_append] at same ⊢
  rw [same, requestLine, cut'] at cut
  obtain ⟨methods, -⟩ := Prod.mk.inj (Option.some.inj cut)
  obtain rfl : m' = m := by rw [← methodOf_methodString known', methods, methodOf_methodString known]
  exact ⟨target, version, knownVersion, noSpace, same⟩

/-- The new context and the buffer survive a rejection exactly when the rejected line does not begin
with a known method and a space. -/
theorem leavesIntact_iff (readable : Bytes) : LeavesIntact readable ↔ WellBegun readable := by
  constructor
  · intro intact line later split oneLine m known begins
    by_contra notLine
    have refused : (parseRequestLine {} line).1 = false := by
      by_contra accepted
      rw [Bool.not_eq_false] at accepted
      exact notLine (requestLine_of_accepted known begins accepted)
    obtain ⟨req, returns⟩ :=
      parseRequest_of_headRejected (c := {}) rfl ⟨line, later, split, oneLine, refused⟩
    obtain ⟨fresh, -⟩ := intact.intact _ _ returns
    obtain ⟨-, -, line', later', split', oneLine', parsed, -⟩ :=
      line_of_rejected parsing_fresh returns
    obtain ⟨rfl, -⟩ := line_inj oneLine oneLine' (split.symm.trans split')
    obtain ⟨rest, rfl⟩ := begins
    have cut : splitAtByte SP (m.methodString ++ [SP] ++ rest) = some (m.methodString, rest) := by
      rw [List.append_assoc]
      exact splitAtByte_append rest (space_not_mem_methodString m)
    have set : (parseRequestLine {} (m.methodString ++ [SP] ++ rest)).2.method = m :=
      method_of_known known cut
    rw [parsed, fresh] at set
    exact known set.symm
  · intro wellBegun
    have intact : ∀ c rest, parseRequest {} readable = some (false, c, rest) →
        c = {} ∧ rest = readable := by
      intro c rest returns
      obtain ⟨-, same, line, later, split, oneLine, parsed, context⟩ :=
        line_of_rejected parsing_fresh returns
      have unknown : ∀ m : Method, m ≠ .invalid → ¬m.methodString ++ [SP] <+: line := by
        intro m known begins
        obtain ⟨target, version, knownVersion, noSpace, rfl⟩ :=
          wellBegun line later split oneLine m known begins
        obtain ⟨req, accepted⟩ := parseRequestLine_requestLine
          ⟨m, target, version, [], known, knownVersion, noSpace, oneLine, by simp⟩
        rw [accepted] at parsed
        cases parsed
      rw [parseRequestLine_of_unknown unknown] at parsed
      obtain ⟨-, fresh⟩ := Prod.mk.inj parsed
      rw [context, ← fresh]
      exact ⟨rfl, same⟩
    refine ⟨intact, fun c rest returns chunks c' rest' called => ?_⟩
    obtain ⟨rfl, rfl⟩ := intact c rest returns
    have rejects := parseRequest_append_of_final parsing_fresh returns (Or.inl rfl)
    obtain rfl := calls_of_intact rejects chunks called
    exact ⟨fun _ => asserts_fresh, rfl⟩

/-- `"GET /a HTTP/2.0\r\n"` -/
def unknownVersion : Bytes :=
  ascii ['G', 'E', 'T', ' ', '/', 'a', ' ', 'H', 'T', 'T', 'P', '/', '2', '.', '0', '\r', '\n']

/-- The second attempt fails the assertion, and a release build appends the path again. -/
theorem rejected_request_grows :
    ∃ c c' : HttpContext, parseRequest {} unknownVersion = some (false, c, unknownVersion) ∧
      c.asserts unknownVersion = true ∧ c.calls unknownVersion [[]] = some (c', unknownVersion) ∧
      c.request.path = ascii ['/', 'a'] ∧ c'.request.path = ascii ['/', 'a', '/', 'a'] ∧
      ¬LeavesIntact unknownVersion := by
  refine ⟨_, _, rfl, rfl, rfl, rfl, rfl, fun intact => ?_⟩
  have same := (intact.later _ _ rfl [[]] _ _ rfl).2
  cases same

end Yvent.Http
