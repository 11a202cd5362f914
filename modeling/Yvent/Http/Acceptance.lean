import Yvent.Http.Grammar

/-!
# What the parser accepts

The header section should end at an empty line; `parseRequest` ends it at the first line without a
colon. So it accepts the texts that begin with a request of the grammar and, besides, those in which
a line with neither a colon nor nothing at all comes first; the two kinds exclude each other.
-/

namespace Yvent.Http

open Buffer

/-- A fresh context reaches `AllDone` on the text. -/
def Accepts (s : Bytes) : Prop :=
  ∃ result c rest, parseRequest {} s = some (result, c, rest) ∧ c.state = .allDone

/-- The parser keeps to its grammar on the text: it reaches `AllDone` exactly when a request is a
prefix of the text, and then it takes this prefix. -/
structure KeepsToGrammar (s : Bytes) : Prop where
  accepts : Accepts s ↔ ∃ r : Request, r.bytes <+: s
  takes : ∀ (r : Request) rest, s = r.bytes ++ rest →
    ∃ c, parseRequest {} s = some (true, c, rest) ∧ c.state = .allDone

/-- The lines, each with its line end. -/
def lineBlock (lines : List Bytes) : Bytes := lines.flatMap (· ++ kCRLF)

/-- Behind a request line and header lines that each hold a colon comes a line that is not empty
and holds none. -/
def EndsEarly (s : Bytes) : Prop :=
  ∃ (r : Request) (line later : Bytes), line ≠ [] ∧ COLON ∉ line ∧ OneLine line ∧
    s = requestLine r.method r.target r.version ++
      (kCRLF ++ (lineBlock r.headerLines ++ (line ++ (kCRLF ++ later))))

theorem lineBlock_cons (line : Bytes) (lines : List Bytes) (rest : Bytes) :
    lineBlock (line :: lines) ++ rest = line ++ (kCRLF ++ (lineBlock lines ++ rest)) := by
  simp [lineBlock]

theorem headerBlock_append (lines : List Bytes) (rest : Bytes) :
    headerBlock lines ++ rest = lineBlock lines ++ ([] ++ (kCRLF ++ rest)) := by
  induction lines with
  | nil => rfl
  | cons line lines ih =>
    rw [lineBlock_cons, ← ih, headerBlock, List.append_assoc, List.append_assoc]

/-! ## The header section -/

/-- The first line without a colon ends the header section. -/
theorem parseRequest_lineBlock {lines : List Bytes} {last : Bytes}
    (fields : ∀ line ∈ lines, COLON ∈ line ∧ OneLine line) (noColon : COLON ∉ last)
    (oneLine : OneLine last) (req : HttpRequest) (later : Bytes) :
    ∃ req', parseRequest ⟨.headers, req⟩ (lineBlock lines ++ (last ++ (kCRLF ++ later))) =
      some (true, ⟨.allDone, req'⟩, later) := by
  induction lines generalizing req with
  | nil =>
    have found := findCRLF_line oneLine later
    refine ⟨req, ?_⟩
    rw [parseRequest_eq (Or.inr rfl)]
    simp only [parseTurn, lineBlock, List.flatMap_nil, List.nil_append, found, List.take_left,
      splitAtByte_eq_none noColon, retrieveUntil_line]
  | cons line lines ih =>
    obtain ⟨⟨colon, oneLine'⟩, fields⟩ := List.forall_mem_cons.mp fields
    obtain ⟨key, rest, atColon⟩ := exists_splitAtByte colon
    obtain ⟨req', taken⟩ := ih fields (req.addHeader key rest)
    have found := findCRLF_line oneLine' (lineBlock lines ++ (last ++ (kCRLF ++ later)))
    refine ⟨req', ?_⟩
    rw [parseRequest_eq (Or.inr rfl), lineBlock_cons]
    simp only [parseTurn, found, List.take_left, atColon, retrieveUntil_line]
    exact taken

/-- A header section that the parser takes to its end. -/
theorem lines_of_allDone {req : HttpRequest} {c : HttpContext} {readable rest : Bytes}
    {result : Bool} (returns : parseRequest ⟨.headers, req⟩ readable = some (result, c, rest))
    (done : c.state = .allDone) :
    ∃ lines last, (∀ line ∈ lines, COLON ∈ line ∧ OneLine line) ∧ COLON ∉ last ∧ OneLine last ∧
      readable = lineBlock lines ++ (last ++ (kCRLF ++ rest)) := by
  induction size : readable.length using Nat.strong_induction_on generalizing req readable with
  | _ size ih =>
    subst size
    rw [parseRequest_eq (Or.inr rfl)] at returns
    cases found : findCRLF readable with
    | none =>
      simp only [parseTurn, found] at returns
      cases returns
      cases done
    | some crlf =>
      obtain ⟨line, later, rfl, rfl, oneLine⟩ := line_of_findCRLF found
      simp only [parseTurn, found, List.take_left, retrieveUntil_line] at returns
      cases cut : splitAtByte COLON line with
      | none =>
        rw [cut] at returns
        cases returns
        have noColon : COLON ∉ line := fun mem => by
          obtain ⟨key, value, present⟩ := exists_splitAtByte mem
          rw [cut] at present
          cases present
        exact ⟨[], line, by simp, noColon, oneLine, rfl⟩
      | some entry =>
        obtain ⟨key, value⟩ := entry
        rw [cut] at returns
        obtain ⟨rfl, -⟩ := eq_of_splitAtByte cut
        obtain ⟨lines, last, fields, noColon, oneLine', rfl⟩ :=
          ih later.length (by simp [kCRLF]; omega) returns rfl
        refine ⟨(key ++ COLON :: value) :: lines, last, ?_, noColon, oneLine', ?_⟩
        · exact List.forall_mem_cons.mpr ⟨⟨by simp, oneLine⟩, fields⟩
        · rw [lineBlock_cons]

/-- The end of a header section is determined. -/
theorem last_inj {lines lines' : List Bytes} {last last' later later' : Bytes}
    (fields : ∀ line ∈ lines, COLON ∈ line ∧ OneLine line)
    (fields' : ∀ line ∈ lines', COLON ∈ line ∧ OneLine line) (noColon : COLON ∉ last)
    (noColon' : COLON ∉ last') (oneLine : OneLine last) (oneLine' : OneLine last')
    (same : lineBlock lines ++ (last ++ (kCRLF ++ later)) =
      lineBlock lines' ++ (last' ++ (kCRLF ++ later'))) : last = last' := by
  induction lines generalizing lines' with
  | nil =>
    cases lines' with
    | nil => exact (line_inj oneLine oneLine' same).1
    | cons line lines' =>
      rw [lineBlock_cons] at same
      obtain ⟨colon, oneLine''⟩ := fields' line List.mem_cons_self
      obtain ⟨rfl, -⟩ := line_inj oneLine oneLine'' same
      exact absurd colon noColon
  | cons line lines ih =>
    obtain ⟨⟨colon, oneLine''⟩, fields⟩ := List.forall_mem_cons.mp fields
    rw [lineBlock_cons] at same
    cases lines' with
    | nil =>
      obtain ⟨rfl, -⟩ := line_inj oneLine'' oneLine' same
      exact absurd colon noColon'
    | cons line' lines' =>
      obtain ⟨⟨-, oneLine₃⟩, fields'⟩ := List.forall_mem_cons.mp fields'
      rw [lineBlock_cons] at same
      exact ih fields fields' (line_inj oneLine'' oneLine₃ same).2

/-! ## The request line -/

theorem methodString_methodOf {m : Bytes} (known : methodOf m ≠ .invalid) :
    (methodOf m).methodString = m := by
  unfold methodOf at known ⊢
  split
  · next here => exact here.symm
  split
  · next here => exact here.symm
  split
  · next here => exact here.symm
  split
  · next here => exact here.symm
  split
  · next here => exact here.symm
  · simp_all

theorem version_of_parseVersion {req req' : HttpRequest} {text : Bytes}
    (parsed : parseVersion req text = (true, req')) :
    ∃ version : Version, version ≠ .unknown ∧ text = version.text := by
  unfold parseVersion at parsed
  split at parsed
  · next shape =>
    obtain ⟨length, front⟩ := shape
    have whole : ∀ d, text[7]? = some d → text = httpSlash ++ [d] := by
      intro d last
      obtain ⟨inRange, rfl⟩ := List.getElem?_eq_some_iff.mp last
      rw [← front, List.take_append_getElem, List.take_of_length_le (by omega)]
    split at parsed
    · next last => exact ⟨.http10, by decide, whole 48 last⟩
    split at parsed
    · next last => exact ⟨.http11, by decide, whole 49 last⟩
    · cases parsed
  · cases parsed

/-- The lines that `parseRequestLine` accepts. -/
theorem line_of_parseRequestLine {req req' : HttpRequest} {line : Bytes}
    (parsed : parseRequestLine req line = (true, req')) :
    ∃ method target version, method ≠ Method.invalid ∧ version ≠ Version.unknown ∧
      SP ∉ target ∧ line = requestLine method target version := by
  unfold parseRequestLine at parsed
  split at parsed
  · cases parsed
  next method rest cut =>
  obtain ⟨rfl, -⟩ := eq_of_splitAtByte cut
  by_cases known : methodOf method = .invalid
  · have refused : (req.setMethod method).1 = false := by simp [HttpRequest.setMethod, known]
    simp [refused] at parsed
  have accepted : (req.setMethod method).1 = true := by simp [HttpRequest.setMethod, known]
  simp only [accepted, if_true] at parsed
  split at parsed
  · cases parsed
  next target text cut' =>
  obtain ⟨rfl, noSpace⟩ := eq_of_splitAtByte cut'
  obtain ⟨version, knownVersion, rfl⟩ := version_of_parseVersion parsed
  refine ⟨methodOf method, target, version, known, knownVersion, noSpace, ?_⟩
  rw [requestLine, methodString_methodOf known]

/-! ## The text -/

/-- A text on which a fresh context reaches `AllDone` begins with a request line and header lines
that hold a colon, behind which a line without a colon comes. -/
theorem parts_of_accepts {s : Bytes} (accepts : Accepts s) :
    ∃ (r : Request) (last rest : Bytes), COLON ∉ last ∧ OneLine last ∧
      s = requestLine r.method r.target r.version ++
        (kCRLF ++ (lineBlock r.headerLines ++ (last ++ (kCRLF ++ rest)))) := by
  obtain ⟨result, c, rest, returns, done⟩ := accepts
  rw [parseRequest_eq parsing_fresh] at returns
  cases found : findCRLF s with
  | none =>
    simp only [parseTurn, found] at returns
    cases returns
    cases done
  | some crlf =>
    obtain ⟨line, later, rfl, rfl, oneLine⟩ := line_of_findCRLF found
    simp only [parseTurn, found, List.take_left, retrieveUntil_line] at returns
    cases parsed : parseRequestLine {} line with
    | mk accepted req =>
      cases accepted with
      | false =>
        rw [parsed] at returns
        cases returns
        cases done
      | true =>
        rw [parsed] at returns
        obtain ⟨method, target, version, knownMethod, knownVersion, noSpace, rfl⟩ :=
          line_of_parseRequestLine parsed
        obtain ⟨lines, last, fields, noColon, oneLine', rfl⟩ := lines_of_allDone returns done
        exact ⟨⟨method, target, version, lines, knownMethod, knownVersion, noSpace, oneLine,
          fields⟩, last, rest, noColon, oneLine', rfl⟩

theorem accepts_parts (r : Request) {last : Bytes} (noColon : COLON ∉ last)
    (oneLine : OneLine last) (rest : Bytes) :
    Accepts (requestLine r.method r.target r.version ++
      (kCRLF ++ (lineBlock r.headerLines ++ (last ++ (kCRLF ++ rest))))) := by
  obtain ⟨req, accepted⟩ := parseRequestLine_requestLine r
  obtain ⟨req', taken⟩ := parseRequest_lineBlock r.fields noColon oneLine req rest
  have found := findCRLF_line r.oneLine (lineBlock r.headerLines ++ (last ++ (kCRLF ++ rest)))
  refine ⟨true, ⟨.allDone, req'⟩, rest, ?_, rfl⟩
  rw [parseRequest_eq parsing_fresh]
  simp only [parseTurn, found, List.take_left, accepted, retrieveUntil_line]
  exact taken

theorem Request.bytes_append (r : Request) (rest : Bytes) :
    r.bytes ++ rest = requestLine r.method r.target r.version ++
      (kCRLF ++ (lineBlock r.headerLines ++ ([] ++ (kCRLF ++ rest)))) := by
  rw [bytes, List.append_assoc, List.append_assoc, headerBlock_append]

/-- A text that ends early does not begin with a request. -/
theorem EndsEarly.not_prefix {s : Bytes} (early : EndsEarly s) (r : Request) :
    ¬r.bytes <+: s := by
  rintro ⟨rest, rfl⟩
  obtain ⟨r', line, later, nonempty, noColon, oneLine, same⟩ := early
  rw [r.bytes_append] at same
  have section' := (line_inj r.oneLine r'.oneLine same).2
  exact nonempty
    (last_inj r.fields r'.fields List.not_mem_nil noColon rfl oneLine section').symm

/-- The parser keeps to its grammar on all texts that do not end early. -/
theorem keepsToGrammar_iff (s : Bytes) : KeepsToGrammar s ↔ ¬EndsEarly s := by
  constructor
  · rintro ⟨accepts, -⟩ early
    obtain ⟨r, line, later, -, noColon, oneLine, same⟩ := id early
    have reached : Accepts s := by
      rw [same]
      exact accepts_parts r noColon oneLine later
    obtain ⟨r', isPrefix⟩ := accepts.mp reached
    exact early.not_prefix r' isPrefix
  · intro notEarly
    refine ⟨⟨fun accepts => ?_, ?_⟩, ?_⟩
    · obtain ⟨r, last, rest, noColon, oneLine, rfl⟩ := parts_of_accepts accepts
      have empty : last = [] := by
        by_contra nonempty
        exact notEarly ⟨r, last, rest, nonempty, noColon, oneLine, rfl⟩
      subst empty
      exact ⟨r, rest, r.bytes_append rest⟩
    · rintro ⟨r, rest, rfl⟩
      rw [r.bytes_append]
      exact accepts_parts r List.not_mem_nil rfl rest
    · rintro r rest rfl
      obtain ⟨req, taken⟩ := parseRequest_bytes r
      exact ⟨_, taken rest, rfl⟩

/-- `"GET / HTTP/1.1\r\nx\r\n"`: the line `x` completes the request. -/
theorem colonless_line_completes :
    ¬KeepsToGrammar (requestLine .get (ascii ['/']) .http11 ++ (kCRLF ++ (ascii ['x'] ++ kCRLF))) := by
  intro keeps
  let r : Request := ⟨.get, ascii ['/'], .http11, [], by decide, by decide, by decide, by decide,
    by simp⟩
  have early : EndsEarly (requestLine .get (ascii ['/']) .http11 ++
      (kCRLF ++ (ascii ['x'] ++ kCRLF))) :=
    ⟨r, ascii ['x'], [], by decide, by decide, by decide, by decide⟩
  have reached : Accepts (requestLine .get (ascii ['/']) .http11 ++
      (kCRLF ++ (ascii ['x'] ++ kCRLF))) := ⟨_, _, _, rfl, rfl⟩
  obtain ⟨r', isPrefix⟩ := keeps.accepts.mp reached
  exact early.not_prefix r' isPrefix

end Yvent.Http
