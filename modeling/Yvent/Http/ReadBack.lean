import Yvent.Buffer.Refinement
import Yvent.Http.Response
import Yvent.Http.RoundTrip
import Yvent.Misc.Decimal

/-!
# Responses are read back

`appendToBuffer` adds the text of a response behind what a buffer holds. Split at its line ends the
text gives back the status, the headers and the body. The line on the length is the exception: what
the 32 characters of its buffer do not take is lost, its line end first, and a length from 2^63 on
is written as a negative number.
-/

namespace Yvent.Http

open Buffer

/-! ## Reading a response -/

/-- What a reader makes of a response. -/
structure ParsedResponse where
  code : Nat
  message : Bytes
  fields : List (Bytes × Bytes)
  body : Bytes
  deriving DecidableEq

/-- The lines up to the first empty one, and what is behind it. -/
def headLines : Nat → Bytes → Option (List Bytes × Bytes)
  | 0, _ => none
  | fuel + 1, text =>
    (findCRLF text).bind fun n =>
      if n = 0 then some ([], retrieveUntil text 2)
      else (headLines fuel (retrieveUntil text (n + 2))).map fun (lines, rest) =>
        (text.take n :: lines, rest)

/-- A header line, cut at its first `": "`. -/
def splitField : Bytes → Option (Bytes × Bytes)
  | c :: d :: rest =>
    if c = COLON ∧ d = SP then some ([], rest)
    else (splitField (d :: rest)).map fun (name, value) => (c :: name, value)
  | _ => none

/-- The code and the message of a status line, behind its version. -/
def splitStatus (line : Bytes) : Option (Nat × Bytes) := do
  let (_, rest) ← splitAtByte SP line
  let (code, message) ← splitAtByte SP rest
  let code ← decimalValue code
  return (code, message)

/-- A reader of responses: the head up to the empty line, the rest is the body. -/
def parseResponse (text : Bytes) : Option ParsedResponse := do
  let (lines, body) ← headLines (text.length + 1) text
  match lines with
  | [] => none
  | status :: lines =>
    let (code, message) ← splitStatus status
    let fields ← lines.mapM splitField
    return { code, message, fields, body }

/-! ## Writing a response -/

/-- `"Connection"` -/
def connectionName : Bytes := ascii ['C', 'o', 'n', 'n', 'e', 'c', 't', 'i', 'o', 'n']

/-- `"Content-Length"` -/
def contentLengthName : Bytes :=
  ascii ['C', 'o', 'n', 't', 'e', 'n', 't', '-', 'L', 'e', 'n', 'g', 't', 'h']

/-- A text without line ends or parts of them. -/
def Unbroken (text : Bytes) : Prop := CR ∉ text ∧ LF ∉ text

instance (text : Bytes) : Decidable (Unbroken text) := inferInstanceAs (Decidable (_ ∧ _))

/-- A header line without its line end. -/
def fieldLine (field : Bytes × Bytes) : Bytes := field.1 ++ ascii [':', ' '] ++ field.2

namespace HttpResponse

variable (response : HttpResponse)

/-- What `appendToBuffer` appends, in its order. -/
def pieces : List Bytes :=
  [snprintf (['H', 'T', 'T', 'P', '/', '1', '.', '1', ' '] ++
      decimal response.statusCode.code ++ [' ']), response.statusMessage, kCRLF] ++
    (if response.closeConnection then
      [ascii ['C', 'o', 'n', 'n', 'e', 'c', 't', 'i', 'o', 'n', ':', ' ', 'c', 'l', 'o', 's', 'e',
        '\r', '\n']]
    else
      [snprintf (['C', 'o', 'n', 't', 'e', 'n', 't', '-', 'L', 'e', 'n', 'g', 't', 'h', ':', ' '] ++
          signedDecimal response.contentLength.toInt ++ ['\r', '\n']),
        ascii ['C', 'o', 'n', 'n', 'e', 'c', 't', 'i', 'o', 'n', ':', ' ', 'K', 'e', 'e', 'p', '-',
          'A', 'l', 'i', 'v', 'e', '\r', '\n']]) ++
    response.headers.toList.flatMap (fun (key, value) => [key, ascii [':', ' '], value, kCRLF]) ++
    [kCRLF, response.body]

/-- `appendToBuffer(output)`. -/
def appendTo (output : Buffer) : Checked Buffer := response.pieces.foldlM Buffer.append output

/-- The length that the response announces. -/
def bodySize : Nat :=
  if response.bodyLen ≠ 0 then response.bodyLen.toNat else response.body.length

/-- The status message and the headers are what a line of a response can hold. -/
structure Clean : Prop where
  message : Unbroken response.statusMessage
  names : ∀ field ∈ response.headers.toList, Unbroken field.1 ∧ COLON ∉ field.1 ∧
    field.1 ≠ connectionName ∧ field.1 ≠ contentLengthName
  values : ∀ field ∈ response.headers.toList, Unbroken field.2

/-- The fields of a response whose length is written as `length`. -/
def fields (length : Bytes) : List (Bytes × Bytes) :=
  (if response.closeConnection then
    [(connectionName, ascii ['c', 'l', 'o', 's', 'e'])]
  else
    [(contentLengthName, length),
      (connectionName, ascii ['K', 'e', 'e', 'p', '-', 'A', 'l', 'i', 'v', 'e'])]) ++
    response.headers.toList

/-- The text gives back the response. -/
def ReadBack (text : Bytes) : Prop :=
  ∃ length fields, decimalValue length = some response.bodySize ∧
    fields.Perm (response.fields length) ∧
    parseResponse text = some {
      code := response.statusCode.code, message := response.statusMessage, fields
      body := response.body }

end HttpResponse

variable {response : HttpResponse} {b b' : Buffer} {q : ByteQueue} {lines : List Bytes}
  {line name value text : Bytes}

/-! ## The buffer -/

/-- Texts appended one after another are appended together. -/
theorem content_of_appends {pieces : List Bytes} (refined : b.Refines q)
    (returns : pieces.foldlM Buffer.append b = .ok b') :
    b'.content = b.content ++ pieces.flatten := by
  induction pieces generalizing b q with
  | nil =>
    cases returns
    rw [List.flatten_nil, List.append_nil]
  | cons piece pieces ih =>
    obtain ⟨b₁, appended, returns⟩ := exists_of_bind returns
    obtain ⟨b₁', appended', refined'⟩ := refined.append (refined.affords_of_append appended)
    rw [appended] at appended'
    cases appended'
    rw [ih refined' returns, refined'.content, refined.content, List.flatten_cons,
      ← List.append_assoc]
    rfl

theorem flatten_fields (headers : List (Bytes × Bytes)) :
    (headers.flatMap fun (key, value) => [key, ascii [':', ' '], value, kCRLF]).flatten =
      headers.flatMap fun (key, value) => key ++ ascii [':', ' '] ++ value ++ [CR, LF] := by
  induction headers with
  | nil => rfl
  | cons field headers ih =>
    rw [List.flatMap_cons, List.flatMap_cons, List.flatten_append, ih]
    simp [kCRLF]

theorem pieces_flatten : response.pieces.flatten = response.appendToBuffer [] := by
  simp only [HttpResponse.pieces, List.flatten_append, flatten_fields, HttpResponse.appendToBuffer,
    HttpResponse.headerLines, HttpResponse.connectionLines]
  split <;> simp [kCRLF]

/-! ## Lines -/

/-- The lines of a block are found again. -/
theorem headLines_block (whole : ∀ line ∈ lines, OneLine line ∧ line ≠ []) {fuel : Nat}
    (enough : lines.length < fuel) (later : Bytes) :
    headLines fuel (headerBlock lines ++ later) = some (lines, later) := by
  induction lines generalizing fuel with
  | nil =>
    cases fuel with
    | zero => cases enough
    | succ fuel => rfl
  | cons line lines ih =>
    obtain ⟨⟨oneLine, nonempty⟩, others⟩ := List.forall_mem_cons.mp whole
    cases fuel with
    | zero => cases enough
    | succ fuel =>
      have found := findCRLF_line oneLine (headerBlock lines ++ later)
      have positive : line.length ≠ 0 := fun zero => nonempty (List.eq_nil_of_length_eq_zero zero)
      have rest := ih others (Nat.lt_of_succ_lt_succ enough)
      rw [headerBlock, List.append_assoc, List.append_assoc, headLines, found, Option.bind_some,
        if_neg positive, retrieveUntil_line, rest, List.take_left]
      rfl

theorem length_le_block (lines : List Bytes) : lines.length ≤ (headerBlock lines).length := by
  induction lines with
  | nil => exact Nat.zero_le _
  | cons line lines ih =>
    rw [headerBlock, List.length_append, List.length_append, List.length_cons]
    have two : kCRLF.length = 2 := rfl
    omega

theorem splitField_line (noColon : COLON ∉ name) (value : Bytes) :
    splitField (fieldLine (name, value)) = some (name, value) := by
  induction name with
  | nil => rfl
  | cons c name ih =>
    obtain ⟨other, noColon⟩ := List.ne_and_not_mem_of_not_mem_cons noColon
    have tail := ih noColon
    obtain ⟨d, rest, line⟩ : ∃ d rest, fieldLine (name, value) = d :: rest := by
      cases name with
      | nil => exact ⟨COLON, SP :: value, rfl⟩
      | cons d name => exact ⟨d, fieldLine (name, value), rfl⟩
    have cut : fieldLine (c :: name, value) = c :: d :: rest := congrArg (c :: ·) line
    rw [line] at tail
    rw [cut, splitField, if_neg fun both => other both.1.symm, tail]
    rfl

theorem mapM_splitField {fields : List (Bytes × Bytes)}
    (noColon : ∀ field ∈ fields, COLON ∉ field.1) :
    (fields.map fieldLine).mapM splitField = some fields := by
  induction fields with
  | nil => rfl
  | cons field fields ih =>
    obtain ⟨first, others⟩ := List.forall_mem_cons.mp noColon
    rw [List.map_cons, List.mapM_cons, splitField_line first, ih others]
    rfl

theorem length_of_mapM {fields : List (Bytes × Bytes)}
    (split : lines.mapM splitField = some fields) : fields.length = lines.length := by
  induction lines generalizing fields with
  | nil =>
    cases split
    rfl
  | cons line lines ih =>
    rw [List.mapM_cons] at split
    obtain ⟨field, -, split⟩ := Option.bind_eq_some_iff.mp split
    obtain ⟨rest, inTail, same⟩ := Option.bind_eq_some_iff.mp split
    cases same
    rw [List.length_cons, List.length_cons, ih inTail]

/-- A text of a status line, further lines and a body is taken apart. -/
theorem parseResponse_block {status : Bytes} {code : Nat} {message : Bytes}
    (whole : ∀ line ∈ status :: lines, OneLine line ∧ line ≠ [])
    (read : splitStatus status = some (code, message)) (body : Bytes) :
    parseResponse (headerBlock (status :: lines) ++ body) =
      (lines.mapM splitField).map fun fields => { code, message, fields, body } := by
  have enough : (status :: lines).length < (headerBlock (status :: lines) ++ body).length + 1 := by
    have fits := length_le_block (status :: lines)
    rw [List.length_append]
    omega
  simp only [parseResponse, headLines_block whole enough, read, Option.bind_eq_bind,
    Option.bind_some]
  cases lines.mapM splitField <;> rfl

/-! ## The text of a response -/

theorem oneLine_fieldLine (noName : LF ∉ name) (noValue : LF ∉ value) :
    OneLine (fieldLine (name, value)) ∧ fieldLine (name, value) ≠ [] := by
  refine ⟨oneLine_of_not_mem fun mem => ?_, by simp [fieldLine, ascii]⟩
  rcases List.mem_append.mp mem with mem | mem
  · rcases List.mem_append.mp mem with mem | mem
    · exact noName mem
    · revert mem
      decide
  · exact noValue mem

theorem headerBlock_fields (headers : Std.ExtTreeMap Bytes Bytes) :
    headerBlock (headers.toList.map fieldLine) = HttpResponse.headerLines headers ++ kCRLF := by
  rw [HttpResponse.headerLines]
  induction headers.toList with
  | nil => rfl
  | cons field fields ih =>
    rw [List.map_cons, headerBlock, ih, List.flatMap_cons]
    simp [fieldLine, kCRLF]

namespace HttpResponse

/-- The first line of a response. -/
def statusLine (response : HttpResponse) : Bytes :=
  ascii (['H', 'T', 'T', 'P', '/', '1', '.', '1', ' '] ++
    decimal response.statusCode.code ++ [' ']) ++ response.statusMessage

/-- The length as it is written. -/
def shown (response : HttpResponse) : List Char := signedDecimal response.contentLength.toInt

/-- The lines between the status line and the headers. -/
def connectionFields (response : HttpResponse) : List Bytes :=
  if response.closeConnection then
    [fieldLine (connectionName, ascii ['c', 'l', 'o', 's', 'e'])]
  else if response.shown.length ≤ 13 then
    [fieldLine (contentLengthName, ascii response.shown),
      fieldLine (connectionName, ascii ['K', 'e', 'e', 'p', '-', 'A', 'l', 'i', 'v', 'e'])]
  else
    [snprintf (['C', 'o', 'n', 't', 'e', 'n', 't', '-', 'L', 'e', 'n', 'g', 't', 'h', ':', ' '] ++
        response.shown ++ ['\r']) ++
      fieldLine (connectionName, ascii ['K', 'e', 'e', 'p', '-', 'A', 'l', 'i', 'v', 'e'])]

end HttpResponse

theorem snprintf_of_fits {text : List Char} (fits : text.length ≤ 31) :
    snprintf text = ascii text := by
  rw [snprintf, List.take_of_length_le fits]

/-- A line end that begins behind the thirtieth character loses its line feed. -/
theorem snprintf_lineEnd {text : List Char} (long : 30 ≤ text.length) :
    snprintf (text ++ ['\r', '\n']) = snprintf (text ++ ['\r']) := by
  have fits : 31 ≤ (text ++ ['\r']).length := by
    rw [List.length_append, List.length_singleton]
    omega
  have same : text ++ ['\r', '\n'] = (text ++ ['\r']) ++ ['\n'] := by simp
  rw [snprintf, snprintf, same, List.take_append_of_le_length fits]

theorem ascii_append (x y : List Char) : ascii (x ++ y) = ascii x ++ ascii y := List.map_append

theorem statusLine_eq : snprintf (['H', 'T', 'T', 'P', '/', '1', '.', '1', ' '] ++
    decimal response.statusCode.code ++ [' ']) ++ response.statusMessage = response.statusLine := by
  cases code : response.statusCode <;>
    rw [snprintf_of_fits (by decide), HttpResponse.statusLine, code]

/-- The text of a response is a block of lines and the body. -/
theorem appendToBuffer_block : response.appendToBuffer [] =
    headerBlock (response.statusLine ::
      (response.connectionFields ++ response.headers.toList.map fieldLine)) ++ response.body := by
  have connection : response.connectionLines ++
        headerBlock (response.headers.toList.map fieldLine) =
      headerBlock (response.connectionFields ++ response.headers.toList.map fieldLine) := by
    unfold HttpResponse.connectionLines HttpResponse.connectionFields
    split
    · rfl
    · split
      · next fits =>
        have digits : (signedDecimal response.contentLength.toInt).length ≤ 13 := fits
        rw [snprintf_of_fits (by simp; omega)]
        simp [headerBlock, fieldLine, ascii, contentLengthName, connectionName, kCRLF,
          HttpResponse.shown]
        decide
      · next long =>
        have digits : 13 < (signedDecimal response.contentLength.toInt).length :=
          Nat.lt_of_not_le long
        rw [snprintf_lineEnd (by simp; omega)]
        simp [headerBlock, fieldLine, ascii, connectionName, kCRLF, HttpResponse.shown]
        decide
  rw [headerBlock, ← connection, headerBlock_fields, HttpResponse.appendToBuffer, ← statusLine_eq]
  simp [kCRLF]

theorem lf_not_mem_ascii {text : List Char} (plain : ∀ c ∈ text, c.toNat.toUInt8 ≠ LF) :
    LF ∉ ascii text := by
  intro mem
  obtain ⟨c, inText, same⟩ := List.mem_map.mp mem
  exact plain c inText same

theorem lf_not_mem_snprintf {text : List Char} (plain : LF ∉ ascii text) : LF ∉ snprintf text := by
  intro mem
  rw [snprintf, ascii, List.map_take] at mem
  exact plain (List.mem_of_mem_take mem)

theorem lf_not_mem_shown : LF ∉ ascii response.shown := by
  have digits : ∀ n, ∀ c ∈ decimal n, c.toNat.toUInt8 ≠ LF := by
    intro n c mem same
    have range := (toUInt8_of_isDigit (isDigit_of_mem_decimal mem)).2.1
    rw [same] at range
    revert range
    decide
  apply lf_not_mem_ascii
  unfold HttpResponse.shown signedDecimal
  split
  · exact List.forall_mem_cons.mpr ⟨by decide, digits _⟩
  · exact digits _

/-- No line of a response is empty or broken. -/
theorem whole_lines (clean : response.Clean) :
    ∀ line ∈ response.statusLine ::
      (response.connectionFields ++ response.headers.toList.map fieldLine),
      OneLine line ∧ line ≠ [] := by
  rw [List.forall_mem_cons, List.forall_mem_append]
  refine ⟨⟨oneLine_of_not_mem ?_, by simp [HttpResponse.statusLine, ascii]⟩, ?_, ?_⟩
  · rw [HttpResponse.statusLine, List.mem_append]
    rintro (mem | mem)
    · revert mem
      cases response.statusCode <;> decide
    · exact clean.message.2 mem
  · unfold HttpResponse.connectionFields
    split
    · exact List.forall_mem_singleton.mpr (oneLine_fieldLine (by decide) (by decide))
    · split
      · refine List.forall_mem_cons.mpr ⟨oneLine_fieldLine (by decide) lf_not_mem_shown, ?_⟩
        exact List.forall_mem_singleton.mpr (oneLine_fieldLine (by decide) (by decide))
      · rw [List.forall_mem_singleton]
        refine ⟨oneLine_of_not_mem fun mem => ?_, by simp [fieldLine, ascii]⟩
        rcases List.mem_append.mp mem with mem | mem
        · refine lf_not_mem_snprintf (fun mem => ?_) mem
          rw [ascii_append, ascii_append, List.mem_append, List.mem_append] at mem
          rcases mem with (mem | mem) | mem
          · revert mem
            decide
          · exact lf_not_mem_shown mem
          · revert mem
            decide
        · revert mem
          decide
  · intro line mem
    obtain ⟨field, inHeaders, rfl⟩ := List.mem_map.mp mem
    exact oneLine_fieldLine (clean.names field inHeaders).1.2 (clean.values field inHeaders).2

/-- What the parser makes of the text. -/
theorem parseResponse_text (clean : response.Clean) :
    parseResponse (response.appendToBuffer []) =
      ((response.connectionFields ++ response.headers.toList.map fieldLine).mapM splitField).map
        fun fields => {
          code := response.statusCode.code, message := response.statusMessage, fields
          body := response.body } := by
  rw [appendToBuffer_block]
  refine parseResponse_block (whole_lines clean) ?_ response.body
  rw [HttpResponse.statusLine]
  cases response.statusCode <;> rfl

/-- Where the line on the length fits its buffer, all fields are found. -/
theorem parseResponse_fits (clean : response.Clean)
    (fits : response.closeConnection = true ∨ response.shown.length ≤ 13) :
    parseResponse (response.appendToBuffer []) = some {
      code := response.statusCode.code, message := response.statusMessage
      fields := response.fields (ascii response.shown), body := response.body } := by
  have named : ∀ field ∈ response.fields (ascii response.shown), COLON ∉ field.1 := by
    rw [HttpResponse.fields, List.forall_mem_append]
    refine ⟨?_, fun field mem => (clean.names field mem).2.1⟩
    split
    · exact List.forall_mem_singleton.mpr (by decide)
    · have named : COLON ∉ contentLengthName := by decide
      exact List.forall_mem_cons.mpr ⟨named, List.forall_mem_singleton.mpr (by decide)⟩
  have lines : response.connectionFields ++ response.headers.toList.map fieldLine =
      (response.fields (ascii response.shown)).map fieldLine := by
    rw [HttpResponse.fields, List.map_append, HttpResponse.connectionFields]
    rcases fits with close | short
    · rw [if_pos close, if_pos close]
      rfl
    · rw [if_pos short]
      split <;> rfl
  rw [parseResponse_text clean, lines, mapM_splitField named]
  rfl

/-- Where it does not, one field is missing. -/
theorem not_readBack_of_long (clean : response.Clean) (keepAlive : response.closeConnection = false)
    (long : 13 < response.shown.length) : ¬response.ReadBack (response.appendToBuffer []) := by
  rintro ⟨length, fields, -, same, parsed⟩
  rw [parseResponse_text clean] at parsed
  obtain ⟨found, split, eq⟩ := Option.map_eq_some_iff.mp parsed
  obtain rfl : found = fields := congrArg ParsedResponse.fields eq
  have lines := length_of_mapM split
  have names := same.length_eq
  simp only [HttpResponse.connectionFields, keepAlive, Bool.false_eq_true, if_false,
    if_neg (Nat.not_le.mpr long), List.length_append, List.length_singleton,
    List.length_map] at lines
  simp only [HttpResponse.fields, keepAlive, Bool.false_eq_true, if_false, List.length_append,
    List.length_cons, List.length_nil] at names
  omega

/-- Of the fields only one is the length. -/
theorem length_of_readBack (clean : response.Clean) (keepAlive : response.closeConnection = false)
    (short : response.shown.length ≤ 13)
    (readBack : response.ReadBack (response.appendToBuffer [])) :
    decimalValue (ascii response.shown) = some response.bodySize := by
  obtain ⟨length, fields, value, same, parsed⟩ := readBack
  rw [parseResponse_fits clean (Or.inr short)] at parsed
  obtain rfl : response.fields (ascii response.shown) = fields :=
    congrArg ParsedResponse.fields (Option.some.inj parsed)
  have mem : (contentLengthName, length) ∈ response.fields (ascii response.shown) := by
    refine same.mem_iff.mpr ?_
    simp [HttpResponse.fields, keepAlive]
  simp only [HttpResponse.fields, keepAlive, Bool.false_eq_true, if_false, List.cons_append,
    List.nil_append, List.mem_cons] at mem
  rcases mem with here | other | header
  · rw [← (Prod.mk.inj here).2, value]
  · cases (Prod.mk.inj other).1
  · exact absurd rfl (clean.names _ header).2.2.2

/-- A length of at most 13 digits is written as it is. -/
theorem shown_of_small (small : response.bodySize < 10 ^ 13) :
    response.shown = decimal response.bodySize := by
  have value : response.contentLength.toInt = response.bodySize := by
    unfold HttpResponse.bodySize HttpResponse.contentLength at *
    split at small
    · next given =>
      rw [if_pos given, if_pos given]
      exact BitVec.toInt_eq_toNat_of_lt (by omega)
    · next none =>
      rw [if_neg none, if_neg none]
      rw [BitVec.toInt_eq_toNat_of_lt] <;> rw [BitVec.toNat_ofNat, Nat.mod_eq_of_lt] <;> omega
  rw [HttpResponse.shown, signedDecimal, value, if_neg (by omega)]
  rfl

/-- The bytes that `appendToBuffer` appends give back the response exactly when the connection is
closed behind it or its length has no more than 13 digits. -/
theorem readBack_iff (refined : b.Refines q) (clean : response.Clean)
    (returns : response.appendTo b = .ok b') :
    (∃ text, b'.content = b.content ++ text ∧ response.ReadBack text) ↔
      response.closeConnection = true ∨ response.bodySize < 10 ^ 13 := by
  have content := content_of_appends refined returns
  rw [pieces_flatten] at content
  have only : (∃ text, b'.content = b.content ++ text ∧ response.ReadBack text) ↔
      response.ReadBack (response.appendToBuffer []) := by
    constructor
    · rintro ⟨text, same, readBack⟩
      rw [content, List.append_cancel_left_eq] at same
      rw [same]
      exact readBack
    · intro readBack
      exact ⟨_, content, readBack⟩
  rw [only]
  constructor
  · intro readBack
    by_cases close : response.closeConnection = true
    · exact Or.inl close
    · rw [Bool.not_eq_true] at close
      right
      by_cases long : 13 < response.shown.length
      · exact absurd readBack (not_readBack_of_long clean close long)
      · have short := Nat.le_of_not_lt long
        have bound := lt_of_decimalValue (length_of_readBack clean close short readBack)
        rw [ascii, List.length_map] at bound
        exact Nat.lt_of_lt_of_le bound (Nat.pow_le_pow_right (by decide) short)
  · rintro (close | small)
    · have fields := parseResponse_fits clean (Or.inl close)
      refine ⟨ascii (decimal response.bodySize), _, decimalValue_decimal _, ?_, fields⟩
      rw [HttpResponse.fields, HttpResponse.fields, if_pos close, if_pos close]
    · have shown := shown_of_small small
      have short : response.shown.length ≤ 13 := by
        rw [shown]
        exact length_decimal (by decide) small
      have fields := parseResponse_fits clean (Or.inr short)
      refine ⟨ascii (decimal response.bodySize), _, decimalValue_decimal _, ?_, fields⟩
      rw [shown]

theorem exists_of_isOk {α : Type} {x : Checked α} (ok : x.isOk = true) : ∃ a, x = .ok a := by
  cases x with
  | error => cases ok
  | ok a => exact ⟨a, rfl⟩

/-- A response with one header and three bytes of body, on a connection that is kept. -/
def threeBytes : HttpResponse where
  statusCode := .k200Ok
  statusMessage := ascii ['O', 'K']
  headers := (∅ : Std.ExtTreeMap Bytes Bytes).insert (ascii ['A']) (ascii ['x', ':', ' ', 'y'])
  closeConnection := false
  body := [1, 2, 3]

theorem readBack_threeBytes : ∃ b' text, threeBytes.appendTo (.create 0) = .ok b' ∧
    b'.content = (Buffer.create 0).content ++ text ∧ threeBytes.ReadBack text := by
  have clean : threeBytes.Clean := ⟨by decide, by decide, by decide⟩
  obtain ⟨b', returns⟩ := exists_of_isOk (x := threeBytes.appendTo (.create 0)) (by decide +kernel)
  obtain ⟨text, content, readBack⟩ :=
    (readBack_iff (Refines.create 0) clean returns).mpr (Or.inr (by decide))
  exact ⟨b', text, returns, content, readBack⟩

/-- The response to a request for a file of 10^13 bytes. -/
def largeFile : HttpResponse where
  statusCode := .k200Ok
  closeConnection := false
  bodyLen := 10000000000000

/-- Its fourteen digits leave no room for the line feed, and the next line becomes part of the
length. -/
theorem largeFile_not_readBack : ∃ b', largeFile.appendTo (.create 0) = .ok b' ∧
    ¬∃ text, b'.content = (Buffer.create 0).content ++ text ∧ largeFile.ReadBack text := by
  have clean : largeFile.Clean := ⟨by decide, by decide, by decide⟩
  obtain ⟨b', returns⟩ := exists_of_isOk (x := largeFile.appendTo (.create 0)) (by decide +kernel)
  have content := content_of_appends (Refines.create 0) returns
  refine ⟨b', returns, ?_⟩
  rintro ⟨text, same, readBack⟩
  rw [content, List.append_cancel_left_eq, pieces_flatten] at same
  rw [← same] at readBack
  exact not_readBack_of_long clean rfl (by decide) readBack

end Yvent.Http
