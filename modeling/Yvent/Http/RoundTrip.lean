import Yvent.Http.Grammar

/-!
# Requests are read back

A request is written with any spelling of its path in percent escapes, with its header lines in any
order and with any blanks behind their colons. The parser reads it back: the method, the version,
the path, the query and the header map are those it was written from, and nothing behind it is
touched.
-/

namespace Yvent.Http

open Buffer

/-! ## The path -/

/-- The character of a hexadecimal digit. -/
def hexChar (upper : Bool) (n : Fin 16) : UInt8 :=
  if n.val < 10 then (48 + n.val).toUInt8
  else if upper then (55 + n.val).toUInt8 else (87 + n.val).toUInt8

/-- The first digit of an escape. -/
def highNibble (b : UInt8) : Fin 16 := ⟨b.toNat / 16, by have := b.toNat_lt; omega⟩

/-- The second digit of an escape. -/
def lowNibble (b : UInt8) : Fin 16 := ⟨b.toNat % 16, by omega⟩

/-- How a byte of the path is written: as itself, or as `%hh` with either case for each digit. -/
inductive Spelling
  | itself
  | escaped (upper₁ upper₂ : Bool)
  deriving DecidableEq, Repr

/-- A byte of the path as the request spells it. -/
def spell : UInt8 × Spelling → Bytes
  | (b, .itself) => [b]
  | (b, .escaped upper₁ upper₂) =>
    [PERCENT, hexChar upper₁ (highNibble b), hexChar upper₂ (lowNibble b)]

/-- A percent-encoding of a path. -/
def encode (path : List (UInt8 × Spelling)) : Bytes := path.flatMap spell

/-- A byte that may stand for itself in the path. -/
def Unreserved (b : UInt8) : Prop :=
  b ≠ PERCENT ∧ b ≠ SP ∧ b ≠ QUESTION ∧ b ≠ CR ∧ b ≠ LF

instance (b : UInt8) : Decidable (Unreserved b) := inferInstanceAs (Decidable (_ ∧ _))

theorem hexDigit_hexChar (upper : Bool) (n : Fin 16) :
    hexDigit (hexChar upper n) = some n.val.toUInt8 := by
  revert upper n
  decide

theorem unreserved_hexChar (upper : Bool) (n : Fin 16) : Unreserved (hexChar upper n) := by
  revert upper n
  decide

theorem nibbles (b : UInt8) :
    ((highNibble b).val.toUInt8 <<< 4) + (lowNibble b).val.toUInt8 = b := by
  have bound := b.toNat_lt
  apply UInt8.toNat_inj.mp
  simp only [highNibble, lowNibble, UInt8.toNat_add, UInt8.toNat_shiftLeft, Nat.toUInt8_eq,
    UInt8.toNat_ofNat', UInt8.reduceToNat, Nat.shiftLeft_eq]
  rw [show 2 ^ (4 % 8) = 16 from rfl]
  omega

/-- The scanner reads back what a byte was spelled as. -/
theorem pathBytes_spell (after : UInt8) {b : UInt8} {spelling : Spelling}
    (plain : spelling = .itself → Unreserved b) (rest : Bytes) :
    pathBytes after .kStart (spell (b, spelling) ++ rest) = b :: pathBytes after .kStart rest := by
  cases spelling with
  | itself => simp [spell, pathBytes, (plain rfl).1]
  | escaped upper₁ upper₂ =>
    simp only [spell, List.cons_append, List.nil_append, pathBytes, if_true, hexDigit_hexChar,
      nibbles]

theorem pathBytes_encode (after : UInt8) {path : List (UInt8 × Spelling)}
    (plain : ∀ p ∈ path, p.2 = .itself → Unreserved p.1) :
    pathBytes after .kStart (encode path) = path.map Prod.fst := by
  induction path with
  | nil => rfl
  | cons p path ih =>
    obtain ⟨first, others⟩ := List.forall_mem_cons.mp plain
    rw [encode, List.flatMap_cons, List.map_cons, pathBytes_spell after first]
    exact congrArg _ (ih others)

/-- No byte of an encoded path ends the path or the line. -/
theorem not_mem_encode {c : UInt8} (ends : c = SP ∨ c = QUESTION ∨ c = CR ∨ c = LF)
    {path : List (UInt8 × Spelling)} (plain : ∀ p ∈ path, p.2 = .itself → Unreserved p.1) :
    c ∉ encode path := by
  intro mem
  obtain ⟨⟨b, spelling⟩, inPath, mem⟩ := List.mem_flatMap.mp mem
  have other : ∀ d, Unreserved d → c ≠ d := by
    rintro d ⟨-, space, question, cr, lf⟩ rfl
    rcases ends with here | here | here | here <;> contradiction
  cases spelling with
  | itself => exact other b (plain _ inPath rfl) (List.mem_singleton.mp mem)
  | escaped upper₁ upper₂ =>
    rcases List.mem_cons.mp mem with here | mem
    · rcases ends with rfl | rfl | rfl | rfl <;> cases here
    rcases List.mem_cons.mp mem with here | mem
    · exact other _ (unreserved_hexChar upper₁ _) here
    · exact other _ (unreserved_hexChar upper₂ _) (List.mem_singleton.mp mem)

/-! ## The header lines -/

/-- A header line: the name, the blanks behind the colon and the value. -/
structure Field where
  name : Bytes
  blanks : Bytes
  value : Bytes
  nameBytes : ∀ b ∈ name, b ≠ COLON ∧ b ≠ CR ∧ b ≠ LF
  blankBytes : ∀ b ∈ blanks, isspace b = true ∧ b ≠ CR ∧ b ≠ LF
  valueBytes : ∀ b ∈ value, b ≠ CR ∧ b ≠ LF
  noLeading : ∀ b ∈ value.head?, isspace b = false
  noTrailing : ∀ b ∈ value.getLast?, isspace b = false

/-- A header line without its line end. -/
def Field.line (f : Field) : Bytes := f.name ++ COLON :: (f.blanks ++ f.value)

/-- The entry of the header map that the line stands for. -/
def Field.entry (f : Field) : Bytes × Bytes := (f.name, f.value)

theorem oneLine_of_not_mem {line : Bytes} (absent : LF ∉ line) : OneLine line := by
  by_contra found
  obtain ⟨n, found⟩ := Option.ne_none_iff_exists'.mp found
  obtain ⟨before, rest, rfl, -, -⟩ := line_of_findCRLF found
  apply absent
  simp [kCRLF]

theorem Field.oneLine (f : Field) : OneLine f.line := by
  apply oneLine_of_not_mem
  rw [line, List.mem_append, List.mem_cons, List.mem_append]
  rintro (mem | here | mem | mem)
  · exact (f.nameBytes _ mem).2.2 rfl
  · cases here
  · exact (f.blankBytes _ mem).2.2 rfl
  · exact (f.valueBytes _ mem).2 rfl

theorem dropWhile_append_of_forall {p : UInt8 → Bool} {front : Bytes}
    (all : ∀ b ∈ front, p b = true) (rest : Bytes) :
    (front ++ rest).dropWhile p = rest.dropWhile p := by
  induction front with
  | nil => rfl
  | cons b front ih =>
    obtain ⟨first, others⟩ := List.forall_mem_cons.mp all
    rw [List.cons_append, List.dropWhile_cons_of_pos first, ih others]

/-- The blanks are dropped and the value is kept whole. -/
theorem Field.trimmed (f : Field) :
    ((f.blanks ++ f.value).dropWhile isspace).rdropWhile isspace = f.value := by
  rw [dropWhile_append_of_forall fun b mem => (f.blankBytes b mem).1]
  have front : f.value.dropWhile isspace = f.value := by
    cases value : f.value with
    | nil => rfl
    | cons b rest =>
      have first := f.noLeading b (by simp [value])
      rw [List.dropWhile_cons_of_neg (by simp [first])]
  rw [front, List.rdropWhile_eq_self_iff]
  intro nonempty
  rw [f.noTrailing _ (List.getLast?_eq_getLast_of_ne_nil nonempty)]
  exact Bool.false_ne_true

theorem splitAtByte_line (f : Field) :
    splitAtByte COLON f.line = some (f.name, f.blanks ++ f.value) :=
  splitAtByte_append _ fun mem => (f.nameBytes _ mem).1 rfl

/-- The header lines are taken one by one into the map. -/
theorem parseRequest_fields (fields : List Field) (req : HttpRequest) (later : Bytes) :
    parseRequest ⟨.headers, req⟩ (headerBlock (fields.map Field.line) ++ later) =
      some (true, ⟨.allDone, { req with
        headers := req.headers.insertMany (fields.map Field.entry) }⟩, later) := by
  induction fields generalizing req with
  | nil =>
    have found : findCRLF (kCRLF ++ later) = some 0 := rfl
    rw [parseRequest_eq (Or.inr rfl)]
    simp only [parseTurn, headerBlock, List.map_nil, found, List.take_zero, splitAtByte_nil]
    rfl
  | cons f fields ih =>
    have found := findCRLF_line f.oneLine (headerBlock (fields.map Field.line) ++ later)
    rw [parseRequest_eq (Or.inr rfl), List.map_cons, headerBlock, List.append_assoc,
      List.append_assoc]
    simp only [parseTurn, found, List.take_left, splitAtByte_line, retrieveUntil_line]
    rw [ih, HttpRequest.addHeader, f.trimmed, List.map_cons, Std.ExtTreeMap.insertMany_cons]
    rfl

/-- Any order of the entries of a map gives the map. -/
theorem insertMany_of_perm {entries : List (Bytes × Bytes)} {headers : Std.ExtTreeMap Bytes Bytes}
    (same : entries.Perm headers.toList) :
    (∅ : Std.ExtTreeMap Bytes Bytes).insertMany entries = headers := by
  have distinct : entries.Pairwise fun a b => ¬compare a.1 b.1 = .eq :=
    headers.distinct_keys_toList.perm same.symm fun ne eq => ne (Std.OrientedCmp.eq_symm eq)
  rw [← Std.ExtTreeMap.ofList_eq_insertMany_empty]
  apply Std.ExtTreeMap.ext_getElem?
  intro key
  cases entry : headers[key]? with
  | some value =>
    have mem := same.mem_iff.mpr (Std.ExtTreeMap.mem_toList_iff_getElem?_eq_some.mpr entry)
    exact Std.ExtTreeMap.getElem?_ofList_of_mem Std.ReflCmp.compare_self distinct mem
  | none =>
    apply Std.ExtTreeMap.getElem?_ofList_of_contains_eq_false
    rw [← Bool.not_eq_true, List.contains_iff_mem]
    intro mem
    obtain ⟨⟨key', value⟩, listed, rfl⟩ := List.mem_map.mp mem
    have present := Std.ExtTreeMap.mem_toList_iff_getElem?_eq_some.mp (same.mem_iff.mp listed)
    rw [entry] at present
    cases present

/-! ## Requests -/

/-- A request and one way of writing it: a spelling of the path and an order of the header
lines. -/
structure RequestText where
  method : Method
  path : List (UInt8 × Spelling)
  query : Bytes
  version : Version
  headers : Std.ExtTreeMap Bytes Bytes
  fields : List Field
  knownMethod : method ≠ .invalid
  knownVersion : version ≠ .unknown
  plain : ∀ p ∈ path, p.2 = .itself → Unreserved p.1
  queryStart : query = [] ∨ query.head? = some QUESTION
  queryBytes : ∀ b ∈ query, b ≠ SP ∧ b ≠ CR ∧ b ≠ LF
  listed : (fields.map Field.entry).Perm headers.toList

namespace RequestText

variable (t : RequestText)

/-- `METHOD SP encoded-path query SP version CRLF`, the header lines and the empty line. -/
def bytes : Bytes :=
  requestLine t.method (encode t.path ++ t.query) t.version ++
    (kCRLF ++ headerBlock (t.fields.map Field.line))

/-- The request that was written. -/
def request : HttpRequest where
  method := t.method
  version := t.version
  path := t.path.map Prod.fst
  query := t.query
  headers := t.headers

theorem lf_not_mem_version (v : Version) : LF ∉ v.text := by
  cases v <;> decide

theorem lf_not_mem_method (m : Method) : LF ∉ m.methodString := by
  cases m <;> decide

theorem not_mem_target {c : UInt8} (ends : c = SP ∨ c = LF) : c ∉ encode t.path ++ t.query := by
  intro mem
  rcases List.mem_append.mp mem with mem | mem
  · exact not_mem_encode (by rcases ends with rfl | rfl <;> simp) t.plain mem
  · obtain ⟨space, -, lf⟩ := t.queryBytes c mem
    rcases ends with rfl | rfl <;> contradiction

theorem oneLine_requestLine :
    OneLine (requestLine t.method (encode t.path ++ t.query) t.version) := by
  apply oneLine_of_not_mem
  rw [requestLine, List.mem_append, List.mem_cons, List.mem_append, List.mem_cons]
  rintro (mem | here | mem | here | mem)
  · exact lf_not_mem_method _ mem
  · cases here
  · exact t.not_mem_target (Or.inr rfl) mem
  · cases here
  · exact lf_not_mem_version _ mem

/-- The target is cut at its first question mark and the path is decoded. -/
theorem parseTarget_eq (m : Method) :
    parseTarget { method := m } (encode t.path ++ t.query) =
      { method := m, path := t.path.map Prod.fst, query := t.query } := by
  have noQuestion : QUESTION ∉ encode t.path := not_mem_encode (Or.inr (Or.inl rfl)) t.plain
  rcases t.queryStart with noQuery | starts
  · have uncut : splitAtByte QUESTION (encode t.path ++ []) = none := by
      rw [List.append_nil]
      exact splitAtByte_eq_none noQuestion
    rw [parseTarget, noQuery, uncut]
    simp [HttpRequest.setPath, pathBytes_encode SP t.plain]
  · obtain ⟨rest, query⟩ : ∃ rest, t.query = QUESTION :: rest := by
      cases query : t.query with
      | nil =>
        rw [query] at starts
        cases starts
      | cons b rest =>
        rw [query] at starts
        cases starts
        exact ⟨rest, rfl⟩
    rw [parseTarget, query, splitAtByte_append rest noQuestion]
    simp [HttpRequest.setPath, HttpRequest.setQuery, pathBytes_encode QUESTION t.plain]

theorem parseRequestLine_eq :
    parseRequestLine {} (requestLine t.method (encode t.path ++ t.query) t.version) =
      (true, { t.request with headers := ∅ }) := by
  have method := splitAtByte_append ((encode t.path ++ t.query) ++ SP :: t.version.text)
    (space_not_mem_methodString t.method)
  have target := splitAtByte_append t.version.text (t.not_mem_target (Or.inl rfl))
  have set : HttpRequest.setMethod {} t.method.methodString = (true, { method := t.method }) := by
    rw [HttpRequest.setMethod, methodOf_methodString t.knownMethod]
    simp [t.knownMethod]
  rw [parseRequestLine, requestLine, method]
  simp only [set, if_true, target, parseTarget_eq, parseVersion_text t.knownVersion]
  rfl

end RequestText

/-- A fresh context reads back the request that a text was written from, and leaves what follows
the text unread. -/
theorem parseRequest_roundTrip (t : RequestText) (z : Bytes) :
    parseRequest {} (t.bytes ++ z) = some (true, ⟨.allDone, t.request⟩, z) := by
  have found := findCRLF_line t.oneLine_requestLine (headerBlock (t.fields.map Field.line) ++ z)
  rw [parseRequest_eq parsing_fresh, RequestText.bytes, List.append_assoc, List.append_assoc]
  simp only [parseTurn, found, List.take_left, t.parseRequestLine_eq, retrieveUntil_line]
  rw [parseRequest_fields, insertMany_of_perm t.listed]
  rfl

theorem forall_mem_of_all {p : UInt8 → Prop} [DecidablePred p] {bs : Bytes}
    (all : bs.all (fun b => decide (p b)) = true) : ∀ b ∈ bs, p b := by
  simpa using all

/-- `"PUT /%20a?b HTTP/1.0\r\nHost: x\r\n\r\n"` -/
def putSpace : RequestText where
  method := .put
  path := [(47, .itself), (SP, .escaped false false), (97, .itself)]
  query := [QUESTION, 98]
  version := .http10
  headers := (∅ : Std.ExtTreeMap Bytes Bytes).insert (ascii ['H', 'o', 's', 't']) [120]
  fields := [⟨ascii ['H', 'o', 's', 't'], [SP], [120], forall_mem_of_all (by decide),
    forall_mem_of_all (by decide), forall_mem_of_all (by decide), by simp [isspace],
    by simp [isspace]⟩]
  knownMethod := by decide
  knownVersion := by decide
  plain := by decide
  queryStart := by decide
  queryBytes := forall_mem_of_all (by decide)
  listed := by decide

example : putSpace.bytes = ascii ['P', 'U', 'T', ' ', '/', '%', '2', '0', 'a', '?', 'b', ' ', 'H',
    'T', 'T', 'P', '/', '1', '.', '0', '\r', '\n', 'H', 'o', 's', 't', ':', ' ', 'x', '\r', '\n',
    '\r', '\n'] := by decide

end Yvent.Http
