import Yvent.Misc.Bytes
import Mathlib.Data.List.DropRight

/-!
# HTTP requests

`HttpRequest` with the setters the parser fills it through. `setPath` decodes percent escapes
with a two-state scanner that reads up to one byte past the end of its range; `after` is that
byte, the space or the question mark which ends the path in the request line.
-/

namespace Yvent.Http

/-- The methods of a request. -/
inductive Method
  | invalid | get | post | head | put | delete
  deriving DecidableEq, Repr

/-- The versions of the protocol. -/
inductive Version
  | unknown | http10 | http11
  deriving DecidableEq, Repr

/-- A request as the parser fills it. -/
structure HttpRequest where
  method : Method := .invalid
  version : Version := .unknown
  path : Bytes := []
  query : Bytes := []
  headers : Std.ExtTreeMap Bytes Bytes := ∅

/-- `methodString()`. -/
def Method.methodString : Method → Bytes
  | .get => ascii ['G', 'E', 'T']
  | .post => ascii ['P', 'O', 'S', 'T']
  | .head => ascii ['H', 'E', 'A', 'D']
  | .put => ascii ['P', 'U', 'T']
  | .delete => ascii ['D', 'E', 'L', 'E', 'T', 'E']
  | .invalid => ascii ['U', 'N', 'K', 'N', 'O', 'W', 'N']

/-- The comparisons of `setMethod`. -/
def methodOf (m : Bytes) : Method :=
  if m = ascii ['G', 'E', 'T'] then .get
  else if m = ascii ['P', 'O', 'S', 'T'] then .post
  else if m = ascii ['H', 'E', 'A', 'D'] then .head
  else if m = ascii ['P', 'U', 'T'] then .put
  else if m = ascii ['D', 'E', 'L', 'E', 'T', 'E'] then .delete
  else .invalid

/-- `isspace` in the C locale. -/
def isspace (c : UInt8) : Bool := c = 32 || (9 ≤ c && c ≤ 13)

/-- The value of a hexadecimal digit: `isdigit`, or a letter brought to lower case. -/
def hexDigit (c : UInt8) : Option UInt8 :=
  if 48 ≤ c && c ≤ 57 then some (c - 48)
  else
    let lower := c ||| 0x20
    if 97 ≤ lower && lower ≤ 102 then some (lower - 97 + 10) else none

/-- The states of the loop of `setPath`. -/
inductive PathState
  | kStart | kPercent
  deriving DecidableEq, Repr

/-- The loop of `setPath`: the bytes it appends to `path_`. A byte after `%` that is no digit is
dropped and the scanner stays in `kPercent`; so is a pair whose second byte is no digit. -/
def pathBytes (after : UInt8) : PathState → Bytes → Bytes
  | _, [] => []
  | .kStart, c :: rest =>
    if c = PERCENT then pathBytes after .kPercent rest else c :: pathBytes after .kStart rest
  | .kPercent, [c] =>
    match hexDigit c, hexDigit after with
    | some hex1, some hex2 => [(hex1 <<< 4) + hex2]
    | _, _ => []
  | .kPercent, c :: d :: rest =>
    match hexDigit c with
    | none => pathBytes after .kPercent (d :: rest)
    | some hex1 =>
      match hexDigit d with
      | none => pathBytes after .kPercent rest
      | some hex2 => ((hex1 <<< 4) + hex2) :: pathBytes after .kStart rest

namespace HttpRequest

/-- The version of the request. -/
def setVersion (req : HttpRequest) (v : Version) : HttpRequest := { req with version := v }

/-- `setMethod(start, end)`, which returns whether the method is known. Its assertion on `method_`
is compiled out of a release build. -/
def setMethod (req : HttpRequest) (m : Bytes) : Bool × HttpRequest :=
  (methodOf m ≠ .invalid, { req with method := methodOf m })

/-- The decoded bytes are appended to `path_`. `after` is the byte behind the range. -/
def setPath (req : HttpRequest) (range : Bytes) (after : UInt8) : HttpRequest :=
  { req with path := req.path ++ pathBytes after .kStart range }

/-- The query with its question mark. -/
def setQuery (req : HttpRequest) (range : Bytes) : HttpRequest := { req with query := range }

/-- `addHeader(start, colon, end)`: `key` ends at the colon and `rest` follows it. -/
def addHeader (req : HttpRequest) (key rest : Bytes) : HttpRequest :=
  { req with headers := req.headers.insert key ((rest.dropWhile isspace).rdropWhile isspace) }

end HttpRequest

/-- A known method is read back from its own text. -/
theorem methodOf_methodString {m : Method} (known : m ≠ .invalid) :
    methodOf m.methodString = m := by
  cases m with
  | invalid => exact absurd rfl known
  | get | post | head | put | delete => decide

theorem space_not_mem_methodString (m : Method) : SP ∉ m.methodString := by
  cases m <;> decide

end Yvent.Http
