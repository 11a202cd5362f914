import Yvent.Http.Request

/-!
# HTTP responses

`HttpResponse` and the text that `appendToBuffer` makes of it. The numbers of the text go through a
buffer of 32 characters, of which `snprintf` fills 31 at most.
-/

namespace Yvent.Http

/-- The status codes of a response. -/
inductive HttpStatusCode
  | kUnknown | k200Ok | k301MovedPermanently | k400BadRequest | k404NotFound
  deriving DecidableEq, Repr

/-- The number of a status code. -/
def HttpStatusCode.code : HttpStatusCode → Nat
  | .kUnknown => 0
  | .k200Ok => 200
  | .k301MovedPermanently => 301
  | .k400BadRequest => 400
  | .k404NotFound => 404

/-- A response as the user fills it. -/
structure HttpResponse where
  statusCode : HttpStatusCode := .kUnknown
  headers : Std.ExtTreeMap Bytes Bytes := ∅
  statusMessage : Bytes := []
  closeConnection : Bool
  body : Bytes := []
  bodyLen : BitVec 64 := 0

/-- The first `sizeof buf - 1` characters of a text. -/
def snprintf (text : List Char) : Bytes := ascii (text.take 31)

/-- `%zd`, which reads the `size_t` as a signed number. -/
def signedDecimal (n : Int) : List Char :=
  if n < 0 then '-' :: decimal n.natAbs else decimal n.natAbs

namespace HttpResponse

/-- The status code of the response. -/
def setStatusCode (response : HttpResponse) (statusCode : HttpStatusCode) : HttpResponse :=
  { response with statusCode }

/-- `setBodyLen(bodyLen)`, whose argument becomes a `size_t`. -/
def setBodyLen (response : HttpResponse) (bodyLen : Int) : HttpResponse :=
  { response with bodyLen := BitVec.ofInt 64 bodyLen }

/-- `headers_[key] = value` -/
def addHeader (response : HttpResponse) (key value : Bytes) : HttpResponse :=
  { response with headers := response.headers.insert key value }

/-- The header of the content type. -/
def setContentType (response : HttpResponse) (contentType : Bytes) : HttpResponse :=
  response.addHeader (ascii ['C', 'o', 'n', 't', 'e', 'n', 't', '-', 'T', 'y', 'p', 'e']) contentType

/-- The number after `Content-Length`. -/
def contentLength (response : HttpResponse) : BitVec 64 :=
  if response.bodyLen ≠ 0 then response.bodyLen else BitVec.ofNat 64 response.body.length

/-- The lines on the length and on the connection. -/
def connectionLines (response : HttpResponse) : Bytes :=
  if response.closeConnection then
    ascii ['C', 'o', 'n', 'n', 'e', 'c', 't', 'i', 'o', 'n', ':', ' ', 'c', 'l', 'o', 's', 'e',
      '\r', '\n']
  else
    snprintf (['C', 'o', 'n', 't', 'e', 'n', 't', '-', 'L', 'e', 'n', 'g', 't', 'h', ':', ' '] ++
      signedDecimal response.contentLength.toInt ++ ['\r', '\n']) ++
    ascii ['C', 'o', 'n', 'n', 'e', 'c', 't', 'i', 'o', 'n', ':', ' ', 'K', 'e', 'e', 'p', '-',
      'A', 'l', 'i', 'v', 'e', '\r', '\n']

/-- The headers in the order of their keys. -/
def headerLines (headers : Std.ExtTreeMap Bytes Bytes) : Bytes :=
  headers.toList.flatMap fun (key, value) => key ++ ascii [':', ' '] ++ value ++ [CR, LF]

/-- The text of the response is appended to `output`. -/
def appendToBuffer (response : HttpResponse) (output : Bytes) : Bytes :=
  output ++ snprintf (['H', 'T', 'T', 'P', '/', '1', '.', '1', ' '] ++
    decimal response.statusCode.code ++ [' ']) ++ response.statusMessage ++ [CR, LF] ++
    response.connectionLines ++ headerLines response.headers ++ [CR, LF] ++ response.body

end HttpResponse

/-- `getHeader(key)`, which is empty for a header that the request does not have. -/
def HttpRequest.getHeader (req : HttpRequest) (key : Bytes) : Bytes := req.headers.getD key []

/-- What `onRequest` gives the constructor of the response. -/
def HttpRequest.close (req : HttpRequest) : Bool :=
  let connection :=
    req.getHeader (ascii ['C', 'o', 'n', 'n', 'e', 'c', 't', 'i', 'o', 'n'])
  connection = ascii ['c', 'l', 'o', 's', 'e'] ||
    (req.version = .http10 && connection ≠ ascii ['K', 'e', 'e', 'p', '-', 'A', 'l', 'i', 'v', 'e'])

end Yvent.Http
