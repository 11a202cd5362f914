import Yvent.Http.ReadBack
import Yvent.Misc.Framing

/-!
# Responses one behind the other

On a connection that is kept alive the responses follow each other without a gap. A client finds the
end of each by its `Content-Length`: what comes out of a stream of responses, cut into reads in any
way, are the responses, with the files that were sent behind their heads.
-/

namespace Yvent.Http

open Buffer

variable {response : HttpResponse} {text more behind name value : Bytes} {lines : List Bytes}
  {fuel fuel' : Nat} {p : ParsedResponse}

/-! ## Taking a response off a stream -/

namespace ParsedResponse

/-- The first line. -/
def statusLine (p : ParsedResponse) : Bytes :=
  ascii (['H', 'T', 'T', 'P', '/', '1', '.', '1', ' '] ++ decimal p.code ++ [' ']) ++ p.message

/-- The text of a response. -/
def bytes (p : ParsedResponse) : Bytes :=
  headerBlock (p.statusLine :: p.fields.map fieldLine) ++ p.body

end ParsedResponse

namespace HttpResponse

/-- What a client is to get. -/
def received (response : HttpResponse) (file : Bytes) : ParsedResponse where
  code := response.statusCode.code
  message := response.statusMessage
  fields := response.fields (ascii (decimal response.bodySize))
  body := response.body ++ file

/-- The connection stays, the response announces what is sent, and its length has no more digits than
the line on it has room for. -/
structure Kept (response : HttpResponse) (file : Bytes) : Prop where
  keepAlive : response.closeConnection = false
  clean : response.Clean
  announced : response.bodySize = response.body.length + file.length
  small : response.bodySize < 10 ^ 13

end HttpResponse

end Yvent.Http
