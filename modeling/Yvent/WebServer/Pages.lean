import Yvent.Http.Exchange
import Yvent.WebServer.Positions

/-!
# The pages of the web server

A path names a file below `dirfd`, or a directory with an index file. On a file system that stays as
it is, a client gets what the path names, with the type that goes with the extension, or nothing and
the code 404. It gets the code 0 with a page, since `onRequest` sets no other.
-/

namespace Yvent.WebServer

open Http

variable {fs : FileSystem} {contents : Int → Bytes} {path dir suffix s rest : Bytes} {pos n : Nat}
  {stats : Stat} {req : HttpRequest} {served : Served}

/-! ## What a path names -/

/-- What is behind the last dot. -/
def extension (name : Bytes) : Bytes := (name.reverse.takeWhile (· ≠ DOT)).reverse

/-- `onRequest` returns. -/
def Returns (fs : FileSystem) (req : HttpRequest) : Prop :=
  ∃ served, (onRequest fs req { closeConnection := req.close }).2 = .ok served

end Yvent.WebServer
