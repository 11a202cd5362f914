import Yvent.Http.Context

/-!
# The HTTP server's side of a connection

`HttpServer::onMessage` runs after each read with the connection's context and input buffer. What
it does to the connection and to the application is logged in order.
-/

namespace Yvent.Http

/-- `"HTTP/1.1 400 Bad Request\r\n\r\n"` -/
def badRequest : Bytes :=
  ascii ['H', 'T', 'T', 'P', '/', '1', '.', '1', ' ', '4', '0', '0', ' ', 'B', 'a', 'd', ' ',
    'R', 'e', 'q', 'u', 'e', 's', 't', '\r', '\n', '\r', '\n']

/-- What the server does on a connection. -/
inductive Action
  | send (data : Bytes)
  | shutdown
  | onRequest (req : HttpRequest)

/-- A connection of the server; `onConnection` gives it a new context. -/
structure Connection where
  context : HttpContext := {}
  inBuffer : Bytes := []
  log : List Action := []

/-- `HttpServer::onMessage`. There is no result when `parseRequest` does not return. -/
def Connection.onMessage (conn : Connection) : Option Connection :=
  (parseRequest conn.context conn.inBuffer).map fun (result, context, inBuffer) =>
    let log := if result then conn.log else conn.log ++ [.send badRequest, .shutdown]
    if context.parseDone then
      { context := context.reset, inBuffer, log := log ++ [.onRequest context.request] }
    else { context, inBuffer, log }

/-- `TcpConnection::handleRead` with a read of `chunk`, and the message callback after it. -/
def Connection.deliver (conn : Connection) (chunk : Bytes) : Option Connection :=
  { conn with inBuffer := conn.inBuffer ++ chunk }.onMessage

/-- The reads of a connection one after another. -/
def Connection.deliverAll (conn : Connection) (chunks : List Bytes) : Option Connection :=
  chunks.foldlM Connection.deliver conn

/-- The request of a dispatch. -/
def Action.request? : Action → Option HttpRequest
  | .onRequest req => some req
  | .send _ => none
  | .shutdown => none

/-- The requests `onRequest` was called with. -/
def Connection.requests (conn : Connection) : List HttpRequest :=
  conn.log.filterMap Action.request?

theorem deliverAll_concat (conn : Connection) (chunks : List Bytes) (chunk : Bytes) :
    conn.deliverAll (chunks ++ [chunk]) =
      (conn.deliverAll chunks).bind fun conn' => conn'.deliver chunk := by
  simp [Connection.deliverAll, List.foldlM_append]

/-- A read on which the parser waits calls nothing. -/
theorem deliver_of_waits {conn : Connection} {chunk rest : Bytes} {c : HttpContext}
    (returns : parseRequest conn.context (conn.inBuffer ++ chunk) = some (true, c, rest))
    (unfinished : c.state ≠ .allDone) :
    conn.deliver chunk = some { context := c, inBuffer := rest, log := conn.log } := by
  have notDone : c.parseDone = false := decide_eq_false unfinished
  simp only [Connection.deliver, Connection.onMessage, returns, Option.map_some, notDone,
    if_true, Bool.false_eq_true, if_false]

/-- A read that completes a request calls `onRequest` once and starts a new context. -/
theorem deliver_of_done {conn : Connection} {chunk rest : Bytes} {req : HttpRequest}
    (returns : parseRequest conn.context (conn.inBuffer ++ chunk) =
      some (true, ⟨.allDone, req⟩, rest)) :
    conn.deliver chunk =
      some { context := {}, inBuffer := rest, log := conn.log ++ [.onRequest req] } := by
  have done : HttpContext.parseDone ⟨.allDone, req⟩ = true := rfl
  simp only [Connection.deliver, Connection.onMessage, returns, Option.map_some, done, if_true]
  rfl

end Yvent.Http
