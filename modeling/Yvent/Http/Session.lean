import Yvent.Connection.Draining
import Yvent.Http.Response
import Yvent.Http.Server

/-!
# A connection of the HTTP server on its loop

`HttpServer::onConnection`, `onMessage` and `onRequest` as user code of a `TcpConnection`. A callback
of the server is a `user` frame of the connection and a program point: what it calls on the
connection is executed by the frames above its own, and the other threads take steps in between.
`httpCallback_` may call the connection as often as it likes and fill the response with anything.

`log` records when `httpCallback_` is invoked and when `onRequest` issues a response. A response is
recorded with what `outBuffer_` holds in front of it, its text, the file that its callback has
attached last, and the trace of the connection up to then.
-/

namespace Yvent.Http

open TcpConnection

/-- `HttpServer` sets the connection and the message callback, and `TcpServer` the close callback. -/
def serverCallbacks : Callbacks :=
  { connection := true, message := true, close := true, writeComplete := false }

/-- The program points of `onConnection`, of `onMessage` and of the `onRequest` in it. -/
inductive CallbackPc
  | onConnection
  | parseRequest | sendBadRequest | shutdownBadRequest | parseDone
  | httpCallback (response : HttpResponse) (attached : Bytes)
  | send (response : HttpResponse) (attached : Bytes)
  | closeConnection (close : Bool)
  | reset

/-- A dispatch, or a response that is issued: whether it closes the connection, what was pending, its
text and its file, and the history of the connection at that point. -/
inductive Happening
  | invoked (request : HttpRequest)
  | issued (close : Bool) (pending text attached : Bytes) (trace : List Event)

/-- A connection with its `context_` and its `inBuffer_`. The callback that is executing is in the
`user` frame at the given depth of the stack. -/
structure Session where
  system : System
  context : Option HttpContext
  inBuffer : Bytes
  callback : Option (CallbackPc × Nat)
  log : List Happening

/-- What can happen next in a session. -/
inductive SessionLabel
  /-- The connection, its loop or another thread takes a step. -/
  | system (l : Label)
  /-- The callback takes a step. -/
  | go
  /-- `httpCallback_` calls the connection. -/
  | call (call : Call)
  /-- `httpCallback_` returns, having filled the response. -/
  | answer (fill : HttpResponse → HttpResponse)

namespace Session

/-- No callback has been invoked. -/
def start : Session :=
  { system := .start, context := none, inBuffer := [], callback := none, log := [] }

/-- The callback whose frame is executing. -/
def executing (s : Session) : Option CallbackPc :=
  match s.callback with
  | some (pc, depth) => if s.system.stack.length = depth then some pc else none
  | none => none

/-- The callback goes to another point. -/
def goto (s : Session) (pc : CallbackPc) : Session :=
  { s with callback := s.callback.map fun (_, depth) => (pc, depth) }

/-- The callback calls a function of the connection. -/
def call (s : Session) (call : Call) : Option Session :=
  (System.step serverCallbacks s.system (.call call)).map fun system => { s with system }

/-- The callback returns. -/
def ret (s : Session) : Option Session :=
  (System.step serverCallbacks s.system .ret).map fun system =>
    { s with system, callback := none }

/-- The connection has become `system`. A read and the end of `enableRead` begin a callback; the one
for a connection that is down does nothing. -/
def follow (s : Session) (l : Label) (system : System) : Session :=
  match top s.system.stack, l with
  | .enableRead .enable, .run _ =>
    { s with system := system, callback := some (.onConnection, system.stack.length) }
  | .handleRead, .run (.bytes (some (b :: data))) =>
    { s with
      system := system, inBuffer := s.inBuffer ++ b :: data,
      callback := some (.parseRequest, system.stack.length) }
  | _, _ => { s with system }

/-- The file of a response after one more call of its callback. -/
def attach (attached : Bytes) : Call → Bytes
  | .setSendFd _ file _ => file
  | .send _ | .shutdown | .forceClose => attached

/-- `onRequest` issues the response. -/
def issue (s : Session) (response : HttpResponse) (attached : Bytes) : Option Session :=
  let text := response.appendToBuffer []
  let happening : Happening :=
    .issued response.closeConnection s.system.conn.outBuffer text attached s.system.conn.trace
  { s.goto (.closeConnection response.closeConnection) with
    log := s.log ++ [happening] }.call (.send text)

/-- One step of the callback. There is none where the source dereferences a missing context, or
where `parseRequest` does not return. -/
def callbackStep (httpCallback : Bool) (s : Session) : CallbackPc → SessionLabel → Option Session
  | .onConnection, .go =>
    let context := if s.system.conn.state = ConnectionState.kConnected then some {} else s.context
    { s with context := context }.ret
  | .parseRequest, .go =>
    s.context.bind fun context =>
      (Http.parseRequest context s.inBuffer).map fun (result, context, inBuffer) =>
        { s.goto (if result then .parseDone else .sendBadRequest) with
          context := some context, inBuffer := inBuffer }
  | .sendBadRequest, .go => (s.goto .shutdownBadRequest).call (.send badRequest)
  | .shutdownBadRequest, .go => (s.goto .parseDone).call .shutdown
  | .parseDone, .go =>
    s.context.bind fun context =>
      if context.parseDone then
        let response : HttpResponse := { closeConnection := context.request.close }
        if httpCallback then
          some { s.goto (.httpCallback response []) with log := s.log ++ [.invoked context.request] }
        else some (s.goto (.send response []))
      else s.ret
  | .httpCallback response attached, .call call =>
    (s.goto (.httpCallback response (attach attached call))).call call
  | .httpCallback response attached, .answer fill => some (s.goto (.send (fill response) attached))
  | .send response attached, .go => s.issue response attached
  | .closeConnection close, .go =>
    if close then (s.goto .reset).call .shutdown else some (s.goto .reset)
  | .reset, .go => { s with context := s.context.map HttpContext.reset }.ret
  | _, _ => none

/-- A step of the session. While a callback of the server is executing, no other user code is. -/
def step (httpCallback : Bool) (s : Session) : SessionLabel → Option Session
  | .system l =>
    if s.executing.isSome ∧ l.ofUser then none
    else (System.step serverCallbacks s.system l).map (s.follow l)
  | l => s.executing.bind fun pc => s.callbackStep httpCallback pc l

end Session

end Yvent.Http
