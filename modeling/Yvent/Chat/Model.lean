import Yvent.Codec.Messages
import Yvent.Connection.Model
import Yvent.Misc.Broadcast
import Yvent.Misc.OrderedSet

/-!
# The chat

`ChatServer` and any number of `ChatClient`s, each with its connection: the two `TcpConnection`s at
its ends and the bytes that are on their way between them, in `outBuffer_` and in the network. Reads
take any part of these bytes, in order; connections open and close at any time. A pointer to a
connection is an element of `Conn`, which orders `connections_`.

The server runs on one loop, so its callbacks are executed as a whole. `said`, `shown` and `history`
record what the users have typed in, what has been printed for them and what has happened at the
server.
-/

namespace Yvent

namespace Chat

open LenHeaderCodec
open Buffer (Checked Fault)
open Broadcast (Happening Post)

/-- A `TcpConnection` at one end. -/
structure End where
  state : ConnectionState
  inBuffer : Bytes
  deriving DecidableEq, Repr

/-- A connection: its two ends, what is on the way between them, what its user said and was shown.
-/
structure Link where
  client : End
  server : End
  toServer : Bytes
  toClient : Bytes
  said : List Bytes
  shown : List Bytes
  deriving DecidableEq, Repr

namespace Link

/-- The client's end is connected; the server has yet to accept the connection. -/
def create : Link where
  client := { state := .kConnected, inBuffer := [] }
  server := { state := .kConnecting, inBuffer := [] }
  toServer := []
  toClient := []
  said := []
  shown := []

/-- `send` of the server's end. -/
def serverSend (k : Link) (bytes : Bytes) : Link :=
  if k.server.state = .kConnected then { k with toClient := k.toClient ++ bytes } else k

/-- `shutdown` of the client's end. -/
def clientShutdown (k : Link) : Link :=
  if k.client.state = .kConnected then
    { k with client := { k.client with state := .kDisconnecting } }
  else k

/-- The server's end goes to a state. -/
def setServer (k : Link) (state : ConnectionState) : Link :=
  { k with server := { k.server with state } }

/-- `ChatClient::onMessage`. -/
def print (message : Bytes) (k : Link) : Checked Link :=
  .ok { k with shown := k.shown ++ [message] }

end Link

/-- The channel of an end is registered. -/
def reads : ConnectionState → Bool
  | .kConnected | .kDisconnecting => true
  | .kConnecting | .kDisconnected => false

/-- The server's set of connections and the links, with the history of the room. -/
structure System (Conn : Type) [LinearOrder Conn] where
  connections : OrderedSet Conn
  links : Conn → Option Link
  fault : Option Fault
  history : List (Happening Conn Bytes)

/-- What can happen next. -/
inductive Label (Conn : Type) where
  | connect (c : Conn)
  | accept (c : Conn)
  /-- The user of a client that is online enters a line. -/
  | say (c : Conn) (message : Bytes)
  | serverRead (c : Conn) (n : Nat)
  | clientRead (c : Conn) (n : Nat)
  | serverClose (c : Conn)
  | clientClose (c : Conn)
  deriving DecidableEq, Repr

namespace System

variable {Conn : Type} [LinearOrder Conn]

/-- The server is listening. -/
def start : System Conn where
  connections := .empty
  links _ := none
  fault := none
  history := []

variable (s : System Conn)

/-- The link of a connection changes. -/
def setLink (c : Conn) (k : Link) : System Conn :=
  { s with links := Function.update s.links c (some k) }

/-- The history goes on with a happening. -/
def record (h : Happening Conn Bytes) : System Conn := { s with history := s.history ++ [h] }

/-- `conn->send` at the server. -/
def send (c : Conn) (bytes : Bytes) : System Conn :=
  { s with links := Function.update s.links c ((s.links c).map fun k => k.serverSend bytes) }

/-- A store to `state_` at the server; a connection that was connected is so no longer. -/
def setServer (c : Conn) (k : Link) (state : ConnectionState) : System Conn :=
  let s' := s.setLink c (k.setServer state)
  if k.server.state = .kConnected then s'.record (.leave c) else s'

/-- `conn->shutdown()` at the server. -/
def shutdown (c : Conn) : System Conn :=
  match s.links c with
  | some k => if k.server.state = .kConnected then s.setServer c k .kDisconnecting else s
  | none => s

/-- `ChatServer::onConnection`. -/
def onConnection (c : Conn) (connected : Bool) : System Conn :=
  if connected then { s with connections := s.connections.insert c }
  else { s with connections := s.connections.erase c }

/-- One turn of the loop of `ChatServer::onMessage`. -/
def relay (conn : Conn) (message : Bytes) (s : System Conn) (c : Conn) : Checked (System Conn) :=
  if conn ≠ c then do
    let bytes ← LenHeaderCodec.send message
    return s.send c bytes
  else .ok s

/-- `ChatServer::onMessage`. -/
def onMessage (conn : Conn) (message : Bytes) (s : System Conn) : Checked (System Conn) :=
  s.connections.toList.foldlM (relay conn message) (s.record (.post ⟨conn, message⟩))

/-- The server's `inBuffer_` as `onMessage` leaves it. -/
def setBuffer (c : Conn) (inBuffer : Bytes) : System Conn :=
  { s with links := Function.update s.links c ((s.links c).map fun k =>
      { k with server := { k.server with inBuffer } }) }

/-- `handleRead` at the server with a read of `n` bytes. -/
def serverRead (c : Conn) (k : Link) (n : Nat) : System Conn :=
  let read := s.setLink c { k with toServer := k.toServer.drop n }
  match onMessageWith (onMessage c) (shutdown · c) read (k.server.inBuffer ++ k.toServer.take n) with
  | .ok (s', inBuffer) => s'.setBuffer c inBuffer
  | .error fault => { s with fault := some fault }

/-- `handleRead` at the client with a read of `n` bytes. -/
def clientRead (c : Conn) (k : Link) (n : Nat) : System Conn :=
  let read := { k with toClient := k.toClient.drop n }
  match onMessageWith Link.print Link.clientShutdown read
      (k.client.inBuffer ++ k.toClient.take n) with
  | .ok (k', inBuffer) => s.setLink c { k' with client := { k'.client with inBuffer } }
  | .error fault => { s with fault := some fault }

/-- One step. A line that the codec cannot hold throws in the thread of the user. -/
def step : Label Conn → Option (System Conn)
  | .connect c =>
    match s.links c with
    | none => some (s.setLink c .create)
    | some _ => none
  | .accept c =>
    (s.links c).bind fun k =>
      if k.server.state = .kConnecting then
        some (((s.setLink c (k.setServer .kConnected)).onConnection c true).record (.join c))
      else none
  | .say c message =>
    (s.links c).bind fun k =>
      if k.client.state = .kConnected then
        match LenHeaderCodec.send message with
        | .ok bytes =>
          some (s.setLink c { k with toServer := k.toServer ++ bytes, said := k.said ++ [message] })
        | .error _ => none
      else none
  | .serverRead c n =>
    (s.links c).bind fun k =>
      if reads k.server.state ∧ 0 < n ∧ n ≤ k.toServer.length then some (s.serverRead c k n) else none
  | .clientRead c n =>
    (s.links c).bind fun k =>
      if reads k.client.state ∧ 0 < n ∧ n ≤ k.toClient.length then some (s.clientRead c k n) else none
  | .serverClose c =>
    (s.links c).bind fun k =>
      if reads k.server.state then some ((s.setServer c k .kDisconnected).onConnection c false)
      else none
  | .clientClose c =>
    (s.links c).bind fun k =>
      if reads k.client.state then
        some (s.setLink c { k with client := { k.client with state := .kDisconnected } })
      else none

end System

end Chat

end Yvent
