import Yvent.Connection.Model

/-!
# Who owns a connection

A `TcpServer` or a `TcpClient` with its connections, the loops they run on and the threads that use
them. Of a connection only its state and the registration of its channel are kept; what is followed
is every `shared_ptr` to it: in `connections_` or `connection_`, in a local or a temporary of a call
that is being executed, in a queued task, and in user code. `epoll_wait` hands out plain pointers.
-/

namespace Yvent.Endpoint

open TcpConnection (HandleEventsPc)

/-- A loop; 0 is the loop of the server or client. -/
abbrev LoopId := Nat

/-- A connection; `nextConnId_` makes the name of each one its own. -/
abbrev ConnId := Nat

/-- `Channel::state_`. The descriptor is in the interest list of `epoll` while it is `kAdded`. -/
inductive ChannelState where
  | kNew
  | kAdded
  | kDeleted
  deriving DecidableEq, Repr

/-- `Poll::updateChannel`. The `EPOLL_CTL_MOD` of a deleted channel fails. -/
def ChannelState.update (noEvent : Bool) : ChannelState → ChannelState
  | .kNew => .kAdded
  | .kAdded => if noEvent then .kDeleted else .kAdded
  | .kDeleted => .kDeleted

/-- A connection as far as its life is concerned: its loop, its state, its channel. -/
structure Conn where
  loop : LoopId
  state : ConnectionState
  channel : ChannelState
  deriving DecidableEq, Repr

/-- `TcpServer::connections_` or `TcpClient::connection_`. -/
inductive Holder where
  | server (connections : List ConnId)
  | client (connection : Option ConnId)
  deriving DecidableEq, Repr

namespace Holder

/-- The connections that the holder owns. -/
def conns : Holder → List ConnId
  | .server connections => connections
  | .client connection => connection.toList

/-- The holder is a server. -/
def isServer : Holder → Bool
  | .server _ => true
  | .client _ => false

/-- `connections_[name] = conn`. -/
def insert (c : ConnId) : Holder → Holder
  | .server connections => .server (connections.insert c)
  | .client connection => .client connection

/-- `connections_.erase(name)`. -/
def erase (c : ConnId) : Holder → Holder
  | .server connections => .server (connections.filter (· ≠ c))
  | .client connection => .client connection

/-- `connection_.reset()`. -/
def reset : Holder → Holder
  | .server connections => .server connections
  | .client _ => .client none

end Holder

/-! ## Frames and tasks -/

/-- `newConnection`: the `enableRead` of the connection, then its place in the map. -/
inductive NewConnectionPc where
  | enable | insert
  deriving DecidableEq, Repr

/-- `enableRead`: the call, and the end of its callback. -/
inductive EnableReadPc where
  | start | done
  deriving DecidableEq, Repr

/-- A function that runs a callback with a temporary `shared_ptr`: before and after the call. -/
inductive CallingPc where
  | start | called
  deriving DecidableEq, Repr

/-- `handleClose`: the store with `disableAll`, then for each of the two callbacks the point before
the call and the point at which it has returned to its temporary. -/
inductive HandleClosePc where
  | store | notify | notified | close | closed
  deriving DecidableEq, Repr

/-- A call that is being executed in a loop. -/
inductive Frame where
  /-- Code outside of the connections: the handler of another channel, a task, the caller of
  `loop()`. -/
  | other
  /-- A callback that was given `c`. -/
  | user (c : ConnId)
  /-- The callback of `TcpClient::newConnection`, which is given `connection_` itself. -/
  | member (c : ConnId)
  | newConnection (c : ConnId) (pc : NewConnectionPc)
  | clientNewConnection (c : ConnId)
  | enableRead (c : ConnId) (pc : EnableReadPc)
  | handleEvents (c : ConnId) (revents : BitVec 32) (pc : HandleEventsPc)
  | handleRead (c : ConnId) (pc : CallingPc)
  | handleWrite (c : ConnId) (pc : CallingPc)
  | handleClose (c : ConnId) (pc : HandleClosePc)
  /-- `TcpServer::handleClose` or `TcpClient::closeConnection`, called as `closeCallback_`. -/
  | closeCallback (c : ConnId)
  | handleCloseInLoop (c : ConnId)
  | sendInLoop (c : ConnId) (pc : CallingPc)
  | shutdownInLoop (c : ConnId)
  | forceCloseInLoop (c : ConnId) (pc : CallingPc)
  /-- `connection_->send(message)` of `TcpClient::send`. -/
  | clientSend
  deriving DecidableEq, Repr

/-- The `shared_ptr` that a frame holds: a local, a temporary or the capture of its lambda. -/
def Frame.owner : Frame → Option ConnId
  | .newConnection c _ | .enableRead c _ | .handleRead c .called | .handleWrite c .called
  | .handleClose c .notified | .handleClose c .closed | .handleCloseInLoop c
  | .sendInLoop c .called | .forceCloseInLoop c _ => some c
  | _ => none

/-- The step of the frame releases its `shared_ptr`; that of `newConnection` goes to the map. -/
def Frame.finishes : Frame → Bool
  | .enableRead _ .done | .handleRead _ .called | .handleWrite _ .called
  | .handleClose _ .notified | .handleClose _ .closed | .handleCloseInLoop _
  | .sendInLoop _ .called | .forceCloseInLoop _ .called => true
  | _ => false

/-- Frames in which user code runs. -/
def Frame.isUser : Frame → Bool
  | .other | .user _ | .member _ => true
  | _ => false

/-- Queued tasks; those of a connection capture a `shared_ptr` to it. -/
inductive Task where
  | enableRead (c : ConnId)
  | sendInLoop (c : ConnId)
  | shutdownInLoop (c : ConnId)
  | forceCloseInLoop (c : ConnId)
  | handleCloseInLoop (c : ConnId)
  | clientSend
  | user
  deriving DecidableEq, Repr

/-- The connection that the task's `shared_ptr` keeps alive. -/
def Task.owner : Task → Option ConnId
  | .enableRead c | .sendInLoop c | .shutdownInLoop c | .forceCloseInLoop c
  | .handleCloseInLoop c => some c
  | .clientSend | .user => none

/-- The frame with which a loop begins a task. -/
def Task.frame : Task → Frame
  | .enableRead c => .enableRead c .start
  | .sendInLoop c => .sendInLoop c .start
  | .shutdownInLoop c => .shutdownInLoop c
  | .forceCloseInLoop c => .forceCloseInLoop c .start
  | .handleCloseInLoop c => .handleCloseInLoop c
  | .clientSend => .clientSend
  | .user => .other

/-- Where a loop is between two frames: the active channels that are left, or the local vector of
`runTasks`, which keeps every task until all have run, and the index of the next one. -/
inductive Phase where
  | poll
  | dispatch (active : List (Option (ConnId × BitVec 32)))
  | tasks (batch : List Task) (next : Nat)
  deriving DecidableEq, Repr

/-- The active channels that are left. -/
def Phase.active : Phase → List (Option (ConnId × BitVec 32))
  | .dispatch active => active
  | _ => []

/-- The tasks of the round that are left. -/
def Phase.batch : Phase → List Task
  | .tasks batch _ => batch
  | _ => []

/-- A loop: its frames, where it is in its round, its queue. -/
structure Loop where
  stack : List Frame
  phase : Phase
  tasks : List Task
  deriving DecidableEq, Repr

/-- The tasks that exist on a loop. -/
def Loop.allTasks (loop : Loop) : List Task := loop.phase.batch ++ loop.tasks

/-- A frame or a task of the loop holds a `shared_ptr` to the connection. -/
def Loop.Owns (loop : Loop) (c : ConnId) : Prop :=
  (∃ f ∈ loop.stack, f.owner = some c) ∨ ∃ task ∈ loop.allTasks, task.owner = some c

/-- What another thread, which holds a `shared_ptr`, still has to do for the call it is in. -/
inductive Pending where
  | sendTask (c : ConnId)
  | shutdownStore (c : ConnId)
  | shutdownTask (c : ConnId)
  | forceCloseTask (c : ConnId)
  deriving DecidableEq, Repr

/-- The connection that a thread calls. -/
def Pending.conn : Pending → ConnId
  | .sendTask c | .shutdownStore c | .shutdownTask c | .forceCloseTask c => c

/-- `held c` counts the copies in user code. -/
structure System where
  loops : LoopId → Loop
  ioLoops : Nat
  nextEventLoop : Nat
  nextConnId : Nat
  holder : Holder
  conns : ConnId → Conn
  held : ConnId → Nat
  pending : Tid → Option Pending

namespace System

variable (s : System)

/-- A loop changes. -/
def setLoop (L : LoopId) (loop : Loop) : System :=
  { s with loops := Function.update s.loops L loop }

/-- The frames of a loop change. -/
def setStack (L : LoopId) (stack : List Frame) : System :=
  s.setLoop L { s.loops L with stack }

/-- A loop goes to another phase. -/
def setPhase (L : LoopId) (phase : Phase) : System :=
  s.setLoop L { s.loops L with phase }

/-- A task is queued in a loop. -/
def push (L : LoopId) (task : Task) : System :=
  s.setLoop L { s.loops L with tasks := (s.loops L).tasks ++ [task] }

/-- A connection changes. -/
def setConn (c : ConnId) (conn : Conn) : System :=
  { s with conns := Function.update s.conns c conn }

/-- The number of handles that user code holds changes. -/
def setHeld (c : ConnId) (n : Nat) : System := { s with held := Function.update s.held c n }

/-- A thread goes to another point of its call. -/
def setPending (t : Tid) (p : Option Pending) : System :=
  { s with pending := Function.update s.pending t p }

/-- A store to `state_`. -/
def store (c : ConnId) (state : ConnectionState) : System :=
  s.setConn c { s.conns c with state }

/-- The body of `TcpConnection::enableRead` before the callback. -/
def enable (c : ConnId) : System :=
  s.setConn c { s.conns c with
    state := .kConnected, channel := (s.conns c).channel.update false }

/-- The body of `TcpConnection::handleClose` before the callbacks. -/
def disable (c : ConnId) : System :=
  s.setConn c { s.conns c with
    state := .kDisconnected, channel := (s.conns c).channel.update true }

/-- Some `shared_ptr` to the connection exists. -/
inductive Alive (c : ConnId) : Prop
  | holder (mem : c ∈ s.holder.conns)
  | held (some : 0 < s.held c)
  | pending (t : Tid) (p : Pending) (here : s.pending t = some p) (conn : p.conn = c)
  | loop (L : LoopId) (owns : (s.loops L).Owns c)

end System

/-! ## The functions -/

/-- What the environment answers to a step: nothing, the bytes of a read (`none` for -1), or
whether a write took everything. -/
inductive Answer where
  | silent
  | read (result : Option Bytes)
  | wrote (all : Bool)
  deriving DecidableEq, Repr

variable (cb : Callbacks) (s : System)

/-- `TcpServer::newConnection` after the construction of `conn`. -/
def newConnectionStep (c : ConnId) : NewConnectionPc → List Frame × System
  | .enable =>
    if (s.conns c).loop = 0 then ([.enableRead c .start, .newConnection c .insert], s)
    else ([.newConnection c .insert], s.push (s.conns c).loop (.enableRead c))
  | .insert => ([], { s with holder := s.holder.insert c })

/-- `TcpClient::newConnection` after the construction of `connection_`. -/
def clientNewConnectionStep (c : ConnId) : List Frame × System :=
  (if cb.connection then [.member c] else [], s.enable c)

/-- `enableRead`: the connection is established and its callback invoked. -/
def enableReadStep (c : ConnId) : EnableReadPc → List Frame × System
  | .start =>
    (if cb.connection then [.user c, .enableRead c .done] else [.enableRead c .done], s.enable c)
  | .done => ([], s)

/-- `Channel::handleEvents`. -/
def handleEventsStep (c : ConnId) (revents : BitVec 32) : HandleEventsPc → List Frame
  | .close =>
    if revents &&& EPOLLHUP ≠ 0 ∧ revents &&& EPOLLIN = 0 then
      [.handleClose c .store, .handleEvents c revents .error]
    else [.handleEvents c revents .error]
  | .error => [.handleEvents c revents .read]
  | .read =>
    if revents &&& (EPOLLIN ||| EPOLLPRI ||| EPOLLRDHUP) ≠ 0 then
      [.handleRead c .start, .handleEvents c revents .write]
    else [.handleEvents c revents .write]
  | .write => if revents &&& EPOLLOUT ≠ 0 then [.handleWrite c .start] else []

/-- `handleRead`, by what the socket answers. -/
def handleReadStep (c : ConnId) : Option Bytes → List Frame
  | none => []
  | some [] => [.handleClose c .store]
  | some (_ :: _) => if cb.message then [.user c, .handleRead c .called] else []

/-- `handleWrite`, where `all` says that the write completed the output. -/
def handleWriteStep (c : ConnId) (all : Bool) : List Frame :=
  if all && cb.writeComplete then [.user c, .handleWrite c .called] else []

/-- `sendInLoop`, where `all` says that a direct write took the whole message. -/
def sendInLoopStep (c : ConnId) (all : Bool) : List Frame :=
  if (s.conns c).state = .kDisconnected then []
  else if all && cb.writeComplete then [.user c, .sendInLoop c .called]
  else []

/-- `TcpConnection::handleClose`. The connection callback of a client is its own, not the
connection's. -/
def handleCloseStep (c : ConnId) : HandleClosePc → List Frame × System
  | .store => ([.handleClose c .notify], s.disable c)
  | .notify =>
    if s.holder.isServer && cb.connection then ([.user c, .handleClose c .notified], s)
    else ([.handleClose c .close], s)
  | .notified => ([.handleClose c .close], s)
  | .close => ([.closeCallback c, .handleClose c .closed], s)
  | .closed => ([], s)

/-- `TcpServer::handleClose` runs the erasure at once in the loop of the server and queues it in
another one. `TcpClient::closeConnection` resets `connection_`. -/
def closeCallbackStep (L : LoopId) (c : ConnId) : List Frame × System :=
  if s.holder.isServer then
    if L = 0 then ([.handleCloseInLoop c], s) else ([], s.push 0 (.handleCloseInLoop c))
  else (if cb.connection then [.user c] else [], { s with holder := s.holder.reset })

/-- `TcpServer::handleCloseInLoop`. -/
def handleCloseInLoopStep (c : ConnId) : List Frame × System :=
  ([], { s with holder := s.holder.erase c })

/-- `forceCloseInLoop`, which calls `handleClose` unless the connection is closed. -/
def forceCloseInLoopStep (c : ConnId) : CallingPc → List Frame
  | .start =>
    if (s.conns c).state ≠ .kDisconnected then
      [.handleClose c .store, .forceCloseInLoop c .called]
    else [.forceCloseInLoop c .called]
  | .called => []

/-- `none` is the use of a null `connection_`. -/
def clientSendStep : Option (List Frame) :=
  match s.holder with
  | .client (some c) => some (if (s.conns c).state = .kConnected then [.sendInLoop c .start] else [])
  | _ => none

/-- One step of the executing frame of a loop. -/
def frameStep (L : LoopId) (f : Frame) (answer : Answer) : Option (List Frame × System) :=
  match f, answer with
  | .newConnection c pc, .silent => some (newConnectionStep s c pc)
  | .clientNewConnection c, .silent => some (clientNewConnectionStep cb s c)
  | .enableRead c pc, .silent => some (enableReadStep cb s c pc)
  | .handleEvents c revents pc, .silent => some (handleEventsStep c revents pc, s)
  | .handleRead c .start, .read result => some (handleReadStep cb c result, s)
  | .handleWrite c .start, .wrote all => some (handleWriteStep cb c all, s)
  | .sendInLoop c .start, .wrote all => some (sendInLoopStep cb s c all, s)
  | .handleRead _ .called, .silent | .handleWrite _ .called, .silent
  | .sendInLoop _ .called, .silent => some ([], s)
  | .handleClose c pc, .silent => some (handleCloseStep cb s c pc)
  | .closeCallback c, .silent => some (closeCallbackStep cb s L c)
  | .handleCloseInLoop c, .silent => some (handleCloseInLoopStep s c)
  | .shutdownInLoop _, .silent => some ([], s)
  | .forceCloseInLoop c pc, .silent => some (forceCloseInLoopStep s c pc, s)
  | .clientSend, .silent => (clientSendStep s).map fun frames => (frames, s)
  | _, _ => none

/-! ## The threads -/

/-- The calls of other threads on a connection. -/
inductive Call where
  | send | shutdown | forceClose
  deriving DecidableEq, Repr

/-- What can happen next. -/
inductive Label where
  /-- The executing frame of a loop takes a step. -/
  | run (L : LoopId) (answer : Answer)
  /-- User code of a loop returns. -/
  | ret (L : LoopId)
  /-- A loop goes on to its next active channel, its next task or its next round. -/
  | next (L : LoopId)
  | poll (L : LoopId) (active : List (Option (ConnId × BitVec 32)))
  /-- The acceptor or the connector has a new descriptor. -/
  | accept
  /-- User code of a loop calls a connection of this loop. -/
  | call (L : LoopId) (c : ConnId) (call : Call)
  /-- Another thread calls a connection. -/
  | begin (t : Tid) (c : ConnId) (call : Call)
  /-- Another thread goes on with its call. -/
  | resume (t : Tid)
  /-- User code copies the `shared_ptr` it was given. -/
  | take (L : LoopId)
  /-- User code copies a `shared_ptr` that it has. -/
  | copy (c : ConnId)
  /-- User code drops one of its copies. -/
  | release (c : ConnId)
  | addTask (L : LoopId)
  /-- `TcpClient::send` in the loop thread. -/
  | clientSend
  /-- `TcpClient::send` in another thread. -/
  | queueSend
  deriving DecidableEq, Repr

/-- `EventLoopThreadPool::getNextEventLoop`. -/
def getNextEventLoop : LoopId := if s.ioLoops = 0 then 0 else s.nextEventLoop + 1

namespace System

/-- A server with its loops, or a client. -/
inductive Kind where
  | server (ioLoops : Nat)
  | client
  deriving DecidableEq, Repr

/-- The run starts in code that comes before `loop()`; the other loops are waiting. -/
def start (kind : Kind) : System where
  loops L := if L = 0 then ⟨[.other], .tasks [] 0, []⟩ else ⟨[], .poll, []⟩
  ioLoops := match kind with
    | .server ioLoops => ioLoops
    | .client => 0
  nextEventLoop := 0
  nextConnId := 0
  holder := match kind with
    | .server _ => .server []
    | .client => .client none
  conns _ := ⟨0, .kConnecting, .kNew⟩
  held _ := 0
  pending _ := none

/-- The executing frame of a loop. -/
def top (L : LoopId) : Option Frame := (s.loops L).stack.head?

/-- A call begins in a loop. -/
def pushFrame (L : LoopId) (f : Frame) : System := s.setStack L (f :: (s.loops L).stack)

/-- The connection whose `shared_ptr` a callback was given. -/
def shown : Frame → Option ConnId
  | .user c => some c
  | .member c => if c ∈ s.holder.conns then some c else none
  | _ => none

/-- User code of the loop can call the connection. -/
def CanCall (L : LoopId) (c : ConnId) : Prop :=
  (s.conns c).loop = L ∧ (s.top L).any Frame.isUser = true ∧
    (0 < s.held c ∨ (s.top L).bind s.shown = some c)

instance (L : LoopId) (c : ConnId) : Decidable (s.CanCall L c) :=
  inferInstanceAs (Decidable (_ ∧ _))

/-- `epoll_wait` reports descriptors that are registered, each at most once. -/
def CanReport (L : LoopId) (active : List (Option (ConnId × BitVec 32))) : Prop :=
  (∀ e ∈ active.reduceOption, (s.conns e.1).loop = L ∧ (s.conns e.1).channel = .kAdded) ∧
    (active.reduceOption.map Prod.fst).Nodup

instance (L : LoopId) (active : List (Option (ConnId × BitVec 32))) :
    Decidable (s.CanReport L active) := inferInstanceAs (Decidable (_ ∧ _))

/-- The holder takes a new connection. -/
def acceptStep : Option System :=
  let c := s.nextConnId
  match s.holder with
  | .server _ =>
    some { (s.setConn c ⟨getNextEventLoop s, .kConnecting, .kNew⟩).pushFrame 0
        (.newConnection c .enable) with
      nextConnId := c + 1
      nextEventLoop := if s.ioLoops = 0 then 0 else (s.nextEventLoop + 1) % s.ioLoops }
  | .client _ =>
    -- the connector connects once
    if c = 0 then
      some { (s.setConn c ⟨0, .kConnecting, .kNew⟩).pushFrame 0 (.clientNewConnection c) with
        nextConnId := c + 1
        holder := .client (some c) }
    else none

/-- A call in the loop thread, where `runInLoop` runs the task at once. -/
def callStep (L : LoopId) (c : ConnId) : Call → System
  | .send =>
    if (s.conns c).state = .kConnected then s.pushFrame L (.sendInLoop c .start) else s
  | .shutdown =>
    if (s.conns c).state = .kConnected then
      (s.store c .kDisconnecting).pushFrame L (.shutdownInLoop c)
    else s
  | .forceClose =>
    if (s.conns c).state ≠ .kDisconnected then s.pushFrame L (.forceCloseInLoop c .start) else s

/-- The load with which a call of another thread begins. -/
def beginStep (t : Tid) (c : ConnId) : Call → System
  | .send => if (s.conns c).state = .kConnected then s.setPending t (some (.sendTask c)) else s
  | .shutdown =>
    if (s.conns c).state = .kConnected then s.setPending t (some (.shutdownStore c)) else s
  | .forceClose =>
    if (s.conns c).state ≠ .kDisconnected then s.setPending t (some (.forceCloseTask c)) else s

/-- The store of `shutdown`, or the push of the task. -/
def resumeStep (t : Tid) : Pending → System
  | .sendTask c => (s.setPending t none).push (s.conns c).loop (.sendInLoop c)
  | .shutdownStore c => (s.setPending t (some (.shutdownTask c))).store c .kDisconnecting
  | .shutdownTask c => (s.setPending t none).push (s.conns c).loop (.shutdownInLoop c)
  | .forceCloseTask c => (s.setPending t none).push (s.conns c).loop (.forceCloseInLoop c)

/-- A loop between two frames. -/
def nextStep (L : LoopId) : Option System :=
  match (s.loops L).phase with
  | .poll => none
  | .dispatch [] =>
    some (s.setLoop L { s.loops L with
      phase := .tasks (s.loops L).tasks 0, tasks := [] })
  | .dispatch (some (c, revents) :: rest) =>
    some (s.setLoop L { s.loops L with
      stack := [.handleEvents c revents .close], phase := .dispatch rest })
  | .dispatch (none :: rest) =>
    some (s.setLoop L { s.loops L with stack := [.other], phase := .dispatch rest })
  | .tasks batch next =>
    match batch[next]? with
    | some task =>
      some (s.setLoop L { s.loops L with stack := [task.frame], phase := .tasks batch (next + 1) })
    | none => some (s.setPhase L .poll)

/-- One step of a loop or of a thread. -/
def step : Label → Option System
  | .run L answer =>
    match (s.loops L).stack with
    | [] => none
    | f :: rest =>
      (frameStep cb s L f answer).map fun (frames, s') => s'.setStack L (frames ++ rest)
  | .ret L =>
    if (s.top L).any Frame.isUser then some (s.setStack L (s.loops L).stack.tail) else none
  | .next L => if (s.loops L).stack = [] then s.nextStep L else none
  | .poll L active =>
    if (s.loops L).stack = [] ∧ (s.loops L).phase = .poll ∧ s.CanReport L active then
      some (s.setPhase L (.dispatch active))
    else none
  | .accept => if s.top 0 = some .other then s.acceptStep else none
  | .call L c call => if s.CanCall L c then some (s.callStep L c call) else none
  | .begin t c call =>
    if s.pending t = none ∧ 0 < s.held c then some (s.beginStep t c call) else none
  | .resume t => (s.pending t).map (s.resumeStep t)
  | .take L =>
    match (s.top L).bind s.shown with
    | some c => some (s.setHeld c (s.held c + 1))
    | none => none
  | .copy c => if 0 < s.held c then some (s.setHeld c (s.held c + 1)) else none
  | .release c => if 0 < s.held c then some (s.setHeld c (s.held c - 1)) else none
  | .addTask L => some (s.push L .user)
  | .clientSend =>
    if s.holder.isServer = false ∧ (s.top 0).any Frame.isUser then some (s.pushFrame 0 .clientSend)
    else none
  | .queueSend => if s.holder.isServer = false then some (s.push 0 .clientSend) else none

end System

end Yvent.Endpoint
