import Yvent.EventLoop.Model
import Yvent.Misc.Bytes

/-!
# One connection on its loop

`TcpConnection` with the channel of its socket, the loop thread that runs its handlers and the
other threads that call `send`, `shutdown` and `forceClose`. The loop thread is a stack of frames,
each a call that is being executed and its program point; `Frame.user` is any code outside the
connection (a callback, a task, the handler of another channel), which may call the connection
again. Every load and every store of the atomic `state_` is a step of its own, and so is the push
of a task by another thread. Steps that make a system call take its answer from the label.

`trace` is the history of what the connection did, in order.
-/

namespace Yvent

/-- The states of a connection, in the order of the source. -/
inductive ConnectionState where
  | kConnecting
  | kConnected
  | kDisconnecting
  | kDisconnected
  deriving DecidableEq, Repr

/-- The position of a state in the order of the enumeration. -/
def ConnectionState.rank : ConnectionState → Nat
  | .kConnecting => 0
  | .kConnected => 1
  | .kDisconnecting => 2
  | .kDisconnected => 3

/-- The thread that makes a call: the loop's own or another one. -/
inductive Caller where
  | loop
  | other (t : Tid)
  deriving DecidableEq, Repr

/-- What happens on a connection. The result of a `write` or a `sendfile` is the number of bytes
taken from those offered, or `none` for -1. -/
inductive Event where
  | store (state : ConnectionState)
  | assertFailed
  | notifyConnected
  | notifyDisconnected
  | messageCallback (data : Bytes)
  | closeCallback
  | writeCompleteCallback
  | accepted (caller : Caller) (data : Bytes)
  | returned (caller : Caller) (data : Bytes)
  | executed (caller : Caller) (data : Bytes)
  | write (data : Bytes) (result : Option Nat)
  | setSendFd (fd : Int) (file : Bytes)
  | sendfile (file : Bytes) (result : Option Nat)
  | closeFd (fd : Int)
  | shutdownCalled (caller : Caller)
  | shutdownWr
  deriving DecidableEq, Repr

/-- There is data to read. -/
def EPOLLIN : BitVec 32 := 0x001#32
/-- There is urgent data to read. -/
def EPOLLPRI : BitVec 32 := 0x002#32
/-- The socket can be written. -/
def EPOLLOUT : BitVec 32 := 0x004#32
/-- An error is pending. -/
def EPOLLERR : BitVec 32 := 0x008#32
/-- Both directions are shut down. -/
def EPOLLHUP : BitVec 32 := 0x010#32
/-- The peer has shut down its writing half. -/
def EPOLLRDHUP : BitVec 32 := 0x2000#32

/-- The data of a connection. `file` holds the bytes of `sendFd_` from its file offset on, and
`events` is the mask of the channel. -/
structure TcpConnection where
  state : ConnectionState
  events : BitVec 32
  outBuffer : Bytes
  sendFd : Int
  file : Bytes
  stSize : Int
  trace : List Event
  deriving DecidableEq, Repr

/-- Which of the callbacks of the connection are set. -/
structure Callbacks where
  connection : Bool
  message : Bool
  close : Bool
  writeComplete : Bool

/-- Every callback is set. -/
def allCallbacks : Callbacks :=
  { connection := true, message := true, close := true, writeComplete := true }

namespace TcpConnection

/-- The constructor. -/
def create : TcpConnection :=
  { state := .kConnecting, events := 0, outBuffer := [], sendFd := -1, file := [], stSize := 0,
    trace := [] }

/-- The history goes on with an event. -/
def emit (c : TcpConnection) (e : Event) : TcpConnection := { c with trace := c.trace ++ [e] }

/-- A store to `state_`. -/
def store (c : TcpConnection) (state : ConnectionState) : TcpConnection :=
  { c with state, trace := c.trace ++ [.store state] }

/-- The channel asks for `EPOLLOUT`. -/
def isWriting (c : TcpConnection) : Bool := c.events &&& EPOLLOUT ≠ 0

/-- The channel asks for input. -/
def enableReading (c : TcpConnection) : TcpConnection :=
  { c with events := c.events ||| (EPOLLIN ||| EPOLLPRI) }

/-- The channel asks for `EPOLLOUT` from now on. -/
def enableWrite (c : TcpConnection) : TcpConnection := { c with events := c.events ||| EPOLLOUT }

/-- The channel no longer asks for `EPOLLOUT`. -/
def disableWrite (c : TcpConnection) : TcpConnection :=
  { c with events := c.events &&& ~~~EPOLLOUT }

/-- The channel asks for nothing. -/
def disableAll (c : TcpConnection) : TcpConnection := { c with events := 0 }

/-- `setSendFd(fd, sbuf)` for a descriptor whose remaining bytes are `file`. -/
def setSendFd (c : TcpConnection) (fd : Int) (file : Bytes) (stSize : Int) : TcpConnection :=
  { c with sendFd := fd, file, stSize, trace := c.trace ++ [.setSendFd fd file] }

variable (c : TcpConnection) (e : Event)

@[simp] theorem emit_state : (c.emit e).state = c.state := rfl
@[simp] theorem emit_outBuffer : (c.emit e).outBuffer = c.outBuffer := rfl
@[simp] theorem emit_isWriting : (c.emit e).isWriting = c.isWriting := rfl
@[simp] theorem emit_stSize : (c.emit e).stSize = c.stSize := rfl
@[simp] theorem emit_file : (c.emit e).file = c.file := rfl
@[simp] theorem emit_trace : (c.emit e).trace = c.trace ++ [e] := rfl
@[simp] theorem disableAll_trace : c.disableAll.trace = c.trace := rfl

@[simp] theorem isWriting_enableWrite : c.enableWrite.isWriting = true := by
  have bit : ((c.events ||| EPOLLOUT) &&& EPOLLOUT).getLsbD 2 = true := by simp [EPOLLOUT]
  refine decide_eq_true fun zero => ?_
  rw [show c.enableWrite.events &&& EPOLLOUT = (c.events ||| EPOLLOUT) &&& EPOLLOUT from rfl] at zero
  rw [zero] at bit
  cases bit

@[simp] theorem isWriting_disableWrite : c.disableWrite.isWriting = false := by
  have cleared : ~~~EPOLLOUT &&& EPOLLOUT = 0 := by decide
  refine decide_eq_false fun nonzero => nonzero ?_
  show (c.events &&& ~~~EPOLLOUT) &&& EPOLLOUT = 0
  rw [BitVec.and_assoc, cleared]
  exact BitVec.and_zero

@[simp] theorem isWriting_disableAll : c.disableAll.isWriting = false := by
  simp [isWriting, disableAll]

@[simp] theorem isWriting_enableReading : c.enableReading.isWriting = c.isWriting := by
  have apart : (EPOLLIN ||| EPOLLPRI) &&& EPOLLOUT = 0#32 := by decide
  have same : c.enableReading.events &&& EPOLLOUT = c.events &&& EPOLLOUT := by
    show (c.events ||| (EPOLLIN ||| EPOLLPRI)) &&& EPOLLOUT = _
    rw [BitVec.and_or_distrib_right, apart, BitVec.or_zero]
  rw [isWriting, isWriting, same]

/-! ## The program points of the loop thread -/

/-- `enableRead`: the assertion, the store to `state_`, the channel and the callback. -/
inductive EnableReadPc where
  | assert | store | enable
  deriving DecidableEq, Repr

/-- The four tests of `Channel::handleEvents`. -/
inductive HandleEventsPc where
  | close | error | read | write
  deriving DecidableEq, Repr

/-- The assertion of `handleClose` loads `state_` once or twice. -/
inductive HandleClosePc where
  | assertConnected | assertDisconnecting | store | notify | close
  deriving DecidableEq, Repr

/-- `sendInLoop`: the load of `state_`, the direct write, the rest of the body. -/
inductive SendInLoopPc where
  | check (caller : Caller)
  | write
  | rest (n : Nat)
  deriving DecidableEq, Repr

/-- `handleWrite`: the tests, the write with what follows a drained buffer, and the `sendfile` with
what follows a completed file. -/
inductive HandleWritePc where
  | test | write | drained | complete | sendfile | sent | closeFd
  deriving DecidableEq, Repr

/-- A call that is being executed, with its program point. -/
inductive Frame where
  | user
  | enableRead (pc : EnableReadPc)
  | handleEvents (revents : BitVec 32) (pc : HandleEventsPc)
  | handleRead
  | handleClose (pc : HandleClosePc)
  | send (data : Bytes)
  | sendReturn (data : Bytes)
  | sendInLoop (data : Bytes) (pc : SendInLoopPc)
  | handleWrite (pc : HandleWritePc)
  | shutdown
  | shutdownStore
  | shutdownInLoop
  | forceClose
  | forceCloseInLoop
  deriving DecidableEq, Repr

/-- What the environment answers to a step: nothing, the bytes of a read, or the count of a write.
`none` is the result -1 and an empty read is the end of file. -/
inductive Answer where
  | silent
  | bytes (result : Option Bytes)
  | count (result : Option Nat)
  deriving DecidableEq, Repr

/-- `INT_MAX` -/
def intMax : Nat := 2 ^ 31 - 1

/-! ## The functions of the connection

Each function maps a program point to the frames that take the place of the executing one, the
callee first, and to the changed connection. -/

/-- `enableRead`, the first call on a connection. -/
def enableReadStep (cb : Callbacks) (c : TcpConnection) :
    EnableReadPc → List Frame × TcpConnection
  | .assert =>
    ([.enableRead .store], if c.state = .kConnecting then c else c.emit .assertFailed)
  | .store => ([.enableRead .enable], c.store .kConnected)
  | .enable =>
    if cb.connection then ([.user], c.enableReading.emit .notifyConnected)
    else ([], c.enableReading)

/-- `Channel::handleEvents`. `handleError` only reads the pending error and logs it. -/
def handleEventsStep (revents : BitVec 32) : HandleEventsPc → List Frame
  | .close =>
    if revents &&& EPOLLHUP ≠ 0 ∧ revents &&& EPOLLIN = 0 then
      [.handleClose .assertConnected, .handleEvents revents .error]
    else [.handleEvents revents .error]
  | .error => [.handleEvents revents .read]
  | .read =>
    if revents &&& (EPOLLIN ||| EPOLLPRI ||| EPOLLRDHUP) ≠ 0 then
      [.handleRead, .handleEvents revents .write]
    else [.handleEvents revents .write]
  | .write => if revents &&& EPOLLOUT ≠ 0 then [.handleWrite .test] else []

/-- `handleRead`. What the message callback finds in `inBuffer_` ends with the bytes read now. -/
def handleReadStep (cb : Callbacks) (c : TcpConnection) : Option Bytes → List Frame × TcpConnection
  | none => ([], c)
  | some [] => ([.handleClose .assertConnected], c)
  | some data => if cb.message then ([.user], c.emit (.messageCallback data)) else ([], c)

/-- `handleClose`: the assertion, the store, then `connectionCallback_` and `closeCallback_`. -/
def handleCloseStep (cb : Callbacks) (c : TcpConnection) :
    HandleClosePc → List Frame × TcpConnection
  | .assertConnected =>
    if c.state = .kConnected then ([.handleClose .store], c)
    else ([.handleClose .assertDisconnecting], c)
  | .assertDisconnecting =>
    ([.handleClose .store], if c.state = .kDisconnecting then c else c.emit .assertFailed)
  | .store => ([.handleClose .notify], c.store .kDisconnected)
  | .notify =>
    if cb.connection then ([.user, .handleClose .close], c.disableAll.emit .notifyDisconnected)
    else ([.handleClose .close], c.disableAll)
  | .close => if cb.close then ([.user], c.emit .closeCallback) else ([], c)

/-- `send` in the loop thread. -/
def sendStep (c : TcpConnection) (data : Bytes) : List Frame × TcpConnection :=
  if c.state = .kConnected then
    ([.sendInLoop data (.check .loop), .sendReturn data], c.emit (.accepted .loop data))
  else ([], c)

/-- `sendInLoop`. The completion callback runs inside it, in front of the rest of the body. -/
def sendInLoopStep (cb : Callbacks) (c : TcpConnection) (data : Bytes) :
    SendInLoopPc → Option Nat → List Frame × TcpConnection
  | .check caller, _ =>
    if c.state = .kDisconnected then ([], c)
    else if !c.isWriting ∧ c.outBuffer = [] then
      ([.sendInLoop data .write], c.emit (.executed caller data))
    else ([.sendInLoop data (.rest 0)], c.emit (.executed caller data))
  | .write, none => ([.sendInLoop data (.rest 0)], c.emit (.write data none))
  | .write, some n =>
    let c := c.emit (.write data (some n))
    if n < data.length then ([.sendInLoop data (.rest n)], c)
    else if cb.writeComplete then
      ([.user, .sendInLoop data (.rest n)], c.emit .writeCompleteCallback)
    else ([.sendInLoop data (.rest n)], c)
  | .rest n, _ =>
    if n < data.length ∨ c.stSize ≠ 0 then
      let c := { c with outBuffer := c.outBuffer ++ data.drop n }
      ([], if c.isWriting then c else c.enableWrite)
    else ([], c)

/-- `handleWrite`: what is buffered first, then the file. -/
def handleWriteStep (cb : Callbacks) (c : TcpConnection) :
    HandleWritePc → Option Nat → List Frame × TcpConnection
  | .test, _ =>
    if c.isWriting then
      if c.outBuffer ≠ [] then ([.handleWrite .write], c)
      else if c.stSize ≠ 0 then ([.handleWrite .sendfile], c)
      else ([], c)
    else ([], c)
  | .write, none => ([], c.emit (.write c.outBuffer none))
  | .write, some n =>
    let c := { c.emit (.write c.outBuffer (some n)) with outBuffer := c.outBuffer.drop n }
    if c.outBuffer = [] ∧ c.stSize = 0 then ([.handleWrite .drained], c.disableWrite) else ([], c)
  | .drained, _ =>
    if c.state = .kDisconnecting then ([.shutdownInLoop, .handleWrite .complete], c)
    else ([.handleWrite .complete], c)
  | .complete, _ =>
    if cb.writeComplete then ([.user], c.emit .writeCompleteCallback) else ([], c)
  | .sendfile, none => ([], c.emit (.sendfile c.file none))
  | .sendfile, some n =>
    let c := { c.emit (.sendfile c.file (some n)) with
      file := c.file.drop n, stSize := c.stSize - n }
    if c.stSize = 0 then ([.handleWrite .sent], c.disableWrite) else ([], c)
  | .sent, _ =>
    if c.state = .kDisconnecting then ([.shutdownInLoop, .handleWrite .closeFd], c)
    else ([.handleWrite .closeFd], c)
  | .closeFd, _ => ([], c.emit (.closeFd c.sendFd))

/-- `shutdown` in the loop thread, where `runInLoop` runs the task at once. -/
def shutdownStep (c : TcpConnection) : List Frame :=
  if c.state = .kConnected then [.shutdownStore] else []

/-- The socket is shut down for writing unless the channel is write-enabled. -/
def shutdownInLoopStep (c : TcpConnection) : TcpConnection :=
  if c.isWriting then c else c.emit .shutdownWr

/-- `forceClose` in the loop thread, where `runInLoop` runs the task at once. -/
def forceCloseStep (c : TcpConnection) : List Frame :=
  if c.state ≠ .kDisconnected then [.forceCloseInLoop] else []

/-- `handleClose` unless the connection is closed. -/
def forceCloseInLoopStep (c : TcpConnection) : List Frame :=
  if c.state ≠ .kDisconnected then [.handleClose .assertConnected] else []

/-- A count that a system call may return for `len` offered bytes. -/
def Fits (len : Nat) (result : Option Nat) : Prop := ∀ n ∈ result, n ≤ len

instance (len : Nat) : (result : Option Nat) → Decidable (Fits len result)
  | none => isTrue (by simp [Fits])
  | some n => decidable_of_iff (n ≤ len) (by simp [Fits])

/-- A step without a system call. -/
def Answer.silently {α : Type} (answer : Answer) (result : α) : Option α :=
  match answer with
  | .silent => some result
  | _ => none

/-- A step that reads from the socket. -/
def Answer.reading {α : Type} (answer : Answer) (result : Option Bytes → α) : Option α :=
  match answer with
  | .bytes r => some (result r)
  | _ => none

/-- A step that offers `len` bytes to the socket. -/
def Answer.counting {α : Type} (answer : Answer) (len : Nat) (result : Option Nat → α) :
    Option α :=
  match answer with
  | .count r => if Fits len r then some (result r) else none
  | _ => none

/-- One step of the executing frame. -/
def frameStep (cb : Callbacks) (c : TcpConnection) (f : Frame) (answer : Answer) :
    Option (List Frame × TcpConnection) :=
  match f with
  | .user => none
  | .enableRead pc => answer.silently (enableReadStep cb c pc)
  | .handleEvents revents pc => answer.silently (handleEventsStep revents pc, c)
  | .handleRead => answer.reading (handleReadStep cb c)
  | .handleClose pc => answer.silently (handleCloseStep cb c pc)
  | .send data => answer.silently (sendStep c data)
  | .sendReturn data => answer.silently ([], c.emit (.returned .loop data))
  | .sendInLoop data pc =>
    match pc with
    | .write => answer.counting data.length (sendInLoopStep cb c data .write)
    | pc => answer.silently (sendInLoopStep cb c data pc none)
  | .handleWrite pc =>
    match pc with
    | .write => answer.counting c.outBuffer.length (handleWriteStep cb c .write)
    | .sendfile => answer.counting (min c.file.length intMax) (handleWriteStep cb c .sendfile)
    | pc => answer.silently (handleWriteStep cb c pc none)
  | .shutdown => answer.silently (shutdownStep c, c)
  | .shutdownStore => answer.silently ([.shutdownInLoop], c.store .kDisconnecting)
  | .shutdownInLoop => answer.silently ([], shutdownInLoopStep c)
  | .forceClose => answer.silently (forceCloseStep c, c)
  | .forceCloseInLoop => answer.silently (forceCloseInLoopStep c, c)

/-! ## The threads -/

/-- A queued task; a `sendInLoop` carries the thread that called `send`. -/
inductive Task where
  | sendInLoop (t : Tid) (data : Bytes)
  | shutdownInLoop
  | forceCloseInLoop
  | user
  deriving DecidableEq, Repr

/-- The frame with which the loop begins a task. -/
def Task.frame : Task → Frame
  | .sendInLoop t data => .sendInLoop data (.check (.other t))
  | .shutdownInLoop => .shutdownInLoop
  | .forceCloseInLoop => .forceCloseInLoop
  | .user => .user

/-- What another thread still has to do for the call it is in. -/
inductive Pending where
  | idle
  | sendTask (data : Bytes)
  | shutdownStore
  | shutdownTask
  | forceCloseTask
  deriving DecidableEq, Repr

/-- Where the loop is when no handler or task is executing: the active channels or the tasks of the
round that are left. An active channel is the connection's own, with its mask, or another one. -/
inductive Phase where
  | poll
  | dispatch (active : List (Option (BitVec 32)))
  | tasks (batch : List Task)
  deriving DecidableEq, Repr

/-- A connection with its loop and the other threads. -/
structure System where
  conn : TcpConnection
  stack : List Frame
  phase : Phase
  tasks : List Task
  pending : Tid → Pending

/-- The calls of user code on a connection. -/
inductive Call where
  | send (data : Bytes)
  | shutdown
  | forceClose
  | setSendFd (fd : Int) (file : Bytes) (stSize : Int)
  deriving DecidableEq, Repr

/-- What can happen next. -/
inductive Label where
  /-- The executing frame takes a step. -/
  | run (answer : Answer)
  /-- User code in the loop thread calls the connection. -/
  | call (call : Call)
  /-- User code in the loop thread returns. -/
  | ret
  /-- The loop goes on to the next active channel, the next task or the next round. -/
  | next
  | poll (active : List (Option (BitVec 32)))
  /-- Some thread queues a task that is not the connection's. -/
  | addTask
  /-- Another thread calls the connection. -/
  | other (t : Tid) (call : Call)
  /-- Another thread goes on with its call. -/
  | resume (t : Tid)
  deriving DecidableEq, Repr

namespace System

/-- The run starts with `enableRead()` in the loop thread, called from other code. -/
def start : System :=
  { conn := create, stack := [.enableRead .assert, .user], phase := .tasks [], tasks := [],
    pending := fun _ => .idle }

/-- A thread goes to another point of its call. -/
def setPending (s : System) (t : Tid) (p : Pending) : System :=
  { s with pending := Function.update s.pending t p }

/-- User code calls a function of the connection. -/
def callStep (s : System) : Call → System
  | .send data => { s with stack := .send data :: s.stack }
  | .shutdown =>
    { s with stack := .shutdown :: s.stack, conn := s.conn.emit (.shutdownCalled .loop) }
  | .forceClose => { s with stack := .forceClose :: s.stack }
  | .setSendFd fd file stSize => { s with conn := s.conn.setSendFd fd file stSize }

/-- The loop between two frames. -/
def nextStep (s : System) : Option System :=
  match s.phase with
  | .poll => none
  | .dispatch [] => some { s with phase := .tasks s.tasks, tasks := [] }
  | .dispatch (some revents :: rest) =>
    some { s with phase := .dispatch rest, stack := [.handleEvents revents .close] }
  | .dispatch (none :: rest) => some { s with phase := .dispatch rest, stack := [.user] }
  | .tasks [] => some { s with phase := .poll }
  | .tasks (task :: rest) => some { s with phase := .tasks rest, stack := [task.frame] }

/-- The load with which another thread's call begins. -/
def otherStep (s : System) (t : Tid) : Call → Option System
  | .send data =>
    if s.conn.state = .kConnected then
      some { s.setPending t (.sendTask data) with conn := s.conn.emit (.accepted (.other t) data) }
    else some s
  | .shutdown =>
    let s' := { s with conn := s.conn.emit (.shutdownCalled (.other t)) }
    if s.conn.state = .kConnected then some (s'.setPending t .shutdownStore) else some s'
  | .forceClose =>
    if s.conn.state ≠ .kDisconnected then some (s.setPending t .forceCloseTask) else some s
  | .setSendFd _ _ _ => none

/-- The store of `shutdown`, or the push of the task. -/
def resumeStep (s : System) (t : Tid) : Option System :=
  match s.pending t with
  | .idle => none
  | .sendTask data =>
    some { s.setPending t .idle with
      tasks := s.tasks ++ [.sendInLoop t data],
      conn := s.conn.emit (.returned (.other t) data) }
  | .shutdownStore =>
    some { s.setPending t .shutdownTask with conn := s.conn.store .kDisconnecting }
  | .shutdownTask => some { s.setPending t .idle with tasks := s.tasks ++ [.shutdownInLoop] }
  | .forceCloseTask => some { s.setPending t .idle with tasks := s.tasks ++ [.forceCloseInLoop] }

/-- `epoll_wait` reports a descriptor at most once, and only while it is registered. -/
def CanReport (c : TcpConnection) (active : List (Option (BitVec 32))) : Prop :=
  active.countP Option.isSome ≤ 1 ∧ (c.events = 0 → active.countP Option.isSome = 0)

instance (c : TcpConnection) (active : List (Option (BitVec 32))) :
    Decidable (CanReport c active) := inferInstanceAs (Decidable (_ ∧ _))

/-- One step of the loop thread or of another one. -/
def step (cb : Callbacks) (s : System) : Label → Option System
  | .run answer =>
    match s.stack with
    | [] => none
    | f :: rest =>
      (frameStep cb s.conn f answer).map fun (frames, conn) =>
        { s with conn, stack := frames ++ rest }
  | .call call => if s.stack.head? = some .user then some (s.callStep call) else none
  | .ret => if s.stack.head? = some .user then some { s with stack := s.stack.tail } else none
  | .next => if s.stack = [] then s.nextStep else none
  | .poll active =>
    if s.stack = [] ∧ s.phase = .poll ∧ CanReport s.conn active then
      some { s with phase := .dispatch active }
    else none
  | .addTask => some { s with tasks := s.tasks ++ [.user] }
  | .other t call => if s.pending t = .idle then s.otherStep t call else none
  | .resume t => s.resumeStep t

end System

end TcpConnection

end Yvent
