import Yvent.Http.FailStop
import Yvent.Http.Pipelining

/-!
# The session follows the server

`Connection` runs `onMessage` in one step behind each read. The session takes the steps of the same
function one by one, with calls into the connection and other threads in between. Still the requests
that reach `httpCallback_` are those of the sequential server over the reads, and between two
callbacks the context and its buffer are too.
-/

namespace Yvent.Http

open TcpConnection

variable {s s' : Session} {system : System} {l : Label} {label : SessionLabel} {pc : CallbackPc}
  {httpCallback : Bool} {depth : Nat} {f g : Frame} {conn conn' : Connection} {chunk : Bytes}
  {chunks : List Bytes} {trace : List Event}

/-! ## Reads -/

/-- The bytes of a read that reached the message callback. -/
def readOf : Event → Option Bytes
  | .messageCallback data => some data
  | _ => none

/-- What has been read from the socket, in its pieces. -/
def reads (trace : List Event) : List Bytes := trace.filterMap readOf

theorem reads_concat (trace : List Event) (e : Event) :
    reads (trace ++ [e]) = reads trace ++ (readOf e).toList := by
  rw [reads, List.filterMap_append]
  cases h : readOf e <;> simp [reads, h]

theorem reads_append (trace es : List Event) : reads (trace ++ es) = reads trace ++ reads es :=
  List.filterMap_append

theorem reads_emit {c : TcpConnection} {e : Event} (other : readOf e = none) :
    reads (c.emit e).trace = reads c.trace := by
  rw [emit_trace, reads_concat, other, Option.toList_none, List.append_nil]

/-- Only `handleRead` reads. -/
theorem reads_frameMove {cb : Callbacks} {c : TcpConnection} {answer : Answer}
    {result : List Frame × TcpConnection} (moved : FrameMove cb c f answer result)
    (notRead : f ≠ .handleRead) : reads result.2.trace = reads c.trace := by
  cases moved with
  | handleRead => exact absurd rfl notRead
  | enableRead pc =>
    cases pc with
    | assert =>
      simp only [enableReadStep]
      split
      · rfl
      · exact reads_emit rfl
    | store => exact reads_emit (e := .store .kConnected) rfl
    | enable =>
      simp only [enableReadStep]
      split
      · exact reads_emit (c := c.enableReading) rfl
      · rfl
  | handleClose pc =>
    cases pc with
    | assertConnected =>
      simp only [handleCloseStep]
      split <;> rfl
    | assertDisconnecting =>
      simp only [handleCloseStep]
      split
      · rfl
      · exact reads_emit rfl
    | store => exact reads_emit (e := .store .kDisconnected) rfl
    | notify =>
      simp only [handleCloseStep]
      split
      · exact reads_emit (c := c.disableAll) rfl
      · rfl
    | close =>
      simp only [handleCloseStep]
      split
      · exact reads_emit rfl
      · rfl
  | send data =>
    unfold sendStep
    split
    · exact reads_emit rfl
    · rfl
  | sendReturn => exact reads_emit rfl
  | sendInLoop data pc answer r =>
    cases pc with
    | check caller =>
      simp only [sendInLoopStep]
      split
      · rfl
      · split <;> exact reads_emit rfl
    | write =>
      cases r with
      | none => exact reads_emit rfl
      | some n =>
        simp only [sendInLoopStep]
        split
        · exact reads_emit rfl
        · split
          · exact (reads_emit rfl).trans (reads_emit rfl)
          · exact reads_emit rfl
    | rest n =>
      simp only [sendInLoopStep]
      split
      · split <;> rfl
      · rfl
  | handleWrite pc answer r =>
    cases pc with
    | test =>
      simp only [handleWriteStep]
      repeat' split
      all_goals rfl
    | write | sendfile =>
      cases r with
      | none => exact reads_emit rfl
      | some n =>
        simp only [handleWriteStep]
        split <;> exact reads_emit rfl
    | drained | sent =>
      simp only [handleWriteStep]
      split <;> rfl
    | complete =>
      simp only [handleWriteStep]
      split
      · exact reads_emit rfl
      · rfl
    | closeFd => exact reads_emit rfl
  | shutdownStore => exact reads_emit (e := .store .kDisconnecting) rfl
  | shutdownInLoop =>
    unfold shutdownInLoopStep
    split
    · rfl
    · exact reads_emit rfl
  | handleEvents | shutdown | forceClose | forceCloseInLoop => rfl

theorem reads_outside {s s' : System} (out : System.Outside s s') :
    reads s'.conn.trace = reads s.conn.trace := by
  cases out with
  | begin _ _ _ _ same | silent _ same => rw [same]
  | event e other _ same =>
    rw [same]
    cases e with
    | messageCallback => cases other
    | _ => exact reads_emit rfl
  | store _ same =>
    rw [same]
    exact reads_emit (e := .store .kDisconnecting) rfl

theorem reads_step {cb : Callbacks} {s s' : System} (taken : System.step cb s l = some s')
    (notRead : top s.stack ≠ .handleRead) : reads s'.conn.trace = reads s.conn.trace := by
  cases System.turn_of_step taken with
  | run answer here moved =>
    rw [here] at notRead
    exact reads_frameMove moved notRead
  | call call =>
    cases call with
    | send | forceClose => rfl
    | shutdown => exact reads_emit rfl
    | setSendFd fd file => exact reads_emit (e := .setSendFd fd file) rfl
  | ret => rfl
  | outside _ out => exact reads_outside out

/-! ## The frames above a callback -/

/-- The frames that the loop begins a round with, and `enableRead`. -/
@[simp] def outermost : Frame → Bool
  | .enableRead _ | .handleEvents _ _ | .handleRead => true
  | _ => false

theorem outermost_of_leadsTo (leads : f.leadsTo g = true) (inner : outermost f = false) :
    outermost g = false := by
  cases g with
  | enableRead | handleEvents | handleRead =>
    cases f with
    | enableRead | handleEvents | handleRead => cases inner
    | handleWrite pc => cases pc <;> cases leads
    | _ => cases leads
  | _ => rfl

/-- The frame of the callback is on the stack, with calls on the connection above it. -/
def Covered (stack : List Frame) (depth : Nat) : Prop :=
  ∃ above rest, stack = above ++ .user :: rest ∧ rest.length + 1 = depth ∧
    ∀ f ∈ above, outermost f = false

/-- No call of the connection begins a round. -/
theorem inner_callStep (system : System) (call : Call) :
    ∃ frames, (system.callStep call).stack = frames ++ system.stack ∧
      ∀ f ∈ frames, outermost f = false := by
  cases call with
  | send data => exact ⟨[.send data], rfl, by simp⟩
  | shutdown => exact ⟨[.shutdown], rfl, by simp⟩
  | forceClose => exact ⟨[.forceClose], rfl, by simp⟩
  | setSendFd => exact ⟨[], rfl, by simp⟩

/-- What takes the place of a frame above the callback is above it, too. -/
theorem Covered.step {s s' : System} {above rest : List Frame}
    (stack : s.stack = f :: above ++ .user :: rest)
    (inner : ∀ g ∈ f :: above, outermost g = false)
    (taken : System.step serverCallbacks s l = some s') : Covered s'.stack (rest.length + 1) := by
  obtain ⟨first, others⟩ := List.forall_mem_cons.mp inner
  cases System.turn_of_step taken with
  | @run g _ frames conn answer here moved =>
    rw [stack] at here
    cases here
    refine ⟨frames ++ above, rest, (List.append_assoc _ _ _).symm, rfl, ?_⟩
    rw [List.forall_mem_append]
    exact ⟨fun g mem => outermost_of_leadsTo (moved.leadsTo g mem) first, others⟩
  | call call =>
    obtain ⟨frames, grown, calls⟩ := inner_callStep s call
    refine ⟨frames ++ f :: above, rest, ?_, rfl, ?_⟩
    · rw [grown, stack, List.append_assoc]
    · rw [List.forall_mem_append]
      exact ⟨calls, List.forall_mem_cons.mpr ⟨first, others⟩⟩
  | ret here =>
    rw [stack] at here
    cases here
    exact ⟨above, rest, rfl, rfl, others⟩
  | outside _ out =>
    have same : s'.stack = s.stack := by
      cases out with
      | begin _ idle =>
        rw [stack] at idle
        cases idle
      | event _ _ stack | store stack | silent stack => exact stack
    exact ⟨f :: above, rest, same.trans stack, rfl, List.forall_mem_cons.mpr ⟨first, others⟩⟩

/-- The connection, its loop or another thread takes a step while a callback is on the stack: it
stays there, no other callback begins, and nothing is read. -/
theorem Covered.beside (covered : Covered s.system.stack depth)
    (callback : s.callback = some (pc, depth))
    (free : s.executing.isSome = true → l.ofUser = false)
    (taken : System.step serverCallbacks s.system l = some system) :
    Covered system.stack depth ∧ s.follow l system = { s with system } ∧
      reads system.conn.trace = reads s.system.conn.trace := by
  obtain ⟨above, rest, stack, rfl, inner⟩ := covered
  cases above with
  | nil =>
    have executing : s.executing = some pc := by simp [Session.executing, callback, stack]
    have notRead : top s.system.stack ≠ .handleRead := by simp [stack]
    have beside := Session.beside_of_executing stack executing free taken
    refine ⟨⟨[], rest, beside.stack.trans stack, rfl, inner⟩, ?_, reads_step taken notRead⟩
    exact Session.follow_eq notRead (by simp [stack])
  | cons f above =>
    have first := (List.forall_mem_cons.mp inner).1
    have notRead : top s.system.stack ≠ .handleRead := by
      rintro same
      rw [stack] at same
      cases (show f = .handleRead from same)
      cases first
    refine ⟨Covered.step stack inner taken, Session.follow_eq notRead ?_, reads_step taken notRead⟩
    rintro same
    rw [stack] at same
    cases (show f = .enableRead .enable from same)
    cases first

theorem Covered.executing {stack : List Frame} (covered : Covered stack depth)
    (length : stack.length = depth) : ∃ rest, stack = .user :: rest ∧ rest.length + 1 = depth := by
  obtain ⟨above, rest, rfl, rfl, inner⟩ := covered
  have alone : above = [] := by
    rw [List.length_append, List.length_cons] at length
    exact List.eq_nil_of_length_eq_zero (by omega)
  subst alone
  exact ⟨rest, rfl, rfl⟩

/-- The callback calls the connection. -/
theorem Covered.call {call : Call} (covered : Covered s.system.stack depth)
    (length : s.system.stack.length = depth)
    (called : System.step serverCallbacks s.system (.call call) = some system) :
    Covered system.stack depth ∧ reads system.conn.trace = reads s.system.conn.trace := by
  obtain ⟨rest, stack, rfl⟩ := covered.executing length
  refine ⟨?_, reads_step called (by simp [stack])⟩
  cases System.move_of_step called with
  | call =>
    obtain ⟨frames, grown, calls⟩ := inner_callStep s.system call
    exact ⟨frames, rest, by rw [grown, stack], rfl, calls⟩

/-! ## The end of `enableRead` -/

/-- The frame belongs to `enableRead`. -/
@[simp] def enabling : Frame → Bool
  | .enableRead _ => true
  | _ => false

theorem enabling_of_leadsTo (leads : f.leadsTo g = true) (other : enabling f = false) :
    enabling g = false := by
  cases g with
  | enableRead =>
    cases f with
    | enableRead => cases other
    | handleWrite pc => cases pc <;> cases leads
    | _ => cases leads
  | _ => rfl

theorem begun_of_ended {stack : List Frame} (ended : ∀ f ∈ stack, enabling f = false) :
    ∀ f ∈ stack, f.starting = false := by
  intro f mem
  have other := ended f mem
  cases f with
  | enableRead => cases other
  | _ => rfl

/-- `enableRead` is called once. -/
theorem enabling_step {cb : Callbacks} {s s' : System} (ended : ∀ f ∈ s.stack, enabling f = false)
    (taken : System.step cb s l = some s') : ∀ f ∈ s'.stack, enabling f = false := by
  cases System.turn_of_step taken with
  | run answer here moved =>
    rw [here] at ended
    obtain ⟨first, ended⟩ := List.forall_mem_cons.mp ended
    rw [List.forall_mem_append]
    exact ⟨fun g mem => enabling_of_leadsTo (moved.leadsTo g mem) first, ended⟩
  | call call =>
    cases call with
    | send | shutdown | forceClose => exact List.forall_mem_cons.mpr ⟨rfl, ended⟩
    | setSendFd => exact ended
  | ret here =>
    rw [here] at ended
    exact (List.forall_mem_cons.mp ended).2
  | outside _ out =>
    cases out with
    | begin f _ first stack =>
      rw [stack, List.forall_mem_singleton]
      cases f with
      | enableRead => cases first
      | _ => rfl
    | event _ _ stack | store stack | silent stack =>
      rw [stack]
      exact ended

namespace Session

/-- The requests that `httpCallback_` was invoked with. -/
def requests (s : Session) : List HttpRequest := s.log.filterMap Happening.request?

theorem requests_concat {happening : Happening} (log : s'.log = s.log ++ [happening]) :
    s'.requests = s.requests ++ happening.request?.toList := by
  rw [requests, requests, log, List.filterMap_append]
  cases happening <;> rfl

/-- Nothing has happened yet. -/
structure Untouched (s : Session) : Prop where
  context : s.context = none
  inBuffer : s.inBuffer = []
  log : s.log = []
  reads : reads s.system.conn.trace = []

/-- `parseRequest` has returned for `chunk`, which was read behind what `conn` is given. -/
def Parsed (conn : Connection) (chunk : Bytes) (result : Bool) (context : HttpContext)
    (s : Session) : Prop :=
  Http.parseRequest conn.context (conn.inBuffer ++ chunk) = some (result, context, s.inBuffer) ∧
    s.context = some context

/-- How far `onMessage` is with `chunk`. -/
def Stage (conn : Connection) (chunk : Bytes) (s : Session) : CallbackPc → Prop
  | .onConnection => False
  | .parseRequest =>
    s.context = some conn.context ∧ s.inBuffer = conn.inBuffer ++ chunk ∧
      s.requests = conn.requests
  | .sendBadRequest | .shutdownBadRequest =>
    ∃ context, Parsed conn chunk false context s ∧ s.requests = conn.requests
  | .parseDone =>
    ∃ result context, Parsed conn chunk result context s ∧ s.requests = conn.requests
  | .httpCallback _ _ | .send _ _ | .closeConnection _ | .reset =>
    ∃ result context, Parsed conn chunk result context s ∧ context.parseDone = true ∧
      s.requests = conn.requests ++ [context.request]

/-- Where the session is beside the sequential server. A connection that is shut down before
`onConnection` gets no context, and its first message is its last. -/
inductive Follows (s : Session) : Prop
  | starting {pc : EnableReadPc} (stack : s.system.stack = [.enableRead pc, .user])
      (callback : s.callback = none) (untouched : s.Untouched)
  | connecting {depth : Nat} (ended : ∀ f ∈ s.system.stack, enabling f = false)
      (callback : s.callback = some (.onConnection, depth))
      (covered : Covered s.system.stack depth) (untouched : s.Untouched)
  | lost (ended : ∀ f ∈ s.system.stack, enabling f = false)
      (unconnected : s.system.conn.state ≠ .kConnected) (context : s.context = none)
      (log : s.log = []) (callback : ∀ pc depth, s.callback = some (pc, depth) → pc = .parseRequest)
  | between {conn : Connection} (ended : ∀ f ∈ s.system.stack, enabling f = false)
      (callback : s.callback = none)
      (delivered : Connection.deliverAll {} (reads s.system.conn.trace) = some conn)
      (context : s.context = some conn.context) (inBuffer : s.inBuffer = conn.inBuffer)
      (requests : s.requests = conn.requests)
  | within {conn : Connection} {chunks : List Bytes} {chunk : Bytes} {pc : CallbackPc}
      {depth : Nat} (ended : ∀ f ∈ s.system.stack, enabling f = false)
      (callback : s.callback = some (pc, depth)) (covered : Covered s.system.stack depth)
      (read : reads s.system.conn.trace = chunks ++ [chunk])
      (delivered : Connection.deliverAll {} chunks = some conn) (stage : Stage conn chunk s pc)

theorem follows_start : Follows .start := .starting rfl rfl ⟨rfl, rfl, rfl, rfl⟩

theorem Untouched.keep (untouched : s.Untouched) {callback : Option (CallbackPc × Nat)}
    (unread : Http.reads system.conn.trace = Http.reads s.system.conn.trace) :
    Untouched { s with system, callback } :=
  ⟨untouched.context, untouched.inBuffer, untouched.log, unread.trans untouched.reads⟩

theorem Stage.keep (stage : Stage conn chunk s pc) (context : s'.context = s.context)
    (inBuffer : s'.inBuffer = s.inBuffer) (log : s'.log = s.log) : Stage conn chunk s' pc := by
  have requests : s'.requests = s.requests := congrArg (List.filterMap Happening.request?) log
  cases pc with
  | onConnection => exact stage
  | _ => simpa only [Stage, Parsed, context, inBuffer, requests] using stage

/-! ## Steps of the connection -/

/-- A callback begins in a step of the loop thread. -/
theorem follow_outside (beside : ∀ answer, l ≠ .run answer) :
    s.follow l system = { s with system } := by
  unfold follow
  split
  · exact absurd rfl (beside _)
  · exact absurd rfl (beside _)
  · rfl

/-- Behind `enableRead` a step of the connection begins a message with what it reads, or leaves the
session as it is. -/
theorem follow_cases (ended : ∀ f ∈ s.system.stack, enabling f = false)
    (taken : System.step serverCallbacks s.system l = some system) :
    (∃ data rest, s.follow l system = { s with
        system, inBuffer := s.inBuffer ++ data,
        callback := some (.parseRequest, rest.length + 1) } ∧
      system.stack = .user :: rest ∧
      reads system.conn.trace = reads s.system.conn.trace ++ [data]) ∨
    s.follow l system = { s with system } ∧
      reads system.conn.trace = reads s.system.conn.trace := by
  have notStart : top s.system.stack ≠ .enableRead .enable := by
    intro same
    cases stack : s.system.stack with
    | nil =>
      rw [stack] at same
      cases same
    | cons f rest =>
      rw [stack, top_cons] at same
      subst same
      cases ended _ (stack ▸ List.mem_cons_self)
  by_cases reading : top s.system.stack = .handleRead
  · by_cases running : ∃ answer, l = .run answer
    · obtain ⟨answer, rfl⟩ := running
      obtain ⟨f, rest, frames, conn, here, ran, rfl⟩ := System.run_of_step taken
      rw [here, top_cons] at reading
      subst reading
      obtain ⟨r, rfl, eq⟩ := Answer.reading_eq_some ran
      rcases r with _ | _ | ⟨b, data⟩
      · cases eq
        exact Or.inr ⟨by simp [follow, here], rfl⟩
      · cases eq
        exact Or.inr ⟨by simp [follow, here], rfl⟩
      · cases eq
        exact Or.inl ⟨b :: data, rest, by simp [follow, here], rfl, reads_concat _ _⟩
    · cases System.turn_of_step taken with
      | run answer => exact absurd ⟨answer, rfl⟩ running
      | call call here | ret here =>
        rw [here] at reading
        cases reading
      | outside beside out => exact Or.inr ⟨follow_outside beside, reads_outside out⟩
  · exact Or.inr ⟨follow_eq reading notStart, reads_step taken reading⟩

/-- A step before the end of `enableRead`. -/
theorem follows_starting {pc : EnableReadPc} (stack : s.system.stack = [.enableRead pc, .user])
    (callback : s.callback = none) (untouched : s.Untouched)
    (taken : System.step serverCallbacks s.system l = some system) :
    (s.follow l system).Follows := by
  have unread := reads_step taken (by simp [stack])
  by_cases running : ∃ answer, l = .run answer
  · obtain ⟨answer, rfl⟩ := running
    obtain ⟨f, rest, frames, conn, here, ran, rfl⟩ := System.run_of_step taken
    rw [stack] at here
    cases here
    obtain ⟨rfl, eq⟩ := Answer.silently_eq_some ran
    cases pc with
    | assert | store =>
      cases eq
      rw [follow_eq (by simp [stack]) (by simp [stack])]
      exact .starting rfl callback (untouched.keep unread)
    | enable =>
      cases eq
      have begins : ∀ system, s.follow (.run .silent) system =
          { s with system, callback := some (.onConnection, system.stack.length) } := by
        intro system
        simp [follow, stack]
      rw [begins]
      exact .connecting (by simp) rfl ⟨[], [.user], rfl, rfl, by simp⟩ (untouched.keep unread)
  · cases System.turn_of_step taken with
    | run answer => exact absurd ⟨answer, rfl⟩ running
    | call call here | ret here =>
      rw [stack] at here
      cases here
    | outside beside out =>
      rw [follow_outside beside]
      have stays : system.stack = [.enableRead pc, .user] := by
        cases out with
        | begin _ idle =>
          rw [stack] at idle
          cases idle
        | event _ _ same | store same | silent same => exact same.trans stack
      exact .starting stays callback (untouched.keep unread)

theorem Follows.step_system (follows : s.Follows)
    (free : s.executing.isSome = true → l.ofUser = false)
    (taken : System.step serverCallbacks s.system l = some system) :
    (s.follow l system).Follows := by
  cases follows with
  | starting stack callback untouched => exact follows_starting stack callback untouched taken
  | connecting ended callback covered untouched =>
    obtain ⟨covered, same, unread⟩ := covered.beside callback free taken
    rw [same]
    exact .connecting (enabling_step ended taken) callback covered (untouched.keep unread)
  | lost ended unconnected context log callback =>
    have unconnected := System.unconnected_step (begun_of_ended ended) unconnected taken
    rcases follow_cases ended taken with ⟨data, rest, same, -, -⟩ | ⟨same, -⟩
    · rw [same]
      refine .lost (enabling_step ended taken) unconnected context log fun pc depth here => ?_
      cases here
      rfl
    · rw [same]
      exact .lost (enabling_step ended taken) unconnected context log callback
  | between ended callback delivered context inBuffer requests =>
    rcases follow_cases ended taken with ⟨data, rest, same, stack, read⟩ | ⟨same, unread⟩
    · rw [same]
      refine .within (enabling_step ended taken) rfl ⟨[], rest, stack, rfl, by simp⟩ read delivered ?_
      exact ⟨context, congrArg (· ++ data) inBuffer, requests⟩
    · rw [same]
      refine .between (enabling_step ended taken) callback ?_ context inBuffer requests
      exact (congrArg _ unread).trans delivered
  | within ended callback covered read delivered stage =>
    obtain ⟨covered, same, unread⟩ := covered.beside callback free taken
    rw [same]
    exact .within (enabling_step ended taken) callback covered (unread.trans read) delivered
      (stage.keep rfl rfl rfl)

/-! ## Steps of the callback -/

theorem onMessage_eq {result : Bool} {context : HttpContext} {rest : Bytes}
    (returns : Http.parseRequest conn.context (conn.inBuffer ++ chunk) =
      some (result, context, rest)) :
    ∃ conn', conn.deliver chunk = some conn' ∧
      conn'.context = (if context.parseDone then context.reset else context) ∧
      conn'.inBuffer = rest ∧ conn'.requests =
        conn.requests ++ if context.parseDone then [context.request] else [] := by
  refine ⟨_, by rw [Connection.deliver, Connection.onMessage, returns]; rfl, ?_⟩
  cases done : context.parseDone <;> cases result <;>
    simp [done, Connection.requests, List.filterMap_cons, Action.request?]

/-- `onMessage` is at its end. -/
theorem follows_returned {result : Bool} {context : HttpContext} {rest : List Frame}
    (ended : ∀ f ∈ s.system.stack, enabling f = false) (stack : s.system.stack = .user :: rest)
    (read : reads s.system.conn.trace = chunks ++ [chunk])
    (delivered : Connection.deliverAll {} chunks = some conn)
    (parsed : Parsed conn chunk result context s)
    (requests : s.requests = conn.requests ++ if context.parseDone then [context.request] else [])
    (returned : System.step serverCallbacks s.system .ret = some system) :
    Follows { s with
      system, context := some (if context.parseDone then context.reset else context),
      callback := none } := by
  obtain ⟨conn', last, context', inBuffer', requests'⟩ := onMessage_eq parsed.1
  have unread := reads_step returned (by simp [stack])
  have behind : Connection.deliverAll {} (reads system.conn.trace) = some conn' := by
    rw [unread, read, deliverAll_concat, delivered]
    exact last
  refine .between (enabling_step ended returned) rfl behind ?_ inBuffer'.symm ?_
  · rw [context']
  · exact requests.trans requests'.symm

/-- `onConnection` returns. -/
theorem follows_connected (ended : ∀ f ∈ s.system.stack, enabling f = false)
    (stack : top s.system.stack = .user) (untouched : s.Untouched) {context : Option HttpContext}
    (given : context = none ∧ s.system.conn.state ≠ .kConnected ∨ context = some {})
    (returned : System.step serverCallbacks s.system .ret = some system) :
    Follows { s with system, context, callback := none } := by
  have unread := reads_step returned (by simp [stack])
  rcases given with ⟨rfl, unconnected⟩ | rfl
  · exact .lost (enabling_step ended returned)
      (System.unconnected_step (begun_of_ended ended) unconnected returned) rfl untouched.log
      fun _ _ here => by cases here
  · have delivered : Connection.deliverAll {} (reads system.conn.trace) = some {} := by
      rw [unread, untouched.reads]
      rfl
    refine .between (enabling_step ended returned) rfl delivered rfl untouched.inBuffer ?_
    rw [requests, untouched.log]
    rfl

/-- `onMessage` goes on to `pc`. -/
theorem follows_within (ended : ∀ f ∈ s.system.stack, enabling f = false)
    (callback : s.callback = some (pc, depth)) (covered : Covered s.system.stack depth)
    (length : s.system.stack.length = depth)
    (read : reads s.system.conn.trace = chunks ++ [chunk])
    (delivered : Connection.deliverAll {} chunks = some conn) {pc' : CallbackPc} {c : Call}
    {log : List Happening}
    (called : System.step serverCallbacks s.system (.call c) = some system)
    (stage : Stage conn chunk { s.goto pc' with system, log } pc') :
    Follows { s.goto pc' with system, log } := by
  obtain ⟨above, unread⟩ := covered.call length called
  exact .within (enabling_step ended called) (goto_callback callback pc') above
    (unread.trans read) delivered stage

theorem Follows.step_callback (follows : s.Follows) (here : s.executing = some pc)
    (taken : s.callbackStep true pc label = some s') : s'.Follows := by
  obtain ⟨depth, callback, length⟩ := exists_of_executing here
  have moved := callbackMove_of_callbackStep taken
  cases follows with
  | starting _ none | between _ none =>
    rw [none] at callback
    cases callback
  | connecting ended same covered untouched =>
    rw [callback] at same
    cases same
    obtain ⟨rest, stack, -⟩ := covered.executing length
    cases moved
    obtain ⟨system, returned, same⟩ := Option.map_eq_some_iff.mp taken
    rw [← same]
    refine follows_connected ended (by rw [stack]; rfl) untouched ?_ returned
    split
    · exact Or.inr rfl
    · next unconnected => exact Or.inl ⟨untouched.context, unconnected⟩
  | lost ended unconnected context log only =>
    cases only _ _ callback
    cases moved with
    | parse here =>
      rw [context] at here
      cases here
  | @within conn chunks chunk _ _ ended same covered read delivered stage =>
    rw [callback] at same
    cases same
    obtain ⟨rest, stack, -⟩ := covered.executing length
    have stays : ∀ {pc' context inBuffer log},
        Stage conn chunk { s.goto pc' with context, inBuffer, log } pc' →
        Follows { s.goto pc' with context, inBuffer, log } := fun stage =>
      .within ended (goto_callback callback _) covered read delivered stage
    cases moved with
    | onConnection => cases stage
    | @parse context context' result inBuffer present returns =>
      obtain ⟨same, buffer, requests⟩ := stage
      cases same.symm.trans present
      rw [buffer] at returns
      refine stays ?_
      cases result with
      | true => exact ⟨true, context', ⟨returns, rfl⟩, requests⟩
      | false => exact ⟨context', ⟨returns, rfl⟩, requests⟩
    | badRequest called =>
      exact follows_within ended callback covered length read delivered called stage
    | badShutdown called =>
      exact follows_within ended callback covered length read delivered called ⟨false, stage⟩
    | @wait context system present unfinished returned =>
      obtain ⟨result, context', parsed, requests⟩ := stage
      cases present.symm.trans parsed.2
      have next := follows_returned ended stack read delivered parsed
        (by simpa [unfinished] using requests) returned
      simp only [unfinished, Bool.false_eq_true, if_false, ← present] at next
      exact next
    | invoke response present done =>
      obtain ⟨result, context', parsed, requests⟩ := stage
      cases present.symm.trans parsed.2
      refine stays ⟨result, _, parsed, done, ?_⟩
      rw [requests_concat (s := s) rfl, requests]
      rfl
    | skip response present done =>
      simp only [callbackStep, present, Option.bind_some, done, if_true] at taken
      have same := congrArg Session.log (Option.some.inj taken)
      simp [goto] at same
    | call called =>
      exact follows_within ended callback covered length read delivered called stage
    | answer fill => exact stays stage
    | issue called =>
      obtain ⟨result, context, parsed, done, requests⟩ := stage
      refine follows_within ended callback covered length read delivered called
        ⟨result, context, parsed, done, ?_⟩
      rw [requests_concat (s := s) rfl, requests]
      exact List.append_nil _
    | close called => exact follows_within ended callback covered length read delivered called stage
    | keepAlive => exact stays stage
    | reset =>
      obtain ⟨result, context, parsed, done, requests⟩ := stage
      obtain ⟨system, returned, same⟩ := Option.map_eq_some_iff.mp taken
      have next := follows_returned ended stack read delivered parsed
        (by simpa [done] using requests) returned
      simp only [done, if_true] at next
      rw [← same, parsed.2]
      exact next

theorem Follows.step (follows : s.Follows) (taken : s.step true label = some s') : s'.Follows := by
  cases move_of_step taken with
  | system free stepped => exact follows.step_system free stepped
  | @callback pc label s' here moved =>
    have stepped : s.callbackStep true pc label = some s' := by
      cases label with
      | system => cases moved
      | go | call | answer => simpa only [step, here, Option.bind_some] using taken
    exact follows.step_callback here stepped

/-! ## Runs -/

/-- `httpCallback_` has been invoked with the requests that the sequential server finds in the reads.
While a callback is executing the last read may still be missing; between two callbacks the context
and the buffer are those of the server, too. -/
structure RefinesServer (s : Session) (chunks : List Bytes) (conn : Connection) : Prop where
  delivered : Connection.deliverAll {} chunks = some conn
  requests : s.requests = conn.requests
  reads : chunks <+: reads s.system.conn.trace
  recent : ∀ context, s.context = some context →
    (Http.reads s.system.conn.trace).length ≤ chunks.length + 1 ∧
      (s.callback = none → chunks = Http.reads s.system.conn.trace ∧ context = conn.context ∧
        s.inBuffer = conn.inBuffer)

theorem requests_of_onMessage {result : Bool} {context : HttpContext}
    (parsed : Parsed conn chunk result context s) : ∃ conn', conn.deliver chunk = some conn' ∧
      conn'.requests = conn.requests ++ if context.parseDone then [context.request] else [] := by
  obtain ⟨conn', last, -, -, requests⟩ := onMessage_eq parsed.1
  exact ⟨conn', last, requests⟩

theorem Follows.refinesServer (follows : s.Follows) :
    ∃ chunks conn, s.RefinesServer chunks conn := by
  have missing : s.context = none → s.log = [] → s.RefinesServer [] {} := by
    intro context log
    refine ⟨rfl, by rw [Session.requests, log]; rfl, List.nil_prefix, fun c present => ?_⟩
    rw [context] at present
    cases present
  cases follows with
  | starting _ _ untouched | connecting _ _ _ untouched =>
    exact ⟨_, _, missing untouched.context untouched.log⟩
  | lost _ _ context log => exact ⟨_, _, missing context log⟩
  | @between conn ended callback delivered context inBuffer requests =>
    refine ⟨_, conn, delivered, requests, List.prefix_refl _, fun c present => ?_⟩
    rw [context] at present
    cases present
    exact ⟨Nat.le_succ _, fun _ => ⟨rfl, rfl, inBuffer⟩⟩
  | @within conn chunks chunk pc depth ended callback covered read delivered stage =>
    have busy : s.callback ≠ none := by simp [callback]
    have before : s.requests = conn.requests → s.RefinesServer chunks conn := by
      refine fun requests => ⟨delivered, requests, read ▸ List.prefix_append _ _, fun _ _ => ?_⟩
      rw [read, List.length_append]
      exact ⟨Nat.le_refl _, fun none => absurd none busy⟩
    have behind : ∀ result context, Parsed conn chunk result context s →
        context.parseDone = true → s.requests = conn.requests ++ [context.request] →
        ∃ conn', s.RefinesServer (chunks ++ [chunk]) conn' := by
      intro result context parsed done requests
      obtain ⟨conn', last, requests'⟩ := requests_of_onMessage parsed
      rw [if_pos done] at requests'
      refine ⟨conn', ?_, requests.trans requests'.symm, read ▸ List.prefix_refl _, fun _ _ => ?_⟩
      · rw [deliverAll_concat, delivered]
        exact last
      · rw [read]
        exact ⟨Nat.le_succ _, fun none => absurd none busy⟩
    cases pc with
    | onConnection => cases stage
    | parseRequest => exact ⟨_, _, before stage.2.2⟩
    | sendBadRequest | shutdownBadRequest =>
      obtain ⟨_, _, requests⟩ := stage
      exact ⟨_, _, before requests⟩
    | parseDone =>
      obtain ⟨_, _, _, requests⟩ := stage
      exact ⟨_, _, before requests⟩
    | httpCallback | send | closeConnection | reset =>
      obtain ⟨result, context, parsed, done, requests⟩ := stage
      exact ⟨_, behind result context parsed done requests⟩

/-- In every run, with any calls of other threads and of `httpCallback_` between the steps of the
callbacks, the requests dispatched are those of the sequential server over what has been read. -/
theorem refinesServer_of_reaches (reached : Reaches (step true) anyStep .start s) :
    ∃ chunks conn, s.RefinesServer chunks conn := by
  have follows : s.Follows := reached.invariant follows_start fun _ _ _ _ follows _ taken =>
    follows.step taken
  exact follows.refinesServer

/-- A request in two reads. -/
theorem refinesServer_two_reads :
    ∃ (s : Session) (chunks : List Bytes) (conn : Connection), s.RefinesServer chunks conn ∧
      conn.requests.length = 1 ∧ (reads s.system.conn.trace).length = 2 := by
  obtain ⟨s, reached, one, two⟩ :
      ∃ s, Reaches (step true) anyStep .start s ∧ s.requests.length = 1 ∧
        (reads s.system.conn.trace).length = 2 :=
    exists_reaches_of_exec
      (List.flatten [[.run .silent, .run .silent, .run .silent].map .system, [.go],
        [.ret, .next, .poll [some EPOLLIN], .next, .run .silent, .run .silent, .run .silent,
          .run (.bytes (some (getRoot.bytes.take 15)))].map .system, [.go, .go],
        [.run .silent, .next, .next, .poll [some EPOLLIN], .next, .run .silent, .run .silent,
          .run .silent, .run (.bytes (some (getRoot.bytes.drop 15)))].map .system, [.go, .go]])
      (by decide +kernel)
  obtain ⟨chunks, conn, refines⟩ := refinesServer_of_reaches reached
  exact ⟨s, chunks, conn, refines, refines.requests ▸ one, two⟩

end Session

end Yvent.Http
