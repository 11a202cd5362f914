import Yvent.Connection.Step

/-!
# The output of a connection

What `sendInLoop` has been given is, in order, what `::write` has taken, what `outBuffer_` holds and
what the executing `sendInLoop` has yet to put there. The last part is only ever on the top of the
stack: when user code runs inside `sendInLoop`, its message has been written completely. And what
the threads have been promised is what was given to `sendInLoop`, what is on its way in the task
queue, and what a thread is about to put there.
-/

namespace Yvent

namespace Event

/-- The bytes `::write` put on the socket. -/
@[simp] def wrote : Event → Bytes
  | .write data (some n) => data.take n
  | _ => []

/-- The bytes put on the socket. -/
@[simp] def sent : Event → Bytes
  | .write data (some n) => data.take n
  | .sendfile file (some n) => file.take n
  | _ => []

/-- The payload of an executed `sendInLoop`. -/
@[simp] def payload : Event → Bytes
  | .executed _ data => data
  | _ => []

/-- The message, if `send` accepted it from this thread. -/
@[simp] def acceptedBy (caller : Caller) : Event → Option Bytes
  | .accepted caller' data => if caller' = caller then some data else none
  | _ => none

/-- The message, if this thread sent it and it was given to `sendInLoop`. -/
@[simp] def executedBy (caller : Caller) : Event → Option Bytes
  | .executed caller' data => if caller' = caller then some data else none
  | _ => none

/-- Events that move messages or bytes, attach a file or end the stream. -/
def moves : Event → Bool
  | .accepted _ _ | .executed _ _ | .write _ _ | .setSendFd _ _ | .sendfile _ _
  | .shutdownWr => true
  | _ => false

end Event

namespace TcpConnection

/-- The bytes that `::write` put on the socket. -/
def wrote (trace : List Event) : Bytes := trace.flatMap Event.wrote

/-- The bytes put on the socket. -/
def sent (trace : List Event) : Bytes := trace.flatMap Event.sent

/-- The payloads of the `sendInLoop` calls, in execution order. -/
def executed (trace : List Event) : Bytes := trace.flatMap Event.payload

/-- The messages of a thread that `send` accepted. -/
def acceptedBy (caller : Caller) (trace : List Event) : List Bytes :=
  trace.filterMap (Event.acceptedBy caller)

/-- The messages of a thread that `sendInLoop` was given. -/
def executedBy (caller : Caller) (trace : List Event) : List Bytes :=
  trace.filterMap (Event.executedBy caller)

/-- `handleClose` has not made its store. -/
def Open (trace : List Event) : Prop := .store .kDisconnected ∉ trace

instance (trace : List Event) : Decidable (Open trace) := inferInstanceAs (Decidable (¬_))

/-- The part of its message that an executing `sendInLoop` has neither written nor buffered. -/
@[simp] def Frame.rest : Frame → Bytes
  | .sendInLoop data .write => data
  | .sendInLoop data (.rest n) => data.drop n
  | _ => []

/-- The frame has found `outBuffer_` empty and relies on it. -/
@[simp] def Frame.direct : Frame → Bool
  | .sendInLoop _ .write | .handleWrite .sendfile => true
  | _ => false

/-- The frame's next step is a system call that sends. -/
@[simp] def Frame.issues : Frame → Bool
  | .sendInLoop _ .write | .handleWrite .write | .handleWrite .sendfile => true
  | _ => false

/-- The message of a `sendInLoop` that is about to begin. -/
@[simp] def Frame.entering (caller : Caller) : Frame → List Bytes
  | .sendInLoop data (.check caller') => if caller' = caller then [data] else []
  | _ => []

/-- The event is a call of `::write` or `::sendfile`. -/
@[simp] def sends : Event → Bool
  | .write _ _ | .sendfile _ _ => true
  | _ => false

/-- A frame that may wait under others. -/
structure Frame.Settled (f : Frame) : Prop where
  rest : f.rest = []
  direct : f.direct = false
  issues : f.issues = false
  entering : ∀ caller, f.entering caller = []

/-- Frames that are settled for their kind. -/
@[simp] def Frame.calm : Frame → Bool
  | .sendInLoop _ _ | .handleWrite .write | .handleWrite .sendfile => false
  | _ => true

/-- The executing frame; with none, the loop is between two of them. -/
def top (stack : List Frame) : Frame := stack.headD .user

/-- The messages of a thread that are on their way to `sendInLoop`. -/
def Task.message (t : Tid) : Task → Option Bytes
  | .sendInLoop t' data => if t' = t then some data else none
  | _ => none

/-- The message that a thread is about to queue. -/
def Pending.message : Pending → List Bytes
  | .sendTask data => [data]
  | _ => []

/-- The tasks of the round that are left. -/
def Phase.batch : Phase → List Task
  | .tasks batch => batch
  | _ => []

namespace System

/-- The tasks that have been queued and not started. -/
def queued (s : System) : List Task := s.phase.batch ++ s.tasks

/-- What a thread was promised and `sendInLoop` was not given yet. -/
def waiting (s : System) : Caller → List Bytes
  | .loop => []
  | .other t => s.queued.filterMap (Task.message t) ++ (s.pending t).message

end System

variable {cb : Callbacks} {c c' : TcpConnection} {f : Frame} {fs rest stack : List Frame}
  {answer : Answer} {waiting waiting' : Caller → List Bytes} {trace es : List Event}

/-! ## Frames and histories -/

theorem Frame.settled_of_calm (calm : f.calm = true) : f.Settled := by
  cases f with
  | sendInLoop => cases calm
  | handleWrite pc => cases pc <;> first | exact ⟨rfl, rfl, rfl, fun _ => rfl⟩ | cases calm
  | _ => exact ⟨rfl, rfl, rfl, fun _ => rfl⟩

theorem Frame.settled_rest {data : Bytes} {n : Nat} (done : data.length ≤ n) :
    (Frame.sendInLoop data (.rest n)).Settled :=
  ⟨List.drop_eq_nil_of_le done, rfl, rfl, fun _ => rfl⟩

@[simp] theorem top_nil : top [] = .user := rfl
@[simp] theorem top_cons : top (f :: rest) = f := rfl

theorem top_settled (settled : ∀ f ∈ stack, f.Settled) : (top stack).Settled := by
  cases stack with
  | nil => exact Frame.settled_of_calm rfl
  | cons f rest => exact settled f List.mem_cons_self

theorem open_append : Open (trace ++ es) ↔ Open trace ∧ Open es := by
  rw [Open, List.mem_append, not_or, Open, Open]

/-- The output of a connection with `waiting` on its way. -/
structure Output (c : TcpConnection) (stack : List Frame) (waiting : Caller → List Bytes) :
    Prop where
  settled : ∀ f ∈ stack.tail, f.Settled
  closed : c.state = .kDisconnected → ¬Open c.trace
  closing : .handleClose .notify ∈ stack → ¬Open c.trace
  stream : Open c.trace → wrote c.trace ++ c.outBuffer ++ (top stack).rest = executed c.trace
  buffered : Open c.trace → c.outBuffer ≠ [] → c.isWriting = true
  direct : Open c.trace → (top stack).direct = true → c.outBuffer = []
  accepted : Open c.trace → ∀ caller, acceptedBy caller c.trace =
    executedBy caller c.trace ++ (top stack).entering caller ++ waiting caller

/-- A step of a function that moves no message. -/
structure Neutral (c : TcpConnection) (result : List Frame × TcpConnection) : Prop where
  outBuffer : result.2.outBuffer = c.outBuffer
  isWriting : result.2.isWriting = c.isWriting
  file : result.2.file = c.file
  stSize : result.2.stSize = c.stSize
  trace : ∃ es, result.2.trace = c.trace ++ es ∧ ∀ e ∈ es, e.moves = false
  closed : result.2.state = .kDisconnected → c.state = .kDisconnected ∨ ¬Open result.2.trace
  calm : ∀ g ∈ result.1, g.calm = true
  closing : .handleClose .notify ∈ result.1 → ¬Open result.2.trace

theorem moves_nothing (still : ∀ e ∈ es, e.moves = false) :
    wrote es = [] ∧ executed es = [] ∧
      ∀ caller, acceptedBy caller es = [] ∧ executedBy caller es = [] := by
  have each : ∀ e : Event, e.moves = false → e.wrote = [] ∧ e.payload = [] ∧
      ∀ caller, e.acceptedBy caller = none ∧ e.executedBy caller = none := by
    intro e none
    cases e with
    | accepted | executed | write | setSendFd | sendfile | shutdownWr => cases none
    | _ => exact ⟨rfl, rfl, fun _ => ⟨rfl, rfl⟩⟩
  refine ⟨?_, ?_, fun caller => ⟨?_, ?_⟩⟩
  · exact List.flatMap_eq_nil_iff.mpr fun e mem => (each e (still e mem)).1
  · exact List.flatMap_eq_nil_iff.mpr fun e mem => (each e (still e mem)).2.1
  · exact List.filterMap_eq_nil_iff.mpr fun e mem => ((each e (still e mem)).2.2 caller).1
  · exact List.filterMap_eq_nil_iff.mpr fun e mem => ((each e (still e mem)).2.2 caller).2

@[simp] theorem wrote_nil : wrote [] = [] := rfl
@[simp] theorem wrote_cons (e : Event) : wrote (e :: es) = e.wrote ++ wrote es := rfl
@[simp] theorem sent_nil : sent [] = [] := rfl
@[simp] theorem sent_cons (e : Event) : sent (e :: es) = e.sent ++ sent es := rfl
@[simp] theorem executed_nil : executed [] = [] := rfl
@[simp] theorem executed_cons (e : Event) : executed (e :: es) = e.payload ++ executed es := rfl
@[simp] theorem acceptedBy_nil (caller : Caller) : acceptedBy caller [] = [] := rfl
@[simp] theorem executedBy_nil (caller : Caller) : executedBy caller [] = [] := rfl

@[simp] theorem acceptedBy_cons (caller : Caller) (e : Event) : acceptedBy caller (e :: es) =
    (e.acceptedBy caller).toList ++ acceptedBy caller es := by
  cases accepted : e.acceptedBy caller <;>
    simp only [acceptedBy, List.filterMap_cons, accepted] <;> rfl

@[simp] theorem executedBy_cons (caller : Caller) (e : Event) : executedBy caller (e :: es) =
    (e.executedBy caller).toList ++ executedBy caller es := by
  cases executed : e.executedBy caller <;>
    simp only [executedBy, List.filterMap_cons, executed] <;> rfl

theorem wrote_append : wrote (trace ++ es) = wrote trace ++ wrote es := List.flatMap_append

theorem sent_append : sent (trace ++ es) = sent trace ++ sent es := List.flatMap_append

theorem executed_append : executed (trace ++ es) = executed trace ++ executed es :=
  List.flatMap_append

theorem acceptedBy_append (caller : Caller) :
    acceptedBy caller (trace ++ es) = acceptedBy caller trace ++ acceptedBy caller es :=
  List.filterMap_append

theorem executedBy_append (caller : Caller) :
    executedBy caller (trace ++ es) = executedBy caller trace ++ executedBy caller es :=
  List.filterMap_append

theorem top_append (fs : List Frame) (settled : ∀ g ∈ rest, g.Settled) :
    (top (fs ++ rest)).rest = (top fs).rest ∧ (top (fs ++ rest)).direct = (top fs).direct ∧
      ∀ caller, (top (fs ++ rest)).entering caller = (top fs).entering caller := by
  cases fs with
  | nil =>
    have calm := top_settled settled
    exact ⟨calm.rest, calm.direct, calm.entering⟩
  | cons g fs => exact ⟨rfl, rfl, fun _ => rfl⟩

/-- A step of the executing frame, said of the bytes and messages that it moves. -/
theorem Output.step (out : Output c (f :: rest) waiting) (es : List Event)
    (trace : c'.trace = c.trace ++ es) (settled : ∀ g ∈ fs.tail, g.Settled)
    (closed : c'.state = .kDisconnected → c.state = .kDisconnected ∨ ¬Open c'.trace)
    (closing : .handleClose .notify ∈ fs → ¬Open c'.trace)
    (stream : Open c.trace →
      wrote es ++ c'.outBuffer ++ (top fs).rest = c.outBuffer ++ f.rest ++ executed es)
    (buffered : Open c.trace → c'.outBuffer ≠ [] → c'.isWriting = true)
    (direct : Open c.trace → (top fs).direct = true → c'.outBuffer = [])
    (accepted : Open c.trace → ∀ caller,
      f.entering caller ++ waiting caller ++ acceptedBy caller es =
        executedBy caller es ++ (top fs).entering caller ++ waiting caller) :
    Output c' (fs ++ rest) waiting := by
  have before : Open c'.trace → Open c.trace := fun opened => by
    rw [trace, open_append] at opened
    exact opened.1
  obtain ⟨sameRest, sameDirect, sameEntering⟩ := top_append fs (show ∀ g ∈ rest, g.Settled from out.settled)
  have old : top (f :: rest) = f := rfl
  refine ⟨?_, ?_, ?_, ?_, fun opened => buffered (before opened), ?_, ?_⟩
  · intro g mem
    cases fs with
    | nil => exact out.settled g (List.mem_of_mem_tail mem)
    | cons h fs =>
      rcases List.mem_append.mp mem with mem | mem
      · exact settled g mem
      · exact out.settled g mem
  · intro state
    rcases closed state with was | now
    · exact fun opened => out.closed was (before opened)
    · exact now
  · intro mem
    rcases List.mem_append.mp mem with mem | mem
    · exact closing mem
    · exact fun opened => out.closing (List.mem_cons_of_mem _ mem) (before opened)
  · intro opened
    have earlier := out.stream (before opened)
    rw [old, List.append_assoc] at earlier
    rw [trace, wrote_append, executed_append, sameRest, List.append_assoc, List.append_assoc,
      ← List.append_assoc (wrote es), stream (before opened), ← List.append_assoc, earlier]
  · intro opened
    rw [sameDirect]
    exact direct (before opened)
  · intro opened caller
    have earlier := out.accepted (before opened) caller
    have moved := accepted (before opened) caller
    rw [old, List.append_assoc] at earlier
    rw [trace, acceptedBy_append, executedBy_append, sameEntering, earlier, List.append_assoc,
      moved]
    simp only [List.append_assoc]

theorem Output.neutral {result : List Frame × TcpConnection}
    (out : Output c (f :: rest) waiting) (calm : f.calm = true) (neutral : Neutral c result) :
    Output result.2 (result.1 ++ rest) waiting := by
  obtain ⟨es, trace, still⟩ := neutral.trace
  obtain ⟨noWrote, noExecuted, noCaller⟩ := moves_nothing still
  have settled : ∀ g ∈ result.1, g.Settled := fun g mem =>
    Frame.settled_of_calm (neutral.calm g mem)
  have old : f.Settled := Frame.settled_of_calm calm
  have new := top_settled settled
  refine out.step es trace (fun g mem => settled g (List.mem_of_mem_tail mem)) neutral.closed
    neutral.closing ?_ ?_ ?_ ?_
  · intro _
    rw [noWrote, noExecuted, old.rest, new.rest, neutral.outBuffer, List.nil_append,
      List.append_nil, List.append_nil]
  · rw [neutral.outBuffer, neutral.isWriting]
    exact out.buffered
  · rw [new.direct]
    simp
  · intro _ caller
    rw [(noCaller caller).1, (noCaller caller).2, old.entering, new.entering]
    simp

/-- Something happens beside the executing frame. -/
theorem Output.aside (out : Output c stack waiting) (c' : TcpConnection)
    (trace : c'.trace = c.trace ++ es)
    (noWrote : wrote es = []) (noExecuted : executed es = [])
    (noCaller : ∀ caller, executedBy caller es = [])
    (closed : c'.state = .kDisconnected → c.state = .kDisconnected)
    (outBuffer : c'.outBuffer = c.outBuffer) (isWriting : c'.isWriting = c.isWriting)
    (accepted : ∀ caller, waiting' caller = waiting caller ++ acceptedBy caller es) :
    Output c' stack waiting' := by
  have before : Open c'.trace → Open c.trace := fun opened => by
    rw [trace, open_append] at opened
    exact opened.1
  refine ⟨out.settled, fun state opened => out.closed (closed state) (before opened),
    fun mem opened => out.closing mem (before opened), ?_, ?_, ?_, ?_⟩
  · intro opened
    rw [trace, wrote_append, executed_append, noWrote, noExecuted, List.append_nil,
      List.append_nil, outBuffer]
    exact out.stream (before opened)
  · intro opened
    rw [outBuffer, isWriting]
    exact out.buffered (before opened)
  · intro opened
    rw [outBuffer]
    exact out.direct (before opened)
  · intro opened caller
    rw [trace, acceptedBy_append, executedBy_append, noCaller, List.append_nil,
      out.accepted (before opened) caller, accepted, List.append_assoc]

/-! ## The functions that move no message -/

theorem neutral_same {frames : List Frame} (calm : ∀ g ∈ frames, g.calm = true)
    (closing : .handleClose .notify ∉ frames) : Neutral c (frames, c) :=
  ⟨rfl, rfl, rfl, rfl, ⟨[], by simp, by simp⟩, Or.inl, calm, fun mem => absurd mem closing⟩

theorem neutral_emit {frames : List Frame} {e : Event} (still : e.moves = false)
    (calm : ∀ g ∈ frames, g.calm = true) (closing : .handleClose .notify ∉ frames) :
    Neutral c (frames, c.emit e) :=
  ⟨rfl, rfl, rfl, rfl, ⟨[e], rfl, by simpa using still⟩, Or.inl, calm,
    fun mem => absurd mem closing⟩

theorem neutral_store {frames : List Frame} {st : ConnectionState} (opened : st ≠ .kDisconnected)
    (calm : ∀ g ∈ frames, g.calm = true) (closing : .handleClose .notify ∉ frames) :
    Neutral c (frames, c.store st) :=
  ⟨rfl, rfl, rfl, rfl, ⟨[.store st], rfl, by simp [Event.moves]⟩, fun state => absurd state opened, calm,
    fun mem => absurd mem closing⟩

theorem enableReadStep_neutral (pc : EnableReadPc) : Neutral c (enableReadStep cb c pc) := by
  cases pc with
  | assert =>
    simp only [enableReadStep]
    split
    · exact neutral_same (by simp) (by simp)
    · exact neutral_emit rfl (by simp) (by simp)
  | store => exact neutral_store (by simp) (by simp) (by simp)
  | enable =>
    simp only [enableReadStep]
    split
    · exact ⟨rfl, by simp, rfl, rfl, ⟨[.notifyConnected], rfl, by simp [Event.moves]⟩, Or.inl,
        by simp, by simp⟩
    · exact ⟨rfl, by simp, rfl, rfl, ⟨[], by simp [enableReading], by simp⟩, Or.inl, by simp,
        by simp⟩

theorem handleEventsStep_neutral (revents : BitVec 32) (pc : HandleEventsPc) :
    Neutral c (handleEventsStep revents pc, c) := by
  cases pc with
  | error => exact neutral_same (by simp [handleEventsStep]) (by simp [handleEventsStep])
  | close | read | write =>
    simp only [handleEventsStep]
    split <;> exact neutral_same (by simp) (by simp)

theorem handleReadStep_neutral (result : Option Bytes) :
    Neutral c (handleReadStep cb c result) := by
  cases result with
  | none => exact neutral_same (by simp) (by simp)
  | some data =>
    cases data with
    | nil => exact neutral_same (by simp) (by simp)
    | cons b data =>
      simp only [handleReadStep]
      split
      · exact neutral_emit rfl (by simp) (by simp)
      · exact neutral_same (by simp) (by simp)

theorem handleCloseStep_neutral {pc : HandleClosePc} (before : pc ≠ .notify) :
    Neutral c (handleCloseStep cb c pc) := by
  cases pc with
  | assertConnected =>
    simp only [handleCloseStep]
    split <;> exact neutral_same (by simp) (by simp)
  | assertDisconnecting =>
    simp only [handleCloseStep]
    split
    · exact neutral_same (by simp) (by simp)
    · exact neutral_emit rfl (by simp) (by simp)
  | store =>
    have closed : ¬Open (c.store .kDisconnected).trace := by simp [Open, store]
    exact ⟨rfl, rfl, rfl, rfl, ⟨[.store .kDisconnected], rfl, by simp [Event.moves]⟩, fun _ => Or.inr closed,
      by simp [handleCloseStep], fun _ => closed⟩
  | notify => exact absurd rfl before
  | close =>
    simp only [handleCloseStep]
    split
    · exact neutral_emit rfl (by simp) (by simp)
    · exact neutral_same (by simp) (by simp)

/-- The frames whose functions move no message. -/
@[simp] def Frame.neutral : Frame → Bool
  | .send _ | .sendInLoop _ _ | .handleWrite _ | .handleClose .notify | .shutdownInLoop => false
  | _ => true

theorem Frame.calm_of_neutral (neutral : f.neutral = true) : f.calm = true := by
  cases f with
  | sendInLoop | handleWrite => cases neutral
  | _ => rfl

theorem FrameMove.neutral {result : List Frame × TcpConnection} (neutral : f.neutral = true)
    (moved : FrameMove cb c f answer result) : Neutral c result := by
  cases moved with
  | enableRead pc => exact enableReadStep_neutral pc
  | handleEvents revents pc => exact handleEventsStep_neutral revents pc
  | handleRead r => exact handleReadStep_neutral r
  | handleClose pc =>
    refine handleCloseStep_neutral ?_
    rintro rfl
    cases neutral
  | send | sendInLoop | handleWrite | shutdownInLoop => cases neutral
  | sendReturn data => exact neutral_emit rfl (by simp) (by simp)
  | shutdown =>
    unfold shutdownStep
    split <;> exact neutral_same (by simp) (by simp)
  | shutdownStore => exact neutral_store (by simp) (by simp) (by simp)
  | forceClose =>
    unfold forceCloseStep
    split <;> exact neutral_same (by simp) (by simp)
  | forceCloseInLoop =>
    unfold forceCloseInLoopStep
    split <;> exact neutral_same (by simp) (by simp)

/-! ## The functions that move messages -/

theorem sendStep_output {data : Bytes} (out : Output c (.send data :: rest) waiting)
    (noneWaiting : waiting .loop = []) :
    Output (sendStep c data).2 ((sendStep c data).1 ++ rest) waiting := by
  unfold sendStep
  split
  · refine out.step [.accepted .loop data] rfl ?_ Or.inl (by simp) (by simp) out.buffered
      (by simp) ?_
    · exact List.forall_mem_singleton.mpr (Frame.settled_of_calm rfl)
    · intro _ caller
      cases caller <;> simp [noneWaiting]
  · exact out.neutral rfl (neutral_same (by simp) (by simp))

theorem sendInLoopStep_check {data : Bytes} {caller : Caller} {result : Option Nat}
    (out : Output c (.sendInLoop data (.check caller) :: rest) waiting) :
    Output (sendInLoopStep cb c data (.check caller) result).2
      ((sendInLoopStep cb c data (.check caller) result).1 ++ rest) waiting := by
  have message : ∀ caller', (Frame.sendInLoop data (.check caller)).entering caller' ++
      waiting caller' ++ acceptedBy caller' [.executed caller data] =
        executedBy caller' [.executed caller data] ++ [] ++ waiting caller' := by
    intro caller'
    by_cases same : caller = caller' <;> simp [same]
  simp only [sendInLoopStep]
  split
  · next state =>
    have closed := out.closed state
    exact out.step [] (by simp) (by simp) Or.inl (by simp)
      (fun opened => absurd opened closed) (fun opened => absurd opened closed)
      (fun opened => absurd opened closed) (fun opened => absurd opened closed)
  · split
    · next free =>
      exact out.step [.executed caller data] rfl (by simp) Or.inl (by simp)
        (fun _ => by simp [free.2]) out.buffered (fun _ _ => free.2) (fun _ => message)
    · exact out.step [.executed caller data] rfl (by simp) Or.inl (by simp)
        (fun _ => by simp) out.buffered (by simp) (fun _ => message)

theorem sendInLoopStep_write {data : Bytes} {result : Option Nat}
    (out : Output c (.sendInLoop data .write :: rest) waiting) (fits : Fits data.length result) :
    Output (sendInLoopStep cb c data .write result).2
      ((sendInLoopStep cb c data .write result).1 ++ rest) waiting := by
  have empty : Open c.trace → c.outBuffer = [] := fun opened => out.direct opened rfl
  cases result with
  | none =>
    exact out.step [.write data none] rfl (by simp [sendInLoopStep]) Or.inl
      (by simp [sendInLoopStep]) (fun _ => by simp [sendInLoopStep]) out.buffered
      (by simp [sendInLoopStep]) (fun _ caller => by simp [sendInLoopStep])
  | some n =>
    have stream : Open c.trace → wrote [.write data (some n)] ++ c.outBuffer ++ data.drop n =
        c.outBuffer ++ data ++ executed [.write data (some n)] := by
      intro opened
      simp [empty opened]
    simp only [sendInLoopStep]
    split
    · exact out.step [.write data (some n)] rfl (by simp) Or.inl (by simp) stream out.buffered (by simp)
        (fun _ caller => by simp)
    · next all =>
      -- the whole message is on the socket, so the frame may wait under the callback
      have done : (Frame.sendInLoop data (.rest n)).Settled :=
        Frame.settled_rest (Nat.not_lt.mp all)
      split
      · refine out.step [.write data (some n), .writeCompleteCallback] (by simp)
          (List.forall_mem_singleton.mpr done) Or.inl (by simp) ?_ out.buffered (by simp)
          (fun _ caller => by simp)
        intro opened
        have written := done.rest
        simp only [Frame.rest] at written
        simpa [written] using stream opened
      · exact out.step [.write data (some n)] rfl (by simp) Or.inl (by simp) stream out.buffered (by simp)
          (fun _ caller => by simp)

theorem sendInLoopStep_rest {data : Bytes} {n : Nat} {result : Option Nat}
    (out : Output c (.sendInLoop data (.rest n) :: rest) waiting) :
    Output (sendInLoopStep cb c data (.rest n) result).2
      ((sendInLoopStep cb c data (.rest n) result).1 ++ rest) waiting := by
  simp only [sendInLoopStep]
  split
  · split
    · next writing =>
      exact out.step [] (by simp) (by simp) Or.inl (by simp) (fun _ => by simp)
        (fun _ _ => writing) (by simp) (fun _ caller => by simp)
    · exact out.step [] (by simp [enableWrite]) (by simp) Or.inl (by simp)
        (fun _ => by simp [enableWrite]) (fun _ _ => isWriting_enableWrite _) (by simp)
        (fun _ caller => by simp)
  · next done =>
    have written : data.drop n = [] := by
      rw [not_or, Nat.not_lt] at done
      exact List.drop_eq_nil_of_le done.1
    exact out.step [] (by simp) (by simp) Or.inl (by simp)
      (fun _ => by simp [written]) out.buffered (by simp)
      (fun _ caller => by simp)

theorem handleWriteStep_output {pc : HandleWritePc} {result : Option Nat}
    (out : Output c (.handleWrite pc :: rest) waiting) :
    Output (handleWriteStep cb c pc result).2
      ((handleWriteStep cb c pc result).1 ++ rest) waiting := by
  cases pc with
  | test =>
    simp only [handleWriteStep]
    split
    · split
      · exact out.step [] (by simp) (by simp) Or.inl (by simp) (fun _ => by simp) out.buffered (by simp)
          (fun _ caller => by simp)
      · next empty =>
        split
        · exact out.step [] (by simp) (by simp) Or.inl (by simp) (fun _ => by simp)
            out.buffered (fun _ _ => by simpa using empty)
            (fun _ caller => by simp)
        · exact out.neutral rfl (neutral_same (by simp) (by simp))
    · exact out.neutral rfl (neutral_same (by simp) (by simp))
  | write =>
    cases result with
    | none =>
      exact out.step [.write c.outBuffer none] rfl (by simp [handleWriteStep]) Or.inl
        (by simp [handleWriteStep]) (fun _ => by simp [handleWriteStep]) out.buffered
        (by simp [handleWriteStep]) (fun _ caller => by simp [handleWriteStep])
    | some n =>
      simp only [handleWriteStep]
      split
      · next drained =>
        refine out.step [.write c.outBuffer (some n)] rfl (by simp) Or.inl (by simp) (fun _ => ?_)
          (fun _ nonempty => absurd drained.1 nonempty) (by simp) (fun _ caller => by simp)
        simp [disableWrite]
      · refine out.step [.write c.outBuffer (some n)] rfl (by simp) Or.inl (by simp) (fun _ => ?_)
          (fun opened nonempty => out.buffered opened ?_) (by simp) (fun _ caller => by simp)
        · simp
        · rintro empty
          simp [empty] at nonempty
  | drained | sent =>
    simp only [handleWriteStep]
    split <;> exact out.neutral rfl (neutral_same (by simp) (by simp))
  | complete =>
    simp only [handleWriteStep]
    split
    · exact out.neutral rfl (neutral_emit rfl (by simp) (by simp))
    · exact out.neutral rfl (neutral_same (by simp) (by simp))
  | sendfile =>
    have empty : Open c.trace → c.outBuffer = [] := fun opened => out.direct opened rfl
    cases result with
    | none =>
      exact out.step [.sendfile c.file none] rfl (by simp [handleWriteStep]) Or.inl
        (by simp [handleWriteStep]) (fun _ => by simp [handleWriteStep]) out.buffered
        (by simp [handleWriteStep]) (fun _ caller => by simp [handleWriteStep])
    | some n =>
      simp only [handleWriteStep]
      split
      · exact out.step [.sendfile c.file (some n)] rfl (by simp) Or.inl (by simp)
          (fun _ => by simp [disableWrite])
          (fun opened nonempty => absurd (empty opened) nonempty) (by simp) (fun _ caller => by simp)
      · exact out.step [.sendfile c.file (some n)] rfl (by simp) Or.inl (by simp)
          (fun _ => by simp) out.buffered (by simp) (fun _ caller => by simp)
  | closeFd => exact out.neutral rfl (neutral_emit rfl (by simp) (by simp))

theorem shutdownInLoopStep_output (out : Output c (.shutdownInLoop :: rest) waiting) :
    Output (shutdownInLoopStep c) rest waiting := by
  have popped : Output (shutdownInLoopStep c) ([] ++ rest) waiting := by
    unfold shutdownInLoopStep
    split
    · exact out.step [] (by simp) (by simp) Or.inl (by simp) (fun _ => by simp) out.buffered (by simp)
        (fun _ caller => by simp)
    · exact out.step [.shutdownWr] rfl (by simp) Or.inl (by simp) (fun _ => by simp) out.buffered
        (by simp) (fun _ caller => by simp)
  exact popped

theorem handleCloseStep_notify (out : Output c (.handleClose .notify :: rest) waiting) :
    Output (handleCloseStep cb c .notify).2 ((handleCloseStep cb c .notify).1 ++ rest) waiting := by
  have closed := out.closing List.mem_cons_self
  have settled : (Frame.handleClose .close).Settled := Frame.settled_of_calm rfl
  simp only [handleCloseStep]
  split
  · exact out.step [.notifyDisconnected] rfl (List.forall_mem_singleton.mpr settled) Or.inl (by simp)
      (fun opened => absurd opened closed) (fun opened => absurd opened closed)
      (fun opened => absurd opened closed) (fun opened => absurd opened closed)
  · exact out.step [] (by simp) (by simp) Or.inl (by simp) (fun opened => absurd opened closed)
      (fun opened => absurd opened closed) (fun opened => absurd opened closed)
      (fun opened => absurd opened closed)

/-- One step of the executing frame. -/
theorem FrameMove.output {result : List Frame × TcpConnection}
    (out : Output c (f :: rest) waiting) (noneWaiting : waiting .loop = [])
    (moved : FrameMove cb c f answer result) : Output result.2 (result.1 ++ rest) waiting := by
  by_cases neutral : f.neutral = true
  · exact out.neutral (Frame.calm_of_neutral neutral) (moved.neutral neutral)
  cases moved with
  | handleClose pc =>
    cases pc with
    | notify => exact handleCloseStep_notify out
    | assertConnected | assertDisconnecting | store | close => exact absurd rfl neutral
  | send data => exact sendStep_output out noneWaiting
  | sendInLoop data pc answer r fits =>
    cases pc with
    | check caller => exact sendInLoopStep_check out
    | write => exact sendInLoopStep_write out (fits rfl)
    | rest n => exact sendInLoopStep_rest out
  | handleWrite pc answer r => exact handleWriteStep_output out
  | shutdownInLoop => exact shutdownInLoopStep_output out
  | _ => exact absurd rfl neutral

/-! ## What a step adds to the history -/

/-- A step of `f` only adds events: none of them ends the stream, and none sends unless the frame
was about to. -/
def Adds (c : TcpConnection) (f : Frame) (c' : TcpConnection) : Prop :=
  ∃ es, c'.trace = c.trace ++ es ∧ (∀ e ∈ es, e ≠ .shutdownWr) ∧
    (f.issues = false → ∀ e ∈ es, sends e = false)

theorem adds_nothing {c' : TcpConnection} (same : c'.trace = c.trace) : Adds c f c' :=
  ⟨[], by rw [same, List.append_nil], by simp, by simp⟩

theorem adds_one {c' : TcpConnection} {e : Event} (trace : c'.trace = c.trace ++ [e])
    (goesOn : e ≠ .shutdownWr) (quiet : f.issues = false → sends e = false) : Adds c f c' :=
  ⟨[e], trace, List.forall_mem_singleton.mpr goesOn,
    fun idle => List.forall_mem_singleton.mpr (quiet idle)⟩

theorem Neutral.adds {result : List Frame × TcpConnection} (neutral : Neutral c result) :
    Adds c f result.2 := by
  obtain ⟨es, trace, still⟩ := neutral.trace
  refine ⟨es, trace, fun e mem => ?_, fun _ e mem => ?_⟩
  · rintro rfl
    cases still _ mem
  · have none := still e mem
    cases e with
    | write | sendfile => cases none
    | _ => rfl

theorem sendInLoopStep_adds (data : Bytes) (pc : SendInLoopPc) (result : Option Nat) :
    Adds c (.sendInLoop data pc) (sendInLoopStep cb c data pc result).2 := by
  cases pc with
  | check caller =>
    simp only [sendInLoopStep]
    split
    · exact adds_nothing rfl
    · split <;> exact adds_one rfl (by simp) (by simp)
  | write =>
    cases result with
    | none => exact adds_one (e := .write data none) rfl (by simp) (by simp)
    | some n =>
      simp only [sendInLoopStep]
      split
      · exact adds_one rfl (by simp) (by simp)
      · split
        · exact ⟨[.write data (some n), .writeCompleteCallback], by simp, by simp, by simp⟩
        · exact adds_one rfl (by simp) (by simp)
  | rest n =>
    simp only [sendInLoopStep]
    split
    · split
      · exact adds_nothing rfl
      · exact adds_nothing (by simp [enableWrite])
    · exact adds_nothing rfl

theorem handleWriteStep_adds (pc : HandleWritePc) (result : Option Nat) :
    Adds c (.handleWrite pc) (handleWriteStep cb c pc result).2 := by
  cases pc with
  | test =>
    simp only [handleWriteStep]
    repeat' split
    all_goals exact adds_nothing rfl
  | write =>
    cases result with
    | none => exact adds_one (e := .write c.outBuffer none) rfl (by simp) (by simp)
    | some n =>
      simp only [handleWriteStep]
      split <;> exact adds_one (e := .write c.outBuffer (some n)) rfl (by simp) (by simp)
  | drained | sent =>
    simp only [handleWriteStep]
    split <;> exact adds_nothing rfl
  | complete =>
    simp only [handleWriteStep]
    split
    · exact adds_one rfl (by simp) (by simp)
    · exact adds_nothing rfl
  | sendfile =>
    cases result with
    | none => exact adds_one (e := .sendfile c.file none) rfl (by simp) (by simp)
    | some n =>
      simp only [handleWriteStep]
      split <;> exact adds_one (e := .sendfile c.file (some n)) rfl (by simp) (by simp)
  | closeFd => exact adds_one (e := .closeFd c.sendFd) rfl (by simp) (by simp)

theorem FrameMove.adds {result : List Frame × TcpConnection}
    (moved : FrameMove cb c f answer result) (other : f ≠ .shutdownInLoop) :
    Adds c f result.2 := by
  by_cases neutral : f.neutral = true
  · exact (moved.neutral neutral).adds
  cases moved with
  | handleClose pc =>
    cases pc with
    | notify =>
      simp only [handleCloseStep]
      split
      · exact adds_one (e := .notifyDisconnected) rfl (by simp) (by simp)
      · exact adds_nothing (by simp)
    | assertConnected | assertDisconnecting | store | close => exact absurd rfl neutral
  | send data =>
    unfold sendStep
    split
    · exact adds_one rfl (by simp) (by simp)
    · exact adds_nothing rfl
  | sendInLoop data pc answer r => exact sendInLoopStep_adds data pc r
  | handleWrite pc answer r => exact handleWriteStep_adds pc r
  | shutdownInLoop => exact absurd rfl other
  | _ => exact absurd rfl neutral

/-- A step adds to the history. -/
theorem FrameMove.open_before {result : List Frame × TcpConnection}
    (moved : FrameMove cb c f answer result) (opened : Open result.2.trace) : Open c.trace := by
  by_cases last : f = .shutdownInLoop
  · subst last
    cases moved with
    | shutdownInLoop =>
      unfold shutdownInLoopStep at opened
      split at opened
      · exact opened
      · exact (open_append.mp opened).1
  · obtain ⟨es, trace, -, -⟩ := moved.adds last
    rw [trace, open_append] at opened
    exact opened.1

end TcpConnection

end Yvent
