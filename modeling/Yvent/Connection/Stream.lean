import Yvent.Connection.Output

/-!
# The byte stream of a connection

While `setSendFd` is not called, `outBuffer_` is the part of the stream that the socket has not
taken, the channel is write-enabled exactly while there is such a part, and the messages of each
thread go into the stream in the order of its calls.
-/

namespace Yvent.TcpConnection

variable {cb : Callbacks} {c c' : TcpConnection} {f : Frame} {stack : List Frame}
  {answer : Answer} {waiting waiting' : Caller → List Bytes} {s s' : System} {l : Label}

/-- A frame that belongs to an unfinished `sendInLoop` or `handleWrite`. -/
def Frame.inOutput : Frame → Bool
  | .sendInLoop _ _ | .handleWrite _ => true
  | _ => false

/-- The side condition that `setSendFd` is not called. -/
def NoSendFd (_ : System) : Label → Prop
  | .call (.setSendFd _ _ _) => False
  | _ => True

instance (s : System) : (l : Label) → Decidable (NoSendFd s l)
  | .call (.setSendFd _ _ _) => isFalse id
  | .call (.send _) | .call .shutdown | .call .forceClose | .ret | .other _ _ | .resume _ | .run _
  | .next | .poll _ | .addTask => isTrue trivial

/-! ## Steps of the threads -/

/-- The loop begins a frame. -/
theorem Output.begin (out : Output c [] waiting) (rest : f.rest = []) (direct : f.direct = false)
    (closing : f ≠ .handleClose .notify)
    (accepted : ∀ caller, f.entering caller ++ waiting' caller = waiting caller) :
    Output c [f] waiting' := by
  refine ⟨by simp, out.closed, ?_, ?_, out.buffered, ?_, ?_⟩
  · intro mem
    exact absurd (List.mem_singleton.mp mem).symm closing
  · intro opened
    rw [top_cons, rest]
    exact out.stream opened
  · rw [top_cons, direct]
    simp
  · intro opened caller
    have before := out.accepted opened caller
    rw [top_nil, show Frame.entering caller .user = [] from rfl, List.append_nil] at before
    rw [before, top_cons, List.append_assoc, accepted]

theorem Output.congr_waiting (out : Output c stack waiting)
    (same : ∀ caller, waiting' caller = waiting caller) : Output c stack waiting' := by
  obtain rfl : waiting' = waiting := funext same
  exact out

theorem output_call {rest : List Frame} (call : Call)
    (out : Output s.conn s.stack s.waiting) (top : s.stack = .user :: rest) :
    Output (s.callStep call).conn (s.callStep call).stack s.waiting := by
  have under : Output s.conn (.user :: rest) s.waiting := top ▸ out
  have push : ∀ g : Frame, g.calm = true → g ≠ .handleClose .notify →
      ∀ es, (∀ e ∈ es, e.moves = false) →
      Output { s.conn with trace := s.conn.trace ++ es } (g :: s.stack) s.waiting := by
    intro g calm closing es still
    have neutral : Neutral s.conn ([g, .user], { s.conn with trace := s.conn.trace ++ es }) :=
      ⟨rfl, rfl, rfl, rfl, ⟨es, rfl, still⟩, Or.inl,
        List.forall_mem_cons.mpr ⟨calm, List.forall_mem_singleton.mpr rfl⟩, by simp [closing.symm]⟩
    rw [top]
    exact under.neutral rfl neutral
  cases call with
  | send data => simpa [System.callStep] using push (.send data) rfl (by simp) [] (by simp)
  | shutdown => exact push .shutdown rfl (by simp) [.shutdownCalled .loop] (by simp [Event.moves])
  | forceClose => simpa [System.callStep] using push .forceClose rfl (by simp) [] (by simp)
  | setSendFd fd file stSize =>
    exact out.aside (s.conn.setSendFd fd file stSize) rfl rfl rfl (fun _ => rfl) id rfl rfl
      fun _ => by simp

/-- A task other than a `sendInLoop` carries no message. -/
theorem waiting_push (task : Task) (none : ∀ t, task.message t = none) (caller : Caller) :
    System.waiting { s with tasks := s.tasks ++ [task] } caller = s.waiting caller := by
  cases caller with
  | loop => rfl
  | other t => simp [System.waiting, System.queued, none]

theorem waiting_setPending {p : Pending} {t : Tid} (here : (s.pending t).message = [])
    (quiet : p.message = []) (caller : Caller) :
    (s.setPending t p).waiting caller = s.waiting caller := by
  cases caller with
  | loop => rfl
  | other t' =>
    by_cases same : t' = t
    · subst same
      simp [System.waiting, System.queued, System.setPending, here, quiet]
    · simp [System.waiting, System.queued, System.setPending, same]

theorem waiting_accept {t : Tid} {data : Bytes} (free : s.pending t = .idle) (caller : Caller) :
    (s.setPending t (.sendTask data)).waiting caller =
      s.waiting caller ++ acceptedBy caller [.accepted (.other t) data] := by
  cases caller with
  | loop => simp [System.waiting]
  | other t' =>
    by_cases same : t = t'
    · subst same
      simp [System.waiting, System.queued, System.setPending, free, Pending.message]
    · have other : t' ≠ t := fun eq => same eq.symm
      simp [System.waiting, System.queued, System.setPending, same, other]

theorem waiting_pushSend {t : Tid} {data : Bytes} (here : s.pending t = .sendTask data)
    (caller : Caller) : System.waiting { s.setPending t .idle with
      tasks := s.tasks ++ [.sendInLoop t data] } caller = s.waiting caller := by
  cases caller with
  | loop => rfl
  | other t' =>
    by_cases same : t = t'
    · subst same
      simp [System.waiting, System.queued, System.setPending, here, Pending.message, Task.message]
    · have other : t' ≠ t := fun eq => same eq.symm
      simp [System.waiting, System.queued, System.setPending, Task.message, same, other]

theorem waiting_startTask {task : Task} {rest : List Task}
    (here : s.phase = .tasks (task :: rest)) (caller : Caller) :
    task.frame.entering caller ++ System.waiting { s with phase := .tasks rest } caller =
      s.waiting caller := by
  cases caller with
  | loop => cases task <;> simp [System.waiting, Task.frame]
  | other t =>
    have first : s.waiting (.other t) = (task.message t).toList ++
        System.waiting { s with phase := .tasks rest } (.other t) := by
      cases message : task.message t <;>
        simp [System.waiting, System.queued, Phase.batch, here, message]
    have same : task.frame.entering (.other t) = (task.message t).toList := by
      cases task with
      | sendInLoop t' data =>
        by_cases same : t' = t <;> simp [Task.frame, Task.message, same]
      | shutdownInLoop | forceCloseInLoop | user => rfl
    rw [first, same]

/-- While no message is on its way, no task of the loop carries one. -/
theorem entering_startTask {task : Task} {rest : List Task} (alone : ∀ caller, s.waiting caller = [])
    (here : s.phase = .tasks (task :: rest)) (caller : Caller) : task.frame.entering caller = [] := by
  have waiting := waiting_startTask here caller
  rw [alone] at waiting
  exact (List.append_eq_nil_iff.mp waiting).1

/-- Beside the executing frame, messages only move along on their way. -/
theorem waiting_step (moved : System.Move cb s l s') (settled : ∀ f ∈ s.stack.tail, f.Settled)
    (beside : ∀ answer, l ≠ .run answer)
    (refused : ∀ t data, l = .other t (.send data) → s.conn.state ≠ .kConnected)
    (caller : Caller) : (top s'.stack).entering caller ++ s'.waiting caller =
      (top s.stack).entering caller ++ s.waiting caller := by
  cases moved with
  | run answer => exact absurd rfl (beside answer)
  | call call here =>
    rw [here]
    cases call <;> simp [System.callStep, here] <;> rfl
  | @ret rest here =>
    rw [here] at settled ⊢
    have calm : (top rest).Settled := top_settled settled
    rw [calm.entering]
    rfl
  | swapTasks idle here | endTasks idle here | poll active idle here =>
    cases caller <;> simp [System.waiting, System.queued, Phase.batch, here]
  | dispatchSelf idle here | dispatchOther idle here =>
    cases caller <;> simp [idle, System.waiting, System.queued, Phase.batch, here]
  | startTask idle here =>
    rw [idle]
    exact waiting_startTask here caller
  | addTask => exact congrArg _ (waiting_push .user (fun _ => rfl) caller)
  | acceptSend t data free connected => exact absurd connected (refused t data rfl)
  | refuse | refuseShutdown => rfl
  | checkShutdown t free | checkForceClose t free =>
    have none : (s.pending t).message = [] := by rw [free]; rfl
    exact congrArg _ (waiting_setPending none rfl caller)
  | pushSend t data here => exact congrArg _ (waiting_pushSend here caller)
  | storeDisconnecting t here =>
    have none : (s.pending t).message = [] := by rw [here]; rfl
    exact congrArg _ (waiting_setPending none rfl caller)
  | pushShutdown t here =>
    have none : (s.pending t).message = [] := by rw [here]; rfl
    exact congrArg _ ((waiting_push (s := s.setPending t .idle) .shutdownInLoop (fun _ => rfl)
      caller).trans (waiting_setPending none rfl caller))
  | pushForceClose t here =>
    have none : (s.pending t).message = [] := by rw [here]; rfl
    exact congrArg _ ((waiting_push (s := s.setPending t .idle) .forceCloseInLoop (fun _ => rfl)
      caller).trans (waiting_setPending none rfl caller))

/-- What the loop begins while no message is on its way is settled. -/
theorem calm_of_begins {f : Frame} (moved : System.Move cb s l s')
    (alone : ∀ caller, s.waiting caller = []) (beside : ∀ answer, l ≠ .run answer)
    (refused : ∀ t data, l = .other t (.send data) → s.conn.state ≠ .kConnected)
    (idle : s.stack = []) (stack : s'.stack = [f]) (first : System.begins f = true) :
    f.calm = true := by
  have none : ∀ caller, f.entering caller = [] := by
    intro caller
    have kept := waiting_step moved (by simp [idle]) beside refused caller
    rw [idle, stack, alone, top_cons] at kept
    exact (List.append_eq_nil_iff.mp kept).1
  cases f with
  | sendInLoop data pc =>
    cases pc with
    | check caller => simpa using none caller
    | write | rest => cases first
  | handleWrite => cases first
  | _ => rfl

theorem output_step (out : Output s.conn s.stack s.waiting) (taken : System.step cb s l = some s') :
    Output s'.conn s'.stack s'.waiting := by
  have moved := System.move_of_step taken
  have waiting := waiting_step moved out.settled
  cases moved with
  | run answer top moved => exact moved.output (top ▸ out) rfl
  | call call top =>
    refine (output_call call out top).congr_waiting fun caller => ?_
    cases call <;> rfl
  | @ret rest top =>
    have under : Output s.conn (.user :: rest) s.waiting := top ▸ out
    exact under.neutral rfl (neutral_same (by simp) (by simp) : Neutral s.conn ([], s.conn))
  | dispatchSelf idle | dispatchOther idle =>
    have empty : Output s.conn [] s.waiting := idle ▸ out
    have kept := waiting (by simp) (by simp)
    rw [idle] at kept
    exact empty.begin rfl rfl (by simp) kept
  | @startTask task rest idle here =>
    have empty : Output s.conn [] s.waiting := idle ▸ out
    refine empty.begin ?_ ?_ ?_ (waiting_startTask here) <;> cases task <;> simp [Task.frame]
  | acceptSend t data free =>
    exact out.aside (s.conn.emit (.accepted (.other t) data)) rfl rfl rfl (fun _ => rfl) id rfl
      rfl (waiting_accept free)
  | refuse => exact out
  | checkShutdown t | refuseShutdown t =>
    have kept := fun caller => List.append_cancel_left (waiting (by simp) (by simp) caller)
    exact out.aside (s.conn.emit (.shutdownCalled (.other t))) rfl rfl rfl (fun _ => rfl) id
      rfl rfl fun caller => (kept caller).trans (List.append_nil _).symm
  | pushSend t data =>
    have kept := fun caller => List.append_cancel_left (waiting (by simp) (by simp) caller)
    exact out.aside (s.conn.emit (.returned (.other t) data)) rfl rfl rfl (fun _ => rfl) id
      rfl rfl fun caller => (kept caller).trans (List.append_nil _).symm
  | storeDisconnecting t =>
    have kept := fun caller => List.append_cancel_left (waiting (by simp) (by simp) caller)
    exact out.aside (s.conn.store .kDisconnecting) rfl rfl rfl (fun _ => rfl)
      (by simp [store]) rfl rfl fun caller => (kept caller).trans (List.append_nil _).symm
  | swapTasks | endTasks | poll | addTask | checkForceClose | pushShutdown | pushForceClose =>
    exact out.congr_waiting fun caller => List.append_cancel_left (waiting (by simp) (by simp) caller)

/-! ## Without a file -/

/-- No file is attached: all that is sent is written, and the channel is write-enabled only for
`outBuffer_`. -/
structure Fileless (c : TcpConnection) : Prop where
  stSize : c.stSize = 0
  sent : sent c.trace = wrote c.trace
  writing : c.isWriting = true → c.outBuffer ≠ []

theorem fileless_create : Fileless create :=
  ⟨rfl, rfl, fun writing => absurd writing (by decide)⟩

theorem sent_of_still {es : List Event} (still : ∀ e ∈ es, e.moves = false) :
    sent es = [] ∧ wrote es = [] := by
  refine ⟨List.flatMap_eq_nil_iff.mpr fun e mem => ?_, (moves_nothing still).1⟩
  have none := still e mem
  cases e with
  | write | sendfile => cases none
  | _ => rfl

/-- An event that sends what it writes. -/
theorem Fileless.emit {e : Event} (fileless : Fileless c) (same : e.sent = e.wrote) :
    Fileless (c.emit e) := by
  refine ⟨fileless.stSize, ?_, fileless.writing⟩
  rw [emit_trace, wrote_append, sent_append, fileless.sent, sent_cons, wrote_cons, same]
  rfl

theorem Fileless.neutral {result : List Frame × TcpConnection} (fileless : Fileless c)
    (neutral : Neutral c result) : Fileless result.2 := by
  obtain ⟨es, trace, still⟩ := neutral.trace
  obtain ⟨noSent, noWrote⟩ := sent_of_still still
  refine ⟨neutral.stSize.trans fileless.stSize, ?_, ?_⟩
  · rw [trace, wrote_append, noWrote, sent_append, noSent, List.append_nil, List.append_nil]
    exact fileless.sent
  · rw [neutral.isWriting, neutral.outBuffer]
    exact fileless.writing

theorem sendInLoopStep_fileless (fileless : Fileless c) (data : Bytes) (pc : SendInLoopPc)
    (result : Option Nat) :
    Fileless (sendInLoopStep cb c data pc result).2 ∧
      .handleWrite .sendfile ∉ (sendInLoopStep cb c data pc result).1 := by
  cases pc with
  | check caller =>
    simp only [sendInLoopStep]
    split
    · exact ⟨fileless, by simp⟩
    · split <;> exact ⟨fileless.emit rfl, by simp⟩
  | write =>
    cases result with
    | none => exact ⟨fileless.emit rfl, by simp [sendInLoopStep]⟩
    | some n =>
      simp only [sendInLoopStep]
      split
      · exact ⟨fileless.emit rfl, by simp⟩
      · split
        · exact ⟨(fileless.emit rfl).emit rfl, by simp⟩
        · exact ⟨fileless.emit rfl, by simp⟩
  | rest n =>
    simp only [sendInLoopStep, fileless.stSize, ne_eq, not_true_eq_false, or_false]
    split
    · next more =>
      have nonempty : c.outBuffer ++ data.drop n ≠ [] := by
        intro empty
        have drop := (List.append_eq_nil_iff.mp empty).2
        rw [List.drop_eq_nil_iff] at drop
        omega
      split <;> exact ⟨⟨rfl, fileless.sent, fun _ => nonempty⟩, by simp⟩
    · exact ⟨fileless, by simp⟩

theorem handleWriteStep_fileless (fileless : Fileless c) {pc : HandleWritePc}
    (noFile : pc ≠ .sendfile) (result : Option Nat) :
    Fileless (handleWriteStep cb c pc result).2 ∧
      .handleWrite .sendfile ∉ (handleWriteStep cb c pc result).1 := by
  cases pc with
  | test =>
    simp only [handleWriteStep, fileless.stSize]
    split
    · split <;> exact ⟨fileless, by simp⟩
    · exact ⟨fileless, by simp⟩
  | write =>
    cases result with
    | none => exact ⟨fileless.emit rfl, by simp [handleWriteStep]⟩
    | some n =>
      have wrote := fileless.emit (e := .write c.outBuffer (some n)) rfl
      simp only [handleWriteStep, emit_stSize, fileless.stSize, and_true]
      split
      · exact ⟨⟨rfl, wrote.sent, fun writing => by simp at writing⟩, by simp⟩
      · next more => exact ⟨⟨rfl, wrote.sent, fun _ => more⟩, by simp⟩
  | drained | sent =>
    simp only [handleWriteStep]
    split <;> exact ⟨fileless, by simp⟩
  | complete =>
    simp only [handleWriteStep]
    split
    · exact ⟨fileless.emit rfl, by simp⟩
    · exact ⟨fileless, by simp⟩
  | sendfile => exact absurd rfl noFile
  | closeFd => exact ⟨fileless.emit rfl, by simp [handleWriteStep]⟩

theorem FrameMove.fileless {result : List Frame × TcpConnection} (fileless : Fileless c)
    (noFile : f ≠ .handleWrite .sendfile) (moved : FrameMove cb c f answer result) :
    Fileless result.2 ∧ .handleWrite .sendfile ∉ result.1 := by
  by_cases neutral : f.neutral = true
  · have step := moved.neutral neutral
    exact ⟨fileless.neutral step, fun mem => Bool.false_ne_true (step.calm _ mem)⟩
  cases moved with
  | handleClose pc =>
    cases pc with
    | notify =>
      have disabled : Fileless c.disableAll := ⟨fileless.stSize, fileless.sent, by simp⟩
      simp only [handleCloseStep]
      split
      · exact ⟨disabled.emit rfl, by simp⟩
      · exact ⟨disabled, by simp⟩
    | assertConnected | assertDisconnecting | store | close => exact absurd rfl neutral
  | send data =>
    unfold sendStep
    split
    · exact ⟨fileless.emit rfl, by simp⟩
    · exact ⟨fileless, by simp⟩
  | sendInLoop data pc answer r => exact sendInLoopStep_fileless fileless data pc r
  | handleWrite pc answer r =>
    exact handleWriteStep_fileless fileless (fun here => noFile (congrArg _ here)) r
  | shutdownInLoop =>
    unfold shutdownInLoopStep
    split
    · exact ⟨fileless, by simp⟩
    · exact ⟨fileless.emit rfl, by simp⟩
  | _ => exact absurd rfl neutral

/-! ## Runs -/

/-- The invariant of runs that attach no file. -/
structure StreamInv (s : System) : Prop where
  output : Output s.conn s.stack s.waiting
  fileless : Fileless s.conn
  frames : .handleWrite .sendfile ∉ s.stack

theorem output_create : Output create [.enableRead .assert, .user] fun _ => [] where
  settled := List.forall_mem_singleton.mpr (Frame.settled_of_calm rfl)
  closed := by simp [create]
  closing := by simp
  stream _ := rfl
  buffered _ nonempty := absurd rfl nonempty
  direct _ _ := rfl
  accepted _ _ := rfl

theorem output_start : Output System.start.conn System.start.stack System.start.waiting :=
  output_create.congr_waiting fun caller => by cases caller <;> rfl

theorem streamInv_start : StreamInv .start where
  output := output_start
  fileless := fileless_create
  frames := by simp [System.start]

theorem fileless_step (inv : StreamInv s) (good : NoSendFd s l)
    (taken : System.step cb s l = some s') :
    Fileless s'.conn ∧ .handleWrite .sendfile ∉ s'.stack := by
  obtain ⟨-, fileless, frames⟩ := inv
  cases System.move_of_step taken with
  | run answer top moved =>
    rw [top, List.mem_cons, not_or] at frames
    obtain ⟨fileless, noFile⟩ := moved.fileless fileless (Ne.symm frames.1)
    exact ⟨fileless, fun mem => (List.mem_append.mp mem).elim noFile frames.2⟩
  | call call top =>
    cases call with
    | send data => exact ⟨fileless, by simpa [System.callStep] using frames⟩
    | shutdown => exact ⟨fileless.emit rfl, by simpa [System.callStep] using frames⟩
    | forceClose => exact ⟨fileless, by simpa [System.callStep] using frames⟩
    | setSendFd => exact absurd good id
  | ret top =>
    rw [top, List.mem_cons, not_or] at frames
    exact ⟨fileless, frames.2⟩
  | dispatchSelf | dispatchOther => exact ⟨fileless, by simp⟩
  | @startTask task => exact ⟨fileless, by cases task <;> simp [Task.frame]⟩
  | acceptSend | checkShutdown | refuseShutdown | pushSend =>
    exact ⟨fileless.emit rfl, frames⟩
  | storeDisconnecting =>
    have stored : Neutral s.conn ([], s.conn.store .kDisconnecting) :=
      neutral_store (by simp) (by simp) (by simp)
    exact ⟨fileless.neutral stored, frames⟩
  | _ => exact ⟨fileless, frames⟩

theorem streamInv_reachable (reached : Reaches (System.step cb) NoSendFd .start s) :
    StreamInv s := by
  refine reached.invariant streamInv_start fun t l u _ inv good taken => ?_
  obtain ⟨fileless, frames⟩ := fileless_step inv good taken
  exact ⟨output_step inv.output taken, fileless, frames⟩

/-- Before `handleClose` and outside of `sendInLoop` and `handleWrite`, the bytes on the socket and
the readable bytes of `outBuffer_` are the executed payloads; each thread's accepted messages are
executed in the order of its calls, those that are not yet executed being on their way in that
order; and the channel is write-enabled exactly while `outBuffer_` is not empty. -/
theorem stream_reachable (reached : Reaches (System.step cb) NoSendFd .start s)
    (opened : Open s.conn.trace) (outside : ∀ f ∈ s.stack, f.inOutput = false) :
    sent s.conn.trace ++ s.conn.outBuffer = executed s.conn.trace ∧
      (∀ caller, acceptedBy caller s.conn.trace =
        executedBy caller s.conn.trace ++ s.waiting caller) ∧
      (s.conn.isWriting = true ↔ s.conn.outBuffer ≠ []) := by
  obtain ⟨output, fileless, -⟩ := streamInv_reachable reached
  have settled : (top s.stack).Settled := by
    refine top_settled fun f mem => Frame.settled_of_calm ?_
    have none := outside f mem
    cases f with
    | sendInLoop | handleWrite => cases none
    | _ => rfl
  refine ⟨?_, fun caller => ?_, fileless.writing, output.buffered opened⟩
  · have stream := output.stream opened
    rw [settled.rest, List.append_nil] at stream
    rw [fileless.sent]
    exact stream
  · have accepted := output.accepted opened caller
    rw [settled.entering, List.append_nil] at accepted
    exact accepted

/-- A partial write, a second message behind it and a message of another thread that is queued. -/
theorem stream_after_partial_write :
    ∃ s : System, sent s.conn.trace = [1] ∧ s.conn.outBuffer = [2, 3] ∧ s.waiting (.other 1) = [[4]] ∧
      sent s.conn.trace ++ s.conn.outBuffer = executed s.conn.trace := by
  obtain ⟨s, reached, ⟨opened, outside⟩, wrote, buffered, waiting⟩ :
      ∃ s, Reaches (System.step allCallbacks) NoSendFd .start s ∧
        (Open s.conn.trace ∧ ∀ f ∈ s.stack, f.inOutput = false) ∧
        sent s.conn.trace = [1] ∧ s.conn.outBuffer = [2, 3] ∧ s.waiting (.other 1) = [[4]] :=
    exists_reaches_of_exec
      [.run .silent, .run .silent, .run .silent, .call (.send [1, 2]), .run .silent, .run .silent,
        .run (.count (some 1)), .run .silent, .run .silent, .call (.send [3]), .run .silent,
        .run .silent, .run .silent, .run .silent, .other 1 (.send [4]), .resume 1]
      (by decide)
  exact ⟨s, wrote, buffered, waiting, (stream_reachable reached opened outside).1⟩

end Yvent.TcpConnection
