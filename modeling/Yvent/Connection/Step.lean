import Yvent.Connection.Model

/-!
# What one step of a connection can do

`FrameMove` lists the functions whose frame can take a step, with the answers a system call may
have given, and `Move` the steps of the threads. What each function does is said in the modules
that need it.
-/

namespace Yvent.TcpConnection

/-- The steps of the executing frame. -/
inductive FrameMove (cb : Callbacks) (c : TcpConnection) :
    Frame → Answer → List Frame × TcpConnection → Prop
  | enableRead (pc : EnableReadPc) :
      FrameMove cb c (.enableRead pc) .silent (enableReadStep cb c pc)
  | handleEvents (revents : BitVec 32) (pc : HandleEventsPc) :
      FrameMove cb c (.handleEvents revents pc) .silent (handleEventsStep revents pc, c)
  | handleRead (r : Option Bytes) :
      FrameMove cb c .handleRead (.bytes r) (handleReadStep cb c r)
  | handleClose (pc : HandleClosePc) :
      FrameMove cb c (.handleClose pc) .silent (handleCloseStep cb c pc)
  | send (data : Bytes) : FrameMove cb c (.send data) .silent (sendStep c data)
  | sendReturn (data : Bytes) :
      FrameMove cb c (.sendReturn data) .silent ([], c.emit (.returned .loop data))
  | sendInLoop (data : Bytes) (pc : SendInLoopPc) (answer : Answer) (r : Option Nat)
      (fits : pc = .write → Fits data.length r) :
      FrameMove cb c (.sendInLoop data pc) answer (sendInLoopStep cb c data pc r)
  | handleWrite (pc : HandleWritePc) (answer : Answer) (r : Option Nat)
      (fits : pc = .write → Fits c.outBuffer.length r)
      (fitsFile : pc = .sendfile → Fits c.file.length r) :
      FrameMove cb c (.handleWrite pc) answer (handleWriteStep cb c pc r)
  | shutdown : FrameMove cb c .shutdown .silent (shutdownStep c, c)
  | shutdownStore :
      FrameMove cb c .shutdownStore .silent ([.shutdownInLoop], c.store .kDisconnecting)
  | shutdownInLoop : FrameMove cb c .shutdownInLoop .silent ([], shutdownInLoopStep c)
  | forceClose : FrameMove cb c .forceClose .silent (forceCloseStep c, c)
  | forceCloseInLoop : FrameMove cb c .forceCloseInLoop .silent (forceCloseInLoopStep c, c)

theorem Answer.silently_eq_some {α : Type} {answer : Answer} {result x : α}
    (taken : answer.silently result = some x) : answer = .silent ∧ x = result := by
  cases answer with
  | silent => exact ⟨rfl, (Option.some.inj taken).symm⟩
  | bytes | count => cases taken

theorem Answer.reading_eq_some {α : Type} {answer : Answer} {result : Option Bytes → α} {x : α}
    (taken : answer.reading result = some x) : ∃ r, answer = .bytes r ∧ x = result r := by
  cases answer with
  | bytes r => exact ⟨r, rfl, (Option.some.inj taken).symm⟩
  | silent | count => cases taken

theorem Answer.counting_eq_some {α : Type} {answer : Answer} {len : Nat}
    {result : Option Nat → α} {x : α} (taken : answer.counting len result = some x) :
    ∃ r, answer = .count r ∧ Fits len r ∧ x = result r := by
  cases answer with
  | count r =>
    simp only [Answer.counting] at taken
    split at taken
    · next fits => exact ⟨r, rfl, fits, (Option.some.inj taken).symm⟩
    · cases taken
  | silent | bytes => cases taken

theorem frameMove_of_frameStep {cb : Callbacks} {c : TcpConnection} {f : Frame} {answer : Answer}
    {result : List Frame × TcpConnection} (taken : frameStep cb c f answer = some result) :
    FrameMove cb c f answer result := by
  cases f with
  | user => cases taken
  | enableRead pc =>
    obtain ⟨rfl, rfl⟩ := Answer.silently_eq_some taken
    exact .enableRead pc
  | handleEvents revents pc =>
    obtain ⟨rfl, rfl⟩ := Answer.silently_eq_some taken
    exact .handleEvents revents pc
  | handleRead =>
    obtain ⟨r, rfl, rfl⟩ := Answer.reading_eq_some taken
    exact .handleRead r
  | handleClose pc =>
    obtain ⟨rfl, rfl⟩ := Answer.silently_eq_some taken
    exact .handleClose pc
  | send data =>
    obtain ⟨rfl, rfl⟩ := Answer.silently_eq_some taken
    exact .send data
  | sendReturn data =>
    obtain ⟨rfl, rfl⟩ := Answer.silently_eq_some taken
    exact .sendReturn data
  | sendInLoop data pc =>
    cases pc with
    | write =>
      obtain ⟨r, rfl, fits, rfl⟩ := Answer.counting_eq_some taken
      exact .sendInLoop data .write (.count r) r fun _ => fits
    | check | rest =>
      obtain ⟨rfl, rfl⟩ := Answer.silently_eq_some taken
      exact .sendInLoop data _ .silent none (by simp)
  | handleWrite pc =>
    cases pc with
    | write =>
      obtain ⟨r, rfl, fits, rfl⟩ := Answer.counting_eq_some taken
      exact .handleWrite .write (.count r) r (fun _ => fits) (by simp)
    | sendfile =>
      obtain ⟨r, rfl, fits, rfl⟩ := Answer.counting_eq_some taken
      exact .handleWrite .sendfile (.count r) r (by simp)
        fun _ n mem => Nat.le_trans (fits n mem) (Nat.min_le_left _ _)
    | test | drained | complete | sent | closeFd =>
      obtain ⟨rfl, rfl⟩ := Answer.silently_eq_some taken
      exact .handleWrite _ .silent none (by simp) (by simp)
  | shutdown =>
    obtain ⟨rfl, rfl⟩ := Answer.silently_eq_some taken
    exact .shutdown
  | shutdownStore =>
    obtain ⟨rfl, rfl⟩ := Answer.silently_eq_some taken
    exact .shutdownStore
  | shutdownInLoop =>
    obtain ⟨rfl, rfl⟩ := Answer.silently_eq_some taken
    exact .shutdownInLoop
  | forceClose =>
    obtain ⟨rfl, rfl⟩ := Answer.silently_eq_some taken
    exact .forceClose
  | forceCloseInLoop =>
    obtain ⟨rfl, rfl⟩ := Answer.silently_eq_some taken
    exact .forceCloseInLoop

/-! ## State and frames -/

/-- `shutdown` or `handleClose` has made its store. -/
def Late (st : ConnectionState) : Prop := st = .kDisconnecting ∨ st = .kDisconnected

/-- The frames of `enableRead` before its store. -/
@[simp] def Frame.starting : Frame → Bool
  | .enableRead .assert | .enableRead .store => true
  | _ => false

/-- What every function keeps to: only `enableRead` leaves `kConnecting`, all other stores are
late ones, and a `shutdownInLoop` is begun in a late state. -/
structure Controlled (c : TcpConnection) (f : Frame) (result : List Frame × TcpConnection) :
    Prop where
  state : result.2.state = c.state ∨ Late result.2.state ∨
    f = .enableRead .store ∧ result.2.state = .kConnected
  requests : .shutdownInLoop ∈ result.1 → Late result.2.state
  starting : ∀ g ∈ result.1, g.starting = true →
    f = .enableRead .assert ∧ result.1 = [g] ∧ result.2.state = c.state

section

variable {cb : Callbacks} {c : TcpConnection} {f : Frame} {answer : Answer}

theorem controlled_same {frames : List Frame} {c' : TcpConnection} (state : c'.state = c.state)
    (requests : .shutdownInLoop ∉ frames) (starting : ∀ g ∈ frames, g.starting = false) :
    Controlled c f (frames, c') := by
  refine ⟨Or.inl state, fun mem => absurd mem requests, fun g mem yes => ?_⟩
  rw [starting g mem] at yes
  cases yes

theorem enableReadStep_controlled (pc : EnableReadPc) :
    Controlled c (.enableRead pc) (enableReadStep cb c pc) := by
  cases pc with
  | assert =>
    have same : (if c.state = .kConnecting then c else c.emit .assertFailed).state = c.state := by
      split <;> rfl
    exact ⟨Or.inl same, by simp [enableReadStep], fun g mem _ =>
      ⟨rfl, by simp_all [enableReadStep], same⟩⟩
  | store =>
    exact ⟨Or.inr (Or.inr ⟨rfl, rfl⟩), by simp [enableReadStep], by simp [enableReadStep]⟩
  | enable =>
    simp only [enableReadStep]
    split <;> exact controlled_same rfl (by simp) (by simp)

theorem handleReadStep_controlled (result : Option Bytes) :
    Controlled c .handleRead (handleReadStep cb c result) := by
  cases result with
  | none => exact controlled_same rfl (by simp) (by simp)
  | some data =>
    cases data with
    | nil => exact controlled_same rfl (by simp) (by simp)
    | cons b data =>
      simp only [handleReadStep]
      split <;> exact controlled_same rfl (by simp) (by simp)

theorem handleCloseStep_controlled (pc : HandleClosePc) :
    Controlled c (.handleClose pc) (handleCloseStep cb c pc) := by
  cases pc with
  | store =>
    exact ⟨Or.inr (Or.inl (Or.inr rfl)), by simp [handleCloseStep], by simp [handleCloseStep]⟩
  | assertDisconnecting =>
    refine controlled_same ?_ (by simp) (by simp)
    split <;> rfl
  | assertConnected | notify | close =>
    simp only [handleCloseStep]
    split <;> exact controlled_same rfl (by simp) (by simp)

theorem sendInLoopStep_controlled (data : Bytes) (pc : SendInLoopPc) (result : Option Nat) :
    Controlled c (.sendInLoop data pc) (sendInLoopStep cb c data pc result) := by
  cases pc with
  | check caller =>
    simp only [sendInLoopStep]
    repeat' split
    all_goals exact controlled_same rfl (by simp) (by simp)
  | write =>
    cases result with
    | none => exact controlled_same rfl (by simp) (by simp)
    | some n =>
      simp only [sendInLoopStep]
      repeat' split
      all_goals exact controlled_same rfl (by simp) (by simp)
  | rest n =>
    simp only [sendInLoopStep]
    repeat' split
    all_goals exact controlled_same rfl (by simp) (by simp)

theorem handleWriteStep_controlled (pc : HandleWritePc) (result : Option Nat) :
    Controlled c (.handleWrite pc) (handleWriteStep cb c pc result) := by
  cases pc with
  | test =>
    simp only [handleWriteStep]
    repeat' split
    all_goals exact controlled_same rfl (by simp) (by simp)
  | write | sendfile =>
    cases result with
    | none => exact controlled_same rfl (by simp) (by simp)
    | some n =>
      simp only [handleWriteStep]
      split <;> exact controlled_same rfl (by simp) (by simp)
  | drained | sent =>
    simp only [handleWriteStep]
    split
    · next state => exact ⟨Or.inl rfl, fun _ => Or.inl state, by simp⟩
    · exact controlled_same rfl (by simp) (by simp)
  | complete =>
    simp only [handleWriteStep]
    split <;> exact controlled_same rfl (by simp) (by simp)
  | closeFd => exact controlled_same rfl (by simp) (by simp)

theorem FrameMove.controlled {result : List Frame × TcpConnection}
    (moved : FrameMove cb c f answer result) : Controlled c f result := by
  cases moved with
  | enableRead pc => exact enableReadStep_controlled pc
  | handleEvents revents pc =>
    refine controlled_same rfl ?_ ?_ <;> cases pc <;> simp only [handleEventsStep] <;>
      (try split) <;> simp
  | handleRead r => exact handleReadStep_controlled r
  | handleClose pc => exact handleCloseStep_controlled pc
  | send data =>
    unfold sendStep
    split <;> exact controlled_same rfl (by simp) (by simp)
  | sendReturn data => exact controlled_same rfl (by simp) (by simp)
  | sendInLoop data pc answer r => exact sendInLoopStep_controlled data pc r
  | handleWrite pc answer r => exact handleWriteStep_controlled pc r
  | shutdown =>
    unfold shutdownStep
    split <;> exact controlled_same rfl (by simp) (by simp)
  | shutdownStore =>
    exact ⟨Or.inr (Or.inl (Or.inl rfl)), fun _ => Or.inl rfl, by simp⟩
  | shutdownInLoop =>
    refine controlled_same ?_ (by simp) (by simp)
    unfold shutdownInLoopStep
    split <;> rfl
  | forceClose =>
    unfold forceCloseStep
    split <;> exact controlled_same rfl (by simp) (by simp)
  | forceCloseInLoop =>
    unfold forceCloseInLoopStep
    split <;> exact controlled_same rfl (by simp) (by simp)

/-! ## The frames that follow -/

/-- `g` may take the place of `f`, alone or with others. -/
@[simp] def Frame.leadsTo : Frame → Frame → Bool
  | .enableRead _, .enableRead _ | .enableRead _, .user => true
  | .handleEvents _ _, .handleEvents _ _ | .handleEvents _ _, .handleClose _
  | .handleEvents _ _, .handleRead | .handleEvents _ _, .handleWrite .test => true
  | .handleRead, .handleClose _ | .handleRead, .user => true
  | .handleClose _, .handleClose _ | .handleClose _, .user => true
  | .send _, .sendInLoop _ _ | .send _, .sendReturn _ => true
  | .sendInLoop _ _, .sendInLoop _ _ | .sendInLoop _ _, .user => true
  | .handleWrite .test, .handleWrite .write | .handleWrite .test, .handleWrite .sendfile => true
  | .handleWrite .write, .handleWrite .drained => true
  | .handleWrite .drained, .handleWrite .complete | .handleWrite .drained, .shutdownInLoop => true
  | .handleWrite .complete, .user => true
  | .handleWrite .sendfile, .handleWrite .sent => true
  | .handleWrite .sent, .handleWrite .closeFd | .handleWrite .sent, .shutdownInLoop => true
  | .shutdown, .shutdownStore | .shutdownStore, .shutdownInLoop => true
  | .forceClose, .forceCloseInLoop | .forceCloseInLoop, .handleClose _ => true
  | _, _ => false

theorem leads_none : ∀ g ∈ ([] : List Frame), f.leadsTo g = true := List.forall_mem_nil _

theorem leads_one {g : Frame} (leads : f.leadsTo g = true) : ∀ g' ∈ [g], f.leadsTo g' = true :=
  List.forall_mem_singleton.mpr leads

theorem leads_two {g h : Frame} (first : f.leadsTo g = true) (second : f.leadsTo h = true) :
    ∀ g' ∈ [g, h], f.leadsTo g' = true :=
  List.forall_mem_cons.mpr ⟨first, leads_one second⟩

theorem sendInLoopStep_leadsTo (data : Bytes) (pc : SendInLoopPc) (result : Option Nat) :
    ∀ g ∈ (sendInLoopStep cb c data pc result).1, (Frame.sendInLoop data pc).leadsTo g = true := by
  cases pc with
  | check caller =>
    simp only [sendInLoopStep]
    split
    · exact leads_none
    · split <;> exact leads_one rfl
  | write =>
    cases result with
    | none => exact leads_one rfl
    | some n =>
      simp only [sendInLoopStep]
      split
      · exact leads_one rfl
      · split
        · exact leads_two rfl rfl
        · exact leads_one rfl
  | rest n =>
    simp only [sendInLoopStep]
    split <;> exact leads_none

theorem handleWriteStep_leadsTo (pc : HandleWritePc) (result : Option Nat) :
    ∀ g ∈ (handleWriteStep cb c pc result).1, (Frame.handleWrite pc).leadsTo g = true := by
  cases pc with
  | test =>
    simp only [handleWriteStep]
    split
    · split
      · exact leads_one rfl
      · split
        · exact leads_one rfl
        · exact leads_none
    · exact leads_none
  | write | sendfile =>
    cases result with
    | none => exact leads_none
    | some n =>
      simp only [handleWriteStep]
      split
      · exact leads_one rfl
      · exact leads_none
  | drained | sent =>
    simp only [handleWriteStep]
    split
    · exact leads_two rfl rfl
    · exact leads_one rfl
  | complete =>
    simp only [handleWriteStep]
    split
    · exact leads_one rfl
    · exact leads_none
  | closeFd => exact leads_none

theorem FrameMove.leadsTo {result : List Frame × TcpConnection}
    (moved : FrameMove cb c f answer result) : ∀ g ∈ result.1, f.leadsTo g = true := by
  cases moved with
  | enableRead pc =>
    cases pc with
    | assert | store => exact leads_one rfl
    | enable =>
      simp only [enableReadStep]
      split
      · exact leads_one rfl
      · exact leads_none
  | handleEvents revents pc =>
    cases pc with
    | close | read =>
      simp only [handleEventsStep]
      split
      · exact leads_two rfl rfl
      · exact leads_one rfl
    | error => exact leads_one rfl
    | write =>
      simp only [handleEventsStep]
      split
      · exact leads_one rfl
      · exact leads_none
  | handleRead r =>
    rcases r with _ | _ | ⟨b, data⟩
    · exact leads_none
    · exact leads_one rfl
    · simp only [handleReadStep]
      split
      · exact leads_one rfl
      · exact leads_none
  | handleClose pc =>
    cases pc with
    | assertConnected =>
      simp only [handleCloseStep]
      split <;> exact leads_one rfl
    | assertDisconnecting | store => exact leads_one rfl
    | notify =>
      simp only [handleCloseStep]
      split
      · exact leads_two rfl rfl
      · exact leads_one rfl
    | close =>
      simp only [handleCloseStep]
      split
      · exact leads_one rfl
      · exact leads_none
  | send data =>
    unfold sendStep
    split
    · exact leads_two rfl rfl
    · exact leads_none
  | sendInLoop data pc answer r => exact sendInLoopStep_leadsTo data pc r
  | handleWrite pc answer r => exact handleWriteStep_leadsTo pc r
  | shutdown | forceClose | forceCloseInLoop =>
    simp only [shutdownStep, forceCloseStep, forceCloseInLoopStep]
    split
    · exact leads_one rfl
    · exact leads_none
  | shutdownStore => exact leads_one rfl
  | sendReturn | shutdownInLoop => exact leads_none

end

namespace System

variable {cb : Callbacks} {s s' : System} {l : Label}

/-- The steps of the system, one constructor for each. -/
inductive Move (cb : Callbacks) (s : System) : Label → System → Prop
  | run {f : Frame} {rest frames : List Frame} {conn : TcpConnection} (answer : Answer)
      (top : s.stack = f :: rest) (moved : FrameMove cb s.conn f answer (frames, conn)) :
      Move cb s (.run answer) { s with conn, stack := frames ++ rest }
  | call {rest : List Frame} (c : Call) (top : s.stack = .user :: rest) :
      Move cb s (.call c) (s.callStep c)
  | ret {rest : List Frame} (top : s.stack = .user :: rest) :
      Move cb s .ret { s with stack := rest }
  | swapTasks (idle : s.stack = []) (here : s.phase = .dispatch []) :
      Move cb s .next { s with phase := .tasks s.tasks, tasks := [] }
  | dispatchSelf {revents : BitVec 32} {rest : List (Option (BitVec 32))} (idle : s.stack = [])
      (here : s.phase = .dispatch (some revents :: rest)) :
      Move cb s .next { s with phase := .dispatch rest, stack := [.handleEvents revents .close] }
  | dispatchOther {rest : List (Option (BitVec 32))} (idle : s.stack = [])
      (here : s.phase = .dispatch (none :: rest)) :
      Move cb s .next { s with phase := .dispatch rest, stack := [.user] }
  | endTasks (idle : s.stack = []) (here : s.phase = .tasks []) :
      Move cb s .next { s with phase := .poll }
  | startTask {task : Task} {rest : List Task} (idle : s.stack = [])
      (here : s.phase = .tasks (task :: rest)) :
      Move cb s .next { s with phase := .tasks rest, stack := [task.frame] }
  | poll (active : List (Option (BitVec 32))) (idle : s.stack = []) (here : s.phase = .poll)
      (reported : CanReport s.conn active) :
      Move cb s (.poll active) { s with phase := .dispatch active }
  | addTask : Move cb s .addTask { s with tasks := s.tasks ++ [.user] }
  | acceptSend (t : Tid) (data : Bytes) (free : s.pending t = .idle)
      (connected : s.conn.state = .kConnected) :
      Move cb s (.other t (.send data))
        { s.setPending t (.sendTask data) with
          conn := s.conn.emit (.accepted (.other t) data) }
  | refuse (t : Tid) (c : Call) : Move cb s (.other t c) s
  | checkShutdown (t : Tid) (free : s.pending t = .idle)
      (connected : s.conn.state = .kConnected) :
      Move cb s (.other t .shutdown)
        { s.setPending t .shutdownStore with conn := s.conn.emit (.shutdownCalled (.other t)) }
  | refuseShutdown (t : Tid) (free : s.pending t = .idle)
      (notConnected : s.conn.state ≠ .kConnected) :
      Move cb s (.other t .shutdown)
        { s with conn := s.conn.emit (.shutdownCalled (.other t)) }
  | checkForceClose (t : Tid) (free : s.pending t = .idle)
      (opened : s.conn.state ≠ .kDisconnected) :
      Move cb s (.other t .forceClose) (s.setPending t .forceCloseTask)
  | pushSend (t : Tid) (data : Bytes) (here : s.pending t = .sendTask data) :
      Move cb s (.resume t)
        { s.setPending t .idle with
          tasks := s.tasks ++ [.sendInLoop t data],
          conn := s.conn.emit (.returned (.other t) data) }
  | storeDisconnecting (t : Tid) (here : s.pending t = .shutdownStore) :
      Move cb s (.resume t)
        { s.setPending t .shutdownTask with conn := s.conn.store .kDisconnecting }
  | pushShutdown (t : Tid) (here : s.pending t = .shutdownTask) :
      Move cb s (.resume t)
        { s.setPending t .idle with tasks := s.tasks ++ [.shutdownInLoop] }
  | pushForceClose (t : Tid) (here : s.pending t = .forceCloseTask) :
      Move cb s (.resume t)
        { s.setPending t .idle with tasks := s.tasks ++ [.forceCloseInLoop] }

theorem stack_of_head {f : Frame} (top : s.stack.head? = some f) :
    s.stack = f :: s.stack.tail := by
  cases stack : s.stack with
  | nil => rw [stack] at top; cases top
  | cons g rest =>
    rw [stack] at top
    cases top
    rfl

theorem move_of_nextStep (idle : s.stack = []) (taken : s.nextStep = some s') :
    Move cb s .next s' := by
  unfold nextStep at taken
  split at taken
  · cases taken
  · next here => cases taken; exact .swapTasks idle here
  · next here => cases taken; exact .dispatchSelf idle here
  · next here => cases taken; exact .dispatchOther idle here
  · next here => cases taken; exact .endTasks idle here
  · next here => cases taken; exact .startTask idle here

theorem move_of_otherStep {t : Tid} {c : Call} (free : s.pending t = .idle)
    (taken : s.otherStep t c = some s') : Move cb s (.other t c) s' := by
  cases c with
  | send data =>
    simp only [otherStep] at taken
    split at taken
    · next connected => cases taken; exact .acceptSend t data free connected
    · cases taken; exact .refuse t _
  | shutdown =>
    simp only [otherStep] at taken
    split at taken
    · next connected => cases taken; exact .checkShutdown t free connected
    · next notConnected => cases taken; exact .refuseShutdown t free notConnected
  | forceClose =>
    simp only [otherStep] at taken
    split at taken
    · next opened => cases taken; exact .checkForceClose t free opened
    · cases taken; exact .refuse t _
  | setSendFd => cases taken

theorem move_of_resumeStep {t : Tid} (taken : s.resumeStep t = some s') :
    Move cb s (.resume t) s' := by
  unfold resumeStep at taken
  split at taken
  · cases taken
  · next data here => cases taken; exact .pushSend t data here
  · next here => cases taken; exact .storeDisconnecting t here
  · next here => cases taken; exact .pushShutdown t here
  · next here => cases taken; exact .pushForceClose t here

theorem run_of_step {answer : Answer} (taken : step cb s (.run answer) = some s') :
    ∃ f rest frames conn, s.stack = f :: rest ∧
      frameStep cb s.conn f answer = some (frames, conn) ∧
      s' = { s with conn, stack := frames ++ rest } := by
  simp only [step] at taken
  split at taken
  · cases taken
  · next f rest top =>
    obtain ⟨⟨frames, conn⟩, ran, rfl⟩ := Option.map_eq_some_iff.mp taken
    exact ⟨f, rest, frames, conn, top, ran, rfl⟩

theorem move_of_step (taken : step cb s l = some s') : Move cb s l s' := by
  cases l with
  | run answer =>
    obtain ⟨f, rest, frames, conn, top, ran, rfl⟩ := run_of_step taken
    exact .run answer top (frameMove_of_frameStep ran)
  | call c =>
    simp only [step] at taken
    split at taken
    · next top => cases taken; exact .call c (stack_of_head top)
    · cases taken
  | ret =>
    simp only [step] at taken
    split at taken
    · next top => cases taken; exact .ret (stack_of_head top)
    · cases taken
  | next =>
    simp only [step] at taken
    split at taken
    · next idle => exact move_of_nextStep idle taken
    · cases taken
  | poll active =>
    simp only [step] at taken
    split at taken
    · next ready => cases taken; exact .poll active ready.1 ready.2.1 ready.2.2
    · cases taken
  | addTask => cases taken; exact .addTask
  | other t c =>
    simp only [step] at taken
    split at taken
    · next free => exact move_of_otherStep free taken
    · cases taken
  | resume t => exact move_of_resumeStep taken

/-- A call of user code stands above the frames that are there. -/
theorem callStep_stack (s : System) (call : Call) :
    ∃ frames, (s.callStep call).stack = frames ++ s.stack := by
  cases call with
  | send data => exact ⟨[.send data], rfl⟩
  | shutdown => exact ⟨[.shutdown], rfl⟩
  | forceClose => exact ⟨[.forceClose], rfl⟩
  | setSendFd => exact ⟨[], rfl⟩

/-! ## Steps outside of the frames -/

/-- A frame with which the loop begins a handler or a task. -/
def begins : Frame → Bool
  | .user | .handleEvents _ .close | .sendInLoop _ (.check (.other _)) | .shutdownInLoop
  | .forceCloseInLoop => true
  | _ => false

/-- An event of another thread. -/
def ofOther : Event → Bool
  | .accepted (.other _) _ | .returned (.other _) _ | .shutdownCalled (.other _) => true
  | _ => false

/-- What the loop does between two frames and the other threads do, as far as the frames and the
data of the connection are concerned. -/
inductive Outside (s s' : System) : Prop
  | begin (f : Frame) (idle : s.stack = []) (first : begins f = true) (stack : s'.stack = [f])
      (conn : s'.conn = s.conn)
  | event (e : Event) (other : ofOther e = true) (stack : s'.stack = s.stack)
      (conn : s'.conn = s.conn.emit e)
  | store (stack : s'.stack = s.stack) (conn : s'.conn = s.conn.store .kDisconnecting)
  | silent (stack : s'.stack = s.stack) (conn : s'.conn = s.conn)

/-- The steps of a frame, those of user code, and the others. -/
inductive Turn (cb : Callbacks) (s : System) : Label → System → Prop
  | run {f : Frame} {rest frames : List Frame} {conn : TcpConnection} (answer : Answer)
      (top : s.stack = f :: rest) (moved : FrameMove cb s.conn f answer (frames, conn)) :
      Turn cb s (.run answer) { s with conn, stack := frames ++ rest }
  | call {rest : List Frame} (c : Call) (top : s.stack = .user :: rest) :
      Turn cb s (.call c) (s.callStep c)
  | ret {rest : List Frame} (top : s.stack = .user :: rest) :
      Turn cb s .ret { s with stack := rest }
  | outside {l : Label} {s' : System} (beside : ∀ answer, l ≠ .run answer) (out : Outside s s') :
      Turn cb s l s'

theorem starting_of_begins {f : Frame} (first : begins f = true) : f.starting = false := by
  cases f with
  | enableRead => cases first
  | _ => rfl

theorem turn_of_step (taken : step cb s l = some s') : Turn cb s l s' := by
  cases move_of_step taken with
  | run answer top moved => exact .run answer top moved
  | call c top => exact .call c top
  | ret top => exact .ret top
  | @dispatchSelf revents _ idle =>
    exact .outside (by simp) (.begin (.handleEvents revents .close) idle rfl rfl rfl)
  | dispatchOther idle => exact .outside (by simp) (.begin .user idle rfl rfl rfl)
  | @startTask task _ idle =>
    exact .outside (by simp) (.begin task.frame idle (by cases task <;> rfl) rfl rfl)
  | acceptSend t data => exact .outside (by simp) (.event (.accepted (.other t) data) rfl rfl rfl)
  | checkShutdown t | refuseShutdown t =>
    exact .outside (by simp) (.event (.shutdownCalled (.other t)) rfl rfl rfl)
  | pushSend t data => exact .outside (by simp) (.event (.returned (.other t) data) rfl rfl rfl)
  | storeDisconnecting => exact .outside (by simp) (.store rfl rfl)
  | swapTasks | endTasks | poll | addTask | refuse | checkForceClose | pushShutdown
  | pushForceClose => exact .outside (by simp) (.silent rfl rfl)

end System

end Yvent.TcpConnection
