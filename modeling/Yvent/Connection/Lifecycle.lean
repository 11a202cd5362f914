import Yvent.Connection.History

/-!
# The life cycle of a connection

Three paths lead to `handleClose`: a hang-up event, the end of file and `forceClose`. Only the last
one looks at `state_` first. A run in which `handleEvents` and `handleRead` take their close and
message branches, and `shutdown` makes its store, only while the connection is not yet
`kDisconnected`, goes through the states in order and makes each notification once.
-/

namespace Yvent.TcpConnection

variable {cb : Callbacks} {c : TcpConnection} {f : Frame} {fs rest : List Frame}
  {answer : Answer} {st : ConnectionState} {n k : Nat}

/-- The frame takes a close or a message branch of the handlers. -/
def Frame.needsOpen (cb : Callbacks) : Frame → Answer → Bool
  | .handleEvents revents .close, _ => revents &&& EPOLLHUP ≠ 0 ∧ revents &&& EPOLLIN = 0
  | .handleRead, .bytes (some data) => data = [] ∨ cb.message = true
  | _, _ => false

theorem Frame.needsOpen_close (revents : BitVec 32) :
    (Frame.handleEvents revents .close).needsOpen cb answer =
      decide (revents &&& EPOLLHUP ≠ 0 ∧ revents &&& EPOLLIN = 0) := rfl

theorem Frame.needsOpen_read (data : Bytes) :
    Frame.handleRead.needsOpen cb (.bytes (some data)) =
      decide (data = [] ∨ cb.message = true) := rfl

/-- The side condition on a step: the handlers take a close or a message branch, and `shutdown`
makes its store, only before `kDisconnected`. -/
def OnlyWhileOpen (cb : Callbacks) (s : System) : Label → Prop
  | .run answer =>
    (s.stack.head?.any fun f => f.needsOpen cb answer) = true → s.conn.state ≠ .kDisconnected
  | .resume t => s.pending t = .shutdownStore → s.conn.state ≠ .kDisconnected
  | _ => True

instance (s : System) : (l : Label) → Decidable (OnlyWhileOpen cb s l)
  | .run _ => inferInstanceAs (Decidable (_ → _))
  | .resume _ => inferInstanceAs (Decidable (_ → _))
  | .call _ | .ret | .next | .poll _ | .addTask | .other _ _ => isTrue trivial

/-! ## The stack -/

/-- What a frame that is about to take a step expects of `state_`. -/
def Frame.Expects : Frame → ConnectionState → Prop
  | .enableRead .assert, st | .enableRead .store, st => st = .kConnecting
  | .handleClose .assertDisconnecting, st => st = .kDisconnecting
  | .handleClose .assertConnected, st | .handleClose .store, st | .shutdownStore, st =>
    st = .kConnected ∨ st = .kDisconnecting
  | _, st => st ≠ .kConnecting

/-- Frames that expect no more than that the connection has been established. -/
def Frame.plain : Frame → Bool
  | .enableRead .assert | .enableRead .store | .handleClose .assertConnected
  | .handleClose .assertDisconnecting | .handleClose .store | .shutdownStore => false
  | _ => true

/-- The frame is about to notify the disconnection. -/
def Frame.notifies : Frame → Bool
  | .handleClose .notify => true
  | _ => false

/-- The frame is about to call `closeCallback_`. -/
def Frame.closes : Frame → Bool
  | .handleClose .notify | .handleClose .close => true
  | _ => false

/-- A stack that fits `state_`: only its top may expect more than a plain frame does. -/
def Stacked : List Frame → ConnectionState → Prop
  | [], st => st ≠ .kConnecting
  | f :: rest, st => f.Expects st ∧ ∀ g ∈ rest, g.plain = true

theorem Frame.expects_of_plain (plain : f.plain = true) :
    f.Expects st ↔ st ≠ .kConnecting := by
  cases f with
  | enableRead pc => cases pc <;> first | exact Iff.rfl | cases plain
  | handleClose pc => cases pc <;> first | exact Iff.rfl | cases plain
  | shutdownStore => cases plain
  | _ => exact Iff.rfl

theorem Stacked.append (stacked : Stacked fs st) (plain : ∀ g ∈ rest, g.plain = true) :
    Stacked (fs ++ rest) st := by
  cases fs with
  | nil =>
    cases rest with
    | nil => exact stacked
    | cons g rest =>
      refine ⟨(Frame.expects_of_plain (plain g List.mem_cons_self)).mpr stacked, ?_⟩
      exact fun h mem => plain h (List.mem_cons_of_mem _ mem)
  | cons f fs =>
    refine ⟨stacked.1, fun g mem => ?_⟩
    rcases List.mem_append.mp mem with mem | mem
    · exact stacked.2 g mem
    · exact plain g mem

theorem rank_le_disconnecting (live : st = .kConnected ∨ st = .kDisconnecting) :
    st.rank ≤ ConnectionState.kDisconnecting.rank := by
  rcases live with rfl | rfl
  · decide
  · exact Nat.le_refl _

/-- `shutdown` in another thread may move the state on under any frame. -/
theorem Stacked.disconnecting {stack : List Frame} (stacked : Stacked stack st)
    (before : st = .kConnected ∨ st = .kDisconnecting) : Stacked stack .kDisconnecting := by
  cases stack with
  | nil => exact fun h => by cases h
  | cons f rest =>
    refine ⟨?_, stacked.2⟩
    have expects := stacked.1
    cases f with
    | enableRead pc => cases pc <;> simp_all [Frame.Expects]
    | handleClose pc => cases pc <;> simp_all [Frame.Expects]
    | _ => simp_all [Frame.Expects]

/-- Frames that have nothing to do with opening or closing. -/
@[simp] def Frame.quiet : Frame → Bool
  | .enableRead .assert | .enableRead .store | .handleClose _ | .shutdownStore => false
  | _ => true

theorem Frame.plain_of_quiet (quiet : f.quiet = true) :
    f.plain = true ∧ f.notifies = false ∧ f.closes = false := by
  cases f with
  | enableRead pc => cases pc <;> first | exact ⟨rfl, rfl, rfl⟩ | cases quiet
  | handleClose | shutdownStore => cases quiet
  | _ => exact ⟨rfl, rfl, rfl⟩

theorem Stacked.of_quiet (established : st ≠ .kConnecting) (quiet : ∀ g ∈ fs, g.quiet = true) :
    Stacked fs st := by
  cases fs with
  | nil => exact established
  | cons f fs =>
    have plain := fun g mem => (Frame.plain_of_quiet (quiet g mem)).1
    refine ⟨(Frame.expects_of_plain (plain f List.mem_cons_self)).mpr established, ?_⟩
    exact fun g mem => plain g (List.mem_cons_of_mem _ mem)

/-! ## The functions of the connection -/

/-- A step of a function that leaves the life cycle alone. -/
structure Leaves (c : TcpConnection) (result : List Frame × TcpConnection) : Prop where
  state : result.2.state = c.state
  recorded : ∀ n k, Recorded c n k → Recorded result.2 n k
  quiet : ∀ g ∈ result.1, g.quiet = true

theorem Leaves.established {result : List Frame × TcpConnection} (leaves : Leaves c result)
    (established : c.state ≠ .kConnecting) : result.2.state ≠ .kConnecting := by
  rw [leaves.state]
  exact established

theorem sendStep_leaves (data : Bytes) : Leaves c (sendStep c data) := by
  unfold sendStep
  split
  · exact ⟨rfl, fun n k rec => rec.quiet rfl, by simp⟩
  · exact ⟨rfl, fun n k rec => rec, by simp⟩

theorem sendInLoopStep_leaves (data : Bytes) (pc : SendInLoopPc) (result : Option Nat) :
    Leaves c (sendInLoopStep cb c data pc result) := by
  cases pc with
  | check caller =>
    simp only [sendInLoopStep]
    split
    · exact ⟨rfl, fun n k rec => rec, by simp⟩
    · split <;> exact ⟨rfl, fun n k rec => rec.quiet rfl, by simp⟩
  | write =>
    cases result with
    | none => exact ⟨rfl, fun n k rec => rec.quiet rfl, by simp [sendInLoopStep]⟩
    | some m =>
      simp only [sendInLoopStep]
      split
      · exact ⟨rfl, fun n k rec => rec.quiet rfl, by simp⟩
      · split
        · exact ⟨rfl, fun n k rec => (rec.quiet rfl).quiet rfl, by simp⟩
        · exact ⟨rfl, fun n k rec => rec.quiet rfl, by simp⟩
  | rest m =>
    simp only [sendInLoopStep]
    split
    · split <;> exact ⟨rfl, fun n k rec => rec.congr rfl rfl, by simp⟩
    · exact ⟨rfl, fun n k rec => rec, by simp⟩

theorem handleWriteStep_leaves (pc : HandleWritePc) (result : Option Nat) :
    Leaves c (handleWriteStep cb c pc result) := by
  cases pc with
  | test =>
    simp only [handleWriteStep]
    repeat' split
    all_goals exact ⟨rfl, fun n k rec => rec, by simp⟩
  | write =>
    cases result with
    | none => exact ⟨rfl, fun n k rec => rec.quiet rfl, by simp [handleWriteStep]⟩
    | some m =>
      have wrote : ∀ n k, Recorded c n k → Recorded (c.emit (.write c.outBuffer (some m))) n k :=
        fun n k rec => rec.quiet rfl
      simp only [handleWriteStep]
      split <;> exact ⟨rfl, fun n k rec => (wrote n k rec).congr rfl rfl, by simp⟩
  | drained | sent =>
    simp only [handleWriteStep]
    split <;> exact ⟨rfl, fun n k rec => rec, by simp⟩
  | complete =>
    simp only [handleWriteStep]
    split
    · exact ⟨rfl, fun n k rec => rec.quiet rfl, by simp⟩
    · exact ⟨rfl, fun n k rec => rec, by simp⟩
  | sendfile =>
    cases result with
    | none => exact ⟨rfl, fun n k rec => rec.quiet rfl, by simp [handleWriteStep]⟩
    | some m =>
      have sent : ∀ n k, Recorded c n k → Recorded (c.emit (.sendfile c.file (some m))) n k :=
        fun n k rec => rec.quiet rfl
      simp only [handleWriteStep]
      split <;> exact ⟨rfl, fun n k rec => (sent n k rec).congr rfl rfl, by simp⟩
  | closeFd => exact ⟨rfl, fun n k rec => rec.quiet rfl, by simp [handleWriteStep]⟩

theorem shutdownInLoopStep_leaves : Leaves c ([], shutdownInLoopStep c) := by
  unfold shutdownInLoopStep
  split
  · exact ⟨rfl, fun n k rec => rec, by simp⟩
  · exact ⟨rfl, fun n k rec => rec.quiet rfl, by simp⟩

/-- What a frame's step does to the life cycle: the history is kept for the frames that take its
place, and these fit `state_`. -/
structure Serves (n k : Nat) (result : List Frame × TcpConnection) : Prop where
  recorded : Recorded result.2 (n + result.1.countP Frame.notifies)
    (k + result.1.countP Frame.closes)
  stacked : Stacked result.1 result.2.state

theorem countP_of_quiet (quiet : ∀ g ∈ fs, g.quiet = true) :
    fs.countP Frame.notifies = 0 ∧ fs.countP Frame.closes = 0 := by
  rw [List.countP_eq_zero, List.countP_eq_zero]
  refine ⟨fun g mem => ?_, fun g mem => ?_⟩
  · rw [(Frame.plain_of_quiet (quiet g mem)).2.1]
    exact Bool.false_ne_true
  · rw [(Frame.plain_of_quiet (quiet g mem)).2.2]
    exact Bool.false_ne_true

theorem Leaves.serves {result : List Frame × TcpConnection} (leaves : Leaves c result)
    (rec : Recorded c n k) (established : c.state ≠ .kConnecting) : Serves n k result := by
  have none := countP_of_quiet leaves.quiet
  refine ⟨?_, ?_⟩
  · rw [none.1, none.2]
    exact leaves.recorded n k rec
  · exact Stacked.of_quiet (leaves.established established) leaves.quiet

theorem enableReadStep_serves (pc : EnableReadPc) (rec : Recorded c n k)
    (expects : (Frame.enableRead pc).Expects c.state) : Serves n k (enableReadStep cb c pc) := by
  cases pc with
  | assert =>
    have connecting : c.state = .kConnecting := expects
    simp only [enableReadStep, connecting, if_true]
    exact ⟨rec, connecting, by simp⟩
  | store =>
    have connecting : c.state = .kConnecting := expects
    refine ⟨rec.store ?_ ?_ (Nat.le_refl _) (Nat.le_refl _), ?_, by simp⟩
    · rw [connecting]
      exact fun h => by cases h
    · rw [connecting]
      decide
    · exact fun h => by cases h
  | enable =>
    have established : c.state ≠ .kConnecting := expects
    have enabled : Recorded c.enableReading n k := rec.congr rfl rfl
    simp only [enableReadStep]
    split
    · exact ⟨enabled.quiet rfl, established, by simp⟩
    · exact ⟨enabled, established⟩

theorem handleEventsStep_serves (revents : BitVec 32) (pc : HandleEventsPc) (rec : Recorded c n k)
    (established : c.state ≠ .kConnecting)
    (opened : (Frame.handleEvents revents pc).needsOpen cb answer = true →
      c.state ≠ .kDisconnected) : Serves n k (handleEventsStep revents pc, c) := by
  cases pc with
  | close =>
    simp only [handleEventsStep]
    split
    · next hangup =>
      refine ⟨rec, ?_, by simp [Frame.plain]⟩
      have opened := opened (by rw [Frame.needsOpen_close]; exact decide_eq_true hangup)
      cases state : c.state <;> simp_all [Frame.Expects]
    · exact ⟨rec, established, by simp⟩
  | error => exact ⟨rec, established, by simp⟩
  | read =>
    simp only [handleEventsStep]
    split
    · exact ⟨rec, established, by simp [Frame.plain]⟩
    · exact ⟨rec, established, by simp⟩
  | write =>
    simp only [handleEventsStep]
    split
    · exact ⟨rec, established, by simp⟩
    · exact ⟨rec, established⟩

theorem handleReadStep_serves (result : Option Bytes) (rec : Recorded c n k)
    (established : c.state ≠ .kConnecting)
    (opened : Frame.handleRead.needsOpen cb (.bytes result) = true → c.state ≠ .kDisconnected) :
    Serves n k (handleReadStep cb c result) := by
  cases result with
  | none => exact ⟨rec, established⟩
  | some data =>
    cases data with
    | nil =>
      have opened := opened rfl
      refine ⟨rec, ?_, by simp⟩
      cases state : c.state <;> simp_all [Frame.Expects, handleReadStep]
    | cons b data =>
      simp only [handleReadStep]
      split
      · next set =>
        have opened := opened (by rw [Frame.needsOpen_read]; exact decide_eq_true (Or.inr set))
        refine ⟨?_, established, by simp⟩
        exact rec.emit (by simp) (by simp) (fun _ _ => opened) (Nat.le_refl _) (Nat.le_refl _)
      · exact ⟨rec, established⟩

theorem handleCloseStep_serves (pc : HandleClosePc)
    (rec : Recorded c (n + [Frame.handleClose pc].countP Frame.notifies)
      (k + [Frame.handleClose pc].countP Frame.closes))
    (expects : (Frame.handleClose pc).Expects c.state) : Serves n k (handleCloseStep cb c pc) := by
  cases pc with
  | assertConnected =>
    have live : c.state = .kConnected ∨ c.state = .kDisconnecting := expects
    simp only [handleCloseStep]
    split
    · exact ⟨rec, live, by simp⟩
    · next other => exact ⟨rec, live.resolve_left other, by simp⟩
  | assertDisconnecting =>
    have disconnecting : c.state = .kDisconnecting := expects
    simp only [handleCloseStep, disconnecting, if_true]
    exact ⟨rec, Or.inr disconnecting, by simp⟩
  | store =>
    have live : c.state = .kConnected ∨ c.state = .kDisconnecting := expects
    have opened : c.state ≠ .kDisconnected := by
      rcases live with state | state <;> rw [state] <;> decide
    have next : c.state.rank ≤ ConnectionState.kDisconnected.rank := by
      rcases live with state | state <;> rw [state] <;> decide
    refine ⟨rec.store opened next (Nat.le_refl _) (Nat.le_refl _), ?_, by simp⟩
    exact fun h => by cases h
  | notify =>
    have established : c.state ≠ .kConnecting := expects
    have disabled : Recorded c.disableAll (n + 1) (k + 1) := rec.congr rfl rfl
    simp only [handleCloseStep]
    split
    · refine ⟨?_, established, by simp [Frame.plain]⟩
      exact disabled.emit (by simp) (by simp) (by simp) (Nat.le_refl _) (Nat.le_refl _)
    · exact ⟨disabled.mono (Nat.le_succ n) (Nat.le_refl _), established, by simp⟩
  | close =>
    have established : c.state ≠ .kConnecting := expects
    simp only [handleCloseStep]
    split
    · refine ⟨?_, established, by simp⟩
      exact rec.emit (by simp) (by simp) (by simp) (Nat.le_refl _) (Nat.le_refl _)
    · exact ⟨rec.mono (Nat.le_refl _) (Nat.le_succ k), established⟩

/-- One step of the executing frame. -/
theorem frameMove_serves {result : List Frame × TcpConnection}
    (rec : Recorded c (n + [f].countP Frame.notifies) (k + [f].countP Frame.closes))
    (expects : f.Expects c.state)
    (opened : f.needsOpen cb answer = true → c.state ≠ .kDisconnected)
    (moved : FrameMove cb c f answer result) : Serves n k result := by
  cases moved with
  | enableRead pc => exact enableReadStep_serves pc rec expects
  | handleEvents revents pc => exact handleEventsStep_serves revents pc rec expects opened
  | handleRead r => exact handleReadStep_serves r rec expects opened
  | handleClose pc => exact handleCloseStep_serves pc rec expects
  | send data => exact (sendStep_leaves data).serves rec expects
  | sendReturn data => exact ⟨rec.quiet rfl, expects⟩
  | sendInLoop data pc answer r => exact (sendInLoopStep_leaves data pc r).serves rec expects
  | handleWrite pc answer r => exact (handleWriteStep_leaves pc r).serves rec expects
  | shutdown =>
    unfold shutdownStep
    split
    · next connected => exact ⟨rec, Or.inl connected, by simp⟩
    · exact ⟨rec, expects⟩
  | shutdownStore =>
    have live : c.state = .kConnected ∨ c.state = .kDisconnecting := expects
    have opened : c.state ≠ .kDisconnected := by
      rcases live with state | state <;> simp [state]
    refine ⟨rec.store opened (rank_le_disconnecting live) (Nat.le_refl _) (Nat.le_refl _), ?_,
      by simp⟩
    exact fun h => by cases h
  | shutdownInLoop => exact shutdownInLoopStep_leaves.serves rec expects
  | forceClose =>
    have established : c.state ≠ .kConnecting := expects
    unfold forceCloseStep
    split
    · exact ⟨rec, established, by simp⟩
    · exact ⟨rec, established⟩
  | forceCloseInLoop =>
    have established : c.state ≠ .kConnecting := expects
    unfold forceCloseInLoopStep
    split
    · refine ⟨rec, ?_, by simp⟩
      cases state : c.state <;> simp_all [Frame.Expects]
    · exact ⟨rec, established⟩

/-! ## Runs -/

/-- The invariant of the life cycle. -/
structure LifecycleInv (s : System) : Prop where
  recorded : Recorded s.conn (s.stack.countP Frame.notifies) (s.stack.countP Frame.closes)
  stacked : Stacked s.stack s.conn.state
  pending : ∀ t, s.pending t = .shutdownStore → s.conn.state ≠ .kConnecting

theorem lifecycleInv_start : LifecycleInv .start where
  recorded := recorded_create
  stacked := ⟨rfl, by simp [Frame.plain]⟩
  pending _ here := by cases here

/-- No function goes back to `kConnecting`. -/
theorem FrameMove.established {result : List Frame × TcpConnection}
    (moved : FrameMove cb c f answer result) (established : c.state ≠ .kConnecting) :
    result.2.state ≠ .kConnecting := by
  rcases moved.controlled.state with same | late | ⟨-, connected⟩
  · rw [same]
    exact established
  · rcases late with state | state <;> rw [state] <;> simp
  · rw [connected]
    simp

theorem LifecycleInv.of_stack {s : System} {stack : List Frame} {phase : Phase}
    {tasks : List Task} (inv : LifecycleInv s) (idle : s.stack = [])
    (quiet : ∀ g ∈ stack, g.quiet = true) :
    LifecycleInv { s with stack, phase, tasks } := by
  obtain ⟨recorded, stacked, pending⟩ := inv
  rw [idle] at recorded stacked
  have none : stack.countP Frame.notifies = 0 ∧ stack.countP Frame.closes = 0 :=
    countP_of_quiet quiet
  refine ⟨?_, Stacked.of_quiet stacked quiet, pending⟩
  rw [none.1, none.2]
  exact recorded

theorem lifecycleInv_run {s : System} {rest : List Frame} {result : List Frame × TcpConnection}
    (inv : LifecycleInv s) (top : s.stack = f :: rest)
    (opened : f.needsOpen cb answer = true → s.conn.state ≠ .kDisconnected)
    (moved : FrameMove cb s.conn f answer result) :
    LifecycleInv { s with conn := result.2, stack := result.1 ++ rest } := by
  obtain ⟨recorded, stacked, pending⟩ := inv
  rw [top] at recorded stacked
  have split : ∀ p : Frame → Bool, (f :: rest).countP p = rest.countP p + [f].countP p := by
    intro p
    rw [← List.singleton_append, List.countP_append, Nat.add_comm]
  rw [split, split] at recorded
  have serves := frameMove_serves recorded stacked.1 opened moved
  refine ⟨?_, serves.stacked.append stacked.2, fun t here => moved.established (pending t here)⟩
  rw [List.countP_append, List.countP_append, Nat.add_comm, Nat.add_comm (List.countP _ result.1)]
  exact serves.recorded

theorem lifecycleInv_call {s : System} {rest : List Frame} (call : Call) (inv : LifecycleInv s)
    (top : s.stack = .user :: rest) : LifecycleInv (s.callStep call) := by
  obtain ⟨recorded, stacked, pending⟩ := inv
  have plain : ∀ g ∈ s.stack, g.plain = true := by
    rw [top] at stacked ⊢
    exact List.forall_mem_cons.mpr ⟨rfl, stacked.2⟩
  have established : s.conn.state ≠ .kConnecting := by
    rw [top] at stacked
    exact stacked.1
  cases call with
  | send data => exact ⟨recorded, ⟨established, plain⟩, pending⟩
  | shutdown => exact ⟨recorded.quiet rfl, ⟨established, plain⟩, pending⟩
  | forceClose => exact ⟨recorded, ⟨established, plain⟩, pending⟩
  | setSendFd fd file stSize =>
    exact ⟨(recorded.quiet (e := .setSendFd fd file) rfl).congr rfl rfl, stacked, pending⟩

theorem lifecycleInv_step {s s' : System} {l : Label} (inv : LifecycleInv s)
    (good : OnlyWhileOpen cb s l) (taken : System.step cb s l = some s') : LifecycleInv s' := by
  have update : ∀ {t : Tid} {p : Pending} {c : TcpConnection},
      (p = .shutdownStore → c.state ≠ .kConnecting) →
      (s.conn.state ≠ .kConnecting → c.state ≠ .kConnecting) →
      ∀ t', Function.update s.pending t p t' = .shutdownStore → c.state ≠ .kConnecting := by
    intro t p c own others t' here
    by_cases same : t' = t
    · subst same
      rw [Function.update_self] at here
      exact own here
    · rw [Function.update_of_ne same] at here
      exact others (inv.pending t' here)
  cases System.move_of_step taken with
  | run answer top moved =>
    refine lifecycleInv_run inv top (fun needs => good ?_) moved
    rw [top]
    exact needs
  | call call top => exact lifecycleInv_call call inv top
  | @ret rest top =>
    obtain ⟨recorded, stacked, pending⟩ := inv
    rw [top] at recorded stacked
    refine ⟨recorded, ?_, pending⟩
    exact Stacked.append (show Stacked [] s.conn.state from stacked.1) stacked.2
  | swapTasks idle => exact inv.of_stack idle (idle ▸ by simp)
  | dispatchSelf idle => exact inv.of_stack idle (by simp)
  | dispatchOther idle => exact inv.of_stack idle (by simp)
  | endTasks idle => exact inv.of_stack idle (idle ▸ by simp)
  | @startTask task rest idle => exact inv.of_stack idle (by cases task <;> simp [Task.frame])
  | poll active idle => exact inv.of_stack idle (idle ▸ by simp)
  | addTask => exact ⟨inv.recorded, inv.stacked, inv.pending⟩
  | acceptSend t data =>
    exact ⟨inv.recorded.quiet rfl, inv.stacked, update (by simp) id⟩
  | refuse => exact inv
  | checkShutdown t free connected =>
    refine ⟨inv.recorded.quiet rfl, inv.stacked, update (fun _ => ?_) id⟩
    show s.conn.state ≠ .kConnecting
    rw [connected]
    decide
  | refuseShutdown t => exact ⟨inv.recorded.quiet rfl, inv.stacked, inv.pending⟩
  | checkForceClose t => exact ⟨inv.recorded, inv.stacked, update (by simp) id⟩
  | pushSend t data => exact ⟨inv.recorded.quiet rfl, inv.stacked, update (by simp) id⟩
  | storeDisconnecting t here =>
    have opened : s.conn.state ≠ .kDisconnected := good here
    have established := inv.pending t here
    have live : s.conn.state = .kConnected ∨ s.conn.state = .kDisconnecting := by
      cases state : s.conn.state <;> simp_all
    exact ⟨inv.recorded.store opened (rank_le_disconnecting live) (Nat.le_refl _)
      (Nat.le_refl _), inv.stacked.disconnecting live, update (by simp) fun _ h => by cases h⟩
  | pushShutdown t => exact ⟨inv.recorded, inv.stacked, update (by simp) id⟩
  | pushForceClose t => exact ⟨inv.recorded, inv.stacked, update (by simp) id⟩

theorem lifecycleInv_reachable {s : System}
    (reached : Reaches (System.step cb) (OnlyWhileOpen cb) .start s) : LifecycleInv s :=
  reached.invariant lifecycleInv_start fun _ _ _ _ inv good taken =>
    lifecycleInv_step inv good taken

/-- A connection whose handlers and whose `shutdown` act only before `kDisconnected` goes through
its life cycle once. -/
theorem lifecycleOk_of_onlyWhileOpen {s : System}
    (reached : Reaches (System.step cb) (OnlyWhileOpen cb) .start s) :
    LifecycleOk s.conn.trace :=
  (lifecycleInv_reachable reached).recorded.ok

/-- The steps up to the first `epoll_wait`. -/
def opening : List Label :=
  [.run .silent, .run .silent, .run .silent, .ret, .ret, .next]

/-- A hang-up closes the connection from a channel event. -/
theorem lifecycleOk_after_hangup :
    ∃ s : System, s.conn.state = .kDisconnected ∧ LifecycleOk s.conn.trace := by
  obtain ⟨s, reached, closed⟩ : ∃ s, Reaches (System.step allCallbacks)
      (OnlyWhileOpen allCallbacks) .start s ∧ s.conn.state = .kDisconnected :=
    exists_reaches_of_exec
      (opening ++ [.poll [some EPOLLHUP], .next, .run .silent, .run .silent, .run .silent,
        .run .silent, .ret, .run .silent, .ret])
      (by decide)
  exact ⟨s, closed, lifecycleOk_of_onlyWhileOpen reached⟩

/-- A mask with a hang-up and urgent data enters `handleClose` twice: the second time its assertion
fails. And a `shutdown` in another thread that loaded `kConnected` before `handleClose` takes the
connection out of `kDisconnected`. -/
theorem lifecycle_breaks :
    (∃ s, Reaches (System.step allCallbacks) anyStep .start s ∧
      .assertFailed ∈ s.conn.trace ∧ ¬LifecycleOk s.conn.trace) ∧
    ∃ s, Reaches (System.step allCallbacks) anyStep .start s ∧
      s.conn.state = .kDisconnecting ∧ ¬LifecycleOk s.conn.trace := by
  constructor
  · obtain ⟨s, reached, failed⟩ : ∃ s, Reaches (System.step allCallbacks) anyStep .start s ∧
        .assertFailed ∈ s.conn.trace :=
      exists_reaches_of_exec
        (opening ++ [.poll [some (EPOLLHUP ||| EPOLLPRI)], .next, .run .silent, .run .silent,
          .run .silent, .run .silent, .ret, .run .silent, .ret, .run .silent, .run .silent,
          .run (.bytes (some [])), .run .silent, .run .silent])
        (by decide)
    exact ⟨s, reached, failed, fun ok => ok.asserted failed⟩
  · obtain ⟨s, reached, state, trace⟩ : ∃ s, Reaches (System.step allCallbacks) anyStep .start s ∧
        s.conn.state = .kDisconnecting ∧ s.conn.trace = [.store .kConnected, .notifyConnected,
          .shutdownCalled (.other 1), .store .kDisconnected, .store .kDisconnecting] :=
      exists_reaches_of_exec
        (opening ++ [.other 1 .shutdown, .poll [some EPOLLHUP], .next, .run .silent, .run .silent,
          .run .silent, .resume 1])
        (by decide)
    refine ⟨s, reached, state, fun ok => ?_⟩
    have forward := ok.forward
    rw [trace] at forward
    simp [ConnectionState.rank] at forward

end Yvent.TcpConnection
