import Yvent.Connection.Draining

/-!
# The completion of a write

`sendInLoop` and `handleWrite` hand the completion callback to `runInLoop`, which in the loop thread
runs it at once, above the frame that has written. A `send` in it that finds nothing waiting writes
directly and completes again, so the frames pile up for as long as the socket takes everything.
-/

namespace Yvent.TcpConnection

variable {cb : Callbacks} {c c' : TcpConnection} {f : Frame} {answer : Answer}
  {frames below rest : List Frame} {s t : System} {l : Label} {labels : List Label} {depth : Nat}

/-! ## The steps within a call -/

/-- A `send` would write directly. -/
def Ready (c : TcpConnection) : Prop :=
  c.state = .kConnected ∧ c.isWriting = false ∧ c.outBuffer = []

instance (c : TcpConnection) : Decidable c.Ready := inferInstanceAs (Decidable (_ ∧ _))

/-- The frame's next step is a call of `::write`. -/
def Frame.writes : Frame → Bool
  | .sendInLoop _ .write | .handleWrite .write => true
  | _ => false

namespace System

/-- The step calls `::write`. -/
def writes (s : System) : Label → Bool
  | .run _ => (top s.stack).writes
  | _ => false

/-- The step begins a callback. -/
def beginsCallback (cb : Callbacks) (s : System) : Label → Bool
  | .run answer =>
    (frameStep cb s.conn (top s.stack) answer).any fun result => .user ∈ result.1
  | _ => false

/-- User code calls the connection. -/
def callsConnection (_ : System) : Label → Bool
  | .call _ => true
  | _ => false

/-- The loop thread takes the step. -/
def ofLoop (_ : System) : Label → Bool
  | .run _ | .call _ | .ret => true
  | _ => false

/-- Another thread makes the store of its `shutdown`. -/
def storesDisconnecting (s : System) : Label → Bool
  | .resume t => s.pending t = .shutdownStore
  | _ => false

/-- A `send` above the lowest `depth + 1` frames is about to load `state_`, and would write
directly. -/
def sendsAgain (depth : Nat) (s : System) : Label → Bool
  | .run _ =>
    match s.stack with
    | .send _ :: rest => depth < rest.length ∧ s.conn.Ready
    | _ => false
  | _ => false

/-- A step within the call above the lowest `depth` frames. -/
def Within (depth : Nat) (s : System) (_ : Label) : Prop := depth < s.stack.length

/-- A step within the call, in which no further `send` writes directly. -/
def SendsOnce (depth : Nat) (s : System) (l : Label) : Prop :=
  depth < s.stack.length ∧ s.sendsAgain depth l = false

instance (depth : Nat) (s : System) (l : Label) : Decidable (Within depth s l) :=
  inferInstanceAs (Decidable (_ < _))

instance (depth : Nat) (s : System) (l : Label) : Decidable (SendsOnce depth s l) :=
  inferInstanceAs (Decidable (_ ∧ _))

/-- The steps from `s`, where the call above the lowest `depth` frames is entered, to `t`: they call
`::write` at most once and begin at most three callbacks, unless other threads take the connection
back from `kDisconnected`. Beside the calls of the callbacks themselves the loop thread takes a
bounded number of steps, and until the call has returned it has one to take. -/
structure ReturnsSoon (cb : Callbacks) (depth : Nat) (s : System) (labels : List Label)
    (t : System) : Prop where
  writes : countSteps (step cb) writes labels s ≤ 1
  callbacks : countSteps (step cb) (beginsCallback cb) labels s ≤
    3 + 2 * countSteps (step cb) storesDisconnecting labels s
  steps : countSteps (step cb) ofLoop labels s ≤
    6 + 10 * countSteps (step cb) callsConnection labels s
  goesOn : depth < t.stack.length → ∃ l, t.ofLoop l = true ∧ (step cb t l).isSome = true

end System

/-! ## What the frames still do -/

/-- A function that `send`, `handleWrite` or a callback in them leads to. -/
@[simp] def Frame.ofCall : Frame → Bool
  | .enableRead _ | .handleEvents _ _ | .handleRead => false
  | _ => true

/-- A frame that waits under the one it has called. -/
@[simp] def Frame.waits : Frame → Bool
  | .user | .sendReturn _ | .sendInLoop _ (.rest _) | .handleWrite .complete
  | .handleWrite .closeFd | .handleClose .close => true
  | _ => false

/-- How often an executing frame still calls `::write`. -/
@[simp] def Frame.writesLeft (c : TcpConnection) : Frame → Nat
  | .send _ => if c.Ready then 1 else 0
  | .sendInLoop _ (.check _) => if c.isWriting = false ∧ c.outBuffer = [] then 1 else 0
  | .sendInLoop _ .write | .handleWrite .test | .handleWrite .write => 1
  | _ => 0

/-- How many callbacks a frame still begins, without that of a write that is still to come and
without those of a store of `kDisconnected` that is. -/
@[simp] def Frame.callbacksLeft (c : TcpConnection) : Frame → Nat
  | .handleWrite .drained | .handleWrite .complete | .handleClose .close => 1
  | .handleClose .notify => 2
  | .handleClose _ | .shutdownStore => if c.state = .kDisconnected then 2 else 0
  | _ => 0

/-- How many callbacks a store of `kDisconnected` would lead to. -/
def closingsLeft (c : TcpConnection) : Nat := if c.state = .kDisconnected then 0 else 2

/-- A bound on the steps of a frame and of those it calls. -/
@[simp] def Frame.weight : Frame → Nat
  | .user | .sendReturn _ | .sendInLoop _ (.rest _) | .handleWrite .closeFd | .shutdownInLoop => 1
  | .shutdownStore | .handleClose .close | .handleWrite .complete => 2
  | .shutdown | .sendInLoop _ .write | .handleWrite .sent => 3
  | .handleClose .notify | .sendInLoop _ (.check _) | .handleWrite .sendfile
  | .handleWrite .drained => 4
  | .handleClose .store | .handleWrite .write => 5
  | .handleClose .assertDisconnecting | .send _ | .handleWrite .test => 6
  | .handleClose .assertConnected => 7
  | .forceCloseInLoop => 8
  | .forceClose => 9
  | .enableRead _ | .handleEvents _ _ | .handleRead => 0

/-- The weights of the frames of a stack together. -/
def weight (fs : List Frame) : Nat := (fs.map Frame.weight).sum

/-- The callbacks that the frames of a stack may still invoke. -/
def callbacksLeft (c : TcpConnection) (fs : List Frame) : Nat :=
  (fs.map (Frame.callbacksLeft c)).sum

@[simp] theorem weight_nil : weight [] = 0 := rfl
@[simp] theorem weight_cons : weight (f :: frames) = f.weight + weight frames := rfl
@[simp] theorem weight_append : weight (frames ++ below) = weight frames + weight below := by
  simp only [weight, List.map_append, List.sum_append]

@[simp] theorem callbacksLeft_nil : callbacksLeft c [] = 0 := rfl
@[simp] theorem callbacksLeft_cons :
    callbacksLeft c (f :: frames) = f.callbacksLeft c + callbacksLeft c frames := rfl
@[simp] theorem callbacksLeft_append :
    callbacksLeft c (frames ++ below) = callbacksLeft c frames + callbacksLeft c below := by
  simp only [callbacksLeft, List.map_append, List.sum_append]

/-- A step of the frame `f` uses up what `f` had left. -/
structure Charged (c : TcpConnection) (f : Frame) (result : List Frame × TcpConnection) : Prop where
  ofCall : ∀ g ∈ result.1, g.ofCall = true
  waits : ∀ g ∈ result.1.tail, g.waits = true
  writes : (if f.writes then 1 else 0) + (top result.1).writesLeft result.2 ≤ f.writesLeft c
  callbacks : (if .user ∈ result.1 then 1 else 0) + (top result.1).writesLeft result.2 +
    callbacksLeft result.2 result.1 + closingsLeft result.2 ≤
      f.writesLeft c + callbacksLeft c [f] + closingsLeft c
  weight : weight result.1 < f.weight

theorem charged_same {result : List Frame × TcpConnection} (state : result.2.state = c.state)
    (ofCall : ∀ g ∈ result.1, g.ofCall = true) (waits : ∀ g ∈ result.1.tail, g.waits = true)
    (writes : (if f.writes then 1 else 0) + (top result.1).writesLeft result.2 ≤ f.writesLeft c)
    (callbacks : (if .user ∈ result.1 then 1 else 0) + (top result.1).writesLeft result.2 +
      callbacksLeft result.2 result.1 ≤ f.writesLeft c + callbacksLeft c [f])
    (lighter : weight result.1 < f.weight) : Charged c f result := by
  refine ⟨ofCall, waits, writes, ?_, lighter⟩
  rw [show closingsLeft result.2 = closingsLeft c by simp [closingsLeft, state]]
  exact Nat.add_le_add_right callbacks _

theorem handleCloseStep_charged (pc : HandleClosePc) :
    Charged c (.handleClose pc) (handleCloseStep cb c pc) := by
  cases pc with
  | assertConnected =>
    simp only [handleCloseStep]
    split <;> exact charged_same rfl (by simp) (by simp) (by simp [Frame.writes])
      (by simp) (by simp)
  | assertDisconnecting =>
    have state : (if c.state = .kDisconnecting then c else c.emit .assertFailed).state =
        c.state := by
      split <;> rfl
    exact charged_same state (by simp [handleCloseStep]) (by simp [handleCloseStep])
      (by simp [handleCloseStep, Frame.writes]) (by simp [handleCloseStep, state])
      (by simp [handleCloseStep])
  | store =>
    refine ⟨by simp [handleCloseStep], by simp [handleCloseStep],
      by simp [handleCloseStep, Frame.writes], ?_, by simp [handleCloseStep]⟩
    by_cases closed : c.state = .kDisconnected <;>
      simp [handleCloseStep, closingsLeft, closed, store]
  | notify | close =>
    simp only [handleCloseStep]
    split <;> exact charged_same rfl (by simp) (by simp) (by simp [Frame.writes])
      (by simp) (by simp)

theorem sendInLoopStep_charged (data : Bytes) (pc : SendInLoopPc) (result : Option Nat) :
    Charged c (.sendInLoop data pc) (sendInLoopStep cb c data pc result) := by
  cases pc with
  | check caller =>
    simp only [sendInLoopStep]
    split
    · exact charged_same rfl (by simp) (by simp) (by simp [Frame.writes]) (by simp)
        (by simp)
    · split
      · next free =>
        have idle : c.isWriting = false ∧ c.outBuffer = [] := by simpa using free
        exact charged_same rfl (by simp) (by simp) (by simp [Frame.writes, idle])
          (by simp [idle]) (by simp)
      · exact charged_same rfl (by simp) (by simp) (by simp [Frame.writes])
          (by simp) (by simp)
  | write =>
    cases result with
    | none =>
      simp only [sendInLoopStep]
      exact charged_same rfl (by simp) (by simp) (by simp [Frame.writes])
        (by simp) (by simp)
    | some n =>
      simp only [sendInLoopStep]
      split
      · exact charged_same rfl (by simp) (by simp) (by simp [Frame.writes])
          (by simp) (by simp)
      · split <;> exact charged_same rfl (by simp) (by simp) (by simp [Frame.writes])
          (by simp) (by simp)
  | rest n =>
    have popped : ∀ c' : TcpConnection, c'.state = c.state →
        Charged c (.sendInLoop data (.rest n)) ([], c') := fun c' state =>
      charged_same state (by simp) (by simp) (by simp [Frame.writes]) (by simp)
        (by simp)
    simp only [sendInLoopStep]
    split
    · split <;> exact popped _ rfl
    · exact popped _ rfl

theorem handleWriteStep_charged (pc : HandleWritePc) (result : Option Nat) :
    Charged c (.handleWrite pc) (handleWriteStep cb c pc result) := by
  cases pc with
  | write | sendfile =>
    cases result with
    | none =>
      simp only [handleWriteStep]
      exact charged_same rfl (by simp) (by simp) (by simp [Frame.writes]) (by simp)
        (by simp)
    | some n =>
      simp only [handleWriteStep]
      split <;> exact charged_same rfl (by simp) (by simp) (by simp [Frame.writes])
        (by simp) (by simp)
  | test =>
    have done : Charged c (.handleWrite .test) ([], c) :=
      charged_same rfl (by simp) (by simp) (by simp [Frame.writes]) (by simp)
        (by simp)
    simp only [handleWriteStep]
    split
    · split
      · exact charged_same rfl (by simp) (by simp) (by simp [Frame.writes])
          (by simp) (by simp)
      · split
        · exact charged_same rfl (by simp) (by simp) (by simp [Frame.writes])
            (by simp) (by simp)
        · exact done
    · exact done
  | drained | complete | sent =>
    simp only [handleWriteStep]
    split <;> exact charged_same rfl (by simp) (by simp) (by simp [Frame.writes])
      (by simp) (by simp)
  | closeFd =>
    exact charged_same rfl (by simp [handleWriteStep]) (by simp [handleWriteStep])
      (by simp [handleWriteStep, Frame.writes]) (by simp [handleWriteStep])
      (by simp [handleWriteStep])

theorem sendStep_charged (data : Bytes) : Charged c (.send data) (sendStep c data) := by
  unfold sendStep
  split
  · next connected =>
    by_cases ready : c.Ready
    · have idle := ready.2
      exact charged_same rfl (by simp) (by simp) (by simp [Frame.writes, ready, idle])
        (by simp [ready, idle]) (by simp)
    · have busy : ¬(c.isWriting = false ∧ c.outBuffer = []) := fun idle => ready ⟨connected, idle⟩
      exact charged_same rfl (by simp) (by simp) (by simp [Frame.writes, busy])
        (by simp [busy]) (by simp)
  · exact charged_same rfl (by simp) (by simp) (by simp [Frame.writes]) (by simp)
      (by simp)

theorem FrameMove.charged {result : List Frame × TcpConnection} (ofCall : f.ofCall = true)
    (moved : FrameMove cb c f answer result) : Charged c f result := by
  cases moved with
  | enableRead | handleEvents | handleRead => cases ofCall
  | handleClose pc => exact handleCloseStep_charged pc
  | send data => exact sendStep_charged data
  | sendInLoop data pc answer r => exact sendInLoopStep_charged data pc r
  | handleWrite pc answer r => exact handleWriteStep_charged pc r
  | sendReturn data =>
    exact charged_same rfl (by simp) (by simp) (by simp [Frame.writes]) (by simp)
      (by simp)
  | shutdownStore =>
    refine ⟨by simp, by simp, by simp [Frame.writes], ?_, by simp⟩
    by_cases closed : c.state = .kDisconnected <;>
      simp [closingsLeft, closed, store]
  | shutdownInLoop =>
    have state : (shutdownInLoopStep c).state = c.state := by
      unfold shutdownInLoopStep
      split <;> rfl
    exact charged_same state (by simp) (by simp) (by simp [Frame.writes]) (by simp)
      (by simp)
  | shutdown =>
    unfold shutdownStep
    split
    · next connected =>
      exact charged_same rfl (by simp) (by simp) (by simp [Frame.writes])
        (by simp [connected]) (by simp)
    · exact charged_same rfl (by simp) (by simp) (by simp [Frame.writes])
        (by simp) (by simp)
  | forceClose =>
    unfold forceCloseStep
    split <;> exact charged_same rfl (by simp) (by simp) (by simp [Frame.writes])
      (by simp) (by simp)
  | forceCloseInLoop =>
    unfold forceCloseInLoopStep
    split
    · next opened =>
      exact charged_same rfl (by simp) (by simp) (by simp [Frame.writes])
        (by simp [opened]) (by simp)
    · exact charged_same rfl (by simp) (by simp) (by simp [Frame.writes])
        (by simp) (by simp)

/-! ## What the call still does -/

/-- How often the call whose frames are `fs` still calls `::write`. Its own `send` may do so, a
further one does not. -/
def writeBudget (c : TcpConnection) (fs : List Frame) : Nat :=
  match fs with
  | [.send _] => 1
  | .send _ :: _ => 0
  | _ => (top fs).writesLeft c

/-- How many callbacks it still begins. -/
def callbackBudget (c : TcpConnection) (fs : List Frame) : Nat :=
  writeBudget c fs + callbacksLeft c fs + closingsLeft c

theorem Frame.writesLeft_of_waits (waits : f.waits = true) : f.writesLeft c = 0 := by
  cases f with
  | sendInLoop data pc => cases pc <;> first | rfl | cases waits
  | handleWrite pc => cases pc <;> first | rfl | cases waits
  | send | shutdown | shutdownStore | shutdownInLoop | forceClose | forceCloseInLoop => cases waits
  | _ => rfl

theorem Frame.callbacksLeft_of_waits (waits : f.waits = true) :
    f.callbacksLeft c' = f.callbacksLeft c := by
  cases f with
  | handleWrite pc => cases pc <;> rfl
  | handleClose pc => cases pc <;> first | rfl | cases waits
  | shutdownStore => cases waits
  | _ => rfl

theorem Frame.ofCall_of_waits (waits : f.waits = true) : f.ofCall = true := by
  cases f with
  | enableRead | handleEvents | handleRead => cases waits
  | _ => rfl

theorem callbacksLeft_of_waits (waits : ∀ g ∈ below, g.waits = true) :
    callbacksLeft c' below = callbacksLeft c below :=
  congrArg List.sum (List.map_congr_left fun g mem => Frame.callbacksLeft_of_waits (waits g mem))

theorem writeBudget_of_waits (waits : ∀ g ∈ below, g.waits = true) : writeBudget c below = 0 := by
  cases below with
  | nil => rfl
  | cons g below =>
    have settled := waits g List.mem_cons_self
    have none := Frame.writesLeft_of_waits (c := c) settled
    cases g with
    | send => cases settled
    | _ => exact none

theorem writeBudget_append (noSend : ∀ g ∈ frames, g.isSend = false)
    (waits : ∀ g ∈ below, g.waits = true) :
    writeBudget c (frames ++ below) = (top frames).writesLeft c := by
  cases frames with
  | nil => exact writeBudget_of_waits waits
  | cons g frames =>
    have other := noSend g List.mem_cons_self
    cases g with
    | send => cases other
    | _ => rfl

theorem writeBudget_congr (isWriting : c'.isWriting = c.isWriting)
    (outBuffer : c'.outBuffer = c.outBuffer) : writeBudget c' frames = writeBudget c frames := by
  cases frames with
  | nil => rfl
  | cons f below =>
    cases f with
    | send data => cases below <;> rfl
    | sendInLoop data pc =>
      cases pc <;> simp [writeBudget, isWriting, outBuffer]
    | handleWrite pc => cases pc <;> rfl
    | _ => rfl

/-- The `send` of the call itself has a write left, a further one does not write. -/
theorem writesLeft_le (further : ∀ data, f = .send data → below ≠ [] → ¬c.Ready) :
    f.writesLeft c ≤ writeBudget c (f :: below) := by
  cases f with
  | send data =>
    cases below with
    | nil =>
      simp only [Frame.writesLeft, writeBudget]
      split <;> simp
    | cons g below => simp [further data rfl]
  | _ => exact Nat.le_refl _

/-- Another thread stores at most `kDisconnecting`. -/
theorem Frame.callbacksLeft_le (state : c'.state = c.state ∨ c'.state = .kDisconnecting)
    (f : Frame) : f.callbacksLeft c' ≤ f.callbacksLeft c := by
  rcases state with same | late
  · cases f with
    | handleWrite pc => cases pc <;> simp
    | handleClose pc => cases pc <;> simp [same]
    | _ => simp [same]
  · cases f with
    | handleWrite pc => cases pc <;> simp
    | handleClose pc => cases pc <;> simp [late]
    | _ => simp [late]

theorem callbacksLeft_le (state : c'.state = c.state ∨ c'.state = .kDisconnecting)
    (fs : List Frame) : callbacksLeft c' fs ≤ callbacksLeft c fs := by
  induction fs with
  | nil => exact Nat.le_refl _
  | cons f fs ih =>
    simp only [callbacksLeft, List.map_cons, List.sum_cons]
    exact Nat.add_le_add (f.callbacksLeft_le state) ih

namespace System

/-- The frames above the lowest `depth` ones. -/
def above (depth : Nat) (s : System) : List Frame := s.stack.take (s.stack.length - depth)

/-- The call above `rest` is being executed, or has returned. -/
def InCall (rest : List Frame) (s : System) : Prop :=
  ∃ fs, s.stack = fs ++ rest ∧ (∀ f ∈ fs, f.ofCall = true) ∧ ∀ f ∈ fs.tail, f.waits = true

theorem above_eq (stack : s.stack = frames ++ rest) : s.above rest.length = frames := by
  rw [above, stack, List.length_append, Nat.add_sub_cancel, List.take_left]

/-- What the step `l` uses up. -/
structure Spends (cb : Callbacks) (depth : Nat) (s : System) (l : Label) (t : System) : Prop where
  writes : (if s.writes l then 1 else 0) + writeBudget t.conn (t.above depth) ≤
    writeBudget s.conn (s.above depth)
  callbacks : (if s.beginsCallback cb l then 1 else 0) + callbackBudget t.conn (t.above depth) ≤
    callbackBudget s.conn (s.above depth) + 2 * if s.storesDisconnecting l then 1 else 0
  steps : (if s.ofLoop l then 1 else 0) + weight (t.above depth) ≤
    weight (s.above depth) + 10 * if s.callsConnection l then 1 else 0

theorem inCall_append (frames : List Frame) (stack : t.stack = frames ++ below ++ rest)
    (ofCall : ∀ g ∈ frames, g.ofCall = true) (inner : ∀ g ∈ frames.tail, g.waits = true)
    (waits : ∀ g ∈ below, g.waits = true) : InCall rest t := by
  refine ⟨frames ++ below, stack, fun g mem => ?_, fun g mem => ?_⟩
  · rcases List.mem_append.mp mem with mem | mem
    · exact ofCall g mem
    · exact Frame.ofCall_of_waits (waits g mem)
  · cases frames with
    | nil => exact waits g (List.mem_of_mem_tail mem)
    | cons h frames =>
      rcases List.mem_append.mp mem with mem | mem
      · exact inner g mem
      · exact waits g mem

theorem spends_run {result : List Frame × TcpConnection} (here : s.stack = f :: below ++ rest)
    (ofCall : f.ofCall = true) (waits : ∀ g ∈ below, g.waits = true)
    (guard : s.sendsAgain rest.length (.run answer) = false)
    (ran : frameStep cb s.conn f answer = some result) :
    InCall rest { s with conn := result.2, stack := result.1 ++ (below ++ rest) } ∧
      Spends cb rest.length s (.run answer)
        { s with conn := result.2, stack := result.1 ++ (below ++ rest) } := by
  have moved := frameMove_of_frameStep ran
  have charged := moved.charged ofCall
  have stack : result.1 ++ (below ++ rest) = result.1 ++ below ++ rest :=
    (List.append_assoc ..).symm
  have further : ∀ data, f = .send data → below ≠ [] → ¬s.conn.Ready := by
    rintro data rfl nested ready
    simp [sendsAgain, here, ready] at guard
    exact nested guard
  refine ⟨inCall_append result.1 stack charged.ofCall charged.waits waits, ?_⟩
  have old := above_eq here
  have new := above_eq (s := { s with conn := result.2, stack := result.1 ++ (below ++ rest) }) stack
  have left := writesLeft_le further
  have after := writeBudget_append (c := result.2) moved.noSend waits
  constructor
  case writes =>
    have writes : s.writes (.run answer) = f.writes := by rw [System.writes, here]; rfl
    rw [old, new, writes, after]
    exact Nat.le_trans charged.writes left
  case callbacks =>
    have begins : s.beginsCallback cb (.run answer) = decide (.user ∈ result.1) := by
      rw [beginsCallback, here]
      exact congrArg (Option.any _) ran
    have callbacks := charged.callbacks
    have same : callbacksLeft result.2 below = callbacksLeft s.conn below :=
      callbacksLeft_of_waits waits
    rw [old, new, begins]
    simp only [callbackBudget, after, callbacksLeft_append, callbacksLeft_cons, callbacksLeft_nil,
      decide_eq_true_eq] at callbacks ⊢
    omega
  case steps =>
    have lighter := charged.weight
    rw [old, new]
    simp only [weight_append, weight_cons, ofLoop, if_true]
    omega

/-- User code steps aside: it calls a function of the frame `frames`, if any, or returns. -/
theorem spends_user (stack : t.stack = frames ++ rest) (inCall : InCall rest t)
    (here : s.stack = .user :: below ++ rest) (waits : ∀ g ∈ below, g.waits = true)
    (user : l.ofUser = true) (writes : writeBudget t.conn frames = 0)
    (callbacks : callbacksLeft t.conn frames = callbacksLeft s.conn below)
    (state : t.conn.state = s.conn.state)
    (steps : 1 + weight frames ≤ 1 + weight below + 10 * if s.callsConnection l then 1 else 0) :
    InCall rest t ∧ Spends cb rest.length s l t := by
  have old := above_eq here
  have new := above_eq stack
  have none : writeBudget s.conn (.user :: below) = 0 :=
    writeBudget_of_waits (List.forall_mem_cons.mpr ⟨rfl, waits⟩)
  have quiet : s.writes l = false ∧ s.beginsCallback cb l = false ∧ s.ofLoop l = true := by
    cases l with
    | call | ret => exact ⟨rfl, rfl, rfl⟩
    | _ => cases user
  refine ⟨inCall, ?_, ?_, ?_⟩
  · rw [old, new, quiet.1, writes]
    simp
  · have closings : closingsLeft t.conn = closingsLeft s.conn := by rw [closingsLeft, state]; rfl
    rw [old, new, quiet.2.1, callbackBudget, callbackBudget, writes, none, callbacks, closings]
    simp
  · rw [old, new, quiet.2.2]
    exact steps

theorem spends_call {call : Call} (here : s.stack = .user :: below ++ rest)
    (waits : ∀ g ∈ below, g.waits = true) :
    InCall rest (s.callStep call) ∧ Spends cb rest.length s (.call call) (s.callStep call) := by
  have inner : ∀ g ∈ Frame.user :: below, g.waits = true :=
    List.forall_mem_cons.mpr ⟨rfl, waits⟩
  have enters : ∀ g : Frame, (s.callStep call).stack = g :: s.stack →
      (s.callStep call).conn.state = s.conn.state → g.ofCall = true → g.weight ≤ 9 →
      writeBudget (s.callStep call).conn (g :: .user :: below) = 0 →
      g.callbacksLeft (s.callStep call).conn = 0 →
      InCall rest (s.callStep call) ∧
        Spends cb rest.length s (.call call) (s.callStep call) := by
    intro g stack state ofCall lighter writes callbacks
    have above : (s.callStep call).stack = [g] ++ (.user :: below) ++ rest := by
      rw [stack, here]
      rfl
    have inCall : InCall rest (s.callStep call) :=
      inCall_append [g] above (by simpa using ofCall) (by simp) inner
    refine spends_user above inCall here waits rfl writes ?_ state ?_
    · rw [callbacksLeft_append, callbacksLeft_cons, callbacks, callbacksLeft_cons,
        callbacksLeft_of_waits (c := s.conn) waits]
      simp
    · have own : Frame.weight .user = 1 := rfl
      simp only [weight_append, weight_cons, weight_nil, own, callsConnection, if_true]
      omega
  cases call with
  | send data => exact enters (.send data) rfl rfl rfl (by simp) rfl rfl
  | shutdown => exact enters .shutdown rfl rfl rfl (by simp) rfl rfl
  | forceClose => exact enters .forceClose rfl rfl rfl (by simp) rfl rfl
  | setSendFd fd file stSize =>
    have inCall : InCall rest (s.callStep (.setSendFd fd file stSize)) :=
      inCall_append [] here (by simp) (by simp) inner
    refine spends_user here inCall here waits rfl (writeBudget_of_waits inner) ?_ rfl ?_
    · rw [callbacksLeft_of_waits (c := s.conn) inner, callbacksLeft_cons]
      simp
    · simp only [weight_cons, callsConnection, Frame.weight, if_true]
      omega

theorem spends_ret (here : s.stack = .user :: below ++ rest) (waits : ∀ g ∈ below, g.waits = true) :
    InCall rest { s with stack := below ++ rest } ∧
      Spends cb rest.length s .ret { s with stack := below ++ rest } :=
  spends_user rfl (inCall_append [] rfl (by simp) (by simp) waits) here waits rfl
    (writeBudget_of_waits waits) rfl rfl (by omega)

/-- The other threads leave the frames alone, and of the connection change `state_` at most. -/
theorem spends_aside (inCall : InCall rest s) (stack : t.stack = s.stack) (other : s.ofLoop l = false)
    (isWriting : t.conn.isWriting = s.conn.isWriting)
    (outBuffer : t.conn.outBuffer = s.conn.outBuffer)
    (state : t.conn.state = s.conn.state ∨
      t.conn.state = .kDisconnecting ∧ s.storesDisconnecting l = true) :
    InCall rest t ∧ Spends cb rest.length s l t := by
  obtain ⟨fs, here, ofCall, waits⟩ := inCall
  have old := above_eq here
  have new := above_eq (stack.trans here)
  have writes : writeBudget t.conn fs = writeBudget s.conn fs :=
    writeBudget_congr isWriting outBuffer
  have quiet : s.writes l = false ∧ s.beginsCallback cb l = false := by
    cases l with
    | run | call | ret => cases other
    | _ => exact ⟨rfl, rfl⟩
  refine ⟨⟨fs, stack.trans here, ofCall, waits⟩, ?_, ?_, ?_⟩
  · rw [old, new, quiet.1, writes]
    simp
  · have callbacks := callbacksLeft_le (state.imp id And.left) fs
    have closings : closingsLeft t.conn ≤ closingsLeft s.conn +
        2 * if s.storesDisconnecting l then 1 else 0 := by
      rcases state with same | ⟨late, stores⟩
      · simp [closingsLeft, same]
      · simp [closingsLeft, late, stores]
    rw [old, new, quiet.2, callbackBudget, callbackBudget, writes]
    simp only [Bool.false_eq_true, if_false]
    omega
  · rw [old, new, other]
    simp

/-- One step within the call, in which no further `send` writes directly. -/
theorem spends_step (inCall : InCall rest s) (once : SendsOnce rest.length s l)
    (taken : step cb s l = some t) : InCall rest t ∧ Spends cb rest.length s l t := by
  obtain ⟨fs, here, ofCall, waits⟩ := inCall
  cases fs with
  | nil =>
    have deep := once.1
    rw [here] at deep
    exact absurd deep (Nat.lt_irrefl _)
  | cons f below =>
    by_cases runs : ∃ answer, l = .run answer
    · obtain ⟨answer, rfl⟩ := runs
      simp only [step, here, List.cons_append] at taken
      obtain ⟨result, ran, rfl⟩ := Option.map_eq_some_iff.mp taken
      exact spends_run here (ofCall f List.mem_cons_self) waits once.2 ran
    have inCall : InCall rest s := ⟨f :: below, here, ofCall, waits⟩
    have busy : s.stack ≠ [] := by simp [here]
    cases move_of_step taken with
    | run answer => exact absurd ⟨answer, rfl⟩ runs
    | call call here' =>
      rw [here] at here'
      cases here'
      exact spends_call here waits
    | ret here' =>
      rw [here] at here'
      cases here'
      exact spends_ret here waits
    | swapTasks idle | dispatchSelf idle | dispatchOther idle | endTasks idle | startTask idle
    | poll _ idle => exact absurd idle busy
    | storeDisconnecting t pending =>
      refine spends_aside inCall rfl rfl rfl rfl (Or.inr ⟨rfl, ?_⟩)
      simp [storesDisconnecting, pending]
    | _ => exact spends_aside inCall rfl rfl rfl rfl (Or.inl rfl)

/-- The loop thread is never stuck in a frame. -/
theorem goesOn_of_busy (busy : s.stack ≠ []) :
    ∃ l, s.ofLoop l = true ∧ (step cb s l).isSome = true := by
  obtain ⟨f, below, here⟩ := List.exists_cons_of_ne_nil busy
  have runs : ∀ answer, (frameStep cb s.conn f answer).isSome = true →
      ∃ l, s.ofLoop l = true ∧ (step cb s l).isSome = true := fun answer enabled =>
    ⟨.run answer, rfl, by rw [step, here]; simpa using enabled⟩
  have noCount : ∀ len, Fits len none := by simp [Fits]
  cases f with
  | user => exact ⟨.ret, rfl, by simp [step, here]⟩
  | handleRead => exact runs (.bytes none) rfl
  | sendInLoop data pc =>
    cases pc with
    | write => exact runs (.count none) (by simp [frameStep, Answer.counting, noCount])
    | check | rest => exact runs .silent rfl
  | handleWrite pc =>
    cases pc with
    | write | sendfile =>
      exact runs (.count none) (by simp [frameStep, Answer.counting, noCount])
    | test | drained | complete | sent | closeFd => exact runs .silent rfl
  | _ => exact runs .silent rfl

/-- A call of `send` or `handleWrite` in which no further `send` writes directly is over soon,
whatever the socket takes and whatever else its callbacks do. -/
theorem returnsSoon_of_sendsOnce {f : Frame} (here : s.stack = f :: rest)
    (entered : f = .handleWrite .test ∨ ∃ data, f = .send data)
    (run : exec (guarded (step cb) (SendsOnce rest.length)) labels s = some t) :
    ReturnsSoon cb rest.length s labels t := by
  have start : InCall rest s := by
    refine ⟨[f], here, ?_, by simp⟩
    rcases entered with rfl | ⟨data, rfl⟩ <;> simp
  have above : s.above rest.length = [f] := above_eq here
  have writes : writeBudget s.conn [f] = 1 := by
    rcases entered with rfl | ⟨data, rfl⟩ <;> rfl
  have callbacks : callbacksLeft s.conn [f] = 0 := by
    rcases entered with rfl | ⟨data, rfl⟩ <;> rfl
  have lighter : weight [f] = 6 := by
    rcases entered with rfl | ⟨data, rfl⟩ <;> rfl
  have closings : closingsLeft s.conn ≤ 2 := by
    unfold closingsLeft
    split <;> simp
  have kept := fun (u : System) (l : Label) (v : System) (inCall : InCall rest u)
    (once : SendsOnce rest.length u l) (taken : step cb u l = some v) =>
      spends_step inCall once taken
  refine ⟨?_, ?_, ?_, fun deep => goesOn_of_busy (List.ne_nil_of_length_pos (by omega))⟩
  · have bound := countSteps_le_refill System.writes (fun _ _ => false)
      (fun u => writeBudget u.conn (u.above rest.length)) 0
      (fun u l v inCall once taken => (kept u l v inCall once taken).imp id Spends.writes) start run
    rw [above, writes] at bound
    simpa using bound
  · have bound := countSteps_le_refill (beginsCallback cb) storesDisconnecting
      (fun u => callbackBudget u.conn (u.above rest.length)) 2
      (fun u l v inCall once taken => (kept u l v inCall once taken).imp id Spends.callbacks) start
      run
    rw [above, callbackBudget, writes, callbacks] at bound
    omega
  · have bound := countSteps_le_refill ofLoop callsConnection
      (fun u => weight (u.above rest.length)) 10
      (fun u l v inCall once taken => (kept u l v inCall once taken).imp id Spends.steps) start run
    rwa [above, lighter] at bound

/-- The completion callback shuts the connection down and then sends once more. -/
def shutsDown : List Label :=
  [.run .silent, .run .silent, .run (.count (some 1)), .call .shutdown, .run .silent, .run .silent,
    .run .silent, .call (.send [0]), .run .silent, .ret, .run .silent, .run .silent]

/-- The connection is not connected any more, and the `send` of the callback is refused. -/
theorem returnsSoon_of_shutsDown : ∃ s t, Reaches (step allCallbacks) anyStep start s ∧
    s.stack = [.send [0], .user, .user] ∧ s.conn.Ready ∧
    ReturnsSoon allCallbacks 2 s shutsDown t ∧ t.stack = [.user, .user] := by
  obtain ⟨s, reached, here, ready, run⟩ :
      ∃ s, Reaches (step allCallbacks) anyStep start s ∧ (s.stack = [.send [0], .user, .user] ∧
        s.conn.Ready ∧ (exec (guarded (step allCallbacks) (SendsOnce 2)) shutsDown s).any
          (fun t => t.stack = [.user, .user]) = true) :=
    exists_reaches_of_exec [.run .silent, .run .silent, .run .silent, .call (.send [0])]
      (by decide)
  obtain ⟨t, run, returned⟩ := (Option.any_eq_true _ _).mp run
  have soon := returnsSoon_of_sendsOnce here (Or.inr ⟨[0], rfl⟩) run
  exact ⟨s, t, reached, here, ready, soon, of_decide_eq_true returned⟩

/-! ## A callback that sends -/

/-- `n` times the socket takes the byte, and the completion callback sends one again. -/
def sendsForever : Nat → List Label
  | 0 => []
  | n + 1 => .run .silent :: .run .silent :: .run (.count (some 1)) :: .call (.send [0]) ::
    sendsForever n

theorem exec_sendsForever (n : Nat) (here : s.stack = .send [0] :: below) (ready : s.conn.Ready)
    (deep : depth ≤ below.length) :
    ∃ t, exec (guarded (step allCallbacks) (Within depth)) (sendsForever n) s = some t ∧
      countSteps (step allCallbacks) writes (sendsForever n) s = n ∧ depth < t.stack.length := by
  induction n generalizing s below with
  | zero => exact ⟨s, rfl, rfl, by rw [here]; exact Nat.lt_succ_of_le deep⟩
  | succ n ih =>
    obtain ⟨connected, quiet, empty⟩ := ready
    let s₁ : System := { s with
      conn := s.conn.emit (.accepted .loop [0]),
      stack := .sendInLoop [0] (.check .loop) :: .sendReturn [0] :: below }
    let s₂ : System := { s₁ with
      conn := s₁.conn.emit (.executed .loop [0]),
      stack := .sendInLoop [0] .write :: .sendReturn [0] :: below }
    let s₃ : System := { s₂ with
      conn := (s₂.conn.emit (.write [0] (some 1))).emit .writeCompleteCallback,
      stack := .user :: .sendInLoop [0] (.rest 1) :: .sendReturn [0] :: below }
    have first : step allCallbacks s (.run .silent) = some s₁ := by
      simp [step, here, frameStep, Answer.silently, sendStep, connected, s₁]
    have second : step allCallbacks s₁ (.run .silent) = some s₂ := by
      simp [step, frameStep, Answer.silently, sendInLoopStep, connected, quiet, empty, s₁, s₂]
    have third : step allCallbacks s₂ (.run (.count (some 1))) = some s₃ := by
      simp [step, frameStep, Answer.counting, Fits, sendInLoopStep, allCallbacks, s₂, s₃]
    have fourth : step allCallbacks s₃ (.call (.send [0])) = some (s₃.callStep (.send [0])) := rfl
    have ready : (s₃.callStep (.send [0])).conn.Ready := ⟨connected, quiet, empty⟩
    have within : ∀ u : System, below.length < u.stack.length →
        ∀ l, Within depth u l := fun u above _ => Nat.lt_of_le_of_lt deep above
    obtain ⟨t, run, writes, goesOn⟩ := ih (s := s₃.callStep (.send [0])) rfl ready
      (Nat.le_of_lt (within s₃ (by simp only [s₃, List.length_cons]; omega) .ret))
    refine ⟨t, ?_, ?_, goesOn⟩
    · rw [sendsForever, exec_cons_guarded (within s (by simp [here]) _) first,
        exec_cons_guarded (within s₁ (by simp only [s₁, List.length_cons]; omega) _) second,
        exec_cons_guarded (within s₂ (by simp only [s₂, List.length_cons]; omega) _) third,
        exec_cons_guarded (within s₃ (by simp only [s₃, List.length_cons]; omega) _) fourth]
      exact run
    · have one : System.writes s (.run .silent) = false := by rw [System.writes, here]; rfl
      rw [sendsForever, countSteps_cons first, countSteps_cons second, countSteps_cons third,
        countSteps_cons fourth, writes, one]
      show 0 + (0 + (1 + (0 + n))) = n + 1
      omega

/-- The completion callback sends one byte each time, and the socket takes everything: the `send`
of the connection callback calls `::write` over and over and does not return. -/
theorem send_recurses : ∃ s, Reaches (step allCallbacks) anyStep start s ∧
    s.stack = [.send [0], .user, .user] ∧ s.conn.state = .kConnected ∧
    ∀ n, ∃ t, exec (guarded (step allCallbacks) (Within 2)) (sendsForever n) s = some t ∧
      countSteps (step allCallbacks) writes (sendsForever n) s = n ∧ 2 < t.stack.length := by
  obtain ⟨s, reached, here, ready⟩ :
      ∃ s, Reaches (step allCallbacks) anyStep start s ∧
        (s.stack = [.send [0], .user, .user] ∧ s.conn.Ready) :=
    exists_reaches_of_exec [.run .silent, .run .silent, .run .silent, .call (.send [0])]
      (by decide)
  exact ⟨s, reached, here, ready.1, fun n => exec_sendsForever n here ready (Nat.le_refl 2)⟩

end System

end Yvent.TcpConnection
