import Yvent.EventLoop.Model
import Yvent.Timer.Model

/-!
# Timers from any thread

`TimerLoop` puts the timer queue into its event loop. Any thread may call `addTimer`, directly or
through `runAt`, `runAfter` and `runEvery`, and `cancelTimer`; the loop thread runs the lambda that
these hand to `runInLoop` at once, for any other thread it becomes a task.

The lambda of `addTimer` captures its local `pTimer` and its parameter `when` by reference. Both are
cells of the calling thread: `pTimer` goes with the return of `addTimer`, the object that `when`
designates with the return of the call around it. What a reference to a cell that is gone reads is
in the label of the step. Calls are numbered by the timers they create; `calls` and `log` are
history.
-/

namespace Yvent

namespace TimerLoop

/-- What is queued: the lambda of call number `i` of `addTimer`, the lambda of `cancelTimer` with
the handle of that call, or anything else. -/
inductive Task where
  | insert (i : Nat)
  | cancel (i : Nat)
  | user (n : Nat)
  deriving DecidableEq, Repr

/-- The functions that add a timer. -/
inductive Entry where
  | addTimer (when interval : Int)
  | runAt (when : Int)
  | runAfter (interval : Int)
  | runEvery (interval : Int)
  deriving DecidableEq, Repr

/-- The first argument of `addTimer`, at clock `now`. -/
def Entry.when (now : Int) : Entry → Int
  | .addTimer when _ | .runAt when => when
  | .runAfter interval | .runEvery interval => int64 (now + interval)

/-- The last argument of `addTimer`. -/
def Entry.interval : Entry → Int
  | .addTimer _ interval | .runEvery interval => interval
  | .runAt _ | .runAfter _ => 0

/-- Where a thread is in a call that adds a timer: before `new Timer`, before `runInLoop`, behind
it, or out of `addTimer`. -/
inductive Place where
  | none
  | entered (when interval : Int)
  | created (i : Nat)
  | handed (i : Nat)
  | left (i : Nat)
  deriving DecidableEq, Repr

/-- The cell `pTimer` of call `i` is there. -/
def Place.inAddTimer (i : Nat) : Place → Bool
  | .created j | .handed j => j = i
  | .none | .entered _ _ | .left _ => false

/-- The object that `when` designates in call `i` is there. -/
def Place.inCall (i : Nat) : Place → Bool
  | .created j | .handed j | .left j => j = i
  | .none | .entered _ _ => false

/-- A call of `addTimer`: its thread, and the values of the cells `when` and `pTimer`. -/
structure TimerCall where
  thread : Tid
  when : Int
  timer : Addr
  deriving DecidableEq, Repr

/-- What the lambdas have done: a read of a cell that is gone, an insertion with the second result
of `timers_.insert`, a cancellation with the number of the timer at the address, if there is one. -/
inductive Record where
  | badRead (i : Nat)
  | inserted (i : Nat) (e : TimerEntry) (new : Bool)
  | canceled (i : Nat) (hit : Option Nat)
  deriving DecidableEq

end TimerLoop

open TimerLoop in
/-- A loop with its timer queue and the threads that call it. -/
structure TimerLoop where
  loop : EventLoop Task
  queue : TimerQueue
  place : Tid → Place
  calls : Nat → Option TimerCall
  log : List Record

namespace TimerLoop

variable (s : TimerLoop)

/-- The loop of thread `tid` at clock `now`. -/
def create (tid : Tid) (now : Int) : TimerLoop where
  loop := .create tid
  queue := .create now
  place := fun _ => .none
  calls := fun _ => none
  log := []

/-- Call `i` has its cell `pTimer`. -/
def hasPTimer (i : Nat) : Bool := (s.calls i).any fun c => (s.place c.thread).inAddTimer i

/-- Call `i` has the object that `when` designates. -/
def hasWhen (i : Nat) : Bool := (s.calls i).any fun c => (s.place c.thread).inCall i

/-- The handle of call `i` has been returned to the user. -/
def returned (i : Nat) : Bool := (s.calls i).any fun c => !(s.place c.thread).inCall i

/-- The lambda of call `i` of `addTimer`; `stale` is what references to cells that are gone read. -/
def insertBody (i : Nat) (stale : Int × Addr) : TimerLoop :=
  match s.calls i with
  | none => s
  | some c =>
    let when := if s.hasWhen i then c.when else stale.1
    let timer := if s.hasPTimer i then c.timer else stale.2
    let e := timerEntry when timer
    let bad := if s.hasWhen i && s.hasPTimer i then [] else [Record.badRead i]
    { s with
      queue := s.queue.insertTimer timer when
      log := s.log ++ (bad ++ [.inserted i e (e ∉ s.queue.timers)]) }

/-- The lambda of `cancelTimer` with the handle of call `i`. -/
def cancelBody (i : Nat) : TimerLoop :=
  match s.calls i with
  | none => s
  | some c =>
    { s with
      queue := s.queue.cancelTimer c.timer
      log := s.log ++ [.canceled i ((s.queue.heap c.timer).map Timer.serial)] }

/-- The loop thread executes user code, in a task, in a channel callback or in a timer's one. -/
def userCode : Bool :=
  s.queue.phase.userCode &&
    match s.loop.pc with
    | .task (.insert _) _ | .task (.cancel _) _ => false
    | pc => pc.userCode

/-- Thread `t` may begin a call. -/
def canCall (t : Tid) : Bool :=
  s.place t = .none ∧ s.loop.canCall t ∧ (t = s.loop.tid → s.userCode)

/-- A step. The labels up to `quit` name the thread that calls. -/
inductive Label where
  | enter (t : Tid) (entry : Entry)
  | newTimer (t : Tid) (timer : Addr)
  | runInLoop (t : Tid) (stale : Int × Addr)
  | finishCall (t : Tid)
  | leave (t : Tid)
  | done (t : Tid)
  | cancelTimer (t : Tid) (i : Nat)
  | addTask (t : Tid) (n : Nat)
  | runTask (t : Tid) (n : Nat)
  | quit (t : Tid)
  | loop
  | poll (active : List EventLoop.Source)
  | ret (stale : Int × Addr)
  | handleRead
  | next
  | timerRet
  | tick (ns : Nat)
  deriving DecidableEq

/-- A step of the event loop. -/
def onLoop (l : EventLoop.Label Task) : Option TimerLoop :=
  (s.loop.step l).map fun loop => { s with loop }

/-- A step of the timer channel's callback. -/
def onQueue (l : TimerQueue.Label) : Option TimerLoop :=
  match s.loop.pc with
  | .callback _ =>
    if s.place s.loop.tid = .none ∧ s.loop.nested = 0 ∧ s.loop.call s.loop.tid = .none then
      (s.queue.step l).map fun queue => { s with queue }
    else none
  | _ => none

/-- User code or a lambda returns to the loop. -/
def returnStep (stale : Int × Addr) : Option TimerLoop :=
  if s.place s.loop.tid ≠ .none then none
  else if s.loop.nested ≠ 0 then s.onLoop .ret
  else
    match s.loop.pc with
    | .task (.insert i) _ => (s.insertBody i stale).onLoop .ret
    | .task (.cancel i) _ => (s.cancelBody i).onLoop .ret
    | _ =>
      match s.queue.phase with
      | .idle => s.onLoop .ret
      | _ => none

/-- One step of the loop or of a thread. -/
def step : Label → Option TimerLoop
  | .enter t entry =>
    if s.canCall t then
      let place := Place.entered (entry.when s.queue.clock) entry.interval
      some { s with place := Function.update s.place t place }
    else none
  | .newTimer t timer =>
    match s.place t with
    | .entered when interval =>
      if timer ≠ 0 ∧ s.queue.heap timer = none then
        let i := s.queue.created
        some { s with
          queue := s.queue.newTimer timer when interval
          place := Function.update s.place t (.created i)
          calls := Function.update s.calls i (some { thread := t, when, timer }) }
      else none
    | _ => none
  | .runInLoop t stale =>
    match s.place t with
    | .created i =>
      let handed := Function.update s.place t (.handed i)
      if t = s.loop.tid then some { s.insertBody i stale with place := handed }
      else { s with place := handed }.onLoop (.runInLoop t (.insert i))
    | _ => none
  | .finishCall t => s.onLoop (.finishCall t)
  | .leave t =>
    match s.place t with
    | .handed i =>
      if s.loop.call t = .none then some { s with place := Function.update s.place t (.left i) }
      else none
    | _ => none
  | .done t =>
    match s.place t with
    | .left _ => some { s with place := Function.update s.place t .none }
    | _ => none
  | .cancelTimer t i =>
    if s.canCall t ∧ s.returned i then
      if t = s.loop.tid then some (s.cancelBody i) else s.onLoop (.runInLoop t (.cancel i))
    else none
  | .addTask t n => if s.canCall t then s.onLoop (.addTask t (.user n)) else none
  | .runTask t n => if s.canCall t then s.onLoop (.runInLoop t (.user n)) else none
  | .quit t => if s.canCall t then s.onLoop (.quit t) else none
  | .loop => if s.place s.loop.tid = .none then s.onLoop .loop else none
  | .poll active => s.onLoop (.poll active)
  | .ret stale => s.returnStep stale
  | .handleRead => s.onQueue .handleRead
  | .next => s.onQueue .next
  | .timerRet => s.onQueue .ret
  | .tick ns => (s.queue.step (.tick ns)).map fun queue => { s with queue }

end TimerLoop

end Yvent
