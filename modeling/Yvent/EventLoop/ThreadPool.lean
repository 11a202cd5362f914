import Yvent.Misc.Monitor
import Yvent.Misc.Run
import Mathlib.Algebra.Ring.Int.Defs
import Mathlib.Algebra.Ring.Nat
import Mathlib.Logic.Function.Basic

/-!
# Starting the threads of a pool

`EventLoopThreadPool::start` with `EventLoopThread::starLoop` in the starting thread, and
`EventLoopThread::threadFunc` in each thread that `starLoop` creates. A step is one access to the
members of an `EventLoopThread`: its `mutex_` and `cond_` together are a `Monitor`. The pointer to
the loop that lives in `threadFunc` of thread number `i` is `i` itself.

The loop of a new thread has only the descriptors it was constructed with, so `loop()` stays inside
until `quit_` is set.
-/

namespace Yvent

/-- The two threads that use an `EventLoopThread`. -/
inductive Party where
  | starting
  | created
  deriving DecidableEq, Repr

/-- Where `threadFunc` is; `absent` is before `std::thread` creates its thread. -/
inductive ThreadPc where
  | absent
  | entered
  | constructed
  | stored
  | looping
  | left
  | finished
  deriving DecidableEq, Repr

/-- `quit` is the flag of the loop in `threadFunc`. -/
structure EventLoopThread where
  loop : Option Nat
  start : Bool
  monitor : Monitor Party
  pc : ThreadPc
  quit : Bool
  deriving DecidableEq, Repr

namespace EventLoopThread

/-- `EventLoopThread::EventLoopThread`. -/
def create : EventLoopThread :=
  { loop := none, start := false, monitor := .create, pc := .absent, quit := false }

/-- `cond_.notify_all()` has been called. -/
def notified (t : EventLoopThread) : Bool :=
  match t.pc with
  | .looping | .left | .finished => true
  | .absent | .entered | .constructed | .stored => false

/-- The next step of `threadFunc` in thread number `i`, and whether its assertion holds. -/
def threadFunc (t : EventLoopThread) (i : Nat) : Option (EventLoopThread × Bool) :=
  match t.pc with
  | .absent | .finished => none
  | .entered => some ({ t with pc := .constructed }, t.loop = none)
  | .constructed => some ({ t with pc := .stored, loop := some i }, true)
  | .stored => some ({ t with pc := .looping, monitor := t.monitor.notifyAll }, true)
  | .looping => if t.quit then some ({ t with pc := .left }, true) else none
  | .left => some ({ t with pc := .finished, loop := none }, true)

end EventLoopThread

/-- Where `start` and the `starLoop` in it are. -/
inductive StartPc where
  | head
  | starLoop
  | lock
  | test
  | wait
  | waiting
  | unlock
  | ret
  | returned
  deriving DecidableEq, Repr

/-- `i` is the loop variable of `start`, which numbers the threads in the order of their creation;
`asserted` says that no assertion has failed. -/
structure EventLoopThreadPool where
  threadNum : Int
  i : Nat
  threads : Nat → Option EventLoopThread
  loops : List (Option Nat)
  pc : StartPc
  asserted : Bool

namespace EventLoopThreadPool

variable (p : EventLoopThreadPool)

/-- A pool for which `setThreadNum(threadNum)` was called, at the loop of `start`. -/
def create (threadNum : Int) : EventLoopThreadPool :=
  { threadNum, i := 0, threads := fun _ => none, loops := [], pc := .head, asserted := true }

/-- A thread object of the pool changes. -/
def setThread (j : Nat) (t : EventLoopThread) : EventLoopThreadPool :=
  { p with threads := Function.update p.threads j (some t) }

/-- The next step of the starting thread, which is in `starLoop` of `t`. -/
def starLoopStep (t : EventLoopThread) : Option EventLoopThreadPool :=
  match p.pc with
  | .head | .returned => none
  | .starLoop =>
    some { p.setThread p.i { t with start := true, pc := .entered } with
      pc := .lock, asserted := p.asserted && (t.start = false && t.loop = none) }
  | .lock =>
    (t.monitor.lock .starting).map fun m =>
      { p.setThread p.i { t with monitor := m } with pc := .test }
  | .test => some { p with pc := if t.loop = none then .wait else .unlock }
  | .wait =>
    some { p.setThread p.i { t with monitor := t.monitor.wait .starting } with pc := .waiting }
  | .waiting =>
    (t.monitor.resume .starting).map fun m =>
      { p.setThread p.i { t with monitor := m } with pc := .test }
  | .unlock => some { p.setThread p.i { t with monitor := t.monitor.unlock } with pc := .ret }
  | .ret => some { p with loops := p.loops ++ [t.loop], i := p.i + 1, pc := .head }

/-- A step of the starting thread or of a thread it has created. -/
inductive Label where
  | start
  | thread (j : Nat)
  deriving DecidableEq, Repr

/-- One step of the starting thread or of one of the pool. -/
def step (p : EventLoopThreadPool) : Label → Option EventLoopThreadPool
  | .start =>
    match p.pc with
    | .head =>
      if p.i < p.threadNum then
        some { p.setThread p.i EventLoopThread.create with pc := .starLoop }
      else some { p with pc := .returned }
    | _ => (p.threads p.i).bind p.starLoopStep
  | .thread j =>
    (p.threads j).bind fun t =>
      (t.threadFunc j).map fun (t', holds) =>
        { p.setThread j t' with asserted := p.asserted && holds }

end EventLoopThreadPool

end Yvent
