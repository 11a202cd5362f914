import Yvent.Misc.Run
import Mathlib.Algebra.Ring.Nat
import Mathlib.Logic.Function.Basic

/-!
# The event loop and its task queue

`EventLoop` is the part of `yvent/EventLoop.cpp` that several threads touch: the vector `tasks_`
under `mutex_`, the flag `runningTasks_`, the flag `quit_` and the counter of the eventfd
`wakeupfd_`. The loop thread is at a point `Pc` of `loop()`, `runTasks()` or of user code it has
called (a channel callback, a task, the destructor of something a task captured); every other
thread is either outside the loop's API or inside one call of it. A step is one access to the
shared data: the push under the mutex, the read of `runningTasks_` with the wakeup write that
depends on it, the store to `quit_`, the read of the eventfd, the swap in `runTasks()`.

`pushed`, `finished` and `swapMark` are history: the order of the pushes, the tasks that have
returned, and how many tasks had been pushed when the running batch was swapped out.
-/

namespace Yvent

/-- A `pid_t`. -/
abbrev Tid := Nat

namespace EventLoop

/-- An entry of `activeChannels_`: the loop's own channel for `wakeupfd_`, or any other channel,
whose callback is user code. -/
inductive Source where
  | wakeup
  | other
  deriving DecidableEq, Repr

/-- Where the loop thread is. `callback`, `task` and `destroy` are inside user code, and so is
`outside`, which is before `loop()` is entered or after it returned. -/
inductive Pc (Task : Type) where
  | outside
  | testQuit
  | poll
  | dispatch (active : List Source)
  | callback (active : List Source)
  | setRunning
  | swap
  | next (tasks : List Task)
  | task (task : Task) (tasks : List Task)
  | clearRunning
  | destroy
  deriving DecidableEq, Repr

/-- The API call a thread is in, once its first access is done: `addTask` after the push,
`quit` after the store. -/
inductive Call where
  | none
  | pushed
  | quitting
  deriving DecidableEq, Repr

end EventLoop

open EventLoop in
/-- The state of an event loop with tasks of type `Task`. -/
structure EventLoop (Task : Type) where
  tid : Tid
  quit : Bool
  tasks : List Task
  runningTasks : Bool
  wakeupfd : Nat
  pc : Pc Task
  /-- Tasks that `runInLoop` has started inline inside the current user code. -/
  nested : Nat
  call : Tid → Call
  pushed : List Task
  finished : List Task
  swapMark : Nat

namespace EventLoop

variable {Task : Type} {s : EventLoop Task}

/-- `EventLoop::EventLoop()` in the thread `tid`. -/
def create (tid : Tid) : EventLoop Task :=
  { tid, quit := false, tasks := [], runningTasks := false, wakeupfd := 0, pc := .outside,
    nested := 0, call := fun _ => .none, pushed := [], finished := [], swapMark := 0 }

/-- The loop thread executes user code. -/
def Pc.userCode : Pc Task → Bool
  | .outside | .callback _ | .task _ _ | .destroy => true
  | _ => false

/-- The task that is running. -/
def Pc.running : Pc Task → List Task
  | .task t _ => [t]
  | _ => []

/-- The part of the swapped-out vector that has not been started. -/
def Pc.batch : Pc Task → List Task
  | .next ts | .task _ ts => ts
  | _ => []

/-- The loop thread is between the swap and the end of the loop over the swapped-out vector. -/
def Pc.inBatch : Pc Task → Bool
  | .next _ | .task _ _ | .clearRunning => true
  | _ => false

/-- The largest value of an eventfd counter. -/
def eventfdMax : Nat := 2 ^ 64 - 2

/-- `wakeup()`: a write that would overflow the counter fails and leaves it alone. -/
def wakeup (s : EventLoop Task) : EventLoop Task :=
  { s with wakeupfd := if s.wakeupfd < eventfdMax then s.wakeupfd + 1 else s.wakeupfd }

/-- `handleRead()`: reading the eventfd resets its counter. -/
def handleRead (s : EventLoop Task) : EventLoop Task := { s with wakeupfd := 0 }

/-- Thread `t` may begin an API call: it is in none, and the loop thread only calls from user
code. -/
def canCall (s : EventLoop Task) (t : Tid) : Bool :=
  s.call t = .none ∧ (t = s.tid → s.pc.userCode)

/-- The push of `addTask` under `mutex_`. -/
def push (s : EventLoop Task) (t : Tid) (task : Task) : EventLoop Task :=
  { s with tasks := s.tasks ++ [task], pushed := s.pushed ++ [task],
           call := Function.update s.call t .pushed }

@[simp] theorem push_pc (t : Tid) (task : Task) : (s.push t task).pc = s.pc := rfl
@[simp] theorem push_finished (t : Tid) (task : Task) :
    (s.push t task).finished = s.finished := rfl
@[simp] theorem push_tasks (t : Tid) (task : Task) :
    (s.push t task).tasks = s.tasks ++ [task] := rfl
@[simp] theorem push_pushed (t : Tid) (task : Task) :
    (s.push t task).pushed = s.pushed ++ [task] := rfl
@[simp] theorem push_swapMark (t : Tid) (task : Task) :
    (s.push t task).swapMark = s.swapMark := rfl
@[simp] theorem push_tid (t : Tid) (task : Task) : (s.push t task).tid = s.tid := rfl
@[simp] theorem push_call (t : Tid) (task : Task) :
    (s.push t task).call = Function.update s.call t .pushed := rfl

/-- The rest of `addTask` after the push, or of `quit` after the store. -/
def finishCall (s : EventLoop Task) (t : Tid) : Option (EventLoop Task) :=
  let done := { s with call := Function.update s.call t .none }
  match s.call t with
  | .none => none
  | .pushed => if t ≠ s.tid ∨ s.runningTasks then some done.wakeup else some done
  | .quitting => if t ≠ s.tid then some done.wakeup else some done

/-- The next step of the loop thread inside `loop()` and `runTasks()`. In user code at `outside`
it is the call of `loop()`. -/
def loopStep (s : EventLoop Task) : Option (EventLoop Task) :=
  match s.pc with
  | .outside =>
    if s.call s.tid = .none ∧ s.nested = 0 then some { s with pc := .testQuit } else none
  | .testQuit => some { s with pc := if s.quit then .outside else .poll }
  | .dispatch [] => some { s with pc := .setRunning }
  | .dispatch (.wakeup :: rest) => some { s.handleRead with pc := .dispatch rest }
  | .dispatch (.other :: rest) => some { s with pc := .callback rest }
  | .setRunning => some { s with runningTasks := true, pc := .swap }
  | .swap => some { s with pc := .next s.tasks, tasks := [], swapMark := s.pushed.length }
  | .next [] => some { s with pc := .clearRunning }
  | .next (t :: rest) => some { s with pc := .task t rest }
  | .clearRunning => some { s with runningTasks := false, pc := .destroy }
  | .poll | .callback _ | .task _ _ | .destroy => none

/-- User code of the loop thread returns: an inline task, a callback, a task of the batch, or the
last destructor of the swapped-out vector. -/
def returnStep (s : EventLoop Task) : Option (EventLoop Task) :=
  if s.call s.tid ≠ .none then none
  else if s.nested ≠ 0 then some { s with nested := s.nested - 1 }
  else match s.pc with
    | .callback rest => some { s with pc := .dispatch rest }
    | .task t rest => some { s with pc := .next rest, finished := s.finished ++ [t] }
    | .destroy => some { s with pc := .testQuit }
    | _ => none

/-- A step, with the thread that takes it and the answer of `epoll_wait`. -/
inductive Label (Task : Type) where
  | addTask (t : Tid) (task : Task)
  | runInLoop (t : Tid) (task : Task)
  | quit (t : Tid)
  | finishCall (t : Tid)
  | loop
  | poll (active : List Source)
  | ret
  deriving DecidableEq, Repr

/-- The thread that takes a step. -/
def Label.thread (s : EventLoop Task) : Label Task → Tid
  | .addTask t _ | .runInLoop t _ | .quit t | .finishCall t => t
  | .loop | .poll _ | .ret => s.tid

/-- One step. `epoll_wait` reports the eventfd only while its counter is not zero; it may leave it
out, since it fills at most `events_.size()` entries, and it may be interrupted. -/
def step (s : EventLoop Task) : Label Task → Option (EventLoop Task)
  | .addTask t task => if s.canCall t then some (s.push t task) else none
  | .runInLoop t task =>
    if s.canCall t then
      if t = s.tid then some { s with nested := s.nested + 1 } else some (s.push t task)
    else none
  | .quit t =>
    if s.canCall t then
      some { s with quit := true, call := Function.update s.call t .quitting }
    else none
  | .finishCall t => s.finishCall t
  | .loop => s.loopStep
  | .poll active =>
    match s.pc with
    | .poll =>
      if Source.wakeup ∈ active → s.wakeupfd ≠ 0 then some { s with pc := .dispatch active }
      else none
    | _ => none
  | .ret => s.returnStep

end EventLoop

end Yvent
