import Yvent.EventLoop.TaskOrder
import Yvent.Timer.Step
import Yvent.Timer.Threads

/-!
# What one step of a timer loop can do

The moves of `TimerLoop`, as far as they concern timers: those that add a timer, those that run one
of the two lambdas, and the steps of the event loop and of the timer queue that do neither. A loop
that is reached here is reached by its own steps, so its tasks run in push order.
-/

namespace Yvent.TimerLoop

variable {s s' : TimerLoop} {l : Label} {i : Nat}

/-- The handle with which the step runs the lambda of `cancelTimer`. -/
def cancels (s : TimerLoop) : Label → Option Nat
  | .cancelTimer t i => if t = s.loop.tid then some i else none
  | .ret _ =>
    if s.loop.nested ≠ 0 then none
    else
      match s.loop.pc with
      | .task (.cancel i) _ => some i
      | _ => none
  | _ => none

/-- A step of the event loop that pushes no lambda of the timers and ends none. -/
def Plain (s : TimerLoop) : EventLoop.Label Task → Prop
  | .addTask _ (.user _) | .runInLoop _ (.user _) => True
  | .addTask _ _ | .runInLoop _ _ => False
  | .quit _ | .finishCall _ | .loop | .poll _ => True
  | .ret => s.loop.nested ≠ 0 ∨ ∀ task rest, s.loop.pc = .task task rest → ∃ n, task = .user n

/-- The steps of the timer channel's callback and of the clock. -/
def IsDispatch : TimerQueue.Label → Prop
  | .addTimer _ _ _ | .cancelTimer _ => False
  | .handleRead | .next | .ret | .tick _ => True

/-- The steps of the threads, one constructor for each. -/
inductive Move (s : TimerLoop) : Label → TimerLoop → Prop
  | enter (t : Tid) (entry : Entry) (when interval : Int) (free : s.place t = .none) :
      Move s (.enter t entry)
        { s with place := Function.update s.place t (.entered when interval) }
  | newTimer (t : Tid) (a : Addr) (when interval : Int)
      (here : s.place t = .entered when interval) (free : s.queue.heap a = none) :
      Move s (.newTimer t a)
        { s with
          queue := s.queue.newTimer a when interval
          place := Function.update s.place t (.created s.queue.created)
          calls := Function.update s.calls s.queue.created (some { thread := t, when, timer := a }) }
  | insertInline (i : Nat) (stale : Int × Addr) (here : s.place s.loop.tid = .created i) :
      Move s (.runInLoop s.loop.tid stale)
        { s.insertBody i stale with place := Function.update s.place s.loop.tid (.handed i) }
  | push (t : Tid) (stale : Int × Addr) (i : Nat) (loop : EventLoop Task)
      (here : s.place t = .created i) (other : t ≠ s.loop.tid)
      (taken : s.loop.step (.runInLoop t (.insert i)) = some loop) :
      Move s (.runInLoop t stale)
        { s with place := Function.update s.place t (.handed i), loop }
  | leave (t : Tid) (i : Nat) (here : s.place t = .handed i) :
      Move s (.leave t) { s with place := Function.update s.place t (.left i) }
  | done (t : Tid) (i : Nat) (here : s.place t = .left i) :
      Move s (.done t) { s with place := Function.update s.place t .none }
  | cancelInline (i : Nat) (returned : s.returned i = true) :
      Move s (.cancelTimer s.loop.tid i) (s.cancelBody i)
  | cancelPush (t : Tid) (i : Nat) (loop : EventLoop Task) (returned : s.returned i = true)
      (other : t ≠ s.loop.tid) (taken : s.loop.step (.runInLoop t (.cancel i)) = some loop) :
      Move s (.cancelTimer t i) { s with loop }
  | insertTask (i : Nat) (stale : Int × Addr) (rest : List Task) (loop : EventLoop Task)
      (here : s.loop.pc = .task (.insert i) rest) (top : s.loop.nested = 0)
      (taken : s.loop.step .ret = some loop) :
      Move s (.ret stale) { s.insertBody i stale with loop }
  | cancelTask (i : Nat) (stale : Int × Addr) (rest : List Task) (loop : EventLoop Task)
      (here : s.loop.pc = .task (.cancel i) rest) (top : s.loop.nested = 0)
      (taken : s.loop.step .ret = some loop) :
      Move s (.ret stale) { s.cancelBody i with loop }
  | onLoop (l : Label) (m : EventLoop.Label Task) (loop : EventLoop Task) (plain : s.Plain m)
      (silent : s.cancels l = none) (taken : s.loop.step m = some loop) : Move s l { s with loop }
  | onQueue (l : Label) (m : TimerQueue.Label) (queue : TimerQueue) (dispatch : IsDispatch m)
      (silent : s.cancels l = none) (taken : s.queue.step m = some queue) :
      Move s l { s with queue }

/-! ## The lambdas leave the loop alone -/

@[simp] theorem insertBody_loop (i : Nat) (stale : Int × Addr) :
    (s.insertBody i stale).loop = s.loop := by
  unfold insertBody
  split <;> rfl

@[simp] theorem insertBody_place (i : Nat) (stale : Int × Addr) :
    (s.insertBody i stale).place = s.place := by
  unfold insertBody
  split <;> rfl

@[simp] theorem insertBody_calls (i : Nat) (stale : Int × Addr) :
    (s.insertBody i stale).calls = s.calls := by
  unfold insertBody
  split <;> rfl

@[simp] theorem cancelBody_loop (i : Nat) : (s.cancelBody i).loop = s.loop := by
  unfold cancelBody
  split <;> rfl

@[simp] theorem cancelBody_place (i : Nat) : (s.cancelBody i).place = s.place := by
  unfold cancelBody
  split <;> rfl

@[simp] theorem cancelBody_calls (i : Nat) : (s.cancelBody i).calls = s.calls := by
  unfold cancelBody
  split <;> rfl

/-! ## What the moves do to the timers -/

/-- What a lambda of `addTimer` inserts, it changes no timer. -/
theorem insertBody_tended (i : Nat) (stale : Int × Addr) :
    TimerQueue.Tended s.queue (s.insertBody i stale).queue := by
  unfold insertBody
  split
  · exact .same rfl rfl rfl
  · exact TimerQueue.insertTimer_tended ..

theorem cancelBody_tended (i : Nat) : TimerQueue.Tended s.queue (s.cancelBody i).queue := by
  unfold cancelBody
  split
  · exact .same rfl rfl rfl
  · exact TimerQueue.cancelTimer_tended _

/-- A dispatch adds no timer. -/
theorem dispatch_tended {m : TimerQueue.Label} {queue : TimerQueue} (dispatch : IsDispatch m)
    (taken : s.queue.step m = some queue) : TimerQueue.Tended s.queue queue := by
  apply (TimerQueue.move_of_step taken).tended
  rintro a when interval rfl
  exact dispatch

/-! ## Inversion -/

theorem place_of_canCall {t : Tid} (free : s.canCall t = true) : s.place t = .none := by
  rw [canCall, decide_eq_true_eq] at free
  exact free.1

theorem onLoop_eq_some {m : EventLoop.Label Task} (taken : s.onLoop m = some s') :
    ∃ loop, s.loop.step m = some loop ∧ s' = { s with loop } := by
  obtain ⟨loop, step, rfl⟩ := Option.map_eq_some_iff.mp taken
  exact ⟨loop, step, rfl⟩

/-- A plain step of the event loop. -/
theorem move_of_onLoop {m : EventLoop.Label Task} (taken : s.onLoop m = some s')
    (plain : s.Plain m) (silent : s.cancels l = none) : Move s l s' := by
  obtain ⟨loop, step, rfl⟩ := onLoop_eq_some taken
  exact .onLoop l m loop plain silent step

theorem move_of_onQueue {m : TimerQueue.Label} (taken : s.onQueue m = some s')
    (dispatch : IsDispatch m) (silent : s.cancels l = none) : Move s l s' := by
  unfold onQueue at taken
  split at taken
  · split at taken
    · obtain ⟨queue, step, rfl⟩ := Option.map_eq_some_iff.mp taken
      exact .onQueue l m queue dispatch silent step
    · cases taken
  · cases taken

theorem move_of_returnStep {stale : Int × Addr} (taken : s.returnStep stale = some s') :
    Move s (.ret stale) s' := by
  unfold returnStep at taken
  split at taken
  · cases taken
  split at taken
  · next nested =>
    exact move_of_onLoop taken (Or.inl nested) (by rw [cancels, if_pos nested])
  · next top =>
    have top : s.loop.nested = 0 := by simpa using top
    split at taken
    · next i rest here =>
      obtain ⟨loop, step, rfl⟩ := onLoop_eq_some taken
      rw [insertBody_loop] at step
      exact .insertTask i stale rest loop here top step
    · next i rest here =>
      obtain ⟨loop, step, rfl⟩ := onLoop_eq_some taken
      rw [cancelBody_loop] at step
      exact .cancelTask i stale rest loop here top step
    · next noInsert noCancel =>
      split at taken
      · refine move_of_onLoop taken (Or.inr fun task rest here => ?_) ?_
        · cases task with
          | insert i => exact absurd here (noInsert i rest)
          | cancel i => exact absurd here (noCancel i rest)
          | user n => exact ⟨n, rfl⟩
        · rw [cancels, if_neg (by simp [top])]
          split
          · next i rest here => exact absurd here (noCancel i rest)
          · rfl
      · cases taken

/-- Every step is one of the moves. -/
theorem move_of_step (taken : step s l = some s') : Move s l s' := by
  cases l with
  | enter t entry =>
    simp only [step] at taken
    split at taken
    · next free =>
      cases taken
      exact .enter t entry _ _ (place_of_canCall free)
    · cases taken
  | newTimer t a =>
    simp only [step] at taken
    split at taken
    · next when interval here =>
      split at taken
      · next free =>
        cases taken
        exact .newTimer t a when interval here free.2
      · cases taken
    · cases taken
  | runInLoop t stale =>
    simp only [step] at taken
    split at taken
    · next i here =>
      split at taken
      · next own =>
        subst own
        cases taken
        exact .insertInline i stale here
      · next other =>
        obtain ⟨loop, step, rfl⟩ := onLoop_eq_some taken
        exact .push t stale i loop here other step
    · cases taken
  | leave t =>
    simp only [step] at taken
    split at taken
    · next i here =>
      split at taken
      · cases taken
        exact .leave t i here
      · cases taken
    · cases taken
  | done t =>
    simp only [step] at taken
    split at taken
    · next i here =>
      cases taken
      exact .done t i here
    · cases taken
  | cancelTimer t i =>
    simp only [step] at taken
    split at taken
    · next free =>
      split at taken
      · next own =>
        subst own
        cases taken
        exact .cancelInline i free.2
      · next other =>
        obtain ⟨loop, step, rfl⟩ := onLoop_eq_some taken
        exact .cancelPush t i loop free.2 other step
    · cases taken
  | finishCall t => exact move_of_onLoop taken trivial rfl
  | poll active => exact move_of_onLoop taken trivial rfl
  | addTask t n | runTask t n | quit t | loop =>
    simp only [step] at taken
    split at taken
    · exact move_of_onLoop taken trivial rfl
    · cases taken
  | ret stale => exact move_of_returnStep taken
  | handleRead | next | timerRet => exact move_of_onQueue taken trivial rfl
  | tick ns =>
    simp only [step] at taken
    obtain ⟨queue, step, rfl⟩ := Option.map_eq_some_iff.mp taken
    exact .onQueue _ (.tick ns) queue trivial rfl step

/-! ## The tasks of the loop -/

/-- Every move is a step of the event loop or none. -/
theorem Move.loop (taken : Move s l s') :
    s'.loop = s.loop ∨ ∃ m, s.loop.step m = some s'.loop := by
  cases taken with
  | enter | newTimer | leave | done | onQueue => exact .inl rfl
  | insertInline i stale => exact .inl (insertBody_loop i stale)
  | cancelInline i => exact .inl (cancelBody_loop i)
  | push _ _ _ _ _ _ step | cancelPush _ _ _ _ _ step | insertTask _ _ _ _ _ _ step
  | cancelTask _ _ _ _ _ _ step | onLoop _ _ _ _ _ step => exact .inr ⟨_, step⟩

theorem queueOrder_reachable {ok : TimerLoop → Label → Prop} {tid : Tid} {now : Int}
    (reached : Reaches step ok (create tid now) s) : s.loop.QueueOrder := by
  have run : Reaches EventLoop.step anyStep (.create tid) s.loop := by
    induction reached with
    | refl => exact .refl
    | tail l before good taken ih =>
      rcases (move_of_step taken).loop with same | ⟨m, step⟩
      · rwa [same]
      · exact ih.tail m trivial step
  exact EventLoop.queueOrder_reachable run

/-- A plain step pushes and finishes no lambda of the timers. -/
theorem Plain.counts {m : EventLoop.Label Task} {loop : EventLoop Task} (plain : s.Plain m)
    (taken : s.loop.step m = some loop) (task : Task) (lambda : ∀ n, task ≠ .user n) :
    loop.pushed.count task = s.loop.pushed.count task ∧
      loop.finished.count task = s.loop.finished.count task := by
  have user : ∀ (tasks : List Task) n, (tasks ++ [Task.user n]).count task = tasks.count task := by
    intro tasks n
    simp [List.count_append, (lambda n).symm]
  cases EventLoop.move_of_step taken with
  | addTask t pushed | runInLoop t pushed =>
    cases pushed with
    | insert | cancel => exact plain.elim
    | user n => exact ⟨user _ n, rfl⟩
  | taskDone done rest here free =>
    rcases plain with nested | users
    · rw [(EventLoop.ret_of_nested nested taken).2]
      exact ⟨rfl, rfl⟩
    · obtain ⟨n, rfl⟩ := users done rest here
      exact ⟨rfl, user _ n⟩
  | _ => exact ⟨rfl, rfl⟩

end Yvent.TimerLoop
