import Yvent.EventLoop.Step
import Mathlib.Data.List.Infix

/-!
# Tasks run once, in push order

The finished tasks, the running one, the rest of the swapped-out vector and `tasks_` are always
the pushed tasks in push order. A batch is what `tasks_` held at its swap: nothing pushed later
joins it.
-/

namespace Yvent.EventLoop

variable {Task : Type} {s s' : EventLoop Task} {l : Label Task}

/-- Every pushed task is in one place, in push order; a batch under way ends at the mark its swap
set. -/
structure QueueOrder (s : EventLoop Task) : Prop where
  order : s.finished ++ s.pc.running ++ s.pc.batch ++ s.tasks = s.pushed
  batch : s.pc.inBatch = true → s.finished ++ s.pc.running ++ s.pc.batch = s.pushed.take s.swapMark
  mark : s.swapMark ≤ s.pushed.length

theorem QueueOrder.create (tid : Tid) : QueueOrder (create tid : EventLoop Task) where
  order := rfl
  batch := by intro inBatch; cases inBatch
  mark := Nat.le_refl 0

/-- A push extends `tasks_` and the history together and leaves the batch alone. -/
theorem QueueOrder.push (inv : QueueOrder s) (t : Tid) (task : Task) :
    QueueOrder (s.push t task) where
  order := by
    rw [push_finished, push_pc, push_tasks, push_pushed, ← List.append_assoc, inv.order]
  batch := by
    intro inBatch
    rw [push_finished, push_pc, push_pushed, push_swapMark, List.take_append_of_le_length inv.mark]
    exact inv.batch inBatch
  mark := by
    rw [push_pushed, push_swapMark, List.length_append]
    exact Nat.le_add_right_of_le inv.mark

/-- The queue does not see a step that keeps the queue fields and the place in the batch. -/
theorem QueueOrder.frame (inv : QueueOrder s) (finished : s'.finished = s.finished)
    (running : s'.pc.running = s.pc.running) (batch : s'.pc.batch = s.pc.batch)
    (inBatch : s'.pc.inBatch = true → s.pc.inBatch = true) (tasks : s'.tasks = s.tasks)
    (pushed : s'.pushed = s.pushed) (mark : s'.swapMark = s.swapMark) : QueueOrder s' where
  order := by rw [finished, running, batch, tasks, pushed, inv.order]
  batch := by
    intro here
    rw [finished, running, batch, pushed, mark]
    exact inv.batch (inBatch here)
  mark := by rw [mark, pushed]; exact inv.mark

/-- The swap starts a batch with everything pushed so far. -/
theorem QueueOrder.swap (inv : QueueOrder s) (here : s.pc = .swap) :
    QueueOrder { s with pc := .next s.tasks, tasks := [], swapMark := s.pushed.length } := by
  have order := inv.order
  rw [here] at order
  simp only [Pc.running, Pc.batch, List.append_nil] at order
  exact {
    order := by simpa [Pc.running, Pc.batch] using order
    batch := by
      intro _
      simpa [Pc.running, Pc.batch] using order
    mark := Nat.le_refl _ }

theorem QueueOrder.start (inv : QueueOrder s) {task : Task} {rest : List Task}
    (here : s.pc = .next (task :: rest)) : QueueOrder { s with pc := .task task rest } := by
  have order := inv.order
  have batch := inv.batch
  rw [here] at order batch
  exact {
    order := by simpa [Pc.running, Pc.batch] using order
    batch := by
      intro _
      simpa [Pc.running, Pc.batch] using batch rfl
    mark := inv.mark }

theorem QueueOrder.taskDone (inv : QueueOrder s) {task : Task} {rest : List Task}
    (here : s.pc = .task task rest) :
    QueueOrder { s with pc := .next rest, finished := s.finished ++ [task] } := by
  have order := inv.order
  have batch := inv.batch
  rw [here] at order batch
  exact {
    order := by simpa [Pc.running, Pc.batch] using order
    batch := by
      intro _
      simpa [Pc.running, Pc.batch] using batch rfl
    mark := inv.mark }

theorem QueueOrder.move (inv : QueueOrder s) (taken : Move s l s') : QueueOrder s' := by
  cases taken with
  | addTask t task => exact inv.push t task
  | runInLoop t task => exact inv.push t task
  | swap here => exact inv.swap here
  | start task rest here => exact inv.start here
  | taskDone task rest here => exact inv.taskDone here
  | testQuit here =>
    apply inv.frame <;> first | rfl | (cases s.quit <;> simp [here, Pc.running, Pc.batch, Pc.inBatch])
  | enter here | pollReturn active here | dispatched here | handleRead rest here
  | callback rest here | setRunning here | batchDone here | clearRunning here
  | callbackDone rest here | destroyed here =>
    apply inv.frame <;> first | rfl | simp [here, Pc.running, Pc.batch, Pc.inBatch]
  | runInline | quit | wake | noWake | inlineDone =>
    apply inv.frame <;> first | rfl | exact id

theorem queueOrder_reachable {tid : Tid} (reached : Reaches step anyStep (create tid) s) :
    QueueOrder s :=
  reached.invariant (QueueOrder.create tid) fun _ _ _ _ inv _ taken => inv.move (move_of_step taken)

/-! ## Tasks that wait -/

/-- The tasks that have not returned: the running one, the rest of the batch and `tasks_`. -/
def waiting (s : EventLoop Task) : List Task := s.pc.running ++ (s.pc.batch ++ s.tasks)

theorem QueueOrder.finished_append_waiting (inv : QueueOrder s) :
    s.finished ++ s.waiting = s.pushed := by
  rw [← inv.order, waiting]
  simp only [List.append_assoc]

theorem QueueOrder.count [BEq Task] (inv : QueueOrder s) (task : Task) :
    s.finished.count task + s.waiting.count task = s.pushed.count task := by
  rw [← inv.finished_append_waiting, List.count_append]

/-- How often a task waits, after `m` more pushes of it and `n` more returns. -/
theorem QueueOrder.waiting_count [BEq Task] (inv : QueueOrder s) (inv' : QueueOrder s')
    {task : Task} {m n : Nat} (pushed : s'.pushed.count task = s.pushed.count task + m)
    (finished : s'.finished.count task = s.finished.count task + n) :
    s'.waiting.count task + n = s.waiting.count task + m := by
  have before := inv.count task
  have after := inv'.count task
  omega

/-- An inline task ends before the task around it. -/
theorem ret_of_nested (nested : s.nested ≠ 0) (taken : step s .ret = some s') :
    s'.pushed = s.pushed ∧ s'.finished = s.finished := by
  simp only [step, returnStep, if_pos nested] at taken
  split at taken
  · cases taken
  · cases taken
    exact ⟨rfl, rfl⟩

theorem ret_of_task {task : Task} {rest : List Task} (top : s.nested = 0)
    (here : s.pc = .task task rest) (taken : step s .ret = some s') :
    s'.pushed = s.pushed ∧ s'.finished = s.finished ++ [task] := by
  simp only [step, returnStep, top, here, ne_eq, not_true_eq_false, if_false] at taken
  split at taken
  · cases taken
  · cases taken
    exact ⟨rfl, rfl⟩

theorem runInLoop_of_other {t : Tid} {task : Task} (other : t ≠ s.tid)
    (taken : step s (.runInLoop t task) = some s') : s' = s.push t task := by
  simp only [step, if_neg other] at taken
  split at taken
  · cases taken
    rfl
  · cases taken

/-- Only the loop thread starts or finishes a task. -/
theorem move_other_thread (taken : Move s l s') (other : l.thread s ≠ s.tid) :
    s'.finished = s.finished ∧ s'.pc = s.pc := by
  cases taken with
  | addTask | runInLoop | quit | wake => exact ⟨rfl, rfl⟩
  | _ => exact absurd rfl other

/-- A step into or inside a batch is the swap, which takes all of `tasks_`, or keeps the mark. -/
theorem move_inBatch (taken : Move s l s') (inBatch : s'.pc.inBatch = true) :
    (s.pc.inBatch = true ∧ s'.swapMark = s.swapMark) ∨
      (s.pc = .swap ∧ s'.pc.batch = s.tasks ∧ s'.swapMark = s.pushed.length) := by
  cases taken with
  | swap here => exact .inr ⟨here, rfl, rfl⟩
  | testQuit here => cases quit : s.quit <;> simp [quit, Pc.inBatch] at inBatch
  | batchDone here | start task rest here | taskDone task rest here =>
    exact .inl ⟨by simp [here, Pc.inBatch], rfl⟩
  | addTask | runInLoop | runInline | quit | wake | noWake | inlineDone =>
    exact .inl ⟨inBatch, rfl⟩
  | _ => cases inBatch

/-- What the queue promises in a state: `order` is the exactly-once law, `batch` says that a batch
is what had been pushed when it was swapped out and `tasks_` is what came later, `loopThread` that
no other thread runs a task, and `fixedAtSwap` that the length of a batch is set at its swap. -/
structure RunsInPushOrder (s : EventLoop Task) : Prop where
  order : s.finished ++ s.pc.running ++ s.pc.batch ++ s.tasks = s.pushed
  batch : s.pc.inBatch = true →
    s.finished ++ s.pc.running ++ s.pc.batch = s.pushed.take s.swapMark ∧
      s.tasks = s.pushed.drop s.swapMark
  loopThread : ∀ l s', step s l = some s' → l.thread s ≠ s.tid →
    s'.finished = s.finished ∧ s'.pc = s.pc
  fixedAtSwap : ∀ l s', step s l = some s' → s'.pc.inBatch = true →
    (s.pc.inBatch = true ∧ s'.swapMark = s.swapMark) ∨
      (s.pc = .swap ∧ s'.pc.batch = s.tasks ∧ s'.swapMark = s.pushed.length)

/-- In every interleaving of pushes with the loop, tasks run at most once, in push order, in the
loop thread, and in batches fixed at their swap. -/
theorem runsInPushOrder_reachable {tid : Tid}
    (reached : Reaches step anyStep (create tid) s) : RunsInPushOrder s := by
  have inv := queueOrder_reachable reached
  refine ⟨inv.order, fun inBatch => ?_, fun _ _ taken => move_other_thread (move_of_step taken),
    fun _ _ taken => move_inBatch (move_of_step taken)⟩
  have taken := inv.batch inBatch
  refine ⟨taken, ?_⟩
  have order := inv.order
  rw [taken] at order
  exact List.append_cancel_left (order.trans (List.take_append_drop s.swapMark s.pushed).symm)

/-- Thread `2` pushes while the loop thread `1` runs the first task, which pushes itself. -/
theorem runsInPushOrder_two_threads :
    ∃ s : EventLoop Nat, s.finished = [10] ∧ s.tasks = [11, 12] ∧ s.pc = .clearRunning ∧
      RunsInPushOrder s := by
  have run : ∃ s : EventLoop Nat, Reaches step anyStep (create 1) s ∧
      (s.finished = [10] ∧ s.tasks = [11, 12] ∧ s.pc = .clearRunning) :=
    exists_reaches_of_exec [.addTask 2 10, .finishCall 2, .loop, .loop, .poll [.wakeup], .loop,
      .loop, .loop, .loop, .loop, .addTask 2 11, .addTask 1 12, .finishCall 1, .ret, .loop]
      (by decide)
  obtain ⟨s, reached, finished, tasks, here⟩ := run
  exact ⟨s, finished, tasks, here, runsInPushOrder_reachable reached⟩

end Yvent.EventLoop
