import Yvent.EventLoop.Model

/-!
# What one step of the event loop can do

`Move s l s'` lists the steps of the model once, each with the conditions under which it is
enabled. The invariants of the loop are proved by cases on it, so none of them unfolds the step
function.
-/

namespace Yvent.EventLoop

variable {Task : Type} {s s' : EventLoop Task} {l : Label Task}

/-- The steps of the event loop. -/
inductive Move (s : EventLoop Task) : Label Task → EventLoop Task → Prop
  | addTask (t : Tid) (task : Task) (free : s.canCall t = true) :
      Move s (.addTask t task) (s.push t task)
  | runInLoop (t : Tid) (task : Task) (free : s.canCall t = true) (other : t ≠ s.tid) :
      Move s (.runInLoop t task) (s.push t task)
  | runInline (task : Task) (free : s.canCall s.tid = true) :
      Move s (.runInLoop s.tid task) { s with nested := s.nested + 1 }
  | quit (t : Tid) (free : s.canCall t = true) :
      Move s (.quit t) { s with quit := true, call := Function.update s.call t .quitting }
  | wake (t : Tid) (busy : s.call t ≠ .none) :
      Move s (.finishCall t) { s with call := Function.update s.call t .none }.wakeup
  | noWake (busy : s.call s.tid ≠ .none)
      (quiet : s.call s.tid = .quitting ∨ s.runningTasks = false) :
      Move s (.finishCall s.tid) { s with call := Function.update s.call s.tid .none }
  | enter (here : s.pc = .outside) (free : s.call s.tid = .none) :
      Move s .loop { s with pc := .testQuit }
  | testQuit (here : s.pc = .testQuit) :
      Move s .loop { s with pc := if s.quit then .outside else .poll }
  | pollReturn (active : List Source) (here : s.pc = .poll)
      (ready : Source.wakeup ∈ active → s.wakeupfd ≠ 0) :
      Move s (.poll active) { s with pc := .dispatch active }
  | dispatched (here : s.pc = .dispatch []) : Move s .loop { s with pc := .setRunning }
  | handleRead (rest : List Source) (here : s.pc = .dispatch (.wakeup :: rest)) :
      Move s .loop { s.handleRead with pc := .dispatch rest }
  | callback (rest : List Source) (here : s.pc = .dispatch (.other :: rest)) :
      Move s .loop { s with pc := .callback rest }
  | setRunning (here : s.pc = .setRunning) :
      Move s .loop { s with runningTasks := true, pc := .swap }
  | swap (here : s.pc = .swap) :
      Move s .loop { s with pc := .next s.tasks, tasks := [], swapMark := s.pushed.length }
  | batchDone (here : s.pc = .next []) : Move s .loop { s with pc := .clearRunning }
  | start (task : Task) (rest : List Task) (here : s.pc = .next (task :: rest)) :
      Move s .loop { s with pc := .task task rest }
  | clearRunning (here : s.pc = .clearRunning) :
      Move s .loop { s with runningTasks := false, pc := .destroy }
  | inlineDone (free : s.call s.tid = .none) : Move s .ret { s with nested := s.nested - 1 }
  | callbackDone (rest : List Source) (here : s.pc = .callback rest)
      (free : s.call s.tid = .none) : Move s .ret { s with pc := .dispatch rest }
  | taskDone (task : Task) (rest : List Task) (here : s.pc = .task task rest)
      (free : s.call s.tid = .none) :
      Move s .ret { s with pc := .next rest, finished := s.finished ++ [task] }
  | destroyed (here : s.pc = .destroy) (free : s.call s.tid = .none) :
      Move s .ret { s with pc := .testQuit }

theorem canCall_iff (t : Tid) :
    s.canCall t = true ↔ s.call t = .none ∧ (t = s.tid → s.pc.userCode = true) := by
  rw [canCall, decide_eq_true_eq]

theorem move_of_finishCall {t : Tid} (taken : s.finishCall t = some s') :
    Move s (.finishCall t) s' := by
  cases called : s.call t with
  | none => simp [finishCall, called] at taken
  | pushed =>
    simp only [finishCall, called] at taken
    split at taken
    · cases taken
      exact .wake t (by simp [called])
    · rename_i own
      obtain ⟨rfl, quiet⟩ : t = s.tid ∧ s.runningTasks = false := by simpa using own
      cases taken
      exact .noWake (by simp [called]) (.inr quiet)
  | quitting =>
    simp only [finishCall, called] at taken
    split at taken
    · cases taken
      exact .wake t (by simp [called])
    · rename_i own
      obtain rfl : t = s.tid := by simpa using own
      cases taken
      exact .noWake (by simp [called]) (.inl called)

theorem move_of_loopStep (taken : s.loopStep = some s') : Move s .loop s' := by
  unfold loopStep at taken
  split at taken
  case h_1 here =>
    split at taken
    case isTrue free =>
      cases taken
      exact .enter here free.1
    case isFalse => cases taken
  case h_2 here => cases taken; exact .testQuit here
  case h_3 here => cases taken; exact .dispatched here
  case h_4 rest here => cases taken; exact .handleRead rest here
  case h_5 rest here => cases taken; exact .callback rest here
  case h_6 here => cases taken; exact .setRunning here
  case h_7 here => cases taken; exact .swap here
  case h_8 here => cases taken; exact .batchDone here
  case h_9 task rest here => cases taken; exact .start task rest here
  case h_10 here => cases taken; exact .clearRunning here
  all_goals cases taken

theorem move_of_returnStep (taken : s.returnStep = some s') : Move s .ret s' := by
  unfold returnStep at taken
  split at taken
  · cases taken
  rename_i free
  have free : s.call s.tid = .none := by simpa using free
  split at taken
  · cases taken
    exact .inlineDone free
  split at taken
  · rename_i rest here
    cases taken
    exact .callbackDone rest here free
  · rename_i task rest here
    cases taken
    exact .taskDone task rest here free
  · rename_i here
    cases taken
    exact .destroyed here free
  · cases taken

/-- Every step of the model is one of the moves. -/
theorem move_of_step (taken : step s l = some s') : Move s l s' := by
  cases l with
  | addTask t task =>
    obtain ⟨free, rfl⟩ : s.canCall t = true ∧ s.push t task = s' := by simpa [step] using taken
    exact .addTask t task free
  | runInLoop t task =>
    simp only [step] at taken
    split at taken
    · rename_i free
      split at taken
      · rename_i own
        subst own
        cases taken
        exact .runInline task free
      · rename_i other
        cases taken
        exact .runInLoop t task free other
    · cases taken
  | quit t =>
    simp only [step] at taken
    split at taken
    · rename_i free
      cases taken
      exact .quit t free
    · cases taken
  | finishCall t => exact move_of_finishCall taken
  | loop => exact move_of_loopStep taken
  | poll active =>
    simp only [step] at taken
    split at taken
    · rename_i here
      split at taken
      · rename_i ready
        cases taken
        exact .pollReturn active here ready
      · cases taken
    · cases taken
  | ret => exact move_of_returnStep taken

end Yvent.EventLoop
