import Yvent.EventLoop.Wakeup

/-!
# No lost quit

`quit()` stores `quit_` before it wakes the loop up, and the loop loads `quit_` behind the last read
of the eventfd. A store that the load misses is therefore followed by a wakeup that no read has
taken away. Once `quit_` is set the loop thread leaves at its next test: it may still come back from
one `epoll_wait` and go through one `runTasks()`.
-/

namespace Yvent.EventLoop

variable {Task : Type} {s s' : EventLoop Task} {l : Label Task}

/-- A loop thread that is blocked in `epoll_wait` or about to enter it with `quit_` set has a
non-zero eventfd, or another thread between its store to `quit_` and its `wakeup()`. -/
def NoLostQuit (s : EventLoop Task) : Prop :=
  s.pc = .poll → s.quit = true → s.wakeupfd ≠ 0 ∨ ∃ t, t ≠ s.tid ∧ s.call t = .quitting

/-- The loop thread is in an API call only while it executes user code. -/
structure QuitInv (s : EventLoop Task) : Prop where
  own : s.call s.tid ≠ .none → s.pc.userCode = true
  coming : NoLostQuit s

theorem QuitInv.create (tid : Tid) : QuitInv (create tid : EventLoop Task) where
  own := by intro called; exact absurd rfl called
  coming := by intro here; cases here

/-- Another thread that begins a call does not take the wakeup of a third one. -/
theorem quitting_update {call : Tid → Call} {t : Tid} (idle : call t = .none) (c : Call)
    {tid : Tid} (coming : ∃ u, u ≠ tid ∧ call u = .quitting) :
    ∃ u, u ≠ tid ∧ Function.update call t c u = .quitting := by
  obtain ⟨u, other, quitting⟩ := coming
  have apart : u ≠ t := by
    intro same
    rw [same, idle] at quitting
    cases quitting
  exact ⟨u, other, by rw [Function.update_of_ne apart, quitting]⟩

/-- A thread begins a call; with `quit` the store to `quit_` comes with it. -/
theorem QuitInv.begin (inv : QuitInv s) {t : Tid} (free : s.canCall t = true) {c : Call}
    (call : s'.call = Function.update s.call t c) (pc : s'.pc = s.pc) (tid : s'.tid = s.tid)
    (wakeupfd : s'.wakeupfd = s.wakeupfd)
    (quit : s'.quit = s.quit ∨ c = .quitting) : QuitInv s' := by
  obtain ⟨idle, user⟩ := (canCall_iff t).mp free
  constructor
  case own =>
    intro called
    rw [pc]
    rw [call, tid] at called
    by_cases self : t = s.tid
    · exact user self
    · rw [Function.update_of_ne (Ne.symm self)] at called
      exact inv.own called
  case coming =>
    intro here set
    rw [pc] at here
    rw [call, tid, wakeupfd]
    rcases quit with same | rfl
    · rw [same] at set
      exact (inv.coming here set).imp id (quitting_update idle c)
    · -- the loop thread is in `loop()`, so the store is another thread's
      refine Or.inr ⟨t, ?_, Function.update_self ..⟩
      intro self
      have outside := user self
      rw [here] at outside
      cases outside

/-- The loop thread goes on without touching what the other threads see. -/
theorem quitInv_goto (free : s.call s.tid = .none) (call : s'.call = s.call)
    (tid : s'.tid = s.tid) (target : s'.quit = true → s'.pc ≠ .poll) : QuitInv s' where
  own := by
    intro called
    rw [call, tid] at called
    exact absurd free called
  coming := by
    intro polling set
    exact absurd polling (target set)

theorem QuitInv.free (inv : QuitInv s) (here : s.pc.userCode = false) :
    s.call s.tid = .none := by
  by_contra called
  rw [inv.own called] at here
  cases here

theorem QuitInv.move (inv : QuitInv s) (taken : Move s l s') : QuitInv s' := by
  cases taken with
  | addTask t task free => exact inv.begin free rfl rfl rfl rfl (Or.inl rfl)
  | runInLoop t task free => exact inv.begin free rfl rfl rfl rfl (Or.inl rfl)
  | quit t free => exact inv.begin free rfl rfl rfl rfl (Or.inr rfl)
  | runInline task free => exact ⟨inv.own, inv.coming⟩
  | inlineDone free => exact ⟨inv.own, inv.coming⟩
  | wake t busy =>
    refine ⟨?_, fun _ _ => Or.inl wakeupfd_wakeup_ne_zero⟩
    intro called
    by_cases self : s.tid = t
    · simp [wakeup, self] at called
    · apply inv.own
      simpa [wakeup, Function.update_of_ne self] using called
  | noWake busy quiet =>
    refine ⟨by simp, fun here => ?_⟩
    have outside := inv.own busy
    rw [here] at outside
    cases outside
  | enter here free | callbackDone _ here free | taskDone _ _ here free | destroyed here free =>
    exact quitInv_goto free rfl rfl (by simp)
  | testQuit here =>
    refine quitInv_goto (inv.free (by rw [here]; rfl)) rfl rfl ?_
    intro set
    simp [show s.quit = true from set]
  | pollReturn _ here | dispatched here | handleRead _ here | callback _ here | setRunning here
  | swap here | batchDone here | start _ _ here | clearRunning here =>
    exact quitInv_goto (inv.free (by rw [here]; rfl)) rfl rfl (by simp)

theorem quitInv_reachable {tid : Tid} (reached : Reaches step anyStep (create tid) s) :
    QuitInv s :=
  reached.invariant (QuitInv.create tid) fun _ _ _ _ inv _ taken => inv.move (move_of_step taken)

/-! ## After the store -/

/-- `epoll_wait` returns. -/
def returnsFromPoll (_ : EventLoop Task) : Label Task → Bool
  | .poll _ => true
  | _ => false

/-- `runTasks()` begins. -/
def beginsRunTasks (s : EventLoop Task) : Label Task → Bool
  | .loop =>
    match s.pc with
    | .setRunning => true
    | _ => false
  | _ => false

/-- How often a loop that is told to quit still comes back from `epoll_wait`. -/
def Pc.pollsLeft : Pc Task → Nat
  | .poll => 1
  | _ => 0

/-- How often it still goes through `runTasks()`. -/
def Pc.roundsLeft : Pc Task → Nat
  | .poll | .dispatch _ | .callback _ | .setRunning => 1
  | _ => 0

/-- A loop that is told to quit comes back from `epoll_wait` and goes through `runTasks()` at most
once more, and it is not held up in between: outside of user code it has a step to take, unless the
wakeup of another thread's `quit()` is still to come. -/
structure LeavesSoon (s : EventLoop Task) : Prop where
  polls : ∀ labels t, exec step labels s = some t →
    countSteps step returnsFromPoll labels s ≤ 1
  rounds : ∀ labels t, exec step labels s = some t →
    countSteps step beginsRunTasks labels s ≤ 1
  goesOn : s.pc.userCode = false →
    (step s .loop).isSome = true ∨ (step s (.poll [.wakeup])).isSome = true ∨
      ∃ t, t ≠ s.tid ∧ s.call t = .quitting

/-- No step takes `quit_` back, and with it set no step leads into `epoll_wait`. -/
theorem Move.quitting (taken : Move s l s') (quit : s.quit = true) :
    s'.quit = true ∧
      (if returnsFromPoll s l then 1 else 0) + s'.pc.pollsLeft ≤ s.pc.pollsLeft ∧
      (if beginsRunTasks s l then 1 else 0) + s'.pc.roundsLeft ≤ s.pc.roundsLeft := by
  cases taken with
  | testQuit here => simp [quit, here, returnsFromPoll, beginsRunTasks, Pc.pollsLeft, Pc.roundsLeft]
  | wake => simp [quit, wakeup, returnsFromPoll, beginsRunTasks]
  | addTask t task | runInLoop t task => simp [quit, push, returnsFromPoll, beginsRunTasks]
  | runInline | inlineDone | quit | noWake => simp [quit, returnsFromPoll, beginsRunTasks]
  | handleRead rest here =>
    have same : s.handleRead.quit = s.quit := rfl
    simp [same, quit, here, returnsFromPoll, beginsRunTasks, Pc.pollsLeft, Pc.roundsLeft]
  | enter here | callbackDone _ here | taskDone _ _ here | destroyed here | pollReturn _ here
  | dispatched here | callback _ here | setRunning here | swap here
  | batchDone here | start _ _ here | clearRunning here =>
    simp [quit, here, returnsFromPoll, beginsRunTasks, Pc.pollsLeft, Pc.roundsLeft]

theorem Pc.pollsLeft_le (pc : Pc Task) : pc.pollsLeft ≤ 1 := by
  cases pc <;> simp [pollsLeft]

theorem Pc.roundsLeft_le (pc : Pc Task) : pc.roundsLeft ≤ 1 := by
  cases pc <;> simp [roundsLeft]

theorem QuitInv.goesOn (inv : QuitInv s) (quit : s.quit = true)
    (inLoop : s.pc.userCode = false) :
    (step s .loop).isSome = true ∨ (step s (.poll [.wakeup])).isSome = true ∨
      ∃ t, t ≠ s.tid ∧ s.call t = .quitting := by
  cases here : s.pc with
  | outside | callback | task | destroy =>
    rw [here] at inLoop
    cases inLoop
  | poll =>
    rcases inv.coming here quit with counter | coming
    · exact Or.inr (Or.inl (by simp [step, here, counter]))
    · exact Or.inr (Or.inr coming)
  | dispatch active =>
    rcases active with _ | ⟨_ | _, rest⟩ <;> exact Or.inl (by simp [step, loopStep, here])
  | next tasks =>
    rcases tasks with _ | ⟨task, rest⟩ <;> exact Or.inl (by simp [step, loopStep, here])
  | testQuit | setRunning | swap | clearRunning =>
    exact Or.inl (by simp [step, loopStep, here])

/-- In every run no quit is lost: the loop thread does not block on it, and it leaves `loop()` after
at most one more return from `epoll_wait` and one more `runTasks()`. -/
theorem noLostQuit_reachable {tid : Tid} (reached : Reaches step anyStep (create tid) s) :
    NoLostQuit s ∧ (s.quit = true → LeavesSoon s) := by
  have inv := quitInv_reachable reached
  refine ⟨inv.coming, fun quit => ⟨?_, ?_, inv.goesOn quit⟩⟩
  · intro labels t run
    refine Nat.le_trans (m := s.pc.pollsLeft) ?_ s.pc.pollsLeft_le
    refine countSteps_le (fun u => u.pc.pollsLeft) (I := fun u => u.quit = true) ?_ quit run
    intro u l v set taken
    obtain ⟨still, polls, -⟩ := (move_of_step taken).quitting set
    exact ⟨still, polls⟩
  · intro labels t run
    refine Nat.le_trans (m := s.pc.roundsLeft) ?_ s.pc.roundsLeft_le
    refine countSteps_le (fun u => u.pc.roundsLeft) (I := fun u => u.quit = true) ?_ quit run
    intro u l v set taken
    obtain ⟨still, -, rounds⟩ := (move_of_step taken).quitting set
    exact ⟨still, rounds⟩

/-- Thread `2` quits while the loop thread is about to block, behind a wakeup of thread `3` that is
read first. -/
theorem noLostQuit_behind_wakeup :
    ∃ s : EventLoop Nat, s.pc = .poll ∧ s.quit = true ∧ s.wakeupfd = 1 ∧ NoLostQuit s ∧
      LeavesSoon s := by
  have run : ∃ s : EventLoop Nat, Reaches step anyStep (create 1) s ∧
      (s.pc = .poll ∧ s.quit = true ∧ s.wakeupfd = 1) :=
    exists_reaches_of_exec [.loop, .addTask 3 10, .finishCall 3, .loop, .poll [.wakeup], .loop,
      .loop, .loop, .loop, .loop, .ret, .loop, .loop, .ret, .loop, .quit 2, .finishCall 2]
      (by decide)
  obtain ⟨s, reached, here, quit, counter⟩ := run
  obtain ⟨notLost, leaves⟩ := noLostQuit_reachable reached
  exact ⟨s, here, quit, counter, notLost, leaves quit⟩

end Yvent.EventLoop
