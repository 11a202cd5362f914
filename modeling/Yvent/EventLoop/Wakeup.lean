import Yvent.EventLoop.Step

/-!
# No lost task

`addTask` skips the wakeup when the loop thread pushes outside `runTasks()`, because a channel
callback is followed by `runTasks()` before the next `epoll_wait`. That reasoning covers the pushes
the loop thread makes from a channel callback or from a task (`PushesInLoop`): in every run of such
pushes the loop never blocks on a non-empty queue without a wakeup on the way. A push by the loop
thread before it enters `loop()`, or from the destructors that run after `runningTasks_` was
cleared, is not covered: `pushed_before_loop` blocks on it.
-/

namespace Yvent.EventLoop

variable {Task : Type} {s s' : EventLoop Task} {l : Label Task}

/-- The loop thread is inside a channel callback or a running task. -/
def Pc.inLoop : Pc Task → Bool
  | .callback _ | .task _ _ => true
  | _ => false

/-- The side condition on a run: the loop's own thread calls `addTask` only from a channel callback
or from a running task. -/
def PushesInLoop (s : EventLoop Task) : Label Task → Prop
  | .addTask t _ => t = s.tid → s.pc.inLoop = true
  | _ => True

instance : ∀ (s : EventLoop Task) (l : Label Task), Decidable (PushesInLoop s l)
  | _, .addTask _ _ => inferInstanceAs (Decidable (_ → _))
  | _, .runInLoop _ _ | _, .quit _ | _, .finishCall _ | _, .loop | _, .poll _ | _, .ret =>
    isTrue trivial

/-- The points from which the loop thread reaches `epoll_wait` without another swap. -/
def Pc.pastSwap : Pc Task → Bool
  | .dispatch _ | .callback _ | .setRunning | .swap => false
  | _ => true

/-- `runningTasks_` is set. -/
def Pc.runs : Pc Task → Bool
  | .swap | .next _ | .task _ _ | .clearRunning => true
  | _ => false

/-- A wakeup is pending, or a thread that has pushed is about to send one. -/
def WakeupComing (s : EventLoop Task) : Prop :=
  s.wakeupfd ≠ 0 ∨ ∃ t, s.call t = .pushed

/-- Past the swap a non-empty queue has a wakeup coming; `flag` and `own` say when the loop thread
sends its own. -/
structure Awake (s : EventLoop Task) : Prop where
  flag : s.pc.runs = true → s.runningTasks = true
  own : s.call s.tid = .pushed → s.pc.inLoop = true
  coming : s.pc.pastSwap = true → s.tasks ≠ [] → WakeupComing s

theorem Awake.create (tid : Tid) : Awake (create tid : EventLoop Task) where
  flag := by intro runs; cases runs
  own := by intro called; cases called
  coming := by intro _ waiting; exact absurd rfl waiting

theorem wakeupfd_wakeup_ne_zero : (s.wakeup).wakeupfd ≠ 0 := by
  simp only [wakeup]
  split
  · exact Nat.succ_ne_zero _
  · rename_i full
    simp only [eventfdMax] at full
    omega

/-- A push leaves its thread between the push and the wakeup. -/
theorem Awake.push (inv : Awake s) {t : Tid} (task : Task)
    (inLoop : t = s.tid → s.pc.inLoop = true) : Awake (s.push t task) where
  flag := inv.flag
  own := by
    intro called
    by_cases self : t = s.tid
    · exact inLoop self
    · apply inv.own
      simpa [Function.update_of_ne (Ne.symm self)] using called
  coming := by
    intro _ _
    exact .inr ⟨t, by simp⟩

theorem Awake.wake (inv : Awake s) (t : Tid) :
    Awake { s with call := Function.update s.call t .none }.wakeup where
  flag := inv.flag
  own := by
    intro called
    by_cases self : s.tid = t
    · simp [wakeup, self] at called
    · apply inv.own
      simpa [wakeup, Function.update_of_ne self] using called
  coming := fun _ _ => .inl wakeupfd_wakeup_ne_zero

/-- The loop thread skips its wakeup only where a swap still follows. -/
theorem Awake.noWake (inv : Awake s)
    (quiet : s.call s.tid = .quitting ∨ s.runningTasks = false) :
    Awake { s with call := Function.update s.call s.tid .none } where
  flag := inv.flag
  own := by intro called; simp at called
  coming := by
    intro past waiting
    rcases inv.coming past waiting with counter | ⟨t, pushed⟩
    · exact .inl counter
    refine .inr ⟨t, ?_⟩
    have other : t ≠ s.tid := by
      rintro rfl
      rcases quiet with quitting | stopped
      · rw [quitting] at pushed
        cases pushed
      · have inLoop := inv.own pushed
        cases here : s.pc with
        | task =>
          have flag := inv.flag (by rw [here]; rfl)
          rw [stopped] at flag
          cases flag
        | callback =>
          simp [here, Pc.pastSwap] at past
        | _ => simp [here, Pc.inLoop] at inLoop
    simpa [Function.update_of_ne other] using pushed

/-- A step of the loop thread that stays past the swap, or stays before it, and touches neither the
queue nor the counter. -/
theorem Awake.goto (inv : Awake s) {pc : Pc Task} (free : s.call s.tid ≠ .pushed)
    (runs : pc.runs = true → s.runningTasks = true)
    (past : pc.pastSwap = true → s.pc.pastSwap = true) : Awake { s with pc := pc } where
  flag := runs
  own := fun called => absurd called free
  coming := fun here waiting => inv.coming (past here) waiting

/-- In `loop()` and `runTasks()` proper the loop thread is in no API call. -/
theorem Awake.free (inv : Awake s) (here : s.pc.inLoop = false) : s.call s.tid ≠ .pushed := by
  intro called
  rw [inv.own called] at here
  cases here

theorem Awake.move (inv : Awake s) (good : PushesInLoop s l) (taken : Move s l s') :
    Awake s' := by
  cases taken with
  | addTask t task => exact inv.push task good
  | runInLoop t task _ other => exact inv.push task fun self => absurd self other
  | runInline task free => exact ⟨inv.flag, inv.own, inv.coming⟩
  | inlineDone free => exact ⟨inv.flag, inv.own, inv.coming⟩
  | quit t free =>
    have idle := ((canCall_iff t).mp free).1
    refine ⟨inv.flag, fun called => ?_, fun past waiting => ?_⟩
    · by_cases self : s.tid = t
      · simp [self] at called
      · exact inv.own (by simpa [Function.update_of_ne self] using called)
    · rcases inv.coming past waiting with counter | ⟨u, pushed⟩
      · exact .inl counter
      · have other : u ≠ t := by
          rintro rfl
          rw [idle] at pushed
          cases pushed
        exact .inr ⟨u, by simpa [Function.update_of_ne other] using pushed⟩
  | wake t busy => exact inv.wake t
  | noWake busy quiet => exact inv.noWake quiet
  | testQuit here =>
    refine inv.goto (inv.free (by rw [here]; rfl)) ?_ (by simp [here, Pc.pastSwap])
    cases s.quit <;> simp [Pc.runs]
  | handleRead rest here =>
    refine ⟨?_, fun called => absurd called (inv.free (by rw [here]; rfl)), ?_⟩ <;>
      simp [Pc.runs, Pc.pastSwap]
  | setRunning here =>
    refine ⟨fun _ => rfl, fun called => absurd called (inv.free (by rw [here]; rfl)), ?_⟩
    simp [Pc.pastSwap]
  | swap here =>
    refine ⟨fun _ => inv.flag (by rw [here]; rfl),
      fun called => absurd called (inv.free (by rw [here]; rfl)), ?_⟩
    intro _ waiting
    exact absurd rfl waiting
  | clearRunning here =>
    refine ⟨by simp [Pc.runs], fun called => absurd called (inv.free (by rw [here]; rfl)), ?_⟩
    intro _ waiting
    exact inv.coming (by rw [here]; rfl) waiting
  | taskDone task rest here free =>
    refine ⟨fun _ => inv.flag (by rw [here]; rfl), ?_, ?_⟩
    · intro called
      simp [free] at called
    · intro _ waiting
      exact inv.coming (by rw [here]; rfl) waiting
  | enter here free | callbackDone _ here free | destroyed here free =>
    apply inv.goto (by simp [free]) <;> simp [here, Pc.runs, Pc.pastSwap]
  | pollReturn _ here | dispatched here | callback _ here =>
    apply inv.goto (inv.free (by rw [here]; rfl)) <;> simp [Pc.runs, Pc.pastSwap]
  | batchDone here | start _ _ here =>
    exact inv.goto (inv.free (by rw [here]; rfl)) (fun _ => inv.flag (by rw [here]; rfl))
      (by simp [here, Pc.pastSwap])

theorem awake_reachable {tid : Tid} (reached : Reaches step PushesInLoop (create tid) s) :
    Awake s :=
  reached.invariant (Awake.create tid) fun _ _ _ _ inv good taken => inv.move good (move_of_step taken)

/-- What `addTask` promises of a state: a loop thread that is blocked in `epoll_wait` or about to
enter it has an empty queue, or a non-zero eventfd, or another thread on its way to `wakeup()`. -/
def NoLostTask (s : EventLoop Task) : Prop :=
  s.pc = .poll → s.tasks ≠ [] → s.wakeupfd ≠ 0 ∨ ∃ t, t ≠ s.tid ∧ s.call t = .pushed

/-- No task is lost in a run whose loop thread pushes only from callbacks and tasks. -/
theorem noLostTask_of_pushesInLoop {tid : Tid}
    (reached : Reaches step PushesInLoop (create tid) s) : NoLostTask s := by
  intro here waiting
  have inv := awake_reachable reached
  rcases inv.coming (by rw [here]; rfl) waiting with counter | ⟨t, pushed⟩
  · exact .inl counter
  · refine .inr ⟨t, ?_, pushed⟩
    rintro rfl
    exact inv.free (by rw [here]; rfl) pushed

/-- Thread `2` and a running task push while the loop goes round; it is about to block with both
tasks queued and the eventfd raised. -/
theorem noLostTask_two_threads :
    ∃ s : EventLoop Nat, s.pc = .poll ∧ s.tasks = [11, 12] ∧ NoLostTask s := by
  have run : ∃ s : EventLoop Nat, Reaches step PushesInLoop (create 1) s ∧
      (s.pc = .poll ∧ s.tasks = [11, 12]) :=
    exists_reaches_of_exec [.addTask 2 10, .finishCall 2, .loop, .loop, .poll [.wakeup], .loop,
      .loop, .loop, .loop, .loop, .addTask 2 11, .finishCall 2, .addTask 1 12, .finishCall 1, .ret,
      .loop, .loop, .ret, .loop] (by decide)
  obtain ⟨s, reached, here, tasks⟩ := run
  exact ⟨s, here, tasks, noLostTask_of_pushesInLoop reached⟩

/-- The loop thread queues a task and then enters `loop()`: it blocks with the task queued, a zero
counter and nobody about to wake it. -/
theorem pushed_before_loop :
    ¬ ∀ s : EventLoop Nat, Reaches step anyStep (create 1) s → NoLostTask s := by
  intro noneLost
  let stuck : EventLoop Nat := { (create 1 : EventLoop Nat) with
    pc := .poll, tasks := [10], pushed := [10],
    call := Function.update (Function.update (fun _ => .none) 1 .pushed) 1 .none }
  have run : Reaches step anyStep (create 1) stuck :=
    reaches_of_exec [.addTask 1 10, .finishCall 1, .loop, .loop] rfl
  rcases noneLost stuck run rfl (by simp [stuck]) with counter | ⟨t, other, pushed⟩
  · exact counter rfl
  · have other : t ≠ 1 := other
    simp [stuck, Function.update_of_ne other] at pushed

end Yvent.EventLoop
