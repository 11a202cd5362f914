import Yvent.Timer.Ledger

/-!
# What one step of the timer queue can do

`Move q l q'` lists the steps of the model once, each with the conditions under which it is enabled;
the invariants of the queue are proved by cases on it. Whatever the step, the events it adds to the
history have a cause in the state it is taken from.
-/

namespace Yvent.TimerQueue

variable {q q' : TimerQueue} {l : Label}

/-- The steps of the timer queue. -/
inductive Move (q : TimerQueue) : Label → TimerQueue → Prop
  | tick (ns : Nat) : Move q (.tick ns) { q with clock := q.clock + ns }
  | addTimer (a : Addr) (when interval : Int) (free : q.heap a = none) :
      Move q (.addTimer a when interval) (q.addTimer a when interval)
  | cancelTimer (a : Addr) : Move q (.cancelTimer a) (q.cancelTimer a)
  | handleRead (here : q.phase = .idle) :
      Move q .handleRead { q.readTimerfd with phase := .read }
  | getExpired (here : q.phase = .read) : Move q .next q.getExpired
  | visit (e : TimerEntry) (rest : List TimerEntry) (here : q.phase = .expiring (e :: rest)) :
      Move q .next (q.visit e rest)
  | rearm (here : q.phase = .expiring []) : Move q .next q.rearm
  | afterRun (e : TimerEntry) (rest : List TimerEntry) (here : q.phase = .running e rest) :
      Move q .ret (q.afterRun e rest)

theorem move_of_step (taken : step q l = some q') : Move q l q' := by
  cases l with
  | tick ns =>
    cases taken
    exact .tick ns
  | addTimer a when interval =>
    simp only [step] at taken
    split at taken
    · rename_i allowed
      cases taken
      exact .addTimer a when interval allowed.2.2
    · cases taken
  | cancelTimer a =>
    simp only [step] at taken
    split at taken
    · cases taken
      exact .cancelTimer a
    · cases taken
  | handleRead =>
    simp only [step] at taken
    split at taken
    · rename_i here
      cases taken
      exact .handleRead here
    · cases taken
  | next =>
    simp only [step] at taken
    split at taken
    · rename_i here
      cases taken
      exact .getExpired here
    · rename_i e rest here
      cases taken
      exact .visit e rest here
    · rename_i here
      cases taken
      exact .rearm here
    · cases taken
  | ret =>
    simp only [step] at taken
    split at taken
    · rename_i e rest here
      cases taken
      exact .afterRun e rest here
    · cases taken

/-! ## The parts of the operations -/

@[simp] theorem newTimer_heap (a : Addr) (w interval : Int) :
    (q.newTimer a w interval).heap =
      Function.update q.heap a (some (Timer.create w interval q.created)) := rfl

@[simp] theorem insertTimer_heap (a : Addr) (w : Int) : (q.insertTimer a w).heap = q.heap := by
  simp only [insertTimer]
  split <;> rfl

@[simp] theorem insertTimer_created (a : Addr) (w : Int) :
    (q.insertTimer a w).created = q.created := by
  simp only [insertTimer]
  split <;> rfl

theorem insertTimer_freed (a : Addr) (w : Int) : (q.insertTimer a w).freed = q.freed := by
  simp only [insertTimer]
  split <;> rfl

@[simp] theorem addTimer_heap (a : Addr) (w interval : Int) :
    (q.addTimer a w interval).heap =
      Function.update q.heap a (some (Timer.create w interval q.created)) := by
  rw [addTimer, insertTimer_heap]

@[simp] theorem addTimer_created (a : Addr) (w interval : Int) :
    (q.addTimer a w interval).created = q.created + 1 := by
  rw [addTimer, insertTimer_created]

@[simp] theorem readTimerfd_log : q.readTimerfd.log = q.log := by
  unfold readTimerfd
  split
  · split <;> rfl
  · rfl

/-- `delete` does not touch what the arming depends on. -/
theorem delete_frame (a : Addr) :
    (q.delete a).timerfd = q.timerfd ∧ (q.delete a).timers = q.timers ∧
      (q.delete a).lastSet = q.lastSet ∧ (q.delete a).phase = q.phase := by
  unfold delete
  split <;> exact ⟨rfl, rfl, rfl, rfl⟩

/-- `delete` of a live timer is silent. -/
theorem delete_log {a : Addr} {t : Timer} (live : q.heap a = some t) :
    (q.delete a).log = q.log := by
  simp only [delete, live]

/-! ## What happens to the heap -/

/-- From `q` to `q'` timers are changed in place or freed: none is new, none has its flag taken
back, and none goes away without being freed. -/
structure Tended (q q' : TimerQueue) : Prop where
  origin : ∀ a u, q'.heap a = some u →
    ∃ t, q.heap a = some t ∧ u.serial = t.serial ∧ (t.canceled = true → u.canceled = true)
  kept : ∀ a t, q.heap a = some t →
    (∃ u, q'.heap a = some u ∧ u.serial = t.serial) ∨ t.serial ∈ q'.freed
  freed : ∀ i ∈ q.freed, i ∈ q'.freed
  created : q'.created = q.created

theorem Tended.same (heap : q'.heap = q.heap) (freed : q'.freed = q.freed)
    (created : q'.created = q.created) : Tended q q' where
  origin _ u live := ⟨u, heap ▸ live, rfl, id⟩
  kept _ t live := .inl ⟨t, heap ▸ live, rfl⟩
  freed _ old := freed ▸ old
  created := created

/-- A timer is changed in place. -/
theorem Tended.change {a : Addr} {t r : Timer} (live : q.heap a = some t)
    (serial : r.serial = t.serial) (canceled : t.canceled = true → r.canceled = true)
    (heap : q'.heap = Function.update q.heap a (some r)) (freed : q'.freed = q.freed)
    (created : q'.created = q.created) : Tended q q' where
  origin b u alive := by
    rw [heap] at alive
    rcases update_eq_some.mp alive with ⟨rfl, ⟨⟩⟩ | ⟨-, alive⟩
    · exact ⟨t, live, serial, canceled⟩
    · exact ⟨u, alive, rfl, id⟩
  kept b u alive := by
    rw [heap]
    by_cases same : b = a
    · subst same
      rw [live] at alive
      cases alive
      exact .inl ⟨r, Function.update_self .., serial⟩
    · exact .inl ⟨u, update_eq_some.mpr (.inr ⟨same, alive⟩), rfl⟩
  freed _ old := freed ▸ old
  created := created

/-- A timer, changed before or not, is freed. -/
theorem Tended.delete {a : Addr} {t r : Timer} (live : q.heap a = some t)
    (serial : r.serial = t.serial) (now : q'.heap a = some r)
    (others : ∀ b ≠ a, q'.heap b = q.heap b) (freed : q'.freed = q.freed)
    (created : q'.created = q.created) : Tended q (q'.delete a) := by
  have heap : (q'.delete a).heap = Function.update q'.heap a none := by
    simp only [TimerQueue.delete, now]
  have frees : (q'.delete a).freed = q.freed ++ [t.serial] := by
    simp only [TimerQueue.delete, now, freed, serial]
  constructor
  case origin =>
    intro b u alive
    rw [heap] at alive
    obtain ⟨other, alive⟩ := (update_eq_some.mp alive).resolve_left (by simp)
    exact ⟨u, others b other ▸ alive, rfl, id⟩
  case kept =>
    intro b u alive
    rw [heap, frees]
    by_cases same : b = a
    · subst same
      rw [live] at alive
      cases alive
      exact .inr (List.mem_append_right _ List.mem_cons_self)
    · exact .inl ⟨u, by rw [Function.update_of_ne same, others b same, alive], rfl⟩
  case freed =>
    intro i old
    rw [frees]
    exact List.mem_append_left _ old
  case created =>
    unfold TimerQueue.delete
    split <;> exact created

theorem cancelTimer_tended (a : Addr) : Tended q (q.cancelTimer a) := by
  unfold cancelTimer
  split
  · exact .same rfl rfl rfl
  · next t live =>
    dsimp only
    split
    · refine .delete live (r := t.cancel) rfl (Function.update_self ..) ?_ rfl rfl
      exact fun b other => Function.update_of_ne other ..
    · exact .change live (r := t.cancel) rfl (fun _ => rfl) rfl rfl rfl

theorem insertTimer_tended (a : Addr) (w : Int) : Tended q (q.insertTimer a w) :=
  .same (insertTimer_heap a w) (insertTimer_freed a w) (insertTimer_created a w)

theorem visit_tended (e : TimerEntry) (rest : List TimerEntry) : Tended q (q.visit e rest) := by
  unfold visit
  split
  · exact .same rfl rfl rfl
  · next t live =>
    split
    · exact .delete live rfl live (fun _ _ => rfl) rfl rfl
    · exact .same rfl rfl rfl

theorem afterRun_tended (e : TimerEntry) (rest : List TimerEntry) :
    Tended q (q.afterRun e rest) := by
  unfold afterRun
  split
  · exact .same rfl rfl rfl
  · next t live =>
    split
    · exact .change live (r := t.restart) rfl id rfl rfl rfl
    · exact .delete live rfl live (fun _ _ => rfl) rfl rfl

theorem rearm_tended : Tended q q.rearm := by
  unfold rearm
  split <;> exact .same rfl rfl rfl

theorem readTimerfd_tended : Tended q { q.readTimerfd with phase := .read } := by
  unfold readTimerfd
  split
  · split <;> exact .same rfl rfl rfl
  · exact .same rfl rfl rfl

/-- Every step but `addTimer` only tends to the timers there are. -/
theorem Move.tended (taken : Move q l q') (noNew : ∀ a when interval, l ≠ .addTimer a when interval) :
    Tended q q' := by
  cases taken with
  | tick | getExpired => exact .same rfl rfl rfl
  | addTimer a when interval => exact absurd rfl (noNew a when interval)
  | cancelTimer a => exact cancelTimer_tended a
  | handleRead => exact readTimerfd_tended
  | visit e rest => exact visit_tended e rest
  | rearm => exact rearm_tended
  | afterRun e rest => exact afterRun_tended e rest

/-! ## The causes of the events -/

/-- What the event says of the state the step is taken from. -/
def Event.cause (q : TimerQueue) (l : Label) : Event → Prop
  | .run i => l = .next ∧ ∃ a t, q.heap a = some t ∧ t.canceled = false ∧ t.serial = i
  | .useFreed a => q.heap a = none ∧ (l = .cancelTimer a ∨ ∃ e ∈ q.entries, e.timer = a)
  | .assertFailed => ∃ a t, l = .cancelTimer a ∧ q.heap a = some t ∧ t.canceled = true
  | .settime _ _ _ _ => True

/-- The history of `q` and what a step `l` from `q` may add to it. -/
def Extended (q : TimerQueue) (l : Label) (log : List Event) : Prop :=
  ∃ added, log = q.log ++ added ∧ ∀ e ∈ added, e.cause q l

theorem Extended.same : Extended q l q.log :=
  ⟨[], (List.append_nil _).symm, by simp⟩

theorem Extended.one {e : Event} (cause : e.cause q l) : Extended q l (q.log ++ [e]) :=
  ⟨[e], rfl, by simpa using cause⟩

theorem Move.log (taken : Move q l q') : Extended q l q'.log := by
  cases taken with
  | tick | getExpired => exact .same
  | handleRead =>
    show Extended q _ q.readTimerfd.log
    rw [readTimerfd_log]
    exact .same
  | addTimer a when interval =>
    simp only [TimerQueue.addTimer, insertTimer]
    split
    · exact .one (e := .settime _ _ _ _) trivial
    · exact .same
  | cancelTimer a =>
    unfold TimerQueue.cancelTimer
    split
    · next free => exact .one ⟨free, .inl rfl⟩
    · next t live =>
      have logged : Extended q (.cancelTimer a)
          (if t.canceled then q.log ++ [.assertFailed] else q.log) := by
        split
        · next canceled => exact .one ⟨a, t, rfl, live, canceled⟩
        · exact .same
      dsimp only
      split
      · rw [delete_log (Function.update_self ..)]
        exact logged
      · exact logged
  | visit e rest here =>
    have member : e ∈ q.entries := by simp [entries, here, Phase.pending]
    unfold TimerQueue.visit
    split
    · next free => exact .one ⟨free, .inr ⟨e, member, rfl⟩⟩
    · next t live =>
      split
      · rw [delete_log (q := { q with phase := .expiring rest }) live]
        exact .same
      · next usable => exact .one ⟨rfl, e.timer, t, live, by simpa using usable, rfl⟩
  | rearm =>
    unfold TimerQueue.rearm
    split
    · exact .one (e := .settime _ _ _ _) trivial
    · exact .same
  | afterRun e rest here =>
    have member : e ∈ q.entries := by simp [entries, here, Phase.pending]
    unfold TimerQueue.afterRun
    split
    · next free => exact .one ⟨free, .inr ⟨e, member, rfl⟩⟩
    · next t live =>
      split
      · exact .same
      · rw [delete_log (q := { q with phase := .expiring rest }) live]
        exact .same

end Yvent.TimerQueue
