import Yvent.Timer.Ownership

/-!
# Cancellation is effective

Where `cancelTimer` finds a live timer decides how it is stopped: in `timers_` it is erased and
freed; in the batch it keeps its flag until the batch comes to it; in its own callback it goes back
to the set with its flag if it repeats, and the next batch meets the flag. What all of them share is
that no live timer of this number is without the flag, and the steps of the queue keep that.
-/

namespace Yvent.TimerQueue

variable {q q' : TimerQueue} {l : Label} {i : Nat} {a : Addr} {t : Timer}

/-- Timer number `i` has been created, and wherever it is its flag is set. -/
structure Stopped (q : TimerQueue) (i : Nat) : Prop where
  old : i < q.created
  flagged : ∀ a t, q.heap a = some t → t.serial = i → t.canceled = true

theorem Stopped.tended (stopped : Stopped q i) (tended : Tended q q') : Stopped q' i where
  old := tended.created ▸ stopped.old
  flagged a u live serial := by
    obtain ⟨t, before, same, canceled⟩ := tended.origin a u live
    exact canceled (stopped.flagged a t before (same ▸ serial))

/-- A new timer has a new number. -/
theorem Stopped.addTimer (stopped : Stopped q i) (a : Addr) (when interval : Int) :
    Stopped (q.addTimer a when interval) i where
  old := by
    rw [addTimer_created]
    exact Nat.lt_succ_of_lt stopped.old
  flagged b u live serial := by
    rw [addTimer_heap] at live
    rcases update_eq_some.mp live with ⟨-, ⟨⟩⟩ | ⟨-, live⟩
    · exact absurd stopped.old (serial ▸ Nat.lt_irrefl _)
    · exact stopped.flagged b u live serial

theorem Stopped.move (stopped : Stopped q i) (taken : Move q l q') : Stopped q' i := by
  by_cases new : ∃ a when interval, l = .addTimer a when interval
  · obtain ⟨a, when, interval, rfl⟩ := new
    cases taken
    exact stopped.addTimer a when interval
  · apply stopped.tended
    apply taken.tended
    intro a when interval same
    exact new ⟨a, when, interval, same⟩

/-- The callback of a stopped timer is not started. -/
theorem Stopped.silent (stopped : Stopped q i) (taken : Move q l q') :
    ∃ added, q'.log = q.log ++ added ∧ .run i ∉ added := by
  obtain ⟨added, log, cause⟩ := taken.log
  refine ⟨added, log, fun started => ?_⟩
  obtain ⟨-, a, t, live, usable, serial⟩ := cause _ started
  rw [stopped.flagged a t live serial] at usable
  cases usable

/-- In no continuation is it started again. -/
theorem Stopped.run (stopped : Stopped q i) {u : TimerQueue} (reached : Reaches step anyStep q u) :
    Stopped u i ∧ ∃ later, u.log = q.log ++ later ∧ .run i ∉ later := by
  induction reached with
  | refl => exact ⟨stopped, [], (List.append_nil _).symm, List.not_mem_nil⟩
  | tail l _ _ taken ih =>
    obtain ⟨before, later, log, silent⟩ := ih
    have move := move_of_step taken
    obtain ⟨added, more, quiet⟩ := before.silent move
    refine ⟨before.move move, later ++ added, ?_, ?_⟩
    · rw [more, log, List.append_assoc]
    · simp [silent, quiet]

/-! ## One cancellation -/

/-- `cancelTimer` touches no other timer. -/
theorem cancelTimer_heap {b : Addr} (other : b ≠ a) : (q.cancelTimer a).heap b = q.heap b := by
  unfold cancelTimer
  split
  · rfl
  · dsimp only
    split
    · simp [delete, Function.update_of_ne other]
    · exact Function.update_of_ne other ..

theorem cancelTimer_timers {e : TimerEntry} (other : e.timer ≠ a) :
    e ∈ (q.cancelTimer a).timers ↔ e ∈ q.timers := by
  unfold cancelTimer
  split
  · rfl
  · next t live =>
    have key : e ≠ timerEntry t.when a := fun same => other (same ▸ rfl)
    dsimp only
    split
    · rw [(delete_frame a).2.1, OrderedSet.mem_erase]
      exact ⟨fun here => here.2, fun here => ⟨key, here⟩⟩
    · rfl

theorem cancelTimer_phase : (q.cancelTimer a).phase = q.phase := by
  unfold cancelTimer
  split
  · rfl
  · dsimp only
    split
    · exact (delete_frame a).2.2.2
    · rfl

/-- The cancelled timer is freed at once or has its flag set. -/
theorem cancelTimer_self (live : q.heap a = some t) {u : Timer}
    (after : (q.cancelTimer a).heap a = some u) : u.canceled = true := by
  simp only [cancelTimer, live] at after
  split at after
  · simp [delete] at after
  · have flagged : (Function.update q.heap a (some t.cancel)) a = some u := after
    rw [Function.update_self] at flagged
    cases flagged
    rfl

theorem stopped_cancelTimer (fits : Fits q []) (live : q.heap a = some t) :
    Stopped (q.cancelTimer a) t.serial where
  old := by
    rw [(cancelTimer_tended a).created]
    exact (fits.numbered a t live).1
  flagged b u after serial := by
    obtain ⟨v, before, same, -⟩ := (cancelTimer_tended a).origin b u after
    obtain rfl : b = a := fits.injective b a v t before live (same ▸ serial)
    exact cancelTimer_self live after

/-- What a cancellation of the timer `t` at address `a` does, from `q` to `q'`: the callback of `t`
is never started again, and the other timers keep their due times and flags and their places in
`timers_` and in the batch. -/
structure EffectiveCancel (q q' : TimerQueue) (a : Addr) (t : Timer) : Prop where
  silent : ∀ u, Reaches step anyStep q' u →
    ∃ later, u.log = q.log ++ later ∧ .run t.serial ∉ later
  others : ∀ b ≠ a, q'.heap b = q.heap b
  timers : ∀ e, e.timer ≠ a → (e ∈ q'.timers ↔ e ∈ q.timers)
  phase : q'.phase = q.phase

/-- A cancellation of a live timer is effective in every reachable state, also a second one, as far
as the assertion of `Timer::cancel` lets it go on. -/
theorem cancelTimer_effective {now : Int} (reached : Reaches step anyStep (create now) q)
    (live : q.heap a = some t) (taken : step q (.cancelTimer a) = some q') :
    EffectiveCancel q q' a t := by
  have move := move_of_step taken
  cases move
  have stopped : Stopped (q.cancelTimer a) t.serial :=
    stopped_cancelTimer (fits_reachable reached) live
  refine ⟨fun u later => ?_, fun _ => cancelTimer_heap, fun _ => cancelTimer_timers,
    cancelTimer_phase⟩
  obtain ⟨added, log, cause⟩ := (Move.cancelTimer a).log
  have quiet : .run t.serial ∉ added := by
    intro started
    obtain ⟨other, -⟩ := cause _ started
    cases other
  obtain ⟨-, more, log', silent⟩ := stopped.run later
  exact ⟨added ++ more, by rw [log', log, List.append_assoc], by simp [quiet, silent]⟩

/-- A repeating timer is cancelled from the callback of another one of its batch. -/
theorem cancelTimer_effective_in_batch :
    ∃ q q' : TimerQueue, q.phase.pending = [timerEntry 1000000 8, timerEntry 1000000 16] ∧
      step q (.cancelTimer 16) = some q' ∧
      EffectiveCancel q q' 16 ⟨1000000, 5000000, true, false, 1⟩ := by
  have run : ∃ q : TimerQueue, Reaches step anyStep (create 0) q ∧
      (q.phase.pending = [timerEntry 1000000 8, timerEntry 1000000 16] ∧
        q.heap 16 = some ⟨1000000, 5000000, true, false, 1⟩ ∧ q.phase.userCode = true) :=
    exists_reaches_of_exec [.addTimer 8 1000000 0, .addTimer 16 1000000 5000000, .tick 1000000,
      .handleRead, .next, .next] (by decide)
  obtain ⟨q, reached, here, live, user⟩ := run
  have taken : step q (.cancelTimer 16) = some (q.cancelTimer 16) := by
    rw [step, if_pos user]
  exact ⟨q, _, here, taken, cancelTimer_effective reached live taken⟩

end Yvent.TimerQueue
