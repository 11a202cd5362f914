import Yvent.Timer.Step

/-!
# No timer is forgotten

The timerfd is armed when an insertion becomes the first entry and at the end of `handleRead()`.
A cancellation only moves the first entry back, so between operations the armed expiry is never
later than the first due time, or one millisecond after the last arming if the timer was due
sooner than that. The system clock and the clock of the timerfd are one `clock` here.
-/

namespace Yvent.TimerQueue

variable {q q' : TimerQueue} {l : Label}

/-- The mathematical value `x` is a 64-bit one. -/
def InRange (x : Int) : Prop := -2 ^ 63 ≤ x ∧ x < 2 ^ 63

instance (x : Int) : Decidable (InRange x) := inferInstanceAs (Decidable (_ ∧ _))

/-- The argument of the call of `setTimer` in this step, if there is one. -/
def setTimerArg (q : TimerQueue) : Label → Option Int
  | .addTimer timer when _ =>
    if (q.timers.insert (timerEntry when timer)).begin? = some (timerEntry when timer) then
      some when
    else none
  | .next =>
    match q.phase with
    | .expiring [] => q.timers.begin?.map TimerEntry.when
    | _ => none
  | _ => none

/-- The side condition on a run: no difference `when - now` that `setTimer` computes overflows. -/
def NoOverflow (q : TimerQueue) (l : Label) : Prop :=
  ∀ w ∈ q.setTimerArg l, InRange (w - q.clock)

instance (q : TimerQueue) (l : Label) : Decidable (NoOverflow q l) :=
  match h : q.setTimerArg l with
  | none => isTrue (by simp [NoOverflow, h])
  | some w => decidable_of_iff (InRange (w - q.clock)) (by simp [NoOverflow, h])

/-! ## One call of `setTimer` -/

theorem int64_of_inRange {x : Int} (range : InRange x) : int64 x = x := by
  obtain ⟨low, high⟩ := range
  unfold int64
  rw [Int.bmod_eq_of_le] <;> omega

theorem duration_eq_max {w now : Int} (range : InRange (w - now)) :
    duration w now = max (w - now) oneMs := by
  simp only [duration, int64_of_inRange range]
  split <;> omega

/-- The two fields of the timespec are those of a duration of at least one millisecond. -/
theorem timespec_valid {d : Int} (long : oneMs ≤ d) :
    0 ≤ d.tdiv nanoDen ∧ 0 ≤ d.tmod nanoDen ∧ d.tmod nanoDen < nanoDen ∧
      d.tdiv nanoDen * nanoDen + d.tmod nanoDen = d := by
  have positive : 0 ≤ d := by
    have : (0 : Int) ≤ oneMs := by decide
    omega
  refine ⟨Int.tdiv_nonneg positive (by decide), Int.tmod_nonneg _ positive, ?_, ?_⟩
  · exact Int.tmod_lt_of_pos _ (by decide)
  · rw [Int.mul_comm]
    exact Int.mul_tdiv_add_tmod d nanoDen

theorem oneMs_le_duration (w now : Int) : oneMs ≤ duration w now := by
  simp only [duration]
  split <;> omega

/-- What `setTimer(w)` arms: the due time, or one millisecond from now if that is later. -/
theorem setTimer_timerfd {w : Int} (range : InRange (w - q.clock)) :
    (q.setTimer w).timerfd = some (max w (q.clock + oneMs)) := by
  have sum := (timespec_valid (oneMs_le_duration w q.clock)).2.2.2
  rw [duration_eq_max range] at sum
  simp only [setTimer, duration_eq_max range, sum, Option.some.injEq]
  omega

/-! ## The invariant -/

/-- A call of `timerfd_settime` got a valid, non-zero timespec equal to the clamped duration. -/
def Event.validTimespec : Event → Prop
  | .settime w now sec nsec => 0 ≤ sec ∧ 0 ≤ nsec ∧ nsec < nanoDen ∧ ¬ (sec = 0 ∧ nsec = 0) ∧
      sec * nanoDen + nsec = max (w - now) oneMs
  | _ => True

/-- The timerfd is armed no later than any entry of the set is due. -/
def ArmedFor (timerfd : Option Int) (timers : OrderedSet TimerEntry)
    (lastSet : Int) : Prop :=
  timers.toList ≠ [] →
    ∃ x, timerfd = some x ∧ ∀ e ∈ timers, x ≤ max e.when (lastSet + oneMs)

/-- Between operations the timerfd is armed for the set, and every call of `timerfd_settime` so
far was valid. -/
structure Armed (q : TimerQueue) : Prop where
  armed : q.phase = .idle → ArmedFor q.timerfd q.timers q.lastSet
  valid : ∀ e ∈ q.log, e.validTimespec

theorem when_mono {e d : TimerEntry} (le : e ≤ d) : e.when ≤ d.when := by
  rcases Prod.Lex.le_iff.mp le with less | ⟨same, _⟩
  · exact le_of_lt less
  · exact le_of_eq same

theorem Armed.create (now : Int) : Armed (create now) where
  armed := by
    intro _ nonempty
    exact absurd rfl nonempty
  valid := by simp [TimerQueue.create]

/-- An event that is no call of `timerfd_settime` keeps the history valid. -/
theorem valid_append {log : List Event} {e : Event} (valid : ∀ d ∈ log, d.validTimespec)
    (new : e.validTimespec) : ∀ d ∈ log ++ [e], d.validTimespec := by
  intro d member
  rcases List.mem_append.mp member with old | last
  · exact valid d old
  · rw [List.mem_singleton.mp last]
    exact new

/-- Arming for the first entry arms for the whole set. -/
theorem Armed.setTimer {w : Int} (valid : ∀ e ∈ q.log, e.validTimespec)
    (range : InRange (w - q.clock)) (first : ∀ e ∈ q.timers, w ≤ e.when) :
    Armed (q.setTimer w) where
  armed := by
    intro _ _
    refine ⟨_, setTimer_timerfd range, ?_⟩
    intro e member
    have due : w ≤ e.when := first e member
    show max w (q.clock + oneMs) ≤ max e.when (q.clock + oneMs)
    omega
  valid := by
    apply valid_append valid
    have long := oneMs_le_duration w q.clock
    obtain ⟨sec, nsec, small, sum⟩ := timespec_valid long
    refine ⟨sec, nsec, small, ?_, by rw [sum, duration_eq_max range]⟩
    rintro ⟨noSec, noNsec⟩
    rw [noSec, noNsec] at sum
    rw [← sum] at long
    exact absurd long (by decide)

/-- A step that leaves the queue inside `handleRead` has nothing to arm. -/
theorem Armed.busy (valid : ∀ e ∈ q.log, e.validTimespec) (here : q.phase ≠ .idle) : Armed q where
  armed := fun idle => absurd idle here
  valid := valid

/-- Removing entries needs no new arming. -/
theorem ArmedFor.mono {timerfd : Option Int} {timers timers' : OrderedSet TimerEntry}
    {lastSet : Int} (armed : ArmedFor timerfd timers lastSet)
    (sub : ∀ e, e ∈ timers' → e ∈ timers) : ArmedFor timerfd timers' lastSet := by
  intro nonempty
  have before : timers.toList ≠ [] := by
    intro empty
    apply nonempty
    rw [List.eq_nil_iff_forall_not_mem]
    intro e member
    have absent := sub e member
    rw [OrderedSet.mem_def, empty] at absent
    cases absent
  obtain ⟨x, expiry, early⟩ := armed before
  exact ⟨x, expiry, fun e member => early e (sub e member)⟩

/-- An insertion that does not become the first entry needs no new arming. -/
theorem ArmedFor.insert {timerfd : Option Int} {timers : OrderedSet TimerEntry}
    {lastSet : Int} (armed : ArmedFor timerfd timers lastSet) {new : TimerEntry}
    (later : (timers.insert new).begin? ≠ some new) :
    ArmedFor timerfd (timers.insert new) lastSet := by
  intro _
  cases first : (timers.insert new).begin? with
  | none =>
    have member : new ∈ timers.insert new := OrderedSet.mem_insert.mpr (.inl rfl)
    rw [OrderedSet.mem_def, OrderedSet.begin?_eq_none.mp first] at member
    cases member
  | some e =>
    have old : e ∈ timers := by
      rcases OrderedSet.mem_insert.mp (OrderedSet.mem_of_begin? first) with rfl | old
      · exact absurd first later
      · exact old
    obtain ⟨x, expiry, early⟩ := armed (List.ne_nil_of_mem old)
    refine ⟨x, expiry, fun d member => ?_⟩
    have due : e.when ≤ d.when := when_mono (OrderedSet.begin?_le first member)
    have bound := early e old
    omega

/-! ## The operations -/

theorem Armed.addTimer (inv : Armed q) (a : Addr) (w : Int) (interval : Int)
    (range : NoOverflow q (.addTimer a w interval)) : Armed (q.addTimer a w interval) := by
  simp only [TimerQueue.addTimer, insertTimer]
  split
  · rename_i first
    refine Armed.setTimer inv.valid ?_ fun e member => when_mono (OrderedSet.begin?_le first member)
    exact range w (by simp only [setTimerArg, if_pos first, Option.mem_def])
  · rename_i later
    exact ⟨fun idle => (inv.armed idle).insert later, inv.valid⟩

theorem delete_valid (a : Addr) (valid : ∀ e ∈ q.log, e.validTimespec) :
    ∀ e ∈ (q.delete a).log, e.validTimespec := by
  unfold delete
  split
  · exact valid_append valid (e := .useFreed a) trivial
  · exact valid

theorem Armed.delete (inv : Armed q) (a : Addr) : Armed (q.delete a) where
  armed := by
    obtain ⟨timerfd, timers, lastSet, phase⟩ := delete_frame (q := q) a
    rw [timerfd, timers, lastSet, phase]
    exact inv.armed
  valid := delete_valid a inv.valid

theorem Armed.cancelTimer (inv : Armed q) (a : Addr) : Armed (q.cancelTimer a) := by
  unfold TimerQueue.cancelTimer
  split
  · exact ⟨inv.armed, valid_append inv.valid (e := .useFreed a) trivial⟩
  · rename_i t live
    have valid : ∀ e ∈ (if t.canceled then q.log ++ [.assertFailed] else q.log),
        e.validTimespec := by
      split
      · exact valid_append inv.valid (e := .assertFailed) trivial
      · exact inv.valid
    dsimp only
    split
    · apply Armed.delete
      refine ⟨fun idle => (inv.armed idle).mono fun e member => ?_, valid⟩
      exact (OrderedSet.mem_erase.mp member).2
    · exact ⟨inv.armed, valid⟩

theorem Armed.visit (inv : Armed q) (e : TimerEntry) (rest : List TimerEntry) :
    Armed (q.visit e rest) := by
  unfold TimerQueue.visit
  split
  · exact Armed.busy (valid_append inv.valid (e := .useFreed _) trivial) (by simp)
  · split
    · apply Armed.delete
      exact Armed.busy inv.valid (by simp)
    · exact Armed.busy (valid_append inv.valid (e := .run _) trivial) (by simp)

theorem Armed.afterRun (inv : Armed q) (e : TimerEntry) (rest : List TimerEntry) :
    Armed (q.afterRun e rest) := by
  unfold TimerQueue.afterRun
  split
  · exact Armed.busy (valid_append inv.valid (e := .useFreed _) trivial) (by simp)
  · split
    · exact Armed.busy inv.valid (by simp)
    · apply Armed.delete
      exact Armed.busy inv.valid (by simp)

/-- `handleRead` ends with a timerfd armed for whatever is left. -/
theorem Armed.rearm (inv : Armed q) (here : q.phase = .expiring [])
    (range : NoOverflow q .next) : Armed q.rearm := by
  unfold TimerQueue.rearm
  split
  · rename_i e first
    refine Armed.setTimer inv.valid ?_ fun d member => when_mono (OrderedSet.begin?_le first member)
    exact range e.when (by simp [setTimerArg, here, first])
  · rename_i empty
    refine ⟨fun _ nonempty => ?_, inv.valid⟩
    exact absurd (OrderedSet.begin?_eq_none.mp empty) nonempty

theorem Armed.move (inv : Armed q) (good : NoOverflow q l) (taken : Move q l q') : Armed q' := by
  cases taken with
  | tick ns => exact ⟨inv.armed, inv.valid⟩
  | addTimer a w interval free => exact inv.addTimer a w interval good
  | cancelTimer a => exact inv.cancelTimer a
  | handleRead here =>
    refine Armed.busy ?_ (by simp)
    show ∀ e ∈ q.readTimerfd.log, e.validTimespec
    rw [readTimerfd_log]
    exact inv.valid
  | getExpired here => exact Armed.busy inv.valid (by simp [TimerQueue.getExpired])
  | visit e rest here => exact inv.visit e rest
  | rearm here => exact inv.rearm here good
  | afterRun e rest here => exact inv.afterRun e rest

theorem armed_reachable {now : Int} (reached : Reaches step NoOverflow (create now) q) :
    Armed q :=
  reached.invariant (Armed.create now) fun _ _ _ _ inv good taken =>
    inv.move good (move_of_step taken)

/-- No timer is forgotten: between operations a non-empty set has a timerfd that has expired
unread or is armed no later than the earliest due time and the last arming plus one millisecond,
whichever is later; and every timespec given to `timerfd_settime` was valid. -/
structure NotForgotten (q : TimerQueue) : Prop where
  armed : q.phase = .idle → q.timers.toList ≠ [] → ∃ x, q.timerfd = some x ∧
    (x ≤ q.clock ∨ ∀ e ∈ q.timers, x ≤ max e.when (q.lastSet + oneMs))
  valid : ∀ e ∈ q.log, e.validTimespec

theorem notForgotten_reachable {now : Int}
    (reached : Reaches step NoOverflow (create now) q) : NotForgotten q := by
  have inv := armed_reachable reached
  refine ⟨fun idle nonempty => ?_, inv.valid⟩
  obtain ⟨x, expiry, early⟩ := inv.armed idle nonempty
  exact ⟨x, expiry, .inr early⟩

/-- Two timers; the first one is cancelled, and the timerfd stays armed for its due time. -/
theorem notForgotten_after_cancel :
    ∃ q : TimerQueue, q.timers.toList = [timerEntry 9000000 16] ∧ q.timerfd = some 5000000 ∧
      NotForgotten q := by
  have run : ∃ q : TimerQueue, Reaches step NoOverflow (create 0) q ∧
      (q.timers.toList = [timerEntry 9000000 16] ∧ q.timerfd = some 5000000) :=
    exists_reaches_of_exec [.addTimer 16 9000000 0, .tick 7, .addTimer 8 5000000 1000000,
      .cancelTimer 8] (by decide)
  obtain ⟨q, reached, timers, timerfd⟩ := run
  exact ⟨q, timers, timerfd, notForgotten_reachable reached⟩

end Yvent.TimerQueue
