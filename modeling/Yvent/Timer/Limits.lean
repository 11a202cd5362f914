import Yvent.Timer.Expiry
import Mathlib.Logic.Function.Iterate

/-!
# Timers at the limits of the clock

A due time is the sum of a clock value and an interval, or of a due time and an interval, and wraps
with it. A callback is never started before the due time of its timer; so what is left to ask is
whether that due time is the one that was meant. It is, as long as the mathematical sum is one of
64 bits; the first sum that is not wraps into the past.
-/

namespace Yvent.TimerQueue

variable {q q' u u' : TimerQueue} {l : Label} {a : Addr} {t : Timer} {i k : Nat}
  {first interval now w x : Int}

/-- `EventLoop::runAfter`, for which the allocator answers a free address. -/
def runAfter (q : TimerQueue) (timer : Addr) (interval : Int) : TimerQueue :=
  q.addTimer timer (int64 (q.clock + interval)) 0

/-- `EventLoop::runEvery`. -/
def runEvery (q : TimerQueue) (timer : Addr) (interval : Int) : TimerQueue :=
  q.addTimer timer (int64 (q.clock + interval)) interval

/-- The due time of a timer behind so many calls of `restart`. -/
def dueTime (first interval : Int) : Nat → Int
  | 0 => first
  | k + 1 => int64 (dueTime first interval k + interval)

/-! ## Sums and differences -/

/-- A sum that wraps comes out too small. -/
theorem int64_le (low : -2 ^ 63 ≤ x) : int64 x ≤ x := by
  by_cases high : x < 2 ^ 63
  · exact le_of_eq (int64_of_inRange ⟨low, high⟩)
  · have below : int64 x < 2 ^ 63 := Int.bmod_lt (by decide)
    omega

theorem le_int64_iff (low : -2 ^ 63 ≤ x) : x ≤ int64 x ↔ x < 2 ^ 63 := by
  constructor
  · intro le
    have below : int64 x < 2 ^ 63 := Int.bmod_lt (by decide)
    omega
  · intro high
    exact le_of_eq (int64_of_inRange ⟨low, high⟩).symm

theorem when_restart : (Timer.restart^[k] t).when = dueTime t.when t.interval k ∧
    (Timer.restart^[k] t).interval = t.interval := by
  induction k with
  | zero => exact ⟨rfl, rfl⟩
  | succ k ih =>
    rw [Function.iterate_succ_apply', Timer.restart, ih.1, ih.2]
    exact ⟨rfl, rfl⟩

/-- The first sum that does not fit wraps into the past. -/
theorem int64_past {now d : Int} (clock : InRange now) (range : InRange d)
    (high : 2 ^ 63 ≤ now + d) : int64 (now + d) ≤ now := by
  obtain ⟨low, below⟩ := clock
  have wrapped : int64 (now + d) = now + d - 2 ^ 64 := by
    rw [int64, Int.bmod_eq_iff (by decide)]
    have small := range.2
    exact ⟨by omega, by omega, -1, by omega⟩
  have small := range.2
  omega

/-- Whatever wraps on the way, the due time is the sum, wrapped once. -/
theorem dueTime_int64 : dueTime (int64 x) interval k = int64 (x + k * interval) := by
  induction k with
  | zero => rw [dueTime, Int.natCast_zero, Int.zero_mul, Int.add_zero]
  | succ k ih =>
    rw [dueTime, ih, int64, int64, Int.bmod_add_bmod, ← int64]
    congr 1
    rw [Int.natCast_add, Int.add_mul, Int.add_assoc]
    simp

/-- A due time is not too early exactly when its sum does not wrap. -/
theorem dueTime_exact (low : -2 ^ 63 ≤ x) (nonneg : 0 ≤ interval) :
    x + k * interval ≤ dueTime (int64 x) interval k ↔ x + k * interval < 2 ^ 63 := by
  have more : 0 ≤ k * interval := Int.mul_nonneg (Int.natCast_nonneg k) nonneg
  rw [dueTime_int64]
  exact le_int64_iff (by omega)

/-- The difference that `setTimer` computes is the one meant, or both are below a millisecond. -/
def ArmsExactly (w now : Int) : Prop := InRange (w - now) ∨ w - now + 2 ^ 64 ≤ oneMs

instance (w now : Int) : Decidable (ArmsExactly w now) := inferInstanceAs (Decidable (_ ∨ _))

theorem duration_exact (when : InRange w) (clock : InRange now) :
    duration w now = max (w - now) oneMs ↔ ArmsExactly w now := by
  obtain ⟨lowW, highW⟩ := when
  obtain ⟨lowNow, highNow⟩ := clock
  have ms : oneMs = 1000000 := rfl
  by_cases range : InRange (w - now)
  · exact iff_of_true (duration_eq_max range) (.inl range)
  · rw [ArmsExactly, or_iff_right range]
    by_cases late : 2 ^ 63 ≤ w - now
    · -- a point too far in the future counts as past
      have wrapped : int64 (w - now) = w - now - 2 ^ 64 := by
        rw [int64, Int.bmod_eq_iff (by decide)]
        exact ⟨by omega, by omega, -1, by omega⟩
      rw [duration, wrapped]
      split <;> omega
    · -- a point too far in the past counts as future
      have early : w - now < -2 ^ 63 := by
        by_contra above
        exact range ⟨by omega, by omega⟩
      have wrapped : int64 (w - now) = w - now + 2 ^ 64 := by
        rw [int64, Int.bmod_eq_iff (by decide)]
        exact ⟨by omega, by omega, 1, by omega⟩
      rw [duration, wrapped]
      split <;> omega

/-- What the timerfd counts from the moment of the call. -/
theorem setTimer_exact (when : InRange w) (clock : InRange q.clock) :
    (q.setTimer w).timerfd = some (q.clock + max (w - q.clock) oneMs) ↔ ArmsExactly w q.clock := by
  have sum := (timespec_valid (oneMs_le_duration w q.clock)).2.2.2
  rw [← duration_exact when clock]
  simp only [setTimer, sum, Option.some.injEq]
  exact Int.add_right_inj ..

/-! ## Callbacks and due times -/

/-- The clock is not before that of the start, and what the batch still holds is due. -/
structure BatchDue (q : TimerQueue) : Prop where
  clock : -2 ^ 63 ≤ q.clock
  due : ∀ e ∈ q.phase.pending, e.when ≤ q.clock

theorem delete_clock : (q.delete a).clock = q.clock := by
  unfold delete
  split <;> rfl

theorem addTimer_clock : (q.addTimer a first interval).clock = q.clock := by
  simp only [addTimer, insertTimer]
  split <;> rfl

/-- The clock only goes forward. -/
theorem Move.clock_le (taken : Move q l q') : q.clock ≤ q'.clock := by
  cases taken with
  | tick ns => exact Int.le_add_of_nonneg_right (Int.natCast_nonneg ns)
  | addTimer b when interval => rw [addTimer_clock]
  | cancelTimer b =>
    unfold TimerQueue.cancelTimer
    split
    · exact le_rfl
    · dsimp only
      split
      · rw [delete_clock]
      · exact le_rfl
  | handleRead =>
    unfold readTimerfd
    split
    · split <;> exact le_rfl
    · exact le_rfl
  | getExpired => exact le_rfl
  | visit e rest =>
    unfold TimerQueue.visit
    split
    · exact le_rfl
    · split
      · rw [delete_clock]
      · exact le_rfl
  | rearm =>
    unfold TimerQueue.rearm
    split <;> exact le_rfl
  | afterRun e rest =>
    unfold TimerQueue.afterRun
    split
    · exact le_rfl
    · split
      · exact le_rfl
      · rw [delete_clock]

/-- Only `getExpired` puts entries into the batch. -/
theorem Move.pending_subset (taken : Move q l q') :
    q'.phase.pending ⊆ q.phase.pending ∨ q' = q.getExpired := by
  cases taken with
  | tick => exact .inl fun _ => id
  | addTimer b when interval =>
    rw [addTimer_phase]
    exact .inl fun _ => id
  | cancelTimer b =>
    rw [cancelTimer_phase]
    exact .inl fun _ => id
  | handleRead here => exact .inl (List.nil_subset _)
  | getExpired => exact .inr rfl
  | visit e rest here =>
    rw [here]
    rcases visit_phase q e rest with phase | phase <;> rw [phase]
    · exact .inl (List.subset_cons_self e rest)
    · exact .inl fun _ => id
  | rearm here =>
    rw [rearm_phase]
    exact .inl (List.nil_subset _)
  | afterRun e rest here =>
    rw [afterRun_phase, here]
    exact .inl (List.subset_cons_self e rest)

/-- `getExpired` takes due entries only, also at the maximum of the clock. -/
theorem BatchDue.getExpired (inv : BatchDue q) : BatchDue q.getExpired where
  clock := inv.clock
  due := by
    intro e member
    have low := inv.clock
    have bound : int64 (q.clock + 1) ≤ q.clock + 1 := int64_le (by omega)
    have below : e ∈ q.timers.below (timerEntry (int64 (q.clock + 1)) 0) := member
    rw [OrderedSet.below_eq_filter, List.mem_filter, decide_eq_true_eq, Prod.Lex.lt_iff] at below
    rcases below.2 with early | ⟨-, none⟩
    · have early : e.when < int64 (q.clock + 1) := early
      show e.when ≤ q.clock
      omega
    · exact absurd none (Nat.not_lt_zero _)

theorem BatchDue.move (inv : BatchDue q) (taken : Move q l q') : BatchDue q' := by
  have later := taken.clock_le
  rcases taken.pending_subset with kept | rfl
  · refine ⟨le_trans inv.clock later, ?_⟩
    intro e member
    exact le_trans (inv.due e (kept member)) later
  · exact inv.getExpired

theorem batchDue_reachable (start : InRange now) (reached : Reaches step anyStep (create now) q) :
    BatchDue q := by
  refine reached.invariant ⟨start.1, ?_⟩ fun _ _ _ _ inv _ taken => inv.move (move_of_step taken)
  intro e member
  cases member

theorem rearm_runs : runs q.rearm.log = runs q.log := by
  unfold rearm
  split
  · exact (runs_append ..).trans (List.append_nil _)
  · rfl

/-- The step in which a callback is started. -/
theorem visit_of_run (fits : Fits q []) (taken : Move q l q')
    (ran : runs q'.log = runs q.log ++ [i]) :
    ∃ e rest t, q.phase = .expiring (e :: rest) ∧ q.heap e.timer = some t ∧ t.serial = i ∧
      t.when = e.when ∧
      q' = { q with phase := .running e rest, log := q.log ++ [.run i] } := by
  have quiet : runs q'.log ≠ runs q.log := by
    rw [ran]
    simp
  cases taken with
  | visit e rest here =>
    have member : e ∈ q.entries := by simp [entries, here, Phase.pending]
    obtain ⟨t, live, key⟩ := (fits_nil.mp fits).keyed e member
    cases flag : t.canceled with
    | true =>
      rw [visit_canceled live flag, delete_log (q := { q with phase := .expiring rest }) live]
        at quiet
      exact absurd rfl quiet
    | false =>
      rw [visit_usable live flag] at ran ⊢
      rw [runs_append, List.append_cancel_left_eq] at ran
      cases ran
      exact ⟨e, rest, t, here, live, rfl, key, rfl⟩
  | getExpired => exact absurd rfl quiet
  | rearm => exact absurd rearm_runs quiet
  | tick ns => exact absurd rfl quiet
  | addTimer b when interval free =>
    exact absurd (runs_of_quiet (.addTimer b when interval free) (by simp)) quiet
  | cancelTimer b => exact absurd (runs_of_quiet (.cancelTimer b) (by simp)) quiet
  | handleRead here => exact absurd (runs_of_quiet (.handleRead here) (by simp)) quiet
  | afterRun e rest here => exact absurd (runs_of_quiet (.afterRun e rest here) (by simp)) quiet

/-! ## Repeated callbacks -/

/-- The callback of the timer at this address is running. -/
def inCallback (q : TimerQueue) (a : Addr) : Nat :=
  if q.phase.current.map TimerEntry.timer = some a then 1 else 0

/-- Timer number `i` has been restarted once for each of its callbacks that has returned. -/
structure Paced (i : Nat) (first interval : Int) (q : TimerQueue) : Prop where
  old : i < q.created
  due : ∀ a t, q.heap a = some t → t.serial = i → t.interval = interval ∧
    ∃ k, t.when = dueTime first interval k ∧ (runs q.log).count i = k + q.inCallback a

/-- A step that starts no callback and restarts no timer keeps the pace. -/
theorem Paced.keep (paced : Paced i first interval q) (created : q.created ≤ q'.created)
    (same : ∀ a t', q'.heap a = some t' → t'.serial = i →
      ∃ t, q.heap a = some t ∧ t.serial = i ∧ t'.interval = t.interval ∧ t'.when = t.when)
    (quiet : runs q'.log = runs q.log)
    (phase : ∀ a, q.heap a ≠ none → q'.inCallback a = q.inCallback a) :
    Paced i first interval q' where
  old := Nat.lt_of_lt_of_le paced.old created
  due := by
    intro a t' live serial
    obtain ⟨t, before, serialIs, intervalIs, when⟩ := same a t' live serial
    rw [intervalIs, when, quiet, phase a (by simp [before])]
    exact paced.due a t before serialIs

theorem cancelTimer_origin {t' : Timer} (live : (q.cancelTimer a).heap a = some t') :
    ∃ t, q.heap a = some t ∧ t'.serial = t.serial ∧ t'.interval = t.interval ∧
      t'.when = t.when := by
  unfold cancelTimer at live
  split at live
  · next free =>
    rw [free] at live
    cases live
  · next t before =>
    dsimp only at live
    split at live
    · simp [delete] at live
    · obtain ⟨-, new⟩ | ⟨other, -⟩ := update_eq_some.mp live
      · cases new
        exact ⟨t, before, rfl, rfl, rfl⟩
      · exact absurd rfl other

theorem inCallback_expiring {rest : List TimerEntry} (here : q.phase = .expiring rest) :
    q.inCallback a = 0 := by
  rw [inCallback, here]
  exact if_neg (by simp [Phase.current])

theorem Paced.visit (paced : Paced i first interval q) (fits : Fits q []) {e : TimerEntry}
    {rest : List TimerEntry} (here : q.phase = .expiring (e :: rest)) :
    Paced i first interval (q.visit e rest) := by
  have member : e ∈ q.entries := by simp [entries, here, Phase.pending]
  obtain ⟨t, live, -⟩ := (fits_nil.mp fits).keyed e member
  cases flag : t.canceled with
  | true =>
    have heap : (q.visit e rest).heap e.timer = none := by
      rw [visit_canceled live flag]
      simp [delete, live]
    have log : (q.visit e rest).log = q.log := by
      rw [visit_canceled live flag]
      exact delete_log (q := { q with phase := .expiring rest }) live
    have phase : (q.visit e rest).phase = .expiring rest := by
      rw [visit_canceled live flag]
      exact (delete_frame _).2.2.2
    refine paced.keep (Nat.le_of_eq (visit_tended e rest).created.symm) ?_ (by rw [log]) ?_
    · intro a t' after serial
      have other : a ≠ e.timer := by
        rintro rfl
        rw [heap] at after
        cases after
      rw [visit_heap other] at after
      exact ⟨t', after, serial, rfl, rfl⟩
    · intro a _
      rw [inCallback_expiring phase, inCallback_expiring here]
  | false =>
    rw [visit_usable live flag]
    refine ⟨paced.old, ?_⟩
    intro a t' after serial
    obtain ⟨intervalIs, k, when, count⟩ := paced.due a t' after serial
    rw [inCallback_expiring here] at count
    refine ⟨intervalIs, k, when, ?_⟩
    rw [runs_append, List.count_append, count]
    by_cases self : a = e.timer
    · subst self
      rw [live] at after
      cases after
      simp [inCallback, Phase.current, runs, Event.run?, serial]
    · have other : t.serial ≠ i := fun same =>
        self ((fits_nil.mp fits).injective a e.timer t' t after live (serial.trans same.symm))
      simp [inCallback, Phase.current, runs, Event.run?, other, Ne.symm self]

theorem Paced.afterRun (paced : Paced i first interval q) (fits : Fits q []) {e : TimerEntry}
    {rest : List TimerEntry} (here : q.phase = .running e rest) :
    Paced i first interval (q.afterRun e rest) := by
  have member : e ∈ q.entries := by simp [entries, here, Phase.pending]
  obtain ⟨t, live, -⟩ := (fits_nil.mp fits).keyed e member
  have others : ∀ a ≠ e.timer, q.inCallback a = 0 := by
    intro a other
    rw [inCallback, here]
    exact if_neg (by simp [Phase.current, Ne.symm other])
  refine ⟨by rw [(afterRun_tended e rest).created]; exact paced.old, ?_⟩
  intro a t' after serial
  rw [inCallback_expiring afterRun_phase, runs_of_quiet (.afterRun e rest here) (by simp)]
  by_cases self : a = e.timer
  · subst self
    unfold TimerQueue.afterRun at after
    simp only [live] at after
    split at after
    · obtain ⟨-, new⟩ | ⟨other, -⟩ := update_eq_some.mp after
      case inr => exact absurd rfl other
      cases new
      obtain ⟨intervalIs, k, when, count⟩ := paced.due e.timer t live serial
      refine ⟨intervalIs, k + 1, ?_, ?_⟩
      · show int64 (t.when + t.interval) = int64 (dueTime first interval k + interval)
        rw [when, intervalIs]
      · rw [count, inCallback, here]
        simp [Phase.current]
    · simp [delete, live] at after
  · rw [afterRun_heap self] at after
    have pace := paced.due a t' after serial
    rw [others a self] at pace
    exact pace

theorem Paced.move (paced : Paced i first interval q) (fits : Fits q []) (taken : Move q l q') :
    Paced i first interval q' := by
  cases taken with
  | tick ns =>
    exact paced.keep le_rfl (fun a t' live serial => ⟨t', live, serial, rfl, rfl⟩) rfl
      (fun _ _ => rfl)
  | addTimer b when interval' free =>
    refine paced.keep (by rw [addTimer_created]; exact Nat.le_succ _) ?_
      (runs_of_quiet (.addTimer b when interval' free) (by simp)) ?_
    · intro a t' live serial
      rw [addTimer_heap] at live
      rcases update_eq_some.mp live with ⟨-, new⟩ | ⟨-, before⟩
      · -- the number of a new timer is another one
        cases new
        exact absurd serial (Nat.ne_of_gt paced.old)
      · exact ⟨t', before, serial, rfl, rfl⟩
    · intro a _
      rw [inCallback, addTimer_phase, inCallback]
  | cancelTimer b =>
    refine paced.keep (Nat.le_of_eq (cancelTimer_tended b).created.symm) ?_
      (runs_of_quiet (.cancelTimer b) (by simp)) ?_
    · intro a t' live serial
      by_cases self : a = b
      · subst self
        obtain ⟨t, before, serialIs, intervalIs, when⟩ := cancelTimer_origin live
        exact ⟨t, before, serialIs ▸ serial, intervalIs, when⟩
      · rw [cancelTimer_heap self] at live
        exact ⟨t', live, serial, rfl, rfl⟩
    · intro a _
      rw [inCallback, cancelTimer_phase, inCallback]
  | handleRead here =>
    refine paced.keep (Nat.le_of_eq readTimerfd_tended.created.symm) ?_
      (runs_of_quiet (.handleRead here) (by simp)) ?_
    · intro a t' live serial
      have before : q.heap a = some t' := by rw [← readTimerfd_heap]; exact live
      exact ⟨t', before, serial, rfl, rfl⟩
    · intro a _
      rw [inCallback, inCallback, here]
      rfl
  | getExpired here =>
    refine paced.keep le_rfl (fun a t' live serial => ⟨t', live, serial, rfl, rfl⟩) rfl ?_
    intro a _
    rw [inCallback_expiring rfl, inCallback, here]
    rfl
  | visit e rest here => exact paced.visit fits here
  | rearm here =>
    refine paced.keep (Nat.le_of_eq rearm_tended.created.symm) ?_ rearm_runs ?_
    · intro a t' live serial
      rw [rearm_heap] at live
      exact ⟨t', live, serial, rfl, rfl⟩
    · intro a _
      rw [inCallback_expiring here, inCallback, rearm_phase]
      rfl
  | afterRun e rest here => exact paced.afterRun fits here

theorem mem_runs {log : List Event} : i ∈ runs log ↔ .run i ∈ log := by
  rw [runs, List.mem_filterMap]
  constructor
  · rintro ⟨event, member, same⟩
    cases event with
    | run j =>
      cases same
      exact member
    | useFreed | assertFailed | settime => cases same
  · exact fun member => ⟨_, member, rfl⟩

/-- Only timers that have been created are run. -/
theorem runs_lt_created (reached : Reaches step anyStep (create now) q) :
    ∀ i ∈ runs q.log, i < q.created := by
  refine reached.invariant (I := fun q => ∀ i ∈ runs q.log, i < q.created) ?_ ?_
  · intro i ran
    cases ran
  intro q l q' before old _ taken i ran
  have moved := move_of_step taken
  obtain ⟨added, log, cause⟩ := moved.log
  refine Nat.lt_of_lt_of_le ?_ moved.created_le
  rw [log, runs_append] at ran
  rcases List.mem_append.mp ran with earlier | new
  · exact old i earlier
  · obtain ⟨-, a, t, live, -, rfl⟩ := cause _ (mem_runs.mp new)
    exact ((fits_nil.mp (fits_reachable before)).numbered a t live).1

/-- A new timer has neither run nor been restarted. -/
theorem paced_addTimer (reached : Reaches step anyStep (create now) q) (free : q.heap a = none) :
    Paced q.created first interval (q.addTimer a first interval) where
  old := by
    rw [addTimer_created]
    exact Nat.lt_succ_self _
  due := by
    have fits := fits_nil.mp (fits_reachable reached)
    intro b t live serial
    rw [addTimer_heap] at live
    rcases update_eq_some.mp live with ⟨rfl, new⟩ | ⟨-, before⟩
    · cases new
      have unrun : q.created ∉ runs q.log := fun ran =>
        Nat.lt_irrefl _ (runs_lt_created reached _ ran)
      have outside : (q.addTimer b first interval).inCallback b = 0 := by
        rw [inCallback, addTimer_phase]
        apply if_neg
        intro running
        cases phase : q.phase with
        | running e rest =>
          rw [phase] at running
          cases running
          obtain ⟨t, live, -⟩ := fits.keyed e (by simp [entries, phase, Phase.pending])
          rw [free] at live
          cases live
        | idle | read | expiring rest =>
          rw [phase] at running
          cases running
      rw [outside, runs_of_quiet (.addTimer b first interval free) (by simp)]
      exact ⟨rfl, 0, rfl, List.count_eq_zero_of_not_mem unrun⟩
    · exact absurd serial (Nat.ne_of_lt (fits.numbered b t before).1)

/-- A callback is started at its due time or later. -/
theorem dueTime_le_clock (start : InRange now) (reached : Reaches step anyStep (create now) q)
    (allowed : step q (.addTimer a first interval) = some (q.addTimer a first interval))
    (later : Reaches step anyStep (q.addTimer a first interval) u) (taken : step u l = some u')
    (ran : u'.log = u.log ++ [.run q.created]) :
    dueTime first interval ((runs u.log).count q.created) ≤ u.clock := by
  have free : q.heap a = none := by
    cases move_of_step allowed with
    | addTimer _ _ _ free => exact free
  have whole := (reached.tail _ trivial allowed).trans later
  have fits := fits_reachable whole
  have paced : Paced q.created first interval u := by
    refine later.invariant (paced_addTimer reached free) ?_
    intro v l v' before paced _ taken
    exact paced.move (fits_reachable ((reached.tail _ trivial allowed).trans before))
      (move_of_step taken)
  have runs' : runs u'.log = runs u.log ++ [q.created] := by rw [ran, runs_append]; rfl
  obtain ⟨e, rest, t, here, live, serial, when, -⟩ := visit_of_run fits (move_of_step taken) runs'
  obtain ⟨-, k, due, count⟩ := paced.due e.timer t live serial
  rw [inCallback_expiring here, Nat.add_zero] at count
  rw [count, ← due, when]
  exact (batchDue_reachable start whole).due e (by simp [here, Phase.pending])

/-! ## Callbacks that are due are started -/

/-- What the rest of a batch leaves alone of a timer `a` that is not in it: the clock stands still,
and the timer and its entries stay. -/
structure Passed (q v : TimerQueue) (a : Addr) : Prop where
  reached : Reaches step anyStep q v
  clock : v.clock = q.clock
  heap : v.heap a = q.heap a
  timers : ∀ e, e.timer = a → e ∈ q.timers → e ∈ v.timers

theorem Passed.trans {v : TimerQueue} (first : Passed q v a) (second : Passed v u a) :
    Passed q u a where
  reached := first.reached.trans second.reached
  clock := second.clock.trans first.clock
  heap := second.heap.trans first.heap
  timers e same member := second.timers e same (first.timers e same member)

theorem passed_afterRun {e : TimerEntry} {rest : List TimerEntry}
    (here : q.phase = .running e rest) (other : a ≠ e.timer) : Passed q (q.afterRun e rest) a where
  reached := Reaches.refl.tail .ret trivial (by rw [step, here])
  clock := by
    unfold afterRun
    split
    · rfl
    · split
      · rfl
      · rw [delete_clock]
  heap := afterRun_heap other
  timers d _ member := by
    unfold afterRun
    split
    · exact member
    · split
      · exact OrderedSet.mem_insert.mpr (.inr member)
      · rw [(delete_frame _).2.1]
        exact member

theorem passed_visit {e : TimerEntry} {rest : List TimerEntry}
    (here : q.phase = .expiring (e :: rest)) (other : a ≠ e.timer) :
    Passed q (q.visit e rest) a where
  reached := Reaches.refl.tail .next trivial (by rw [step, here])
  clock := by
    unfold visit
    split
    · rfl
    · split
      · rw [delete_clock]
      · rfl
  heap := visit_heap other
  timers d _ member := by
    unfold visit
    split
    · exact member
    · split
      · rw [(delete_frame _).2.1]
        exact member
      · exact member

/-- The turn of another timer passes. -/
theorem exists_passed_turn {e : TimerEntry} {rest : List TimerEntry}
    (here : q.phase = .expiring (e :: rest)) (other : a ≠ e.timer) :
    ∃ v, Passed q v a ∧ v.phase = .expiring rest := by
  have visited := passed_visit here other
  rcases visit_phase q e rest with phase | phase
  · exact ⟨_, visited, phase⟩
  · exact ⟨_, visited.trans (passed_afterRun phase other), afterRun_phase⟩

/-- So do the turns of several. -/
theorem exists_passed_turns {before rest : List TimerEntry}
    (here : q.phase = .expiring (before ++ rest)) (others : ∀ e ∈ before, a ≠ e.timer) :
    ∃ v, Passed q v a ∧ v.phase = .expiring rest := by
  induction before generalizing q with
  | nil => exact ⟨q, ⟨.refl, rfl, rfl, fun _ _ => id⟩, here⟩
  | cons e before ih =>
    obtain ⟨other, others⟩ := List.forall_mem_cons.mp others
    obtain ⟨v, passed, phase⟩ := exists_passed_turn here other
    obtain ⟨v', passed', phase'⟩ := ih phase others
    exact ⟨v', passed.trans passed', phase'⟩

/-- A timer in `timers_` is in no batch. -/
theorem Waits.ne_timer (waits : Waits q a t) (fits : Fits q []) {e : TimerEntry}
    (member : e ∈ q.phase.pending) : a ≠ e.timer :=
  apart fits waits.entry member

/-- `handleRead` comes to its end, with a timer in `timers_` still there. -/
theorem exists_idle (waits : Waits q a t) (fits : Fits q []) (user : q.phase.userCode = true) :
    ∃ v, Passed q v a ∧ v.phase = .idle := by
  cases phase : q.phase with
  | idle => exact ⟨q, ⟨.refl, rfl, rfl, fun _ _ => id⟩, phase⟩
  | running e rest =>
    have others : ∀ d ∈ e :: rest, a ≠ d.timer := by
      intro d member
      exact waits.ne_timer fits (by rw [phase]; exact member)
    obtain ⟨other, others⟩ := List.forall_mem_cons.mp others
    have returned := passed_afterRun phase other
    have batch : (q.afterRun e rest).phase = .expiring (rest ++ []) := by
      rw [afterRun_phase, List.append_nil]
    obtain ⟨v, passed, ended⟩ := exists_passed_turns batch others
    have rearmed : Passed v v.rearm a := {
      reached := Reaches.refl.tail .next trivial (by rw [step, ended])
      clock := by
        unfold rearm
        split <;> rfl
      heap := by rw [rearm_heap]
      timers := by
        intro d _ member
        unfold rearm
        split <;> exact member }
    exact ⟨_, (returned.trans passed).trans rearmed, rearm_phase⟩
  | read | expiring rest =>
    rw [phase] at user
    cases user

theorem Fits.run (fits : Fits q []) (reached : Reaches step anyStep q u) : Fits u [] :=
  reached.invariant (I := (Fits · [])) fits fun _ _ _ _ fits _ taken => fits.move (move_of_step taken)

theorem readTimerfd_frame : q.readTimerfd.clock = q.clock ∧ q.readTimerfd.timers = q.timers := by
  unfold readTimerfd
  split
  · split <;> exact ⟨rfl, rfl⟩
  · exact ⟨rfl, rfl⟩

/-- A timer that is due can be run at once. -/
theorem exists_run (waits : Waits q a t) (fits : Fits q []) (user : q.phase.userCode = true)
    (usable : t.canceled = false) (due : t.when ≤ q.clock) (range : InRange (q.clock + 1)) :
    ∃ u u', Reaches step anyStep q u ∧ step u .next = some u' ∧
      u'.log = u.log ++ [.run t.serial] ∧ u.clock = q.clock := by
  obtain ⟨v, passed, idle⟩ := exists_idle waits fits user
  let e := timerEntry t.when a
  let v₁ : TimerQueue := { v.readTimerfd with phase := .read }
  have clock : v₁.clock = q.clock := readTimerfd_frame.1.trans passed.clock
  have reading : Reaches step anyStep q v₁ :=
    passed.reached.tail .handleRead trivial (by rw [step, idle])
  have expired : Reaches step anyStep q v₁.getExpired := reading.tail .next trivial rfl
  have cut := (getExpired_cut (q := v₁) (by rw [clock]; exact range)).1
  have member : e ∈ v₁.due := by
    have inSet : e ∈ v₁.timers := by
      show e ∈ v.readTimerfd.timers
      rw [readTimerfd_frame.2]
      exact passed.timers e rfl waits.entry
    refine List.mem_filter.mpr ⟨inSet, decide_eq_true ?_⟩
    rw [clock]
    exact due
  obtain ⟨before, after, batch⟩ := List.append_of_mem member
  rw [batch] at cut
  have fits' := fits.run expired
  have others : ∀ d ∈ before, a ≠ d.timer := by
    intro d earlier
    have nodup := pending_nodup fits'
    rw [cut] at nodup
    have inBatch : ∀ c ∈ before ++ e :: after, c ∈ v₁.getExpired.entries := by
      intro c there
      refine List.mem_append_right _ ?_
      rw [cut]
      exact there
    refine timer_ne (e := e) fits' (inBatch e (by simp)) (inBatch d (by simp [earlier])) ?_
    rintro rfl
    exact (List.nodup_append.mp nodup).2.2 _ earlier _ List.mem_cons_self rfl
  obtain ⟨u, turn, here⟩ := exists_passed_turns cut others
  have live : u.heap a = some t := by
    rw [turn.heap, ← waits.live, ← passed.heap]
    exact congrFun readTimerfd_heap a
  refine ⟨u, u.visit e after, expired.trans turn.reached, by rw [step, here], ?_, ?_⟩
  · rw [visit_usable live usable]
  · exact turn.clock.trans clock

/-! ## What was meant -/

/-- In every run from `q`, the `k`-th callback of timer number `i` is not started before the time
`meant`. -/
def StartsInTime (q : TimerQueue) (i k : Nat) (meant : Int) : Prop :=
  ∀ u l u', Reaches step anyStep q u → step u l = some u' → u'.log = u.log ++ [.run i] →
    (runs u'.log).count i = k → meant ≤ u.clock

theorem startsInTime_addTimer (start : InRange now) (reached : Reaches step anyStep (create now) q)
    (allowed : step q (.addTimer a (int64 x) interval) = some (q.addTimer a (int64 x) interval))
    (low : -2 ^ 63 ≤ x) (nonneg : 0 ≤ interval) (high : x + (k - 1) * interval < 2 ^ 63) :
    StartsInTime (q.addTimer a (int64 x) interval) q.created k (x + (k - 1) * interval) := by
  intro u l u' later taken ran count
  have due := dueTime_le_clock start reached allowed later taken ran
  have before : k = (runs u.log).count q.created + 1 := by
    rw [← count, ran, runs_append, List.count_append]
    simp [runs, Event.run?]
  have meant : x + ((k : Int) - 1) * interval = x + (runs u.log).count q.created * interval := by
    rw [before]
    simp
  rw [meant] at high ⊢
  exact le_trans ((dueTime_exact low nonneg).mpr high) due

/-- Where the first sum wraps, the callback can be started at once. -/
theorem exists_early_run (reached : Reaches step anyStep (create now) q)
    (user : q.phase.userCode = true) (clock : InRange q.clock) (below : q.clock + 1 < 2 ^ 63)
    (free : q.heap a = none) {d : Int} (range : InRange d) (high : 2 ^ 63 ≤ q.clock + d) :
    ∃ k, ¬StartsInTime (q.runAfter a d) q.created k (q.clock + d) := by
  have fits : Fits (q.runAfter a d) [] := (fits_reachable reached).addTimer free _ _
  have waits : Waits (q.runAfter a d) a (.create (int64 (q.clock + d)) 0 q.created) :=
    waits_of_addTimer q a
  have standing : (q.runAfter a d).clock = q.clock := addTimer_clock
  have next : InRange ((q.runAfter a d).clock + 1) := by
    rw [standing]
    exact ⟨le_trans clock.1 (Int.le_add_of_nonneg_right (by decide)), below⟩
  have due : int64 (q.clock + d) ≤ (q.runAfter a d).clock := by
    rw [standing]
    exact int64_past clock range high
  have calls : (q.runAfter a d).phase.userCode = true := by
    rw [runAfter, addTimer_phase]
    exact user
  obtain ⟨u, u', later, taken, ran, still⟩ := exists_run waits fits calls rfl due next
  refine ⟨(runs u'.log).count q.created, fun inTime => ?_⟩
  have late := inTime u _ u' later taken ran rfl
  rw [still, standing] at late
  have small := clock.2
  omega

/-- Timers at their limits. A callback is not started before the time meant for it, so long as that
time is one of 64 bits, nor is its timer due before exactly then. `setTimer` arms for what is meant
exactly when the difference that it computes is right, or both are below a millisecond. -/
theorem exact_at_limits (start : InRange now) (reached : Reaches step anyStep (create now) q)
    (user : q.phase.userCode = true) (clock : InRange q.clock) (nonnull : a ≠ 0)
    (free : q.heap a = none) {d : Int} (nonneg : 0 ≤ d) (range : InRange d) (when : InRange w) :
    (q.clock + d < 2 ^ 63 → ∀ k, StartsInTime (q.runAfter a d) q.created k (q.clock + d)) ∧
      (q.clock + 1 < 2 ^ 63 → (∀ k, StartsInTime (q.runAfter a d) q.created k (q.clock + d)) →
        q.clock + d < 2 ^ 63) ∧
      (∀ k : Nat, q.clock + k * d < 2 ^ 63 →
        StartsInTime (q.runEvery a d) q.created k (q.clock + k * d)) ∧
      (∀ t, (q.runAfter a d).heap a = some t →
        (q.clock + d ≤ t.when ↔ q.clock + d < 2 ^ 63)) ∧
      (∀ t, (q.runEvery a d).heap a = some t → ∀ k : Nat,
        q.clock + (k + 1) * d ≤ (Timer.restart^[k] t).when ↔ q.clock + (k + 1) * d < 2 ^ 63) ∧
      ((q.setTimer w).timerfd = some (q.clock + max (w - q.clock) oneMs) ↔
        ArmsExactly w q.clock) := by
  have low : -2 ^ 63 ≤ q.clock + d := le_trans clock.1 (Int.le_add_of_nonneg_right nonneg)
  have allowed : ∀ when interval, step q (.addTimer a when interval) =
      some (q.addTimer a when interval) := fun _ _ => if_pos ⟨user, nonnull, free⟩
  refine ⟨?_, ?_, ?_, ?_, ?_, setTimer_exact when clock⟩
  · intro high k
    have inTime := startsInTime_addTimer (k := k) start reached (allowed _ 0) low le_rfl
    simp only [Int.mul_zero, Int.add_zero] at inTime
    exact inTime high
  · intro below inTime
    by_contra high
    obtain ⟨k, early⟩ :=
      exists_early_run reached user clock below free range (Int.not_lt.mp high)
    exact early (inTime k)
  · intro k high
    have meant : q.clock + d + ((k : Int) - 1) * d = q.clock + k * d := by
      rw [Int.sub_mul, Int.one_mul]
      omega
    have inTime := startsInTime_addTimer (k := k) start reached (allowed _ d) low nonneg
    rw [meant] at inTime
    exact inTime high
  · intro t live
    rw [runAfter, addTimer_heap, Function.update_self] at live
    cases live
    exact le_int64_iff low
  · intro t live k
    rw [runEvery, addTimer_heap, Function.update_self] at live
    cases live
    have meant : q.clock + ((k : Int) + 1) * d = q.clock + d + k * d := by
      rw [Int.add_mul, Int.one_mul]
      omega
    rw [when_restart.1, meant]
    exact dueTime_exact low nonneg

theorem exact_at_limits_repeating :
    StartsInTime ((create 0).runEvery 8 2000000000) 0 3 6000000000 ∧
      ((create 0).setTimer 7000000000).timerfd = some 7000000000 := by
  obtain ⟨-, -, every, -, -, armed⟩ := exact_at_limits (show InRange 0 by decide) .refl rfl
    (by decide) (show (8 : Addr) ≠ 0 by decide) rfl (show (0 : Int) ≤ 2000000000 by decide)
    (by decide) (show InRange 7000000000 by decide)
  exact ⟨every 3 (by decide), armed.mpr (by decide)⟩

/-- A timer has expired. Before it is read, another callback of the same round of the loop asks for
the longest interval there is; the due time lies in the past, and `handleRead` starts the callback
at once. -/
theorem longest_interval_runs_at_once :
    ∃ q : TimerQueue, Reaches step anyStep (create 0) q ∧ q.clock = 1000000 ∧
      q.timerfd = some 1000000 ∧
      ¬StartsInTime (q.runAfter 16 (2 ^ 63 - 1)) q.created 1 (q.clock + (2 ^ 63 - 1)) := by
  obtain ⟨q, reached, clock, expired, run⟩ :
      ∃ q : TimerQueue, Reaches step anyStep (create 0) q ∧ q.clock = 1000000 ∧
        q.timerfd = some 1000000 ∧
        (exec step [.handleRead, .next] (q.runAfter 16 (2 ^ 63 - 1))).any (fun u =>
          (step u .next).any fun u' => u'.log = u.log ++ [.run q.created] ∧
            (runs u'.log).count q.created = 1 ∧ u.clock = 1000000) = true :=
    exists_reaches_of_exec [.addTimer 8 1000000 0, .tick 1000000] (by decide +kernel)
  obtain ⟨u, before, run⟩ := (Option.any_eq_true _ _).mp run
  obtain ⟨u', taken, ran⟩ := (Option.any_eq_true _ _).mp run
  obtain ⟨log, count, still⟩ := of_decide_eq_true ran
  refine ⟨q, reached, clock, expired, fun inTime => ?_⟩
  have late := inTime u _ u' (reaches_of_exec _ before) taken log count
  rw [still, clock] at late
  exact absurd late (by decide)

end Yvent.TimerQueue
