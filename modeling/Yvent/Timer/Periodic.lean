import Yvent.Timer.Limits
import Mathlib.Algebra.Order.Ring.Int

/-!
# Repeating timers over whole runs

A timer of `runEvery` keeps its pace over any run of the queue, whatever else is added and cancelled
meanwhile: its callbacks never come early and never more than one in a `handleRead()`, and what the
loop has fallen behind is made up for by one callback in each of the next ones. So it never drifts:
whenever nothing is due, the number of its callbacks is the time that has passed, divided by the
interval.

The invariants are about the number `i` of the timer. Within one `handleRead()` a callback of it may
come until `getExpired()` has left its entry in `timers_` or its turn is over; `ahead` counts it.
-/

namespace Yvent.TimerQueue

variable {q q' u u' : TimerQueue} {l : Label} {labels : List Label} {a : Addr} {t : Timer}
  {e : TimerEntry} {rest : List TimerEntry} {i m n k : Nat} {now c d : Int}

/-- How often the callback of timer number `i` has been started. -/
def calls (q : TimerQueue) (i : Nat) : Nat := (runs q.log).count i

/-- The turn of the timer at this address may still come in this `handleRead()`. -/
def ahead (q : TimerQueue) (a : Addr) : Nat :=
  match q.phase with
  | .read => 1
  | .idle => 0
  | .expiring rest | .running _ rest => if a ∈ rest.map TimerEntry.timer then 1 else 0

/-- A step that begins a `handleRead()`. -/
def Label.rounds (l : Label) : Nat := if l = .handleRead then 1 else 0

/-! ## The callbacks that a step starts -/

theorem Move.runs_cases (taken : Move q l q') (fits : Fits q []) :
    runs q'.log = runs q.log ∨
      ∃ e rest t, q.phase = .expiring (e :: rest) ∧ q.heap e.timer = some t ∧
        t.canceled = false ∧ t.when = e.when ∧
        q' = { q with phase := .running e rest, log := q.log ++ [.run t.serial] } := by
  cases taken with
  | getExpired => exact .inl rfl
  | rearm => exact .inl rearm_runs
  | visit e rest here =>
    have member : e ∈ q.entries := by simp [entries, here, Phase.pending]
    obtain ⟨t, live, key⟩ := (fits_nil.mp fits).keyed e member
    cases flag : t.canceled with
    | true =>
      rw [visit_canceled live flag]
      exact .inl (congrArg runs (delete_log (q := { q with phase := .expiring rest }) live))
    | false => exact .inr ⟨e, rest, t, here, live, flag, key, visit_usable live flag⟩
  | tick ns => exact .inl rfl
  | addTimer b when interval free =>
    exact .inl (runs_of_quiet (.addTimer b when interval free) (by simp))
  | cancelTimer b => exact .inl (runs_of_quiet (.cancelTimer b) (by simp))
  | handleRead here => exact .inl (runs_of_quiet (.handleRead here) (by simp))
  | afterRun e rest here => exact .inl (runs_of_quiet (.afterRun e rest here) (by simp))

theorem calls_run (p : Phase) (j : Nat) :
    ({ q with phase := p, log := q.log ++ [.run j] } : TimerQueue).calls i =
      q.calls i + if j = i then 1 else 0 := by
  rw [calls, calls, runs_append, List.count_append]
  by_cases same : j = i <;> simp [runs, Event.run?, same]

/-- A timer that is there behind a step, and is not new, was there before it. -/
theorem Move.origin (taken : Move q l q') (old : i < q.created) {r : Timer}
    (live : q'.heap a = some r) (serial : r.serial = i) :
    ∃ t, q.heap a = some t ∧ t.serial = i ∧ (t.canceled = true → r.canceled = true) := by
  by_cases new : ∃ b when interval, l = .addTimer b when interval
  · obtain ⟨b, when, interval, rfl⟩ := new
    cases taken
    rw [addTimer_heap] at live
    rcases update_eq_some.mp live with ⟨-, new⟩ | ⟨-, before⟩
    · cases new
      exact absurd serial (Nat.ne_of_gt old)
    · exact ⟨r, before, serial, id⟩
  · have tended := taken.tended fun b when interval same => new ⟨b, when, interval, same⟩
    obtain ⟨t, before, same, flag⟩ := tended.origin a r live
    exact ⟨t, before, same.symm.trans serial, flag⟩

theorem clock_le (reached : Reaches step anyStep q u) : q.clock ≤ u.clock :=
  reached.invariant (I := fun w => q.clock ≤ w.clock) (Int.le_refl _)
    fun _ _ _ _ before _ taken => before.trans (move_of_step taken).clock_le

/-! ## Never early -/

/-- Timer number `i`, asked for with the interval `d` at the clock `c`, is in step. -/
structure Periodic (i : Nat) (c d : Int) (q : TimerQueue) : Prop where
  fits : Fits q []
  batch : BatchDue q
  paced : Paced i (int64 (c + d)) d q
  inTime : q.clock + d < 2 ^ 63 → c + q.calls i * d ≤ q.clock

/-- The due time is a multiple of the interval away from where the timer was asked for. -/
theorem Periodic.when (inv : Periodic i c d q) (low : -2 ^ 63 ≤ c) (pos : 0 < d)
    (range : q.clock + d < 2 ^ 63) (live : q.heap a = some t) (serial : t.serial = i) :
    ∃ k : Nat, q.calls i = k + q.inCallback a ∧ t.when = c + (k + 1) * d := by
  obtain ⟨-, k, due, count⟩ := inv.paced.due a t live serial
  refine ⟨k, count, ?_⟩
  have early := inv.inTime range
  have fewer : k * d ≤ q.calls i * d := by
    refine Int.mul_le_mul_of_nonneg_right ?_ (Int.le_of_lt pos)
    rw [calls, count]
    exact Int.ofNat_le.mpr (Nat.le_add_right k _)
  have sum : c + d + k * d = c + ((k : Int) + 1) * d := by
    rw [Int.add_mul, Int.one_mul]
    omega
  have nonneg : 0 ≤ k * d := Int.mul_nonneg (Int.natCast_nonneg k) (Int.le_of_lt pos)
  rw [due, dueTime_int64, sum]
  exact int64_of_inRange ⟨by omega, by omega⟩

theorem Periodic.move (inv : Periodic i c d q) (low : -2 ^ 63 ≤ c) (pos : 0 < d)
    (taken : Move q l q') : Periodic i c d q' where
  fits := inv.fits.move taken
  batch := inv.batch.move taken
  paced := inv.paced.move inv.fits taken
  inTime := by
    intro range
    have later := taken.clock_le
    have before : q.clock + d < 2 ^ 63 := by omega
    have early := inv.inTime before
    rcases taken.runs_cases inv.fits with quiet | ⟨e, rest, t, here, live, -, key, rfl⟩
    · rw [calls, quiet]
      exact early.trans later
    · rw [calls_run]
      split
      · next same =>
        -- the timer is in the batch, so it is due
        obtain ⟨k, count, when⟩ := inv.when low pos before live same
        rw [inCallback_expiring here, Nat.add_zero] at count
        have due := inv.batch.due e (by simp [here, Phase.pending])
        rw [← key, when, ← count] at due
        push_cast
        exact due
      · exact early

theorem periodic_runEvery (start : InRange now) (reached : Reaches step anyStep (create now) q)
    (user : q.phase.userCode = true) (nonnull : a ≠ 0) (free : q.heap a = none)
    (later : Reaches step anyStep (q.runEvery a d) u) (pos : 0 < d) :
    Periodic q.created q.clock d u := by
  have low : -2 ^ 63 ≤ q.clock := (batchDue_reachable start reached).clock
  have added : Reaches step anyStep (create now) (q.runEvery a d) :=
    reached.tail (.addTimer a (int64 (q.clock + d)) d) trivial (if_pos ⟨user, nonnull, free⟩)
  have unrun : q.created ∉ runs q.log := fun ran =>
    Nat.lt_irrefl _ (runs_lt_created reached _ ran)
  refine later.invariant (I := Periodic q.created q.clock d) ⟨fits_reachable added,
    batchDue_reachable start added, paced_addTimer reached free, fun _ => ?_⟩
    fun _ _ _ _ inv _ taken => inv.move low pos (move_of_step taken)
  rw [calls, runEvery, runs_of_quiet (.addTimer a _ d free) (by simp),
    List.count_eq_zero_of_not_mem unrun, addTimer_clock]
  simp

/-! ## One callback in each `handleRead()` -/

theorem ahead_looping (here : q.phase = .expiring rest ∨ q.phase = .running e rest) :
    q.ahead a = if a ∈ rest.map TimerEntry.timer then 1 else 0 := by
  rcases here with here | here <;> rw [ahead, here]

/-- The rest of the batch has other timers. -/
theorem not_mem_rest (fits : Fits q []) (pending : q.phase.pending = e :: rest) :
    e.timer ∉ rest.map TimerEntry.timer := by
  have distinct := (fits_nil.mp fits).distinct
  rw [entries, pending, List.map_append] at distinct
  exact (List.nodup_cons.mp (List.nodup_append.mp distinct).2.1).1

/-- The callbacks that have been started, and one that may still be in this `handleRead()`. -/
def turns (q : TimerQueue) (i : Nat) (a : Addr) : Nat := q.calls i + q.ahead a

theorem turns_visit (fits : Fits q []) (here : q.phase = .expiring (e :: rest))
    (live : q.heap a = some t) :
    (q.visit e rest).turns t.serial a ≤ q.turns t.serial a ∧
      (t.canceled = false → (q.visit e rest).turns t.serial a = q.turns t.serial a) := by
  have ahead' : (q.visit e rest).ahead a = if a ∈ rest.map TimerEntry.timer then 1 else 0 :=
    ahead_looping (visit_phase q e rest)
  have ahead : q.ahead a = if a ∈ (e :: rest).map TimerEntry.timer then 1 else 0 :=
    ahead_looping (e := e) (.inl here)
  obtain ⟨s, there, -⟩ := (fits_nil.mp fits).keyed e (by simp [entries, here, Phase.pending])
  have ran : (q.visit e rest).calls t.serial =
      q.calls t.serial + if s.canceled = false ∧ s.serial = t.serial then 1 else 0 := by
    cases flag : s.canceled with
    | true =>
      rw [visit_canceled there flag, calls,
        delete_log (q := { q with phase := .expiring rest }) there]
      rfl
    | false =>
      rw [visit_usable there flag, calls_run]
      simp
  rw [turns, turns, ran, ahead, ahead']
  by_cases self : a = e.timer
  · subst self
    cases live.symm.trans there
    have last := not_mem_rest fits (show q.phase.pending = e :: rest by rw [here]; rfl)
    have first : e.timer ∈ (e :: rest).map TimerEntry.timer :=
      List.mem_map_of_mem List.mem_cons_self
    rw [if_neg last, if_pos first]
    constructor
    · split <;> omega
    · intro usable
      rw [if_pos ⟨usable, rfl⟩]
  · have other : ¬(s.canceled = false ∧ s.serial = t.serial) := fun same =>
      self ((fits_nil.mp fits).injective a e.timer t s live there same.2.symm)
    have same : a ∈ (e :: rest).map TimerEntry.timer ↔ a ∈ rest.map TimerEntry.timer :=
      List.mem_cons.trans (or_iff_right self)
    rw [if_neg other, if_congr same rfl rfl]
    exact ⟨Nat.le_refl _, fun _ => rfl⟩

/-- A timer that `getExpired()` leaves in `timers_` is not due. -/
theorem turns_getExpired (fits : Fits q []) (here : q.phase = .read) (live : q.heap a = some t)
    (range : InRange (q.clock + 1)) :
    q.getExpired.turns i a ≤ q.turns i a ∧
      (q.clock < t.when ∨ q.getExpired.turns i a = q.turns i a) := by
  obtain ⟨batch, -⟩ := getExpired_cut range
  have ahead' : q.getExpired.ahead a = if a ∈ q.due.map TimerEntry.timer then 1 else 0 :=
    ahead_looping (e := timerEntry 0 0) (.inl batch)
  have ahead : q.ahead a = 1 := by rw [TimerQueue.ahead, here]
  have same : q.getExpired.calls i = q.calls i := rfl
  rw [turns, turns, same, ahead, ahead']
  constructor
  · split <;> omega
  · by_cases mem : a ∈ q.due.map TimerEntry.timer
    · rw [if_pos mem]
      exact .inr rfl
    · refine .inl (Int.not_le.mp fun due => mem ?_)
      have entry := (fits_nil.mp fits).owned a t live
      rw [entries, here, Phase.pending, List.append_nil] at entry
      exact List.mem_map.mpr ⟨_, List.mem_filter.mpr ⟨entry, decide_eq_true due⟩, rfl⟩

/-- One step. Only the start of a `handleRead()` adds a turn, and no turn is lost but of a timer
that is cancelled or not due. -/
theorem Periodic.turns_move (inv : Periodic i c d q) (low : -2 ^ 63 ≤ c) (pos : 0 < d)
    (range : q.clock + d < 2 ^ 63) (taken : Move q l q') (live : q.heap a = some t)
    (serial : t.serial = i) :
    q'.turns i a ≤ q.turns i a + l.rounds ∧
      (q'.turns i a = q.turns i a + l.rounds ∨ t.canceled = true ∨
        q.clock < c + (q.calls i + 1) * d ∧ q.calls i ≤ q'.turns i a) := by
  have equal : q'.turns i a = q.turns i a + l.rounds → q'.turns i a ≤ q.turns i a + l.rounds ∧
      (q'.turns i a = q.turns i a + l.rounds ∨ t.canceled = true ∨
        q.clock < c + (q.calls i + 1) * d ∧ q.calls i ≤ q'.turns i a) := fun same =>
    ⟨Nat.le_of_eq same, .inl same⟩
  have still : l ≠ .handleRead → l ≠ .next → q'.ahead a = q.ahead a →
      q'.turns i a = q.turns i a + l.rounds := fun other next same => by
    rw [turns, turns, calls, calls, runs_of_quiet taken next, same, Label.rounds, if_neg other]
    rfl
  cases taken with
  | tick ns => exact equal (still (by simp) (by simp) rfl)
  | addTimer b when interval free =>
    refine equal (still (by simp) (by simp) ?_)
    rw [ahead, addTimer_phase, ahead]
  | cancelTimer b =>
    refine equal (still (by simp) (by simp) ?_)
    rw [ahead, cancelTimer_phase, ahead]
  | handleRead here =>
    refine equal ?_
    rw [turns, turns, calls, calls, runs_of_quiet (.handleRead here) (by simp), ahead, ahead, here]
    rfl
  | getExpired here =>
    have next : InRange (q.clock + 1) := ⟨by have := inv.batch.clock; omega, by omega⟩
    obtain ⟨less, either⟩ := turns_getExpired (i := i) inv.fits here live next
    refine ⟨less, ?_⟩
    rcases either with notDue | same
    · obtain ⟨k, count, when⟩ := inv.when low pos range live serial
      have outside : q.inCallback a = 0 := by
        rw [inCallback, here]
        rfl
      rw [outside, Nat.add_zero] at count
      rw [when, ← count] at notDue
      exact .inr (.inr ⟨notDue, Nat.le_add_right _ _⟩)
    · exact .inl same
  | visit e rest here =>
    subst serial
    obtain ⟨less, same⟩ := turns_visit inv.fits here live
    refine ⟨less, ?_⟩
    cases flag : t.canceled with
    | true => exact .inr (.inl rfl)
    | false => exact .inl (same flag)
  | rearm here =>
    refine equal ?_
    rw [turns, turns, calls, calls, rearm_runs, ahead, ahead, rearm_phase, here]
    rfl
  | afterRun e rest here =>
    refine equal (still (by simp) (by simp) ?_)
    rw [ahead_looping (e := e) (.inl afterRun_phase), ahead_looping (.inr here)]

/-- Since a state with `n` callbacks, `m` times a `handleRead()` has begun. So many turns are those
of the timer, but for the ones past the `k` callbacks that were due there. -/
structure KeepsUp (i n k m : Nat) (q : TimerQueue) : Prop where
  most : ∀ a t, q.heap a = some t → t.serial = i → q.turns i a ≤ n + m
  least : ∀ a t, q.heap a = some t → t.serial = i → t.canceled = false →
    min (n + m) k ≤ q.turns i a

theorem KeepsUp.move (keeps : KeepsUp i n k m q) (inv : Periodic i c d q) (low : -2 ^ 63 ≤ c)
    (pos : 0 < d) (range : q.clock + d < 2 ^ 63) (due : c + k * d ≤ q.clock)
    (taken : Move q l q') : KeepsUp i n k (m + l.rounds) q' where
  most := by
    intro a r live serial
    obtain ⟨t, before, same, -⟩ := taken.origin inv.paced.old live serial
    have grown := (inv.turns_move low pos range taken before same).1
    have most := keeps.most a t before same
    omega
  least := by
    intro a r live serial usable
    obtain ⟨t, before, same, flag⟩ := taken.origin inv.paced.old live serial
    have usable : t.canceled = false := by
      cases canceled : t.canceled with
      | false => rfl
      | true => exact (flag canceled).symm.trans usable
    have least := keeps.least a t before same usable
    rcases (inv.turns_move low pos range taken before same).2 with
      more | canceled | ⟨notDue, kept⟩
    · omega
    · rw [usable] at canceled
      cases canceled
    · have fewer : (k : Int) * d < (q.calls i + 1) * d := by omega
      have fewer := Int.lt_of_mul_lt_mul_right fewer (Int.le_of_lt pos)
      omega

theorem KeepsUp.exec (keeps : KeepsUp i n k m q) (inv : Periodic i c d q) (low : -2 ^ 63 ≤ c)
    (pos : 0 < d) (due : c + k * d ≤ q.clock) (run : exec step labels q = some u)
    (range : u.clock + d < 2 ^ 63) :
    KeepsUp i n k (m + labels.count .handleRead) u := by
  induction labels generalizing q m with
  | nil =>
    cases run
    exact keeps
  | cons l ls ih =>
    obtain ⟨v, taken, run⟩ := Option.bind_eq_some_iff.mp run
    have moved := move_of_step taken
    have later := moved.clock_le
    have latest : v.clock ≤ u.clock := clock_le (reaches_of_exec ls run)
    have more := keeps.move inv low pos (by omega) due moved
    have kept := ih more (inv.move low pos moved) (due.trans later) run
    have count : m + (l :: ls).count .handleRead = m + l.rounds + ls.count .handleRead := by
      rw [List.count_cons, Label.rounds]
      simp only [beq_iff_eq]
      omega
    rw [count]
    exact kept

/-! ## The pace -/

theorem turns_idle (idle : q.phase = .idle) : q.turns i a = q.calls i := by
  rw [turns, ahead, idle]
  rfl

theorem idle_of_userCode (user : q.phase.userCode = true) (outside : q.phase.looping = false) :
    q.phase = .idle := by
  cases here : q.phase with
  | idle => rfl
  | read =>
    rw [here] at user
    cases user
  | expiring | running =>
    rw [here] at outside
    cases outside

/-- A timer of `runEvery` in any run, between two moments at which no `handleRead()` is under way.
Its callbacks have not been started early, and at most one in each `handleRead()`; those that were
due at the first moment have been made up for, one in each. It is due next after as many intervals
as it has been called, and one. So when nothing is due, it has been called once for every interval
that has passed. -/
theorem keeps_pace (start : InRange now) (reached : Reaches step anyStep (create now) q)
    (user : q.phase.userCode = true) (nonnull : a ≠ 0) (free : q.heap a = none) (pos : 0 < d)
    (later : Reaches step anyStep (q.runEvery a d) u) (idle : u.phase = .idle)
    (run : exec step labels u = some u') (idle' : u'.phase = .idle)
    (live : u'.heap a = some t) (serial : t.serial = q.created) (usable : t.canceled = false)
    (range : u'.clock + d < 2 ^ 63) :
    q.clock + u'.calls q.created * d ≤ u'.clock ∧
      u'.calls q.created ≤ u.calls q.created + labels.count .handleRead ∧
      (∀ k : Nat, q.clock + k * d ≤ u.clock →
        min (u.calls q.created + labels.count .handleRead) k ≤ u'.calls q.created) ∧
      timerEntry (q.clock + (u'.calls q.created + 1) * d) a ∈ u'.timers ∧
      ((∀ e ∈ u'.timers, u'.clock < e.when) →
        (u'.calls q.created : Int) = (u'.clock - q.clock) / d) := by
  have low : -2 ^ 63 ≤ q.clock := (batchDue_reachable start reached).clock
  have later' := later.trans (reaches_of_exec labels run)
  have inv := periodic_runEvery start reached user nonnull free later pos
  have inv' := periodic_runEvery start reached user nonnull free later' pos
  have early := inv'.inTime range
  have asked : q.clock + (0 : Nat) * d ≤ u.clock := by
    have grown : (q.runEvery a d).clock ≤ u.clock := clock_le later
    rw [runEvery, addTimer_clock] at grown
    simpa using grown
  have keeps : ∀ k : Nat, q.clock + k * d ≤ u.clock →
      KeepsUp q.created (u.calls q.created) k (labels.count .handleRead) u' := by
    intro k due
    have fresh : KeepsUp q.created (u.calls q.created) k 0 u :=
      ⟨fun b s _ _ => Nat.le_of_eq (turns_idle idle),
        fun b s _ _ _ => by rw [turns_idle idle]; exact Nat.min_le_left _ _⟩
    have kept := fresh.exec inv low pos due run range
    rwa [Nat.zero_add] at kept
  have when : t.when = q.clock + (u'.calls q.created + 1) * d := by
    obtain ⟨k, count, when⟩ := inv'.when low pos range live serial
    have outside : u'.inCallback a = 0 := by
      rw [inCallback, idle']
      rfl
    rw [count, outside, Nat.add_zero]
    exact when
  have entry : timerEntry t.when a ∈ u'.timers := by
    have owned := (fits_nil.mp inv'.fits).owned a t live
    rwa [entries, idle', Phase.pending, List.append_nil] at owned
  refine ⟨early, ?_, fun k due => ?_, when ▸ entry, fun quiet => ?_⟩
  · have most := (keeps 0 asked).most a t live serial
    rwa [turns_idle idle'] at most
  · have least := (keeps k due).least a t live serial usable
    rwa [turns_idle idle'] at least
  · have notDue : u'.clock < t.when := quiet _ entry
    rw [when, Int.add_mul, Int.one_mul] at notDue
    refine ((Int.ediv_eq_iff_of_pos pos).mpr ⟨?_, ?_⟩).symm
    · omega
    · omega

/-- The loop stalls for three intervals; two calls of `handleRead()` then start a callback each. -/
theorem keeps_pace_stalled : ∃ u u' : TimerQueue, u.clock = 4000000 ∧ u.calls 0 = 1 ∧
    min (u.calls 0 + 2) 4 ≤ u'.calls 0 ∧ u'.calls 0 ≤ u.calls 0 + 2 := by
  let pass : List Label := [.handleRead, .next, .next, .ret, .next]
  obtain ⟨u, later, user, outside, clock, one, run⟩ :
      ∃ u, Reaches step anyStep ((create 0).runEvery 8 1000000) u ∧ u.phase.userCode = true ∧
        u.phase.looping = false ∧ u.clock = 4000000 ∧ u.calls 0 = 1 ∧
        (exec step (pass ++ pass) u).any (fun u' => u'.phase.userCode = true ∧
          u'.phase.looping = false ∧ u'.clock = 4000000 ∧
          (u'.heap 8).any fun t => t.serial = 0 ∧ t.canceled = false) = true :=
    exists_reaches_of_exec (.tick 1000000 :: pass ++ [.tick 3000000]) (by decide +kernel)
  obtain ⟨u', run, ends⟩ := (Option.any_eq_true _ _).mp run
  obtain ⟨user', outside', clock', live⟩ := of_decide_eq_true ends
  obtain ⟨t, live, flags⟩ := (Option.any_eq_true _ _).mp live
  obtain ⟨serial, usable⟩ := of_decide_eq_true flags
  have pace := keeps_pace (show InRange 0 by decide) .refl rfl (show (8 : Addr) ≠ 0 by decide) rfl
    (show (0 : Int) < 1000000 by decide) later (idle_of_userCode user outside) run
    (idle_of_userCode user' outside') live serial usable (by rw [clock']; decide)
  exact ⟨u, u', clock, one, pace.2.2.1 4 (by rw [clock]; decide), pace.2.1⟩

end Yvent.TimerQueue
