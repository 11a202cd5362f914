import Yvent.Timer.Arming
import Yvent.Timer.Cancellation

/-!
# What one `handleRead` runs

`getExpired` takes the entries that are due out of `timers_`, and the loop of `handleRead` goes
through them in their order. It starts the callback of each whose timer is not cancelled when its
turn comes: a callback before it in the batch may cancel it, and so may its own callback in an
earlier batch, behind which a repeating timer goes back to the set with its flag.
-/

namespace Yvent.TimerQueue

/-! ## The course of a batch -/

/-- The entries of the batch whose turn has not come, or has just come. -/
def Phase.rest : Phase → List TimerEntry
  | .expiring rest | .running _ rest => rest
  | .idle | .read => []

/-- The entry whose turn it is. -/
def Phase.turn : Phase → Option TimerEntry
  | .expiring rest => rest.head?
  | .running _ _ | .idle | .read => none

/-- The entry whose callback is running. -/
def Phase.current : Phase → Option TimerEntry
  | .running e _ => some e
  | .expiring _ | .idle | .read => none

/-- The steps of a run before the turn of an entry. -/
def beforeTurn (e : TimerEntry) : List Label → TimerQueue → List Label
  | [], _ => []
  | l :: ls, q =>
    if q.phase.turn = some e then [] else l :: (q.step l).elim [] (beforeTurn e ls)

/-- The steps of a run after the callback of an entry has returned. -/
def afterReturn (e : TimerEntry) : List Label → TimerQueue → List Label
  | [], _ => []
  | l :: ls, q =>
    if q.phase.current = some e ∧ l = .ret then ls else (q.step l).elim [] (afterReturn e ls)

/-- The timer of the entry is not cancelled, and no callback cancels it before its turn. -/
def starts (q : TimerQueue) (labels : List Label) (e : TimerEntry) : Bool :=
  q.active e.timer && .cancelTimer e.timer ∉ beforeTurn e labels q

/-- The number of the timer of an entry. -/
def serialAt (q : TimerQueue) (e : TimerEntry) : Nat :=
  ((q.heap e.timer).map Timer.serial).getD 0

/-- The entries of `timers_` that are due. -/
def due (q : TimerQueue) : List TimerEntry := q.timers.toList.filter (·.when ≤ q.clock)

/-- The due entries whose callbacks are started. -/
def started (q : TimerQueue) (labels : List Label) : List TimerEntry :=
  q.due.filter (q.getExpired.starts labels)

/-- The serial number of the timer whose callback starts. -/
def Event.run? : Event → Option Nat
  | .run serial => some serial
  | .useFreed _ | .assertFailed | .settime _ _ _ _ => none

/-- The numbers of the timers whose callbacks have been started. -/
def runs (log : List Event) : List Nat := log.filterMap Event.run?

/-- The callbacks started from `q` to `u`. -/
def runsSince (q u : TimerQueue) : List Nat := runs (u.log.drop q.log.length)

/-- The timer `t` waits in `timers_` under its due time. -/
structure Waits (q : TimerQueue) (a : Addr) (t : Timer) : Prop where
  live : q.heap a = some t
  entry : timerEntry t.when a ∈ q.timers

/-- What has become of the timer `t` of a callback that was started, with the steps `later` behind
it: it waits for its next due time unless it has been cancelled behind its return, or it is
freed. -/
def Outcome (u : TimerQueue) (e : TimerEntry) (t : Timer) (later : List Label) : Prop :=
  if t.repeats then
    .cancelTimer e.timer ∈ later ∨ ∃ t', Waits u e.timer t' ∧ t'.serial = t.serial ∧
      t'.interval = t.interval ∧ (InRange (t.when + t.interval) → t'.when = t.when + t.interval)
  else t.serial ∈ u.freed

/-- One `handleRead`, from before `getExpired` in `q` to the end of its loop in `u`. -/
structure ExactExpiry (q : TimerQueue) (labels : List Label) (u : TimerQueue) : Prop where
  log : q.log <+: u.log
  runs : runsSince q u = (q.started labels).map q.serialAt
  once : (runsSince q u).Nodup
  ordered : ((q.started labels).map TimerEntry.when).Pairwise (· ≤ ·)
  outcome : ∀ e ∈ q.started labels, ∀ t, q.heap e.timer = some t →
    Outcome u e t (afterReturn e labels q.getExpired)
  later : ∀ e ∈ q.timers, q.clock < e.when → .cancelTimer e.timer ∈ labels ∨
    e ∈ u.timers ∧ u.heap e.timer = q.heap e.timer
  added : ∀ before a when interval after q', labels = before ++ .addTimer a when interval :: after →
    exec step before q.getExpired = some q' → q'.created ∉ runsSince q u ∧
      (.cancelTimer a ∈ after ∨ Waits u a (.create when interval q'.created))

variable {q q' u : TimerQueue} {l : Label} {labels : List Label} {e d : TimerEntry} {a : Addr}
  {t : Timer} {rest : List TimerEntry}

/-! ## What a step leaves alone -/

/-- The step cancels the timer of the entry, or it is the one that takes its turn, or the one
behind its callback. -/
def Touches (q : TimerQueue) (l : Label) (e : TimerEntry) : Prop :=
  l = .cancelTimer e.timer ∨ q.phase.turn = some e ∧ l = .next ∨
    q.phase.current = some e ∧ l = .ret

theorem timer_ne (fits : Fits q []) (here : e ∈ q.entries) (there : d ∈ q.entries) (ne : e ≠ d) :
    e.timer ≠ d.timer := fun same =>
  ne (List.inj_on_of_nodup_map (fits_nil.mp fits).distinct here there same)

theorem visit_heap (other : a ≠ e.timer) : (q.visit e rest).heap a = q.heap a := by
  unfold visit
  split
  · rfl
  · next t live =>
    split
    · simp [delete, live, Function.update_of_ne other]
    · rfl

theorem afterRun_heap (other : a ≠ e.timer) : (q.afterRun e rest).heap a = q.heap a := by
  unfold afterRun
  split
  · rfl
  · next t live =>
    split
    · exact Function.update_of_ne other ..
    · simp [delete, live, Function.update_of_ne other]

theorem readTimerfd_heap : q.readTimerfd.heap = q.heap := by
  unfold readTimerfd
  split
  · split <;> rfl
  · rfl

theorem rearm_heap : q.rearm.heap = q.heap := by
  unfold rearm
  split <;> rfl

/-- A timer that the step does not touch stays as it is. -/
theorem Move.heap_eq (taken : Move q l q') (fits : Fits q []) (mem : e ∈ q.entries)
    (untouched : ¬Touches q l e) : q'.heap e.timer = q.heap e.timer := by
  obtain ⟨t, live, -⟩ := (fits_nil.mp fits).keyed e mem
  cases taken with
  | tick | getExpired => rfl
  | addTimer a when interval free =>
    have other : e.timer ≠ a := by
      rintro rfl
      rw [free] at live
      cases live
    rw [addTimer_heap]
    exact Function.update_of_ne other ..
  | cancelTimer a =>
    apply cancelTimer_heap
    rintro rfl
    exact untouched (Or.inl rfl)
  | handleRead => rw [← readTimerfd_heap (q := q)]
  | visit d rest here =>
    apply visit_heap
    refine timer_ne fits mem (by simp [entries, here, Phase.pending]) ?_
    rintro rfl
    exact untouched (Or.inr (Or.inl ⟨by rw [here]; rfl, rfl⟩))
  | rearm => rw [rearm_heap]
  | afterRun d rest here =>
    apply afterRun_heap
    refine timer_ne fits mem (by simp [entries, here, Phase.pending]) ?_
    rintro rfl
    exact untouched (Or.inr (Or.inr ⟨by rw [here]; rfl, rfl⟩))

/-! ## The steps of a batch -/

/-- `handleRead` is in its loop. -/
def Phase.looping : Phase → Bool
  | .expiring _ | .running _ _ => true
  | .idle | .read => false

theorem insertTimer_phase (a : Addr) (w : Int) : (q.insertTimer a w).phase = q.phase := by
  simp only [insertTimer]
  split <;> rfl

theorem addTimer_phase (a : Addr) (w interval : Int) :
    (q.addTimer a w interval).phase = q.phase := by
  rw [addTimer, insertTimer_phase]

theorem rearm_phase : q.rearm.phase = .idle := by
  unfold rearm
  split <;> rfl

theorem visit_phase (q : TimerQueue) (e : TimerEntry) (rest : List TimerEntry) :
    (q.visit e rest).phase = .expiring rest ∨
    (q.visit e rest).phase = .running e rest := by
  unfold visit
  split
  · exact Or.inl rfl
  · split
    · exact Or.inl (delete_frame _).2.2.2
    · exact Or.inr rfl

theorem afterRun_phase : (q.afterRun e rest).phase = .expiring rest := by
  unfold afterRun
  split
  · rfl
  · split
    · rfl
    · exact (delete_frame _).2.2.2

/-- Behind its loop `handleRead` does not come back to it. -/
theorem idle_of_exec (idle : q.phase = .idle) (one : .handleRead ∉ labels)
    (run : exec step labels q = some u) : u.phase = .idle := by
  induction labels generalizing q with
  | nil =>
    cases run
    exact idle
  | cons l ls ih =>
    obtain ⟨q', taken, run⟩ := Option.bind_eq_some_iff.mp run
    obtain ⟨notRead, one⟩ := List.ne_and_not_mem_of_not_mem_cons one
    refine ih ?_ one run
    cases move_of_step taken with
    | tick => exact idle
    | addTimer a when interval => rw [addTimer_phase, idle]
    | cancelTimer a => rw [cancelTimer_phase, idle]
    | handleRead => exact absurd rfl notRead
    | getExpired here | visit _ _ here | rearm here | afterRun _ _ here =>
      rw [idle] at here
      cases here

/-- A run that ends with the loop stays in it. -/
theorem looping_of_ends (one : .handleRead ∉ labels) (run : exec step labels q = some u)
    (ends : u.phase = .expiring []) (within : q.phase ≠ .read) : q.phase.looping = true := by
  cases here : q.phase with
  | expiring | running => rfl
  | read => exact absurd here within
  | idle =>
    have idle := idle_of_exec here one run
    rw [ends] at idle
    cases idle

theorem not_read_of_move (taken : Move q l q') (looping : q.phase.looping = true) :
    q'.phase ≠ .read := by
  have notRead : q.phase ≠ .read := by
    intro here
    rw [here] at looping
    cases looping
  cases taken with
  | tick => exact notRead
  | addTimer a when interval =>
    rw [addTimer_phase]
    exact notRead
  | cancelTimer a =>
    rw [cancelTimer_phase]
    exact notRead
  | handleRead here =>
    rw [here] at looping
    cases looping
  | getExpired => simp [TimerQueue.getExpired]
  | visit e rest =>
    rcases visit_phase q e rest with here | here <;> simp [here]
  | rearm => simp [rearm_phase]
  | afterRun => simp [afterRun_phase]

/-- The steps inside the loop. -/
inductive BatchMove (q : TimerQueue) : Label → TimerQueue → Prop
  | tick (ns : Nat) : BatchMove q (.tick ns) { q with clock := q.clock + ns }
  | user {l : Label} {q' : TimerQueue} {e : TimerEntry} {rest : List TimerEntry}
      (here : q.phase = .running e rest) (moved : Move q l q') (phase : q'.phase = q.phase)
      (calls : l ≠ .next ∧ l ≠ .ret) : BatchMove q l q'
  | visit (e : TimerEntry) (rest : List TimerEntry) (here : q.phase = .expiring (e :: rest)) :
      BatchMove q .next (q.visit e rest)
  | afterRun (e : TimerEntry) (rest : List TimerEntry) (here : q.phase = .running e rest) :
      BatchMove q .ret (q.afterRun e rest)

theorem BatchMove.move (moved : BatchMove q l q') : Move q l q' := by
  cases moved with
  | tick ns => exact .tick ns
  | user here moved => exact moved
  | visit e rest here => exact .visit e rest here
  | afterRun e rest here => exact .afterRun e rest here

theorem running_of_userCode (looping : q.phase.looping = true) (user : q.phase.userCode = true) :
    ∃ e rest, q.phase = .running e rest := by
  cases here : q.phase with
  | running e rest => exact ⟨e, rest, rfl⟩
  | expiring rest =>
    rw [here] at user
    cases user
  | idle | read =>
    rw [here] at looping
    cases looping

theorem batchMove_of_step (looping : q.phase.looping = true) (still : q'.phase.looping = true)
    (taken : q.step l = some q') : BatchMove q l q' := by
  have moved := move_of_step taken
  cases move_of_step taken with
  | tick ns => exact .tick ns
  | addTimer a when interval =>
    simp only [step] at taken
    split at taken
    · next allowed =>
      obtain ⟨e, rest, here⟩ := running_of_userCode looping allowed.1
      exact .user here moved (addTimer_phase a when interval) (by simp)
    · cases taken
  | cancelTimer a =>
    simp only [step] at taken
    split at taken
    · next user =>
      obtain ⟨e, rest, here⟩ := running_of_userCode looping user
      exact .user here moved cancelTimer_phase (by simp)
    · cases taken
  | handleRead here | getExpired here =>
    rw [here] at looping
    cases looping
  | visit e rest here => exact .visit e rest here
  | rearm =>
    rw [rearm_phase] at still
    cases still
  | afterRun e rest here => exact .afterRun e rest here

/-- The first step of a run inside the loop. -/
theorem exists_batchMove (looping : q.phase.looping = true) (one : .handleRead ∉ l :: labels)
    (run : exec step (l :: labels) q = some u) (ends : u.phase = .expiring []) :
    ∃ q', q.step l = some q' ∧ BatchMove q l q' ∧ q'.phase.looping = true ∧
      .handleRead ∉ labels ∧ exec step labels q' = some u := by
  obtain ⟨q', taken, run⟩ := Option.bind_eq_some_iff.mp run
  have one := List.not_mem_of_not_mem_cons one
  have still := looping_of_ends one run ends (not_read_of_move (move_of_step taken) looping)
  exact ⟨q', taken, batchMove_of_step looping still taken, still, one, run⟩

/-! ## Which callbacks are started -/

theorem mem_entries_of_rest (mem : e ∈ q.phase.rest) : e ∈ q.entries := by
  apply List.mem_append_right
  cases here : q.phase with
  | expiring rest =>
    rw [here] at mem
    exact mem
  | running d rest =>
    rw [here] at mem
    exact List.mem_cons_of_mem d mem
  | idle | read =>
    rw [here] at mem
    cases mem

theorem pending_nodup (fits : Fits q []) : q.phase.pending.Nodup := by
  have distinct := (fits_nil.mp fits).distinct
  rw [entries, List.map_append] at distinct
  exact List.Nodup.of_map _ (List.nodup_append.mp distinct).2.1

/-- A timer of the batch is not in `timers_`, so a cancellation sets its flag. -/
theorem cancelTimer_pending (fits : Fits q []) (mem : e ∈ q.phase.pending)
    (live : q.heap e.timer = some t) : (q.cancelTimer e.timer).heap e.timer = some t.cancel := by
  have absent : timerEntry t.when e.timer ∉ q.timers := by
    intro inSet
    have distinct := (fits_nil.mp fits).distinct
    rw [entries, List.map_append] at distinct
    exact (List.nodup_append.mp distinct).2.2 e.timer (List.mem_map.mpr ⟨_, inSet, rfl⟩) e.timer
      (List.mem_map_of_mem mem) rfl
  simp only [cancelTimer, live, if_neg absent]
  exact Function.update_self ..

theorem beforeTurn_of_turn (turn : q.phase.turn = some e) : beforeTurn e labels q = [] := by
  cases labels with
  | nil => rfl
  | cons l ls => rw [beforeTurn, if_pos turn]

theorem beforeTurn_step (other : q.phase.turn ≠ some e) (taken : q.step l = some q') :
    beforeTurn e (l :: labels) q = l :: beforeTurn e labels q' := by
  rw [beforeTurn, if_neg other, taken]
  rfl

theorem starts_of_heap (other : q.phase.turn ≠ some e) (taken : q.step l = some q')
    (heap : q'.heap e.timer = q.heap e.timer) (notCancel : l ≠ .cancelTimer e.timer) :
    q.starts (l :: labels) e = q'.starts labels e := by
  simp [starts, active, heap, beforeTurn_step other taken, notCancel.symm]

/-- The flag of an entry and the cancellations before its turn decide together, whichever steps
have been taken. -/
theorem starts_step (labels : List Label) (fits : Fits q []) (taken : q.step l = some q') (moved : BatchMove q l q')
    (mem : e ∈ q'.phase.rest) :
    q.starts (l :: labels) e = q'.starts labels e ∧ q'.serialAt e = q.serialAt e := by
  have nodup := pending_nodup fits
  cases moved with
  | tick ns =>
    refine ⟨?_, rfl⟩
    by_cases turn : q.phase.turn = some e
    · have turn' : ({ q with clock := q.clock + ns } : TimerQueue).phase.turn = some e := turn
      simp [starts, active, beforeTurn_of_turn turn, beforeTurn_of_turn turn']
    · exact starts_of_heap turn taken rfl (by simp)
  | @user _ _ d rest here moved phase calls =>
    rw [phase] at mem
    have inBatch := mem_entries_of_rest mem
    have noTurn : q.phase.turn ≠ some e := by simp [here, Phase.turn]
    by_cases cancel : l = .cancelTimer e.timer
    · subst cancel
      cases moved
      obtain ⟨t, live, -⟩ := (fits_nil.mp fits).keyed e inBatch
      have pending : e ∈ q.phase.pending := by
        rw [here] at mem ⊢
        exact List.mem_cons_of_mem d mem
      have flagged := cancelTimer_pending fits pending live
      refine ⟨?_, by simp [serialAt, live, flagged, Timer.cancel]⟩
      simp [starts, active, beforeTurn_step noTurn taken, flagged, Timer.cancel]
    · have heap := moved.heap_eq fits inBatch
        (by simp [Touches, cancel, calls])
      exact ⟨starts_of_heap noTurn taken heap cancel, by rw [serialAt, serialAt, heap]⟩
  | visit d rest here =>
    have mem : e ∈ rest := by
      rcases visit_phase q d rest with phase | phase <;>
        exact (congrArg (e ∈ Phase.rest ·) phase).mp mem
    have inBatch : e ∈ q.entries := mem_entries_of_rest (by
      rw [here]
      exact List.mem_cons_of_mem d mem)
    have other : d ≠ e := by
      rintro rfl
      rw [here] at nodup
      exact (List.nodup_cons.mp nodup).1 mem
    have noTurn : q.phase.turn ≠ some e := by simpa [here, Phase.turn] using other
    have heap := (Move.visit d rest here).heap_eq fits inBatch
      (by simp [Touches, here, Phase.turn, other])
    exact ⟨starts_of_heap noTurn taken heap (by simp), by rw [serialAt, serialAt, heap]⟩
  | afterRun d rest here =>
    rw [afterRun_phase] at mem
    have inBatch : e ∈ q.entries := mem_entries_of_rest (by rw [here]; exact mem)
    have other : d ≠ e := by
      rintro rfl
      rw [here] at nodup
      exact (List.nodup_cons.mp nodup).1 mem
    have noTurn : q.phase.turn ≠ some e := by simp [here, Phase.turn]
    have heap := (Move.afterRun d rest here).heap_eq fits inBatch
      (by simp [Touches, here, Phase.current, other])
    exact ⟨starts_of_heap noTurn taken heap (by simp), by rw [serialAt, serialAt, heap]⟩

theorem runs_append (x y : List Event) : runs (x ++ y) = runs x ++ runs y := List.filterMap_append

/-- Only `.next` starts a callback. -/
theorem runs_of_quiet (taken : Move q l q') (other : l ≠ .next) : runs q'.log = runs q.log := by
  obtain ⟨added, log, cause⟩ := taken.log
  have none : runs added = [] := by
    refine List.filterMap_eq_nil_iff.mpr fun event mem => ?_
    have caused := cause event mem
    cases event with
    | run i => exact absurd caused.1 other
    | useFreed | assertFailed | settime => rfl
  rw [log, runs_append, none, List.append_nil]

theorem log_prefix (run : exec step labels q = some u) : q.log <+: u.log := by
  induction labels generalizing q with
  | nil =>
    cases run
    exact List.prefix_refl _
  | cons l ls ih =>
    obtain ⟨q', taken, run⟩ := Option.bind_eq_some_iff.mp run
    obtain ⟨added, log, -⟩ := (move_of_step taken).log
    exact (log ▸ List.prefix_append _ _).trans (ih run)

theorem starts_of_turn (turn : q.phase.turn = some e) :
    q.starts labels e = q.active e.timer := by
  simp [starts, beforeTurn_of_turn turn]

theorem visit_canceled (live : q.heap e.timer = some t) (flag : t.canceled = true) :
    q.visit e rest = { q with phase := .expiring rest }.delete e.timer := by
  simp [visit, live, flag]

theorem visit_usable (live : q.heap e.timer = some t) (flag : t.canceled = false) :
    q.visit e rest = { q with phase := .running e rest, log := q.log ++ [.run t.serial] } := by
  simp [visit, live, flag]

/-- The callbacks that the rest of the batch starts, in their order. -/
theorem runs_of_exec (fits : Fits q []) (looping : q.phase.looping = true)
    (one : .handleRead ∉ labels) (run : exec step labels q = some u)
    (ends : u.phase = .expiring []) :
    runs u.log = runs q.log ++ (q.phase.rest.filter (q.starts labels)).map q.serialAt := by
  induction labels generalizing q with
  | nil =>
    cases run
    simp [ends, Phase.rest]
  | cons l ls ih =>
    obtain ⟨q', taken, moved, looping', one, run⟩ := exists_batchMove looping one run ends
    have same : (q'.phase.rest.filter (q'.starts ls)).map q'.serialAt =
        (q'.phase.rest.filter (q.starts (l :: ls))).map q.serialAt := by
      rw [List.filter_congr fun e mem => (starts_step ls fits taken moved mem).1]
      refine List.map_congr_left fun e mem => ?_
      exact (starts_step ls fits taken moved (List.mem_of_mem_filter mem)).2
    rw [ih (fits.move moved.move) looping' one run, same]
    cases moved with
    | tick ns => rfl
    | user here moved phase calls => rw [runs_of_quiet moved calls.1, phase]
    | visit e rest here =>
      have turn : q.phase.turn = some e := by rw [here]; rfl
      obtain ⟨t, live, -⟩ := (fits_nil.mp fits).keyed e
        (mem_entries_of_rest (by rw [here]; exact List.mem_cons_self))
      have first : q.phase.rest = e :: rest := by rw [here]; rfl
      rw [first, List.filter_cons, starts_of_turn turn]
      cases flag : t.canceled with
      | true =>
        have inactive : q.active e.timer = false := by simp [active, live, flag]
        rw [visit_canceled live flag, delete_log (q := { q with phase := .expiring rest }) live,
          (delete_frame _).2.2.2, inactive]
        rfl
      | false =>
        have isActive : q.active e.timer = true := by simp [active, live, flag]
        have serial : q.serialAt e = t.serial := by simp [serialAt, live]
        rw [visit_usable live flag, isActive, if_pos rfl, List.map_cons, serial]
        simp [runs, Event.run?, Phase.rest]
    | afterRun e rest here =>
      have quiet := runs_of_quiet (Move.afterRun e rest here) (by simp)
      rw [quiet, afterRun_phase, here]
      rfl

/-! ## What becomes of the timers -/

/-- A timer is not in `timers_` and in the batch. -/
theorem apart (fits : Fits q []) (inSet : d ∈ q.timers) (mem : e ∈ q.phase.pending) :
    d.timer ≠ e.timer := by
  have distinct := (fits_nil.mp fits).distinct
  rw [entries, List.map_append] at distinct
  exact (List.nodup_append.mp distinct).2.2 _ (List.mem_map_of_mem inSet) _
    (List.mem_map_of_mem mem)

theorem pending_subset (moved : BatchMove q l q') : q'.phase.pending ⊆ q.phase.pending := by
  intro d mem
  cases moved with
  | tick => exact mem
  | user here moved phase => exact phase ▸ mem
  | visit e rest here =>
    rw [here]
    rcases visit_phase q e rest with phase | phase
    · rw [phase] at mem
      exact List.mem_cons_of_mem e mem
    · rw [phase] at mem
      exact mem
  | afterRun e rest here =>
    rw [afterRun_phase] at mem
    rw [here]
    exact List.mem_cons_of_mem e mem

/-- Until it is cancelled, a timer of `timers_` stays there. -/
theorem waits_step (waits : Waits q a t) (fits : Fits q []) (moved : BatchMove q l q')
    (notCancel : l ≠ .cancelTimer a) : Waits q' a t := by
  have notPending : timerEntry t.when a ∉ q.phase.pending := fun mem =>
    apart fits waits.entry mem rfl
  have untouched : ¬Touches q l (timerEntry t.when a) := by
    rintro (cancel | ⟨turn, -⟩ | ⟨current, -⟩)
    · exact notCancel cancel
    · apply notPending
      cases phase : q.phase with
      | expiring rest =>
        rw [phase] at turn
        exact List.mem_of_mem_head? turn
      | running | idle | read =>
        rw [phase] at turn
        cases turn
    · apply notPending
      cases phase : q.phase with
      | running d rest =>
        rw [phase] at current
        cases current
        exact List.mem_cons_self
      | expiring | idle | read =>
        rw [phase] at current
        cases current
  have live : q'.heap a = some t := by
    rw [← waits.live]
    exact moved.move.heap_eq fits (List.mem_append_left _ waits.entry) untouched
  refine ⟨live, ?_⟩
  rcases List.mem_append.mp ((fits_nil.mp (fits.move moved.move)).owned a t live) with mem | mem
  · exact mem
  · exact absurd (pending_subset moved mem) notPending

theorem waits_of_exec (waits : Waits q a t) (fits : Fits q []) (looping : q.phase.looping = true)
    (one : .handleRead ∉ labels) (run : exec step labels q = some u)
    (ends : u.phase = .expiring []) : .cancelTimer a ∈ labels ∨ Waits u a t := by
  induction labels generalizing q with
  | nil =>
    cases run
    exact Or.inr waits
  | cons l ls ih =>
    obtain ⟨q', taken, moved, looping', one, run⟩ := exists_batchMove looping one run ends
    by_cases cancel : l = .cancelTimer a
    · exact Or.inl (cancel ▸ List.mem_cons_self)
    · have next := waits_step waits fits moved cancel
      rcases ih next (fits.move moved.move) looping' one run with later | waits
      · exact Or.inl (List.mem_cons_of_mem l later)
      · exact Or.inr waits

theorem freed_of_exec {i : Nat} (freed : i ∈ q.freed) (run : exec step labels q = some u) :
    i ∈ u.freed := by
  induction labels generalizing q with
  | nil =>
    cases run
    exact freed
  | cons l ls ih =>
    obtain ⟨q', taken, run⟩ := Option.bind_eq_some_iff.mp run
    refine ih ?_ run
    by_cases new : ∃ a when interval, l = .addTimer a when interval
    · obtain ⟨a, when, interval, rfl⟩ := new
      cases move_of_step taken
      rw [addTimer, insertTimer_freed]
      exact freed
    · refine ((move_of_step taken).tended ?_).freed i freed
      intro a when interval same
      exact new ⟨a, when, interval, same⟩

theorem afterReturn_step (other : ¬(q.phase.current = some e ∧ l = .ret))
    (taken : q.step l = some q') : afterReturn e (l :: labels) q = afterReturn e labels q' := by
  rw [afterReturn, if_neg other, taken]
  rfl

/-- The callback returns. -/
theorem outcome_of_return (fits : Fits q []) (here : q.phase = .running e rest)
    (live : q.heap e.timer = some t) (one : .handleRead ∉ labels)
    (run : exec step labels (q.afterRun e rest) = some u) (ends : u.phase = .expiring []) :
    Outcome u e t labels := by
  have fits' := fits.move (.afterRun e rest here)
  have looping : (q.afterRun e rest).phase.looping = true := by rw [afterRun_phase]; rfl
  unfold Outcome
  split
  · next repeating =>
    have again : q.afterRun e rest = { q with
        phase := .expiring rest
        heap := Function.update q.heap e.timer (some t.restart)
        timers := q.timers.insert (timerEntry t.restart.when e.timer) } := by
      simp [afterRun, live, repeating]
    have waits : Waits (q.afterRun e rest) e.timer t.restart := by
      rw [again]
      exact ⟨Function.update_self .., OrderedSet.mem_insert.mpr (Or.inl rfl)⟩
    rcases waits_of_exec waits fits' looping one run ends with later | waits
    · exact Or.inl later
    · exact Or.inr ⟨t.restart, waits, rfl, rfl, int64_of_inRange⟩
  · next single =>
    refine freed_of_exec ?_ run
    simp [afterRun, live, single, delete]

/-- The callback of an entry is running. -/
theorem outcome_of_running (fits : Fits q []) (here : q.phase = .running e rest)
    (live : q.heap e.timer = some t) (one : .handleRead ∉ labels)
    (run : exec step labels q = some u) (ends : u.phase = .expiring []) :
    Outcome u e t (afterReturn e labels q) := by
  induction labels generalizing q t with
  | nil =>
    cases run
    rw [ends] at here
    cases here
  | cons l ls ih =>
    have looping : q.phase.looping = true := by rw [here]; rfl
    obtain ⟨q', taken, moved, looping', one', run⟩ := exists_batchMove looping one run ends
    have pending : e ∈ q.phase.pending := by
      rw [here]
      exact List.mem_cons_self
    cases moved with
    | tick ns =>
      rw [afterReturn_step (by simp) taken]
      exact ih (fits.move (.tick ns)) here live one' run
    | user _ moved phase calls =>
      rw [afterReturn_step (fun both => calls.2 both.2) taken]
      have fits' := fits.move moved
      by_cases cancel : l = .cancelTimer e.timer
      · subst cancel
        cases moved
        -- The flag does not change what becomes of it behind the callback.
        exact ih (t := t.cancel) fits' (phase.trans here) (cancelTimer_pending fits pending live)
          one' run
      · have heap := moved.heap_eq fits (List.mem_append_right _ pending)
          (by simp [Touches, cancel, calls])
        exact ih fits' (phase.trans here) (heap.trans live) one' run
    | visit d rest there =>
      rw [here] at there
      cases there
    | afterRun d rest there =>
      rw [here] at there
      cases there
      rw [afterReturn, if_pos ⟨by rw [here]; rfl, rfl⟩]
      exact outcome_of_return fits here live one' run ends

theorem current_ne (fits : Fits q []) (mem : e ∈ q.phase.rest) : q.phase.current ≠ some e := by
  have nodup := pending_nodup fits
  cases phase : q.phase with
  | running d rest =>
    rw [phase] at mem nodup
    rintro ⟨⟩
    exact (List.nodup_cons.mp nodup).1 mem
  | expiring | idle | read => simp [Phase.current]

/-- The entry is one of those whose callbacks are started. -/
theorem outcome_of_starts (fits : Fits q []) (looping : q.phase.looping = true)
    (mem : e ∈ q.phase.rest) (live : q.heap e.timer = some t) (started : q.starts labels e = true)
    (one : .handleRead ∉ labels) (run : exec step labels q = some u)
    (ends : u.phase = .expiring []) : Outcome u e t (afterReturn e labels q) := by
  induction labels generalizing q with
  | nil =>
    cases run
    rw [ends] at mem
    cases mem
  | cons l ls ih =>
    obtain ⟨q', taken, moved, looping', one', run'⟩ := exists_batchMove looping one run ends
    have fits' := fits.move moved.move
    by_cases here : ∃ rest, q.phase = .expiring (e :: rest) ∧ l = .next
    · obtain ⟨rest, here, rfl⟩ := here
      have turn : q.phase.turn = some e := by rw [here]; rfl
      have flag : t.canceled = false := by
        simpa [starts_of_turn turn, active, live] using started
      have visited : q' = { q with phase := .running e rest, log := q.log ++ [.run t.serial] } := by
        rw [← visit_usable live flag]
        simpa [step, here] using taken.symm
      rw [afterReturn_step (by simp) taken]
      exact outcome_of_running fits' (by rw [visited]) (by rw [visited]; exact live) one' run' ends
    · have notCurrent := current_ne fits mem
      have stays : e ∈ q'.phase.rest ∧ l ≠ .cancelTimer e.timer := by
        cases moved with
        | tick ns => exact ⟨mem, by simp⟩
        | user running moved phase =>
          refine ⟨phase ▸ mem, ?_⟩
          rintro rfl
          have noTurn : q.phase.turn ≠ some e := by simp [running, Phase.turn]
          simp [starts, beforeTurn_step noTurn taken] at started
        | visit d rest there =>
          rw [there] at mem
          refine ⟨?_, by simp⟩
          rcases List.mem_cons.mp mem with rfl | mem
          · exact absurd ⟨rest, there, rfl⟩ here
          · rcases visit_phase q d rest with phase | phase <;>
              rwa [phase]
        | afterRun d rest there =>
          rw [there] at mem
          rw [afterRun_phase]
          exact ⟨mem, by simp⟩
      have untouched : ¬Touches q l e := by
        rintro (cancel | ⟨turn, rfl⟩ | ⟨current, -⟩)
        · exact stays.2 cancel
        · cases moved with
          | user _ _ _ calls => exact calls.1 rfl
          | visit d rest there =>
            rw [there] at turn
            cases turn
            exact here ⟨rest, there, rfl⟩
        · exact notCurrent current
      have heap := moved.move.heap_eq fits (mem_entries_of_rest mem) untouched
      rw [afterReturn_step (fun both => notCurrent both.1) taken]
      refine ih fits' looping' stays.1 (heap.trans live) ?_ one' run'
      rw [← (starts_step _ fits taken moved stays.1).1]
      exact started

/-! ## One `handleRead` -/

/-- The entries that `getExpired` takes are those that are due, for a clock below its maximum. -/
theorem getExpired_cut (range : InRange (q.clock + 1)) : q.getExpired.phase = .expiring q.due ∧
    ∀ d, d ∈ q.getExpired.timers ↔ d ∈ q.timers ∧ q.clock < d.when := by
  have bound : ∀ d, d < timerEntry (int64 (q.clock + 1)) 0 ↔ d.when ≤ q.clock := by
    intro d
    rw [int64_of_inRange range, Prod.Lex.lt_iff]
    constructor
    · rintro (early | ⟨-, none⟩)
      · exact Int.lt_add_one_iff.mp early
      · exact absurd none (Nat.not_lt_zero _)
    · exact fun early => Or.inl (Int.lt_add_one_iff.mpr early)
  constructor
  · show Phase.expiring (q.timers.below _) = _
    rw [OrderedSet.below_eq_filter, due]
    simp only [bound]
  · intro d
    show d ∈ q.timers.above _ ↔ _
    rw [OrderedSet.mem_above, ← not_lt, bound, not_le]

theorem Move.created_le (taken : Move q l q') : q.created ≤ q'.created := by
  by_cases new : ∃ a when interval, l = .addTimer a when interval
  · obtain ⟨a, when, interval, rfl⟩ := new
    cases taken
    rw [addTimer_created]
    exact Nat.le_succ _
  · refine Nat.le_of_eq (taken.tended ?_).created.symm
    intro a when interval same
    exact new ⟨a, when, interval, same⟩

/-- The number of a timer that is created later is none of those of the batch. -/
theorem created_le (run : exec step labels q = some u) : q.created ≤ u.created := by
  induction labels generalizing q with
  | nil =>
    cases run
    exact Nat.le_refl _
  | cons l ls ih =>
    obtain ⟨q', taken, run⟩ := Option.bind_eq_some_iff.mp run
    exact Nat.le_trans (move_of_step taken).created_le (ih run)

/-- A run inside the loop is taken apart. -/
theorem exists_middle {before after : List Label} (fits : Fits q [])
    (looping : q.phase.looping = true) (one : .handleRead ∉ before ++ after)
    (run : exec step (before ++ after) q = some u) (ends : u.phase = .expiring []) :
    ∃ q', exec step before q = some q' ∧ Fits q' [] ∧ q'.phase.looping = true ∧
      exec step after q' = some u := by
  induction before generalizing q with
  | nil => exact ⟨q, rfl, fits, looping, run⟩
  | cons l ls ih =>
    obtain ⟨q₁, taken, moved, looping₁, one₁, run₁⟩ := exists_batchMove looping one run ends
    obtain ⟨q', first, rest⟩ := ih (fits.move moved.move) looping₁ one₁ run₁
    exact ⟨q', by rw [exec, taken]; exact first, rest⟩

theorem waits_of_addTimer {when interval : Int} (q : TimerQueue) (a : Addr) :
    Waits (q.addTimer a when interval) a (.create when interval q.created) := by
  refine ⟨by rw [addTimer_heap]; exact Function.update_self .., ?_⟩
  simp only [addTimer, insertTimer]
  split <;> exact OrderedSet.mem_insert.mpr (Or.inl rfl)

theorem serialAt_lt (fits : Fits q []) (mem : e ∈ q.entries) : q.serialAt e < q.created := by
  obtain ⟨t, live, -⟩ := (fits_nil.mp fits).keyed e mem
  have old := ((fits_nil.mp fits).numbered _ t live).1
  simpa [serialAt, live] using old

theorem serialAt_inj (fits : Fits q []) (here : e ∈ q.entries) (there : d ∈ q.entries)
    (same : q.serialAt e = q.serialAt d) : e = d := by
  by_contra ne
  obtain ⟨t, live, -⟩ := (fits_nil.mp fits).keyed e here
  obtain ⟨t', live', -⟩ := (fits_nil.mp fits).keyed d there
  simp only [serialAt, live, live', Option.map_some, Option.getD_some] at same
  exact timer_ne fits here there ne ((fits_nil.mp fits).injective _ _ t t' live live' same)

theorem started_sublist : (q.started labels).Sublist q.timers.toList :=
  List.filter_sublist.trans List.filter_sublist

/-- In every reachable queue, one `handleRead` at a clock below its maximum starts the callbacks of
the timers that are due and not cancelled when their turn comes, and of no others. -/
theorem exactExpiry_of_exec {now : Int} (reached : Reaches step anyStep (create now) q)
    (here : q.phase = .read) (range : InRange (q.clock + 1))
    (run : exec step labels q.getExpired = some u) (one : .handleRead ∉ labels)
    (ends : u.phase = .expiring []) : ExactExpiry q labels u := by
  have fits := fits_reachable reached
  have fits' : Fits q.getExpired [] := fits.move (.getExpired here)
  obtain ⟨phase, above⟩ := getExpired_cut range
  have looping : q.getExpired.phase.looping = true := by rw [phase]; rfl
  have rest : q.getExpired.phase.rest = q.due := by rw [phase]; rfl
  have inSet : ∀ e ∈ q.started labels, e ∈ q.entries := fun e mem =>
    List.mem_append_left _ (started_sublist.subset mem)
  have grows : q.log <+: u.log := log_prefix (q := q.getExpired) run
  have ran : runsSince q u = (q.started labels).map q.serialAt := by
    have all := runs_of_exec fits' looping one run ends
    obtain ⟨added, log⟩ := grows
    rw [← log, runs_append, rest] at all
    rw [runsSince, ← log, List.drop_left]
    exact List.append_cancel_left all
  refine ⟨grows, ran, ?_, ?_, ?_, ?_, ?_⟩
  · rw [ran]
    refine List.Nodup.map_on (fun e here d there => ?_) (q.timers.nodup.sublist started_sublist)
    exact serialAt_inj fits (inSet e here) (inSet d there)
  · rw [List.pairwise_map]
    exact (q.timers.sorted.sublist started_sublist).imp fun less => when_mono (le_of_lt less)
  · intro e mem t live
    obtain ⟨isDue, starts⟩ := List.mem_filter.mp mem
    exact outcome_of_starts fits' looping (rest ▸ isDue) live starts one run ends
  · intro e mem notDue
    obtain ⟨t, live, same⟩ := (fits_nil.mp fits).keyed e (List.mem_append_left _ mem)
    have key : timerEntry t.when e.timer = e := by rw [same]; rfl
    have waits : Waits q.getExpired e.timer t :=
      ⟨live, key ▸ (above e).mpr ⟨mem, notDue⟩⟩
    refine (waits_of_exec waits fits' looping one run ends).imp_right fun waits => ?_
    exact ⟨key ▸ waits.entry, waits.live.trans live.symm⟩
  · rintro before a when interval after q' rfl first
    obtain ⟨q₁, first₁, fits₁, looping₁, run₁⟩ := exists_middle fits' looping one run ends
    rw [first] at first₁
    cases first₁
    constructor
    · rw [ran]
      intro mem
      obtain ⟨e, isStarted, serial⟩ := List.mem_map.mp mem
      have older := serialAt_lt fits (inSet e isStarted)
      have later := created_le (q := q.getExpired) first
      rw [serial] at older
      exact Nat.lt_irrefl _ (Nat.lt_of_lt_of_le older later)
    · have one₁ : .handleRead ∉ .addTimer a when interval :: after := fun mem =>
        one (List.mem_append_right before mem)
      obtain ⟨q₂, taken, moved, looping₂, one₂, run₂⟩ := exists_batchMove looping₁ one₁ run₁ ends
      have fits₂ := fits₁.move moved.move
      cases move_of_step taken
      exact waits_of_exec (waits_of_addTimer q' a) fits₂ looping₂ one₂ run₂ ends

instance : (phase : Phase) → Decidable (phase = .read)
  | .read => isTrue rfl
  | .idle | .expiring _ | .running _ _ => isFalse (by simp)

instance : (phase : Phase) → Decidable (phase = .expiring [])
  | .expiring [] => isTrue rfl
  | .expiring (_ :: _) | .idle | .read | .running _ _ => isFalse (by simp)

/-- The first of three callbacks cancels the second timer and adds one that is due as well. -/
def threeDue : List Label :=
  [.next, .cancelTimer 16, .addTimer 32 1000000 0, .ret, .next, .next, .ret]

/-- The second callback is not started, nor is that of the new timer; the third timer repeats. -/
theorem exactExpiry_of_threeDue : ∃ q u, ExactExpiry q threeDue u ∧
    q.due.map TimerEntry.timer = [8, 16, 24] ∧ runsSince q u = [0, 2] ∧ u.freed = [0, 1] ∧
    u.timers.toList = [timerEntry 1000000 32, timerEntry 8000000 24] := by
  obtain ⟨q, reached, here, range, due, run⟩ :
      ∃ q : TimerQueue, Reaches step anyStep (create 0) q ∧ q.phase = .read ∧
        InRange (q.clock + 1) ∧ q.due.map TimerEntry.timer = [8, 16, 24] ∧
        (exec step threeDue q.getExpired).any (fun u => u.phase = .expiring [] ∧
          runsSince q u = [0, 2] ∧ u.freed = [0, 1] ∧
          u.timers.toList = [timerEntry 1000000 32, timerEntry 8000000 24]) = true :=
    exists_reaches_of_exec [.addTimer 8 1000000 0, .addTimer 16 2000000 0,
      .addTimer 24 3000000 5000000, .tick 3000000, .handleRead] (by decide)
  obtain ⟨u, run, holds⟩ := (Option.any_eq_true _ _).mp run
  obtain ⟨ends, ran⟩ := of_decide_eq_true holds
  exact ⟨q, u, exactExpiry_of_exec reached here range run (by decide) ends, due, ran⟩

/-- A repeating timer has cancelled itself in its own callback. When it is due again, its callback
is not started, although no callback of this batch cancels it. At the maximum of the clock, nothing
is due at all. -/
theorem due_not_started :
    (∃ q u : TimerQueue, Reaches step CancelsActive (create 0) q ∧ q.phase = .read ∧
      timerEntry 2000000 8 ∈ q.timers ∧ q.clock = 2000000 ∧
      exec step [.next] q.getExpired = some u ∧ u.phase = .expiring [] ∧ runsSince q u = []) ∧
    ∃ q : TimerQueue, Reaches step CancelsActive (create 0) q ∧ q.phase = .read ∧
      timerEntry 1000000 8 ∈ q.timers ∧ q.clock = 2 ^ 63 - 1 ∧
      q.getExpired.phase = .expiring [] := by
  constructor
  · obtain ⟨q, reached, here, mem, clock, run⟩ :
        ∃ q : TimerQueue, Reaches step CancelsActive (create 0) q ∧ q.phase = .read ∧
          timerEntry 2000000 8 ∈ q.timers ∧ q.clock = 2000000 ∧
          (exec step [.next] q.getExpired).any (fun u => u.phase = .expiring [] ∧
            runsSince q u = []) = true :=
      exists_reaches_of_exec [.addTimer 8 1000000 1000000, .tick 1000000, .handleRead, .next, .next,
        .cancelTimer 8, .ret, .next, .tick 1000000, .handleRead] (by decide)
    obtain ⟨u, run, holds⟩ := (Option.any_eq_true _ _).mp run
    exact ⟨q, u, reached, here, mem, clock, run, of_decide_eq_true holds⟩
  · exact exists_reaches_of_exec [.addTimer 8 1000000 0, .tick (2 ^ 63 - 1), .handleRead]
      (by decide)

end Yvent.TimerQueue
