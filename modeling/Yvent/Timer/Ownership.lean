import Yvent.Timer.Step

/-!
# Every timer has one owner

Each operation of the timer queue keeps the ledger of its entries and never touches a freed timer,
when `cancelTimer` is called on timers that are neither freed nor cancelled. In every reachable
state each timer is then in `timers_` under its own due time, in the unfinished batch, or freed, and
in one of these places only.
-/

namespace Yvent.TimerQueue

variable {q q' : TimerQueue} {l : Label}

/-- The timer at this address is live and not cancelled. -/
def active (q : TimerQueue) (timer : Addr) : Bool := (q.heap timer).any fun t => !t.canceled

/-- The side condition on a run: `cancelTimer` is called on active timers. -/
def CancelsActive (q : TimerQueue) : Label → Prop
  | .cancelTimer timer => q.active timer = true
  | _ => True

instance : ∀ (q : TimerQueue) (l : Label), Decidable (CancelsActive q l)
  | _, .cancelTimer _ => inferInstanceAs (Decidable (_ = _))
  | _, .tick _ | _, .addTimer _ _ _ | _, .handleRead | _, .next | _, .ret => isTrue trivial

/-- The event is no use of a freed timer and no failed assertion. -/
def Event.harmless : Event → Prop
  | .useFreed _ | .assertFailed => False
  | .run _ | .settime _ _ _ _ => True

/-- The ledger of the queue, and a history without use of a freed timer. -/
structure Owned (q : TimerQueue) : Prop where
  ledger : Ledger q.entries q.heap q.created q.freed
  clean : ∀ e ∈ q.log, e.harmless

/-- Entries and heap of the queue fit together with the entries in `extra`, whose timers have been
created and not yet inserted. -/
def Fits (q : TimerQueue) (extra : List TimerEntry) : Prop :=
  Ledger (q.entries ++ extra) q.heap q.created q.freed

theorem fits_nil : Fits q [] ↔ Ledger q.entries q.heap q.created q.freed := by
  rw [Fits, List.append_nil]

theorem Fits.create (now : Int) : Fits (create now) [] := Ledger.empty

/-! ## The parts of the operations -/

section Operations

variable {extra : List TimerEntry}

/-- `delete` of the timer of an entry that has just left the set or the batch. -/
theorem Fits.delete {e : TimerEntry} {t : Timer} (live : q.heap e.timer = some t)
    (led : Ledger (e :: (q.entries ++ extra)) q.heap q.created q.freed) :
    Fits (q.delete e.timer) extra := by
  simp only [TimerQueue.delete, live]
  exact led.free live

theorem Fits.newTimer (fits : Fits q extra) {a : Addr} (free : q.heap a = none) (w : Int)
    (interval : Int) : Fits (q.newTimer a w interval) (timerEntry w a :: extra) :=
  (Ledger.new fits free w interval).perm List.perm_middle.symm

/-- What waits for its insertion is not in the set. -/
theorem Fits.not_mem_timers {e : TimerEntry} (fits : Fits q (e :: extra)) (w : Int) :
    timerEntry w e.timer ∉ q.timers := by
  intro member
  have front := fits.perm List.perm_middle
  apply (List.nodup_cons.mp front.distinct).1
  exact List.mem_map.mpr ⟨_, List.mem_append_left _ (List.mem_append_left _ member), rfl⟩

theorem Fits.insertTimer {a : Addr} {w : Int} (fits : Fits q (timerEntry w a :: extra)) :
    Fits (q.insertTimer a w) extra := by
  have inserted : Fits { q with timers := q.timers.insert (timerEntry w a) } extra := by
    refine (fits.perm List.perm_middle).perm ?_
    exact ((OrderedSet.toList_insert_perm (fits.not_mem_timers w)).symm.append_right _).append_right _
  simp only [TimerQueue.insertTimer]
  split <;> exact inserted

theorem Fits.addTimer (fits : Fits q extra) {a : Addr} (free : q.heap a = none) (w : Int)
    (interval : Int) : Fits (q.addTimer a w interval) extra :=
  (fits.newTimer free w interval).insertTimer

/-- A cancelled timer keeps its entry or is freed with it; a freed one is left alone. -/
theorem Fits.cancelTimer (fits : Fits q extra) (a : Addr) : Fits (q.cancelTimer a) extra := by
  unfold TimerQueue.cancelTimer
  split
  · exact fits
  · next t live =>
    have flagged : Ledger (q.entries ++ extra) (Function.update q.heap a (some t.cancel)) q.created
        q.freed := fits.set live rfl rfl
    dsimp only
    split
    · next member =>
      refine Fits.delete (e := timerEntry t.when a) (t := t.cancel) (Function.update_self ..) ?_
      refine flagged.perm ?_
      exact ((OrderedSet.toList_perm_erase member).append_right _).append_right _
    · exact flagged

/-- Reading the timerfd changes neither entries nor heap. -/
theorem Fits.readTimerfd (fits : Fits q extra) (here : q.phase = .idle) :
    Fits { q.readTimerfd with phase := .read } extra := by
  rw [Fits, entries, here] at fits
  unfold TimerQueue.readTimerfd
  split
  · split <;> exact fits
  · exact fits

/-- The expired entries move from the set to the batch. -/
theorem Fits.getExpired (fits : Fits q extra) (here : q.phase = .read) :
    Fits q.getExpired extra := by
  rw [Fits, entries, here] at fits
  refine fits.perm (List.Perm.append_right _ ?_)
  let bound := timerEntry (int64 (q.clock + 1)) 0
  calc q.timers.toList ++ Phase.read.pending
      = q.timers.below bound ++ (q.timers.above bound).toList := by
        rw [OrderedSet.below_append_above]
        exact List.append_nil _
    List.Perm _ ((q.timers.above bound).toList ++ q.timers.below bound) := List.perm_append_comm

/-- The entry under way comes first. -/
theorem front_perm {timers : List TimerEntry} {e : TimerEntry} {rest : List TimerEntry} :
    (timers ++ e :: rest ++ extra).Perm (e :: (timers ++ rest ++ extra)) :=
  List.perm_middle.append_right extra

theorem Fits.visit (fits : Fits q extra) {e : TimerEntry} {rest : List TimerEntry}
    (here : q.phase = .expiring (e :: rest)) : Fits (q.visit e rest) extra := by
  rw [Fits, entries, here] at fits
  obtain ⟨t, live, _⟩ := fits.keyed e (by simp [Phase.pending])
  simp only [TimerQueue.visit, live]
  split
  · exact Fits.delete (q := { q with phase := .expiring rest }) live (fits.perm front_perm)
  · exact fits

/-- A repeating timer goes back to the set under its next due time, any other one is freed. -/
theorem Fits.afterRun (fits : Fits q extra) {e : TimerEntry} {rest : List TimerEntry}
    (here : q.phase = .running e rest) : Fits (q.afterRun e rest) extra := by
  rw [Fits, entries, here] at fits
  obtain ⟨t, live, _⟩ := fits.keyed e (by simp [Phase.pending])
  have front := fits.perm front_perm
  simp only [TimerQueue.afterRun, live]
  split
  · have fresh : timerEntry t.restart.when e.timer ∉ q.timers := by
      intro member
      apply (List.nodup_cons.mp front.distinct).1
      exact List.mem_map.mpr
        ⟨_, List.mem_append_left _ (List.mem_append_left _ member), rfl⟩
    refine (front.rekey (r := t.restart) live rfl).perm ?_
    exact ((OrderedSet.toList_insert_perm fresh).symm.append_right _).append_right _
  · exact Fits.delete (q := { q with phase := .expiring rest }) live front

theorem Fits.rearm (fits : Fits q extra) (here : q.phase = .expiring []) : Fits q.rearm extra := by
  rw [Fits, entries, here] at fits
  unfold TimerQueue.rearm
  split <;> exact fits

theorem Fits.move (fits : Fits q extra) (taken : Move q l q') : Fits q' extra := by
  cases taken with
  | tick ns => exact fits
  | addTimer a w interval free => exact fits.addTimer free w interval
  | cancelTimer a => exact fits.cancelTimer a
  | handleRead here => exact fits.readTimerfd here
  | getExpired here => exact fits.getExpired here
  | visit e rest here => exact fits.visit here
  | rearm here => exact fits.rearm here
  | afterRun e rest here => exact fits.afterRun here

end Operations

/-! ## Runs -/

/-- Entries and heap fit together in every run, whatever is cancelled. -/
theorem fits_reachable {now : Int} (reached : Reaches step anyStep (create now) q) : Fits q [] :=
  reached.invariant (I := (Fits · [])) (Fits.create now) fun _ _ _ _ fits _ taken =>
    fits.move (move_of_step taken)

/-- No event of a step that cancels at most an active timer is harmful. -/
theorem harmless_of_cause {e : Event} (fits : Fits q []) (good : CancelsActive q l)
    (cause : e.cause q l) : e.harmless := by
  cases e with
  | run | settime => trivial
  | useFreed a =>
    obtain ⟨free, rfl | ⟨e, member, rfl⟩⟩ := cause
    · obtain ⟨t, live, _⟩ := (Option.any_eq_true _ _).mp good
      rw [free] at live
      cases live
    · obtain ⟨t, live, _⟩ := (fits_nil.mp fits).keyed e member
      rw [free] at live
      cases live
  | assertFailed =>
    obtain ⟨a, t, rfl, live, canceled⟩ := cause
    have active : q.active a = true := good
    simp [TimerQueue.active, live, canceled] at active

theorem Owned.move (inv : Owned q) (good : CancelsActive q l) (taken : Move q l q') :
    Owned q' where
  ledger := fits_nil.mp ((fits_nil.mpr inv.ledger).move taken)
  clean := by
    obtain ⟨added, log, cause⟩ := taken.log
    intro e member
    rw [log] at member
    rcases List.mem_append.mp member with old | new
    · exact inv.clean e old
    · exact harmless_of_cause (fits_nil.mpr inv.ledger) good (cause e new)

theorem owned_reachable {now : Int} (reached : Reaches step CancelsActive (create now) q) :
    Owned q :=
  reached.invariant ⟨fits_nil.mp (Fits.create now), by simp [create]⟩ fun _ _ _ _ inv good taken =>
    inv.move good (move_of_step taken)

/-- Timer number `i` is in `timers_` under the key `(when(), itself)`. -/
def InTimers (q : TimerQueue) (i : Nat) : Prop :=
  ∃ a t, q.heap a = some t ∧ t.serial = i ∧ timerEntry t.when a ∈ q.timers

/-- Timer number `i` is in the unfinished batch. -/
def InBatch (q : TimerQueue) (i : Nat) : Prop :=
  ∃ a t, q.heap a = some t ∧ t.serial = i ∧ timerEntry t.when a ∈ q.phase.pending

/-- Each timer created so far is in one place; `distinct` says that no two entries share a timer,
`freedOnce` that none was freed twice and `clean` that no freed timer was read, run or
re-inserted and no assertion of `Timer::cancel` failed. -/
structure OneOwner (q : TimerQueue) : Prop where
  somewhere : ∀ i < q.created, InTimers q i ∨ InBatch q i ∨ i ∈ q.freed
  onlyTimers : ∀ i, InTimers q i → ¬ InBatch q i ∧ i ∉ q.freed
  onlyBatch : ∀ i, InBatch q i → i ∉ q.freed
  distinct : (q.entries.map TimerEntry.timer).Nodup
  freedOnce : q.freed.Nodup
  clean : ∀ e ∈ q.log, e.harmless

theorem Owned.oneOwner (inv : Owned q) : OneOwner q where
  somewhere := by
    intro i less
    rcases inv.ledger.accounted i less with freed | ⟨a, t, live, serial⟩
    · exact .inr (.inr freed)
    · rcases List.mem_append.mp (inv.ledger.owned a t live) with inSet | inBatch
      · exact .inl ⟨a, t, live, serial, inSet⟩
      · exact .inr (.inl ⟨a, t, live, serial, inBatch⟩)
  onlyTimers := by
    rintro i ⟨a, t, live, serial, inSet⟩
    constructor
    · rintro ⟨b, u, liveU, serialU, inBatch⟩
      obtain rfl := inv.ledger.injective a b t u live liveU (serial.trans serialU.symm)
      have distinct := inv.ledger.distinct
      rw [entries, List.map_append] at distinct
      exact (List.nodup_append.mp distinct).2.2 a (List.mem_map.mpr ⟨_, inSet, rfl⟩) a
        (List.mem_map.mpr ⟨_, inBatch, rfl⟩) rfl
    · rw [← serial]
      exact (inv.ledger.numbered a t live).2
  onlyBatch := by
    rintro i ⟨a, t, live, serial, _⟩
    rw [← serial]
    exact (inv.ledger.numbered a t live).2
  distinct := inv.ledger.distinct
  freedOnce := inv.ledger.freedOnce
  clean := inv.clean

/-- In every run that cancels only active timers, each timer has exactly one owner. -/
theorem oneOwner_reachable {now : Int}
    (reached : Reaches step CancelsActive (create now) q) : OneOwner q :=
  (owned_reachable reached).oneOwner

/-- A repeating timer cancels itself from its own callback, goes back to the set once more, and is
freed when it is due again; its address is then used for another timer. -/
theorem oneOwner_self_cancel :
    ∃ q : TimerQueue, q.freed = [0] ∧ q.created = 2 ∧ OneOwner q := by
  have run : ∃ q : TimerQueue, Reaches step CancelsActive (create 0) q ∧
      (q.freed = [0] ∧ q.created = 2) :=
    exists_reaches_of_exec [.addTimer 8 1000000 1000000, .tick 1000000, .handleRead, .next, .next,
      .cancelTimer 8, .ret, .next, .tick 1000000, .handleRead, .next, .next, .next,
      .addTimer 8 5000000 0] (by decide)
  obtain ⟨q, reached, freed, created⟩ := run
  exact ⟨q, freed, created, oneOwner_reachable reached⟩

end Yvent.TimerQueue
