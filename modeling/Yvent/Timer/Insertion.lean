import Yvent.Timer.Ownership
import Yvent.Timer.ThreadStep

/-!
# Insertions from any thread

The lambda of `addTimer` reads the cells of the call that queued it. The loop thread runs it before
`addTimer` returns; for another thread nothing makes the call wait. In the runs in which no thread
returns from `addTimer` before its task has run (`WaitsForTask`) every lambda finds its cells and
inserts the entry of its call, once.
-/

namespace Yvent.TimerLoop

variable {s s' : TimerLoop} {l : Label} {i j : Nat} {t : Tid} {c : TimerCall}

/-- The side condition on a run: a thread leaves `addTimer` only when the task it queued there has
returned. -/
def WaitsForTask (s : TimerLoop) : Label → Prop
  | .leave t => ∀ i, s.place t = .handed i → .insert i ∉ s.loop.waiting
  | _ => True

instance (s : TimerLoop) : ∀ l, Decidable (WaitsForTask s l)
  | .leave t =>
    match here : s.place t with
    | .handed i => decidable_of_iff (.insert i ∉ s.loop.waiting) (by simp [WaitsForTask, here])
    | .none | .entered _ _ | .created _ | .left _ => isTrue (by simp [WaitsForTask, here])
  | .enter _ _ | .newTimer _ _ | .runInLoop _ _ | .finishCall _ | .done _ | .cancelTimer _ _
  | .addTask _ _ | .runTask _ _ | .quit _ | .loop | .poll _ | .ret _ | .handleRead | .next
  | .timerRet | .tick _ => isTrue trivial

/-- The record is the insertion of call `i`. -/
def Record.isInsertion (i : Nat) : Record → Bool
  | .inserted j _ _ => j = i
  | .badRead _ | .canceled _ _ => false

/-- How often the lambda of call `i` has inserted. -/
def insertions (s : TimerLoop) (i : Nat) : Nat := s.log.countP (Record.isInsertion i)

/-- How often the lambda of call `i` is among the tasks that have not returned. -/
def queued (s : TimerLoop) (i : Nat) : Nat := s.loop.waiting.count (.insert i)

/-- Call `c` has not handed its lambda to `runInLoop` yet. -/
def unhanded (s : TimerLoop) (i : Nat) (c : TimerCall) : Nat :=
  if s.place c.thread = .created i then 1 else 0

/-! ## Each call inserts once -/

/-- The lambda of a call is with its thread, among the tasks, or done; and while it is among the
tasks, its thread is inside `addTimer`. -/
structure Placed (s : TimerLoop) : Prop where
  owner : ∀ t i, (s.place t).inCall i = true → ∃ c, s.calls i = some c ∧ c.thread = t
  waits : ∀ i, 0 < s.queued i → ∃ c, s.calls i = some c ∧ s.place c.thread = .handed i
  old : ∀ i c, s.calls i = some c → i < s.queue.created
  logged : ∀ i, 0 < s.insertions i → ∃ c, s.calls i = some c
  once : ∀ i c, s.calls i = some c → s.insertions i + s.queued i + s.unhanded i c = 1

theorem Placed.create (tid : Tid) (now : Int) : Placed (create tid now) where
  owner t i here := by cases here
  waits i waiting := by cases waiting
  old i c called := by cases called
  logged i inserted := by cases inserted
  once i c called := by cases called

/-- What the steps that leave the lambdas alone keep. -/
structure SameLambdas (s s' : TimerLoop) : Prop where
  calls : s'.calls = s.calls
  created : s'.queue.created = s.queue.created
  insertions : ∀ i, s'.insertions i = s.insertions i
  queued : ∀ i, s'.queued i = s.queued i

theorem unhanded_update {p : Place} (place : s'.place = Function.update s.place t p)
    (before : s.place t ≠ .created i) (after : p ≠ .created i) :
    s'.unhanded i c = s.unhanded i c := by
  unfold unhanded
  rw [place]
  by_cases self : c.thread = t
  · rw [self, Function.update_self, if_neg after, if_neg before]
  · rw [Function.update_of_ne self]

/-- A thread moves on outside of `addTimer`, or leaves it with no lambda among the tasks. -/
theorem Placed.moveTo (placed : Placed s) {p : Place} (same : SameLambdas s s')
    (place : s'.place = Function.update s.place t p)
    (inCall : ∀ i, p.inCall i = true → (s.place t).inCall i = true)
    (before : ∀ i, s.place t ≠ .created i) (after : ∀ i, p ≠ .created i)
    (done : ∀ i, s.place t = .handed i → s.queued i = 0) : Placed s' where
  owner u i here := by
    rw [same.calls]
    rw [place] at here
    by_cases self : u = t
    · subst self
      rw [Function.update_self] at here
      exact placed.owner u i (inCall i here)
    · rw [Function.update_of_ne self] at here
      exact placed.owner u i here
  waits i waiting := by
    rw [same.queued] at waiting
    obtain ⟨c, called, here⟩ := placed.waits i waiting
    have other : c.thread ≠ t := by
      rintro rfl
      exact absurd (done i here) (Nat.pos_iff_ne_zero.mp waiting)
    exact ⟨c, by rw [same.calls, called], by rw [place, Function.update_of_ne other, here]⟩
  old i c called := by
    rw [same.created]
    exact placed.old i c (same.calls ▸ called)
  logged i inserted := by
    rw [same.calls]
    exact placed.logged i (same.insertions i ▸ inserted)
  once i c called := by
    rw [same.insertions, same.queued, unhanded_update place (before i) (after i)]
    exact placed.once i c (same.calls ▸ called)

/-- No thread moves. -/
theorem Placed.stay (placed : Placed s) (same : SameLambdas s s') (place : s'.place = s.place) :
    Placed s' where
  owner u i here := by
    rw [same.calls]
    exact placed.owner u i (place ▸ here)
  waits i waiting := by
    rw [same.queued] at waiting
    rw [same.calls, place]
    exact placed.waits i waiting
  old i c called := by
    rw [same.created]
    exact placed.old i c (same.calls ▸ called)
  logged i inserted := by
    rw [same.calls]
    exact placed.logged i (same.insertions i ▸ inserted)
  once i c called := by
    rw [same.insertions, same.queued, unhanded, place]
    exact placed.once i c (same.calls ▸ called)

/-- `new Timer`: a call with a new number. -/
theorem Placed.newTimer (placed : Placed s) (here : ∀ i, (s.place t).inCall i = false)
    (thread : c.thread = t)
    (place : s'.place = Function.update s.place t (.created s.queue.created))
    (calls : s'.calls = Function.update s.calls s.queue.created (some c))
    (created : s'.queue.created = s.queue.created + 1)
    (insertions : ∀ i, s'.insertions i = s.insertions i) (queued : ∀ i, s'.queued i = s.queued i) :
    Placed s' := by
  have fresh : ∀ {i d}, s.calls i = some d → i ≠ s.queue.created := fun called same =>
    absurd (placed.old _ _ called) (same ▸ Nat.lt_irrefl _)
  have kept : ∀ {i d}, s.calls i = some d → s'.calls i = some d := fun called =>
    calls ▸ update_eq_some.mpr (.inr ⟨fresh called, called⟩)
  constructor
  case owner =>
    intro u i inside
    rw [place] at inside
    by_cases self : u = t
    · subst self
      rw [Function.update_self] at inside
      obtain rfl : s.queue.created = i := by simpa [Place.inCall] using inside
      exact ⟨c, by rw [calls, Function.update_self], thread⟩
    · rw [Function.update_of_ne self] at inside
      obtain ⟨d, called, owner⟩ := placed.owner u i inside
      exact ⟨d, kept called, owner⟩
  case waits =>
    intro i waiting
    rw [queued] at waiting
    obtain ⟨d, called, handed⟩ := placed.waits i waiting
    refine ⟨d, kept called, ?_⟩
    have other : d.thread ≠ t := by
      rintro rfl
      have inside := here i
      rw [handed] at inside
      simp [Place.inCall] at inside
    rw [place, Function.update_of_ne other, handed]
  case old =>
    intro i d called
    rw [calls] at called
    rw [created]
    rcases update_eq_some.mp called with ⟨rfl, -⟩ | ⟨-, called⟩
    · exact Nat.lt_succ_self _
    · exact Nat.lt_succ_of_lt (placed.old i d called)
  case logged =>
    intro i inserted
    rw [insertions] at inserted
    obtain ⟨d, called⟩ := placed.logged i inserted
    exact ⟨d, kept called⟩
  case once =>
    intro i d called
    rw [calls] at called
    rw [insertions, queued]
    rcases update_eq_some.mp called with ⟨rfl, ⟨⟩⟩ | ⟨new, called⟩
    · have notInserted : s.insertions s.queue.created = 0 := by
        by_contra some
        obtain ⟨d, called⟩ := placed.logged _ (Nat.pos_of_ne_zero some)
        exact fresh called rfl
      have notQueued : s.queued s.queue.created = 0 := by
        by_contra some
        obtain ⟨d, called, -⟩ := placed.waits _ (Nat.pos_of_ne_zero some)
        exact fresh called rfl
      rw [notInserted, notQueued, unhanded, place, thread, Function.update_self, if_pos rfl]
    · have before : s.place t ≠ .created i := fun inside => by
        simpa [inside, Place.inCall] using here i
      have after : Place.created s.queue.created ≠ .created i := fun same =>
        new (Place.created.inj same).symm
      rw [unhanded_update place before after]
      exact placed.once i d called

/-- The lambda of call `i` is handed on: to the tasks, or from there or from its thread into
`timers_`. -/
theorem Placed.hand (placed : Placed s) (called : s.calls i = some c)
    (here : (s.place c.thread).inAddTimer i = true)
    (place : s'.place = Function.update s.place c.thread (.handed i)) (calls : s'.calls = s.calls)
    (created : s'.queue.created = s.queue.created)
    (insertions : ∀ j ≠ i, s'.insertions j = s.insertions j)
    (queued : ∀ j ≠ i, s'.queued j = s.queued j) (one : s'.insertions i + s'.queued i = 1) :
    Placed s' := by
  -- the thread of call `i` is in no other call
  have apart : ∀ j ≠ i, s.place c.thread ≠ .created j ∧ s.place c.thread ≠ .handed j := by
    intro j other
    constructor <;> intro inside <;> rw [inside] at here <;> simp [Place.inAddTimer, other] at here
  constructor
  case owner =>
    intro u j inside
    rw [place] at inside
    rw [calls]
    by_cases self : u = c.thread
    · subst self
      rw [Function.update_self] at inside
      obtain rfl : i = j := by simpa [Place.inCall] using inside
      exact ⟨c, called, rfl⟩
    · rw [Function.update_of_ne self] at inside
      exact placed.owner u j inside
  case waits =>
    intro j waiting
    rw [calls]
    by_cases same : j = i
    · exact ⟨c, same ▸ called, by rw [place, Function.update_self, same]⟩
    · rw [queued j same] at waiting
      obtain ⟨d, calledD, handed⟩ := placed.waits j waiting
      have other : d.thread ≠ c.thread := fun equal => (apart j same).2 (equal ▸ handed)
      exact ⟨d, calledD, by rw [place, Function.update_of_ne other, handed]⟩
  case old =>
    intro j d calledD
    rw [created]
    exact placed.old j d (calls ▸ calledD)
  case logged =>
    intro j inserted
    rw [calls]
    by_cases same : j = i
    · exact ⟨c, same ▸ called⟩
    · exact placed.logged j (insertions j same ▸ inserted)
  case once =>
    intro j d calledD
    rw [calls] at calledD
    by_cases same : j = i
    · subst same
      rw [called] at calledD
      cases calledD
      rw [one, unhanded, place, Function.update_self, if_neg (by simp)]
    · rw [insertions j same, queued j same, unhanded_update place (apart j same).1 (by simp)]
      exact placed.once j d calledD

/-! ## The timers that wait for their insertion -/

/-- The entries of the calls that have not inserted yet fit together with the queue, each with the
timer of its call. -/
def Held (s : TimerLoop) : Prop :=
  ∃ extra, s.queue.Fits extra ∧ ∀ i c, s.calls i = some c → s.insertions i = 0 →
    timerEntry c.when c.timer ∈ extra ∧ ∃ t, s.queue.heap c.timer = some t ∧ t.serial = i

theorem Held.create (tid : Tid) (now : Int) : Held (create tid now) :=
  ⟨[], TimerQueue.Fits.create now, fun i c called => by cases called⟩

/-- A step of the queue that inserts nothing. -/
theorem Held.tended (held : Held s)
    (fits : ∀ extra, s.queue.Fits extra → s'.queue.Fits extra)
    (tended : TimerQueue.Tended s.queue s'.queue) (calls : s'.calls = s.calls)
    (insertions : ∀ i, s'.insertions i = s.insertions i) : Held s' := by
  obtain ⟨extra, before, entries⟩ := held
  refine ⟨extra, fits extra before, fun i c called waiting => ?_⟩
  obtain ⟨member, t, live, serial⟩ :=
    entries i c (calls ▸ called) (insertions i ▸ waiting)
  obtain ⟨u, still, -⟩ := (fits extra before).keyed _ (List.mem_append_right _ member)
  rw [TimerQueue.timer_timerEntry] at still
  obtain ⟨v, origin, same, -⟩ := tended.origin _ u still
  rw [live] at origin
  cases origin
  exact ⟨member, u, still, same.trans serial⟩

theorem Held.newTimer (held : Held s) {a : Addr} {when interval : Int}
    (free : s.queue.heap a = none) (queue : s'.queue = s.queue.newTimer a when interval)
    (calls : s'.calls = Function.update s.calls s.queue.created
      (some { thread := t, when, timer := a }))
    (insertions : ∀ i, s'.insertions i = s.insertions i) : Held s' := by
  obtain ⟨extra, fits, entries⟩ := held
  refine ⟨timerEntry when a :: extra, ?_, fun i c called waiting => ?_⟩
  · rw [queue]
    exact fits.newTimer free when interval
  · rw [calls] at called
    rw [queue, TimerQueue.newTimer_heap]
    by_cases new : i = s.queue.created
    · subst new
      rw [Function.update_self] at called
      cases called
      exact ⟨List.mem_cons_self, _, Function.update_self .., rfl⟩
    · rw [Function.update_of_ne new] at called
      obtain ⟨member, u, live, serial⟩ := entries i c called (insertions i ▸ waiting)
      have other : c.timer ≠ a := by
        rintro rfl
        rw [free] at live
        cases live
      exact ⟨List.mem_cons_of_mem _ member, u, by rw [Function.update_of_ne other, live], serial⟩

/-- What waits is not in `timers_`. -/
theorem Held.fresh (held : Held s) (called : s.calls i = some c) (waiting : s.insertions i = 0) :
    timerEntry c.when c.timer ∉ s.queue.timers := by
  obtain ⟨extra, fits, entries⟩ := held
  have member := (entries i c called waiting).1
  have front := fits.perm ((List.perm_cons_erase member).append_left s.queue.entries)
  exact TimerQueue.Fits.not_mem_timers front c.when

/-- The insertion of a call that has waited. -/
theorem Held.insert (held : Held s) (called : s.calls i = some c) (waiting : s.insertions i = 0)
    (queue : s'.queue = s.queue.insertTimer c.timer c.when) (calls : s'.calls = s.calls)
    (one : s'.insertions i = 1) (insertions : ∀ j ≠ i, s'.insertions j = s.insertions j) :
    Held s' := by
  obtain ⟨extra, fits, entries⟩ := held
  obtain ⟨member, u, live, serial⟩ := entries i c called waiting
  have front := fits.perm ((List.perm_cons_erase member).append_left s.queue.entries)
  refine ⟨extra.erase (timerEntry c.when c.timer), ?_, ?_⟩
  · rw [queue]
    exact TimerQueue.Fits.insertTimer front
  · intro j d calledD waitingD
    have other : j ≠ i := by
      rintro rfl
      rw [one] at waitingD
      cases waitingD
    obtain ⟨memberD, v, liveD, serialD⟩ :=
      entries j d (calls ▸ calledD) (insertions j other ▸ waitingD)
    have apart : timerEntry d.when d.timer ≠ timerEntry c.when c.timer := by
      intro same
      have equal : d.timer = c.timer := congrArg TimerEntry.timer same
      rw [equal, live] at liveD
      cases liveD
      exact other (serialD.symm.trans serial)
    rw [queue, TimerQueue.insertTimer_heap]
    exact ⟨(List.mem_erase_of_ne apart).mpr memberD, v, liveD, serialD⟩

/-! ## The lambda -/

/-- What the lambdas have done: each read cells that were there, and inserted the entry of its
call, which was not in `timers_`. -/
structure Recorded (s : TimerLoop) : Prop where
  valid : ∀ i, .badRead i ∉ s.log
  pair : ∀ i e new, .inserted i e new ∈ s.log →
    ∃ c, s.calls i = some c ∧ e = timerEntry c.when c.timer ∧ new = true

theorem inCall_of_inAddTimer {p : Place} (here : p.inAddTimer i = true) : p.inCall i = true := by
  cases p <;> simp_all [Place.inAddTimer, Place.inCall]

/-- Inside its `addTimer` a call inserts what it created. -/
theorem insertBody_eq (called : s.calls i = some c) (here : (s.place c.thread).inAddTimer i = true)
    (fresh : timerEntry c.when c.timer ∉ s.queue.timers) (stale : Int × Addr) :
    s.insertBody i stale = { s with
      queue := s.queue.insertTimer c.timer c.when
      log := s.log ++ [.inserted i (timerEntry c.when c.timer) true] } := by
  have pTimer : s.hasPTimer i = true := by
    rw [hasPTimer, called]
    exact here
  have when : s.hasWhen i = true := by
    rw [hasWhen, called]
    exact inCall_of_inAddTimer here
  simp [insertBody, called, pTimer, when, fresh]

/-- The invariant of the runs in which a thread waits for its task. -/
structure Inserting (s : TimerLoop) : Prop where
  placed : Placed s
  held : Held s
  recorded : Recorded s

/-- A step that does not concern the lambdas of `addTimer`, with what its thread does. -/
theorem Inserting.other (inv : Inserting s) (placed : Placed s')
    (fits : ∀ extra, s.queue.Fits extra → s'.queue.Fits extra)
    (tended : TimerQueue.Tended s.queue s'.queue) (same : SameLambdas s s')
    (log : ∀ r ∈ s'.log, r ∈ s.log ∨ ∃ i hit, r = .canceled i hit) : Inserting s' where
  placed := placed
  held := inv.held.tended fits tended same.calls same.insertions
  recorded := by
    constructor
    · intro i bad
      rcases log _ bad with old | ⟨j, hit, new⟩
      · exact inv.recorded.valid i old
      · cases new
    · intro i e new inserted
      rw [same.calls]
      rcases log _ inserted with old | ⟨j, hit, new⟩
      · exact inv.recorded.pair i e new old
      · cases new

/-- The lambda of a call inside its `addTimer` runs, inline or as a task that has waited. -/
theorem Inserting.insert (inv : Inserting s) (called : s.calls i = some c)
    (here : (s.place c.thread).inAddTimer i = true) (waiting : s.insertions i = 0)
    {stale : Int × Addr} (queue : s'.queue = (s.insertBody i stale).queue)
    (log : s'.log = (s.insertBody i stale).log) (calls : s'.calls = s.calls)
    (place : s'.place = Function.update s.place c.thread (.handed i))
    (queued : ∀ j ≠ i, s'.queued j = s.queued j) (none : s'.queued i = 0) : Inserting s' := by
  have body := insertBody_eq called here (inv.held.fresh called waiting) stale
  rw [body] at queue log
  have insertions : ∀ j ≠ i, s'.insertions j = s.insertions j := by
    intro j other
    simp [TimerLoop.insertions, log, List.countP_append, Record.isInsertion, other.symm]
  have one : s'.insertions i = 1 := by
    have before : s.log.countP (Record.isInsertion i) = 0 := waiting
    simp [TimerLoop.insertions, log, List.countP_append, Record.isInsertion, before]
  refine ⟨?_, inv.held.insert called waiting queue calls one insertions, ?_, ?_⟩
  · apply inv.placed.hand called here place calls _ insertions queued (by rw [one, none])
    rw [queue]
    exact TimerQueue.insertTimer_created ..
  · intro j bad
    rw [log] at bad
    exact inv.recorded.valid j (by simpa using bad)
  · intro j e new inserted
    rw [log] at inserted
    rw [calls]
    rcases List.mem_append.mp inserted with old | last
    · exact inv.recorded.pair j e new old
    · cases List.mem_singleton.mp last
      exact ⟨c, called, rfl, rfl⟩

/-! ## Runs -/

theorem cancelBody_log (r : Record) (logged : r ∈ (s.cancelBody i).log) :
    r ∈ s.log ∨ ∃ j hit, r = .canceled j hit := by
  unfold cancelBody at logged
  split at logged
  · exact .inl logged
  · rcases List.mem_append.mp logged with old | new
    · exact .inl old
    · exact .inr ⟨i, _, List.mem_singleton.mp new⟩

theorem cancelBody_insertions (j : Nat) : (s.cancelBody i).insertions j = s.insertions j := by
  unfold cancelBody
  split
  · rfl
  · simp [insertions, List.countP_append, Record.isInsertion]

theorem cancelBody_fits (extra : List TimerEntry) (fits : s.queue.Fits extra) :
    (s.cancelBody i).queue.Fits extra := by
  unfold cancelBody
  split
  · exact fits
  · exact fits.cancelTimer _

/-- A thread moves between two places outside of the wait for its lambda. -/
theorem Inserting.moveTo (inv : Inserting s) {p : Place}
    (inCall : ∀ i, p.inCall i = true → (s.place t).inCall i = true)
    (before : ∀ i, s.place t ≠ .created i) (after : ∀ i, p ≠ .created i)
    (done : ∀ i, s.place t = .handed i → s.queued i = 0) :
    Inserting { s with place := Function.update s.place t p } := by
  have same : SameLambdas s { s with place := Function.update s.place t p } :=
    ⟨rfl, rfl, fun _ => rfl, fun _ => rfl⟩
  exact inv.other (inv.placed.moveTo same rfl inCall before after done) (fun _ fits => fits)
    (.same rfl rfl rfl) same fun _ => .inl

theorem Inserting.newTimer (inv : Inserting s) {a : Addr} {when interval : Int}
    (here : s.place t = .entered when interval) (free : s.queue.heap a = none) :
    Inserting { s with
      queue := s.queue.newTimer a when interval
      place := Function.update s.place t (.created s.queue.created)
      calls := Function.update s.calls s.queue.created
        (some { thread := t, when, timer := a }) } where
  placed := by
    refine inv.placed.newTimer (c := ⟨t, when, a⟩) ?_ rfl rfl rfl rfl (fun _ => rfl) fun _ => rfl
    simp [here, Place.inCall]
  held := inv.held.newTimer free rfl rfl fun _ => rfl
  recorded := by
    refine ⟨inv.recorded.valid, fun i e new inserted => ?_⟩
    obtain ⟨c, called, pair⟩ := inv.recorded.pair i e new inserted
    have older : i ≠ s.queue.created := Nat.ne_of_lt (inv.placed.old i c called)
    exact ⟨c, (Function.update_of_ne older ..).trans called, pair⟩

theorem Inserting.insertInline (inv : Inserting s) (here : s.place t = .created i)
    (stale : Int × Addr) :
    Inserting { s.insertBody i stale with place := Function.update s.place t (.handed i) } := by
  obtain ⟨c, called, rfl⟩ := inv.placed.owner t i (by simp [here, Place.inCall])
  have sum := inv.placed.once i c called
  rw [unhanded, if_pos here] at sum
  refine inv.insert called ?_ (by omega) rfl rfl (insertBody_calls i stale) rfl (fun j _ => ?_) ?_
  · simp [here, Place.inAddTimer]
  · simp only [queued, insertBody_loop]
  · simp only [queued, insertBody_loop] at sum ⊢
    omega

/-- The lambda is queued while its thread stays in `addTimer`. -/
theorem Inserting.push (inv : Inserting s) (here : s.place t = .created i)
    (place : s'.place = Function.update s.place t (.handed i)) (calls : s'.calls = s.calls)
    (queue : s'.queue = s.queue) (log : s'.log = s.log)
    (queued : ∀ j, s'.queued j = s.queued j + if j = i then 1 else 0) : Inserting s' := by
  obtain ⟨c, called, rfl⟩ := inv.placed.owner t i (by simp [here, Place.inCall])
  have sum := inv.placed.once i c called
  rw [unhanded, if_pos here] at sum
  have insertions : ∀ j, s'.insertions j = s.insertions j := fun j => by
    rw [TimerLoop.insertions, log, TimerLoop.insertions]
  refine ⟨?_, ?_, ?_, ?_⟩
  · apply inv.placed.hand called (by simp [here, Place.inAddTimer]) place calls
      (by rw [queue]) (fun j _ => insertions j)
    · intro j other
      rw [queued j, if_neg other, Nat.add_zero]
    · rw [insertions i, queued i, if_pos rfl]
      omega
  · exact inv.held.tended (by simp [queue]) (.same (by rw [queue]) (by rw [queue]) (by rw [queue]))
      calls insertions
  · rw [log]
    exact inv.recorded.valid
  · rw [log, calls]
    exact inv.recorded.pair

/-- A queued lambda finds its thread still in `addTimer`. -/
theorem Inserting.insertTask (inv : Inserting s) {loop : EventLoop Task} {stale : Int × Addr}
    (waiting : 0 < s.queued i)
    (queued : ∀ j, (loop.waiting.count (.insert j)) + (if j = i then 1 else 0) = s.queued j) :
    Inserting { s.insertBody i stale with loop } := by
  obtain ⟨c, called, here⟩ := inv.placed.waits i waiting
  have sum := inv.placed.once i c called
  have unmoved : Function.update s.place c.thread (.handed i) = s.place := by
    rw [← here, Function.update_eq_self]
  refine inv.insert called ?_ (by omega) rfl rfl (insertBody_calls i stale) ?_ (fun j other => ?_) ?_
  · simp [here, Place.inAddTimer]
  · rw [unmoved]
    exact insertBody_place i stale
  · have count := queued j
    rw [if_neg other] at count
    exact count
  · have count := queued i
    rw [if_pos rfl] at count
    show loop.waiting.count (.insert i) = 0
    omega

/-- A step of the loop or of `cancelTimer`. -/
theorem Inserting.stay (inv : Inserting s) (same : SameLambdas s s') (place : s'.place = s.place)
    (fits : ∀ extra, s.queue.Fits extra → s'.queue.Fits extra)
    (tended : TimerQueue.Tended s.queue s'.queue)
    (log : ∀ r ∈ s'.log, r ∈ s.log ∨ ∃ i hit, r = .canceled i hit) : Inserting s' :=
  inv.other (inv.placed.stay same place) fits tended same log

theorem Inserting.cancel (inv : Inserting s) (i : Nat) {loop : EventLoop Task}
    (queued : ∀ j, loop.waiting.count (.insert j) = s.queued j) :
    Inserting { s.cancelBody i with loop } := by
  refine inv.stay ⟨cancelBody_calls i, (cancelBody_tended i).created, cancelBody_insertions, queued⟩
    (cancelBody_place i) cancelBody_fits (cancelBody_tended i) fun r logged => cancelBody_log r logged

/-- The lambda of `cancelTimer` is no lambda of `addTimer`. -/
theorem count_cancel (tasks : List Task) (i j : Nat) :
    (tasks ++ [Task.cancel i]).count (.insert j) = tasks.count (.insert j) := by
  simp [List.count_append]

theorem count_insert (tasks : List Task) (i j : Nat) :
    (tasks ++ [Task.insert i]).count (.insert j) =
      tasks.count (.insert j) + if j = i then 1 else 0 := by
  by_cases same : j = i
  · simp [List.count_append, same]
  · simp [List.count_append, same, Ne.symm same]

theorem Inserting.move (inv : Inserting s) (good : WaitsForTask s l) (taken : Move s l s')
    (order : s.loop.QueueOrder) (order' : s'.loop.QueueOrder) : Inserting s' := by
  cases taken with
  | enter t entry when interval free => apply inv.moveTo <;> simp [free, Place.inCall]
  | newTimer t a when interval here free => exact inv.newTimer here free
  | insertInline i stale here => exact inv.insertInline here stale
  | push t stale i loop here other step =>
    refine inv.push here rfl rfl rfl rfl fun j => ?_
    have pushed := EventLoop.runInLoop_of_other other step
    apply order.waiting_count order' (n := 0)
    · rw [pushed, EventLoop.push_pushed, count_insert]
    · rw [pushed]
      rfl
  | leave t i here =>
    apply inv.moveTo <;> simp [here, Place.inCall]
    have waits := good i here
    exact List.count_eq_zero.mpr waits
  | done t i here => apply inv.moveTo <;> simp [here, Place.inCall]
  | cancelInline i returned =>
    refine inv.stay ⟨cancelBody_calls i, (cancelBody_tended i).created, cancelBody_insertions, ?_⟩
      (cancelBody_place i) cancelBody_fits (cancelBody_tended i) fun r => cancelBody_log r
    simp [queued]
  | cancelPush t i loop returned other step =>
    refine inv.stay ⟨rfl, rfl, fun _ => rfl, fun j => ?_⟩ rfl (fun _ fits => fits)
      (.same rfl rfl rfl) fun _ => .inl
    have pushed := EventLoop.runInLoop_of_other other step
    apply order.waiting_count order' (m := 0) (n := 0)
    · rw [pushed, EventLoop.push_pushed, count_cancel, Nat.add_zero]
    · rw [pushed]
      rfl
  | insertTask i stale rest loop here top step =>
    obtain ⟨pushed, finished⟩ := EventLoop.ret_of_task top here step
    apply inv.insertTask
    · simp [queued, EventLoop.waiting, here, EventLoop.Pc.running]
    · intro j
      apply order.waiting_count order' (m := 0)
      · rw [pushed, Nat.add_zero]
      · rw [finished, count_insert]
  | cancelTask i stale rest loop here top step =>
    obtain ⟨pushed, finished⟩ := EventLoop.ret_of_task top here step
    apply inv.cancel
    intro j
    apply order.waiting_count order' (m := 0) (n := 0)
    · rw [pushed, Nat.add_zero]
    · rw [finished, count_cancel, Nat.add_zero]
  | onLoop l m loop plain silent step =>
    refine inv.stay ⟨rfl, rfl, fun _ => rfl, fun j => ?_⟩ rfl (fun _ fits => fits)
      (.same rfl rfl rfl) fun _ => .inl
    obtain ⟨pushed, finished⟩ := plain.counts step (.insert j) (by simp)
    exact order.waiting_count order' (m := 0) (n := 0) pushed finished
  | onQueue l m queue dispatch silent step =>
    have tended := dispatch_tended dispatch step
    exact inv.stay ⟨rfl, tended.created, fun _ => rfl, fun _ => rfl⟩ rfl
      (fun extra fits => fits.move (TimerQueue.move_of_step step)) tended fun _ => .inl

/-- In the runs in which no thread leaves `addTimer` before its task has run. -/
theorem inserting_reachable {tid : Tid} {now : Int}
    (reached : Reaches step WaitsForTask (create tid now) s) : Inserting s := by
  induction reached with
  | refl => exact ⟨.create tid now, .create tid now, by simp [create], by simp [create]⟩
  | tail l before good taken ih =>
    have after := before.tail l good taken
    exact ih.move good (move_of_step taken) (queueOrder_reachable before)
      (queueOrder_reachable after)

/-- No lambda has read a cell that was gone; each has inserted the entry of its call, which was not
in `timers_`; and each call has its lambda in one place: still to be handed over, among the tasks,
or done. -/
structure SafeInsertions (s : TimerLoop) : Prop where
  valid : ∀ i, .badRead i ∉ s.log
  pair : ∀ i e new, .inserted i e new ∈ s.log →
    ∃ c, s.calls i = some c ∧ e = timerEntry c.when c.timer ∧ new = true
  once : ∀ i c, s.calls i = some c → s.insertions i + s.queued i + s.unhanded i c = 1
  served : ∀ i, s.returned i = true → s.insertions i = 1

/-- Timers are inserted safely from every thread that waits for its task. -/
theorem safeInsertions_of_waitsForTask {tid : Tid} {now : Int}
    (reached : Reaches step WaitsForTask (create tid now) s) : SafeInsertions s := by
  have inv := inserting_reachable reached
  refine ⟨inv.recorded.valid, inv.recorded.pair, inv.placed.once, fun i returned => ?_⟩
  obtain ⟨c, called, outside⟩ := (Option.any_eq_true _ _).mp returned
  have sum := inv.placed.once i c called
  have handed : s.unhanded i c = 0 := by
    rw [unhanded, if_neg]
    intro here
    simp [here, Place.inCall] at outside
  have unqueued : s.queued i = 0 := by
    by_contra waiting
    obtain ⟨d, calledD, here⟩ := inv.placed.waits i (Nat.pos_of_ne_zero waiting)
    rw [called] at calledD
    cases calledD
    simp [here, Place.inCall] at outside
  omega

/-- Thread `2` stays in `addTimer` until the loop has run its task. -/
theorem safeInsertions_across_threads :
    ∃ s : TimerLoop, s.log = [.inserted 0 (timerEntry 5000000 8) true] ∧ s.returned 0 = true ∧
      SafeInsertions s := by
  have run : ∃ s : TimerLoop, Reaches step WaitsForTask (create 1 0) s ∧
      (s.log = [.inserted 0 (timerEntry 5000000 8) true] ∧ s.returned 0 = true) :=
    exists_reaches_of_exec [.enter 2 (.runAfter 5000000), .newTimer 2 8, .runInLoop 2 (0, 0),
      .finishCall 2, .loop, .loop, .poll [.wakeup], .loop, .loop, .loop, .loop, .loop, .ret (0, 0),
      .leave 2, .done 2] (by decide)
  obtain ⟨s, reached, log, returned⟩ := run
  exact ⟨s, log, returned, safeInsertions_of_waitsForTask reached⟩

/-- Thread `2` returns from `runAt` before the loop runs the task: it reads two cells that are
gone. -/
theorem returned_before_task :
    ∃ s : TimerLoop, Reaches step anyStep (create 1 0) s ∧ .badRead 0 ∈ s.log ∧
      ¬SafeInsertions s := by
  obtain ⟨s, reached, bad⟩ : ∃ s : TimerLoop, Reaches step anyStep (create 1 0) s ∧
      .badRead 0 ∈ s.log :=
    exists_reaches_of_exec [.enter 2 (.runAt 5000000), .newTimer 2 8, .runInLoop 2 (0, 0),
      .finishCall 2, .leave 2, .done 2, .loop, .loop, .poll [.wakeup], .loop, .loop, .loop, .loop,
      .loop, .ret (77, 96)] (by decide)
  exact ⟨s, reached, bad, fun safe => safe.valid 0 bad⟩

end Yvent.TimerLoop
