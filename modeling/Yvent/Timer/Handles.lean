import Yvent.Timer.Cancellation
import Yvent.Timer.ThreadStep

/-!
# Timer handles

A handle is the address of its timer. `cancelTimer` follows the address when its lambda runs: by
then the timer may have been freed, and the allocator may have given the address to another one. As
long as the timer itself is there, it is the one at its address.
-/

namespace Yvent

namespace TimerQueue

variable {q q' : TimerQueue} {i : Nat} {a : Addr}

/-- Timer number `i` is at this address, unless it has been freed. -/
def HandleOk (q : TimerQueue) (i : Nat) (a : Addr) : Prop :=
  i ∈ q.freed ∨ ∃ t, q.heap a = some t ∧ t.serial = i

theorem HandleOk.tended (ok : q.HandleOk i a) (tended : Tended q q') : q'.HandleOk i a := by
  rcases ok with freed | ⟨t, live, rfl⟩
  · exact .inl (tended.freed i freed)
  · rcases tended.kept a t live with ⟨u, still, serial⟩ | freed
    · exact .inr ⟨u, still, serial⟩
    · exact .inl freed

/-- The allocator gives away only an address whose timer has been freed. -/
theorem HandleOk.newTimer (ok : q.HandleOk i a) {b : Addr} (free : q.heap b = none)
    (when interval : Int) : (q.newTimer b when interval).HandleOk i a := by
  rcases ok with freed | ⟨t, live, serial⟩
  · exact .inl freed
  · have other : a ≠ b := by
      rintro rfl
      rw [free] at live
      cases live
    exact .inr ⟨t, by rw [newTimer_heap, Function.update_of_ne other, live], serial⟩

/-- `cancelTimer` always does something: it reports a freed timer or a second cancellation, or the
flag is new. -/
theorem cancelTimer_ne : q.cancelTimer a ≠ q := by
  intro same
  cases live : q.heap a with
  | none =>
    have log : (q.cancelTimer a).log = q.log ++ [.useFreed a] := by
      simp only [cancelTimer, live]
    rw [same] at log
    simp at log
  | some t =>
    have flagged := cancelTimer_self live (u := t) (by rw [same, live])
    have log : (q.cancelTimer a).log = q.log ++ [.assertFailed] := by
      simp only [cancelTimer, live, flagged, if_true]
      split
      · exact delete_log (Function.update_self ..)
      · rfl
    rw [same] at log
    simp at log

/-- `cancelTimer` of a live timer touches no freed one. -/
theorem cancelTimer_useFreed {t : Timer} (live : q.heap a = some t) :
    ∃ added, (q.cancelTimer a).log = q.log ++ added ∧ ∀ b, .useFreed b ∉ added := by
  have logged : ∃ added, (if t.canceled then q.log ++ [.assertFailed] else q.log) =
      q.log ++ added ∧ ∀ b, Event.useFreed b ∉ added := by
    split
    · exact ⟨[.assertFailed], rfl, by simp⟩
    · exact ⟨[], (List.append_nil _).symm, by simp⟩
  simp only [cancelTimer, live]
  split
  · rw [delete_log (Function.update_self ..)]
    exact logged
  · exact logged

end TimerQueue

namespace TimerLoop

variable {s s' : TimerLoop} {l : Label} {i : Nat}

/-- Each handle leads to its timer until that is freed, and a queued cancellation is one with the
handle of a call. -/
structure Handles (s : TimerLoop) : Prop where
  leads : ∀ i c, s.calls i = some c → s.queue.HandleOk i c.timer
  issued : ∀ i, .cancel i ∈ s.loop.pushed → ∃ c, s.calls i = some c

theorem Handles.create (tid : Tid) (now : Int) : Handles (create tid now) where
  leads i c called := by cases called
  issued i pushed := by cases pushed

/-- A step of the lambdas or of the timer queue that adds no call and pushes nothing. -/
theorem Handles.tended (handles : Handles s) (tended : TimerQueue.Tended s.queue s'.queue)
    (calls : s'.calls = s.calls) (pushed : s'.loop.pushed = s.loop.pushed) : Handles s' where
  leads i c called := (handles.leads i c (calls ▸ called)).tended tended
  issued i queued := by
    rw [calls]
    exact handles.issued i (pushed ▸ queued)

theorem Handles.newTimer (handles : Handles s) {a : Addr} (free : s.queue.heap a = none) (t : Tid)
    (when interval : Int) (place : Tid → Place) :
    Handles { s with
      queue := s.queue.newTimer a when interval
      place
      calls := Function.update s.calls s.queue.created (some { thread := t, when, timer := a }) } where
  leads j c called := by
    rcases update_eq_some.mp called with ⟨rfl, ⟨⟩⟩ | ⟨-, called⟩
    · exact .inr ⟨_, Function.update_self .., rfl⟩
    · exact (handles.leads j c called).newTimer free when interval
  issued j queued := by
    dsimp only
    by_cases new : j = s.queue.created
    · exact ⟨_, by rw [new, Function.update_self]⟩
    · obtain ⟨c, called⟩ := handles.issued j queued
      exact ⟨c, by rw [Function.update_of_ne new, called]⟩

theorem call_of_returned (returned : s.returned i = true) : ∃ c, s.calls i = some c := by
  obtain ⟨c, called, -⟩ := (Option.any_eq_true _ _).mp returned
  exact ⟨c, called⟩

theorem Handles.move (handles : Handles s) (taken : Move s l s') : Handles s' := by
  cases taken with
  | enter | leave | done => exact handles.tended (.same rfl rfl rfl) rfl rfl
  | newTimer t a when interval here free => exact handles.newTimer free t when interval _
  | insertInline j stale here =>
    exact handles.tended (insertBody_tended j stale) (insertBody_calls j stale)
      (by rw [insertBody_loop])
  | cancelInline j returned =>
    exact handles.tended (cancelBody_tended j) (cancelBody_calls j) (by rw [cancelBody_loop])
  | insertTask j stale rest loop here top step =>
    exact handles.tended (insertBody_tended j stale) (insertBody_calls j stale)
      (EventLoop.ret_of_task top here step).1
  | cancelTask j stale rest loop here top step =>
    exact handles.tended (cancelBody_tended j) (cancelBody_calls j)
      (EventLoop.ret_of_task top here step).1
  | push t stale j loop here other step =>
    refine ⟨handles.leads, fun k queued => handles.issued k ?_⟩
    rw [EventLoop.runInLoop_of_other other step] at queued
    simpa using queued
  | cancelPush t j loop returned other step =>
    refine ⟨handles.leads, fun k queued => ?_⟩
    rw [EventLoop.runInLoop_of_other other step] at queued
    rcases List.mem_append.mp queued with old | new
    · exact handles.issued k old
    · cases List.mem_singleton.mp new
      exact call_of_returned returned
  | onLoop l m loop plain silent step =>
    refine ⟨handles.leads, fun k queued => handles.issued k ?_⟩
    have same := (plain.counts step (.cancel k) (by simp)).1
    rw [← List.count_pos_iff] at queued ⊢
    rwa [← same]
  | onQueue l m queue dispatch silent step =>
    exact handles.tended (dispatch_tended dispatch step) rfl rfl

theorem handles_reachable {ok : TimerLoop → Label → Prop} {tid : Tid} {now : Int}
    (reached : Reaches step ok (create tid now) s) : Handles s :=
  reached.invariant (Handles.create tid now) fun _ _ _ _ handles _ taken =>
    handles.move (move_of_step taken)

/-! ## Cancellations -/

/-- A cancellation with the handle of call `i`: no freed timer is touched, no timer but the one that
the call created changes its state or its place, and once that one is freed nothing changes. -/
structure HarmlessCancel (s s' : TimerLoop) (i : Nat) : Prop where
  noFreed : ∃ added, s'.queue.log = s.queue.log ++ added ∧ ∀ a, .useFreed a ∉ added
  others : ∀ a t, s.queue.heap a = some t → t.serial ≠ i → s'.queue.heap a = some t
  timers : ∀ e t, s.queue.heap e.timer = some t → t.serial ≠ i →
    (e ∈ s'.queue.timers ↔ e ∈ s.queue.timers)
  phase : s'.queue.phase = s.queue.phase
  gone : i ∈ s.queue.freed → s'.queue = s.queue

/-- The side condition on a run: a lambda of `cancelTimer` runs while the timer of its handle has
not been freed. -/
def TimerExists (s : TimerLoop) (l : Label) : Prop := ∀ i ∈ s.cancels l, i ∉ s.queue.freed

instance (s : TimerLoop) (l : Label) : Decidable (TimerExists s l) :=
  inferInstanceAs (Decidable (∀ i ∈ s.cancels l, i ∉ s.queue.freed))

/-- A step that runs a lambda of `cancelTimer` is `cancelTimer` with the address of a call. -/
theorem cancelTimer_of_cancels (handles : Handles s) (order : s.loop.QueueOrder)
    (taken : Move s l s') (runs : s.cancels l = some i) :
    ∃ c, s.calls i = some c ∧ s'.queue = s.queue.cancelTimer c.timer ∧
      s'.log = s.log ++ [.canceled i ((s.queue.heap c.timer).map Timer.serial)] := by
  cases taken with
  | enter | newTimer | insertInline | push | leave | done => cases runs
  | cancelInline j returned =>
    rw [cancels, if_pos rfl] at runs
    cases runs
    obtain ⟨c, called⟩ := call_of_returned returned
    refine ⟨c, called, ?_, ?_⟩ <;> simp only [cancelBody, called]
  | cancelPush t j loop returned other step =>
    rw [cancels, if_neg other] at runs
    cases runs
  | insertTask j stale rest loop here top step =>
    rw [cancels, if_neg (by simp [top])] at runs
    simp [here] at runs
  | cancelTask j stale rest loop here top step =>
    rw [cancels, if_neg (by simp [top])] at runs
    obtain rfl : j = i := by simpa [here] using runs
    have queued : .cancel j ∈ s.loop.pushed := by
      rw [← order.order, here]
      simp [EventLoop.Pc.running]
    obtain ⟨c, called⟩ := handles.issued j queued
    refine ⟨c, called, ?_, ?_⟩ <;> simp only [cancelBody, called]
  | onLoop l m loop plain silent step => cases silent.symm.trans runs
  | onQueue l m queue dispatch silent step => cases silent.symm.trans runs

/-- A cancellation is harmless exactly when the timer of the handle is still there. -/
theorem harmlessCancel_iff (handles : Handles s) (order : s.loop.QueueOrder) (taken : Move s l s')
    (runs : s.cancels l = some i) : HarmlessCancel s s' i ↔ i ∉ s.queue.freed := by
  obtain ⟨c, called, queue, -⟩ := cancelTimer_of_cancels handles order taken runs
  constructor
  · intro harmless freed
    apply TimerQueue.cancelTimer_ne (q := s.queue) (a := c.timer)
    rw [← queue]
    exact harmless.gone freed
  · intro unfreed
    obtain ⟨t, live, serial⟩ := (handles.leads i c called).resolve_left unfreed
    have apart : ∀ {a u}, s.queue.heap a = some u → u.serial ≠ i → a ≠ c.timer := by
      rintro a u alive other rfl
      rw [live] at alive
      cases alive
      exact other serial
    refine ⟨?_, ?_, ?_, ?_, fun freed => absurd freed unfreed⟩
    · rw [queue]
      exact TimerQueue.cancelTimer_useFreed live
    · intro a u alive other
      rw [queue, TimerQueue.cancelTimer_heap (apart alive other), alive]
    · intro e u alive other
      rw [queue]
      exact TimerQueue.cancelTimer_timers (apart alive other)
    · rw [queue]
      exact TimerQueue.cancelTimer_phase

/-- No other step cancels. -/
theorem canceled_of_silent (taken : Move s l s') (silent : s.cancels l = none) {hit : Option Nat}
    (logged : .canceled i hit ∈ s'.log) : .canceled i hit ∈ s.log := by
  have inserts : ∀ j stale, .canceled i hit ∈ (s.insertBody j stale).log →
      .canceled i hit ∈ s.log := by
    intro j stale logged
    unfold insertBody at logged
    split at logged
    · exact logged
    · dsimp only at logged
      split at logged <;> simpa using logged
  cases taken with
  | enter | newTimer | push | leave | done | cancelPush | onLoop | onQueue => exact logged
  | insertInline j stale | insertTask j stale => exact inserts j stale logged
  | cancelInline j returned => simp [cancels] at silent
  | cancelTask j stale rest loop here top step => simp [cancels, here, top] at silent

/-- Every cancellation so far found the timer of its handle; the next one is harmless if it meets
the condition, and otherwise not. -/
structure StaleSafe (s : TimerLoop) : Prop where
  hits : ∀ i hit, .canceled i hit ∈ s.log → hit = some i
  harmless : ∀ l s' i, step s l = some s' → s.cancels l = some i →
    (HarmlessCancel s s' i ↔ i ∉ s.queue.freed)

theorem hits_move (handles : Handles s) (order : s.loop.QueueOrder)
    (hits : ∀ i hit, .canceled i hit ∈ s.log → hit = some i) (good : TimerExists s l)
    (taken : Move s l s') : ∀ i hit, .canceled i hit ∈ s'.log → hit = some i := by
  intro i hit logged
  cases runs : s.cancels l with
  | none => exact hits i hit (canceled_of_silent taken runs logged)
  | some j =>
    obtain ⟨c, called, -, log⟩ := cancelTimer_of_cancels handles order taken runs
    rw [log] at logged
    rcases List.mem_append.mp logged with old | new
    · exact hits i hit old
    · cases List.mem_singleton.mp new
      obtain ⟨t, live, serial⟩ := (handles.leads i c called).resolve_left (good i runs)
      rw [live, Option.map_some, serial]

/-- In every run in which each cancellation finds its timer not yet freed, it cancels that timer and
nothing else. -/
theorem staleSafe_of_timerExists {tid : Tid} {now : Int}
    (reached : Reaches step TimerExists (create tid now) s) : StaleSafe s where
  hits := by
    refine reached.invariant (I := fun s => ∀ i hit, .canceled i hit ∈ s.log → hit = some i)
      (by simp [create]) fun _ _ _ before hits good taken => ?_
    exact hits_move (handles_reachable before) (queueOrder_reachable before) hits good
      (move_of_step taken)
  harmless _ _ _ taken runs :=
    harmlessCancel_iff (handles_reachable reached) (queueOrder_reachable reached)
      (move_of_step taken) runs

/-- Thread `2` cancels a timer while its callback is still to come. -/
theorem staleSafe_after_cancel :
    ∃ s : TimerLoop, s.log = [.inserted 0 (timerEntry 5000000 8) true, .canceled 0 (some 0)] ∧
      StaleSafe s := by
  have run : ∃ s : TimerLoop, Reaches step TimerExists (create 1 0) s ∧
      s.log = [.inserted 0 (timerEntry 5000000 8) true, .canceled 0 (some 0)] :=
    exists_reaches_of_exec [.enter 1 (.runAt 5000000), .newTimer 1 8, .runInLoop 1 (0, 0), .leave 1,
      .done 1, .cancelTimer 2 0, .finishCall 2, .loop, .loop, .poll [.wakeup], .loop, .loop, .loop,
      .loop, .loop, .ret (0, 0)] (by decide)
  obtain ⟨s, reached, log⟩ := run
  exact ⟨s, log, staleSafe_of_timerExists reached⟩

/-- A timer fires and is freed, its address is given to a second timer, and the first handle cancels
that one. -/
theorem stale_handle_hits_another :
    ∃ s : TimerLoop, Reaches step anyStep (create 1 0) s ∧ .canceled 0 (some 1) ∈ s.log ∧
      ¬StaleSafe s := by
  obtain ⟨s, reached, logged⟩ : ∃ s : TimerLoop, Reaches step anyStep (create 1 0) s ∧
      .canceled 0 (some 1) ∈ s.log :=
    exists_reaches_of_exec [.enter 1 (.runAt 5), .newTimer 1 8, .runInLoop 1 (0, 0), .leave 1,
      .done 1, .tick 1000000, .loop, .loop, .poll [.other], .loop, .handleRead, .next, .next,
      .timerRet, .next, .enter 1 (.runAt 9000000), .newTimer 1 8, .runInLoop 1 (0, 0), .leave 1,
      .done 1, .cancelTimer 1 0] (by decide)
  refine ⟨s, reached, logged, fun safe => ?_⟩
  cases safe.hits 0 (some 1) logged

end TimerLoop

end Yvent
