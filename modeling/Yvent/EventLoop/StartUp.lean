import Yvent.EventLoop.ThreadPool

/-!
# The start-up of a thread pool

`threadFunc` stores `loop_` and notifies without holding `mutex_`. When both fall between the test of
`loop_` in `starLoop` and its `cond_.wait`, nobody is in the wait set and nobody notifies again:
`start` hangs. In a run in which no thread notifies at that point it does not, and in every run the
pointers that `start` has collected are those of the loops, in the order of their creation.
-/

namespace Yvent.EventLoopThreadPool

variable {p p' : EventLoopThreadPool} {l : Label} {t t' : EventLoopThread} {j : Nat}

/-- The starting thread is in the wait set of the thread it is starting, which has notified. -/
def Hung (p : EventLoopThreadPool) : Prop :=
  p.pc = .waiting ∧ ∃ t, p.threads p.i = some t ∧ .starting ∈ t.monitor.waiting ∧ t.notified = true

/-- One non-null pointer for each thread, in the order of their creation. -/
def Collected (p : EventLoopThreadPool) : Prop :=
  p.pc = .returned → p.loops = (List.range p.threadNum.toNat).map some

/-- The side condition on a run: no thread notifies while the thread that starts it has found
`loop_` null and has not joined the wait set yet. -/
def Unmissed (p : EventLoopThreadPool) : Label → Prop
  | .start => True
  | .thread j => p.pc = .wait → j = p.i → ∀ t, p.threads j = some t → t.pc ≠ .stored

instance (p : EventLoopThreadPool) : (l : Label) → Decidable (Unmissed p l)
  | .start => isTrue trivial
  | .thread j =>
    match h : p.threads j with
    | none => isTrue (by simp [Unmissed, h])
    | some t => decidable_of_iff (p.pc = .wait → j = p.i → t.pc ≠ .stored) (by simp [Unmissed, h])

/-! ## What one step can do -/

/-- The steps of the pool, one constructor for each. -/
inductive Move (p : EventLoopThreadPool) : Label → EventLoopThreadPool → Prop
  | create (here : p.pc = .head) (more : p.i < p.threadNum) :
      Move p .start { p.setThread p.i EventLoopThread.create with pc := .starLoop }
  | finish (here : p.pc = .head) (enough : ¬p.i < p.threadNum) :
      Move p .start { p with pc := .returned }
  | spawn {t : EventLoopThread} (here : p.pc = .starLoop) (current : p.threads p.i = some t) :
      Move p .start
        { p.setThread p.i { t with start := true, pc := .entered } with
          pc := .lock, asserted := p.asserted && (t.start = false && t.loop = none) }
  | lock {t : EventLoopThread} {m : Monitor Party} (here : p.pc = .lock)
      (current : p.threads p.i = some t) (taken : t.monitor.lock .starting = some m) :
      Move p .start { p.setThread p.i { t with monitor := m } with pc := .test }
  | test {t : EventLoopThread} (here : p.pc = .test) (current : p.threads p.i = some t) :
      Move p .start { p with pc := if t.loop = none then .wait else .unlock }
  | wait {t : EventLoopThread} (here : p.pc = .wait) (current : p.threads p.i = some t) :
      Move p .start
        { p.setThread p.i { t with monitor := t.monitor.wait .starting } with pc := .waiting }
  | resume {t : EventLoopThread} {m : Monitor Party} (here : p.pc = .waiting)
      (current : p.threads p.i = some t) (taken : t.monitor.resume .starting = some m) :
      Move p .start { p.setThread p.i { t with monitor := m } with pc := .test }
  | unlock {t : EventLoopThread} (here : p.pc = .unlock) (current : p.threads p.i = some t) :
      Move p .start { p.setThread p.i { t with monitor := t.monitor.unlock } with pc := .ret }
  | ret {t : EventLoopThread} (here : p.pc = .ret) (current : p.threads p.i = some t) :
      Move p .start { p with loops := p.loops ++ [t.loop], i := p.i + 1, pc := .head }
  | thread {j : Nat} {t t' : EventLoopThread} {holds : Bool} (live : p.threads j = some t)
      (moved : t.threadFunc j = some (t', holds)) :
      Move p (.thread j) { p.setThread j t' with asserted := p.asserted && holds }

theorem move_of_starLoopStep (current : p.threads p.i = some t)
    (taken : p.starLoopStep t = some p') : Move p .start p' := by
  unfold starLoopStep at taken
  split at taken
  case h_1 => cases taken
  case h_2 => cases taken
  case h_3 here => cases taken; exact .spawn here current
  case h_4 here =>
    obtain ⟨m, locked, rfl⟩ := Option.map_eq_some_iff.mp taken
    exact .lock here current locked
  case h_5 here => cases taken; exact .test here current
  case h_6 here => cases taken; exact .wait here current
  case h_7 here =>
    obtain ⟨m, resumed, rfl⟩ := Option.map_eq_some_iff.mp taken
    exact .resume here current resumed
  case h_8 here => cases taken; exact .unlock here current
  case h_9 here => cases taken; exact .ret here current

theorem move_of_step (taken : step p l = some p') : Move p l p' := by
  cases l with
  | start =>
    simp only [step] at taken
    split at taken
    · next here =>
      split at taken
      · next more => cases taken; exact .create here more
      · next enough => cases taken; exact .finish here enough
    · obtain ⟨t, current, taken⟩ := Option.bind_eq_some_iff.mp taken
      exact move_of_starLoopStep current taken
  | thread j =>
    obtain ⟨t, live, taken⟩ := Option.bind_eq_some_iff.mp taken
    obtain ⟨⟨t', holds⟩, moved, rfl⟩ := Option.map_eq_some_iff.mp taken
    exact .thread live moved

/-! ## The threads -/

/-- `loop_` of thread number `j` at each point of `threadFunc`, which does not come back from
`loop()`. -/
def loopAt (j : Nat) : ThreadPc → Option Nat
  | .stored | .looping | .left => some j
  | .absent | .entered | .constructed | .finished => none

/-- A thread of the pool during the start-up. Only the starting thread waits on it. -/
structure ThreadInv (p : EventLoopThreadPool) (j : Nat) (t : EventLoopThread) : Prop where
  loop : t.loop = loopAt j t.pc
  quit : t.quit = false
  stays : t.pc ≠ .left ∧ t.pc ≠ .finished
  waits : .starting ∈ t.monitor.waiting → j = p.i ∧ p.pc = .waiting

/-- What a step of `threadFunc` does: the pointer is stored, later the wait set is emptied. -/
structure ThreadMoved (j : Nat) (t t' : EventLoopThread) : Prop where
  loop : t'.loop = loopAt j t'.pc
  quit : t'.quit = false
  stays : t'.pc ≠ .left ∧ t'.pc ≠ .finished
  keeps : t.loop = some j → t'.loop = some j
  waits : .starting ∈ t'.monitor.waiting → .starting ∈ t.monitor.waiting ∧ t'.notified = t.notified
  silent : t.pc ≠ .stored → t'.notified = t.notified

theorem ThreadInv.threadFunc (inv : ThreadInv p j t) {holds : Bool}
    (moved : t.threadFunc j = some (t', holds)) : ThreadMoved j t t' ∧ holds = true := by
  have loop := inv.loop
  cases here : t.pc with
  | absent | finished => simp [EventLoopThread.threadFunc, here] at moved
  | left => exact absurd here inv.stays.1
  | looping => simp [EventLoopThread.threadFunc, here, inv.quit] at moved
  | entered | constructed | stored =>
    simp only [EventLoopThread.threadFunc, here, Option.some.injEq, Prod.mk.injEq] at moved
    obtain ⟨rfl, rfl⟩ := moved
    rw [here] at loop
    refine ⟨⟨?_, inv.quit, ?_, ?_, ?_, ?_⟩, ?_⟩ <;>
      simp [loopAt, EventLoopThread.notified, here, loop]

theorem ThreadInv.loop_of_ne_none (inv : ThreadInv p j t) (found : t.loop ≠ none) :
    t.loop = some j := by
  rw [inv.loop] at found ⊢
  cases here : t.pc with
  | stored | looping | left => rfl
  | absent | entered | constructed | finished =>
    rw [here] at found
    exact absurd rfl found

theorem notified_of_loop (inv : ThreadInv p j t) (null : t.loop = none) : t.notified = false := by
  have loop := inv.loop
  rw [null] at loop
  cases here : t.pc with
  | stored | looping | left =>
    rw [here] at loop
    cases loop
  | finished => exact absurd here inv.stays.2
  | absent | entered | constructed => simp [EventLoopThread.notified, here]

/-! ## The invariant of the start-up -/

/-- The starting thread has collected the loops of the threads before number `i`, and `loop_` of the
current one is not null when it is about to collect it. -/
structure StartInv (p : EventLoopThreadPool) : Prop where
  threads : ∀ j t, p.threads j = some t → ThreadInv p j t
  fresh : p.pc = .starLoop → p.threads p.i = some EventLoopThread.create
  ready : p.pc = .unlock ∨ p.pc = .ret → ∀ t, p.threads p.i = some t → t.loop = some p.i
  loops : p.loops = (List.range p.i).map some
  bound : p.i ≤ p.threadNum.toNat
  inside : p.pc ≠ .head → p.pc ≠ .returned → p.i < p.threadNum.toNat
  done : p.pc = .returned → p.threadNum.toNat ≤ p.i
  asserted : p.asserted = true

theorem StartInv.create (threadNum : Int) : StartInv (create threadNum) where
  threads := by intro j t live; cases live
  fresh := by intro here; cases here
  ready := by rintro (here | here) <;> cases here
  loops := rfl
  bound := Nat.zero_le _
  inside := by intro notHead; exact absurd rfl notHead
  done := by intro here; cases here
  asserted := rfl

theorem setThread_eq_some {k : Nat} {u : EventLoopThread}
    (live : (p.setThread j t).threads k = some u) :
    k = j ∧ u = t ∨ k ≠ j ∧ p.threads k = some u := by
  by_cases same : k = j
  · subst same
    refine Or.inl ⟨rfl, ?_⟩
    simpa [setThread] using live.symm
  · refine Or.inr ⟨same, ?_⟩
    simpa [setThread, Function.update_of_ne same] using live

theorem setThread_self : (p.setThread j t).threads j = some t := Function.update_self ..

theorem setThread_current (current : p.threads j = some t) : p.setThread j t = p := by
  rw [setThread, ← current, Function.update_eq_self]

/-- Nobody waits on a thread whose `starLoop` is not the one that is executing. -/
theorem StartInv.elsewhere (inv : StartInv p) {k : Nat} {u : EventLoopThread} (other : k ≠ p.i)
    (live : p.threads k = some u) (q : EventLoopThreadPool) : ThreadInv q k u := by
  have old := inv.threads k u live
  refine ⟨old.loop, old.quit, old.stays, fun waits => ?_⟩
  exact absurd (old.waits waits).1 other

/-- The starting thread goes on within `starLoop` and leaves the current thread as `t`. -/
theorem StartInv.within (inv : StartInv p) (t : EventLoopThread) (pc : StartPc)
    (inside : p.pc ≠ .head ∧ p.pc ≠ .returned)
    (target : pc ≠ .head ∧ pc ≠ .returned ∧ pc ≠ .starLoop)
    (loop : t.loop = loopAt p.i t.pc) (quit : t.quit = false)
    (stays : t.pc ≠ .left ∧ t.pc ≠ .finished)
    (waits : .starting ∈ t.monitor.waiting → pc = .waiting)
    (ready : pc = .unlock ∨ pc = .ret → t.loop = some p.i) {asserted : Bool}
    (holds : asserted = true) :
    StartInv { p.setThread p.i t with pc := pc, asserted := asserted } where
  threads := by
    intro k u live
    rcases setThread_eq_some live with ⟨rfl, rfl⟩ | ⟨other, live⟩
    · exact ⟨loop, quit, stays, fun mem => ⟨rfl, waits mem⟩⟩
    · exact inv.elsewhere other live _
  fresh := by
    intro here
    exact absurd here target.2.2
  ready := by
    intro here u live
    cases setThread_self.symm.trans live
    exact ready here
  loops := inv.loops
  bound := inv.bound
  inside := fun _ _ => inv.inside inside.1 inside.2
  done := by
    intro here
    exact absurd here target.2.1
  asserted := holds

/-- Outside of `cond_.wait` the starting thread is in no wait set. -/
theorem StartInv.not_waiting (inv : StartInv p) (outside : p.pc ≠ .waiting)
    (live : p.threads j = some t) : .starting ∉ t.monitor.waiting :=
  fun waits => outside ((inv.threads j t live).waits waits).2

/-- The starting thread leaves `starLoop` or the loop of `start`, or begins another round. -/
theorem StartInv.between (inv : StartInv p) (outside : p.pc ≠ .waiting) (i : Nat)
    (loops : List (Option Nat)) (pc : StartPc) (target : pc = .head ∨ pc = .returned)
    (collected : loops = (List.range i).map some) (bound : i ≤ p.threadNum.toNat)
    (done : pc = .returned → p.threadNum.toNat ≤ i) :
    StartInv { p with i := i, loops := loops, pc := pc } where
  threads := by
    intro k u live
    have old := inv.threads k u live
    exact ⟨old.loop, old.quit, old.stays, fun waits => absurd waits (inv.not_waiting outside live)⟩
  fresh := by
    intro here
    rcases target with rfl | rfl <;> cases here
  ready := by
    intro here
    rcases target with rfl | rfl <;> rcases here with here | here <;> cases here
  loops := collected
  bound := bound
  inside := by
    intro notHead notReturned
    rcases target with same | same
    · exact absurd same notHead
    · exact absurd same notReturned
  done := done
  asserted := inv.asserted

theorem StartInv.createThread (inv : StartInv p) (more : p.i < p.threadNum) :
    StartInv { p.setThread p.i EventLoopThread.create with pc := .starLoop } where
  threads := by
    intro k u live
    rcases setThread_eq_some live with ⟨rfl, rfl⟩ | ⟨other, live⟩
    · exact ⟨rfl, rfl, by decide, by simp [EventLoopThread.create]⟩
    · exact inv.elsewhere other live _
  fresh := fun _ => setThread_self
  ready := by
    intro here
    rcases here with here | here <;> cases here
  loops := inv.loops
  bound := inv.bound
  inside := by
    intro _ _
    show p.i < p.threadNum.toNat
    omega
  done := by
    intro here
    cases here
  asserted := inv.asserted

theorem StartInv.thread (inv : StartInv p) (live : p.threads j = some t)
    (new : ThreadMoved j t t') (present : t.pc ≠ .absent) : StartInv (p.setThread j t') where
  threads := by
    intro k u there
    rcases setThread_eq_some there with ⟨rfl, rfl⟩ | ⟨other, there⟩
    · have old := inv.threads k t live
      exact ⟨new.loop, new.quit, new.stays, fun waits => old.waits (new.waits waits).1⟩
    · have old := inv.threads k u there
      exact ⟨old.loop, old.quit, old.stays, old.waits⟩
  fresh := by
    intro here
    have fresh := inv.fresh here
    have other : p.i ≠ j := by
      intro same
      rw [same, live] at fresh
      cases fresh
      exact present rfl
    show Function.update p.threads j (some t') p.i = _
    rw [Function.update_of_ne other]
    exact fresh
  ready := by
    intro here u there
    rcases setThread_eq_some there with ⟨same, rfl⟩ | ⟨other, there⟩
    · have same : p.i = j := same
      subst same
      exact new.keeps (inv.ready here t live)
    · exact inv.ready here u there
  loops := inv.loops
  bound := inv.bound
  inside := inv.inside
  done := inv.done
  asserted := inv.asserted

theorem StartInv.move (inv : StartInv p) (taken : Move p l p') : StartInv p' := by
  cases taken with
  | create here more => exact inv.createThread more
  | finish here enough =>
    exact inv.between (by simp [here]) p.i p.loops .returned (Or.inr rfl) inv.loops inv.bound
      (by omega)
  | spawn here current =>
    rw [inv.fresh here] at current
    cases current
    exact inv.within { EventLoopThread.create with start := true, pc := .entered } .lock
      (by simp [here]) (by simp) rfl rfl (by simp) (by simp [EventLoopThread.create]) (by simp)
      (by simp [inv.asserted, EventLoopThread.create])
  | @lock t m here current taken =>
    have old := inv.threads _ _ current
    have outside := inv.not_waiting (by simp [here]) current
    rw [← Monitor.waiting_of_lock taken] at outside
    exact inv.within { t with monitor := m } .test (by simp [here]) (by simp) old.loop old.quit
      old.stays (fun waits => absurd waits outside) (by simp) inv.asserted
  | @test t here current =>
    have old := inv.threads _ _ current
    have outside := inv.not_waiting (by simp [here]) current
    rw [← setThread_current current]
    refine inv.within t _ (by simp [here]) ?_ old.loop old.quit old.stays
      (fun waits => absurd waits outside) ?_ inv.asserted
    · split <;> simp
    · split
      · simp
      · next found => exact fun _ => old.loop_of_ne_none found
  | @wait t here current =>
    have old := inv.threads _ _ current
    exact inv.within { t with monitor := t.monitor.wait .starting } .waiting (by simp [here])
      (by simp) old.loop old.quit old.stays (fun _ => rfl) (by simp) inv.asserted
  | @resume t m here current taken =>
    have old := inv.threads _ _ current
    exact inv.within { t with monitor := m } .test (by simp [here]) (by simp) old.loop old.quit
      old.stays (fun waits => absurd waits (Monitor.not_waiting_of_resume taken)) (by simp)
      inv.asserted
  | @unlock t here current =>
    have old := inv.threads _ _ current
    have outside := inv.not_waiting (by simp [here]) current
    exact inv.within { t with monitor := t.monitor.unlock } .ret (by simp [here]) (by simp)
      old.loop old.quit old.stays (fun waits => absurd waits outside)
      (fun _ => inv.ready (Or.inl here) t current) inv.asserted
  | @ret t here current =>
    have collected := inv.ready (Or.inr here) t current
    have less := inv.inside (by simp [here]) (by simp [here])
    refine inv.between (by simp [here]) (p.i + 1) (p.loops ++ [t.loop]) .head (Or.inl rfl) ?_ less
      (by simp)
    rw [collected, inv.loops, List.range_succ, List.map_append]
    rfl
  | @thread j t t' holds live moved =>
    obtain ⟨new, rfl⟩ := (inv.threads j t live).threadFunc moved
    have present : t.pc ≠ .absent := by
      intro absent
      simp [EventLoopThread.threadFunc, absent] at moved
    rw [Bool.and_true]
    exact inv.thread live new present

theorem startInv_reachable {threadNum : Int}
    (reached : Reaches step anyStep (create threadNum) p) : StartInv p :=
  reached.invariant (StartInv.create threadNum) fun _ _ _ _ inv _ taken =>
    inv.move (move_of_step taken)

/-! ## The notification -/

/-- While the starting thread is going to wait, or is in the wait set, the notification is still to
come. -/
def Awaited (p : EventLoopThreadPool) : Prop :=
  ∀ t, p.threads p.i = some t →
    p.pc = .wait ∨ p.pc = .waiting ∧ .starting ∈ t.monitor.waiting → t.notified = false

theorem Awaited.move (awaited : Awaited p) (inv : StartInv p) (good : Unmissed p l)
    (taken : Move p l p') : Awaited p' := by
  intro u current' waits
  cases taken with
  | create | spawn | finish | lock | unlock | ret => simp at waits
  | @resume t m here current taken => simp at waits
  | @test t here current =>
    obtain rfl : t = u := Option.some.inj (current.symm.trans current')
    apply notified_of_loop (inv.threads _ t current)
    by_contra notNull
    simp [notNull] at waits
  | @wait t here current =>
    cases setThread_self.symm.trans current'
    exact awaited t current (Or.inl here)
  | @thread j t t' holds live moved =>
    obtain ⟨new, -⟩ := (inv.threads j t live).threadFunc moved
    rcases setThread_eq_some current' with ⟨same, rfl⟩ | ⟨-, current⟩
    · have same : p.i = j := same
      subst same
      rcases waits with here | ⟨here, inside⟩
      · rw [new.silent (good here rfl t live)]
        exact awaited t live (Or.inl here)
      · obtain ⟨before, same⟩ := new.waits inside
        rw [same]
        exact awaited t live (Or.inr ⟨here, before⟩)
    · exact awaited u current waits

/-- In a run in which no notification falls between the test and the wait, `start` does not hang,
and when it returns it has collected the pointers to the loops. -/
theorem startUp_of_unmissed {threadNum : Int}
    (reached : Reaches step Unmissed (create threadNum) p) : ¬Hung p ∧ Collected p := by
  have every : ∀ {q}, Reaches step Unmissed (create threadNum) q → StartInv q := fun run =>
    startInv_reachable (run.mono fun _ _ _ => trivial)
  have awaited : Awaited p := by
    refine reached.invariant ?_ fun q l q' run awaited good taken =>
      awaited.move (every run) good (move_of_step taken)
    intro t current
    cases current
  have inv := every reached
  constructor
  · rintro ⟨here, t, current, inside, notified⟩
    rw [awaited t current (Or.inr ⟨here, inside⟩)] at notified
    cases notified
  · intro here
    rw [inv.loops, Nat.le_antisymm inv.bound (inv.done here)]

/-- Two threads; the first notifies before the starting thread takes the mutex, the second while it
waits. -/
theorem startUp_two_threads :
    ∃ p : EventLoopThreadPool, p.pc = .returned ∧ p.threadNum = 2 ∧ ¬Hung p ∧ Collected p := by
  have run : ∃ p, Reaches step Unmissed (create 2) p ∧ (p.pc = .returned ∧ p.threadNum = 2) :=
    exists_reaches_of_exec [.start, .start, .thread 0, .thread 0, .thread 0, .start, .start, .start,
      .start, .start, .start, .start, .start, .start, .thread 1, .thread 1, .thread 1, .start,
      .start, .start, .start, .start] (by decide +kernel)
  obtain ⟨p, reached, here, two⟩ := run
  exact ⟨p, here, two, startUp_of_unmissed reached⟩

/-! ## The hang -/

theorem Hung.move (hung : Hung p) (inv : StartInv p) (taken : Move p l p') : Hung p' := by
  obtain ⟨waiting, t, current, inside, notified⟩ := hung
  cases taken with
  | create here | finish here | spawn here | lock here | test here | wait here | unlock here
  | ret here =>
    rw [waiting] at here
    cases here
  | resume here current' taken =>
    cases current.symm.trans current'
    rw [Monitor.resume_of_waiting inside] at taken
    cases taken
  | @thread j u u' holds live moved =>
    have other : p.i ≠ j := by
      intro same
      subst same
      cases current.symm.trans live
      -- `loop()` has been entered and does not return
      have looping : t.pc = .looping := by
        have stays := (inv.threads _ t live).stays
        cases here : t.pc <;> simp_all [EventLoopThread.notified]
      simp [EventLoopThread.threadFunc, looping, (inv.threads _ t live).quit] at moved
    refine ⟨waiting, t, ?_, inside, notified⟩
    show Function.update p.threads j (some u') p.i = _
    rw [Function.update_of_ne other, current]

/-- Nobody leaves the wait set of a thread that has notified: a hang is for good. -/
theorem hung_forever {threadNum : Int} {q : EventLoopThreadPool}
    (reached : Reaches step anyStep (create threadNum) p) (hung : Hung p)
    (later : Reaches step anyStep p q) : Hung q := by
  refine later.invariant hung fun u l v before hung _ taken => ?_
  exact hung.move (startInv_reachable (reached.trans before)) (move_of_step taken)

/-- A notification between the test and the wait ends in a hang. -/
theorem hung_of_missed (missed : ¬Unmissed p (.thread j)) {u v : EventLoopThreadPool}
    (notifies : step p (.thread j) = some u) (waits : step u .start = some v) : Hung v := by
  simp only [Unmissed, not_forall, not_not] at missed
  obtain ⟨here, rfl, t, current, stored⟩ := missed
  obtain ⟨u', holds, notified, rfl⟩ : ∃ u' holds, u'.notified = true ∧
      u = { p.setThread p.i u' with asserted := p.asserted && holds } := by
    cases move_of_step notifies with
    | thread live moved =>
      cases current.symm.trans live
      simp only [EventLoopThread.threadFunc, stored, Option.some.injEq, Prod.mk.injEq] at moved
      obtain ⟨rfl, rfl⟩ := moved
      exact ⟨_, _, rfl, rfl⟩
  cases move_of_step waits with
  | create other | finish other | spawn other | lock other | test other | resume other
  | unlock other | ret other =>
    have other := here.symm.trans other
    cases other
  | wait _ current' =>
    cases setThread_self.symm.trans current'
    exact ⟨rfl, _, setThread_self, List.mem_cons_self, notified⟩

/-- `threadFunc` stores and notifies between the test of `loop_` and the wait. -/
theorem notified_before_wait :
    ¬∀ p, Reaches step anyStep (create 1) p → ¬Hung p ∧ Collected p := by
  intro startUp
  have run : ∃ p, Reaches step anyStep (create 1) p ∧ (p.pc = .waiting ∧
      (p.threads p.i).any fun t => Party.starting ∈ t.monitor.waiting ∧ t.notified) :=
    exists_reaches_of_exec [.start, .start, .start, .start, .thread 0, .thread 0, .thread 0, .start]
      (by decide +kernel)
  obtain ⟨p, reached, here, stuck⟩ := run
  obtain ⟨t, current, both⟩ := (Option.any_eq_true _ _).mp stuck
  have both := of_decide_eq_true both
  exact (startUp p reached).1 ⟨here, t, current, both⟩

end Yvent.EventLoopThreadPool
