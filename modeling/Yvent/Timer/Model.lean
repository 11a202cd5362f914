import Yvent.Misc.Run
import Yvent.Misc.OrderedSet
import Mathlib.Algebra.Ring.Int.Defs
import Mathlib.Algebra.Ring.Nat
import Mathlib.Logic.Function.Basic

/-!
# The timer queue

`TimerQueue` follows `yvent/TimerQueue.cpp` and `yvent/Timer.cpp` in the loop thread, one step for
each piece of code between two places where user code or another channel may run. Time points and
intervals are signed 64-bit nanosecond counts; a sum or difference of two of them wraps. A `Timer`
is an object in the heap, named by its address; the allocator may hand out the address of a freed
one again. `timers_` is a set of pairs of a due time and an address in lexicographic order.

`handleRead()` reads the timerfd, then takes the expired entries out of the set, then goes through
them: the `Phase` says how far it is. The callback of the timer being run may call `addTimer` and
`cancelTimer`. `serial`, `created`, `freed`, `lastSet` and `log` are history.
-/

namespace Yvent

/-- An address; `0` is `nullptr`. -/
abbrev Addr := Nat

/-- What a heap or a table holds after an update. -/
theorem update_eq_some {α β : Type} [DecidableEq α] {f : α → Option β} {a b : α} {v : Option β}
    {x : β} :
    Function.update f a v b = some x ↔ b = a ∧ v = some x ∨ b ≠ a ∧ f b = some x := by
  by_cases same : b = a <;> simp [same]

/-- The value of a signed 64-bit computation with the mathematical result `x`. -/
def int64 (x : Int) : Int := Int.bmod x (2 ^ 64)

/-- `Timer`: `serial` numbers the timers in the order of their construction. -/
structure Timer where
  when : Int
  interval : Int
  repeats : Bool
  canceled : Bool
  serial : Nat
  deriving DecidableEq, Repr

namespace Timer

/-- `Timer::Timer`. -/
def create (when : Int) (interval : Int) (serial : Nat) : Timer :=
  { when, interval, repeats := 0 < interval, canceled := false, serial }

/-- `Timer::restart`. -/
def restart (t : Timer) : Timer := { t with when := int64 (t.when + t.interval) }

/-- The assignment in `Timer::cancel`. -/
def cancel (t : Timer) : Timer := { t with canceled := true }

end Timer

/-- `TimerEntry`: ordered by due time, then by address. -/
abbrev TimerEntry := Lex (Int × Addr)

/-- `{when, timer}`. -/
def timerEntry (when : Int) (timer : Addr) : TimerEntry := toLex (when, timer)

/-- The due time of an entry. -/
def TimerEntry.when (e : TimerEntry) : Int := (ofLex e).1

/-- The address of the entry's timer. -/
def TimerEntry.timer (e : TimerEntry) : Addr := (ofLex e).2

namespace TimerQueue

/-- How far `handleRead()` is: not running, before `getExpired()`, in its loop with the entries
still to be processed, or inside the callback of one of them. -/
inductive Phase where
  | idle
  | read
  | expiring (rest : List TimerEntry)
  | running (e : TimerEntry) (rest : List TimerEntry)

/-- `settime` records a call of `timerfd_settime` by `setTimer(when)` at clock `now`. -/
inductive Event where
  | run (serial : Nat)
  | useFreed (timer : Addr)
  | assertFailed
  | settime (when now sec nsec : Int)
  deriving DecidableEq, Repr

end TimerQueue

/-- The state of the timer queue, its heap, its timerfd and the clock. `timerfd` is the expiry it
is armed with, until it is read after that. -/
structure TimerQueue where
  clock : Int
  heap : Addr → Option Timer
  timers : OrderedSet TimerEntry
  timerfd : Option Int
  phase : TimerQueue.Phase
  created : Nat
  freed : List Nat
  lastSet : Int
  log : List TimerQueue.Event

namespace TimerQueue

/-- `TimerQueue::TimerQueue` at clock `now`. -/
def create (now : Int) : TimerQueue :=
  { clock := now, heap := fun _ => none, timers := .empty, timerfd := none, phase := .idle,
    created := 0, freed := [], lastSet := now, log := [] }

/-- `1ms`. -/
def oneMs : Int := 1000000

/-- `std::nano::den`. -/
def nanoDen : Int := 1000000000

/-- The duration `setTimer` computes: `when - now`, at least one millisecond. -/
def duration (when now : Int) : Int :=
  let d := int64 (when - now)
  if d < oneMs then oneMs else d

/-- `setTimer`: the timerfd counts from the moment of the call. -/
def setTimer (q : TimerQueue) (when : Int) : TimerQueue :=
  let d := duration when q.clock
  let sec := d.tdiv nanoDen
  let nsec := d.tmod nanoDen
  { q with timerfd := some (q.clock + (sec * nanoDen + nsec)), lastSet := q.clock,
           log := q.log ++ [.settime when q.clock sec nsec] }

/-- `delete timer`. -/
def delete (q : TimerQueue) (timer : Addr) : TimerQueue :=
  match q.heap timer with
  | none => { q with log := q.log ++ [.useFreed timer] }
  | some t =>
    { q with heap := Function.update q.heap timer none, freed := q.freed ++ [t.serial] }

/-- `new Timer(when, timerCallback, interval)`, for which the allocator answers a free address. -/
def newTimer (q : TimerQueue) (timer : Addr) (when : Int) (interval : Int) : TimerQueue :=
  let t := Timer.create when interval q.created
  { q with heap := Function.update q.heap timer (some t), created := q.created + 1 }

/-- The insertion of `addTimer` once `new Timer` has answered `timer`. -/
def insertTimer (q : TimerQueue) (timer : Addr) (when : Int) : TimerQueue :=
  let q' := { q with timers := q.timers.insert (timerEntry when timer) }
  if q'.timers.begin? = some (timerEntry when timer) then q'.setTimer when else q'

/-- `addTimer`: the allocator answers a free address. -/
def addTimer (q : TimerQueue) (timer : Addr) (when : Int) (interval : Int) :
    TimerQueue :=
  let t := Timer.create when interval q.created
  insertTimer { q with heap := Function.update q.heap timer (some t), created := q.created + 1 }
    timer when

/-- `cancelTimer`: the flag first, then the entry under the timer's own due time. -/
def cancelTimer (q : TimerQueue) (timer : Addr) : TimerQueue :=
  match q.heap timer with
  | none => { q with log := q.log ++ [.useFreed timer] }
  | some t =>
    let q' := { q with
      heap := Function.update q.heap timer (some t.cancel)
      log := if t.canceled then q.log ++ [.assertFailed] else q.log }
    let key := timerEntry t.when timer
    if key ∈ q'.timers then { q' with timers := q'.timers.erase key }.delete timer else q'

/-- The `read` at the start of `handleRead`: it disarms a timerfd that has expired and fails
otherwise. -/
def readTimerfd (q : TimerQueue) : TimerQueue :=
  match q.timerfd with
  | some expiry => if expiry ≤ q.clock then { q with timerfd := none } else q
  | none => q

/-- `getExpired`: the entries before `(now + 1ns, nullptr)` leave the set. -/
def getExpired (q : TimerQueue) : TimerQueue :=
  let bound := timerEntry (int64 (q.clock + 1)) 0
  { q with phase := .expiring (q.timers.below bound), timers := q.timers.above bound }

/-- The head of the loop of `handleRead` on entry `e`. -/
def visit (q : TimerQueue) (e : TimerEntry) (rest : List TimerEntry) : TimerQueue :=
  match q.heap e.timer with
  | none => { q with phase := .expiring rest, log := q.log ++ [.useFreed e.timer] }
  | some t =>
    if t.canceled then { q with phase := .expiring rest }.delete e.timer
    else { q with phase := .running e rest, log := q.log ++ [.run t.serial] }

/-- The rest of the loop body once the callback of `e` has returned. -/
def afterRun (q : TimerQueue) (e : TimerEntry) (rest : List TimerEntry) : TimerQueue :=
  match q.heap e.timer with
  | none => { q with phase := .expiring rest, log := q.log ++ [.useFreed e.timer] }
  | some t =>
    if t.repeats then
      { q with
        phase := .expiring rest
        heap := Function.update q.heap e.timer (some t.restart)
        timers := q.timers.insert (timerEntry t.restart.when e.timer) }
    else { q with phase := .expiring rest }.delete e.timer

/-- The end of `handleRead`. -/
def rearm (q : TimerQueue) : TimerQueue :=
  match q.timers.begin? with
  | some e => { q with phase := .idle }.setTimer e.when
  | none => { q with phase := .idle }

/-- User code may call the queue: between two operations, or from the callback of a timer. -/
def Phase.userCode : Phase → Bool
  | .idle | .running _ _ => true
  | .read | .expiring _ => false

/-- A step: the passing of `ns` nanoseconds, a call from user code, the dispatch of the timer
channel, the next piece of `handleRead`, or the return of a timer's callback. -/
inductive Label where
  | tick (ns : Nat)
  | addTimer (timer : Addr) (when : Int) (interval : Int)
  | cancelTimer (timer : Addr)
  | handleRead
  | next
  | ret
  deriving DecidableEq, Repr

/-- One step of the loop thread or of the clock. -/
def step (q : TimerQueue) : Label → Option TimerQueue
  | .tick ns => some { q with clock := q.clock + ns }
  | .addTimer timer when interval =>
    if q.phase.userCode ∧ timer ≠ 0 ∧ q.heap timer = none then
      some (q.addTimer timer when interval)
    else none
  | .cancelTimer timer => if q.phase.userCode then some (q.cancelTimer timer) else none
  | .handleRead =>
    match q.phase with
    | .idle => some { q.readTimerfd with phase := .read }
    | _ => none
  | .next =>
    match q.phase with
    | .read => some q.getExpired
    | .expiring (e :: rest) => some (q.visit e rest)
    | .expiring [] => some q.rearm
    | _ => none
  | .ret =>
    match q.phase with
    | .running e rest => some (q.afterRun e rest)
    | _ => none

end TimerQueue

end Yvent
