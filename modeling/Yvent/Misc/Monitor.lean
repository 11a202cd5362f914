import Mathlib.Data.List.Basic

/-!
# A mutex with its condition variable

The mutex is free or owned by one thread. A thread that waits gives the mutex up and joins the wait
set in one step; a notification empties the wait set, and a thread that has left it takes the mutex
again before it goes on. There are no spurious wake-ups.
-/

namespace Yvent

/-- A mutex and its condition variable: who holds the one and who waits for the other. -/
structure Monitor (Thread : Type) where
  owner : Option Thread
  waiting : List Thread
  deriving DecidableEq, Repr

namespace Monitor

variable {Thread : Type} (m : Monitor Thread) (t : Thread)

/-- `std::mutex` and `std::condition_variable` as they are constructed. -/
def create : Monitor Thread := { owner := none, waiting := [] }

/-- `lock`, which blocks while the mutex is owned. -/
def lock : Option (Monitor Thread) :=
  match m.owner with
  | none => some { m with owner := some t }
  | some _ => none

/-- The mutex is released. -/
def unlock : Monitor Thread := { m with owner := none }

/-- The first half of `wait`: the mutex is released and the thread joins the wait set. -/
def wait : Monitor Thread := { owner := none, waiting := t :: m.waiting }

/-- The second half: a thread outside the wait set takes the mutex. -/
def resume [DecidableEq Thread] : Option (Monitor Thread) := if t ∈ m.waiting then none else m.lock t

/-- Everybody that waits is woken. -/
def notifyAll : Monitor Thread := { m with waiting := [] }

@[simp] theorem waiting_create : (create : Monitor Thread).waiting = [] := rfl
@[simp] theorem waiting_notifyAll : m.notifyAll.waiting = [] := rfl

variable {m t} {m' : Monitor Thread}

theorem waiting_of_lock (taken : m.lock t = some m') : m'.waiting = m.waiting := by
  unfold lock at taken
  split at taken
  · cases taken
    rfl
  · cases taken

theorem not_waiting_of_resume [DecidableEq Thread] (taken : m.resume t = some m') : t ∉ m'.waiting := by
  unfold resume at taken
  split at taken
  · cases taken
  · next outside => rwa [waiting_of_lock taken]

/-- A thread in the wait set does not go on. -/
theorem resume_of_waiting [DecidableEq Thread] (inside : t ∈ m.waiting) : m.resume t = none := if_pos inside

end Monitor

end Yvent
