import Yvent.Poll.Registration
import Yvent.Misc.Run

/-!
# The outcome of a connection attempt

`Connector` follows `yvent/Connector.cpp` in the loop thread. `::connect` answers at once or later;
`handleWrite` is called directly in the first case, and by the channel once the descriptor is
writable in the second. The outcome is what `getsockopt(SO_ERROR)` says then. `answer`, `errors` and
`invoked` are history.
-/

namespace Yvent

open Poll (Fd Mask Registration)

/-- What `::connect` returns: `0`, or `-1` with an `errno`. -/
inductive ConnectAnswer where
  | success
  | failure (errno : Nat)
  deriving DecidableEq, Repr

/-- `errno` of a connection attempt that is under way. -/
def EINPROGRESS : Nat := 115

namespace Connector

/-- A callback that was invoked. `registered` tells whether `cfd_` was in the interest list then. -/
inductive Invocation where
  | newConnection (registered : Bool)
  | error
  deriving DecidableEq, Repr

end Connector

/-- The connector, with its `channel_` and the interest list of the loop. `newConnectionCallback`
and `errorCallback` tell which callbacks are set. -/
structure Connector where
  started : Bool
  connected : Bool
  registration : Registration
  newConnectionCallback : Bool
  errorCallback : Bool
  answer : Option ConnectAnswer
  errors : List Nat
  invoked : List Connector.Invocation

namespace Connector

variable (c : Connector)

/-- A new connector on a descriptor of its own. -/
def create (others : Fd → Option Mask) (cfd : Fd) (newConnectionCallback errorCallback : Bool) :
    Connector where
  started := false
  connected := false
  registration := .start others cfd
  newConnectionCallback := newConnectionCallback
  errorCallback := errorCallback
  answer := none
  errors := []
  invoked := []

/-- `cfd_` is in the interest list. -/
def registered : Bool := (c.registration.interest c.registration.channel.fd).isSome

/-- `handleWrite`, where `getsockopt` answers `err`. -/
def handleWrite (err : Nat) : Connector :=
  let c := { c with registration := c.registration.call .disableAll, errors := c.errors ++ [err] }
  if err ≠ 0 then
    if c.errorCallback then { c with invoked := c.invoked ++ [.error] } else c
  else if c.newConnectionCallback then
    { c with connected := true, invoked := c.invoked ++ [.newConnection c.registered] }
  else c

/-- `start`, where `::connect` gives this answer; `err` is what `getsockopt` answers if it is asked
at once. -/
def start (answer : ConnectAnswer) (err : Nat) : Connector :=
  let c := { c with started := true, answer := some answer }
  match answer with
  | .failure errno =>
    if errno ≠ EINPROGRESS then c.handleWrite err
    else { c with registration := c.registration.call .enableWrite }
  | .success => c.handleWrite err

/-- `Channel::handleEvents`; of the four callbacks, the channel has the one for writing. -/
def handleEvents (revents : Mask) (err : Nat) : Connector :=
  if revents &&& EPOLLOUT ≠ 0 then c.handleWrite err else c

/-- The client starts an attempt, or the channel of the attempt reports events. -/
inductive Label where
  | start (answer : ConnectAnswer) (err : Nat)
  | events (revents : Mask) (err : Nat)
  deriving DecidableEq, Repr

/-- Nothing is pending on the socket when `::connect` itself has failed. -/
def Reports (answer : ConnectAnswer) (err : Nat) : Prop :=
  match answer with
  | .failure errno => errno ≠ EINPROGRESS → err = 0
  | .success => True

instance : ∀ (answer : ConnectAnswer) (err : Nat), Decidable (Reports answer err)
  | .failure errno, err => inferInstanceAs (Decidable (errno ≠ EINPROGRESS → err = 0))
  | .success, _ => isTrue trivial

/-- What `epoll_wait` may report for this mask. -/
def Reportable (mask revents : Mask) : Prop := revents &&& ~~~(mask ||| (EPOLLERR ||| EPOLLHUP)) = 0

instance (mask revents : Mask) : Decidable (Reportable mask revents) :=
  inferInstanceAs (Decidable (_ = _))

/-- The connector is started once; then the events of its channel come in any order. -/
def step (c : Connector) : Label → Option Connector
  | .start answer err =>
    if c.started = false ∧ Reports answer err then some (c.start answer err) else none
  | .events revents err =>
    match c.registration.interest c.registration.channel.fd with
    | some mask => if Reportable mask revents then some (c.handleEvents revents err) else none
    | none => none

/-! ## The outcome -/

/-- The connection was established: at once, or later. -/
def Established : Prop :=
  c.answer = some .success ∨ c.answer = some (.failure EINPROGRESS) ∧ 0 ∈ c.errors

/-- The callbacks tell what has become of the attempt, and the descriptor is handed over
unregistered. `errors` is not empty once the attempt has been completed. -/
structure RightOutcome : Prop where
  established : ∀ registered, .newConnection registered ∈ c.invoked → c.Established
  failed : c.errors ≠ [] → ¬c.Established → c.errorCallback = true → .error ∈ c.invoked
  once : c.invoked.length ≤ 1
  unregistered : ∀ registered, .newConnection registered ∈ c.invoked → registered = false

/-- The attempt was completed later, or at once with an error that came behind it. -/
def Later : Prop :=
  ∀ answer ∈ c.answer, answer = .failure EINPROGRESS ∨ answer = .success ∧ 0 ∉ c.errors

variable {c} {others : Fd → Option Mask} {cfd : Fd} {newConnectionCallback errorCallback : Bool}

/-! ## The registration -/

section Registration

variable {s : Registration}

@[simp] theorem call_fd (call : Poll.Call) : (s.call call).channel.fd = s.channel.fd := by
  unfold Registration.call Registration.updateChannel
  split
  · rfl
  · split <;> rfl
  · split <;> rfl

/-- The channel of a new connection can be registered when its descriptor is not, and only then. -/
theorem enableRead_succeeds_iff (interest : Fd → Option Mask) (fd : Fd) :
    ((Registration.mk ⟨fd, 0, .kNew⟩ interest []).call .enableRead).failures = [] ↔
      interest fd = none := by
  cases present : interest fd with
  | none =>
    have mask : Poll.Call.mask 0 .enableRead ≠ 0 := by decide
    exact iff_of_true ((Registration.call_new rfl present).2 mask).1 rfl
  | some mask =>
    simp [Registration.call, Registration.updateChannel, Registration.update, Poll.epollCtl,
      present]

/-- Writing is switched on for a new channel. -/
theorem enableWrite_new (state : s.channel.state = .kNew) (events : s.channel.events = 0)
    (absent : s.interest s.channel.fd = none) :
    (s.call .enableWrite).channel.state = .kAdded ∧
      (s.call .enableWrite).interest s.channel.fd = some EPOLLOUT := by
  simp [Registration.call, Registration.updateChannel, state, Registration.update, Poll.epollCtl,
    absent, Poll.Call.mask, events]

/-- A new channel is registered by switching everything off. -/
theorem disableAll_new (state : s.channel.state = .kNew)
    (absent : s.interest s.channel.fd = none) :
    (s.call .disableAll).interest s.channel.fd = some 0 := by
  simp [Registration.call, Registration.updateChannel, state, Registration.update, Poll.epollCtl,
    absent, Poll.Call.mask]

/-- One that was added is taken out of the interest list. -/
theorem disableAll_added (state : s.channel.state = .kAdded) {mask : Mask}
    (present : s.interest s.channel.fd = some mask) :
    (s.call .disableAll).interest s.channel.fd = none := by
  simp [Registration.call, Registration.updateChannel, state, Registration.update, Poll.epollCtl,
    present, Poll.Call.mask, Poll.Channel.isNoEvent]

end Registration

/-- A channel with an empty mask is never writable. -/
theorem not_writable {revents : Mask} (reportable : Reportable 0 revents) :
    revents &&& EPOLLOUT = 0 := by
  have apart : EPOLLOUT = ~~~(0 ||| (EPOLLERR ||| EPOLLHUP)) &&& EPOLLOUT := by decide
  rw [apart, ← BitVec.and_assoc, reportable]
  exact BitVec.zero_and

/-! ## The course of an attempt -/

/-- What `handleWrite` invokes. -/
def invocations (c : Connector) (err : Nat) (registered : Bool) : List Invocation :=
  if err ≠ 0 then if c.errorCallback then [.error] else []
  else if c.newConnectionCallback then [.newConnection registered] else []

/-- How far the attempt is: not started, waiting for the descriptor to become writable, completed
behind that, or completed in `start`, which leaves the descriptor in the interest list. -/
inductive Phase (c : Connector) : Prop
  | fresh (started : c.started = false) (answer : c.answer = none) (errors : c.errors = [])
      (invoked : c.invoked = []) (state : c.registration.channel.state = .kNew)
      (events : c.registration.channel.events = 0)
      (absent : c.registration.interest c.registration.channel.fd = none)
  | waiting (started : c.started = true) (answer : c.answer = some (.failure EINPROGRESS))
      (errors : c.errors = []) (invoked : c.invoked = [])
      (state : c.registration.channel.state = .kAdded)
      (present : c.registration.interest c.registration.channel.fd = some EPOLLOUT)
  | later (err : Nat) (started : c.started = true)
      (answer : c.answer = some (.failure EINPROGRESS)) (errors : c.errors = [err])
      (invoked : c.invoked = c.invocations err false)
      (absent : c.registration.interest c.registration.channel.fd = none)
  | atOnce (answer : ConnectAnswer) (err : Nat) (started : c.started = true)
      (answered : c.answer = some answer) (other : answer ≠ .failure EINPROGRESS)
      (reports : Reports answer err) (errors : c.errors = [err])
      (invoked : c.invoked = c.invocations err true)
      (present : c.registration.interest c.registration.channel.fd = some 0)

theorem Phase.create : Phase (create others cfd newConnectionCallback errorCallback) :=
  .fresh rfl rfl rfl rfl rfl rfl (by simp [Connector.create, Registration.start])

/-- What `handleWrite` leaves. -/
theorem handleWrite_eq (c : Connector) (err : Nat) :
    (c.handleWrite err).started = c.started ∧ (c.handleWrite err).answer = c.answer ∧
      (c.handleWrite err).errors = c.errors ++ [err] ∧
      (c.handleWrite err).registration = c.registration.call .disableAll ∧
      (c.handleWrite err).newConnectionCallback = c.newConnectionCallback ∧
      (c.handleWrite err).errorCallback = c.errorCallback ∧
      (c.handleWrite err).invoked = c.invoked ++ c.invocations err
        ((c.registration.call .disableAll).interest c.registration.channel.fd).isSome := by
  unfold handleWrite invocations registered
  dsimp only
  rw [call_fd]
  split
  · split
    · exact ⟨rfl, rfl, rfl, rfl, rfl, rfl, rfl⟩
    · exact ⟨rfl, rfl, rfl, rfl, rfl, rfl, (List.append_nil _).symm⟩
  · split
    · exact ⟨rfl, rfl, rfl, rfl, rfl, rfl, rfl⟩
    · exact ⟨rfl, rfl, rfl, rfl, rfl, rfl, (List.append_nil _).symm⟩

/-- `handleWrite` completes an attempt that has been waiting. -/
theorem Phase.handleWrite_waiting (started : c.started = true)
    (answer : c.answer = some (.failure EINPROGRESS)) (errors : c.errors = [])
    (invoked : c.invoked = []) (state : c.registration.channel.state = .kAdded) {mask : Mask}
    (present : c.registration.interest c.registration.channel.fd = some mask) (err : Nat) :
    Phase (c.handleWrite err) := by
  obtain ⟨startedIs, answerIs, errorsIs, registrationIs, newIs, errorIs, invokedIs⟩ :=
    handleWrite_eq c err
  refine .later err (startedIs.trans started) (answerIs.trans answer) ?_ ?_ ?_
  · rw [errorsIs, errors, List.nil_append]
  · rw [invokedIs, invoked, disableAll_added state present, invocations, invocations, newIs,
      errorIs]
    rfl
  · rw [registrationIs, call_fd]
    exact disableAll_added state present

/-- `handleWrite` completes an attempt in `start`. -/
theorem Phase.handleWrite_atOnce {answer : ConnectAnswer} {err : Nat} (started : c.started = true)
    (answered : c.answer = some answer) (other : answer ≠ .failure EINPROGRESS)
    (reports : Reports answer err) (errors : c.errors = []) (invoked : c.invoked = [])
    (state : c.registration.channel.state = .kNew)
    (absent : c.registration.interest c.registration.channel.fd = none) :
    Phase (c.handleWrite err) := by
  obtain ⟨startedIs, answerIs, errorsIs, registrationIs, newIs, errorIs, invokedIs⟩ :=
    handleWrite_eq c err
  refine .atOnce answer err (startedIs.trans started) (answerIs.trans answered) other reports
    ?_ ?_ ?_
  · rw [errorsIs, errors, List.nil_append]
  · rw [invokedIs, invoked, disableAll_new state absent, invocations, invocations, newIs, errorIs]
    rfl
  · rw [registrationIs, call_fd]
    exact disableAll_new state absent

theorem Phase.start {answer : ConnectAnswer} {err : Nat} (phase : Phase c)
    (first : c.started = false) (reports : Reports answer err) : Phase (c.start answer err) := by
  cases phase with
  | fresh started unanswered errors invoked state events absent =>
    cases answer with
    | success =>
      exact .handleWrite_atOnce rfl rfl (by simp) reports errors invoked state absent
    | failure errno =>
      unfold Connector.start
      dsimp only
      split
      · next other =>
        exact .handleWrite_atOnce rfl rfl (by simpa using other) reports errors invoked state absent
      · next same =>
        obtain ⟨added, present⟩ := enableWrite_new state events absent
        refine .waiting rfl ?_ errors invoked added ?_
        · rw [Decidable.not_not.mp same]
        · rw [call_fd]
          exact present
  | waiting started | later _ started | atOnce _ _ started =>
    rw [started] at first
    cases first

theorem Phase.handleEvents {revents mask : Mask} (phase : Phase c) (err : Nat)
    (registered : c.registration.interest c.registration.channel.fd = some mask)
    (reportable : Reportable mask revents) : Phase (c.handleEvents revents err) := by
  unfold Connector.handleEvents
  split
  · next writable =>
    cases phase with
    | fresh _ _ _ _ _ _ absent | later _ _ _ _ _ absent =>
      rw [absent] at registered
      cases registered
    | waiting started answer errors invoked state present =>
      exact .handleWrite_waiting started answer errors invoked state present err
    | atOnce _ _ _ _ _ _ _ _ present =>
      rw [present] at registered
      cases registered
      exact absurd (not_writable reportable) writable
  · exact phase

/-- A step keeps the callback that is set. -/
theorem step_callback {c' : Connector} {l : Label} (taken : step c l = some c') :
    c'.newConnectionCallback = c.newConnectionCallback := by
  have written : ∀ (c : Connector) (err : Nat),
      (c.handleWrite err).newConnectionCallback = c.newConnectionCallback := by
    intro c err
    obtain ⟨-, -, -, -, same, -⟩ := handleWrite_eq c err
    exact same
  cases l with
  | start answer err =>
    simp only [Connector.step] at taken
    split at taken <;> cases taken
    cases answer with
    | success => exact written ..
    | failure errno =>
      unfold Connector.start
      dsimp only
      split
      · exact written ..
      · rfl
  | events revents err =>
    simp only [Connector.step] at taken
    split at taken
    · split at taken <;> cases taken
      unfold Connector.handleEvents
      split
      · exact written ..
      · rfl
    · cases taken

theorem Phase.step {c' : Connector} {l : Label} (phase : Phase c) (taken : step c l = some c') :
    Phase c' := by
  cases l with
  | start answer err =>
    simp only [Connector.step] at taken
    split at taken <;> cases taken
    next allowed => exact phase.start allowed.1 allowed.2
  | events revents err =>
    simp only [Connector.step] at taken
    split at taken
    · next mask registered =>
      split at taken <;> cases taken
      next reportable => exact phase.handleEvents err registered reportable
    · cases taken

theorem rightOutcome_nil (errors : c.errors = []) (invoked : c.invoked = []) :
    c.RightOutcome where
  established := by simp [invoked]
  failed := by simp [errors]
  once := by simp [invoked]
  unregistered := by simp [invoked]

/-- A completed attempt has the right outcome, unless a descriptor is handed over that is not
connected or is still registered. -/
theorem rightOutcome_completed {err : Nat} {registered : Bool}
    (invoked : c.invoked = c.invocations err registered)
    (set : c.newConnectionCallback = true) :
    c.RightOutcome ↔ (err = 0 → c.Established ∧ registered = false) := by
  by_cases zero : err = 0
  · have handedOver : c.invoked = [.newConnection registered] := by
      simp [invoked, invocations, zero, set]
    constructor
    · intro right _
      have mem : .newConnection registered ∈ c.invoked := by simp [handedOver]
      exact ⟨right.established _ mem, right.unregistered _ mem⟩
    · intro holds
      obtain ⟨established, unregistered⟩ := holds zero
      refine ⟨fun _ _ => established, fun _ not _ => absurd established not, ?_, ?_⟩
      · simp [handedOver]
      · simp [handedOver, unregistered]
  · have reported : c.invoked = if c.errorCallback then [.error] else [] := by
      simp [invoked, invocations, zero]
    refine iff_of_true ⟨?_, ?_, ?_, ?_⟩ fun same => absurd same zero
    · intro r mem
      rw [reported] at mem
      split at mem <;> simp at mem
    · intro _ _ callback
      simp [reported, callback]
    · rw [reported]
      split <;> simp
    · intro r mem
      rw [reported] at mem
      split at mem <;> simp at mem

/-- Wherever the attempt stands, the outcome is right exactly if it was completed later. -/
theorem Phase.outcome_iff (phase : Phase c) (set : c.newConnectionCallback = true) :
    c.RightOutcome ↔ c.Later := by
  cases phase with
  | fresh _ answer errors invoked =>
    exact iff_of_true (rightOutcome_nil errors invoked) (by simp [Later, answer])
  | waiting _ answer errors invoked =>
    exact iff_of_true (rightOutcome_nil errors invoked) (by simp [Later, answer])
  | later err _ answer errors invoked =>
    refine iff_of_true ((rightOutcome_completed invoked set).mpr ?_) (by simp [Later, answer])
    rintro rfl
    exact ⟨.inr ⟨answer, by simp [errors]⟩, rfl⟩
  | atOnce answer err _ answered other reports errors invoked =>
    have noRegistered : c.RightOutcome ↔ err ≠ 0 := by
      rw [rightOutcome_completed invoked set]
      simp
    rw [noRegistered]
    cases answer with
    | success => simp [Later, answered, errors, eq_comm]
    | failure errno =>
      have zero : err = 0 := reports (by simpa using other)
      have early : ¬c.Later := by
        intro later
        rcases later _ answered with same | ⟨absurd, -⟩
        · exact other same
        · cases absurd
      exact iff_of_false (not_not.mpr zero) early

/-- In every run, the callbacks tell what has become of the attempt and the descriptor is handed
over unregistered, exactly if `::connect` has not come to an end at once. -/
theorem rightOutcome_iff
    (reached : Reaches step anyStep (create others cfd true errorCallback) c) :
    c.RightOutcome ↔ c.Later := by
  obtain ⟨phase, set⟩ := reached.invariant
    (I := fun c => Phase c ∧ c.newConnectionCallback = true) ⟨.create, rfl⟩ fun _ _ _ _ inv _ taken =>
      ⟨inv.1.step taken, (step_callback taken).trans inv.2⟩
  exact phase.outcome_iff set

theorem rightOutcome_iff_later :
    ∃ c : Connector, c.invoked = [.newConnection false] ∧ c.RightOutcome := by
  obtain ⟨c, reached, invoked, answer⟩ : ∃ c : Connector,
      Reaches step anyStep (create (fun _ => none) 7 true false) c ∧
        c.invoked = [.newConnection false] ∧ c.answer = some (.failure EINPROGRESS) :=
    exists_reaches_of_exec [.start (.failure EINPROGRESS) 0, .events EPOLLOUT 0] (by decide)
  refine ⟨c, invoked, (rightOutcome_iff reached).mpr ?_⟩
  intro answer' mem
  rw [answer] at mem
  cases mem
  exact .inl rfl

/-- `::connect` fails at once with `ECONNREFUSED`, and the socket is handed over as a new
connection; it succeeds at once, and the descriptor is handed over with a registration of its own. -/
theorem wrong_at_once :
    (∃ c : Connector, Reaches step anyStep (create (fun _ => none) 7 true true) c ∧
      c.answer = some (.failure 111) ∧ c.invoked = [.newConnection true] ∧ ¬c.RightOutcome) ∧
    ∃ c : Connector, Reaches step anyStep (create (fun _ => none) 7 true true) c ∧
      c.answer = some .success ∧ c.invoked = [.newConnection true] ∧ ¬c.RightOutcome := by
  constructor
  · obtain ⟨c, reached, answer, invoked⟩ : ∃ c : Connector,
        Reaches step anyStep (create (fun _ => none) 7 true true) c ∧
          c.answer = some (.failure 111) ∧ c.invoked = [.newConnection true] :=
      exists_reaches_of_exec [.start (.failure 111) 0] (by decide)
    refine ⟨c, reached, answer, invoked, fun right => ?_⟩
    have unregistered := right.unregistered true (by simp [invoked])
    cases unregistered
  · obtain ⟨c, reached, answer, invoked⟩ : ∃ c : Connector,
        Reaches step anyStep (create (fun _ => none) 7 true true) c ∧
          c.answer = some .success ∧ c.invoked = [.newConnection true] :=
      exists_reaches_of_exec [.start .success 0] (by decide)
    refine ⟨c, reached, answer, invoked, fun right => ?_⟩
    have unregistered := right.unregistered true (by simp [invoked])
    cases unregistered

end Connector

end Yvent
