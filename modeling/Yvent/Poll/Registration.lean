import Yvent.Endpoint.Model
import Mathlib.Data.List.Induction

/-!
# Channels in the interest list

`Channel` keeps the mask it wants in `events_`; each change goes through `Poll::updateChannel`,
which chooses the operation of `epoll_ctl` by `Channel::state_`. The interest list of the kernel
maps descriptors to masks.
-/

namespace Yvent.Poll

open Endpoint (ChannelState)

/-- A mask of events. -/
abbrev Mask := BitVec 32

/-- A file descriptor. -/
abbrev Fd := Nat

/-- A channel: its descriptor, its mask, its state. -/
structure Channel where
  fd : Fd
  events : Mask
  state : ChannelState

/-- The channel asks for no event. -/
def Channel.isNoEvent (ch : Channel) : Bool := ch.events = 0

/-- The operations of `epoll_ctl`. -/
inductive Op where
  | ctlAdd | ctlMod | ctlDel
  deriving DecidableEq, Repr

/-- `epoll_ctl`: whether it succeeded, and the interest list behind it. -/
def epollCtl (interest : Fd → Option Mask) (op : Op) (fd : Fd) (mask : Mask) :
    Bool × (Fd → Option Mask) :=
  match op, interest fd with
  | .ctlAdd, none => (true, Function.update interest fd (some mask))
  | .ctlMod, some _ => (true, Function.update interest fd (some mask))
  | .ctlDel, some _ => (true, Function.update interest fd none)
  | .ctlAdd, some _ | .ctlMod, none | .ctlDel, none => (false, interest)

/-- What goes wrong in a call of `updateChannel`. -/
inductive Failure where
  | ctlFailed (op : Op)
  | assertFailed
  deriving DecidableEq, Repr

/-- A channel and the interest list of its loop; `failures` is history. -/
structure Registration where
  channel : Channel
  interest : Fd → Option Mask
  failures : List Failure

namespace Registration

variable (s : Registration)

/-- `Poll::update`. -/
def update (op : Op) : Registration :=
  let (succeeded, interest) := epollCtl s.interest op s.channel.fd s.channel.events
  { s with
    interest
    failures := if succeeded then s.failures else s.failures ++ [.ctlFailed op] }

/-- `Poll::updateChannel`; a failed assertion is recorded. -/
def updateChannel : Registration :=
  match s.channel.state with
  | .kNew =>
    { s with
      channel := { s.channel with state := .kAdded }
      failures :=
        if s.channel.isNoEvent then s.failures ++ [Failure.assertFailed] else s.failures }.update .ctlAdd
  | .kAdded | .kDeleted =>
    if s.channel.isNoEvent then
      { s with channel := { s.channel with state := .kDeleted } }.update .ctlDel
    else s.update .ctlMod

end Registration

/-- The calls on a channel that change its mask. -/
inductive Call where
  | enableRead | enableWrite | disableWrite | disableAll
  deriving DecidableEq, Repr

/-- The new value of `events_`. -/
def Call.mask (events : Mask) : Call → Mask
  | .enableRead => events ||| (EPOLLIN ||| EPOLLPRI)
  | .enableWrite => events ||| EPOLLOUT
  | .disableWrite => events &&& ~~~EPOLLOUT
  | .disableAll => 0

namespace Registration

/-- The body of a call: the new mask, then `update()`. -/
def call (s : Registration) (c : Call) : Registration :=
  { s with channel := { s.channel with events := c.mask s.channel.events } }.updateChannel

/-- A new channel on a descriptor of its own. -/
def start (others : Fd → Option Mask) (fd : Fd) : Registration where
  channel := { fd, events := 0, state := .kNew }
  interest := Function.update others fd none
  failures := []

/-- The calls in order. -/
def run (s : Registration) (calls : List Call) : Registration := calls.foldl call s

/-- The interest list mirrors the channel, and nothing has failed. -/
structure Mirrors (s : Registration) : Prop where
  registered :
    s.interest s.channel.fd = if s.channel.events = 0 then none else some s.channel.events
  noFailure : s.failures = []

instance (s : Registration) : Decidable s.Mirrors :=
  decidable_of_iff (_ ∧ s.failures = [])
    ⟨fun both => ⟨both.1, both.2⟩, fun mirrors => ⟨mirrors.registered, mirrors.noFailure⟩⟩

/-- After each of the calls the interest list mirrors the channel. -/
def MirrorsThroughout (others : Fd → Option Mask) (fd : Fd) (calls : List Call) : Prop :=
  ∀ part, part <+: calls → ((start others fd).run part).Mirrors

end Registration

/-- The mask after the calls. -/
def maskAfter (calls : List Call) : Mask := calls.foldl Call.mask 0

/-- The first call leaves events in the mask, and every later one finds some. -/
structure KeepsEvents (calls : List Call) : Prop where
  first : ∀ c rest, calls = c :: rest → maskAfter [c] ≠ 0
  later : ∀ part c rest, calls = part ++ c :: rest → part ≠ [] → maskAfter part ≠ 0

namespace Registration

variable {s : Registration} {others : Fd → Option Mask} {fd : Fd} {calls : List Call} {c : Call}

/-- A channel whose calls have all succeeded. -/
inductive Tracked (s : Registration) : Prop
  | new (state : s.channel.state = .kNew) (events : s.channel.events = 0)
    (absent : s.interest s.channel.fd = none)
  | added (state : s.channel.state = .kAdded) (events : s.channel.events ≠ 0)
    (present : s.interest s.channel.fd = some s.channel.events)
  | deleted (state : s.channel.state = .kDeleted) (events : s.channel.events = 0)
    (absent : s.interest s.channel.fd = none)

theorem Tracked.registered (tracked : s.Tracked) :
    s.interest s.channel.fd = if s.channel.events = 0 then none else some s.channel.events := by
  cases tracked with
  | new _ events absent | deleted _ events absent => rw [absent, if_pos events]
  | added _ events present => rw [present, if_neg events]

@[simp] theorem call_events : (s.call c).channel.events = c.mask s.channel.events := by
  unfold call updateChannel
  split
  · rfl
  · split <;> rfl
  · split <;> rfl

/-- The first call registers the descriptor, and fails when it leaves no events in the mask. -/
theorem call_new (state : s.channel.state = .kNew) (absent : s.interest s.channel.fd = none) :
    ((s.call c).failures = s.failures → c.mask s.channel.events ≠ 0) ∧
      (c.mask s.channel.events ≠ 0 → (s.call c).failures = s.failures ∧ (s.call c).Tracked) := by
  by_cases events : c.mask s.channel.events = 0#32
  · refine ⟨fun quiet => ?_, fun some => absurd events some⟩
    simp [call, updateChannel, state, Channel.isNoEvent, update, epollCtl, absent, events] at quiet
  · refine ⟨fun _ => events, fun _ => ⟨?_, .added ?_ (by rwa [call_events]) ?_⟩⟩ <;>
      simp [call, updateChannel, state, Channel.isNoEvent, update, epollCtl, absent, events]

/-- A call on a registered channel changes the registration or takes it away. -/
theorem call_added (state : s.channel.state = .kAdded)
    (present : s.interest s.channel.fd = some s.channel.events) :
    (s.call c).failures = s.failures ∧ (s.call c).Tracked := by
  by_cases events : c.mask s.channel.events = 0#32
  · refine ⟨?_, .deleted ?_ (by rwa [call_events]) ?_⟩ <;>
      simp [call, updateChannel, state, Channel.isNoEvent, update, epollCtl, present, events]
  · refine ⟨?_, .added ?_ (by rwa [call_events]) ?_⟩ <;>
      simp [call, updateChannel, state, Channel.isNoEvent, update, epollCtl, present, events]

/-- Whatever is called on a deleted channel fails: it is never added again. -/
theorem call_deleted (state : s.channel.state = .kDeleted)
    (absent : s.interest s.channel.fd = none) : (s.call c).failures ≠ s.failures := by
  by_cases events : c.mask s.channel.events = 0#32 <;>
    simp [call, updateChannel, state, Channel.isNoEvent, update, epollCtl, absent, events]

/-- The state of the channel moves as it does in the model of the connections. -/
theorem updateChannel_state :
    s.updateChannel.channel.state = s.channel.state.update s.channel.isNoEvent := by
  cases state : s.channel.state with
  | kNew => simp [updateChannel, state, ChannelState.update, update]
  | kAdded | kDeleted =>
    simp only [updateChannel, state, ChannelState.update, update]
    split <;> simp [state]

/-- No call makes a channel new again. -/
theorem call_state : (s.call c).channel.state ≠ .kNew := by
  rw [call, updateChannel_state]
  cases s.channel.state with
  | kNew | kDeleted => simp [ChannelState.update]
  | kAdded =>
    simp only [ChannelState.update]
    split <;> simp

/-! ## Sequences of calls -/

theorem run_concat (calls : List Call) (c : Call) : s.run (calls ++ [c]) = (s.run calls).call c := by
  simp [run]

theorem maskAfter_concat (calls : List Call) (c : Call) :
    maskAfter (calls ++ [c]) = c.mask (maskAfter calls) := by
  simp [maskAfter]

@[simp] theorem run_events (calls : List Call) :
    ((start others fd).run calls).channel.events = maskAfter calls := by
  induction calls using List.reverseRecOn with
  | nil => rfl
  | append_singleton calls c ih => rw [run_concat, call_events, ih, maskAfter_concat]

/-- A channel is as its calls left it; only before the first one it is new. -/
structure Follows (s : Registration) (calls : List Call) : Prop where
  tracked : s.Tracked
  noFailure : s.failures = []
  new : s.channel.state = .kNew ↔ calls = []

theorem follows_start : (start others fd).Follows [] where
  tracked := .new rfl rfl (by simp [Registration.start])
  noFailure := rfl
  new := by simp [Registration.start]

/-- The condition for one call more. -/
def Allows (calls : List Call) (c : Call) : Prop :=
  if calls = [] then maskAfter [c] ≠ 0 else maskAfter calls ≠ 0

/-- One call more succeeds if the mask has events before it, or behind it if it is the first. -/
theorem Follows.call (follows : ((start others fd).run calls).Follows calls)
    (allowed : Allows calls c) :
    ((start others fd).run (calls ++ [c])).Follows (calls ++ [c]) := by
  obtain ⟨tracked, noFailure, new⟩ := follows
  have masked : ((start others fd).run calls).channel.events = maskAfter calls := run_events calls
  suffices succeeds : (((start others fd).run calls).call c).failures = [] ∧
      (((start others fd).run calls).call c).Tracked by
    rw [run_concat]
    exact ⟨succeeds.2, succeeds.1, by simp [call_state]⟩
  cases tracked with
  | new state events absent =>
    rw [Allows, if_pos (new.mp state)] at allowed
    obtain ⟨quiet, tracked⟩ := (call_new (c := c) state absent).2 (by rwa [events])
    exact ⟨quiet.trans noFailure, tracked⟩
  | added state events present =>
    obtain ⟨quiet, tracked⟩ := call_added (c := c) state present
    exact ⟨quiet.trans noFailure, tracked⟩
  | deleted state events absent =>
    have later : calls ≠ [] := fun none => by simp [new.mpr none] at state
    rw [Allows, if_neg later, ← masked] at allowed
    exact absurd events allowed

/-- One call more fails otherwise. -/
theorem Follows.allows (follows : ((start others fd).run calls).Follows calls)
    (noFailure : ((start others fd).run (calls ++ [c])).failures = []) : Allows calls c := by
  obtain ⟨tracked, quiet, new⟩ := follows
  have masked : ((start others fd).run calls).channel.events = maskAfter calls := run_events calls
  rw [run_concat, ← quiet] at noFailure
  cases tracked with
  | new state events absent =>
    rw [Allows, if_pos (new.mp state)]
    have left := (call_new state absent).1 noFailure
    rwa [events] at left
  | added state events present =>
    have later : calls ≠ [] := fun none => by simp [new.mpr none] at state
    rwa [Allows, if_neg later, ← masked]
  | deleted state events absent => exact absurd noFailure (call_deleted state absent)

end Registration

theorem keepsEvents_concat {calls : List Call} {c : Call} :
    KeepsEvents (calls ++ [c]) ↔ KeepsEvents calls ∧ Registration.Allows calls c := by
  constructor
  · rintro ⟨first, later⟩
    refine ⟨⟨fun d rest eq => first d (rest ++ [c]) (by simp [eq]),
      fun part d rest eq => later part d (rest ++ [c]) (by simp [eq])⟩, ?_⟩
    unfold Registration.Allows
    split
    · next none => exact first c [] (by simp [none])
    · next some => exact later calls c [] rfl some
  · rintro ⟨⟨first, later⟩, allowed⟩
    unfold Registration.Allows at allowed
    refine ⟨fun d rest eq => ?_, fun part d rest eq some => ?_⟩
    · cases calls with
      | nil =>
        obtain ⟨rfl, -⟩ := List.cons.inj eq
        simpa using allowed
      | cons e calls =>
        obtain ⟨rfl, -⟩ := List.cons.inj eq
        exact first e calls rfl
    · rcases List.eq_nil_or_concat rest with rfl | ⟨before, last, rfl⟩
      · obtain ⟨rfl, -⟩ := List.append_inj' eq rfl
        rwa [if_neg some] at allowed
      · rw [List.concat_eq_append, ← List.cons_append, ← List.append_assoc] at eq
        obtain ⟨rfl, -⟩ := List.append_inj' eq rfl
        exact later part d before rfl some

namespace Registration

theorem mirrorsThroughout_concat {others : Fd → Option Mask} {fd : Fd} {calls : List Call}
    {c : Call} :
    MirrorsThroughout others fd (calls ++ [c]) ↔
      MirrorsThroughout others fd calls ∧ ((start others fd).run (calls ++ [c])).Mirrors := by
  constructor
  · intro mirrors
    exact ⟨fun part pre => mirrors part (pre.trans (List.prefix_append _ _)),
      mirrors _ List.prefix_rfl⟩
  · rintro ⟨before, last⟩ part pre
    rcases List.prefix_concat_iff.mp pre with rfl | pre
    · exact last
    · exact before part pre

theorem follows_of_keepsEvents {others : Fd → Option Mask} {fd : Fd} {calls : List Call}
    (keeps : KeepsEvents calls) : ((start others fd).run calls).Follows calls := by
  induction calls using List.reverseRecOn with
  | nil => exact follows_start
  | append_singleton calls c ih =>
    obtain ⟨before, allowed⟩ := keepsEvents_concat.mp keeps
    exact (ih before).call allowed

/-- The interest list mirrors the channel after each call exactly when the first call leaves events
in the mask and every later one finds some there: a channel whose mask is empty does not come back. -/
theorem mirrorsThroughout_iff (others : Fd → Option Mask) (fd : Fd) (calls : List Call) :
    MirrorsThroughout others fd calls ↔ KeepsEvents calls := by
  induction calls using List.reverseRecOn with
  | nil =>
    refine ⟨fun _ => ⟨by simp, by simp⟩, fun _ part pre => ?_⟩
    rw [List.prefix_nil.mp pre]
    exact ⟨follows_start.tracked.registered, rfl⟩
  | append_singleton calls c ih =>
    rw [mirrorsThroughout_concat, keepsEvents_concat, ih]
    refine and_congr_right fun keeps => ?_
    have follows : ((start others fd).run calls).Follows calls := follows_of_keepsEvents keeps
    constructor
    · intro mirrors
      exact follows.allows mirrors.noFailure
    · intro allowed
      have after := follows.call allowed
      exact ⟨after.tracked.registered, after.noFailure⟩

/-- Reading is switched on, everything is switched off, and reading does not come on again. -/
theorem reenabled_unregistered :
    ¬∀ (others : Fd → Option Mask) (fd : Fd) (calls : List Call),
      MirrorsThroughout others fd calls := by
  intro always
  have mirrors := always (fun _ => none) 7 [.enableRead, .disableAll, .enableRead] _ List.prefix_rfl
  revert mirrors
  decide

end Registration

end Yvent.Poll
