import Yvent.Endpoint.Kept

/-!
# The life time of a connection in its own dispatch

A loop calls `handleEvents` through a plain pointer. While a connection is registered the server or
client owns it, so every channel that `epoll_wait` reports belongs to a living connection. Closing it
takes that owner away: when this happens in the dispatch of its own channel, or by an earlier channel
of the batch, the temporary of the closing call may be the last one.
-/

namespace Yvent.Endpoint

variable {cb : Callbacks} {s s' : System} {l : Label} {c : ConnId} {kind : System.Kind}

/-- The side condition that a step does not release the last `shared_ptr` of a connection that
`handleClose` has deregistered while its loop is still to dispatch its channel. -/
def OutlivesDispatch (s : System) (l : Label) : Prop :=
  ∀ c, s.Closed c → s.InUse c → (s.letGo l).Alive c

/-- Every channel whose `handleEvents` begins or goes on belongs to a living connection. -/
def DispatchesAlive (s : System) : Prop :=
  ∀ L c revents pc rest, (s.loops L).stack = .handleEvents c revents pc :: rest → s.Alive c

theorem System.Kept.alive (kept : s.Kept c) : s.Alive c := by
  rcases kept with mem | ⟨L, pc, mem⟩
  · exact .holder mem
  · exact .loop L (Or.inl ⟨_, mem, rfl⟩)

theorem OwnershipInv.step (inv : OwnershipInv s) (good : OutlivesDispatch s l)
    (taken : s.step cb l = some s') : OwnershipInv s' := by
  have spec := inv.sound.stepSpec_of_step taken
  have sound := inv.sound.step taken
  refine ⟨sound.frames, sound.tasks, sound.pending, sound.held, sound.bound, sound.connected,
    sound.client, sound.kept, fun c used => ⟨sound.inUse c used, ?_⟩⟩
  have open_alive : s.Begun c → ¬s.Closed c → s'.Alive c := fun begun opened =>
    (inv.sound.kept_step taken (inv.bound c begun) opened).alive
  rcases spec.uses c used with used | added
  · by_cases closed : s.Closed c
    · exact spec.alive c (good c closed used)
    · exact open_alive (inv.inUse c used).1 closed
  · refine open_alive ?_ ?_
    · rw [System.Begun, added]
      simp
    · rw [System.Closed, added]
      simp

theorem ownershipInv_start : OwnershipInv (.start kind) := by
  have sound : Sound (.start kind) := sound_start
  refine ⟨sound.frames, sound.tasks, sound.pending, sound.held, sound.bound, sound.connected,
    sound.client, sound.kept, fun c used => ?_⟩
  exact absurd rfl (sound.inUse c used)

theorem ownershipInv_reachable
    (reached : Reaches (System.step cb) OutlivesDispatch (.start kind) s) : OwnershipInv s :=
  reached.invariant ownershipInv_start fun _ _ _ _ inv good taken => inv.step good taken

/-- When a closed connection keeps an owner until its loop is through with its channel, every
`handleEvents` begins and goes on with a living connection. -/
theorem dispatchesAlive_of_outlivesDispatch
    (reached : Reaches (System.step cb) OutlivesDispatch (.start kind) s) : DispatchesAlive s := by
  intro L c revents pc rest top
  refine ((ownershipInv_reachable reached).inUse c ⟨L, Or.inr ⟨revents, pc, ?_⟩⟩).2
  rw [top]
  exact List.mem_cons_self

/-- A copy in user code is an owner that no step of the loops releases. -/
theorem outlivesDispatch_of_held
    (held : ∀ c, s.Closed c → s.InUse c → 0 < s.held c ∧ l ≠ .release c) :
    OutlivesDispatch s l := by
  intro c closed used
  obtain ⟨some, other⟩ := held c closed used
  refine .held ?_
  cases l with
  | run L answer =>
    simp only [System.letGo]
    split <;> exact some
  | next L =>
    simp only [System.letGo]
    split
    · split <;> exact some
    · exact some
  | release c' =>
    have apart : c ≠ c' := fun same => other (same ▸ rfl)
    simpa [System.letGo, System.setHeld, apart] using some
  | ret | poll | accept | call | begin | resume | take | copy | addTask | clientSend
  | queueSend => exact some

/-- The side condition that user code keeps a copy of the only connection once it is closed. -/
def HoldsFirst (s : System) (l : Label) : Prop :=
  s.nextConnId ≤ 1 ∧ ((s.conns 0).channel = .kDeleted → 0 < s.held 0 ∧ l ≠ .release 0)

instance (s : System) (l : Label) : Decidable (HoldsFirst s l) := inferInstanceAs (Decidable (_ ∧ _))

/-- A hang-up in the dispatch of a connection of which the connection callback has kept a copy. -/
theorem dispatchesAlive_after_hangup :
    ∃ s : System, s.holder = .server [] ∧
      (s.loops 0).stack = [.handleEvents 0 EPOLLHUP .error] ∧ DispatchesAlive s := by
  obtain ⟨s, reached, empty, stack⟩ :
      ∃ s, Reaches (System.step allCallbacks) HoldsFirst (.start (.server 0)) s ∧
        s.holder = .server [] ∧ (s.loops 0).stack = [.handleEvents 0 EPOLLHUP .error] :=
    exists_reaches_of_exec
      [.accept, .run 0 .silent, .run 0 .silent, .take 0, .ret 0, .run 0 .silent, .run 0 .silent,
        .ret 0, .next 0, .poll 0 [some (0, EPOLLHUP)], .next 0, .run 0 .silent, .run 0 .silent,
        .run 0 .silent, .ret 0, .run 0 .silent, .run 0 .silent, .run 0 .silent, .run 0 .silent,
        .run 0 .silent]
      (by decide)
  have good : Reaches (System.step allCallbacks) OutlivesDispatch (.start (.server 0)) s := by
    clear empty stack
    induction reached with
    | refl => exact .refl
    | @tail t u l _ holds taken ih =>
      refine ih.tail l (outlivesDispatch_of_held fun c closed _ => ?_) taken
      have bound := (ownershipInv_reachable ih).bound c closed.begun
      obtain rfl : c = 0 := Nat.lt_one_iff.mp (Nat.lt_of_lt_of_le bound holds.1)
      exact holds.2 closed
  exact ⟨s, empty, stack, dispatchesAlive_of_outlivesDispatch good⟩

/-- The peer of a connection on the loop of the server hangs up: `handleClose` erases the map entry,
its temporary was the last `shared_ptr`, and `handleEvents` goes on. -/
theorem handleEvents_after_destruction :
    ∃ s, Reaches (System.step allCallbacks) anyStep (.start (.server 0)) s ∧
      (s.loops 0).stack = [.handleEvents 0 EPOLLHUP .error] ∧ ¬DispatchesAlive s := by
  have reached : Reaches (System.step allCallbacks) anyStep (.start (.server 0)) _ := reaches_of_exec
    [.accept, .run 0 .silent, .run 0 .silent, .ret 0, .run 0 .silent, .run 0 .silent, .ret 0,
      .next 0, .poll 0 [some (0, EPOLLHUP)], .next 0, .run 0 .silent, .run 0 .silent,
      .run 0 .silent, .ret 0, .run 0 .silent, .run 0 .silent, .run 0 .silent, .run 0 .silent,
      .run 0 .silent] rfl
  refine ⟨_, reached, rfl, fun alive => ?_⟩
  cases alive 0 0 EPOLLHUP .error [] rfl with
  | holder mem => cases mem
  | held some => cases some
  | pending t p here => cases here
  | loop L owns =>
    cases L with
    | zero =>
      rcases owns with ⟨g, mem, owner⟩ | ⟨task, mem, -⟩
      · cases List.mem_singleton.mp mem
        cases owner
      · cases mem
    | succ L =>
      rcases owns with ⟨g, mem, -⟩ | ⟨task, mem, -⟩
      · cases mem
      · cases mem

/-! ## The interest list -/

theorem Sound.kept_of_added (inv : Sound s) (added : (s.conns c).channel = .kAdded) : s.Kept c := by
  have begun : s.Begun c := by
    rw [System.Begun, added]
    decide
  refine inv.kept c (inv.bound c begun) ?_
  rw [System.Closed, added]
  decide

/-- A descriptor is in the interest list of `epoll` only while the connection is in `connections_` or
`connection_`, or `newConnection` is about to put it there. So none is left behind that the destructor
has closed, and every connection that `epoll_wait` reports is alive. -/
theorem registered_is_owned (reached : Reaches (System.step cb) anyStep (.start kind) s) :
    (∀ c, (s.conns c).channel = .kAdded → s.Kept c) ∧
      (∀ c < s.nextConnId, ¬s.Alive c → (s.conns c).channel = .kDeleted) ∧
      ∀ L active s', s.step cb (.poll L active) = some s' →
        ∀ c revents, some (c, revents) ∈ active → s'.Alive c := by
  have inv := sound_reachable reached
  refine ⟨fun c => inv.kept_of_added, fun c bound dead => ?_, fun L active s' taken c revents mem => ?_⟩
  · by_contra opened
    exact dead (inv.kept c bound opened).alive
  · have after := inv.step taken
    obtain ⟨⟨-, -, reported, -⟩, polled⟩ := Option.ite_none_right_eq_some.mp taken
    cases polled
    exact (after.kept_of_added (reported (c, revents) (List.reduceOption_mem_iff.mpr mem)).2).alive

/-- A connection that is registered before `newConnection` has put it into the map. -/
theorem registered_is_owned_early :
    ∃ s : System, s.holder = .server [] ∧ (s.conns 0).channel = .kAdded ∧ s.Kept 0 := by
  obtain ⟨s, reached, empty, added⟩ :
      ∃ s, Reaches (System.step allCallbacks) anyStep (.start (.server 0)) s ∧
        s.holder = .server [] ∧ (s.conns 0).channel = .kAdded :=
    exists_reaches_of_exec [.accept, .run 0 .silent, .run 0 .silent] (by decide)
  exact ⟨s, empty, added, (registered_is_owned reached).1 0 added⟩

end Yvent.Endpoint
