import Yvent.Connection.Step

/-!
# The history of a life cycle

What the recorded stores and notifications of a connection have to look like, and how each kind of
event keeps them so. `Recorded c n k` also counts the notifications that `handleClose` has yet to
make, which are what bounds those it has made.
-/

namespace Yvent

/-- The events that the life cycle is about. -/
def Event.lifecycle : Event → Bool
  | .store _ | .assertFailed | .notifyDisconnected | .messageCallback _ | .closeCallback => true
  | _ => false

namespace TcpConnection

variable {c c' : TcpConnection} {st : ConnectionState} {n k n' k' : Nat}

/-- What a history says about the life cycle: `state_` moves forward only, nothing is delivered
after `kDisconnected`, each close notification is made at most once, and no assertion failed. -/
structure LifecycleOk (trace : List Event) : Prop where
  forward : trace.Pairwise fun a b => ∀ x y, a = .store x → b = .store y → x.rank ≤ y.rank
  silent : trace.Pairwise fun a b => a = .store .kDisconnected → ∀ data, b ≠ .messageCallback data
  closedOnce : trace.count .closeCallback ≤ 1
  notifiedOnce : trace.count .notifyDisconnected ≤ 1
  asserted : .assertFailed ∉ trace

/-- The history of a connection that still has `n` disconnect notifications and `k` close callbacks
on its stack. -/
structure Recorded (c : TcpConnection) (n k : Nat) : Prop where
  forward : c.trace.Pairwise fun a b => ∀ x y, a = .store x → b = .store y → x.rank ≤ y.rank
  silent : c.trace.Pairwise fun a b =>
    a = .store .kDisconnected → ∀ data, b ≠ .messageCallback data
  asserted : .assertFailed ∉ c.trace
  latest : ∀ x, .store x ∈ c.trace → x.rank ≤ c.state.rank
  closed : c.trace.count (.store .kDisconnected) = if c.state = .kDisconnected then 1 else 0
  notified : c.trace.count .notifyDisconnected + n ≤ c.trace.count (.store .kDisconnected)
  called : c.trace.count .closeCallback + k ≤ c.trace.count (.store .kDisconnected)

theorem Recorded.ok (rec : Recorded c n k) : LifecycleOk c.trace := by
  have once : c.trace.count (.store .kDisconnected) ≤ 1 := by
    rw [rec.closed]
    split <;> omega
  have called := rec.called
  have notified := rec.notified
  exact ⟨rec.forward, rec.silent, by omega, by omega, rec.asserted⟩

theorem recorded_create : Recorded create 0 0 where
  forward := .nil
  silent := .nil
  asserted := List.not_mem_nil
  latest _ mem := absurd mem List.not_mem_nil
  closed := rfl
  notified := Nat.le_refl _
  called := Nat.le_refl _

theorem Recorded.not_closed (rec : Recorded c n k) (opened : c.state ≠ .kDisconnected) :
    .store .kDisconnected ∉ c.trace := by
  rw [← List.count_eq_zero, rec.closed, if_neg opened]

/-- An event other than a store. -/
theorem Recorded.emit {e : Event} (rec : Recorded c n k) (noStore : ∀ x, e ≠ .store x)
    (asserted : e ≠ .assertFailed)
    (opened : ∀ data, e = .messageCallback data → c.state ≠ .kDisconnected)
    (notified : n' + [e].count .notifyDisconnected ≤ n)
    (called : k' + [e].count .closeCallback ≤ k) : Recorded (c.emit e) n' k' := by
  have count : (c.emit e).trace.count (.store .kDisconnected) =
      c.trace.count (.store .kDisconnected) := by
    rw [TcpConnection.emit, List.count_append, Nat.add_eq_left, List.count_eq_zero,
      List.mem_singleton]
    exact (noStore _).symm
  refine ⟨?_, ?_, ?_, ?_, ?_, ?_, ?_⟩
  · refine List.pairwise_append.mpr ⟨rec.forward, List.pairwise_singleton _ _, ?_⟩
    intro a _ b last x y _ eq
    rw [List.mem_singleton] at last
    exact absurd (last.symm.trans eq) (noStore y)
  · refine List.pairwise_append.mpr ⟨rec.silent, List.pairwise_singleton _ _, ?_⟩
    intro a mem b last eq data message
    rw [List.mem_singleton] at last
    exact rec.not_closed (opened data (last.symm.trans message)) (eq ▸ mem)
  · rw [TcpConnection.emit, List.mem_append, List.mem_singleton, not_or]
    exact ⟨rec.asserted, asserted.symm⟩
  · intro x mem
    rw [TcpConnection.emit, List.mem_append, List.mem_singleton] at mem
    rcases mem with mem | last
    · exact rec.latest x mem
    · exact absurd last.symm (noStore x)
  · rw [count]
    exact rec.closed
  · have before := rec.notified
    rw [count, TcpConnection.emit, List.count_append]
    omega
  · have before := rec.called
    rw [count, TcpConnection.emit, List.count_append]
    omega

/-- A store to `state_` that moves it forward. After the one of `handleClose` the notification and
the close callback are due. -/
theorem Recorded.store (rec : Recorded c n k) (opened : c.state ≠ .kDisconnected)
    (next : c.state.rank ≤ st.rank)
    (notified : n' ≤ n + if st = .kDisconnected then 1 else 0)
    (called : k' ≤ k + if st = .kDisconnected then 1 else 0) : Recorded (c.store st) n' k' := by
  have none := List.count_eq_zero.mpr (rec.not_closed opened)
  have count : (c.store st).trace.count (.store .kDisconnected) =
      if st = .kDisconnected then 1 else 0 := by
    rw [TcpConnection.store, List.count_append, none, Nat.zero_add, List.count_singleton]
    simp only [beq_iff_eq, Event.store.injEq]
  refine ⟨?_, ?_, ?_, ?_, count, ?_, ?_⟩
  · refine List.pairwise_append.mpr ⟨rec.forward, List.pairwise_singleton _ _, ?_⟩
    intro a mem b last x y eqx eqy
    rw [List.mem_singleton] at last
    subst eqx
    cases eqy.symm.trans last
    exact Nat.le_trans (rec.latest x mem) next
  · refine List.pairwise_append.mpr ⟨rec.silent, List.pairwise_singleton _ _, ?_⟩
    intro a _ b last _ data eq
    rw [List.mem_singleton, eq] at last
    cases last
  · simpa [TcpConnection.store] using rec.asserted
  · intro x mem
    rw [TcpConnection.store, List.mem_append, List.mem_singleton] at mem
    rcases mem with mem | last
    · exact Nat.le_trans (rec.latest x mem) next
    · cases last
      exact Nat.le_refl _
  · have before := rec.notified
    rw [count, TcpConnection.store, List.count_append, List.count_singleton]
    simp only [beq_iff_eq, reduceCtorEq, if_false]
    omega
  · have before := rec.called
    rw [count, TcpConnection.store, List.count_append, List.count_singleton]
    simp only [beq_iff_eq, reduceCtorEq, if_false]
    omega

theorem Recorded.mono (rec : Recorded c n k) (notified : n' ≤ n) (called : k' ≤ k) :
    Recorded c n' k' := by
  refine { rec with notified := ?_, called := ?_ }
  · have before := rec.notified
    omega
  · have before := rec.called
    omega

/-- Only the state and the history matter. -/
theorem Recorded.congr (rec : Recorded c n k) (state : c'.state = c.state)
    (trace : c'.trace = c.trace) : Recorded c' n k := by
  obtain ⟨forward, silent, asserted, latest, closed, notified, called⟩ := rec
  rw [← trace] at forward silent asserted latest closed notified called
  rw [← state] at latest closed
  exact ⟨forward, silent, asserted, latest, closed, notified, called⟩

/-- An event the life cycle is not about. -/
theorem Recorded.quiet {e : Event} (rec : Recorded c n k) (quiet : e.lifecycle = false) :
    Recorded (c.emit e) n k := by
  refine rec.emit ?_ ?_ ?_ ?_ ?_
  · rintro x rfl
    cases quiet
  · rintro rfl
    cases quiet
  · rintro data rfl
    cases quiet
  · have other : .notifyDisconnected ∉ [e] := by
      rw [List.mem_singleton]
      rintro rfl
      cases quiet
    have none := List.count_eq_zero.mpr other
    omega
  · have other : .closeCallback ∉ [e] := by
      rw [List.mem_singleton]
      rintro rfl
      cases quiet
    have none := List.count_eq_zero.mpr other
    omega

end TcpConnection

end Yvent
