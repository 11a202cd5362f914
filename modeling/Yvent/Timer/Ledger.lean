import Yvent.Timer.Model

/-!
# The ledger of timer entries

The raw pointers of the timer queue sit in `timers_` and in the local vector of `handleRead()`.
`Ledger entries heap created freed` says that these entries and the heap fit together: each entry
points to a live timer under its own due time, no timer has two entries, and each timer created so
far is either live with an entry or freed once. The ledger depends on the entries only up to
order, so moving them between the set and the vector costs nothing; the steps of the queue are
four changes of a ledger (a new timer, a timer freed, a flag set, a due time changed).
-/

namespace Yvent.TimerQueue

/-- The unfinished part of the expired batch, the timer being run included. -/
def Phase.pending : Phase → List TimerEntry
  | .expiring rest => rest
  | .running e rest => e :: rest
  | .idle | .read => []

/-- The entries of `timers_` and of the unfinished batch. -/
def entries (q : TimerQueue) : List TimerEntry := q.timers.toList ++ q.phase.pending

/-- Entries and heap fit together. -/
structure Ledger (entries : List TimerEntry) (heap : Addr → Option Timer) (created : Nat)
    (freed : List Nat) : Prop where
  keyed : ∀ e ∈ entries, ∃ t, heap e.timer = some t ∧ t.when = e.when
  distinct : (entries.map TimerEntry.timer).Nodup
  owned : ∀ a t, heap a = some t → timerEntry t.when a ∈ entries
  numbered : ∀ a t, heap a = some t → t.serial < created ∧ t.serial ∉ freed
  injective : ∀ a b t u, heap a = some t → heap b = some u → t.serial = u.serial → a = b
  freedOnce : freed.Nodup
  freedOld : ∀ i ∈ freed, i < created
  accounted : ∀ i < created, i ∈ freed ∨ ∃ a t, heap a = some t ∧ t.serial = i

section Ledger

variable {entries entries' : List TimerEntry} {heap : Addr → Option Timer} {created : Nat}
  {freed : List Nat} {e : TimerEntry} {t r : Timer} {a : Addr}

@[simp] theorem timer_timerEntry (w : Int) (a : Addr) : (timerEntry w a).timer = a := rfl

theorem Ledger.empty : Ledger [] (fun _ => none) 0 [] where
  keyed := by simp
  distinct := List.nodup_nil
  owned := by simp
  numbered := by simp
  injective := by simp
  freedOnce := List.nodup_nil
  freedOld := by simp
  accounted := by simp

theorem Ledger.perm (led : Ledger entries heap created freed) (same : entries.Perm entries') :
    Ledger entries' heap created freed where
  keyed e member := led.keyed e (same.mem_iff.mpr member)
  distinct := (same.map _).nodup_iff.mp led.distinct
  owned a t live := same.mem_iff.mp (led.owned a t live)
  numbered := led.numbered
  injective := led.injective
  freedOnce := led.freedOnce
  freedOld := led.freedOld
  accounted := led.accounted

/-- An address that is not live has no entry. -/
theorem Ledger.not_mem_of_free (led : Ledger entries heap created freed) (free : heap a = none) :
    a ∉ entries.map TimerEntry.timer := by
  intro member
  obtain ⟨e, here, rfl⟩ := List.mem_map.mp member
  obtain ⟨t, live, _⟩ := led.keyed e here
  rw [free] at live
  cases live

/-- `new Timer` and the insertion of its entry. -/
theorem Ledger.new (led : Ledger entries heap created freed) (free : heap a = none)
    (w : Int) (interval : Int) :
    Ledger (timerEntry w a :: entries)
      (Function.update heap a (some (Timer.create w interval created))) (created + 1) freed := by
  have fresh := led.not_mem_of_free free
  constructor
  case keyed =>
    intro e member
    rcases List.mem_cons.mp member with rfl | old
    · exact ⟨_, by rw [timer_timerEntry, Function.update_self], rfl⟩
    · have other : e.timer ≠ a := fun same => fresh (same ▸ List.mem_map_of_mem old)
      rw [Function.update_of_ne other]
      exact led.keyed e old
  case distinct =>
    rw [List.map_cons, timer_timerEntry]
    exact List.nodup_cons.mpr ⟨fresh, led.distinct⟩
  case owned =>
    intro b t live
    rcases update_eq_some.mp live with ⟨rfl, ⟨⟩⟩ | ⟨-, live⟩
    · exact List.mem_cons_self
    · exact List.mem_cons_of_mem _ (led.owned b t live)
  case numbered =>
    intro b t live
    rcases update_eq_some.mp live with ⟨rfl, ⟨⟩⟩ | ⟨-, live⟩
    · exact ⟨Nat.lt_succ_self _, fun old => Nat.lt_irrefl _ (led.freedOld _ old)⟩
    · obtain ⟨less, kept⟩ := led.numbered b t live
      exact ⟨Nat.lt_succ_of_lt less, kept⟩
  case injective =>
    intro b c t u liveT liveU serial
    -- no older timer has the new number
    rcases update_eq_some.mp liveT with ⟨rfl, ⟨⟩⟩ | ⟨-, olderT⟩
    · rcases update_eq_some.mp liveU with ⟨rfl, ⟨⟩⟩ | ⟨-, olderU⟩
      · rfl
      · exact absurd serial (Nat.ne_of_gt (led.numbered c u olderU).1)
    · rcases update_eq_some.mp liveU with ⟨rfl, ⟨⟩⟩ | ⟨-, olderU⟩
      · exact absurd serial (Nat.ne_of_lt (led.numbered b t olderT).1)
      · exact led.injective b c t u olderT olderU serial
  case freedOnce => exact led.freedOnce
  case freedOld => exact fun i old => Nat.lt_succ_of_lt (led.freedOld i old)
  case accounted =>
    intro i less
    by_cases last : i = created
    · exact .inr ⟨a, _, Function.update_self .., last.symm⟩
    · rcases led.accounted i (by omega) with old | ⟨b, t, live, serial⟩
      · exact .inl old
      · have other : b ≠ a := by
          rintro rfl
          rw [free] at live
          cases live
        exact .inr ⟨b, t, update_eq_some.mpr (.inr ⟨other, live⟩), serial⟩

/-- `delete` of a timer whose entry has been taken out. -/
theorem Ledger.free (led : Ledger (e :: entries) heap created freed)
    (live : heap e.timer = some t) :
    Ledger entries (Function.update heap e.timer none) created (freed ++ [t.serial]) := by
  have split := List.nodup_cons.mp led.distinct
  have survivor : ∀ {b u}, Function.update heap e.timer none b = some u →
      b ≠ e.timer ∧ heap b = some u := fun alive =>
    (update_eq_some.mp alive).resolve_left (by simp)
  constructor
  case keyed =>
    intro d member
    have other : d.timer ≠ e.timer :=
      fun same => split.1 (same ▸ List.mem_map_of_mem member)
    rw [Function.update_of_ne other]
    exact led.keyed d (List.mem_cons_of_mem _ member)
  case distinct => exact split.2
  case owned =>
    intro b u alive
    obtain ⟨other, alive⟩ := survivor alive
    rcases List.mem_cons.mp (led.owned b u alive) with same | member
    · exact absurd (congrArg TimerEntry.timer same) other
    · exact member
  case numbered =>
    intro b u alive
    obtain ⟨other, alive⟩ := survivor alive
    obtain ⟨less, kept⟩ := led.numbered b u alive
    refine ⟨less, fun member => ?_⟩
    rcases List.mem_append.mp member with old | new
    · exact kept old
    · exact other (led.injective b e.timer u t alive live (List.mem_singleton.mp new))
  case injective =>
    intro b c u v first second serial
    exact led.injective b c u v (survivor first).2 (survivor second).2 serial
  case freedOnce =>
    refine led.freedOnce.append (List.nodup_singleton _) ?_
    intro i old new
    rw [List.mem_singleton.mp new] at old
    exact (led.numbered _ t live).2 old
  case freedOld =>
    intro i member
    rcases List.mem_append.mp member with old | new
    · exact led.freedOld i old
    · rw [List.mem_singleton.mp new]
      exact (led.numbered _ t live).1
  case accounted =>
    intro i less
    rcases led.accounted i less with old | ⟨b, u, alive, serial⟩
    · exact .inl (List.mem_append_left _ old)
    · by_cases same : b = e.timer
      · rw [same, live] at alive
        cases alive
        exact .inl (List.mem_append_right _ (List.mem_singleton.mpr serial.symm))
      · exact .inr ⟨b, u, update_eq_some.mpr (.inr ⟨same, alive⟩), serial⟩

/-- A live timer is changed in place, with its entry moved to the new due time. -/
theorem Ledger.rekey (led : Ledger (e :: entries) heap created freed)
    (live : heap e.timer = some t) (serial : r.serial = t.serial) :
    Ledger (timerEntry r.when e.timer :: entries)
      (Function.update heap e.timer (some r)) created freed := by
  have split := List.nodup_cons.mp led.distinct
  have origin : ∀ {b u}, Function.update heap e.timer (some r) b = some u →
      ∃ v, heap b = some v ∧ u.serial = v.serial := by
    intro b u alive
    rcases update_eq_some.mp alive with ⟨rfl, ⟨⟩⟩ | ⟨-, alive⟩
    · exact ⟨t, live, serial⟩
    · exact ⟨u, alive, rfl⟩
  constructor
  case keyed =>
    intro d member
    rcases List.mem_cons.mp member with rfl | old
    · exact ⟨r, by rw [timer_timerEntry, Function.update_self], rfl⟩
    · have other : d.timer ≠ e.timer := fun same => split.1 (same ▸ List.mem_map_of_mem old)
      rw [Function.update_of_ne other]
      exact led.keyed d (List.mem_cons_of_mem _ old)
  case distinct =>
    rw [List.map_cons, timer_timerEntry]
    exact List.nodup_cons.mpr split
  case owned =>
    intro b u alive
    rcases update_eq_some.mp alive with ⟨rfl, ⟨⟩⟩ | ⟨other, alive⟩
    · exact List.mem_cons_self
    · rcases List.mem_cons.mp (led.owned b u alive) with here | old
      · exact absurd (congrArg TimerEntry.timer here) other
      · exact List.mem_cons_of_mem _ old
  case numbered =>
    intro b u alive
    obtain ⟨v, before, equal⟩ := origin alive
    rw [equal]
    exact led.numbered b v before
  case injective =>
    intro b c u v first second equal
    obtain ⟨u', beforeU, equalU⟩ := origin first
    obtain ⟨v', beforeV, equalV⟩ := origin second
    exact led.injective b c u' v' beforeU beforeV (by rw [← equalU, ← equalV, equal])
  case freedOnce => exact led.freedOnce
  case freedOld => exact led.freedOld
  case accounted =>
    intro i less
    rcases led.accounted i less with old | ⟨b, u, alive, equal⟩
    · exact .inl old
    · by_cases same : b = e.timer
      · rw [same, live] at alive
        cases alive
        exact .inr ⟨e.timer, r, Function.update_self .., serial.trans equal⟩
      · exact .inr ⟨b, u, update_eq_some.mpr (.inr ⟨same, alive⟩), equal⟩

/-- A live timer is changed in place under the same due time. -/
theorem Ledger.set (led : Ledger entries heap created freed) (live : heap a = some t)
    (same : r.when = t.when) (serial : r.serial = t.serial) :
    Ledger entries (Function.update heap a (some r)) created freed := by
  have front := List.perm_cons_erase (led.owned a t live)
  have moved := (led.perm front).rekey (r := r) live serial
  rw [timer_timerEntry, same] at moved
  exact moved.perm front.symm

end Ledger

end Yvent.TimerQueue
