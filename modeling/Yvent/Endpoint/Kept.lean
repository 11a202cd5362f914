import Yvent.Endpoint.Step
import Yvent.Misc.Run

/-!
# Connections are kept until they close

Whatever the interleaving, a connection that `handleClose` has not deregistered is owned by the
server or client or is about to be.
-/

namespace Yvent.Endpoint

variable {cb : Callbacks} {s s' : System} {l : Label} {c : ConnId} {kind : System.Kind}

namespace Sound

variable (inv : Sound s)

include inv

/-- Only the closing of a connection takes it from the server or client. -/
theorem mem_clears {L : LoopId} {f : Frame} (top : f ∈ (s.loops L).stack) (bound : c < s.nextConnId)
    (opened : ¬s.Closed c) (mem : c ∈ s.holder.conns) : c ∈ (f.clears s.holder).conns := by
  have ok := inv.frames L f top
  cases f with
  | handleCloseInLoop c' =>
    have other : c ≠ c' := fun same => opened (same ▸ ok)
    show c ∈ (s.holder.erase c').conns
    cases holder : s.holder with
    | server connections =>
      rw [holder] at mem
      exact List.mem_filter.mpr ⟨mem, by simpa using other⟩
    | client connection =>
      rw [holder] at mem
      exact mem
  | closeCallback c' =>
    have closed : s.Closed c' := ok
    show c ∈ s.holder.reset.conns
    cases holder : s.holder with
    | server connections =>
      rw [holder] at mem
      exact mem
    | client connection =>
      -- the client has only this one connection
      have one : s.nextConnId ≤ 1 := inv.client (by rw [holder]; rfl)
      have bound' := inv.bound c' closed.begun
      have same : c = c' := by
        rw [Nat.lt_one_iff.mp (Nat.lt_of_lt_of_le bound one),
          Nat.lt_one_iff.mp (Nat.lt_of_lt_of_le bound' one)]
      exact absurd (same ▸ closed) opened
  | _ => exact mem

theorem kept_letGo (taken : s.step cb l = some s') (bound : c < s.nextConnId)
    (opened : ¬s.Closed c) : (s.letGo l).Kept c := by
  have kept := inv.kept c bound opened
  cases l with
  | run L answer =>
    cases here : (s.loops L).stack with
    | nil => simpa [System.letGo, here] using kept
    | cons f rest =>
      rw [letGo_run here]
      rcases kept with mem | ⟨L', pc, mem⟩
      · exact Or.inl (inv.mem_clears (here ▸ List.mem_cons_self) bound opened mem)
      · refine Or.inr ⟨L', pc, ?_⟩
        by_cases same : L' = L
        · subst same
          simp only [System.setStack, System.setLoop, Function.update_self]
          rw [here] at mem
          split
          · next finishes =>
            refine List.mem_of_ne_of_mem ?_ mem
            rintro rfl
            cases finishes
          · exact mem
        · simpa [System.setStack, System.setLoop, same] using mem
  | next L =>
    simp only [System.letGo]
    split
    · split
      · exact System.Kept.setLoop (fun _ => id) kept
      · exact kept
    · exact kept
  | accept =>
    rcases kept with mem | created
    · refine Or.inl ?_
      show c ∈ s.holder.reset.conns
      cases holder : s.holder with
      | server connections =>
        rw [holder] at mem
        exact mem
      | client connection =>
        obtain ⟨-, taken⟩ := Option.ite_none_right_eq_some.mp taken
        simp only [System.acceptStep, holder] at taken
        split at taken
        · next none =>
          rw [none] at bound
          cases bound
        · cases taken
    · exact Or.inr created
  | ret | poll | call | begin | resume | take | copy | release | addTask | clientSend
  | queueSend => exact kept

theorem kept_step (taken : s.step cb l = some s') (bound : c < s.nextConnId)
    (opened : ¬s.Closed c) : s'.Kept c :=
  (inv.stepSpec_of_step taken).kept c (inv.kept_letGo taken bound opened)

theorem step (taken : s.step cb l = some s') : Sound s' := by
  have spec := inv.stepSpec_of_step taken
  have forward := spec.forward
  refine ⟨?_, ?_, ?_, ?_, ?_, ?_, ?_, ?_, ?_⟩
  · intro L f mem
    exact (spec.frames L f mem).elim (fun mem => forward.frameOk (inv.frames L f mem)) id
  · intro L task mem
    exact (spec.tasks L task mem).elim (fun mem => forward.frameOk (inv.tasks L task mem)) id
  · intro t p here
    exact (spec.pending t p here).elim (fun here => forward.begun _ (inv.pending t p here)) id
  · intro c held
    exact (spec.held c held).elim (fun held => forward.begun c (inv.held c held)) id
  · intro c begun
    exact (spec.begun c begun).elim
      (fun before => Nat.lt_of_lt_of_le (inv.bound c before) forward.ids) id
  · intro c state
    exact (spec.connected c state).elim (fun state => forward.begun c (inv.connected c state)) id
  · intro isClient
    rw [forward.isServer] at isClient
    rcases spec.client isClient with same | one
    · rw [same]
      exact inv.client isClient
    · exact Nat.le_of_eq one
  · intro c bound opened
    rcases spec.fresh c bound with before | kept
    · exact inv.kept_step taken before fun closed => opened (forward.closed c closed)
    · exact kept
  · intro c used
    rcases spec.uses c used with used | added
    · exact forward.begun c (inv.inUse c used)
    · refine forward.begun c ?_
      rw [System.Begun, added]
      simp

end Sound

theorem sound_start : Sound (.start kind) := by
  have idle : ∀ L, ((System.start kind).loops L).stack = [.other] ∨
      ((System.start kind).loops L).stack = [] := fun L => by
    simp only [System.start]
    split
    · exact Or.inl rfl
    · exact Or.inr rfl
  have quiet : ∀ L, ((System.start kind).loops L).allTasks = [] ∧
      ((System.start kind).loops L).phase.active = [] := fun L => by
    simp only [System.start]
    split <;> exact ⟨rfl, rfl⟩
  refine ⟨?_, ?_, nofun, ?_, ?_, nofun, fun _ => Nat.zero_le 1, nofun, ?_⟩
  · intro L f mem
    rcases idle L with stack | stack
    · rw [stack] at mem
      rw [List.mem_singleton.mp mem]
      trivial
    · rw [stack] at mem
      cases mem
  · intro L task mem
    rw [(quiet L).1] at mem
    cases mem
  · exact fun c held => absurd held (Nat.lt_irrefl 0)
  · exact fun c begun => absurd rfl begun
  · rintro c ⟨L, ⟨revents, mem⟩ | ⟨revents, pc, mem⟩⟩
    · rw [(quiet L).2] at mem
      cases mem
    · rcases idle L with stack | stack <;> rw [stack] at mem <;> simp at mem

theorem sound_reachable (reached : Reaches (System.step cb) anyStep (.start kind) s) : Sound s :=
  reached.invariant sound_start fun _ _ _ _ inv _ taken => inv.step taken

end Yvent.Endpoint
