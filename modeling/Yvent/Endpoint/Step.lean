import Mathlib.Data.List.ReduceOption
import Yvent.Endpoint.Frames

/-!
# What one step can do to the owners of a connection

`StepSpec` says of every step what it adds and what it can take away: the new frames and tasks are
about connections that have got far enough, and a `shared_ptr` that is not among those `letGo`
gives up is still there. The invariants follow from this alone.
-/

namespace Yvent.Endpoint

variable {cb : Callbacks} {s s' : System} {l : Label} {L : LoopId} {f : Frame} {rest : List Frame}
  {answer : Answer} {c : ConnId}

/-- What frames, tasks and threads are about has got far enough, and a connection that `handleClose`
has not deregistered is owned by the server or client. -/
structure Sound (s : System) : Prop where
  frames : ∀ L, ∀ f ∈ (s.loops L).stack, s.FrameOk f
  tasks : ∀ L, ∀ task ∈ (s.loops L).allTasks, s.FrameOk task.frame
  pending : ∀ t p, s.pending t = some p → s.Begun p.conn
  held : ∀ c, 0 < s.held c → s.Begun c
  bound : ∀ c, s.Begun c → c < s.nextConnId
  connected : ∀ c, (s.conns c).state = .kConnected → s.Begun c
  client : s.holder.isServer = false → s.nextConnId ≤ 1
  kept : ∀ c < s.nextConnId, ¬s.Closed c → s.Kept c
  inUse : ∀ c, s.InUse c → s.Begun c

/-- The ownership invariant: a connection that `handleClose` has not deregistered is owned by the
server or client, and one whose channel is in use is alive. -/
structure OwnershipInv (s : System) : Prop where
  frames : ∀ L, ∀ f ∈ (s.loops L).stack, s.FrameOk f
  tasks : ∀ L, ∀ task ∈ (s.loops L).allTasks, s.FrameOk task.frame
  pending : ∀ t p, s.pending t = some p → s.Begun p.conn
  held : ∀ c, 0 < s.held c → s.Begun c
  bound : ∀ c, s.Begun c → c < s.nextConnId
  connected : ∀ c, (s.conns c).state = .kConnected → s.Begun c
  client : s.holder.isServer = false → s.nextConnId ≤ 1
  kept : ∀ c < s.nextConnId, ¬s.Closed c → s.Kept c
  inUse : ∀ c, s.InUse c → s.Begun c ∧ s.Alive c

theorem OwnershipInv.sound (inv : OwnershipInv s) : Sound s where
  frames := inv.frames
  tasks := inv.tasks
  pending := inv.pending
  held := inv.held
  bound := inv.bound
  connected := inv.connected
  client := inv.client
  kept := inv.kept
  inUse c used := (inv.inUse c used).1

/-- What every step keeps to. -/
structure StepSpec (s : System) (l : Label) (s' : System) : Prop where
  forward : Forward s s'
  begun : ∀ c, s'.Begun c → s.Begun c ∨ c < s'.nextConnId
  connected : ∀ c, (s'.conns c).state = .kConnected → (s.conns c).state = .kConnected ∨ s'.Begun c
  client : s.holder.isServer = false → s'.nextConnId = s.nextConnId ∨ s'.nextConnId = 1
  frames : ∀ L, ∀ g ∈ (s'.loops L).stack, g ∈ (s.loops L).stack ∨ s'.FrameOk g
  tasks : ∀ L, ∀ task ∈ (s'.loops L).allTasks,
    task ∈ (s.loops L).allTasks ∨ s'.FrameOk task.frame
  pending : ∀ t p, s'.pending t = some p → s.pending t = some p ∨ s'.Begun p.conn
  held : ∀ c, 0 < s'.held c → 0 < s.held c ∨ s'.Begun c
  uses : ∀ c, s'.InUse c → s.InUse c ∨ (s.conns c).channel = .kAdded
  alive : ∀ c, (s.letGo l).Alive c → s'.Alive c
  kept : ∀ c, (s.letGo l).Kept c → s'.Kept c
  fresh : ∀ c < s'.nextConnId, c < s.nextConnId ∨ s'.Kept c

/-- A connection stays alive while its owners stay. -/
theorem System.Alive.mono (alive : s.Alive c) (holder : c ∈ s.holder.conns → c ∈ s'.holder.conns)
    (held : 0 < s.held c → 0 < s'.held c) (pending : s'.pending = s.pending)
    (owns : ∀ L, (s.loops L).Owns c → (s'.loops L).Owns c) : s'.Alive c := by
  cases alive with
  | holder mem => exact .holder (holder mem)
  | held some => exact .held (held some)
  | pending t p here conn => exact .pending t p (pending ▸ here) conn
  | loop L owned => exact .loop L (owns L owned)

theorem System.Alive.setLoop {loop : Loop} (owns : ∀ c, (s.loops L).Owns c → loop.Owns c)
    (alive : s.Alive c) : (s.setLoop L loop).Alive c := by
  refine alive.mono id id rfl fun L' owned => ?_
  by_cases same : L' = L
  · subst same
    simpa [System.setLoop] using owns c owned
  · simpa [System.setLoop, same] using owned

theorem System.Kept.setLoop {loop : Loop} (creates : ∀ c, (s.loops L).Creates c → loop.Creates c)
    (kept : s.Kept c) : (s.setLoop L loop).Kept c := by
  rcases kept with mem | ⟨L', created⟩
  · exact Or.inl mem
  · refine Or.inr ⟨L', ?_⟩
    by_cases same : L' = L
    · subst same
      simpa [System.setLoop] using creates c created
    · simpa [System.setLoop, same] using created

/-- A step of one loop that changes nothing else. -/
theorem stepSpec_setLoop {loop : Loop}
    (frames : ∀ g ∈ loop.stack, g ∈ (s.loops L).stack ∨ s.FrameOk g)
    (tasks : ∀ task ∈ loop.allTasks, task ∈ (s.loops L).allTasks ∨ s.FrameOk task.frame)
    (uses : ∀ c, loop.Uses c → (s.loops L).Uses c ∨ (s.conns c).channel = .kAdded)
    (alive : ∀ c, (s.letGo l).Alive c → (s.setLoop L loop).Alive c)
    (kept : ∀ c, (s.letGo l).Kept c → (s.setLoop L loop).Kept c) :
    StepSpec s l (s.setLoop L loop) where
  forward := ⟨Nat.le_refl _, rfl, fun _ => id, fun _ => id⟩
  begun _ := Or.inl
  connected _ := Or.inl
  client _ := Or.inl rfl
  frames L' g mem := by
    by_cases same : L' = L
    · subst same
      exact frames g (by simpa [System.setLoop] using mem)
    · exact Or.inl (by simpa [System.setLoop, same] using mem)
  tasks L' task mem := by
    by_cases same : L' = L
    · subst same
      exact tasks task (by simpa [System.setLoop] using mem)
    · exact Or.inl (by simpa [System.setLoop, same] using mem)
  pending _ _ := Or.inl
  held _ := Or.inl
  uses c := by
    rintro ⟨L', used⟩
    by_cases same : L' = L
    · subst same
      exact (uses c (by simpa [System.setLoop] using used)).imp (fun used => ⟨L', used⟩) id
    · exact Or.inl ⟨L', by simpa [System.setLoop, same] using used⟩
  alive := alive
  kept := kept
  fresh _ := Or.inl

theorem mem_pushFrame {L' : LoopId} {g : Frame} :
    g ∈ ((s.pushFrame L f).loops L').stack ↔ L' = L ∧ g = f ∨ g ∈ (s.loops L').stack := by
  by_cases same : L' = L
  · subst same
    simp [System.pushFrame, System.setStack, System.setLoop]
  · simp [System.pushFrame, System.setStack, System.setLoop, same]

@[simp] theorem phase_pushFrame (L' : LoopId) :
    ((s.pushFrame L f).loops L').phase = (s.loops L').phase := by
  by_cases same : L' = L
  · subst same
    simp [System.pushFrame, System.setStack, System.setLoop]
  · simp [System.pushFrame, System.setStack, System.setLoop, same]

@[simp] theorem allTasks_pushFrame (L' : LoopId) :
    ((s.pushFrame L f).loops L').allTasks = (s.loops L').allTasks := by
  by_cases same : L' = L
  · subst same
    simp [System.pushFrame, System.setStack, System.setLoop, Loop.allTasks]
  · simp [System.pushFrame, System.setStack, System.setLoop, same]

/-- The loop pushes a frame that is not a `handleEvents`. -/
theorem stepSpec_pushFrame (letGo : s.letGo l = s) (ok : s.FrameOk f)
    (uses : ∀ c revents pc, f ≠ .handleEvents c revents pc) : StepSpec s l (s.pushFrame L f) := by
  refine stepSpec_setLoop ?_ (fun _ => Or.inl) ?_ ?_ ?_
  · intro g mem
    rcases List.mem_cons.mp mem with rfl | mem
    · exact Or.inr ok
    · exact Or.inl mem
  · rintro c (active | ⟨revents, pc, mem⟩)
    · exact Or.inl (Or.inl active)
    · rcases List.mem_cons.mp mem with same | mem
      · exact absurd same.symm (uses c revents pc)
      · exact Or.inl (Or.inr ⟨revents, pc, mem⟩)
  · intro c alive
    rw [letGo] at alive
    refine System.Alive.setLoop (fun c owns => ?_) alive
    rcases owns with ⟨g, mem, owner⟩ | owns
    · exact Or.inl ⟨g, List.mem_cons_of_mem _ mem, owner⟩
    · exact Or.inr owns
  · intro c kept
    rw [letGo] at kept
    refine System.Kept.setLoop (fun c creates => ?_) kept
    obtain ⟨pc, mem⟩ := creates
    exact ⟨pc, List.mem_cons_of_mem _ mem⟩

theorem mem_allTasks_push {loop : Loop} {task x : Task} :
    x ∈ Loop.allTasks { loop with tasks := loop.tasks ++ [task] } ↔ x ∈ loop.allTasks ∨ x = task := by
  simp [Loop.allTasks, or_assoc]

theorem stepSpec_push {task : Task} (letGo : s.letGo l = s) (ok : s.FrameOk task.frame) :
    StepSpec s l (s.push L task) := by
  refine stepSpec_setLoop (fun _ => Or.inl) ?_ (fun _ => Or.inl) ?_ ?_
  · intro x mem
    rcases mem_allTasks_push.mp mem with mem | rfl
    · exact Or.inl mem
    · exact Or.inr ok
  · intro c alive
    rw [letGo] at alive
    refine System.Alive.setLoop (fun c owns => ?_) alive
    rcases owns with owns | ⟨x, mem, owner⟩
    · exact Or.inl owns
    · exact Or.inr ⟨x, mem_allTasks_push.mpr (Or.inl mem), owner⟩
  · intro c kept
    rw [letGo] at kept
    exact System.Kept.setLoop (fun _ => id) kept

theorem forward_store {st : ConnectionState} : Forward s (s.store c st) :=
  forward_setConn id id

/-- A store of `shutdown` behind a step. -/
theorem StepSpec.store (spec : StepSpec s l s') : StepSpec s l (s'.store c .kDisconnecting) := by
  have forward : Forward s' (s'.store c .kDisconnecting) := forward_store
  have channel : ∀ c', ((s'.store c .kDisconnecting).conns c').channel = (s'.conns c').channel := by
    intro c'
    by_cases same : c' = c
    · subst same
      simp [System.store, System.setConn]
    · simp [System.store, System.setConn, same]
  refine ⟨⟨spec.forward.ids, spec.forward.isServer, fun c' => forward.begun c' ∘ spec.forward.begun c',
    fun c' => forward.closed c' ∘ spec.forward.closed c'⟩, ?_, ?_, spec.client, ?_, ?_, ?_, ?_,
    spec.uses, ?_, spec.kept, spec.fresh⟩
  · intro c' begun
    refine spec.begun c' ?_
    rw [System.Begun, ← channel c']
    exact begun
  · intro c' state
    by_cases same : c' = c
    · subst same
      simp [System.store, System.setConn] at state
    · refine (spec.connected c' ?_).imp id (forward.begun c')
      simpa [System.store, System.setConn, same] using state
  · exact fun L g mem => (spec.frames L g mem).imp id forward.frameOk
  · exact fun L task mem => (spec.tasks L task mem).imp id forward.frameOk
  · exact fun t p here => (spec.pending t p here).imp id (forward.begun _)
  · exact fun c' held => (spec.held c' held).imp id (forward.begun c')
  · intro c' alive
    cases spec.alive c' alive with
    | holder mem => exact .holder mem
    | held some => exact .held some
    | pending t p here conn => exact .pending t p here conn
    | loop L owns => exact .loop L owns

theorem StepSpec.refl (letGo : s.letGo l = s) : StepSpec s l s where
  forward := .refl
  begun _ := Or.inl
  connected _ := Or.inl
  client _ := Or.inl rfl
  frames _ _ := Or.inl
  tasks _ _ := Or.inl
  pending _ _ := Or.inl
  held _ := Or.inl
  uses _ := Or.inl
  alive _ alive := letGo ▸ alive
  kept _ kept := letGo ▸ kept
  fresh _ := Or.inl

theorem stepSpec_setPending {t : Tid} {q : Option Pending} (letGo : s.letGo l = s)
    (ok : ∀ p, q = some p → s.Begun p.conn)
    (keeps : ∀ p, s.pending t = some p → ∃ p', q = some p' ∧ p'.conn = p.conn) :
    StepSpec s l (s.setPending t q) := by
  have spec := StepSpec.refl letGo
  refine ⟨⟨Nat.le_refl _, rfl, fun _ => id, fun _ => id⟩, fun _ => Or.inl, fun _ => Or.inl,
    spec.client, fun _ _ => Or.inl, fun _ _ => Or.inl, ?_, fun _ => Or.inl, fun _ => Or.inl, ?_,
    spec.kept, fun _ => Or.inl⟩
  · intro t' p here
    by_cases same : t' = t
    · subst same
      exact Or.inr (ok p (by simpa [System.setPending] using here))
    · exact Or.inl (by simpa [System.setPending, same] using here)
  · intro c alive
    cases spec.alive c alive with
    | holder mem => exact .holder mem
    | held some => exact .held some
    | loop L owns => exact .loop L owns
    | pending t' p here conn =>
      by_cases same : t' = t
      · subst same
        obtain ⟨p', now, sameConn⟩ := keeps p here
        exact .pending t' p' (by simp [System.setPending, now]) (sameConn.trans conn)
      · exact .pending t' p (by simpa [System.setPending, same] using here) conn

/-- The `shared_ptr` of the call goes into the task. -/
theorem stepSpec_pushTask {t : Tid} {p : Pending} {task : Task} (letGo : s.letGo l = s)
    (here : s.pending t = some p) (owner : task.owner = some p.conn) (ok : s.FrameOk task.frame) :
    StepSpec s l ((s.setPending t none).push L task) := by
  have spec := stepSpec_push (L := L) letGo ok
  refine ⟨⟨Nat.le_refl _, rfl, fun _ => id, fun _ => id⟩, fun _ => Or.inl, fun _ => Or.inl,
    spec.client, spec.frames, spec.tasks, ?_, fun _ => Or.inl, spec.uses, ?_, spec.kept,
    fun _ => Or.inl⟩
  · intro t' p' now
    by_cases same : t' = t
    · subst same
      simp [System.push, System.setLoop, System.setPending] at now
    · exact Or.inl (by simpa [System.push, System.setLoop, System.setPending, same] using now)
  · intro c alive
    cases spec.alive c alive with
    | holder mem => exact .holder mem
    | held some => exact .held some
    | loop L owns => exact .loop L owns
    | pending t' p' now conn =>
      by_cases same : t' = t
      · subst same
        obtain rfl : p' = p := Option.some.inj (now.symm.trans here)
        refine .loop L (Or.inr ⟨task, ?_, owner.trans (congrArg some conn)⟩)
        simp [System.push, System.setLoop, Loop.allTasks]
      · refine .pending t' p' ?_ conn
        simpa [System.push, System.setLoop, System.setPending, same] using now

theorem stepSpec_setHeld {n : Nat} (ok : 0 < n → 0 < s.held c ∨ s.Begun c)
    (alive : ∀ c', (s.letGo l).Alive c' → (s.setHeld c n).Alive c')
    (kept : ∀ c', (s.letGo l).Kept c' → s.Kept c') : StepSpec s l (s.setHeld c n) where
  forward := ⟨Nat.le_refl _, rfl, fun _ => id, fun _ => id⟩
  begun _ := Or.inl
  connected _ := Or.inl
  client _ := Or.inl rfl
  frames _ _ := Or.inl
  tasks _ _ := Or.inl
  pending _ _ := Or.inl
  held c' held := by
    by_cases same : c' = c
    · subst same
      exact ok (by simpa [System.setHeld] using held)
    · exact Or.inl (by simpa [System.setHeld, same] using held)
  uses _ := Or.inl
  alive := alive
  kept := kept
  fresh _ := Or.inl

/-- User code gets one more copy. -/
theorem stepSpec_oneMore (letGo : s.letGo l = s) (begun : s.Begun c) :
    StepSpec s l (s.setHeld c (s.held c + 1)) := by
  refine stepSpec_setHeld (fun _ => Or.inr begun) (fun c' alive => ?_) fun c' kept => letGo ▸ kept
  rw [letGo] at alive
  refine alive.mono id (fun some => ?_) rfl fun _ => id
  by_cases same : c' = c
  · subst same
    simp [System.setHeld]
  · simpa [System.setHeld, same] using some

/-! ## A step of a frame -/

section

variable {frames : List Frame} {t : System}

theorem FrameSpec.mem_allTasks (spec : FrameSpec s f frames t) (L : LoopId) (task : Task) :
    task ∈ (t.loops L).allTasks ↔ task ∈ (s.loops L).allTasks ∨
      ∃ new, (t.loops L).tasks = (s.loops L).tasks ++ new ∧ task ∈ new := by
  obtain ⟨new, tasks, -⟩ := spec.tasks L
  rw [Loop.allTasks, spec.phase, tasks, Loop.allTasks]
  constructor
  · intro mem
    rcases List.mem_append.mp mem with mem | mem
    · exact Or.inl (List.mem_append_left _ mem)
    · exact (List.mem_append.mp mem).imp (List.mem_append_right _) fun mem => ⟨new, rfl, mem⟩
  · rintro (mem | ⟨new', same, mem⟩)
    · rcases List.mem_append.mp mem with mem | mem
      · exact List.mem_append_left _ mem
      · exact List.mem_append_right _ (List.mem_append_left _ mem)
    · rw [same]
      exact List.mem_append_right _ (List.mem_append_right _ mem)

theorem letGo_run (here : (s.loops L).stack = f :: rest) : s.letGo (.run L answer) =
    { s.setStack L (if f.finishes then rest else f :: rest) with holder := f.clears s.holder } := by
  simp only [System.letGo, here]

/-- What is on the stack of a loop when the frames of the step have taken the place of the
executing one. -/
theorem FrameSpec.stack_after (spec : FrameSpec s f frames t) (L : LoopId) (rest : List Frame)
    (L' : LoopId) :
    ((t.setStack L (frames ++ rest)).loops L').stack =
      if L' = L then frames ++ rest else (s.loops L').stack := by
  by_cases same : L' = L
  · subst same
    simp [System.setStack, System.setLoop]
  · simp [System.setStack, System.setLoop, same, spec.stack]

theorem FrameSpec.alive_after (spec : FrameSpec s f frames t)
    (here : (s.loops L).stack = f :: rest) (alive : (s.letGo (.run L answer)).Alive c) :
    (t.setStack L (frames ++ rest)).Alive c := by
  rw [letGo_run here] at alive
  cases alive with
  | holder mem => exact .holder (spec.holder c mem)
  | held some => exact .held (spec.held ▸ some)
  | pending t p here conn => exact .pending t p (spec.pending ▸ here) conn
  | loop L' owns =>
    have stack := spec.stack_after L rest L'
    have tasks : ∀ task, task ∈ (s.loops L').allTasks →
        task ∈ ((t.setStack L (frames ++ rest)).loops L').allTasks := by
      intro task mem
      have kept := (spec.mem_allTasks L' task).mpr (Or.inl mem)
      by_cases same : L' = L
      · subst same
        simpa [System.setStack, System.setLoop, Loop.allTasks] using kept
      · simpa [System.setStack, System.setLoop, same] using kept
    by_cases same : L' = L
    · subst same
      rw [if_pos rfl] at stack
      have place : ∀ g ∈ frames ++ rest, g ∈ ((t.setStack L' (frames ++ rest)).loops L').stack :=
        fun g mem => by rwa [stack]
      simp only [System.setStack, System.setLoop, Function.update_self] at owns
      rcases owns with ⟨g, mem, owner⟩ | ⟨task, mem, owner⟩
      · have below : g ∈ rest → (t.setStack L' (frames ++ rest)).Alive c := fun mem =>
          .loop L' (Or.inl ⟨g, place g (List.mem_append_right _ mem), owner⟩)
        by_cases finishes : f.finishes = true
        · rw [if_pos finishes] at mem
          exact below mem
        · rw [if_neg finishes] at mem
          rcases List.mem_cons.mp mem with rfl | mem
          · rcases spec.owner c owner (by simpa using finishes) with ⟨h, mem, owner⟩ | mem
            · exact .loop L' (Or.inl ⟨h, place h (List.mem_append_left _ mem), owner⟩)
            · exact .holder mem
          · exact below mem
      · exact .loop L' (Or.inr ⟨task, tasks task mem, owner⟩)
    · rw [if_neg same] at stack
      simp only [System.setStack, System.setLoop, Function.update_of_ne same] at owns
      rcases owns with ⟨g, mem, owner⟩ | ⟨task, mem, owner⟩
      · exact .loop L' (Or.inl ⟨g, stack ▸ mem, owner⟩)
      · exact .loop L' (Or.inr ⟨task, tasks task mem, owner⟩)

theorem FrameSpec.kept_after (spec : FrameSpec s f frames t)
    (here : (s.loops L).stack = f :: rest) (kept : (s.letGo (.run L answer)).Kept c) :
    (t.setStack L (frames ++ rest)).Kept c := by
  rw [letGo_run here] at kept
  rcases kept with mem | ⟨L', pc, mem⟩
  · exact Or.inl (spec.holder c mem)
  · have stack := spec.stack_after L rest L'
    by_cases same : L' = L
    · subst same
      rw [if_pos rfl] at stack
      have place : ∀ g ∈ frames ++ rest, g ∈ ((t.setStack L' (frames ++ rest)).loops L').stack :=
        fun g mem => by rwa [stack]
      simp only [System.setStack, System.setLoop, Function.update_self] at mem
      have either : .newConnection c pc = f ∨ .newConnection c pc ∈ rest := by
        split at mem
        · exact Or.inr mem
        · exact List.mem_cons.mp mem
      rcases either with top | mem
      · rcases spec.creates c pc top.symm with ⟨pc', mem⟩ | mem
        · exact Or.inr ⟨L', pc', place _ (List.mem_append_left _ mem)⟩
        · exact Or.inl mem
      · exact Or.inr ⟨L', pc, place _ (List.mem_append_right _ mem)⟩
    · rw [if_neg same] at stack
      simp only [System.setStack, System.setLoop, Function.update_of_ne same] at mem
      exact Or.inr ⟨L', pc, stack ▸ mem⟩

theorem FrameSpec.stepSpec (spec : FrameSpec s f frames t) (here : (s.loops L).stack = f :: rest) :
    StepSpec s (.run L answer) (t.setStack L (frames ++ rest)) where
  forward :=
    ⟨spec.forward.ids, spec.forward.isServer, spec.forward.begun, spec.forward.closed⟩
  begun c begun := (spec.begun c begun).imp id (spec.nextConnId ▸ id)
  connected := spec.connected
  client _ := Or.inl spec.nextConnId
  frames L' g mem := by
    rw [spec.stack_after] at mem
    split at mem
    · next same =>
      subst same
      rcases List.mem_append.mp mem with mem | mem
      · exact Or.inr (spec.ok g mem)
      · exact Or.inl (here ▸ List.mem_cons_of_mem _ mem)
    · exact Or.inl mem
  tasks L' task mem := by
    have before : task ∈ (t.loops L').allTasks := by
      by_cases same : L' = L
      · subst same
        simpa [System.setStack, System.setLoop, Loop.allTasks] using mem
      · simpa [System.setStack, System.setLoop, same] using mem
    rcases (spec.mem_allTasks L' task).mp before with mem | ⟨new, tasks, mem⟩
    · exact Or.inl mem
    · obtain ⟨new', tasks', ok⟩ := spec.tasks L'
      rw [List.append_cancel_left (tasks.symm.trans tasks')] at mem
      exact Or.inr (ok task mem)
  pending _ _ here := Or.inl (spec.pending ▸ here)
  held _ held := Or.inl (spec.held ▸ held)
  uses c := by
    rintro ⟨L', ⟨revents, active⟩ | ⟨revents, pc, mem⟩⟩
    · refine Or.inl ⟨L', Or.inl ⟨revents, ?_⟩⟩
      rw [← spec.phase]
      by_cases same : L' = L
      · subst same
        simpa [System.setStack, System.setLoop] using active
      · simpa [System.setStack, System.setLoop, same] using active
    · refine Or.inl ⟨L', Or.inr ?_⟩
      rw [spec.stack_after] at mem
      split at mem
      · next same =>
        subst same
        rw [here]
        rcases List.mem_append.mp mem with mem | mem
        · obtain ⟨pc', rfl⟩ := spec.uses c revents pc mem
          exact ⟨revents, pc', List.mem_cons_self⟩
        · exact ⟨revents, pc, List.mem_cons_of_mem _ mem⟩
      · exact ⟨revents, pc, mem⟩
  alive _ := spec.alive_after here
  kept _ := spec.kept_after here
  fresh _ bound := Or.inl (spec.nextConnId ▸ bound)

end

/-! ## The steps beside the frames -/

theorem stepSpec_ret (user : (s.top L).any Frame.isUser = true) :
    StepSpec s (.ret L) (s.setStack L (s.loops L).stack.tail) := by
  have notOwner : ∀ {f : Frame}, f ∈ (s.loops L).stack → f ∉ (s.loops L).stack.tail →
      f.isUser = true := by
    intro f mem above
    cases stack : (s.loops L).stack with
    | nil => rw [stack] at mem; cases mem
    | cons g rest =>
      rw [stack] at mem above
      rw [System.top, stack] at user
      rcases List.mem_cons.mp mem with rfl | mem
      · exact user
      · exact absurd mem above
  refine stepSpec_setLoop (fun g mem => Or.inl (List.mem_of_mem_tail mem)) (fun _ => Or.inl) ?_ ?_ ?_
  · rintro c (active | ⟨revents, pc, mem⟩)
    · exact Or.inl (Or.inl active)
    · exact Or.inl (Or.inr ⟨revents, pc, List.mem_of_mem_tail mem⟩)
  · intro c alive
    refine System.Alive.setLoop (fun c owns => ?_) alive
    rcases owns with ⟨g, mem, owner⟩ | owns
    · refine Or.inl ⟨g, ?_, owner⟩
      by_contra above
      have isUser := notOwner mem above
      cases g <;> simp [Frame.isUser, Frame.owner] at isUser owner
    · exact Or.inr owns
  · intro c kept
    refine System.Kept.setLoop (fun c creates => ?_) kept
    obtain ⟨pc, mem⟩ := creates
    refine ⟨pc, ?_⟩
    by_contra above
    cases notOwner mem above

/-- An idle loop begins a frame or goes to its next phase, keeping its tasks. -/
theorem stepSpec_next {loop : Loop} (idle : (s.loops L).stack = [])
    (letGo : s.letGo (.next L) = s) (frames : ∀ g ∈ loop.stack, s.FrameOk g)
    (tasks : ∀ task, task ∈ loop.allTasks ↔ task ∈ (s.loops L).allTasks)
    (uses : ∀ c, loop.Uses c → (s.loops L).Uses c) :
    StepSpec s (.next L) (s.setLoop L loop) := by
  refine stepSpec_setLoop (fun g mem => Or.inr (frames g mem))
    (fun task mem => Or.inl ((tasks task).mp mem)) (fun c used => Or.inl (uses c used)) ?_ ?_
  · intro c alive
    rw [letGo] at alive
    refine System.Alive.setLoop (fun c owns => ?_) alive
    rcases owns with ⟨g, mem, -⟩ | ⟨task, mem, owner⟩
    · rw [idle] at mem
      cases mem
    · exact Or.inr ⟨task, (tasks task).mpr mem, owner⟩
  · intro c kept
    rw [letGo] at kept
    refine System.Kept.setLoop (fun c creates => ?_) kept
    obtain ⟨pc, mem⟩ := creates
    rw [idle] at mem
    cases mem

theorem stepSpec_poll {active : List (Option (ConnId × BitVec 32))}
    (here : (s.loops L).phase = .poll) (reported : s.CanReport L active) :
    StepSpec s (.poll L active) (s.setPhase L (.dispatch active)) := by
  have tasks : ∀ task, task ∈ Loop.allTasks { s.loops L with phase := .dispatch active } ↔
      task ∈ (s.loops L).allTasks := by simp [Loop.allTasks, Phase.batch, here]
  refine stepSpec_setLoop (fun _ => Or.inl) (fun task mem => Or.inl ((tasks task).mp mem)) ?_ ?_ ?_
  · rintro c (⟨revents, mem⟩ | used)
    · refine Or.inr (reported.1 (c, revents) ?_).2
      exact List.reduceOption_mem_iff.mpr mem
    · exact Or.inl (Or.inr used)
  · intro c alive
    refine System.Alive.setLoop (fun c owns => ?_) alive
    exact owns.imp id fun ⟨task, mem, owner⟩ => ⟨task, (tasks task).mpr mem, owner⟩
  · intro c kept
    exact System.Kept.setLoop (fun _ => id) kept

namespace Sound

variable (inv : Sound s)

include inv

theorem begun_of_shown (shown : (s.top L).bind s.shown = some c) : s.Begun c := by
  obtain ⟨f, top, shown⟩ := Option.bind_eq_some_iff.mp shown
  have ok := inv.frames L f (List.mem_of_mem_head? top)
  cases f with
  | user c' =>
    cases shown
    exact ok
  | member c' =>
    simp only [System.shown] at shown
    split at shown
    · cases shown
      exact ok
    · cases shown
  | _ => cases shown

theorem begun_of_canCall (can : s.CanCall L c) : s.Begun c :=
  can.2.2.elim (inv.held c) inv.begun_of_shown

theorem call_spec {call : Call} (can : s.CanCall L c) :
    StepSpec s (.call L c call) (s.callStep L c call) := by
  have begun := inv.begun_of_canCall can
  cases call with
  | send =>
    simp only [System.callStep]
    split
    · exact stepSpec_pushFrame rfl begun (by simp)
    · exact .refl rfl
  | shutdown =>
    simp only [System.callStep]
    split
    · have spec : StepSpec s (.call L c .shutdown) (s.pushFrame L (.shutdownInLoop c)) :=
        stepSpec_pushFrame rfl begun (by simp)
      exact spec.store
    · exact .refl rfl
  | forceClose =>
    simp only [System.callStep]
    split
    · exact stepSpec_pushFrame rfl begun (by simp)
    · exact .refl rfl

theorem begin_spec {t : Tid} {call : Call} (free : s.pending t = none) (held : 0 < s.held c) :
    StepSpec s (.begin t c call) (s.beginStep t c call) := by
  have begun := inv.held c held
  have noneBefore : ∀ (q : Option Pending) (p : Pending), s.pending t = some p →
      ∃ p', q = some p' ∧ p'.conn = p.conn := by
    intro q p here
    rw [free] at here
    cases here
  have spec : ∀ p : Pending, p.conn = c →
      StepSpec s (.begin t c call) (s.setPending t (some p)) := by
    rintro p rfl
    refine stepSpec_setPending rfl ?_ (noneBefore _)
    rintro p' same
    cases same
    exact begun
  cases call with
  | send | shutdown | forceClose =>
    simp only [System.beginStep]
    split
    · exact spec _ rfl
    · exact .refl rfl

theorem resume_spec {t : Tid} {p : Pending} (here : s.pending t = some p) :
    StepSpec s (.resume t) (s.resumeStep t p) := by
  have begun := inv.pending t p here
  cases p with
  | sendTask | shutdownTask | forceCloseTask =>
    exact stepSpec_pushTask rfl here rfl begun
  | shutdownStore c =>
    have spec : StepSpec s (.resume t) (s.setPending t (some (.shutdownTask c))) := by
      refine stepSpec_setPending rfl ?_ ?_
      · rintro p same
        cases same
        exact begun
      · rintro p before
        obtain rfl := Option.some.inj (here.symm.trans before)
        exact ⟨_, rfl, rfl⟩
    exact spec.store

theorem next_spec (idle : (s.loops L).stack = []) (taken : s.nextStep L = some s') :
    StepSpec s (.next L) s' := by
  unfold System.nextStep at taken
  split at taken
  · cases taken
  · next here =>
    cases taken
    refine stepSpec_next idle (by simp [System.letGo, here]) (by simp [idle]) ?_ ?_
    · simp [Loop.allTasks, Phase.batch, here]
    · rintro c (⟨revents, active⟩ | ⟨revents, pc, mem⟩)
      · cases active
      · exact Or.inr ⟨revents, pc, mem⟩
  · next c revents rest here =>
    cases taken
    have used : (s.loops L).Uses c := Or.inl ⟨revents, by simp [here, Phase.active]⟩
    refine stepSpec_next idle (by simp [System.letGo, here]) ?_ ?_ ?_
    · exact List.forall_mem_singleton.mpr (inv.inUse c ⟨L, used⟩)
    · simp [Loop.allTasks, Phase.batch, here]
    · rintro c' (⟨revents', active⟩ | ⟨revents', pc, mem⟩)
      · refine Or.inl ⟨revents', ?_⟩
        rw [here]
        exact List.mem_cons_of_mem _ active
      · cases List.mem_singleton.mp mem
        exact used
  · next rest here =>
    cases taken
    refine stepSpec_next idle (by simp [System.letGo, here])
      (List.forall_mem_singleton.mpr trivial) ?_ ?_
    · simp [Loop.allTasks, Phase.batch, here]
    · rintro c (⟨revents, active⟩ | ⟨revents, pc, mem⟩)
      · refine Or.inl ⟨revents, ?_⟩
        rw [here]
        exact List.mem_cons_of_mem _ active
      · cases List.mem_singleton.mp mem
  · next batch next here =>
    split at taken
    · next task atNext =>
      cases taken
      have mem : task ∈ (s.loops L).allTasks := by
        rw [Loop.allTasks, here]
        exact List.mem_append_left _ (List.mem_of_getElem? atNext)
      refine stepSpec_next idle (by simp [System.letGo, here, atNext])
        (List.forall_mem_singleton.mpr (inv.tasks L task mem)) ?_ ?_
      · simp [Loop.allTasks, Phase.batch, here]
      · rintro c (⟨revents, active⟩ | ⟨revents, pc, mem⟩)
        · cases active
        · have same := List.mem_singleton.mp mem
          cases task <;> cases same
    · next atEnd =>
      cases taken
      have letGo : s.letGo (.next L) = s.setPhase L .poll := by simp [System.letGo, here, atEnd]
      refine stepSpec_setLoop (fun _ => Or.inl) ?_ ?_ (fun c alive => ?_) (fun c kept => ?_)
      · intro task mem
        exact Or.inl (List.mem_append_right _ mem)
      · rintro c (⟨revents, active⟩ | used)
        · cases active
        · exact Or.inl (Or.inr used)
      · rwa [letGo] at alive
      · rwa [letGo] at kept

/-- A new connection takes the next name and a frame of its `newConnection`. -/
theorem accept_spec_of {f : Frame} {t : System} {L' : LoopId} {holder : Holder} {next : Nat}
    (eq : t = { (s.setConn s.nextConnId ⟨L', .kConnecting, .kNew⟩).pushFrame 0 f with
      nextConnId := s.nextConnId + 1, nextEventLoop := next, holder })
    (server : holder.isServer = s.holder.isServer)
    (entries : ∀ c ∈ s.holder.reset.conns, c ∈ holder.conns)
    (client : s.holder.isServer = false → s.nextConnId = 0) (ok : t.FrameOk f)
    (uses : ∀ c revents pc, f ≠ .handleEvents c revents pc) (kept : t.Kept s.nextConnId) :
    StepSpec s .accept t := by
  subst eq
  have others : ∀ c, c ≠ s.nextConnId →
      (s.setConn s.nextConnId ⟨L', .kConnecting, .kNew⟩).conns c = s.conns c := fun c other => by
    simp [System.setConn, other]
  have own : (s.setConn s.nextConnId ⟨L', .kConnecting, .kNew⟩).conns s.nextConnId =
      ⟨L', .kConnecting, .kNew⟩ := by simp [System.setConn]
  have notNew : ∀ c, s.Begun c → c ≠ s.nextConnId := fun c begun =>
    Nat.ne_of_lt (inv.bound c begun)
  have above : ∀ {L}, ∀ g ∈ (s.loops L).stack, g ∈ ((s.pushFrame 0 f).loops L).stack :=
    fun g mem => mem_pushFrame.mpr (Or.inr mem)
  have tasks : ∀ L, ((s.pushFrame 0 f).loops L).allTasks = (s.loops L).allTasks :=
    allTasks_pushFrame
  refine ⟨⟨Nat.le_succ _, server, fun c begun => ?_, fun c closed => ?_⟩, fun c begun => ?_,
    fun c state => ?_, fun none => Or.inr (by simp [client none]), fun L g mem => ?_,
    fun L task mem => Or.inl (tasks L ▸ mem), fun _ _ => Or.inl, fun _ => Or.inl, ?_, ?_, ?_, ?_⟩
  · show ((s.setConn s.nextConnId _).conns c).channel ≠ .kNew
    rw [others c (notNew c begun)]
    exact begun
  · show ((s.setConn s.nextConnId _).conns c).channel = .kDeleted
    rw [others c (notNew c closed.begun)]
    exact closed
  · by_cases new : c = s.nextConnId
    · subst new
      exact Or.inr (Nat.lt_succ_self _)
    · refine Or.inl fun none => begun ?_
      show ((s.setConn s.nextConnId _).conns c).channel = .kNew
      rw [others c new]
      exact none
  · have after : ((s.setConn s.nextConnId ⟨L', .kConnecting, .kNew⟩).conns c).state = .kConnected :=
      state
    by_cases new : c = s.nextConnId
    · rw [new, own] at after
      cases after
    · rw [others c new] at after
      exact Or.inl after
  · rcases mem_pushFrame.mp mem with ⟨-, rfl⟩ | mem
    · exact Or.inr ok
    · exact Or.inl mem
  · rintro c ⟨L, ⟨revents, active⟩ | ⟨revents, pc, mem⟩⟩
    · have phase : ((s.pushFrame 0 f).loops L).phase = (s.loops L).phase := phase_pushFrame L
      exact Or.inl ⟨L, Or.inl ⟨revents, phase ▸ active⟩⟩
    · rcases mem_pushFrame.mp mem with ⟨-, rfl⟩ | mem
      · exact absurd rfl (uses c revents pc)
      · exact Or.inl ⟨L, Or.inr ⟨revents, pc, mem⟩⟩
  · intro c alive
    refine alive.mono (entries c) id rfl fun L owns => ?_
    rcases owns with ⟨g, mem, owner⟩ | ⟨task, mem, owner⟩
    · exact Or.inl ⟨g, above g mem, owner⟩
    · exact Or.inr ⟨task, tasks L ▸ mem, owner⟩
  · rintro c (mem | ⟨L, pc, mem⟩)
    · exact Or.inl (entries c mem)
    · exact Or.inr ⟨L, pc, above _ mem⟩
  · intro c less
    rcases Nat.lt_succ_iff_lt_or_eq.mp less with less | rfl
    · exact Or.inl less
    · exact Or.inr kept

theorem accept_spec (taken : s.acceptStep = some s') : StepSpec s .accept s' := by
  simp only [System.acceptStep] at taken
  split at taken
  · next connections here =>
    cases taken
    have server : s.holder.isServer = true := by rw [here]; rfl
    refine inv.accept_spec_of rfl rfl (fun c mem => ?_) ?_ ?_ (by simp) ?_
    · show c ∈ s.holder.conns
      rw [here] at mem ⊢
      exact mem
    · intro none
      rw [server] at none
      cases none
    · exact ⟨Nat.lt_succ_self _, server⟩
    · exact Or.inr ⟨0, .enable, by simp [System.pushFrame, System.setStack, System.setLoop]⟩
  · next connection here =>
    split at taken
    · next first =>
      cases taken
      refine inv.accept_spec_of rfl ?_ (fun c mem => ?_) (fun _ => first) ?_ (by simp) ?_
      · rw [here]
        rfl
      · rw [here] at mem
        cases mem
      · exact Nat.lt_succ_self _
      · exact Or.inl (by simp [Holder.conns])
    · cases taken

theorem run_spec (taken : s.step cb (.run L answer) = some s') : StepSpec s (.run L answer) s' := by
  simp only [System.step] at taken
  split at taken
  · cases taken
  · next f rest here =>
    obtain ⟨⟨frames, t⟩, ran, rfl⟩ := Option.map_eq_some_iff.mp taken
    have ok : s.FrameOk f := inv.frames L f (here ▸ List.mem_cons_self)
    exact (frameSpec_of_frameStep ok inv.bound inv.connected ran).stepSpec here

theorem stepSpec_of_step (taken : s.step cb l = some s') : StepSpec s l s' := by
  cases l with
  | run L answer => exact inv.run_spec taken
  | ret L =>
    obtain ⟨user, taken⟩ := Option.ite_none_right_eq_some.mp taken
    cases taken
    exact stepSpec_ret user
  | next L =>
    obtain ⟨idle, taken⟩ := Option.ite_none_right_eq_some.mp taken
    exact inv.next_spec idle taken
  | poll L active =>
    obtain ⟨ready, taken⟩ := Option.ite_none_right_eq_some.mp taken
    cases taken
    exact stepSpec_poll ready.2.1 ready.2.2
  | accept =>
    obtain ⟨-, taken⟩ := Option.ite_none_right_eq_some.mp taken
    exact inv.accept_spec taken
  | call L c call =>
    obtain ⟨can, taken⟩ := Option.ite_none_right_eq_some.mp taken
    cases taken
    exact inv.call_spec can
  | begin t c call =>
    obtain ⟨free, taken⟩ := Option.ite_none_right_eq_some.mp taken
    cases taken
    exact inv.begin_spec free.1 free.2
  | resume t =>
    obtain ⟨p, here, rfl⟩ := Option.map_eq_some_iff.mp taken
    exact inv.resume_spec here
  | take L =>
    simp only [System.step] at taken
    split at taken
    · next shown =>
      cases taken
      exact stepSpec_oneMore rfl (inv.begun_of_shown shown)
    · cases taken
  | copy c =>
    obtain ⟨held, taken⟩ := Option.ite_none_right_eq_some.mp taken
    cases taken
    exact stepSpec_oneMore rfl (inv.held c held)
  | release c =>
    obtain ⟨held, taken⟩ := Option.ite_none_right_eq_some.mp taken
    cases taken
    exact stepSpec_setHeld (fun _ => Or.inl held) (fun _ => id) fun _ => id
  | addTask L =>
    cases taken
    exact stepSpec_push rfl trivial
  | clientSend =>
    obtain ⟨-, taken⟩ := Option.ite_none_right_eq_some.mp taken
    cases taken
    exact stepSpec_pushFrame rfl trivial (by simp)
  | queueSend =>
    obtain ⟨-, taken⟩ := Option.ite_none_right_eq_some.mp taken
    cases taken
    exact stepSpec_push rfl trivial

end Sound

end Yvent.Endpoint
