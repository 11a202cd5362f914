import Yvent.Connection.Stream

/-!
# Graceful shutdown

The socket is shut down for writing once the channel is not write-enabled. That drains what
`sendInLoop` has been given, but not what is still on its way: a message that another thread was
promised may wait in the task queue. And a `sendInLoop` whose completion callback ended the stream
goes on behind the end; with a file attached it enables writing again. When no message is on its
way at the end and no `sendInLoop` goes on behind it with a file, everything accepted has been
written before the end of the stream and nothing is sent behind it.
-/

namespace Yvent.TcpConnection

variable {cb : Callbacks} {c : TcpConnection} {f : Frame} {answer : Answer}
  {trace es : List Event} {s s' : System} {l : Label}

/-- What must hold of the history when the stream is ended: the messages accepted before any call
of `shutdown` have been executed, and what was executed has been written. -/
def Drained (trace : List Event) : Prop :=
  (∀ early late caller, trace = early ++ .shutdownCalled caller :: late →
    ∀ caller', acceptedBy caller' early <+: executedBy caller' trace) ∧
    wrote trace = executed trace

/-- At each end of the stream before `handleClose` the stream is drained, and nothing is sent
behind it. -/
def GracefulShutdown (trace : List Event) : Prop :=
  ∀ pre post, trace = pre ++ .shutdownWr :: post → Open pre →
    Drained pre ∧ ∀ e ∈ post, sends e = false

/-- The stream has been ended before `handleClose`. -/
def Ended (trace : List Event) : Prop :=
  ∃ pre post, trace = pre ++ .shutdownWr :: post ∧ Open pre

/-- The side condition on a step: the stream is ended only while no accepted message is on its way
to `sendInLoop`, and a `sendInLoop` that comes back from its completion callback behind the end
finds no file attached. -/
def EndsDrained (s : System) (l : Label) : Prop :=
  ∀ answer, l = .run answer →
    (top s.stack = .shutdownInLoop → s.conn.isWriting = false → Open s.conn.trace →
      ∀ caller, s.waiting caller = []) ∧
    ∀ data n, top s.stack = .sendInLoop data (.rest n) → Ended s.conn.trace → s.conn.stSize = 0

/-! ## The history -/

theorem split_concat {α : Type} {e m : α} {xs pre post : List α}
    (eq : xs ++ [e] = pre ++ m :: post) :
    (post = [] ∧ e = m ∧ xs = pre) ∨ ∃ post', post = post' ++ [e] ∧ xs = pre ++ m :: post' := by
  rcases List.eq_nil_or_concat post with rfl | ⟨post', x, rfl⟩
  · obtain ⟨same, last⟩ := List.append_inj' eq rfl
    exact Or.inl ⟨rfl, (List.cons.inj last).1, same⟩
  · rw [List.concat_eq_append, ← List.cons_append, ← List.append_assoc] at eq
    obtain ⟨same, last⟩ := List.append_inj' eq rfl
    exact Or.inr ⟨post', by rw [List.concat_eq_append, (List.cons.inj last).1], same⟩

theorem ended_concat {e : Event} (ended : Ended (trace ++ [e])) :
    Ended trace ∨ e = .shutdownWr ∧ Open trace := by
  obtain ⟨pre, post, eq, opened⟩ := ended
  rcases split_concat eq with ⟨-, last, rfl⟩ | ⟨post', -, same⟩
  · exact Or.inr ⟨last, opened⟩
  · exact Or.inl ⟨pre, post', same, opened⟩

theorem gracefulShutdown_concat {e : Event} (graceful : GracefulShutdown trace)
    (silent : Ended trace → sends e = false)
    (drained : e = .shutdownWr → Open trace → Drained trace) :
    GracefulShutdown (trace ++ [e]) := by
  intro pre post eq opened
  rcases split_concat eq with ⟨rfl, last, rfl⟩ | ⟨post', rfl, same⟩
  · exact ⟨drained last opened, by simp⟩
  · obtain ⟨before, quiet⟩ := graceful pre post' same opened
    refine ⟨before, fun x mem => ?_⟩
    rcases List.mem_append.mp mem with mem | mem
    · exact quiet x mem
    · rw [List.mem_singleton.mp mem]
      exact silent ⟨pre, post', same, opened⟩

/-- Events that do not end the stream. -/
theorem gracefulShutdown_append (graceful : GracefulShutdown trace)
    (goesOn : ∀ e ∈ es, e ≠ .shutdownWr) (silent : Ended trace → ∀ e ∈ es, sends e = false) :
    GracefulShutdown (trace ++ es) ∧ (Ended (trace ++ es) → Ended trace) := by
  induction es generalizing trace with
  | nil =>
    rw [List.append_nil]
    exact ⟨graceful, id⟩
  | cons e es ih =>
    have next := goesOn e List.mem_cons_self
    have back : Ended (trace ++ [e]) → Ended trace := fun ended =>
      (ended_concat ended).resolve_right fun last => next last.1
    have one := gracefulShutdown_concat graceful
      (fun ended => silent ended e List.mem_cons_self) fun last => absurd last next
    have rest := ih one (fun x mem => goesOn x (List.mem_cons_of_mem _ mem))
      fun ended x mem => silent (back ended) x (List.mem_cons_of_mem _ mem)
    rw [← List.singleton_append, ← List.append_assoc]
    exact ⟨rest.1, fun ended => back (rest.2 ended)⟩

/-! ## The order of the states -/

/-- A `shutdownInLoop` is executing, queued, or about to be queued. -/
def Requested (s : System) : Prop :=
  .shutdownInLoop ∈ s.stack ∨ .shutdownInLoop ∈ s.queued ∨ ∃ t, s.pending t = .shutdownTask

theorem Requested.of (request : Requested s')
    (frames : .shutdownInLoop ∈ s'.stack → .shutdownInLoop ∈ s.stack)
    (queued : .shutdownInLoop ∈ s'.queued → .shutdownInLoop ∈ s.queued)
    (pending : ∀ t, s'.pending t = .shutdownTask → s.pending t = .shutdownTask) : Requested s :=
  request.imp frames (Or.imp queued fun ⟨t, here⟩ => ⟨t, pending t here⟩)

/-- `enableRead` runs first, and a `shutdownInLoop` only behind a store of `shutdown`. -/
structure OrderInv (s : System) : Prop where
  starting : (top s.stack).starting = true → s.conn.state = .kConnecting
  tail : ∀ f ∈ s.stack.tail, f.starting = false
  pending : ∀ t, s.pending t = .shutdownStore → s.conn.state ≠ .kConnecting
  requested : Requested s → Late s.conn.state

theorem orderInv_start : OrderInv .start where
  starting _ := rfl
  tail := by simp [System.start]
  pending _ here := by cases here
  requested := by
    rintro (frame | queued | ⟨t, here⟩)
    · simp [System.start] at frame
    · simp [System.start, System.queued, Phase.batch] at queued
    · cases here

/-- A late state stays late. -/
theorem FrameMove.late {result : List Frame × TcpConnection}
    (moved : FrameMove cb c f answer result) (begun : f.starting = false) (late : Late c.state) :
    Late result.2.state := by
  rcases moved.controlled.state with same | late | ⟨rfl, -⟩
  · rw [same]
    exact late
  · exact late
  · cases begun

theorem late_ne {st : ConnectionState} (late : Late st) : st ≠ .kConnecting ∧ st ≠ .kConnected := by
  rcases late with rfl | rfl <;> exact ⟨by simp, by simp⟩

theorem top_starting {rest : List Frame} (begun : ∀ g ∈ rest, g.starting = false) :
    (top rest).starting = false := by
  cases rest with
  | nil => rfl
  | cons g rest => exact begun g List.mem_cons_self

theorem Controlled.top_starting {rest : List Frame} {result : List Frame × TcpConnection}
    (control : Controlled c f result) (begun : ∀ g ∈ rest, g.starting = false)
    (yes : (top (result.1 ++ rest)).starting = true) :
    f.starting = true ∧ result.2.state = c.state := by
  cases frames : result.1 with
  | nil =>
    rw [frames, List.nil_append, TcpConnection.top_starting begun] at yes
    cases yes
  | cons g fs =>
    rw [frames] at yes
    obtain ⟨rfl, -, same⟩ := control.starting g (frames ▸ List.mem_cons_self) yes
    exact ⟨rfl, same⟩

theorem Controlled.tail_starting {rest : List Frame} {result : List Frame × TcpConnection}
    (control : Controlled c f result) (begun : ∀ g ∈ rest, g.starting = false) :
    ∀ g ∈ (result.1 ++ rest).tail, g.starting = false := by
  intro g mem
  cases frames : result.1 with
  | nil =>
    rw [frames] at mem
    exact begun g (List.mem_of_mem_tail mem)
  | cons h fs =>
    rw [frames] at mem
    rcases List.mem_append.mp mem with added | below
    · by_contra yes
      rw [Bool.not_eq_false] at yes
      obtain ⟨-, alone, -⟩ := control.starting g (frames ▸ List.mem_cons_of_mem _ added) yes
      rw [frames] at alone
      rw [(List.cons.inj alone).2] at added
      cases added
    · exact begun g below

theorem orderInv_run {rest : List Frame} {result : List Frame × TcpConnection} (inv : OrderInv s)
    (topFrame : s.stack = f :: rest) (moved : FrameMove cb s.conn f answer result) :
    OrderInv { s with conn := result.2, stack := result.1 ++ rest } := by
  obtain ⟨starting, tail, pending, requested⟩ := inv
  rw [topFrame] at starting tail
  have control := moved.controlled
  have connecting : f.starting = true → s.conn.state = .kConnecting := starting
  refine ⟨?_, control.tail_starting tail, ?_, ?_⟩
  · intro yes
    obtain ⟨first, same⟩ := control.top_starting tail yes
    exact same.trans (connecting first)
  · intro t here
    rcases control.state with same | late | ⟨-, connected⟩
    · show result.2.state ≠ .kConnecting
      rw [same]
      exact pending t here
    · exact (late_ne late).1
    · show result.2.state ≠ .kConnecting
      rw [connected]
      simp
  · intro request
    have later : Late s.conn.state → Late result.2.state := by
      intro late
      refine moved.late ?_ late
      by_contra yes
      rw [Bool.not_eq_false] at yes
      exact (late_ne late).1 (connecting yes)
    rcases request with mem | queued | task
    · rcases List.mem_append.mp mem with mem | mem
      · exact control.requests mem
      · exact later (requested (Or.inl (topFrame ▸ List.mem_cons_of_mem _ mem)))
    · exact later (requested (Or.inr (Or.inl queued)))
    · exact later (requested (Or.inr (Or.inr task)))

/-- A step that leaves `state_` alone and asks for no `shutdownInLoop`. -/
theorem OrderInv.keep (inv : OrderInv s) (state : s'.conn.state = s.conn.state)
    (starting : (top s'.stack).starting = true → (top s.stack).starting = true)
    (tail : ∀ f ∈ s'.stack.tail, f.starting = false)
    (pending : ∀ t, s'.pending t = .shutdownStore → s.conn.state ≠ .kConnecting)
    (requested : Requested s' → Requested s) : OrderInv s' := by
  refine ⟨?_, tail, ?_, ?_⟩
  · intro yes
    rw [state]
    exact inv.starting (starting yes)
  · intro t here
    rw [state]
    exact pending t here
  · intro request
    rw [state]
    exact inv.requested (requested request)

theorem pending_update {t t' : Tid} {p q : Pending} (other : p ≠ q)
    (here : Function.update s.pending t p t' = q) : s.pending t' = q := by
  by_cases same : t' = t
  · subst same
    rw [Function.update_self] at here
    exact absurd here other
  · rw [Function.update_of_ne same] at here
    exact here

/-- Another thread goes on to a point at which it asks for no `shutdownInLoop`. -/
theorem OrderInv.aside (inv : OrderInv s) {t : Tid} {p : Pending}
    (quiet : p ≠ .shutdownStore ∧ p ≠ .shutdownTask) (state : s'.conn.state = s.conn.state)
    (stack : s'.stack = s.stack) (pending : s'.pending = Function.update s.pending t p)
    (queued : .shutdownInLoop ∈ s'.queued → .shutdownInLoop ∈ s.queued) : OrderInv s' := by
  refine inv.keep state (fun yes => stack ▸ yes) (stack ▸ inv.tail) ?_ ?_
  · intro t' here
    rw [pending] at here
    exact inv.pending t' (pending_update quiet.1 here)
  · intro request
    refine request.of (fun mem => stack ▸ mem) queued fun t' here => ?_
    rw [pending] at here
    exact pending_update quiet.2 here

theorem orderInv_call {rest : List Frame} (call : Call) (inv : OrderInv s)
    (topFrame : s.stack = .user :: rest) : OrderInv (s.callStep call) := by
  have below : ∀ f ∈ s.stack, f.starting = false := by
    have tail := inv.tail
    rw [topFrame] at tail ⊢
    exact List.forall_mem_cons.mpr ⟨rfl, tail⟩
  have push : ∀ {c : TcpConnection} {g : Frame}, c.state = s.conn.state → g.starting = false →
      g ≠ .shutdownInLoop → OrderInv { s with conn := c, stack := g :: s.stack } := by
    intro c g state begun other
    refine inv.keep state (fun yes => ?_) below inv.pending ?_
    · rw [show (top (g :: s.stack)).starting = false from begun] at yes
      cases yes
    · exact fun request => request.of (List.mem_of_ne_of_mem other.symm) id fun _ => id
  cases call with
  | send data | forceClose | shutdown => exact push rfl rfl (by simp)
  | setSendFd => exact inv.keep rfl id inv.tail inv.pending id

theorem orderInv_step (inv : OrderInv s) (taken : System.step cb s l = some s') : OrderInv s' := by
  cases System.move_of_step taken with
  | run answer topFrame moved => exact orderInv_run inv topFrame moved
  | call call topFrame => exact orderInv_call call inv topFrame
  | @ret rest topFrame =>
    have below : ∀ f ∈ rest, f.starting = false := by
      have tail := inv.tail
      rw [topFrame] at tail
      exact tail
    refine inv.keep rfl ?_ (fun f mem => below f (List.mem_of_mem_tail mem)) inv.pending ?_
    · intro yes
      rw [top_starting below] at yes
      cases yes
    · exact fun request => request.of (fun mem => topFrame ▸ List.mem_cons_of_mem _ mem) id
        fun _ => id
  | swapTasks idle here | endTasks idle here | poll active idle here =>
    refine inv.keep rfl id inv.tail inv.pending fun request => request.of id ?_ fun _ => id
    intro queued
    simpa [System.queued, Phase.batch, here] using queued
  | dispatchSelf idle here | dispatchOther idle here =>
    refine inv.keep rfl (by simp) (by simp) inv.pending fun request =>
      request.of (by simp) ?_ fun _ => id
    intro queued
    simpa [System.queued, Phase.batch, here] using queued
  | @startTask task rest idle here =>
    refine inv.keep rfl ?_ (by simp) inv.pending ?_
    · cases task <;> simp [Task.frame]
    · rintro (mem | queued | pending)
      · refine Or.inr (Or.inl ?_)
        have own : task = .shutdownInLoop := by
          cases task <;> simp [Task.frame] at mem
          rfl
        simp [System.queued, Phase.batch, here, own]
      · refine Or.inr (Or.inl ?_)
        simp only [System.queued, Phase.batch, here] at queued ⊢
        exact List.mem_cons_of_mem _ queued
      · exact Or.inr (Or.inr pending)
  | addTask =>
    refine inv.keep rfl id inv.tail inv.pending fun request => request.of id ?_ fun _ => id
    intro queued
    simpa [System.queued] using queued
  | acceptSend t data => exact inv.aside (p := .sendTask data) ⟨by simp, by simp⟩ rfl rfl rfl id
  | refuse => exact inv
  | checkShutdown t free connected =>
    refine inv.keep rfl id inv.tail (fun _ _ => by rw [connected]; simp) fun request =>
      request.of id id fun t' => pending_update (p := .shutdownStore) (by simp)
  | refuseShutdown => exact inv.keep rfl id inv.tail inv.pending id
  | checkForceClose t => exact inv.aside (p := .forceCloseTask) ⟨by simp, by simp⟩ rfl rfl rfl id
  | pushSend t data here =>
    refine inv.aside (p := .idle) ⟨by simp, by simp⟩ rfl rfl rfl fun queued => ?_
    simpa [System.queued, System.setPending] using queued
  | storeDisconnecting t here =>
    refine ⟨?_, inv.tail, fun _ _ => by simp [store], fun _ => Or.inl rfl⟩
    intro yes
    exact absurd (inv.starting yes) (inv.pending t here)
  | pushShutdown t here =>
    refine inv.keep rfl id inv.tail (fun t' next => inv.pending t' ?_) fun _ =>
      Or.inr (Or.inr ⟨t, here⟩)
    exact pending_update (p := .idle) (by simp) next
  | pushForceClose t here =>
    refine inv.aside (p := .idle) ⟨by simp, by simp⟩ rfl rfl rfl fun queued => ?_
    simpa [System.queued, System.setPending] using queued

/-! ## Behind the end of the stream -/

/-- No frame or thread is left that could send, and none can be promised anything. -/
structure Silenced (s : System) : Prop where
  late : Late s.conn.state
  waiting : ∀ caller, s.waiting caller = []
  notWriting : s.conn.isWriting = false
  settled : ∀ f ∈ s.stack, f.Settled
  begun : ∀ f ∈ s.stack, f.starting = false

/-- A settled frame of a connection that is not write-enabled leaves it so, and calm frames. Only
`sendInLoop` looks at the file without looking at the channel. -/
theorem FrameMove.silenced {result : List Frame × TcpConnection}
    (moved : FrameMove cb c f answer result) (settled : f.Settled) (late : Late c.state)
    (notWriting : c.isWriting = false)
    (noFile : ∀ data n, f = .sendInLoop data (.rest n) → c.stSize = 0) :
    result.2.isWriting = false ∧ ∀ g ∈ result.1, g.calm = true := by
  by_cases neutral : f.neutral = true
  · have step := moved.neutral neutral
    exact ⟨step.isWriting.trans notWriting, step.calm⟩
  cases moved with
  | handleClose pc =>
    cases pc with
    | notify =>
      simp only [handleCloseStep]
      split <;> exact ⟨isWriting_disableAll c, by simp⟩
    | assertConnected | assertDisconnecting | store | close => exact absurd rfl neutral
  | send data =>
    rw [sendStep, if_neg (late_ne late).2]
    exact ⟨notWriting, by simp⟩
  | sendInLoop data pc answer r =>
    cases pc with
    | check caller =>
      have none := settled.entering caller
      simp at none
    | write => exact absurd settled.issues (by simp)
    | rest n =>
      have written : data.length ≤ n := List.drop_eq_nil_iff.mp settled.rest
      simp only [sendInLoopStep, noFile data n rfl, ne_eq, not_true_eq_false, or_false,
        if_neg (Nat.not_lt.mpr written)]
      exact ⟨notWriting, by simp⟩
  | handleWrite pc answer r =>
    cases pc with
    | test =>
      simp only [handleWriteStep, notWriting, Bool.false_eq_true, if_false]
      exact ⟨trivial, by simp⟩
    | write | sendfile => exact absurd settled.issues (by simp)
    | drained | sent =>
      simp only [handleWriteStep]
      split <;> exact ⟨notWriting, by simp⟩
    | complete =>
      simp only [handleWriteStep]
      split <;> exact ⟨notWriting, by simp⟩
    | closeFd => exact ⟨notWriting, by simp [handleWriteStep]⟩
  | shutdownInLoop =>
    refine ⟨?_, by simp⟩
    unfold shutdownInLoopStep
    split <;> exact notWriting
  | _ => exact absurd rfl neutral

/-! ## Runs -/

/-- The invariant of runs that end the stream drained. -/
structure ShutdownInv (s : System) : Prop where
  output : Output s.conn s.stack s.waiting
  order : OrderInv s
  silenced : Ended s.conn.trace → Silenced s
  graceful : GracefulShutdown s.conn.trace

theorem shutdownInv_start : ShutdownInv .start := by
  have noEnd : ∀ pre post, ([] : List Event) ≠ pre ++ .shutdownWr :: post := by simp
  refine ⟨output_start, orderInv_start, ?_, ?_⟩
  · rintro ⟨pre, post, eq, -⟩
    exact absurd eq (noEnd pre post)
  · exact fun pre post eq => absurd eq (noEnd pre post)

/-- The step that ends the stream. -/
theorem drained_of_waiting (out : Output s.conn s.stack s.waiting) (opened : Open s.conn.trace)
    (idle : (top s.stack).Settled) (notWriting : s.conn.isWriting = false)
    (waiting : ∀ caller, s.waiting caller = []) : Drained s.conn.trace := by
  have all : ∀ caller, acceptedBy caller s.conn.trace = executedBy caller s.conn.trace := by
    intro caller
    have accepted := out.accepted opened caller
    rw [idle.entering, waiting, List.append_nil, List.append_nil] at accepted
    exact accepted
  have empty : s.conn.outBuffer = [] := by
    by_contra nonempty
    rw [out.buffered opened nonempty] at notWriting
    cases notWriting
  refine ⟨fun early late _ eq caller => ?_, ?_⟩
  · rw [← all, eq, acceptedBy_append]
    exact List.prefix_append _ _
  · have stream := out.stream opened
    rw [idle.rest, empty, List.append_nil, List.append_nil] at stream
    exact stream

/-- The executing frame goes on behind the end of the stream. -/
theorem Silenced.run {rest : List Frame} {result : List Frame × TcpConnection}
    (silenced : Silenced s) (topFrame : s.stack = f :: rest)
    (moved : FrameMove cb s.conn f answer result)
    (noFile : ∀ data n, f = .sendInLoop data (.rest n) → s.conn.stSize = 0) :
    Silenced { s with conn := result.2, stack := result.1 ++ rest } := by
  obtain ⟨late, waiting, notWriting, settled, begun⟩ := silenced
  rw [topFrame] at settled begun
  obtain ⟨topSettled, settledBelow⟩ := List.forall_mem_cons.mp settled
  obtain ⟨fresh, begunBelow⟩ := List.forall_mem_cons.mp begun
  obtain ⟨stillNot, calm⟩ := moved.silenced topSettled late notWriting noFile
  refine ⟨moved.late fresh late, waiting, stillNot, ?_, ?_⟩
  · intro g mem
    rcases List.mem_append.mp mem with mem | mem
    · exact Frame.settled_of_calm (calm g mem)
    · exact settledBelow g mem
  · intro g mem
    rcases List.mem_append.mp mem with mem | mem
    · by_contra yes
      rw [Bool.not_eq_false] at yes
      obtain ⟨rfl, -, -⟩ := moved.controlled.starting g mem yes
      cases fresh
    · exact begunBelow g mem

/-- `shutdownInLoop` ends the stream only when nothing is buffered and nothing on its way. -/
theorem shutdown_end {rest : List Frame} (inv : ShutdownInv s)
    (topFrame : s.stack = .shutdownInLoop :: rest)
    (drained : s.conn.isWriting = false → Open s.conn.trace → ∀ caller, s.waiting caller = []) :
    (Ended (shutdownInLoopStep s.conn).trace →
      Silenced { s with conn := shutdownInLoopStep s.conn, stack := rest }) ∧
      GracefulShutdown (shutdownInLoopStep s.conn).trace := by
  have late : Late s.conn.state := inv.order.requested (Or.inl (topFrame ▸ List.mem_cons_self))
  have settledBelow : ∀ g ∈ rest, g.Settled := by
    have settled := inv.output.settled
    rw [topFrame] at settled
    exact settled
  have begunBelow : ∀ g ∈ rest, g.starting = false := by
    have tail := inv.order.tail
    rw [topFrame] at tail
    exact tail
  unfold shutdownInLoopStep
  by_cases writing : s.conn.isWriting = true
  · rw [if_pos writing]
    refine ⟨fun ended => ?_, inv.graceful⟩
    rw [(inv.silenced ended).notWriting] at writing
    cases writing
  · rw [if_neg writing]
    rw [Bool.not_eq_true] at writing
    have idle : (top s.stack).Settled := topFrame ▸ Frame.settled_of_calm rfl
    refine ⟨fun ended => ?_, ?_⟩
    · have waiting : ∀ caller, s.waiting caller = [] := by
        rcases ended_concat ended with before | ⟨-, opened⟩
        · exact (inv.silenced before).waiting
        · exact drained writing opened
      exact ⟨late, waiting, writing, settledBelow, begunBelow⟩
    · refine gracefulShutdown_concat inv.graceful (fun _ => rfl) fun _ opened => ?_
      exact drained_of_waiting inv.output opened idle writing (drained writing opened)

theorem shutdown_run {rest : List Frame} {result : List Frame × TcpConnection}
    (inv : ShutdownInv s) (topFrame : s.stack = f :: rest)
    (moved : FrameMove cb s.conn f answer result)
    (drained : f = .shutdownInLoop → s.conn.isWriting = false → Open s.conn.trace →
      ∀ caller, s.waiting caller = [])
    (noFile : ∀ data n, f = .sendInLoop data (.rest n) → Ended s.conn.trace → s.conn.stSize = 0) :
    (Ended result.2.trace →
      Silenced { s with conn := result.2, stack := result.1 ++ rest }) ∧
      GracefulShutdown result.2.trace := by
  by_cases last : f = .shutdownInLoop
  · subst last
    cases moved with
    | shutdownInLoop => exact shutdown_end inv topFrame (drained rfl)
  · obtain ⟨es, trace, goesOn, quiet⟩ := moved.adds last
    have silent : Ended s.conn.trace → ∀ e ∈ es, sends e = false := by
      intro ended
      have settled := (inv.silenced ended).settled f (topFrame ▸ List.mem_cons_self)
      exact quiet settled.issues
    obtain ⟨graceful, back⟩ := gracefulShutdown_append inv.graceful goesOn silent
    rw [trace]
    refine ⟨fun ended => ?_, graceful⟩
    exact (inv.silenced (back ended)).run topFrame moved fun data n last =>
      noFile data n last (back ended)

/-- A step beside the executing frame. -/
theorem shutdown_beside (inv : ShutdownInv s) (es : List Event)
    (trace : s'.conn.trace = s.conn.trace ++ es) (goesOn : ∀ e ∈ es, e ≠ .shutdownWr)
    (silent : ∀ e ∈ es, sends e = false) (silenced : Silenced s → Silenced s') :
    (Ended s'.conn.trace → Silenced s') ∧ GracefulShutdown s'.conn.trace := by
  obtain ⟨graceful, back⟩ := gracefulShutdown_append inv.graceful goesOn fun _ => silent
  rw [trace]
  exact ⟨fun ended => silenced (inv.silenced (back ended)), graceful⟩

/-- What is settled and not promised stays so beside the executing frame. -/
theorem Silenced.keep (silenced : Silenced s) (moved : System.Move cb s l s')
    (beside : ∀ answer, l ≠ .run answer)
    (late : Late s'.conn.state) (notWriting : s'.conn.isWriting = s.conn.isWriting)
    (settled : ∀ f ∈ s'.stack, f.Settled) (begun : ∀ f ∈ s'.stack, f.starting = false) :
    Silenced s' := by
  have notConnected := (late_ne silenced.late).2
  refine ⟨late, fun caller => ?_, notWriting.trans silenced.notWriting, settled, begun⟩
  have kept := waiting_step moved (fun f mem => silenced.settled f (List.mem_of_mem_tail mem))
    beside (fun _ _ _ => notConnected) caller
  have before := top_settled silenced.settled
  have after := top_settled settled
  rw [before.entering, after.entering, silenced.waiting] at kept
  exact kept

theorem shutdownInv_step (inv : ShutdownInv s) (good : EndsDrained s l)
    (taken : System.step cb s l = some s') : ShutdownInv s' := by
  suffices both : (Ended s'.conn.trace → Silenced s') ∧ GracefulShutdown s'.conn.trace from
    ⟨output_step inv.output taken, orderInv_step inv.order taken, both.1, both.2⟩
  have keep := fun (silenced : Silenced s) => silenced.keep (System.move_of_step taken)
  cases System.turn_of_step taken with
  | run answer topFrame moved =>
    obtain ⟨drained, noFile⟩ := good answer rfl
    rw [topFrame] at drained noFile
    exact shutdown_run inv topFrame moved drained noFile
  | call call topFrame =>
    cases call with
    | send data | forceClose =>
      refine shutdown_beside inv [] (List.append_nil _).symm (by simp) (by simp) fun silenced => ?_
      exact keep silenced (by simp) silenced.late rfl
        (List.forall_mem_cons.mpr ⟨Frame.settled_of_calm rfl, silenced.settled⟩)
        (List.forall_mem_cons.mpr ⟨rfl, silenced.begun⟩)
    | shutdown =>
      refine shutdown_beside inv [.shutdownCalled .loop] rfl (by simp) (by simp)
        fun silenced => ?_
      exact keep silenced (by simp) silenced.late rfl
        (List.forall_mem_cons.mpr ⟨Frame.settled_of_calm rfl, silenced.settled⟩)
        (List.forall_mem_cons.mpr ⟨rfl, silenced.begun⟩)
    | setSendFd fd file =>
      -- A file may be attached behind the end; only a `sendInLoop` that goes on would look at it.
      refine shutdown_beside inv [.setSendFd fd file] rfl (by simp) (by simp) fun silenced => ?_
      exact keep silenced (by simp) silenced.late rfl silenced.settled silenced.begun
  | ret topFrame =>
    refine shutdown_beside inv [] (List.append_nil _).symm (by simp) (by simp) fun silenced => ?_
    have settled := silenced.settled
    have begun := silenced.begun
    rw [topFrame] at settled begun
    exact keep silenced (by simp) silenced.late rfl (List.forall_mem_cons.mp settled).2
      (List.forall_mem_cons.mp begun).2
  | outside beside out =>
    cases out with
    | begin f idle first stack conn =>
      refine shutdown_beside inv [] (by rw [conn, List.append_nil]) (by simp) (by simp)
        fun silenced => ?_
      have calm := calm_of_begins (System.move_of_step taken) silenced.waiting beside
        (fun _ _ _ => (late_ne silenced.late).2) idle stack first
      refine keep silenced beside (conn ▸ silenced.late) (by rw [conn]) ?_ ?_
      · exact stack ▸ List.forall_mem_singleton.mpr (Frame.settled_of_calm calm)
      · exact stack ▸ List.forall_mem_singleton.mpr (System.starting_of_begins first)
    | event e other stack conn =>
      have quiet : e ≠ .shutdownWr ∧ sends e = false := by
        cases e with
        | write | sendfile | shutdownWr => cases other
        | _ => exact ⟨by simp, rfl⟩
      refine shutdown_beside inv [e] (by rw [conn]; rfl) (List.forall_mem_singleton.mpr quiet.1)
        (List.forall_mem_singleton.mpr quiet.2) fun silenced => ?_
      exact keep silenced beside (conn ▸ silenced.late) (by rw [conn]; rfl)
        (stack ▸ silenced.settled) (stack ▸ silenced.begun)
    | store stack conn =>
      refine shutdown_beside inv [.store .kDisconnecting] (by rw [conn]; rfl) (by simp) (by simp)
        fun silenced => ?_
      exact keep silenced beside (by rw [conn]; exact Or.inl rfl) (by rw [conn]; rfl)
        (stack ▸ silenced.settled) (stack ▸ silenced.begun)
    | silent stack conn =>
      refine shutdown_beside inv [] (by rw [conn, List.append_nil]) (by simp) (by simp)
        fun silenced => ?_
      exact keep silenced beside (conn ▸ silenced.late) (by rw [conn]) (stack ▸ silenced.settled)
        (stack ▸ silenced.begun)

theorem shutdownInv_reachable (reached : Reaches (System.step cb) EndsDrained .start s) :
    ShutdownInv s :=
  reached.invariant shutdownInv_start fun _ _ _ _ inv good taken => shutdownInv_step inv good taken

/-- When no accepted message is on its way at the end of the stream and no `sendInLoop` goes on
behind it with a file, everything accepted has been written before the end and nothing is sent
behind it. -/
theorem gracefulShutdown_of_endsDrained
    (reached : Reaches (System.step cb) EndsDrained .start s) :
    GracefulShutdown s.conn.trace :=
  (shutdownInv_reachable reached).graceful

/-- A message written directly while a file is attached, then `shutdown` from the same callback:
the end of the stream waits for the file. -/
theorem gracefulShutdown_after_file :
    ∃ s : System, [.sendfile [9] (some 1), .shutdownWr] <:+ s.conn.trace ∧
      GracefulShutdown s.conn.trace := by
  let BeforeEnd (s : System) (l : Label) : Prop :=
    Event.shutdownWr ∉ s.conn.trace ∧ (top s.stack = .shutdownInLoop → s.conn.isWriting = true)
  let atEnd : System :=
    { conn := { create with
        state := .kDisconnecting
        events := EPOLLIN ||| EPOLLPRI
        sendFd := 5
        trace := [.store .kConnected, .notifyConnected, .setSendFd 5 [9], .accepted .loop [1],
          .executed .loop [1], .write [1] (some 1), .writeCompleteCallback, .returned .loop [1],
          .shutdownCalled .loop, .store .kDisconnecting, .sendfile [9] (some 1)] }
      stack := [.shutdownInLoop, .handleWrite .closeFd]
      phase := .dispatch []
      tasks := []
      pending := fun _ => .idle }
  have before : Reaches (System.step allCallbacks) BeforeEnd .start atEnd :=
    reaches_of_exec_guarded
      [.run .silent, .run .silent, .run .silent, .call (.setSendFd 5 [9] 1), .call (.send [1]),
        .run .silent, .run .silent, .run (.count (some 1)), .ret, .run .silent, .run .silent,
        .call .shutdown, .run .silent, .run .silent, .run .silent, .ret, .ret, .next,
        .poll [some EPOLLOUT], .next, .run .silent, .run .silent, .run .silent, .run .silent,
        .run .silent, .run (.count (some 1)), .run .silent] rfl
  have good : Reaches (System.step allCallbacks) EndsDrained .start atEnd := by
    refine before.mono fun s l ok answer _ => ⟨fun last notWriting => ?_, fun _ _ _ ended => ?_⟩
    · rw [ok.2 last] at notWriting
      cases notWriting
    · obtain ⟨pre, post, eq, -⟩ := ended
      exact absurd (eq ▸ List.mem_append_right pre List.mem_cons_self) ok.1
  have none : ∀ caller, atEnd.waiting caller = [] := fun caller => by cases caller <;> rfl
  have ended := good.tail (Label.run .silent)
    (fun _ _ => ⟨fun _ _ _ => none, fun _ _ last => by cases last⟩) rfl
  exact ⟨_, by decide, gracefulShutdown_of_endsDrained ended⟩

/-- A message of another thread waits in the task queue when a callback calls `shutdown`: the end
of the stream overtakes it, and its `::write` behind the end fails. And a completion callback that
runs inside `sendInLoop` calls `shutdown` while a file is attached: `sendInLoop` enables writing
again, and the `::sendfile` behind the end fails. -/
theorem shutdown_overtakes_message :
    (∃ s, Reaches (System.step allCallbacks) anyStep .start s ∧
      s.conn.trace = [.store .kConnected, .notifyConnected, .accepted (.other 1) [7],
        .returned (.other 1) [7], .shutdownCalled .loop, .store .kDisconnecting, .shutdownWr,
        .executed (.other 1) [7], .write [7] none] ∧ ¬GracefulShutdown s.conn.trace) ∧
    ∃ s, Reaches (System.step allCallbacks) anyStep .start s ∧
      s.conn.trace = [.store .kConnected, .notifyConnected, .setSendFd 5 [9], .accepted .loop [1],
        .executed .loop [1], .write [1] (some 1), .writeCompleteCallback, .shutdownCalled .loop,
        .store .kDisconnecting, .shutdownWr, .returned .loop [1], .sendfile [9] none] ∧
      ¬GracefulShutdown s.conn.trace := by
  constructor
  · obtain ⟨s, reached, trace⟩ : ∃ s, Reaches (System.step allCallbacks) anyStep .start s ∧
        s.conn.trace = [.store .kConnected, .notifyConnected, .accepted (.other 1) [7],
          .returned (.other 1) [7], .shutdownCalled .loop, .store .kDisconnecting, .shutdownWr,
          .executed (.other 1) [7], .write [7] none] :=
      exists_reaches_of_exec
        [.run .silent, .run .silent, .run .silent, .other 1 (.send [7]), .resume 1, .call .shutdown,
          .run .silent, .run .silent, .run .silent, .ret, .ret, .next, .poll [], .next, .next,
          .run .silent, .run (.count none)]
        (by decide)
    refine ⟨s, reached, trace, fun graceful => ?_⟩
    obtain ⟨⟨accepted, -⟩, -⟩ := graceful (s.conn.trace.take 6) (s.conn.trace.drop 7)
      (by rw [trace]; rfl) (by rw [trace]; decide)
    have missing := accepted (s.conn.trace.take 4) (s.conn.trace.drop 5 |>.take 1) .loop
      (by rw [trace]; rfl) (.other 1)
    rw [trace] at missing
    simp at missing
  · obtain ⟨s, reached, trace⟩ : ∃ s, Reaches (System.step allCallbacks) anyStep .start s ∧
        s.conn.trace = [.store .kConnected, .notifyConnected, .setSendFd 5 [9],
          .accepted .loop [1], .executed .loop [1], .write [1] (some 1), .writeCompleteCallback,
          .shutdownCalled .loop, .store .kDisconnecting, .shutdownWr, .returned .loop [1],
          .sendfile [9] none] :=
      exists_reaches_of_exec
        [.run .silent, .run .silent, .run .silent, .call (.setSendFd 5 [9] 1), .call (.send [1]),
          .run .silent, .run .silent, .run (.count (some 1)), .call .shutdown, .run .silent,
          .run .silent, .run .silent, .ret, .run .silent, .run .silent, .ret, .ret, .next,
          .poll [some EPOLLOUT], .next, .run .silent, .run .silent, .run .silent, .run .silent,
          .run .silent, .run (.count none)]
        (by decide)
    refine ⟨s, reached, trace, fun graceful => ?_⟩
    obtain ⟨-, quiet⟩ := graceful (s.conn.trace.take 9) (s.conn.trace.drop 10)
      (by rw [trace]; rfl) (by rw [trace]; decide)
    have sent := quiet (.sendfile [9] none) (by rw [trace]; decide)
    cases sent

end Yvent.TcpConnection
