import Mathlib.Data.Int.CardIntervalMod
import Yvent.Endpoint.Kept

/-!
# One loop per connection

A connection belongs to the loop that `getNextEventLoop` has given it. All of its functions but its
creation and its erasure run in the thread of that loop, and these two run in the loop of the server:
no assertion that a function is in its loop thread fails. Other threads only queue tasks.
-/

namespace Yvent.Endpoint

open TcpConnection (HandleEventsPc)

variable {cb : Callbacks} {kind : System.Kind} {s s' t : System} {l : Label} {L : LoopId} {f : Frame}
  {frames rest : List Frame} {answer : Answer} {c : ConnId} {loop : Loop}

namespace System

/-- The loop whose thread has to run the frame. Code outside of the connections runs in any. -/
def home (s : System) : Frame → Option LoopId
  | .other => none
  | .newConnection _ _ | .clientNewConnection _ | .member _ | .handleCloseInLoop _ | .clientSend =>
    some 0
  | .user c | .enableRead c _ | .handleEvents c _ _ | .handleRead c _ | .handleWrite c _
  | .handleClose c _ | .closeCallback c | .sendInLoop c _ | .shutdownInLoop c
  | .forceCloseInLoop c _ => some (s.conns c).loop

/-- The frame is in its loop thread when loop `L` runs it. -/
def InLoopThread (s : System) (L : LoopId) (f : Frame) : Prop := ∀ home ∈ s.home f, home = L

/-- Everything that a loop executes or has to execute is in its loop thread. -/
structure Confined (s : System) : Prop where
  frames : ∀ L, ∀ f ∈ (s.loops L).stack, s.InLoopThread L f
  tasks : ∀ L, ∀ task ∈ (s.loops L).allTasks, s.InLoopThread L task.frame
  active : ∀ L c revents, some (c, revents) ∈ (s.loops L).phase.active → (s.conns c).loop = L
  client : s.holder.isServer = false → ∀ c ∈ s.holder.conns, (s.conns c).loop = 0

/-- No connection changes its loop. -/
def SameLoops (s s' : System) : Prop := ∀ c < s.nextConnId, (s'.conns c).loop = (s.conns c).loop

/-- No connection is given a loop. -/
structure SamePool (s s' : System) : Prop where
  loops : ∀ c, (s'.conns c).loop = (s.conns c).loop
  ioLoops : s'.ioLoops = s.ioLoops
  nextEventLoop : s'.nextEventLoop = s.nextEventLoop
  nextConnId : s'.nextConnId = s.nextConnId

end System

/-- What the frame is about exists. -/
theorem System.FrameOk.home_eq (ok : s.FrameOk f) (bound : ∀ c, s.Begun c → c < s.nextConnId)
    (same : System.SameLoops s s') : s'.home f = s.home f := by
  have begun : ∀ c, s.Begun c → some (s'.conns c).loop = some (s.conns c).loop :=
    fun c far => congrArg some (same c (bound c far))
  cases f with
  | other | newConnection | clientNewConnection | member | handleCloseInLoop | clientSend => rfl
  | enableRead c pc =>
    cases pc with
    | start => exact congrArg some (same c ok)
    | done => exact begun c ok
  | handleClose c pc =>
    cases pc with
    | store => exact begun c ok
    | notify | notified | close | closed => exact begun c (System.Closed.begun ok)
  | closeCallback c => exact begun c (System.Closed.begun ok)
  | user c | handleEvents c | handleRead c | handleWrite c | sendInLoop c | shutdownInLoop c
  | forceCloseInLoop c => exact begun c ok

/-! ## Frames -/

/-- A step of a frame of loop `L` calls and queues only what is in its loop thread. -/
structure ThreadEffect (s : System) (L : LoopId) (frames : List Frame) (t : System) : Prop where
  pool : System.SamePool s t
  isServer : t.holder.isServer = s.holder.isServer
  frames : ∀ g ∈ frames, s.InLoopThread L g
  stack : ∀ L', (t.loops L').stack = (s.loops L').stack
  phase : ∀ L', (t.loops L').phase = (s.loops L').phase
  tasks : ∀ L', ∀ task ∈ (t.loops L').tasks,
    task ∈ (s.loops L').tasks ∨ s.InLoopThread L' task.frame
  holder : t.holder.isServer = false → ∀ c ∈ t.holder.conns, c ∈ s.holder.conns

theorem threadEffect_call (calls : ∀ g ∈ frames, s.InLoopThread L g) :
    ThreadEffect s L frames s where
  pool := ⟨fun _ => rfl, rfl, rfl, rfl⟩
  isServer := rfl
  frames := calls
  stack _ := rfl
  phase _ := rfl
  tasks _ _ := Or.inl
  holder _ _ := id

theorem samePool_setConn {conn : Conn} (same : conn.loop = (s.conns c).loop) :
    System.SamePool s (s.setConn c conn) := by
  refine ⟨fun d => ?_, rfl, rfl, rfl⟩
  by_cases own : d = c
  · subst own
    simpa [System.setConn] using same
  · simp [System.setConn, own]

theorem threadEffect_setConn {conn : Conn} (calls : ∀ g ∈ frames, s.InLoopThread L g)
    (same : conn.loop = (s.conns c).loop) : ThreadEffect s L frames (s.setConn c conn) where
  pool := samePool_setConn same
  isServer := rfl
  frames := calls
  stack _ := rfl
  phase _ := rfl
  tasks _ _ := Or.inl
  holder _ _ := id

theorem threadEffect_push {task : Task} {L₁ : LoopId} (calls : ∀ g ∈ frames, s.InLoopThread L g)
    (there : s.InLoopThread L₁ task.frame) : ThreadEffect s L frames (s.push L₁ task) where
  pool := ⟨fun _ => rfl, rfl, rfl, rfl⟩
  isServer := rfl
  frames := calls
  stack L' := by
    by_cases own : L' = L₁
    · subst own
      simp [System.push, System.setLoop]
    · simp [System.push, System.setLoop, own]
  phase L' := by
    by_cases own : L' = L₁
    · subst own
      simp [System.push, System.setLoop]
    · simp [System.push, System.setLoop, own]
  tasks L' task' mem := by
    by_cases own : L' = L₁
    · subst own
      rw [System.push, System.setLoop] at mem
      simp only [Function.update_self, List.mem_append, List.mem_singleton] at mem
      exact mem.imp id fun same => by rwa [same]
    · exact Or.inl (by simpa [System.push, System.setLoop, own] using mem)
  holder _ _ := id

theorem threadEffect_holder {holder : Holder} (calls : ∀ g ∈ frames, s.InLoopThread L g)
    (server : holder.isServer = s.holder.isServer)
    (fewer : holder.isServer = false → ∀ c ∈ holder.conns, c ∈ s.holder.conns) :
    ThreadEffect s L frames { s with holder } where
  pool := ⟨fun _ => rfl, rfl, rfl, rfl⟩
  isServer := server
  frames := calls
  stack _ := rfl
  phase _ := rfl
  tasks _ _ := Or.inl
  holder := fewer

theorem Holder.isServer_insert (holder : Holder) : (holder.insert c).isServer = holder.isServer := by
  cases holder <;> rfl

theorem Holder.isServer_erase (holder : Holder) : (holder.erase c).isServer = holder.isServer := by
  cases holder <;> rfl

theorem Holder.conns_of_client {holder : Holder} (client : holder.isServer = false) :
    (holder.insert c).conns = holder.conns ∧ (holder.erase c).conns = holder.conns := by
  cases holder with
  | server => cases client
  | client => exact ⟨rfl, rfl⟩

/-- Functions of one connection call each other in its loop. -/
theorem inLoopThread_of_home {g : Frame} (here : s.InLoopThread L f) (same : s.home g = s.home f) :
    s.InLoopThread L g := by
  intro home mem
  exact here home (same ▸ mem)

/-- The frame calls functions of its own loop. -/
theorem threadEffect_of_home (here : s.InLoopThread L f) (homes : ∀ g ∈ frames, s.home g = s.home f) :
    ThreadEffect s L frames s :=
  threadEffect_call fun g mem => inLoopThread_of_home here (homes g mem)

theorem inLoopThread_base (base : s.home f = some 0) : s.InLoopThread 0 f := by
  intro home mem
  rw [base] at mem
  exact (Option.some.inj mem).symm

theorem inLoopThread_anywhere (anywhere : s.home f = none) : s.InLoopThread L f := by
  intro home mem
  rw [anywhere] at mem
  cases mem

theorem newConnectionStep_threads (pc : NewConnectionPc)
    (here : s.InLoopThread L (.newConnection c pc)) :
    ThreadEffect s L (newConnectionStep s c pc).1 (newConnectionStep s c pc).2 := by
  have base : L = 0 := (here 0 rfl).symm
  subst base
  have rest : s.InLoopThread 0 (.newConnection c .insert) := here
  cases pc with
  | enable =>
    simp only [newConnectionStep]
    split
    · next own =>
      refine threadEffect_call ?_
      simp only [List.mem_cons, List.not_mem_nil, or_false, forall_eq_or_imp, forall_eq]
      exact ⟨by simp [System.InLoopThread, System.home, own], rest⟩
    · refine threadEffect_push (by simpa using rest) ?_
      simp [System.InLoopThread, System.home, Task.frame]
  | insert =>
    refine threadEffect_holder (by simp [newConnectionStep]) (Holder.isServer_insert _) fun client d mem => ?_
    rw [Holder.isServer_insert] at client
    rwa [(Holder.conns_of_client client).1] at mem

theorem clientNewConnectionStep_threads (here : s.InLoopThread L (.clientNewConnection c)) :
    ThreadEffect s L (clientNewConnectionStep cb s c).1 (clientNewConnectionStep cb s c).2 := by
  simp only [clientNewConnectionStep]
  refine threadEffect_setConn ?_ rfl
  split
  · simpa using inLoopThread_of_home (g := .member c) here rfl
  · simp

theorem enableReadStep_threads (pc : EnableReadPc) (here : s.InLoopThread L (.enableRead c pc)) :
    ThreadEffect s L (enableReadStep cb s c pc).1 (enableReadStep cb s c pc).2 := by
  cases pc with
  | start =>
    simp only [enableReadStep]
    refine threadEffect_setConn (fun g mem => inLoopThread_of_home here ?_) rfl
    split at mem
    · rcases List.mem_pair.mp mem with rfl | rfl <;> rfl
    · rw [List.mem_singleton.mp mem]
      rfl
  | done => exact threadEffect_call (by simp [enableReadStep])

theorem handleEventsStep_home (revents : BitVec 32) (pc : HandleEventsPc) :
    ∀ g ∈ handleEventsStep c revents pc, s.home g = s.home (.handleEvents c revents pc) := by
  cases pc with
  | error => simp [handleEventsStep, System.home]
  | close | read | write =>
    simp only [handleEventsStep]
    split <;> simp [System.home]

theorem handleReadStep_home (result : Option Bytes) :
    ∀ g ∈ handleReadStep cb c result, s.home g = s.home (.handleRead c .start) := by
  rcases result with _ | _ | _ <;> simp only [handleReadStep]
  · simp
  · simp [System.home]
  · split <;> simp [System.home]

theorem handleWriteStep_home (all : Bool) :
    ∀ g ∈ handleWriteStep cb c all, s.home g = s.home (.handleWrite c .start) := by
  simp only [handleWriteStep]
  split <;> simp [System.home]

theorem sendInLoopStep_home (all : Bool) :
    ∀ g ∈ sendInLoopStep cb s c all, s.home g = s.home (.sendInLoop c .start) := by
  simp only [sendInLoopStep]
  split
  · simp
  · split <;> simp [System.home]

theorem forceCloseInLoopStep_home (pc : CallingPc) :
    ∀ g ∈ forceCloseInLoopStep s c pc, s.home g = s.home (.forceCloseInLoop c pc) := by
  cases pc with
  | start =>
    simp only [forceCloseInLoopStep]
    split <;> simp [System.home]
  | called => simp [forceCloseInLoopStep]

theorem handleCloseStep_threads (pc : HandleClosePc) (here : s.InLoopThread L (.handleClose c pc)) :
    ThreadEffect s L (handleCloseStep cb s c pc).1 (handleCloseStep cb s c pc).2 := by
  cases pc with
  | store =>
    refine threadEffect_setConn (fun g mem => inLoopThread_of_home here ?_) rfl
    rw [List.mem_singleton.mp mem]
    rfl
  | notify =>
    simp only [handleCloseStep]
    split <;> exact threadEffect_of_home here (by simp [System.home])
  | notified | close | closed => exact threadEffect_of_home here (by simp [System.home, handleCloseStep])

theorem closeCallbackStep_threads (here : s.InLoopThread L (.closeCallback c)) :
    ThreadEffect s L (closeCallbackStep cb s L c).1 (closeCallbackStep cb s L c).2 := by
  simp only [closeCallbackStep]
  split
  · split
    · next base => exact threadEffect_call (by simp [System.InLoopThread, System.home, base])
    · exact threadEffect_push (by simp) (by simp [System.InLoopThread, System.home, Task.frame])
  · next client =>
    refine threadEffect_holder (fun g mem => inLoopThread_of_home here ?_) ?_ fun _ d mem => ?_
    · split at mem
      · rw [List.mem_singleton.mp mem]
        rfl
      · cases mem
    · cases s.holder <;> rfl
    · cases holder : s.holder with
      | server => simp [holder, Holder.isServer] at client
      | client => simp [holder, Holder.reset, Holder.conns] at mem

theorem handleCloseInLoopStep_threads :
    ThreadEffect s L (handleCloseInLoopStep s c).1 (handleCloseInLoopStep s c).2 := by
  refine threadEffect_holder (by simp [handleCloseInLoopStep]) (Holder.isServer_erase _)
    fun client d mem => ?_
  rw [Holder.isServer_erase] at client
  rwa [(Holder.conns_of_client client).2] at mem

theorem clientSendStep_threads (here : s.InLoopThread L .clientSend)
    (client : s.holder.isServer = false → ∀ c ∈ s.holder.conns, (s.conns c).loop = 0)
    (sent : clientSendStep s = some frames) : ThreadEffect s L frames s := by
  have base : 0 = L := here 0 rfl
  simp only [clientSendStep] at sent
  split at sent
  · next c holder =>
    obtain rfl := Option.some.inj sent
    have own : (s.conns c).loop = 0 := by
      rw [holder] at client
      exact client rfl c (by simp [Holder.conns])
    refine threadEffect_call fun g mem => ?_
    split at mem
    · rw [List.mem_singleton.mp mem]
      simp [System.InLoopThread, System.home, own, base]
    · cases mem
  · cases sent

theorem threadEffect_of_frameStep {result : List Frame × System} (here : s.InLoopThread L f)
    (client : s.holder.isServer = false → ∀ c ∈ s.holder.conns, (s.conns c).loop = 0)
    (taken : frameStep cb s L f answer = some result) :
    ThreadEffect s L result.1 result.2 := by
  unfold frameStep at taken
  split at taken
  · obtain rfl := Option.some.inj taken
    exact newConnectionStep_threads _ here
  · obtain rfl := Option.some.inj taken
    exact clientNewConnectionStep_threads here
  · obtain rfl := Option.some.inj taken
    exact enableReadStep_threads _ here
  · obtain rfl := Option.some.inj taken
    exact threadEffect_of_home here (handleEventsStep_home _ _)
  · obtain rfl := Option.some.inj taken
    exact threadEffect_of_home here (handleReadStep_home _)
  · obtain rfl := Option.some.inj taken
    exact threadEffect_of_home here (handleWriteStep_home _)
  · obtain rfl := Option.some.inj taken
    exact threadEffect_of_home here (sendInLoopStep_home _)
  · obtain rfl := Option.some.inj taken
    exact threadEffect_call (by simp)
  · obtain rfl := Option.some.inj taken
    exact threadEffect_call (by simp)
  · obtain rfl := Option.some.inj taken
    exact threadEffect_call (by simp)
  · obtain rfl := Option.some.inj taken
    exact handleCloseStep_threads _ here
  · obtain rfl := Option.some.inj taken
    exact closeCallbackStep_threads here
  · obtain rfl := Option.some.inj taken
    exact handleCloseInLoopStep_threads
  · obtain rfl := Option.some.inj taken
    exact threadEffect_call (by simp)
  · obtain rfl := Option.some.inj taken
    exact threadEffect_of_home here (forceCloseInLoopStep_home _)
  · obtain ⟨frames, sent, rfl⟩ := Option.map_eq_some_iff.mp taken
    exact clientSendStep_threads here client sent
  · cases taken

/-! ## Steps -/

theorem System.home_congr (loops : ∀ c, (s'.conns c).loop = (s.conns c).loop) (f : Frame) :
    s'.home f = s.home f := by
  cases f <;> simp [System.home, loops]

theorem System.inLoopThread_congr (loops : ∀ c, (s'.conns c).loop = (s.conns c).loop) :
    s'.InLoopThread L f ↔ s.InLoopThread L f := by
  rw [System.InLoopThread, System.InLoopThread, System.home_congr loops]

namespace System.Confined

variable (inv : s.Confined)

include inv

theorem congr (same : s'.loops = s.loops) (loops : ∀ c, (s'.conns c).loop = (s.conns c).loop)
    (holder : s'.holder = s.holder) : s'.Confined where
  frames L f mem := (System.inLoopThread_congr loops).mpr (inv.frames L f (same ▸ mem))
  tasks L task mem := (System.inLoopThread_congr loops).mpr (inv.tasks L task (same ▸ mem))
  active L c revents mem := (loops c).trans (inv.active L c revents (same ▸ mem))
  client isClient c mem := (loops c).trans (inv.client (holder ▸ isClient) c (holder ▸ mem))

theorem setLoop (frames : ∀ g ∈ loop.stack, g ∈ (s.loops L).stack ∨ s.InLoopThread L g)
    (tasks : ∀ task ∈ loop.allTasks, task ∈ (s.loops L).allTasks ∨ s.InLoopThread L task.frame)
    (active : ∀ c revents, some (c, revents) ∈ loop.phase.active →
      some (c, revents) ∈ (s.loops L).phase.active ∨ (s.conns c).loop = L) :
    (s.setLoop L loop).Confined where
  frames L' g mem := by
    by_cases same : L' = L
    · subst same
      exact (frames g (by simpa [System.setLoop] using mem)).elim (inv.frames L' g) id
    · exact inv.frames L' g (by simpa [System.setLoop, same] using mem)
  tasks L' task mem := by
    by_cases same : L' = L
    · subst same
      exact (tasks task (by simpa [System.setLoop] using mem)).elim (inv.tasks L' task) id
    · exact inv.tasks L' task (by simpa [System.setLoop, same] using mem)
  active L' c revents mem := by
    by_cases same : L' = L
    · subst same
      exact (active c revents (by simpa [System.setLoop] using mem)).elim
        (inv.active L' c revents) id
    · exact inv.active L' c revents (by simpa [System.setLoop, same] using mem)
  client := inv.client

theorem pushFrame (there : s.InLoopThread L f) : (s.pushFrame L f).Confined := by
  refine inv.setLoop (fun g mem => ?_) (fun _ => Or.inl) fun _ _ => Or.inl
  rcases List.mem_cons.mp mem with rfl | mem
  · exact Or.inr there
  · exact Or.inl mem

theorem push {task : Task} (there : s.InLoopThread L task.frame) : (s.push L task).Confined := by
  refine inv.setLoop (fun _ => Or.inl) (fun x mem => ?_) fun _ _ => Or.inl
  rcases mem_allTasks_push.mp mem with mem | rfl
  · exact Or.inl mem
  · exact Or.inr there

theorem store (c : ConnId) (state : ConnectionState) : (s.store c state).Confined :=
  have pool : System.SamePool s (s.store c state) := samePool_setConn rfl
  inv.congr rfl pool.loops rfl

theorem run (here : (s.loops L).stack = f :: rest) (effect : ThreadEffect s L frames t) :
    (t.setStack L (frames ++ rest)).Confined := by
  have same : ∀ {L f}, t.InLoopThread L f ↔ s.InLoopThread L f :=
    System.inLoopThread_congr effect.pool.loops
  have below : ∀ g ∈ rest, s.InLoopThread L g := fun g mem =>
    inv.frames L g (here ▸ List.mem_cons_of_mem f mem)
  have after : t.Confined := by
    refine ⟨fun L' g mem => ?_, fun L' task mem => ?_, fun L' c revents mem => ?_,
      fun client c mem => ?_⟩
    · exact same.mpr (inv.frames L' g (effect.stack L' ▸ mem))
    · refine same.mpr ?_
      rcases List.mem_append.mp mem with mem | mem
      · rw [effect.phase] at mem
        exact inv.tasks L' task (List.mem_append_left _ mem)
      · rcases effect.tasks L' task mem with mem | there
        · exact inv.tasks L' task (List.mem_append_right _ mem)
        · exact there
    · rw [effect.phase] at mem
      exact (effect.pool.loops c).trans (inv.active L' c revents mem)
    · have before := effect.holder client c mem
      rw [effect.isServer] at client
      exact (effect.pool.loops c).trans (inv.client client c before)
  refine after.setLoop (fun g mem => Or.inr (same.mpr ?_)) (fun _ => Or.inl) fun _ _ => Or.inl
  rcases List.mem_append.mp mem with mem | mem
  · exact effect.frames g mem
  · exact below g mem

theorem next (idle : (s.loops L).stack = []) (taken : s.nextStep L = some s') : s'.Confined := by
  unfold System.nextStep at taken
  split at taken
  · cases taken
  · next here =>
    cases taken
    refine inv.setLoop (by simp [idle]) (fun task mem => Or.inl ?_) (by simp [Phase.active])
    simpa [Loop.allTasks, Phase.batch, here] using mem
  · next c revents rest here =>
    cases taken
    have own := inv.active L c revents (by simp [here, Phase.active])
    refine inv.setLoop (fun g mem => Or.inr ?_) (fun task mem => Or.inl ?_)
      fun d revents' mem => Or.inl ?_
    · rw [List.mem_singleton.mp mem]
      simp [System.InLoopThread, System.home, own]
    · simpa [Loop.allTasks, Phase.batch, here] using mem
    · simpa [Phase.active, here] using Or.inr mem
  · next rest here =>
    cases taken
    refine inv.setLoop (fun g mem => Or.inr ?_) (fun task mem => Or.inl ?_)
      fun d revents' mem => Or.inl ?_
    · rw [List.mem_singleton.mp mem]
      simp [System.InLoopThread, System.home]
    · simpa [Loop.allTasks, Phase.batch, here] using mem
    · simpa [Phase.active, here] using mem
  · next batch next here =>
    split at taken
    · next task atNext =>
      cases taken
      have inBatch : task ∈ (s.loops L).allTasks := by
        have mem := List.mem_of_getElem? atNext
        simp [Loop.allTasks, Phase.batch, here, mem]
      refine inv.setLoop (fun g mem => Or.inr ?_) (fun task mem => Or.inl ?_) (by simp [Phase.active])
      · rw [List.mem_singleton.mp mem]
        exact inv.tasks L task inBatch
      · simpa [Loop.allTasks, Phase.batch, here] using mem
    · cases taken
      refine inv.setLoop (by simp [idle]) (fun task mem => Or.inl ?_) (by simp [Phase.active])
      simpa [Loop.allTasks, Phase.batch, here] using Or.inr mem

theorem call {call : Call} (own : (s.conns c).loop = L) : (s.callStep L c call).Confined := by
  have there : ∀ f, s.home f = some (s.conns c).loop → s.InLoopThread L f := by
    intro f home L' mem
    rw [home] at mem
    exact (Option.some.inj mem).symm.trans own
  cases call with
  | send =>
    simp only [System.callStep]
    split
    · exact inv.pushFrame (there _ rfl)
    · exact inv
  | shutdown =>
    simp only [System.callStep]
    split
    · refine (inv.store c .kDisconnecting).pushFrame ?_
      simp [System.InLoopThread, System.home, System.store, System.setConn, own]
    · exact inv
  | forceClose =>
    simp only [System.callStep]
    split
    · exact inv.pushFrame (there _ rfl)
    · exact inv

theorem setPending (t : Tid) (p : Option Pending) : (s.setPending t p).Confined :=
  inv.congr rfl (fun _ => rfl) rfl

theorem begin {t : Tid} {call : Call} : (s.beginStep t c call).Confined := by
  cases call <;>
  · simp only [System.beginStep]
    split
    · exact inv.setPending t _
    · exact inv

theorem resume {t : Tid} {p : Pending} : (s.resumeStep t p).Confined := by
  cases p with
  | shutdownStore c => exact (inv.setPending t _).store c _
  | sendTask c | shutdownTask c | forceCloseTask c =>
    refine (inv.setPending t none).push ?_
    simp [System.InLoopThread, System.home, Task.frame, System.setPending]

/-- A new connection gets its loop before anything is about it. -/
theorem fresh (conn : Conn) (holder : Holder) (sound : Sound s)
    (client : holder.isServer = false →
      ∀ d ∈ holder.conns, ((s.setConn s.nextConnId conn).conns d).loop = 0) :
    ({ s.setConn s.nextConnId conn with holder } : System).Confined := by
  have same : System.SameLoops s (s.setConn s.nextConnId conn) := fun d bound => by
    simp [System.setConn, Nat.ne_of_lt bound]
  have home : ∀ f, s.FrameOk f → (s.setConn s.nextConnId conn).home f = s.home f :=
    fun f ok => ok.home_eq sound.bound same
  refine ⟨fun L f mem L' there => ?_, fun L task mem L' there => ?_, fun L d revents mem => ?_,
    client⟩
  · have before : L' ∈ s.home f := home f (sound.frames L f mem) ▸ there
    exact inv.frames L f mem L' before
  · have before : L' ∈ s.home task.frame := home _ (sound.tasks L task mem) ▸ there
    exact inv.tasks L task mem L' before
  · have begun : s.Begun d := sound.inUse d ⟨L, Or.inl ⟨revents, mem⟩⟩
    exact (same d (sound.bound d begun)).trans (inv.active L d revents mem)

theorem accept (sound : Sound s) (taken : s.acceptStep = some s') : s'.Confined := by
  unfold System.acceptStep at taken
  split at taken
  · next connections holder =>
    cases taken
    have made := inv.fresh ⟨getNextEventLoop s, .kConnecting, .kNew⟩ (.server connections) sound nofun
    exact (made.pushFrame (f := .newConnection s.nextConnId .enable) (inLoopThread_base rfl)).congr rfl
      (fun _ => rfl) holder
  · obtain ⟨first, taken⟩ := Option.ite_none_right_eq_some.mp taken
    cases taken
    have made := inv.fresh ⟨0, .kConnecting, .kNew⟩ (.client (some s.nextConnId)) sound
      (by simp [Holder.conns, System.setConn])
    exact (made.pushFrame (f := .clientNewConnection s.nextConnId) (inLoopThread_base rfl)).congr rfl
      (fun _ => rfl) rfl

theorem step (sound : Sound s) (taken : s.step cb l = some s') : s'.Confined := by
  cases l with
  | run L answer =>
    simp only [System.step] at taken
    split at taken
    · cases taken
    · next f rest here =>
      obtain ⟨⟨frames, t⟩, stepped, rfl⟩ := Option.map_eq_some_iff.mp taken
      have top : f ∈ (s.loops L).stack := here ▸ List.mem_cons_self
      exact inv.run here (threadEffect_of_frameStep (inv.frames L f top) inv.client stepped)
  | ret L =>
    obtain ⟨-, taken⟩ := Option.ite_none_right_eq_some.mp taken
    cases taken
    exact inv.setLoop (fun g mem => Or.inl (List.mem_of_mem_tail mem)) (fun _ => Or.inl)
      fun _ _ => Or.inl
  | next L =>
    obtain ⟨idle, taken⟩ := Option.ite_none_right_eq_some.mp taken
    exact inv.next idle taken
  | poll L active =>
    obtain ⟨⟨idle, polling, reported, -⟩, taken⟩ := Option.ite_none_right_eq_some.mp taken
    cases taken
    refine inv.setLoop (fun _ => Or.inl) (fun task mem => Or.inl ?_) fun c revents mem => Or.inr ?_
    · simpa [Loop.allTasks, Phase.batch, polling] using mem
    · exact (reported (c, revents) (List.reduceOption_mem_iff.mpr mem)).1
  | accept =>
    obtain ⟨-, taken⟩ := Option.ite_none_right_eq_some.mp taken
    exact inv.accept sound taken
  | call L c call =>
    obtain ⟨can, taken⟩ := Option.ite_none_right_eq_some.mp taken
    cases taken
    exact inv.call can.1
  | begin t c call =>
    obtain ⟨-, taken⟩ := Option.ite_none_right_eq_some.mp taken
    cases taken
    exact inv.begin
  | resume t =>
    obtain ⟨p, -, rfl⟩ := Option.map_eq_some_iff.mp taken
    exact inv.resume
  | take L =>
    simp only [System.step] at taken
    split at taken
    · cases taken
      exact inv.congr rfl (fun _ => rfl) rfl
    · cases taken
  | copy c | release c =>
    obtain ⟨-, taken⟩ := Option.ite_none_right_eq_some.mp taken
    cases taken
    exact inv.congr rfl (fun _ => rfl) rfl
  | addTask L =>
    cases taken
    exact inv.push (inLoopThread_anywhere rfl)
  | clientSend =>
    obtain ⟨-, taken⟩ := Option.ite_none_right_eq_some.mp taken
    cases taken
    exact inv.pushFrame (inLoopThread_base rfl)
  | queueSend =>
    obtain ⟨-, taken⟩ := Option.ite_none_right_eq_some.mp taken
    cases taken
    exact inv.push (inLoopThread_base rfl)

end System.Confined

theorem confined_start : (System.start kind).Confined := by
  have stack : ∀ L, ∀ f ∈ ((System.start kind).loops L).stack, f = .other := by
    intro L f mem
    simp only [System.start] at mem
    split at mem
    · exact List.mem_singleton.mp mem
    · cases mem
  refine ⟨fun L f mem => ?_, fun L task mem => ?_, fun L c revents mem => ?_, fun client c mem => ?_⟩
  · rw [stack L f mem]
    exact inLoopThread_anywhere rfl
  · simp only [System.start] at mem
    split at mem <;> cases mem
  · simp only [System.start] at mem
    split at mem <;> cases mem
  · cases kind with
    | server => cases client
    | client => cases mem

theorem confined_reachable (reached : Reaches (System.step cb) anyStep (.start kind) s) :
    s.Confined :=
  reached.invariant confined_start fun _ _ _ before inv _ taken =>
    inv.step (sound_reachable before) taken

/-! ## The pool -/

/-- A step that accepts nothing gives no connection a loop. -/
theorem samePool_of_step (inv : s.Confined) (noAccept : l ≠ .accept)
    (taken : s.step cb l = some s') : System.SamePool s s' := by
  have same : System.SamePool s s := ⟨fun _ => rfl, rfl, rfl, rfl⟩
  cases l with
  | run L answer =>
    simp only [System.step] at taken
    split at taken
    · cases taken
    · next f rest here =>
      obtain ⟨⟨frames, t⟩, stepped, rfl⟩ := Option.map_eq_some_iff.mp taken
      have top : f ∈ (s.loops L).stack := here ▸ List.mem_cons_self
      have pool := (threadEffect_of_frameStep (inv.frames L f top) inv.client stepped).pool
      exact ⟨pool.loops, pool.ioLoops, pool.nextEventLoop, pool.nextConnId⟩
  | ret L | poll L active =>
    obtain ⟨-, taken⟩ := Option.ite_none_right_eq_some.mp taken
    cases taken
    exact ⟨fun _ => rfl, rfl, rfl, rfl⟩
  | next L =>
    obtain ⟨-, taken⟩ := Option.ite_none_right_eq_some.mp taken
    unfold System.nextStep at taken
    split at taken
    · cases taken
    all_goals try split at taken
    all_goals
      cases taken
      exact ⟨fun _ => rfl, rfl, rfl, rfl⟩
  | accept => exact absurd rfl noAccept
  | call L c call =>
    obtain ⟨-, taken⟩ := Option.ite_none_right_eq_some.mp taken
    cases taken
    cases call <;> simp only [System.callStep] <;> split
    · exact ⟨fun _ => rfl, rfl, rfl, rfl⟩
    · exact same
    · have pool : System.SamePool s (s.store c .kDisconnecting) := samePool_setConn rfl
      exact ⟨pool.loops, rfl, rfl, rfl⟩
    · exact same
    · exact ⟨fun _ => rfl, rfl, rfl, rfl⟩
    · exact same
  | begin t c call =>
    obtain ⟨-, taken⟩ := Option.ite_none_right_eq_some.mp taken
    cases taken
    cases call <;> simp only [System.beginStep] <;> split <;> exact ⟨fun _ => rfl, rfl, rfl, rfl⟩
  | resume t =>
    obtain ⟨p, -, rfl⟩ := Option.map_eq_some_iff.mp taken
    cases p with
    | shutdownStore c =>
      have pool : System.SamePool s (s.store c .kDisconnecting) := samePool_setConn rfl
      exact ⟨pool.loops, rfl, rfl, rfl⟩
    | sendTask c | shutdownTask c | forceCloseTask c => exact ⟨fun _ => rfl, rfl, rfl, rfl⟩
  | take L =>
    simp only [System.step] at taken
    split at taken
    · cases taken
      exact ⟨fun _ => rfl, rfl, rfl, rfl⟩
    · cases taken
  | copy c | release c | clientSend | queueSend =>
    obtain ⟨-, taken⟩ := Option.ite_none_right_eq_some.mp taken
    cases taken
    exact ⟨fun _ => rfl, rfl, rfl, rfl⟩
  | addTask L =>
    cases taken
    exact ⟨fun _ => rfl, rfl, rfl, rfl⟩

/-- The loop of the connection that is accepted as number `c` by a server with `n` loops. -/
def roundRobin (n : Nat) (c : ConnId) : LoopId := if n = 0 then 0 else c % n + 1

/-- The pool has `n` loops, and the connections went to them in turn. -/
structure Pooled (n : Nat) (s : System) : Prop where
  ioLoops : s.ioLoops = n
  next : n ≠ 0 → s.nextEventLoop = s.nextConnId % n
  loops : ∀ c < s.nextConnId, (s.conns c).loop = roundRobin n c

namespace Pooled

variable {n : Nat} (inv : Pooled n s)

include inv

theorem congr (same : System.SamePool s s') : Pooled n s' where
  ioLoops := same.ioLoops.trans inv.ioLoops
  next := by
    rw [same.nextEventLoop, same.nextConnId]
    exact inv.next
  loops c bound := (same.loops c).trans (inv.loops c (same.nextConnId ▸ bound))

theorem getNextEventLoop_eq : getNextEventLoop s = roundRobin n s.nextConnId := by
  rw [getNextEventLoop, roundRobin, inv.ioLoops]
  split
  · rfl
  · next some => rw [inv.next some]

theorem accept (server : s.holder.isServer = true) (taken : s.acceptStep = some s') :
    Pooled n s' := by
  unfold System.acceptStep at taken
  split at taken
  · cases taken
    refine ⟨inv.ioLoops, fun some => ?_, fun c bound => ?_⟩
    · show (if s.ioLoops = 0 then 0 else (s.nextEventLoop + 1) % s.ioLoops) = (s.nextConnId + 1) % n
      rw [inv.ioLoops, if_neg some, inv.next some, Nat.mod_add_mod]
    · by_cases last : c = s.nextConnId
      · subst last
        simpa [System.pushFrame, System.setStack, System.setLoop, System.setConn] using
          inv.getNextEventLoop_eq
      · have before : c < s.nextConnId := Nat.lt_of_le_of_ne (Nat.lt_succ_iff.mp bound) last
        simpa [System.pushFrame, System.setStack, System.setLoop, System.setConn, last] using
          inv.loops c before
  · next holder =>
    rw [holder] at server
    cases server

/-- How many of the connections that were accepted have the loop `i + 1`. -/
theorem count_loop {i : Nat} (bound : i < n) :
    (List.range s.nextConnId).countP (fun c => (s.conns c).loop = i + 1) =
      s.nextConnId / n + if i < s.nextConnId % n then 1 else 0 := by
  have pos : 0 < n := Nat.zero_lt_of_lt bound
  have count := Nat.count_modEq_card s.nextConnId pos i
  rw [Nat.mod_eq_of_lt bound] at count
  rw [← count, Nat.count]
  refine List.countP_congr fun c mem => ?_
  rw [inv.loops c (List.mem_range.mp mem), roundRobin, if_neg pos.ne']
  simp [Nat.ModEq, Nat.mod_eq_of_lt bound]

end Pooled

theorem isServer_reachable (reached : Reaches (System.step cb) anyStep (.start kind) s) :
    s.holder.isServer = (System.start kind).holder.isServer :=
  reached.invariant (I := fun t => t.holder.isServer = (System.start kind).holder.isServer) rfl
    fun _ _ _ before same _ taken =>
      ((sound_reachable before).stepSpec_of_step taken).forward.isServer.trans same

theorem pooled_reachable {n : Nat}
    (reached : Reaches (System.step cb) anyStep (.start (.server n)) s) : Pooled n s := by
  have start : Pooled n (.start (.server n)) := ⟨rfl, fun _ => (Nat.zero_mod n).symm, nofun⟩
  refine reached.invariant start fun t l u before inv _ taken => ?_
  by_cases accepts : l = .accept
  · subst accepts
    obtain ⟨-, taken⟩ := Option.ite_none_right_eq_some.mp taken
    exact inv.accept (isServer_reachable before) taken
  · exact inv.congr (samePool_of_step (confined_reachable before) accepts taken)

/-- The loops take turns, so each has the same number of the connections accepted so far, or one
more. -/
theorem loops_take_turns {n : Nat}
    (reached : Reaches (System.step cb) anyStep (.start (.server n)) s) :
    (∀ c < s.nextConnId, (s.conns c).loop = roundRobin n c) ∧
      ∀ i < n, (List.range s.nextConnId).countP (fun c => (s.conns c).loop = i + 1) =
        s.nextConnId / n + if i < s.nextConnId % n then 1 else 0 := by
  have inv := pooled_reachable reached
  exact ⟨inv.loops, fun _ bound => inv.count_loop bound⟩

/-- Three connections on two loops. -/
theorem loops_take_turns_three : ∃ s : System,
    (List.range 3).countP (fun c => (s.conns c).loop = 1) = 2 := by
  obtain ⟨s, reached, three⟩ :
      ∃ s, Reaches (System.step allCallbacks) anyStep (.start (.server 2)) s ∧ s.nextConnId = 3 :=
    exists_reaches_of_exec
      [.accept, .run 0 .silent, .run 0 .silent, .accept, .run 0 .silent, .run 0 .silent, .accept]
      (by decide)
  have first := (loops_take_turns reached).2 0 (by decide)
  rw [three] at first
  exact ⟨s, first⟩

theorem sameLoops_of_step (inv : s.Confined) (taken : s.step cb l = some s') :
    System.SameLoops s s' := by
  by_cases accepts : l = .accept
  · subst accepts
    obtain ⟨-, taken⟩ := Option.ite_none_right_eq_some.mp taken
    have new : ∀ conn, System.SameLoops s (s.setConn s.nextConnId conn) := fun conn c bound => by
      simp [System.setConn, Nat.ne_of_lt bound]
    unfold System.acceptStep at taken
    split at taken
    · cases taken
      exact new _
    · obtain ⟨-, taken⟩ := Option.ite_none_right_eq_some.mp taken
      cases taken
      exact new _
  · exact fun c _ => (samePool_of_step inv accepts taken).loops c

/-- Whatever the loops and the other threads do, every function of a connection that a loop executes,
has queued or is about to dispatch is in its loop thread, and this loop stays the same. -/
theorem runs_in_loopThread (start : Reaches (System.step cb) anyStep (.start kind) s)
    (reached : Reaches (System.step cb) anyStep s s') :
    s'.Confined ∧ System.SameLoops s s' := by
  have confined := confined_reachable (start.trans reached)
  refine ⟨confined, ?_⟩
  clear confined
  induction reached with
  | refl => exact fun _ _ => rfl
  | @tail t u l before _ taken ih =>
    intro c bound
    have later : s.nextConnId ≤ t.nextConnId :=
      before.invariant (I := fun t => s.nextConnId ≤ t.nextConnId) (Nat.le_refl _)
        fun _ _ _ between grown _ taken => grown.trans
          ((sound_reachable (start.trans between)).stepSpec_of_step taken).forward.ids
    have same := sameLoops_of_step (confined_reachable (start.trans before)) taken
    exact (same c (bound.trans_le later)).trans (ih c bound)

/-- The `enableRead` of a connection of the second loop is executed there. -/
theorem runs_in_loopThread_enableRead : ∃ s : System, s.Confined ∧ (s.conns 1).loop = 2 ∧
    (s.loops 2).stack = [.user 1, .enableRead 1 .done] := by
  obtain ⟨s, start, second, later⟩ :
      ∃ s, Reaches (System.step allCallbacks) anyStep (.start (.server 2)) s ∧
        (s.conns 1).loop = 2 ∧
        (exec (System.step allCallbacks)
          [.run 0 .silent, .poll 2 [none], .next 2, .ret 2, .next 2, .next 2, .run 2 .silent] s).any
          (fun s' => decide (1 < s.nextConnId ∧
            (s'.loops 2).stack = [.user 1, .enableRead 1 .done])) = true :=
    exists_reaches_of_exec [.accept, .run 0 .silent, .run 0 .silent, .accept] (by decide)
  obtain ⟨s', run, after⟩ := (Option.any_eq_true _ _).mp later
  obtain ⟨bound, stack⟩ := of_decide_eq_true after
  obtain ⟨confined, same⟩ := runs_in_loopThread start (reaches_of_exec _ run)
  exact ⟨s', confined, (same 1 bound).trans second, stack⟩

end Yvent.Endpoint
