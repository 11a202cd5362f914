import Yvent.Endpoint.Model

/-!
# What the functions do to the owners of a connection

`FrameSpec` says of every step of a frame which connections the new frames and tasks are about, and
where the `shared_ptr` of the frame and the entries of the server or client go.
-/

namespace Yvent.Endpoint

open TcpConnection (HandleEventsPc)

variable {cb : Callbacks} {s s' : System} {l : Label} {L : LoopId} {f : Frame} {frames rest : List Frame}
  {answer : Answer} {c : ConnId}

/-- What the step of a frame takes out of `connections_` or `connection_`. -/
def Frame.clears : Frame → Holder → Holder
  | .handleCloseInLoop c, holder => holder.erase c
  | .closeCallback _, holder => holder.reset
  | _, holder => holder

/-- `newConnection` has yet to put the connection into the map. -/
def Loop.Creates (loop : Loop) (c : ConnId) : Prop := ∃ pc, .newConnection c pc ∈ loop.stack

/-- The loop has the channel in its active ones or in a `handleEvents`. -/
def Loop.Uses (loop : Loop) (c : ConnId) : Prop :=
  (∃ revents, some (c, revents) ∈ loop.phase.active) ∨
    ∃ revents pc, .handleEvents c revents pc ∈ loop.stack

namespace System

/-- The state without the copies of `shared_ptr` that the step releases. -/
def letGo (s : System) : Label → System
  | .run L _ =>
    match (s.loops L).stack with
    | [] => s
    | f :: rest =>
      { s.setStack L (if f.finishes then rest else f :: rest) with holder := f.clears s.holder }
  | .next L =>
    match (s.loops L).phase with
    | .tasks batch next => if batch[next]? = none then s.setPhase L .poll else s
    | _ => s
  -- `TcpClient::newConnection` assigns to `connection_`
  | .accept => { s with holder := s.holder.reset }
  | .release c => s.setHeld c (s.held c - 1)
  | _ => s

/-- `enableRead` has registered the channel. -/
def Begun (s : System) (c : ConnId) : Prop := (s.conns c).channel ≠ .kNew

/-- `handleClose` has deregistered the channel. -/
def Closed (s : System) (c : ConnId) : Prop := (s.conns c).channel = .kDeleted

/-- How far a connection has got when the frame is about it. -/
def FrameOk (s : System) : Frame → Prop
  | .other | .clientSend => True
  | .newConnection c _ => c < s.nextConnId ∧ s.holder.isServer = true
  | .clientNewConnection c | .enableRead c .start => c < s.nextConnId
  | .user c | .member c | .enableRead c .done | .handleEvents c _ _ | .handleRead c _
  | .handleWrite c _ | .sendInLoop c _ | .shutdownInLoop c | .forceCloseInLoop c _
  | .handleClose c .store => s.Begun c
  | .handleClose c _ | .closeCallback c | .handleCloseInLoop c => s.Closed c

/-- The server or client, or its `newConnection`, owns the connection. -/
def Kept (s : System) (c : ConnId) : Prop :=
  c ∈ s.holder.conns ∨ ∃ L, (s.loops L).Creates c

/-- The connection's loop is dispatching its channel or still has to. -/
def InUse (s : System) (c : ConnId) : Prop := ∃ L, (s.loops L).Uses c

end System

/-- Connections only get on. -/
structure Forward (s s' : System) : Prop where
  ids : s.nextConnId ≤ s'.nextConnId
  isServer : s'.holder.isServer = s.holder.isServer
  begun : ∀ c, s.Begun c → s'.Begun c
  closed : ∀ c, s.Closed c → s'.Closed c

theorem Forward.refl : Forward s s := ⟨Nat.le_refl _, rfl, fun _ => id, fun _ => id⟩

theorem Forward.frameOk (forward : Forward s s') (ok : s.FrameOk f) : s'.FrameOk f := by
  cases f with
  | other | clientSend => trivial
  | newConnection c pc =>
    exact ⟨Nat.lt_of_lt_of_le ok.1 forward.ids, forward.isServer.trans ok.2⟩
  | clientNewConnection c => exact Nat.lt_of_lt_of_le ok forward.ids
  | enableRead c pc =>
    cases pc with
    | start => exact Nat.lt_of_lt_of_le ok forward.ids
    | done => exact forward.begun c ok
  | handleClose c pc =>
    cases pc with
    | store => exact forward.begun c ok
    | notify | notified | close | closed => exact forward.closed c ok
  | user c | member c | handleEvents c | handleRead c | handleWrite c | sendInLoop c
  | shutdownInLoop c | forceCloseInLoop c => exact forward.begun c ok
  | closeCallback c | handleCloseInLoop c => exact forward.closed c ok

theorem System.Closed.begun (closed : s.Closed c) : s.Begun c := by
  rw [System.Begun, show (s.conns c).channel = .kDeleted from closed]
  exact nofun

/-! ## The functions -/

/-- What the step of a frame does to the state and which frames take its place. -/
structure FrameSpec (s : System) (f : Frame) (frames : List Frame) (s' : System) : Prop where
  stack : ∀ L, (s'.loops L).stack = (s.loops L).stack
  phase : ∀ L, (s'.loops L).phase = (s.loops L).phase
  tasks : ∀ L, ∃ new, (s'.loops L).tasks = (s.loops L).tasks ++ new ∧
    ∀ task ∈ new, s'.FrameOk task.frame
  pending : s'.pending = s.pending
  held : s'.held = s.held
  nextConnId : s'.nextConnId = s.nextConnId
  forward : Forward s s'
  begun : ∀ c, s'.Begun c → s.Begun c ∨ c < s.nextConnId
  connected : ∀ c, (s'.conns c).state = .kConnected → (s.conns c).state = .kConnected ∨ s'.Begun c
  holder : ∀ c ∈ (f.clears s.holder).conns, c ∈ s'.holder.conns
  ok : ∀ g ∈ frames, s'.FrameOk g
  owner : ∀ c, f.owner = some c → f.finishes = false →
    (∃ g ∈ frames, g.owner = some c) ∨ c ∈ s'.holder.conns
  creates : ∀ c pc, f = .newConnection c pc →
    (∃ pc', .newConnection c pc' ∈ frames) ∨ c ∈ s'.holder.conns
  uses : ∀ c revents pc, .handleEvents c revents pc ∈ frames → ∃ pc', f = .handleEvents c revents pc'

/-- The frame only calls others. -/
theorem frameSpec_same (clears : f.clears s.holder = s.holder) (ok : ∀ g ∈ frames, s.FrameOk g)
    (owner : ∀ c, f.owner = some c → f.finishes = false → ∃ g ∈ frames, g.owner = some c)
    (creates : ∀ c pc, f = .newConnection c pc → ∃ pc', .newConnection c pc' ∈ frames)
    (uses : ∀ c revents pc, .handleEvents c revents pc ∈ frames →
      ∃ pc', f = .handleEvents c revents pc') : FrameSpec s f frames s where
  stack _ := rfl
  phase _ := rfl
  tasks _ := ⟨[], (List.append_nil _).symm, by simp⟩
  pending := rfl
  held := rfl
  nextConnId := rfl
  forward := .refl
  begun _ := Or.inl
  connected _ := Or.inl
  holder c mem := clears ▸ mem
  ok := ok
  owner c owns stays := Or.inl (owner c owns stays)
  creates c pc eq := Or.inl (creates c pc eq)
  uses := uses

theorem forward_setConn {conn : Conn} (begun : s.Begun c → conn.channel ≠ .kNew)
    (closed : s.Closed c → conn.channel = .kDeleted) : Forward s (s.setConn c conn) := by
  refine ⟨Nat.le_refl _, rfl, fun c' before => ?_, fun c' before => ?_⟩
  · by_cases same : c' = c
    · subst same
      simpa [System.Begun, System.setConn] using begun before
    · simpa [System.Begun, System.setConn, same] using before
  · by_cases same : c' = c
    · subst same
      simpa [System.Closed, System.setConn] using closed before
    · simpa [System.Closed, System.setConn, same] using before

/-- The frame changes the connection it is about. -/
theorem frameSpec_setConn {conn : Conn} (clears : f.clears s.holder = s.holder)
    (bound : c < s.nextConnId) (begun : conn.channel ≠ .kNew)
    (closed : s.Closed c → conn.channel = .kDeleted)
    (ok : ∀ g ∈ frames, (s.setConn c conn).FrameOk g)
    (owner : ∀ c, f.owner = some c → f.finishes = false → ∃ g ∈ frames, g.owner = some c)
    (creates : ∀ c pc, f ≠ .newConnection c pc)
    (uses : ∀ c revents pc, .handleEvents c revents pc ∉ frames) :
    FrameSpec s f frames (s.setConn c conn) where
  stack _ := rfl
  phase _ := rfl
  tasks _ := ⟨[], (List.append_nil _).symm, by simp⟩
  pending := rfl
  held := rfl
  nextConnId := rfl
  forward := forward_setConn (fun _ => begun) closed
  begun c' after := by
    by_cases same : c' = c
    · exact Or.inr (same ▸ bound)
    · exact Or.inl (by simpa [System.Begun, System.setConn, same] using after)
  connected c' after := by
    by_cases same : c' = c
    · refine Or.inr ?_
      subst same
      simpa [System.Begun, System.setConn] using begun
    · exact Or.inl (by simpa [System.setConn, same] using after)
  holder c mem := clears ▸ mem
  ok := ok
  owner c owns stays := Or.inl (owner c owns stays)
  creates c pc eq := absurd eq (creates c pc)
  uses c revents pc mem := absurd mem (uses c revents pc)

/-- The frame queues a task and returns. -/
theorem frameSpec_push {task : Task} {L : LoopId} (clears : f.clears s.holder = s.holder)
    (taskOk : s.FrameOk task.frame) (ok : ∀ g ∈ frames, s.FrameOk g)
    (owner : ∀ c, f.owner = some c → f.finishes = false → ∃ g ∈ frames, g.owner = some c)
    (creates : ∀ c pc, f = .newConnection c pc → ∃ pc', .newConnection c pc' ∈ frames)
    (uses : ∀ c revents pc, .handleEvents c revents pc ∉ frames) :
    FrameSpec s f frames (s.push L task) where
  stack L' := by
    by_cases same : L' = L
    · subst same
      simp [System.push, System.setLoop]
    · simp [System.push, System.setLoop, same]
  phase L' := by
    by_cases same : L' = L
    · subst same
      simp [System.push, System.setLoop]
    · simp [System.push, System.setLoop, same]
  tasks L' := by
    by_cases same : L' = L
    · subst same
      exact ⟨[task], by simp [System.push, System.setLoop], List.forall_mem_singleton.mpr taskOk⟩
    · exact ⟨[], by simp [System.push, System.setLoop, same], by simp⟩
  pending := rfl
  held := rfl
  nextConnId := rfl
  forward := ⟨Nat.le_refl _, rfl, fun _ => id, fun _ => id⟩
  begun _ := Or.inl
  connected _ := Or.inl
  holder c mem := clears ▸ mem
  ok := ok
  owner c owns stays := Or.inl (owner c owns stays)
  creates c pc eq := Or.inl (creates c pc eq)
  uses c revents pc mem := absurd mem (uses c revents pc)

/-- The frame changes `connections_` or `connection_`. -/
theorem frameSpec_holder {holder : Holder} (server : holder.isServer = s.holder.isServer)
    (clears : ∀ c ∈ (f.clears s.holder).conns, c ∈ holder.conns)
    (ok : ∀ g ∈ frames, s.FrameOk g)
    (owner : ∀ c, f.owner = some c → f.finishes = false → c ∈ holder.conns)
    (creates : ∀ c pc, f = .newConnection c pc → c ∈ holder.conns)
    (uses : ∀ c revents pc, .handleEvents c revents pc ∉ frames) :
    FrameSpec s f frames { s with holder } where
  stack _ := rfl
  phase _ := rfl
  tasks _ := ⟨[], (List.append_nil _).symm, by simp⟩
  pending := rfl
  held := rfl
  nextConnId := rfl
  forward := ⟨Nat.le_refl _, server, fun _ => id, fun _ => id⟩
  begun _ := Or.inl
  connected _ := Or.inl
  holder := clears
  ok g mem := Forward.frameOk (s := s) ⟨Nat.le_refl _, server, fun _ => id, fun _ => id⟩ (ok g mem)
  owner c owns stays := Or.inr (owner c owns stays)
  creates c pc eq := Or.inr (creates c pc eq)
  uses c revents pc mem := absurd mem (uses c revents pc)

theorem insert_mem (server : s.holder.isServer = true) : c ∈ (s.holder.insert c).conns := by
  cases holder : s.holder with
  | server connections => simp [Holder.insert, Holder.conns]
  | client connection =>
    rw [holder] at server
    cases server

theorem conns_insert {c' : ConnId} (mem : c' ∈ s.holder.conns) :
    c' ∈ (s.holder.insert c).conns := by
  cases holder : s.holder with
  | server connections =>
    rw [holder] at mem
    exact List.mem_insert_of_mem mem
  | client connection =>
    rw [holder] at mem
    exact mem

theorem newConnectionStep_spec {pc : NewConnectionPc} (ok : s.FrameOk (.newConnection c pc)) :
    FrameSpec s (.newConnection c pc) (newConnectionStep s c pc).1 (newConnectionStep s c pc).2 := by
  obtain ⟨bound, server⟩ := ok
  cases pc with
  | enable =>
    have creates : ∀ {frames : List Frame}, .newConnection c .insert ∈ frames → ∀ c' pc,
        Frame.newConnection c .enable = .newConnection c' pc →
        ∃ pc', .newConnection c' pc' ∈ frames := by
      rintro frames mem c' pc same
      cases same
      exact ⟨_, mem⟩
    simp only [newConnectionStep]
    split
    · exact frameSpec_same rfl (by simp [System.FrameOk, bound, server])
        (by simp [Frame.owner]) (creates (by simp)) (by simp)
    · exact frameSpec_push rfl bound (by simp [System.FrameOk, bound, server])
        (by simp [Frame.owner]) (creates (by simp)) (by simp)
  | insert =>
    refine frameSpec_holder ?_ (fun c' mem => conns_insert mem) (by simp [newConnectionStep])
      ?_ ?_ (by simp [newConnectionStep])
    · cases s.holder <;> rfl
    · rintro c' owns -
      cases owns
      exact insert_mem server
    · rintro c' pc same
      cases same
      exact insert_mem server

theorem handleEventsStep_spec {revents : BitVec 32} {pc : HandleEventsPc} (begun : s.Begun c) :
    FrameSpec s (.handleEvents c revents pc) (handleEventsStep c revents pc) s := by
  have spec : ∀ {frames : List Frame}, (∀ g ∈ frames, s.FrameOk g) →
      (∀ c' revents' pc', .handleEvents c' revents' pc' ∈ frames → c' = c ∧ revents' = revents) →
      FrameSpec s (.handleEvents c revents pc) frames s := by
    intro frames ok uses
    refine frameSpec_same rfl ok nofun nofun fun c' revents' pc' mem => ?_
    obtain ⟨rfl, rfl⟩ := uses c' revents' pc' mem
    exact ⟨pc, rfl⟩
  cases pc with
  | error =>
    exact spec (by simp [handleEventsStep, System.FrameOk, begun])
      (by simp +contextual [handleEventsStep])
  | close | read | write =>
    simp only [handleEventsStep]
    split <;> exact spec (by simp [System.FrameOk, begun]) (by simp +contextual)

/-- A frame without a `shared_ptr` that calls others. -/
theorem frameSpec_call (clears : f.clears s.holder = s.holder) (none : f.owner = none)
    (ok : ∀ g ∈ frames, s.FrameOk g) (uses : ∀ c revents pc, .handleEvents c revents pc ∉ frames) :
    FrameSpec s f frames s := by
  refine frameSpec_same clears ok ?_ ?_ fun c revents pc mem => absurd mem (uses c revents pc)
  · intro c owns
    rw [none] at owns
    cases owns
  · rintro c pc rfl
    cases none

/-- A frame that returns. -/
theorem frameSpec_return (clears : f.clears s.holder = s.holder) (finishes : f.finishes = true) :
    FrameSpec s f [] s := by
  refine frameSpec_same clears (by simp) ?_ ?_ (by simp)
  · intro c _ stays
    rw [finishes] at stays
    cases stays
  · rintro c pc rfl
    cases finishes

theorem handleReadStep_spec (result : Option Bytes) (begun : s.Begun c) :
    FrameSpec s (.handleRead c .start) (handleReadStep cb c result) s := by
  rcases result with _ | _ | ⟨b, data⟩
  · exact frameSpec_call rfl rfl (by simp [handleReadStep]) (by simp [handleReadStep])
  · exact frameSpec_call rfl rfl (by simp [handleReadStep, System.FrameOk, begun])
      (by simp [handleReadStep])
  · simp only [handleReadStep]
    split <;> exact frameSpec_call rfl rfl (by simp [System.FrameOk, begun]) (by simp)

theorem handleWriteStep_spec (all : Bool) (begun : s.Begun c) :
    FrameSpec s (.handleWrite c .start) (handleWriteStep cb c all) s := by
  unfold handleWriteStep
  split <;> exact frameSpec_call rfl rfl (by simp [System.FrameOk, begun]) (by simp)

theorem sendInLoopStep_spec (all : Bool) (begun : s.Begun c) :
    FrameSpec s (.sendInLoop c .start) (sendInLoopStep cb s c all) s := by
  unfold sendInLoopStep
  split
  · exact frameSpec_call rfl rfl (by simp) (by simp)
  · split <;> exact frameSpec_call rfl rfl (by simp [System.FrameOk, begun]) (by simp)

theorem forceCloseInLoopStep_spec {pc : CallingPc} (begun : s.Begun c) :
    FrameSpec s (.forceCloseInLoop c pc) (forceCloseInLoopStep s c pc) s := by
  cases pc with
  | start =>
    simp only [forceCloseInLoopStep]
    split <;> exact frameSpec_same rfl (by simp [System.FrameOk, begun]) (by simp [Frame.owner])
      nofun (by simp)
  | called => exact frameSpec_return rfl rfl

theorem handleCloseStep_spec {pc : HandleClosePc} (ok : s.FrameOk (.handleClose c pc))
    (bound : s.Begun c → c < s.nextConnId) :
    FrameSpec s (.handleClose c pc) (handleCloseStep cb s c pc).1 (handleCloseStep cb s c pc).2 := by
  cases pc with
  | store =>
    have begun : s.Begun c := ok
    have closed : (s.conns c).channel.update true = .kDeleted := by
      cases channel : (s.conns c).channel with
      | kNew => exact absurd channel begun
      | kAdded | kDeleted => rfl
    refine frameSpec_setConn rfl (bound begun) ?_ (fun _ => closed) ?_ nofun nofun
      (by simp [handleCloseStep])
    · rw [closed]
      exact nofun
    · refine List.forall_mem_singleton.mpr ?_
      simp [System.FrameOk, System.Closed, System.setConn, closed]
  | notify =>
    have closed : s.Closed c := ok
    simp only [handleCloseStep]
    split <;> exact frameSpec_call rfl rfl (by simp [System.FrameOk, closed, closed.begun]) (by simp)
  | notified =>
    have closed : s.Closed c := ok
    exact frameSpec_same rfl (by simp [handleCloseStep, System.FrameOk, closed]) nofun nofun
      (by simp [handleCloseStep])
  | close =>
    have closed : s.Closed c := ok
    exact frameSpec_call rfl rfl (by simp [handleCloseStep, System.FrameOk, closed])
      (by simp [handleCloseStep])
  | closed => exact frameSpec_return rfl rfl

theorem enable_frameOk (g : Frame) (ok : (s.enable c).Begun c → (s.enable c).FrameOk g) :
    (s.enable c).FrameOk g := by
  refine ok ?_
  cases channel : (s.conns c).channel <;>
    simp [System.Begun, System.enable, System.setConn, ChannelState.update, channel]

theorem frameSpec_enable (clears : f.clears s.holder = s.holder) (bound : c < s.nextConnId)
    (ok : ∀ g ∈ frames, (s.enable c).Begun c → (s.enable c).FrameOk g)
    (owner : ∀ c, f.owner = some c → f.finishes = false → ∃ g ∈ frames, g.owner = some c)
    (creates : ∀ c pc, f ≠ .newConnection c pc)
    (uses : ∀ c revents pc, .handleEvents c revents pc ∉ frames) :
    FrameSpec s f frames (s.enable c) := by
  refine frameSpec_setConn clears bound ?_ ?_ (fun g mem => enable_frameOk g (ok g mem)) owner creates uses
  · cases channel : (s.conns c).channel <;> simp [ChannelState.update]
  · intro closed
    rw [show (s.conns c).channel = .kDeleted from closed]
    rfl

theorem enableReadStep_spec {pc : EnableReadPc} (ok : s.FrameOk (.enableRead c pc)) :
    FrameSpec s (.enableRead c pc) (enableReadStep cb s c pc).1 (enableReadStep cb s c pc).2 := by
  cases pc with
  | start =>
    refine frameSpec_enable rfl ok ?_ ?_ nofun ?_ <;> simp only [enableReadStep] <;> split
    · simp +contextual [System.FrameOk]
    · simp +contextual [System.FrameOk]
    · simp [Frame.owner]
    · simp [Frame.owner]
    · simp
    · simp
  | done => exact frameSpec_return rfl rfl

theorem clientNewConnectionStep_spec (bound : c < s.nextConnId) :
    FrameSpec s (.clientNewConnection c) (clientNewConnectionStep cb s c).1
      (clientNewConnectionStep cb s c).2 := by
  refine frameSpec_enable rfl bound ?_ nofun nofun ?_ <;> simp only [clientNewConnectionStep] <;>
    split
  · simp +contextual [System.FrameOk]
  · simp
  · simp
  · simp

theorem closeCallbackStep_spec (closed : s.Closed c) :
    FrameSpec s (.closeCallback c) (closeCallbackStep cb s L c).1
      (closeCallbackStep cb s L c).2 := by
  unfold closeCallbackStep
  split
  · next server =>
    have clears : s.holder.reset = s.holder := by
      cases holder : s.holder with
      | server connections => rfl
      | client connection =>
        rw [holder] at server
        cases server
    split
    · exact frameSpec_call clears rfl (by simp [System.FrameOk, closed]) (by simp)
    · exact frameSpec_push clears closed (by simp) nofun nofun (by simp)
  · refine frameSpec_holder ?_ (fun _ => id) ?_ nofun nofun ?_
    · cases s.holder <;> rfl
    · split <;> simp [System.FrameOk, closed.begun]
    · split <;> simp

theorem handleCloseInLoopStep_spec :
    FrameSpec s (.handleCloseInLoop c) (handleCloseInLoopStep s c).1
      (handleCloseInLoopStep s c).2 := by
  refine frameSpec_holder ?_ (fun _ => id) (by simp [handleCloseInLoopStep]) ?_ nofun
    (by simp [handleCloseInLoopStep])
  · cases s.holder <;> rfl
  · rintro c' - stays
    cases stays

theorem clientSendStep_spec (connected : ∀ c, (s.conns c).state = .kConnected → s.Begun c)
    (taken : clientSendStep s = some frames) : FrameSpec s .clientSend frames s := by
  unfold clientSendStep at taken
  split at taken
  · next c _ =>
    cases taken
    split
    · next state =>
      exact frameSpec_call rfl rfl (by simp [System.FrameOk, connected c state]) (by simp)
    · exact frameSpec_call rfl rfl (by simp) (by simp)
  · cases taken

theorem frameSpec_of_frameStep {result : List Frame × System} (ok : s.FrameOk f)
    (bound : ∀ c, s.Begun c → c < s.nextConnId)
    (connected : ∀ c, (s.conns c).state = .kConnected → s.Begun c)
    (taken : frameStep cb s L f answer = some result) : FrameSpec s f result.1 result.2 := by
  unfold frameStep at taken
  split at taken
  · obtain rfl := Option.some.inj taken
    exact newConnectionStep_spec ok
  · obtain rfl := Option.some.inj taken
    exact clientNewConnectionStep_spec ok
  · obtain rfl := Option.some.inj taken
    exact enableReadStep_spec ok
  · obtain rfl := Option.some.inj taken
    exact handleEventsStep_spec ok
  · next result =>
    obtain rfl := Option.some.inj taken
    exact handleReadStep_spec result ok
  · next all =>
    obtain rfl := Option.some.inj taken
    exact handleWriteStep_spec all ok
  · next all =>
    obtain rfl := Option.some.inj taken
    exact sendInLoopStep_spec all ok
  · obtain rfl := Option.some.inj taken
    exact frameSpec_return rfl rfl
  · obtain rfl := Option.some.inj taken
    exact frameSpec_return rfl rfl
  · obtain rfl := Option.some.inj taken
    exact frameSpec_return rfl rfl
  · next c pc =>
    obtain rfl := Option.some.inj taken
    exact handleCloseStep_spec ok (bound c)
  · obtain rfl := Option.some.inj taken
    exact closeCallbackStep_spec ok
  · obtain rfl := Option.some.inj taken
    exact handleCloseInLoopStep_spec
  · obtain rfl := Option.some.inj taken
    exact frameSpec_call rfl rfl (by simp) (by simp)
  · obtain rfl := Option.some.inj taken
    exact forceCloseInLoopStep_spec ok
  · obtain ⟨frames, sent, rfl⟩ := Option.map_eq_some_iff.mp taken
    exact clientSendStep_spec connected sent
  · cases taken

end Yvent.Endpoint
