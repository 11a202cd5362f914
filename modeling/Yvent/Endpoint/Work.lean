import Mathlib.Data.List.Count
import Yvent.Endpoint.Kept

/-!
# The work of the loops for a connection

`Loop.todo` lists the frames that a loop is executing and those of its queued tasks. Every step takes
one of them away, puts others in its place, or both; `FrameEffect` says which and what becomes of the
connection they are about, `Loop.Keeps` what the steps beside the frames can do.
-/

namespace Yvent.Endpoint

variable {cb : Callbacks} {s s' t : System} {l : Label} {L : LoopId} {f : Frame}
  {frames rest : List Frame} {answer : Answer} {c : ConnId} {made : LoopId → List Task}
  {loop loop' : Loop}

/-- The tasks of the batch that are left. -/
def Phase.left : Phase → List Task
  | .tasks batch next => batch.drop next
  | _ => []

/-- The frames of a loop, those of its queued tasks included. -/
def Loop.todo (loop : Loop) : List Frame :=
  loop.stack ++ (loop.phase.left ++ loop.tasks).map Task.frame

namespace Frame

/-- The frame leads to the `enableRead` of the connection. -/
def starts (c : ConnId) : Frame → Bool
  | .newConnection c' .enable | .clientNewConnection c' | .enableRead c' .start => c' = c
  | _ => false

/-- The frame closes the connection or can come to it. -/
def closes (c : ConnId) : Frame → Bool
  | .handleEvents c' _ _ | .handleRead c' _ | .handleClose c' _ | .closeCallback c'
  | .handleCloseInLoop c' | .forceCloseInLoop c' _ => c' = c
  | _ => false

/-- The frame leads to the erasure of the connection. -/
def erases (c : ConnId) : Frame → Bool
  | .handleClose c' .notify | .handleClose c' .notified | .handleClose c' .close
  | .closeCallback c' | .handleCloseInLoop c' => c' = c
  | _ => false

/-- `connections_` is used in the loop of the server. -/
def Placed (L : LoopId) : Frame → Prop
  | .newConnection _ _ | .handleCloseInLoop _ => L = 0
  | _ => True

/-- The frame neither brings a connection into the map or the loop nor erases it. -/
def plain : Frame → Bool
  | .newConnection _ _ | .clientNewConnection _ | .enableRead _ .start | .handleCloseInLoop _ => false
  | _ => true

/-- `f` may call `g`, which closes no other connection. -/
def Calls (f g : Frame) : Prop := g.plain = true ∧ ∀ c, g.closes c = true → f.closes c = true

variable {g : Frame} (isPlain : g.plain = true)

include isPlain

theorem placed_of_plain (L : LoopId) : g.Placed L := by
  cases g <;> trivial

theorem starts_of_plain (c : ConnId) : g.starts c = false := by
  cases g with
  | newConnection | clientNewConnection => cases isPlain
  | enableRead c' pc => cases pc <;> first | rfl | cases isPlain
  | _ => rfl

theorem ne_newConnection_of_plain (c : ConnId) (pc : NewConnectionPc) : g ≠ .newConnection c pc := by
  rintro rfl
  cases isPlain

end Frame

/-- A frame on the stack closes the connection. -/
def Loop.Closes (loop : Loop) (c : ConnId) : Prop := ∃ f ∈ loop.stack, f.closes c = true

namespace System

/-- The erasure of the connection is under way. -/
def Erasing (s : System) (c : ConnId) : Prop := ∃ L, ∃ f ∈ (s.loops L).todo, f.erases c = true

end System

/-! ## Frames -/

/-- What a step of the frame `f` makes of the connection: `made` are the frames and tasks that take
the place of `f` in each loop. -/
inductive FrameLife (s : System) (f : Frame) (made : LoopId → List Frame) (t : System)
    (c : ConnId) : Prop
  | keep (conn : t.conns c = s.conns c) (mem : c ∈ t.holder.conns ↔ c ∈ s.holder.conns)
      (starts : ∃ L, ∀ L', (made L').countP (·.starts c) ≤ if L' = L ∧ f.starts c then 1 else 0)
      (erases : f.erases c = true → ∃ L, ∃ g ∈ made L, g.erases c = true)
  | enable (here : f.starts c = true) (conn : t.conns c = (s.enable c).conns c)
      (mem : c ∈ t.holder.conns ↔ c ∈ s.holder.conns)
      (started : ∀ L, ∀ g ∈ made L, g.starts c = false)
  | insert (here : f = .newConnection c .insert) (conn : t.conns c = s.conns c)
      (mem : c ∈ t.holder.conns) (empty : ∀ L, made L = [])
  | close (here : f = .handleClose c .store) (conn : t.conns c = (s.disable c).conns c)
      (mem : c ∈ t.holder.conns ↔ c ∈ s.holder.conns)
      (started : ∀ L, ∀ g ∈ made L, g.starts c = false)
      (erases : ∃ L, ∃ g ∈ made L, g.erases c = true)
  | erase (here : f = .handleCloseInLoop c) (conn : t.conns c = s.conns c)
      (mem : c ∉ t.holder.conns) (empty : ∀ L, made L = [])

/-- What takes the place of the executing frame of loop `L`. -/
def produced (L : LoopId) (frames : List Frame) (made : LoopId → List Task) (L' : LoopId) :
    List Frame :=
  (if L' = L then frames else []) ++ (made L').map Task.frame

/-- What the step of a frame does to the work of the loops. -/
structure FrameEffect (s : System) (L : LoopId) (f : Frame) (frames : List Frame) (t : System)
    (made : LoopId → List Task) : Prop where
  loops : ∀ L', t.loops L' = { s.loops L' with tasks := (s.loops L').tasks ++ made L' }
  isServer : t.holder.isServer = s.holder.isServer
  nextConnId : t.nextConnId = s.nextConnId
  pending : t.pending = s.pending
  placed : f.Placed L → ∀ L', ∀ g ∈ produced L frames made L', g.Placed L'
  creates : ∀ c pc, .newConnection c pc ∈ frames → ∃ pc', f = .newConnection c pc'
  closes : ∀ c, ∀ g ∈ frames, g.closes c = true → f.closes c = true
  bound : ∀ c ∈ t.holder.conns, c ∈ s.holder.conns ∨ ∃ pc, f = .newConnection c pc
  life : ∀ c, FrameLife s f (produced L frames made) t c

/-- The frame only calls others. -/
theorem frameEffect_call (placed : f.Placed L → ∀ g ∈ frames, g.Placed L)
    (creates : ∀ c pc, .newConnection c pc ∈ frames → ∃ pc', f = .newConnection c pc')
    (closes : ∀ c, ∀ g ∈ frames, g.closes c = true → f.closes c = true)
    (starts : ∀ c, frames.countP (·.starts c) ≤ if f.starts c then 1 else 0)
    (erases : ∀ c, f.erases c = true → ∃ g ∈ frames, g.erases c = true) :
    FrameEffect s L f frames s fun _ => [] where
  loops L' := by simp
  isServer := rfl
  nextConnId := rfl
  pending := rfl
  placed here L' g mem := by
    by_cases same : L' = L
    · subst same
      exact placed here g (by simpa [produced] using mem)
    · simp [produced, same] at mem
  creates := creates
  closes := closes
  bound c := Or.inl
  life c := by
    refine .keep rfl Iff.rfl ⟨L, fun L' => ?_⟩ fun erases' => ⟨L, ?_⟩
    · by_cases same : L' = L
      · simpa [produced, same] using starts c
      · simp [produced, same]
    · simpa [produced] using erases c erases'

theorem produced_none (L' : LoopId) :
    produced L frames (fun _ => []) L' = if L' = L then frames else [] := by
  simp [produced]

/-- The frame changes the connection it is about. -/
theorem frameEffect_setConn {conn : Conn} (placed : ∀ g ∈ frames, g.Placed L)
    (creates : ∀ c pc, .newConnection c pc ∉ frames)
    (closes : ∀ c, ∀ g ∈ frames, g.closes c = true → f.closes c = true)
    (others : ∀ c', c' ≠ c → (∀ g ∈ frames, g.starts c' = false) ∧ f.erases c' = false)
    (life : FrameLife s f (produced L frames fun _ => []) (s.setConn c conn) c) :
    FrameEffect s L f frames (s.setConn c conn) fun _ => [] where
  loops L' := by simp [System.setConn]
  isServer := rfl
  nextConnId := rfl
  pending := rfl
  placed _ L' g mem := by
    rw [produced_none] at mem
    split at mem
    · next same => exact same ▸ placed g mem
    · cases mem
  creates c pc mem := absurd mem (creates c pc)
  closes := closes
  bound c := Or.inl
  life c' := by
    by_cases same : c' = c
    · exact same ▸ life
    · obtain ⟨starts, erases⟩ := others c' same
      refine .keep (by simp [System.setConn, same]) Iff.rfl ⟨L, fun L' => ?_⟩ ?_
      · rw [produced_none]
        split
        · rw [List.countP_eq_zero.mpr fun g mem => by simp [starts g mem]]
          exact Nat.zero_le _
        · exact Nat.zero_le _
      · rw [erases]
        simp

/-- The frame queues a task and goes on. -/
theorem frameEffect_push {task : Task} {L₁ : LoopId} (placed : f.Placed L → ∀ g ∈ frames, g.Placed L)
    (taskPlaced : task.frame.Placed L₁)
    (creates : ∀ c pc, .newConnection c pc ∈ frames → ∃ pc', f = .newConnection c pc')
    (closes : ∀ c, ∀ g ∈ frames, g.closes c = true → f.closes c = true)
    (starts : ∀ c, (∀ g ∈ frames, g.starts c = false) ∧
      (task.frame.starts c = true → f.starts c = true))
    (erases : ∀ c, f.erases c = true → task.frame.erases c = true) :
    FrameEffect s L f frames (s.push L₁ task) fun L' => if L' = L₁ then [task] else [] where
  loops L' := by
    by_cases same : L' = L₁
    · subst same
      simp [System.push, System.setLoop]
    · simp [System.push, System.setLoop, same]
  isServer := rfl
  nextConnId := rfl
  pending := rfl
  placed here L' g mem := by
    rcases List.mem_append.mp mem with mem | mem
    · split at mem
      · next same => exact same ▸ placed here g mem
      · cases mem
    · obtain ⟨x, queued, rfl⟩ := List.mem_map.mp mem
      dsimp only at queued
      split at queued
      · next same =>
        obtain rfl := List.mem_singleton.mp queued
        exact same ▸ taskPlaced
      · cases queued
  creates := creates
  closes := closes
  bound c := Or.inl
  life c := by
    refine .keep rfl Iff.rfl ⟨L₁, fun L' => ?_⟩ fun here =>
      ⟨L₁, task.frame, by simp [produced], erases c here⟩
    have none : (if L' = L then frames else []).countP (·.starts c) = 0 := by
      refine List.countP_eq_zero.mpr fun g mem => ?_
      split at mem
      · simp [(starts c).1 g mem]
      · cases mem
    rw [produced, List.countP_append, none]
    by_cases same : L' = L₁
    · by_cases here : task.frame.starts c = true
      · simp [same, here, (starts c).2 here]
      · simp [same, here]
    · simp [same]

/-- The frame changes `connections_`. -/
theorem frameEffect_holder {holder : Holder} (server : holder.isServer = s.holder.isServer)
    (bound : ∀ c ∈ holder.conns, c ∈ s.holder.conns ∨ ∃ pc, f = .newConnection c pc)
    (others : ∀ c', c' ≠ c →
      (c' ∈ holder.conns ↔ c' ∈ s.holder.conns) ∧ f.erases c' = false)
    (life : FrameLife s f (fun _ => []) { s with holder } c) :
    FrameEffect s L f [] { s with holder } fun _ => [] where
  loops L' := by simp
  isServer := server
  nextConnId := rfl
  pending := rfl
  placed _ L' g mem := by
    rw [produced_none] at mem
    split at mem <;> cases mem
  creates c pc mem := absurd mem List.not_mem_nil
  closes c g mem := absurd mem List.not_mem_nil
  bound := bound
  life c' := by
    have empty : produced L [] (fun _ => []) = fun _ => [] := by
      funext L'
      rw [produced_none]
      exact ite_self _
    rw [empty]
    by_cases same : c' = c
    · exact same ▸ life
    · obtain ⟨mem, erases⟩ := others c' same
      refine .keep rfl mem ⟨0, fun L' => Nat.zero_le _⟩ ?_
      rw [erases]
      simp

theorem conns_insert_iff (server : s.holder.isServer = true) (c' : ConnId) :
    c' ∈ (s.holder.insert c).conns ↔ c' ∈ s.holder.conns ∨ c' = c := by
  cases holder : s.holder with
  | server connections => simp [Holder.insert, Holder.conns, or_comm]
  | client connection =>
    rw [holder] at server
    cases server

theorem newConnectionStep_effect (pc : NewConnectionPc) (placed : (Frame.newConnection c pc).Placed L)
    (server : s.holder.isServer = true) :
    ∃ made, FrameEffect s L (.newConnection c pc) (newConnectionStep s c pc).1
      (newConnectionStep s c pc).2 made := by
  cases pc with
  | enable =>
    simp only [newConnectionStep]
    split
    · refine ⟨_, frameEffect_call ?_ ?_ ?_ ?_ ?_⟩
      · simp [Frame.Placed]
      · simp
      · simp [Frame.closes]
      · simp [Frame.starts, List.countP_cons]
      · simp [Frame.erases]
    · refine ⟨_, frameEffect_push ?_ ?_ ?_ ?_ ?_ ?_⟩
      · simp [Frame.Placed]
      · simp [Frame.Placed, Task.frame]
      · simp
      · simp [Frame.closes]
      · simp [Frame.starts, Task.frame]
      · simp [Frame.erases]
  | insert =>
    refine ⟨_, frameEffect_holder (c := c) ?_ ?_ ?_ ?_⟩
    · cases s.holder <;> rfl
    · intro c' mem
      refine ((conns_insert_iff server c').mp mem).imp id ?_
      rintro rfl
      exact ⟨_, rfl⟩
    · intro c' other
      exact ⟨by simp [conns_insert_iff server, other], rfl⟩
    · exact .insert rfl rfl ((conns_insert_iff server c).mpr (Or.inr rfl)) fun _ => rfl

/-- `state_ = kConnected` with the registration of the channel. -/
theorem frameEffect_enable (here : ∀ c', f.starts c' = decide (c = c'))
    (placed : ∀ g ∈ frames, g.Placed L) (creates : ∀ c pc, .newConnection c pc ∉ frames)
    (closes : ∀ c, ∀ g ∈ frames, g.closes c = true → f.closes c = true)
    (started : ∀ c, ∀ g ∈ frames, g.starts c = false) (erases : ∀ c, f.erases c = false) :
    FrameEffect s L f frames (s.enable c) fun _ => [] := by
  refine frameEffect_setConn placed creates closes (fun c' _ => ⟨started c', erases c'⟩) ?_
  refine .enable (by simp [here]) rfl Iff.rfl fun L' g mem => ?_
  rw [produced_none] at mem
  split at mem
  · exact started c g mem
  · cases mem

theorem handleCloseStep_effect (pc : HandleClosePc) :
    FrameEffect s L (.handleClose c pc) (handleCloseStep cb s c pc).1
      (handleCloseStep cb s c pc).2 fun _ => [] := by
  cases pc with
  | store =>
    simp only [handleCloseStep]
    refine frameEffect_setConn ?_ ?_ ?_ ?_ (.close rfl rfl Iff.rfl ?_ ⟨L, ?_⟩)
    · simp [Frame.Placed]
    · simp
    · simp [Frame.closes]
    · simp [Frame.starts, Frame.erases]
    · simp [produced, Frame.starts]
    · simp [produced, Frame.erases]
  | notify =>
    simp only [handleCloseStep]
    split <;> refine frameEffect_call ?_ ?_ ?_ ?_ ?_ <;>
      simp [Frame.Placed, Frame.closes, Frame.starts, Frame.erases]
  | notified | close | closed =>
    refine frameEffect_call ?_ ?_ ?_ ?_ ?_ <;>
      simp [handleCloseStep, Frame.Placed, Frame.closes, Frame.starts, Frame.erases]

theorem closeCallbackStep_effect (server : s.holder.isServer = true) :
    ∃ made, FrameEffect s L (.closeCallback c) (closeCallbackStep cb s L c).1
      (closeCallbackStep cb s L c).2 made := by
  simp only [closeCallbackStep, if_pos server]
  split
  · next base =>
    refine ⟨_, frameEffect_call ?_ ?_ ?_ ?_ ?_⟩
    · simp [Frame.Placed, base]
    · simp
    · simp [Frame.closes]
    · simp [Frame.starts]
    · simp [Frame.erases]
  · refine ⟨_, frameEffect_push ?_ ?_ ?_ ?_ ?_ ?_⟩
    · simp
    · simp [Frame.Placed, Task.frame]
    · simp
    · simp
    · simp [Frame.starts, Task.frame]
    · simp [Frame.erases, Task.frame]

theorem conns_erase (server : s.holder.isServer = true) (c' : ConnId) :
    c' ∈ (s.holder.erase c).conns ↔ c' ∈ s.holder.conns ∧ c' ≠ c := by
  cases holder : s.holder with
  | server connections => simp [Holder.erase, Holder.conns]
  | client connection =>
    rw [holder] at server
    cases server

theorem handleCloseInLoopStep_effect (server : s.holder.isServer = true) :
    FrameEffect s L (.handleCloseInLoop c) (handleCloseInLoopStep s c).1
      (handleCloseInLoopStep s c).2 fun _ => [] := by
  refine frameEffect_holder (c := c) ?_ ?_ ?_ ?_
  · cases s.holder <;> rfl
  · exact fun c' mem => Or.inl ((conns_erase server c').mp mem).1
  · intro c' other
    exact ⟨by simp [conns_erase server, other], by simp [Frame.erases, Ne.symm other]⟩
  · exact .erase rfl rfl (by simp [conns_erase server]) fun _ => rfl

theorem enableReadStep_effect (pc : EnableReadPc) :
    FrameEffect s L (.enableRead c pc) (enableReadStep cb s c pc).1 (enableReadStep cb s c pc).2
      fun _ => [] := by
  cases pc with
  | start =>
    simp only [enableReadStep]
    split <;> refine frameEffect_enable (fun _ => rfl) ?_ ?_ ?_ ?_ ?_ <;>
      simp [Frame.Placed, Frame.closes, Frame.starts, Frame.erases]
  | done =>
    refine frameEffect_call ?_ ?_ ?_ ?_ ?_ <;> simp [enableReadStep, Frame.erases]

/-- A frame that only calls plain ones. -/
theorem frameEffect_plain (calls : ∀ g ∈ frames, f.Calls g) (erases : ∀ c, f.erases c = false) :
    FrameEffect s L f frames s fun _ => [] := by
  refine frameEffect_call (fun _ g mem => Frame.placed_of_plain (calls g mem).1 L)
    (fun c pc mem => absurd rfl (Frame.ne_newConnection_of_plain (calls _ mem).1 c pc))
    (fun c g mem => (calls g mem).2 c) (fun c => ?_) fun c here => ?_
  · rw [List.countP_eq_zero.mpr fun g mem => by simp [Frame.starts_of_plain (calls g mem).1]]
    exact Nat.zero_le _
  · rw [erases] at here
    cases here

theorem handleEventsStep_calls (revents : BitVec 32) (pc : TcpConnection.HandleEventsPc) :
    ∀ g ∈ handleEventsStep c revents pc, (Frame.handleEvents c revents pc).Calls g := by
  cases pc with
  | error => simp [handleEventsStep, Frame.Calls, Frame.plain, Frame.closes]
  | close | read | write =>
    simp only [handleEventsStep]
    split <;> simp [Frame.Calls, Frame.plain, Frame.closes]

theorem handleReadStep_calls (result : Option Bytes) :
    ∀ g ∈ handleReadStep cb c result, (Frame.handleRead c .start).Calls g := by
  rcases result with _ | _ | _ <;> simp only [handleReadStep]
  · simp
  · simp [Frame.Calls, Frame.plain, Frame.closes]
  · split <;> simp [Frame.Calls, Frame.plain, Frame.closes]

theorem handleWriteStep_calls (all : Bool) :
    ∀ g ∈ handleWriteStep cb c all, (Frame.handleWrite c .start).Calls g := by
  simp only [handleWriteStep]
  split <;> simp [Frame.Calls, Frame.plain, Frame.closes]

theorem sendInLoopStep_calls (all : Bool) :
    ∀ g ∈ sendInLoopStep cb s c all, (Frame.sendInLoop c .start).Calls g := by
  simp only [sendInLoopStep]
  split
  · simp
  · split <;> simp [Frame.Calls, Frame.plain, Frame.closes]

theorem forceCloseInLoopStep_calls (pc : CallingPc) :
    ∀ g ∈ forceCloseInLoopStep s c pc, (Frame.forceCloseInLoop c pc).Calls g := by
  cases pc with
  | start =>
    simp only [forceCloseInLoopStep]
    split <;> simp [Frame.Calls, Frame.plain, Frame.closes]
  | called => simp [forceCloseInLoopStep]

theorem clientNewConnectionStep_effect :
    FrameEffect s L (.clientNewConnection c) (clientNewConnectionStep cb s c).1
      (clientNewConnectionStep cb s c).2 fun _ => [] := by
  simp only [clientNewConnectionStep]
  split <;> refine frameEffect_enable (fun _ => rfl) ?_ ?_ ?_ ?_ ?_ <;>
    simp [Frame.Placed, Frame.closes, Frame.starts, Frame.erases]

theorem frameEffect_of_frameStep {result : List Frame × System}
    (server : s.holder.isServer = true) (placed : f.Placed L)
    (taken : frameStep cb s L f answer = some result) :
    ∃ made, FrameEffect s L f result.1 result.2 made := by
  unfold frameStep at taken
  split at taken
  · obtain rfl := Option.some.inj taken
    exact newConnectionStep_effect _ placed server
  · obtain rfl := Option.some.inj taken
    exact ⟨_, clientNewConnectionStep_effect⟩
  · obtain rfl := Option.some.inj taken
    exact ⟨_, enableReadStep_effect _⟩
  · obtain rfl := Option.some.inj taken
    exact ⟨_, frameEffect_plain (handleEventsStep_calls _ _) fun _ => rfl⟩
  · obtain rfl := Option.some.inj taken
    exact ⟨_, frameEffect_plain (handleReadStep_calls _) fun _ => rfl⟩
  · obtain rfl := Option.some.inj taken
    exact ⟨_, frameEffect_plain (handleWriteStep_calls _) fun _ => rfl⟩
  · obtain rfl := Option.some.inj taken
    exact ⟨_, frameEffect_plain (sendInLoopStep_calls _) fun _ => rfl⟩
  · obtain rfl := Option.some.inj taken
    exact ⟨_, frameEffect_plain (by simp) fun _ => rfl⟩
  · obtain rfl := Option.some.inj taken
    exact ⟨_, frameEffect_plain (by simp) fun _ => rfl⟩
  · obtain rfl := Option.some.inj taken
    exact ⟨_, frameEffect_plain (by simp) fun _ => rfl⟩
  · obtain rfl := Option.some.inj taken
    exact ⟨_, handleCloseStep_effect _⟩
  · obtain rfl := Option.some.inj taken
    exact closeCallbackStep_effect server
  · obtain rfl := Option.some.inj taken
    exact ⟨_, handleCloseInLoopStep_effect server⟩
  · obtain rfl := Option.some.inj taken
    exact ⟨_, frameEffect_plain (by simp) fun _ => rfl⟩
  · obtain rfl := Option.some.inj taken
    exact ⟨_, frameEffect_plain (forceCloseInLoopStep_calls _) fun _ => rfl⟩
  · obtain ⟨frames, sent, rfl⟩ := Option.map_eq_some_iff.mp taken
    simp only [clientSendStep] at sent
    split at sent
    · next holder =>
      rw [holder] at server
      cases server
    · cases sent
  · cases taken

/-! ## The work after a step -/

namespace FrameEffect

variable (effect : FrameEffect s L f frames t made) (here : (s.loops L).stack = f :: rest)

include effect

theorem todo_after (rest : List Frame) (L' : LoopId) :
    ((t.setStack L (frames ++ rest)).loops L').todo =
      (if L' = L then frames ++ rest else (s.loops L').stack) ++
        ((s.loops L').phase.left ++ ((s.loops L').tasks ++ made L')).map Task.frame := by
  by_cases same : L' = L
  · subst same
    simp [Loop.todo, System.setStack, System.setLoop, effect.loops]
  · simp [Loop.todo, System.setStack, System.setLoop, effect.loops, same]

theorem made_mem {g : Frame} {L' : LoopId} (mem : g ∈ produced L frames made L') :
    g ∈ ((t.setStack L (frames ++ rest)).loops L').todo := by
  rw [effect.todo_after]
  rcases List.mem_append.mp mem with mem | mem
  · split at mem
    · next same =>
      rw [if_pos same]
      exact List.mem_append_left _ (List.mem_append_left _ mem)
    · cases mem
  · rw [List.map_append, List.map_append]
    exact List.mem_append_right _ (List.mem_append_right _ (List.mem_append_right _ mem))

theorem stack_after (L' : LoopId) :
    ((t.setStack L (frames ++ rest)).loops L').stack =
      if L' = L then frames ++ rest else (s.loops L').stack := by
  by_cases same : L' = L
  · subst same
    simp [System.setStack, System.setLoop]
  · simp [System.setStack, System.setLoop, effect.loops, same]

include here

/-- The work is that before, without the frame and with what it made. -/
theorem todo_perm (L' : LoopId) :
    ((if L' = L then [f] else []) ++ ((t.setStack L (frames ++ rest)).loops L').todo).Perm
      ((s.loops L').todo ++ produced L frames made L') := by
  rw [effect.todo_after, Loop.todo, produced]
  by_cases same : L' = L
  · subst same
    refine List.perm_iff_count.mpr fun g => ?_
    simp only [if_true, here, List.map_append, List.count_append, List.count_cons, List.count_nil]
    omega
  · simp only [if_neg same, List.nil_append, List.map_append, List.append_assoc]
    exact .refl _

theorem countP_todo (p : Frame → Bool) (L' : LoopId) :
    (if L' = L ∧ p f = true then 1 else 0) +
        ((t.setStack L (frames ++ rest)).loops L').todo.countP p =
      (s.loops L').todo.countP p + (produced L frames made L').countP p := by
  have same := (effect.todo_perm here L').countP_eq p
  rw [List.countP_append, List.countP_append] at same
  rw [← same]
  by_cases at' : L' = L <;> simp [at', List.countP_cons]

theorem mem_todo {g : Frame} {L' : LoopId}
    (mem : g ∈ ((t.setStack L (frames ++ rest)).loops L').todo) :
    g ∈ (s.loops L').todo ∨ g ∈ produced L frames made L' := by
  have same := (effect.todo_perm here L').mem_iff (a := g)
  rw [List.mem_append, List.mem_append] at same
  exact same.mp (Or.inr mem)

theorem todo_mem {g : Frame} {L' : LoopId} (mem : g ∈ (s.loops L').todo) :
    g = f ∨ g ∈ ((t.setStack L (frames ++ rest)).loops L').todo := by
  have same := (effect.todo_perm here L').mem_iff (a := g)
  rw [List.mem_append, List.mem_append] at same
  refine (same.mpr (Or.inl mem)).imp (fun own => ?_) id
  split at own
  · exact List.mem_singleton.mp own
  · cases own

theorem creates_after {L' : LoopId}
    (created : ((t.setStack L (frames ++ rest)).loops L').Creates c) : (s.loops L').Creates c := by
  obtain ⟨pc, mem⟩ := created
  rw [effect.stack_after] at mem
  split at mem
  · next same =>
    subst same
    rw [Loop.Creates, here]
    rcases List.mem_append.mp mem with mem | mem
    · obtain ⟨pc', rfl⟩ := effect.creates c pc mem
      exact ⟨pc', List.mem_cons_self⟩
    · exact ⟨pc, List.mem_cons_of_mem _ mem⟩
  · exact ⟨pc, mem⟩

theorem closes_after {L' : LoopId}
    (closes : ((t.setStack L (frames ++ rest)).loops L').Closes c) : (s.loops L').Closes c := by
  obtain ⟨g, mem, closes⟩ := closes
  rw [effect.stack_after] at mem
  split at mem
  · next same =>
    subst same
    rw [Loop.Closes, here]
    rcases List.mem_append.mp mem with mem | mem
    · exact ⟨f, List.mem_cons_self, effect.closes c g mem closes⟩
    · exact ⟨g, List.mem_cons_of_mem _ mem, closes⟩
  · exact ⟨g, mem, closes⟩

end FrameEffect

/-- What the steps beside the frames keep of the work of a loop. -/
structure Loop.Keeps (loop loop' : Loop) : Prop where
  starts : ∀ c, loop'.todo.countP (·.starts c) ≤ loop.todo.countP (·.starts c)
  erases : ∀ c, ∀ f ∈ loop.todo, f.erases c = true → f ∈ loop'.todo
  placed : ∀ f ∈ loop'.todo, f ∈ loop.todo ∨ f.plain = true
  creates : ∀ c, loop'.Creates c → loop.Creates c
  closes : ∀ c, loop'.Creates c → loop'.Closes c → loop.Closes c

namespace Loop.Keeps

theorem refl : loop.Keeps loop where
  starts _ := Nat.le_refl _
  erases _ _ mem _ := mem
  placed _ := Or.inl
  creates _ := id
  closes _ _ := id

theorem phase {phase : Phase} {tasks : List Task}
    (left : phase.left ++ tasks = loop.phase.left ++ loop.tasks) :
    loop.Keeps { loop with phase, tasks } := by
  have todo : Loop.todo { loop with phase, tasks } = loop.todo := by rw [todo, left, todo]
  refine ⟨fun c => ?_, fun c f mem _ => ?_, fun f mem => ?_, fun _ => id, fun _ _ => id⟩
  · rw [todo]
  · rw [todo]
    exact mem
  · rw [todo] at mem
    exact Or.inl mem

/-- A plain frame is pushed that closes no connection which the stack still brings into the map. -/
theorem push (isPlain : f.plain = true) (apart : ∀ c, f.closes c = true → ¬loop.Creates c) :
    loop.Keeps { loop with stack := f :: loop.stack } where
  starts c := by simp [todo, Frame.starts_of_plain isPlain]
  erases c g mem _ := List.mem_cons_of_mem _ mem
  placed g mem := by
    rcases List.mem_cons.mp mem with rfl | mem
    · exact Or.inr isPlain
    · exact Or.inl mem
  creates c := by
    rintro ⟨pc, mem⟩
    rcases List.mem_cons.mp mem with same | mem
    · exact absurd same.symm (Frame.ne_newConnection_of_plain isPlain c pc)
    · exact ⟨pc, mem⟩
  closes c := by
    rintro ⟨pc, created⟩ ⟨g, mem, closes⟩
    rcases List.mem_cons.mp mem with rfl | mem
    · rcases List.mem_cons.mp created with same | created
      · exact absurd same.symm (Frame.ne_newConnection_of_plain isPlain c pc)
      · exact absurd ⟨pc, created⟩ (apart c closes)
    · exact ⟨g, mem, closes⟩

theorem queue {task : Task} (isPlain : task.frame.plain = true) :
    loop.Keeps { loop with tasks := loop.tasks ++ [task] } := by
  have todo : Loop.todo { loop with tasks := loop.tasks ++ [task] } = loop.todo ++ [task.frame] := by
    simp [todo]
  refine ⟨fun c => ?_, fun c g mem _ => ?_, fun g mem => ?_, fun _ => id, fun _ _ => id⟩
  · simp [todo, Frame.starts_of_plain isPlain]
  · rw [todo]
    exact List.mem_append_left _ mem
  · rw [todo] at mem
    refine (List.mem_append.mp mem).imp id fun mem => ?_
    rw [List.mem_singleton.mp mem]
    exact isPlain

/-- User code returns. -/
theorem pop {stack : List Frame} (here : loop.stack = f :: stack) (user : f.isUser = true) :
    loop.Keeps { loop with stack } := by
  have todo : loop.todo = f :: Loop.todo { loop with stack } := by simp [Loop.todo, here]
  have started : ∀ c, f.starts c = false := fun c => by cases f <;> first | rfl | cases user
  have erased : ∀ c, f.erases c = false := fun c => by cases f <;> first | rfl | cases user
  refine ⟨fun c => ?_, fun c g mem erases => ?_, fun g mem => ?_, fun c => ?_, fun c _ => ?_⟩
  · rw [todo, List.countP_cons_of_neg (by simp [started c])]
  · rw [todo] at mem
    rcases List.mem_cons.mp mem with rfl | mem
    · rw [erased c] at erases
      cases erases
    · exact mem
  · rw [todo]
    exact Or.inl (List.mem_cons_of_mem _ mem)
  · rintro ⟨pc, mem⟩
    exact ⟨pc, here ▸ List.mem_cons_of_mem _ mem⟩
  · rintro ⟨g, mem, closes⟩
    exact ⟨g, here ▸ List.mem_cons_of_mem _ mem, closes⟩

/-- An idle loop begins a frame. -/
theorem begin {phase : Phase}
    (todo : Loop.todo ⟨[f], phase, loop.tasks⟩ = loop.todo ∨
      f.plain = true ∧ Loop.todo ⟨[f], phase, loop.tasks⟩ = f :: loop.todo)
    (creates : ∀ c pc, f ≠ .newConnection c pc) : loop.Keeps ⟨[f], phase, loop.tasks⟩ := by
  have none : ∀ c, ¬Loop.Creates ⟨[f], phase, loop.tasks⟩ c := by
    rintro c ⟨pc, mem⟩
    exact creates c pc (List.mem_singleton.mp mem).symm
  rcases todo with todo | ⟨isPlain, todo⟩
  · refine ⟨fun c => ?_, fun c g mem _ => ?_, fun g mem => ?_, fun c created => absurd created (none c),
      fun c created => absurd created (none c)⟩
    · rw [todo]
    · rwa [todo]
    · rw [todo] at mem
      exact Or.inl mem
  · refine ⟨fun c => ?_, fun c g mem _ => ?_, fun g mem => ?_, fun c created => absurd created (none c),
      fun c created => absurd created (none c)⟩
    · rw [todo, List.countP_cons_of_neg (by simp [Frame.starts_of_plain isPlain])]
    · rw [todo]
      exact List.mem_cons_of_mem _ mem
    · rw [todo] at mem
      rcases List.mem_cons.mp mem with rfl | mem
      · exact Or.inr isPlain
      · exact Or.inl mem

end Loop.Keeps

/-- What the steps beside the frames and beside `accept` keep. -/
structure StepKeeps (s s' : System) : Prop where
  loops : ∀ L, (s.loops L).Keeps (s'.loops L)
  holder : s'.holder = s.holder
  nextConnId : s'.nextConnId = s.nextConnId
  conns : ∀ c, s'.conns c = s.conns c ∨
    (s.conns c).state = .kConnected ∧ s'.conns c = { s.conns c with state := .kDisconnecting }
  pending : ∀ t c, s'.pending t = some (.shutdownStore c) → s.pending t = some (.shutdownStore c)

namespace StepKeeps

theorem refl : StepKeeps s s where
  loops _ := .refl
  holder := rfl
  nextConnId := rfl
  conns _ := Or.inl rfl
  pending _ _ := id

theorem setLoop (keeps : (s.loops L).Keeps loop) : StepKeeps s (s.setLoop L loop) where
  loops L' := by
    by_cases same : L' = L
    · subst same
      simpa [System.setLoop] using keeps
    · simpa [System.setLoop, same] using .refl
  holder := rfl
  nextConnId := rfl
  conns _ := Or.inl rfl
  pending _ _ := id

/-- The call of another thread changes. -/
theorem setPending (keeps : StepKeeps s s') {t : Tid} {q : Option Pending}
    (ok : ∀ c, q ≠ some (.shutdownStore c)) : StepKeeps s (s'.setPending t q) where
  loops := keeps.loops
  holder := keeps.holder
  nextConnId := keeps.nextConnId
  conns := keeps.conns
  pending t' c here := by
    by_cases same : t' = t
    · subst same
      exact absurd (by simpa [System.setPending] using here) (ok c)
    · exact keeps.pending t' c (by simpa [System.setPending, same] using here)

theorem setHeld (n : Nat) : StepKeeps s (s.setHeld c n) where
  loops _ := .refl
  holder := rfl
  nextConnId := rfl
  conns _ := Or.inl rfl
  pending _ _ := id

/-- `shutdown` in the loop thread. -/
theorem store (keeps : StepKeeps s s') (connected : (s.conns c).state = .kConnected)
    (same : s'.conns = s.conns) : StepKeeps s (s'.store c .kDisconnecting) where
  loops := keeps.loops
  holder := keeps.holder
  nextConnId := keeps.nextConnId
  conns c' := by
    by_cases own : c' = c
    · subst own
      exact Or.inr ⟨connected, by simp [System.store, System.setConn, same]⟩
    · exact Or.inl (by simp [System.store, System.setConn, same, own])
  pending := keeps.pending

end StepKeeps

/-- The side condition that `forceClose` is not called by the callback that `newConnection` is still
waiting for. -/
def ClosesInserted (s : System) : Label → Prop
  | .call L c .forceClose => ¬(s.loops L).Creates c
  | _ => True

/-- The calls of other threads, of which `shutdown` is not one here. -/
def InScope : Label → Prop
  | .begin _ _ .shutdown => False
  | _ => True

theorem call_keeps {call : Call} (good : ClosesInserted s (.call L c call)) :
    StepKeeps s (s.callStep L c call) := by
  cases call with
  | send =>
    simp only [System.callStep]
    split
    · exact .setLoop (.push rfl fun _ closes => by cases closes)
    · exact .refl
  | shutdown =>
    simp only [System.callStep]
    split
    · next connected =>
      have keeps : StepKeeps s (s.pushFrame L (.shutdownInLoop c)) :=
        .setLoop (.push rfl fun _ closes => by cases closes)
      exact keeps.store connected rfl
    · exact .refl
  | forceClose =>
    simp only [System.callStep]
    split
    · refine .setLoop (.push rfl fun c' closes => ?_)
      rw [← show c = c' from of_decide_eq_true closes]
      exact good
    · exact .refl

theorem begin_keeps {t : Tid} {call : Call} (scope : InScope (.begin t c call)) :
    StepKeeps s (s.beginStep t c call) := by
  cases call with
  | send | forceClose =>
    simp only [System.beginStep]
    split
    · exact .setPending .refl (by simp)
    · exact .refl
  | shutdown => cases scope

theorem resume_keeps {t : Tid} {p : Pending} (scope : ∀ c, p ≠ .shutdownStore c) :
    StepKeeps s (s.resumeStep t p) := by
  cases p with
  | shutdownStore c => exact absurd rfl (scope c)
  | sendTask c | shutdownTask c | forceCloseTask c =>
    have keeps : ∀ task : Task, task.frame.plain = true →
        StepKeeps s ((s.push (s.conns c).loop task).setPending t none) :=
      fun task isPlain => .setPending (.setLoop (.queue isPlain)) (by simp)
    exact keeps _ rfl

theorem next_keeps (idle : (s.loops L).stack = []) (taken : s.nextStep L = some s') :
    StepKeeps s s' := by
  unfold System.nextStep at taken
  split at taken
  · cases taken
  · next here =>
    cases taken
    exact .setLoop (.phase (by simp [here, Phase.left]))
  · next c revents rest here =>
    cases taken
    refine .setLoop (.begin (Or.inr ⟨rfl, ?_⟩) (by simp))
    simp [Loop.todo, idle, here, Phase.left]
  · next rest here =>
    cases taken
    refine .setLoop (.begin (Or.inr ⟨rfl, ?_⟩) (by simp))
    simp [Loop.todo, idle, here, Phase.left]
  · next batch next here =>
    split at taken
    · next task atNext =>
      cases taken
      refine .setLoop (.begin (Or.inl ?_) fun c pc same => by cases task <;> cases same)
      obtain ⟨bound, at'⟩ := List.getElem?_eq_some_iff.mp atNext
      simp [Loop.todo, idle, here, Phase.left, List.drop_eq_getElem_cons bound, at']
    · next atEnd =>
      cases taken
      refine .setLoop (.phase ?_)
      simp [here, Phase.left, List.drop_eq_nil_of_le (List.getElem?_eq_none_iff.mp atEnd)]

theorem stepKeeps_of_step (server : s.holder.isServer = true)
    (pending : ∀ t c, s.pending t ≠ some (.shutdownStore c)) (scope : InScope l)
    (good : ClosesInserted s l) (noRun : ∀ L answer, l ≠ .run L answer) (noAccept : l ≠ .accept)
    (taken : s.step cb l = some s') : StepKeeps s s' := by
  cases l with
  | run L answer => exact absurd rfl (noRun L answer)
  | accept => exact absurd rfl noAccept
  | ret L =>
    obtain ⟨user, taken⟩ := Option.ite_none_right_eq_some.mp taken
    cases taken
    refine .setLoop ?_
    cases stack : (s.loops L).stack with
    | nil => simp [System.top, stack] at user
    | cons f rest => exact .pop stack (by simpa [System.top, stack] using user)
  | next L =>
    obtain ⟨idle, taken⟩ := Option.ite_none_right_eq_some.mp taken
    exact next_keeps idle taken
  | poll L active =>
    obtain ⟨ready, taken⟩ := Option.ite_none_right_eq_some.mp taken
    cases taken
    exact .setLoop (.phase (by simp [ready.2.1, Phase.left]))
  | call L c call =>
    obtain ⟨-, taken⟩ := Option.ite_none_right_eq_some.mp taken
    cases taken
    exact call_keeps good
  | begin t c call =>
    obtain ⟨-, taken⟩ := Option.ite_none_right_eq_some.mp taken
    cases taken
    exact begin_keeps scope
  | resume t =>
    obtain ⟨p, here, rfl⟩ := Option.map_eq_some_iff.mp taken
    exact resume_keeps fun c same => pending t c (same ▸ here)
  | take L =>
    simp only [System.step] at taken
    split at taken
    · cases taken
      exact .setHeld _
    · cases taken
  | copy c | release c =>
    obtain ⟨-, taken⟩ := Option.ite_none_right_eq_some.mp taken
    cases taken
    exact .setHeld _
  | addTask L =>
    cases taken
    exact .setLoop (.queue rfl)
  | clientSend | queueSend =>
    simp [System.step, server] at taken

/-- What `accept` does. -/
structure AcceptSpec (s s' : System) : Prop where
  todo : ∀ L, (s'.loops L).todo =
    (if L = 0 then [.newConnection s.nextConnId .enable] else []) ++ (s.loops L).todo
  stack : ∀ L, ∀ g ∈ (s'.loops L).stack,
    g = .newConnection s.nextConnId .enable ∨ g ∈ (s.loops L).stack
  conns : s'.conns =
    Function.update s.conns s.nextConnId ⟨getNextEventLoop s, .kConnecting, .kNew⟩
  holder : s'.holder = s.holder
  nextConnId : s'.nextConnId = s.nextConnId + 1
  pending : s'.pending = s.pending

theorem acceptSpec_of_acceptStep (server : s.holder.isServer = true)
    (taken : s.acceptStep = some s') : AcceptSpec s s' := by
  unfold System.acceptStep at taken
  split at taken
  · next connections holder =>
    cases taken
    refine ⟨fun L => ?_, fun L g mem => (mem_pushFrame.mp mem).imp And.right id, rfl, rfl, rfl, rfl⟩
    by_cases base : L = 0
    · subst base
      simp [Loop.todo, System.pushFrame, System.setStack, System.setLoop, System.setConn]
    · simp [Loop.todo, System.pushFrame, System.setStack, System.setLoop, System.setConn, base]
  · next holder =>
    rw [holder] at server
    cases server

end Yvent.Endpoint
