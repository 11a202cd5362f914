import Yvent.Endpoint.Work

/-!
# `TcpClient::send`

`send` captures its message in a task that uses `connection_`, run at once in the loop thread and
queued by any other. The system is that of `Endpoint` for a client, which runs on loop 0; to the
send tasks it knows of, this module adds their messages and a history of what became of these.

`connection_` is null until the connection has been established and again once it has been closed,
and the task does not ask.
-/

namespace Yvent

open Endpoint (ConnId System)

namespace TcpClient

/-- A call of `send`. -/
structure Message where
  caller : Caller
  data : Bytes
  deriving DecidableEq, Repr

/-- What `connection_->send(message)` did with the message. -/
inductive Outcome where
  | handed (c : ConnId)
  | dropped
  deriving DecidableEq, Repr

end TcpClient

/-- A client. `queued` holds what the send tasks have captured that have not begun, in the order of
the queue, and `executing` what the executing one has. `issued` lists the calls of `send` and `ran`
what became of those whose task has run. -/
structure TcpClient where
  system : System
  queued : List TcpClient.Message
  executing : Option TcpClient.Message
  issued : List TcpClient.Message
  ran : List (TcpClient.Message × TcpClient.Outcome)

namespace TcpClient

open Endpoint (clientSendStep)

/-- No message has been issued. -/
def start : TcpClient :=
  { system := .start .client, queued := [], executing := none, issued := [], ran := [] }

/-- Calls of `send` and steps of the endpoint. -/
inductive Label where
  /-- `send` in the loop thread. -/
  | send (data : Bytes)
  /-- `send` in another thread. -/
  | sendFrom (t : Tid) (data : Bytes)
  | step (l : Endpoint.Label)
  deriving DecidableEq, Repr

/-- The steps of the loop and of the other threads, without the calls of `send`. -/
def ofClient : Endpoint.Label → Bool
  | .run L _ | .ret L | .next L | .poll L _ | .call L _ _ | .take L | .addTask L => L = 0
  | .accept | .begin _ _ _ | .resume _ | .copy _ | .release _ => true
  | .clientSend | .queueSend => false

/-- What a `send` task does with its message in this state. -/
def outcome (s : System) : Outcome :=
  match clientSendStep s with
  | some (.sendInLoop c _ :: _) => .handed c
  | _ => .dropped

/-- The messages go with their tasks. -/
def follow (w : TcpClient) (l : Endpoint.Label) (system : System) : TcpClient :=
  match l, w.system.top 0, w.executing with
  | .run _ _, some .clientSend, some m =>
    { w with system, executing := none, ran := w.ran ++ [(m, outcome w.system)] }
  | .next _, _, _ =>
    if system.top 0 = some .clientSend then
      { w with system, executing := w.queued.head?, queued := w.queued.tail }
    else { w with system }
  | _, _, _ => { w with system }

/-- One step, with the messages followed beside it. -/
def step (cb : Callbacks) (w : TcpClient) : Label → Option TcpClient
  | .send data => (w.system.step cb .clientSend).map fun system =>
    { w with system, executing := some ⟨.loop, data⟩, issued := w.issued ++ [⟨.loop, data⟩] }
  | .sendFrom t data => (w.system.step cb .queueSend).map fun system =>
    { w with
      system, queued := w.queued ++ [⟨.other t, data⟩], issued := w.issued ++ [⟨.other t, data⟩] }
  | .step l => if ofClient l then (w.system.step cb l).map (w.follow l) else none

/-- The connection has been established, and `handleClose` has not deregistered it. -/
def Established (s : System) : Prop := 0 < s.nextConnId ∧ ¬s.Closed 0

/-- The side condition that a send task begins only while the connection is established. -/
def SendsEstablished (w : TcpClient) : Label → Prop
  | .send _ => Established w.system
  | .step (.next L) => (w.system.loops L).phase.left.head? = some .clientSend → Established w.system
  | _ => True

instance (s : System) (c : ConnId) : Decidable (s.Closed c) := inferInstanceAs (Decidable (_ = _))

instance (s : System) : Decidable (Established s) := inferInstanceAs (Decidable (_ ∧ _))

instance (w : TcpClient) : (l : Label) → Decidable (SendsEstablished w l)
  | .send _ => inferInstanceAs (Decidable (Established _))
  | .step (.next _) => inferInstanceAs (Decidable (_ → _))
  | .sendFrom _ _ | .step (.run _ _) | .step (.ret _) | .step (.poll _ _) | .step (.call _ _ _)
  | .step (.take _) | .step (.addTask _) | .step .accept | .step (.begin _ _ _) | .step (.resume _)
  | .step (.copy _) | .step (.release _) | .step .clientSend | .step .queueSend => isTrue trivial

/-- The messages of one thread, in order. -/
def sentBy (caller : Caller) (messages : List Message) : List Message :=
  messages.filter fun m => m.caller = caller

/-- The task that was executing has run: its message is handed to a connection that is connected,
and nothing else happens. -/
def Ran (w w' : TcpClient) : Prop :=
  ∃ m c rest, w.executing = some m ∧ w.system.holder = .client (some c) ∧
    (w.system.loops 0).stack = .clientSend :: rest ∧
    w' = if (w.system.conns c).state = .kConnected then
        { w with
          system := w.system.setStack 0 (.sendInLoop c .start :: rest), executing := none,
          ran := w.ran ++ [(m, .handed c)] }
      else
        { w with
          system := w.system.setStack 0 rest, executing := none, ran := w.ran ++ [(m, .dropped)] }

/-- The use of `connection_` has a connection and does what it should, and the messages of each
thread are run in the order of its calls. -/
structure SendsSafely (cb : Callbacks) (w : TcpClient) : Prop where
  nonNull : w.system.top 0 = some .clientSend → w.system.holder ≠ .client none
  runs : w.system.top 0 = some .clientSend →
    ∃ w', step cb w (.step (.run 0 .silent)) = some w' ∧ Ran w w'
  inOrder : ∀ caller, sentBy caller w.issued =
    sentBy caller (w.ran.map Prod.fst ++ w.executing.toList ++ w.queued)

open Endpoint (Answer Call ChannelState Frame Holder LoopId Pending Phase Task)

variable {cb : Callbacks} {s s' t : System} {l : Endpoint.Label} {L : LoopId} {f : Frame}
  {frames rest : List Frame} {answer : Answer} {task : Task} {c : ConnId} {w w' : TcpClient}
  {messages messages' : List Message} {caller : Caller}

/-! ## The send tasks in the queue -/

/-- The number of send tasks that have not begun. -/
def sends (s : System) : Nat :=
  ((s.loops 0).phase.left ++ (s.loops 0).tasks).count .clientSend

@[simp] theorem sends_setStack (stack : List Frame) : sends (s.setStack L stack) = sends s := by
  by_cases same : 0 = L
  · subst same
    simp [sends, System.setStack, System.setLoop]
  · simp [sends, System.setStack, System.setLoop, same]

@[simp] theorem sends_pushFrame : sends (s.pushFrame L f) = sends s := sends_setStack _

theorem sends_push (other : task ≠ .clientSend) : sends (s.push L task) = sends s := by
  by_cases same : 0 = L
  · subst same
    simp [sends, System.push, System.setLoop, other]
  · simp [sends, System.push, System.setLoop, same]

theorem sends_push_clientSend : sends (s.push 0 .clientSend) = sends s + 1 := by
  simp [sends, System.push, System.setLoop]
  omega

@[simp] theorem sends_enable : sends (s.enable c) = sends s := rfl
@[simp] theorem sends_store (state : ConnectionState) : sends (s.store c state) = sends s := rfl
@[simp] theorem sends_holder (holder : Holder) : sends { s with holder } = sends s := rfl
@[simp] theorem sends_setPending (t : Tid) (p : Option Pending) :
    sends (s.setPending t p) = sends s := rfl
@[simp] theorem sends_setHeld (n : Nat) : sends (s.setHeld c n) = sends s := rfl

/-! ## The steps beside `send` -/

/-- A step that neither begins, runs nor queues a send task: one of another thread, or one of the
loop. -/
inductive Beside (s s' : System) : Prop
  | thread (stack : (s'.loops 0).stack = (s.loops 0).stack) (ids : s'.nextConnId = s.nextConnId)
      (channel : ∀ c, (s'.conns c).channel = (s.conns c).channel) (same : sends s' = sends s)
  | loop (other : s.top 0 ≠ some .clientSend)
      (none : .clientSend ∉ (s.loops 0).stack → .clientSend ∉ (s'.loops 0).stack)
      (same : sends s' = sends s)

/-- No other function leads to the use of `connection_`, or queues it. -/
theorem frameStep_beside {result : List Frame × System} (other : f ≠ .clientSend)
    (taken : Endpoint.frameStep cb s L f answer = some result) :
    .clientSend ∉ result.1 ∧ sends result.2 = sends s := by
  unfold Endpoint.frameStep at taken
  split at taken
  · next c pc =>
    obtain rfl := Option.some.inj taken
    cases pc with
    | enable =>
      simp only [Endpoint.newConnectionStep]
      split <;> simp [sends_push]
    | insert => exact ⟨by simp [Endpoint.newConnectionStep], rfl⟩
  · obtain rfl := Option.some.inj taken
    simp only [Endpoint.clientNewConnectionStep]
    split <;> simp
  · next c pc =>
    obtain rfl := Option.some.inj taken
    cases pc with
    | start =>
      simp only [Endpoint.enableReadStep]
      split <;> simp
    | done => exact ⟨by simp [Endpoint.enableReadStep], rfl⟩
  · next c revents pc =>
    obtain rfl := Option.some.inj taken
    cases pc with
    | error => exact ⟨by simp [Endpoint.handleEventsStep], rfl⟩
    | close | read | write =>
      simp only [Endpoint.handleEventsStep]
      split <;> simp
  · next c data =>
    obtain rfl := Option.some.inj taken
    rcases data with _ | _ | ⟨b, data⟩ <;> simp only [Endpoint.handleReadStep] <;> (try split) <;>
      simp
  · obtain rfl := Option.some.inj taken
    simp only [Endpoint.handleWriteStep]
    split <;> simp
  · obtain rfl := Option.some.inj taken
    simp only [Endpoint.sendInLoopStep]
    repeat' split
    all_goals simp
  · obtain rfl := Option.some.inj taken
    exact ⟨by simp, rfl⟩
  · obtain rfl := Option.some.inj taken
    exact ⟨by simp, rfl⟩
  · obtain rfl := Option.some.inj taken
    exact ⟨by simp, rfl⟩
  · next c pc =>
    obtain rfl := Option.some.inj taken
    cases pc with
    | notify =>
      simp only [Endpoint.handleCloseStep]
      split <;> simp
    | store | notified | close | closed => exact ⟨by simp [Endpoint.handleCloseStep], rfl⟩
  · obtain rfl := Option.some.inj taken
    simp only [Endpoint.closeCallbackStep]
    repeat' split
    all_goals simp [sends_push]
  · obtain rfl := Option.some.inj taken
    exact ⟨by simp [Endpoint.handleCloseInLoopStep], rfl⟩
  · obtain rfl := Option.some.inj taken
    exact ⟨by simp, rfl⟩
  · next c pc =>
    obtain rfl := Option.some.inj taken
    cases pc with
    | start =>
      simp only [Endpoint.forceCloseInLoopStep]
      split <;> simp
    | called => exact ⟨by simp [Endpoint.forceCloseInLoopStep], rfl⟩
  · exact absurd rfl other
  · cases taken

theorem top_eq (here : (s.loops 0).stack = f :: rest) : s.top 0 = some f := by
  rw [System.top, here]
  rfl

theorem top_ne_of_isUser (user : (s.top 0).any Frame.isUser = true) :
    s.top 0 ≠ some .clientSend := by
  intro same
  rw [same] at user
  cases user

/-- User code makes a call. -/
theorem beside_pushFrame (user : (s.top 0).any Frame.isUser = true) (other : f ≠ .clientSend) :
    Beside s (s.pushFrame 0 f) := by
  refine .loop (top_ne_of_isUser user) (fun none => ?_) (sends_pushFrame)
  simpa [System.pushFrame, System.setStack, System.setLoop] using ⟨Ne.symm other, none⟩

theorem call_beside {call : Call} (user : (s.top 0).any Frame.isUser = true) :
    Beside s (s.callStep 0 c call) := by
  have same : Beside s s := .thread rfl rfl (fun _ => rfl) rfl
  cases call with
  | send =>
    simp only [System.callStep]
    split
    · exact beside_pushFrame user (by simp)
    · exact same
  | shutdown =>
    simp only [System.callStep]
    split
    · refine .loop (top_ne_of_isUser user) (fun none => ?_) (by simp)
      simpa [System.pushFrame, System.setStack, System.setLoop, System.store, System.setConn]
        using none
    · exact same
  | forceClose =>
    simp only [System.callStep]
    split
    · exact beside_pushFrame user (by simp)
    · exact same

theorem begin_beside {tid : Tid} {call : Call} : Beside s (s.beginStep tid c call) := by
  have same : Beside s s := .thread rfl rfl (fun _ => rfl) rfl
  have pends : ∀ p : Pending, Beside s (s.setPending tid (some p)) := fun _ =>
    .thread rfl rfl (fun _ => rfl) rfl
  cases call <;> simp only [System.beginStep] <;> split <;> first | exact pends _ | exact same

theorem beside_push (other : task ≠ .clientSend) : Beside s (s.push L task) := by
  refine .thread ?_ rfl (fun _ => rfl) (sends_push other)
  by_cases same : 0 = L
  · subst same
    simp [System.push, System.setLoop]
  · simp [System.push, System.setLoop, same]

theorem resume_beside {tid : Tid} {p : Pending} : Beside s (s.resumeStep tid p) := by
  have queues : ∀ (L : LoopId) (task : Task), task ≠ .clientSend →
      Beside s ((s.setPending tid none).push L task) := by
    intro L task other
    cases beside_push (s := s.setPending tid none) (L := L) other with
    | thread stack ids channel same => exact .thread stack ids channel same
    | loop user none same => exact .loop user none same
  cases p with
  | sendTask | shutdownTask | forceCloseTask => exact queues _ _ (by simp)
  | shutdownStore c =>
    refine .thread rfl rfl (fun c' => ?_) rfl
    by_cases same : c' = c
    · subst same
      simp [System.resumeStep, System.store, System.setConn, System.setPending]
    · simp [System.resumeStep, System.store, System.setConn, System.setPending, same]

/-- The loop between two frames, when it does not begin a send task. -/
theorem next_beside (idle : (s.loops 0).stack = []) (other : s'.top 0 ≠ some .clientSend)
    (taken : s.nextStep 0 = some s') : Beside s s' := by
  have notSend : s.top 0 ≠ some .clientSend := by
    rw [System.top, idle]
    simp
  unfold System.nextStep at taken
  split at taken
  · cases taken
  · next here =>
    cases taken
    refine .loop notSend (by simp [System.setLoop]) ?_
    simp [sends, System.setLoop, here, Phase.left]
  · next c revents left here =>
    cases taken
    refine .loop notSend (by simp [System.setLoop]) ?_
    simp [sends, System.setLoop, here, Phase.left]
  · next left here =>
    cases taken
    refine .loop notSend (by simp [System.setLoop]) ?_
    simp [sends, System.setLoop, here, Phase.left]
  · next batch next here =>
    split at taken
    · next task atNext =>
      cases taken
      have notTask : task ≠ .clientSend := by
        rintro rfl
        exact other (by simp [System.top, System.setLoop, Task.frame])
      have notFrame : task.frame ≠ .clientSend := by
        cases task <;> first | exact absurd rfl notTask | simp [Task.frame]
      obtain ⟨bound, at'⟩ := List.getElem?_eq_some_iff.mp atNext
      refine .loop notSend (fun _ => ?_) ?_
      · simpa [System.setLoop] using Ne.symm notFrame
      · simp [sends, System.setLoop, here, Phase.left, List.drop_eq_getElem_cons bound, at',
          notTask]
    · next atEnd =>
      cases taken
      refine .loop notSend (by simp [System.setPhase, System.setLoop]) ?_
      simp [sends, System.setPhase, System.setLoop, here, Phase.left,
        List.drop_eq_nil_of_le (List.getElem?_eq_none_iff.mp atEnd)]

theorem accept_beside (user : s.top 0 = some .other) (taken : s.acceptStep = some s') :
    Beside s s' := by
  have notSend : s.top 0 ≠ some .clientSend := by simp [user]
  unfold System.acceptStep at taken
  split at taken
  · cases taken
    refine .loop notSend (fun none => ?_) ?_
    · simpa [System.pushFrame, System.setStack, System.setLoop, System.setConn] using none
    · exact sends_pushFrame
  · obtain ⟨-, taken⟩ := Option.ite_none_right_eq_some.mp taken
    cases taken
    refine .loop notSend (fun none => ?_) ?_
    · simpa [System.pushFrame, System.setStack, System.setLoop, System.setConn] using none
    · exact sends_pushFrame

/-- The steps of the loop and of the other threads that neither begin nor run a send task. -/
theorem beside_of_step (ofClient : ofClient l = true)
    (notRun : ∀ answer, l = .run 0 answer → s.top 0 ≠ some .clientSend)
    (notNext : l = .next 0 → s'.top 0 ≠ some .clientSend) (taken : s.step cb l = some s') :
    Beside s s' := by
  have same : ∀ c n, Beside s (s.setHeld c n) := fun _ _ => .thread rfl rfl (fun _ => rfl) rfl
  cases l with
  | run L answer =>
    obtain rfl : L = 0 := of_decide_eq_true ofClient
    simp only [System.step] at taken
    split at taken
    · cases taken
    · next f rest here =>
      obtain ⟨⟨frames, t⟩, ran, rfl⟩ := Option.map_eq_some_iff.mp taken
      have notSend := notRun answer rfl
      rw [top_eq here] at notSend
      obtain ⟨none, kept⟩ := frameStep_beside (fun same => notSend (congrArg some same)) ran
      refine .loop (by rw [top_eq here]; exact notSend) (fun below => ?_) (by simpa using kept)
      rw [here, List.mem_cons, not_or] at below
      simpa [System.setStack, System.setLoop] using ⟨none, below.2⟩
  | ret L =>
    obtain rfl : L = 0 := of_decide_eq_true ofClient
    obtain ⟨user, taken⟩ := Option.ite_none_right_eq_some.mp taken
    cases taken
    refine .loop (top_ne_of_isUser user) (fun none => ?_) (by simp)
    simpa [System.setStack, System.setLoop] using fun mem => none (List.mem_of_mem_tail mem)
  | next L =>
    obtain rfl : L = 0 := of_decide_eq_true ofClient
    obtain ⟨idle, taken⟩ := Option.ite_none_right_eq_some.mp taken
    exact next_beside idle (notNext rfl) taken
  | poll L active =>
    obtain rfl : L = 0 := of_decide_eq_true ofClient
    obtain ⟨ready, taken⟩ := Option.ite_none_right_eq_some.mp taken
    cases taken
    refine .loop (by simp [System.top, ready.1]) (by simp [System.setPhase, System.setLoop]) ?_
    simp [sends, System.setPhase, System.setLoop, ready.2.1, Phase.left]
  | accept =>
    obtain ⟨user, taken⟩ := Option.ite_none_right_eq_some.mp taken
    exact accept_beside user taken
  | call L c call =>
    obtain rfl : L = 0 := of_decide_eq_true ofClient
    obtain ⟨can, taken⟩ := Option.ite_none_right_eq_some.mp taken
    cases taken
    exact call_beside can.2.1
  | begin tid c call =>
    obtain ⟨-, taken⟩ := Option.ite_none_right_eq_some.mp taken
    cases taken
    exact begin_beside
  | resume tid =>
    obtain ⟨p, -, rfl⟩ := Option.map_eq_some_iff.mp taken
    exact resume_beside
  | take L =>
    simp only [System.step] at taken
    split at taken
    · cases taken
      exact same _ _
    · cases taken
  | copy c | release c =>
    obtain ⟨-, taken⟩ := Option.ite_none_right_eq_some.mp taken
    cases taken
    exact same _ _
  | addTask L =>
    cases taken
    exact beside_push (by simp)
  | clientSend | queueSend => cases ofClient

/-! ## Orders of messages -/

theorem sentBy_append : sentBy caller (messages ++ messages') =
    sentBy caller messages ++ sentBy caller messages' :=
  List.filter_append messages messages'

/-- A message of the loop thread overtakes only those of other threads. -/
theorem sentBy_append_comm {m : Message} (own : m.caller = .loop)
    (others : ∀ m ∈ messages, m.caller ≠ .loop) :
    sentBy caller ([m] ++ messages) = sentBy caller (messages ++ [m]) := by
  rw [sentBy_append, sentBy_append]
  by_cases loop : caller = .loop
  · have none : sentBy caller messages = [] := by
      refine List.filter_eq_nil_iff.mpr fun m mem => ?_
      simpa [loop] using others m mem
    rw [none, List.append_nil, List.nil_append]
  · have none : sentBy caller [m] = [] := by
      refine List.filter_eq_nil_iff.mpr fun m' mem => ?_
      rw [List.mem_singleton.mp mem, own]
      simpa using Ne.symm loop
    rw [none, List.append_nil, List.nil_append]

/-! ## Runs -/

/-- Every send task has its message, and the connection is established while one is executing. -/
structure Inv (w : TcpClient) : Prop where
  sound : Endpoint.Sound w.system
  client : w.system.holder.isServer = false
  captured : w.queued.length = sends w.system
  others : ∀ m ∈ w.queued, m.caller ≠ .loop
  executing : w.system.top 0 = some .clientSend ↔ w.executing.isSome = true
  below : .clientSend ∉ (w.system.loops 0).stack.tail
  established : w.system.top 0 = some .clientSend → Established w.system
  inOrder : ∀ caller, sentBy caller w.issued =
    sentBy caller (w.ran.map Prod.fst ++ w.executing.toList ++ w.queued)

theorem not_mem_of_top (other : s.top 0 ≠ some .clientSend)
    (below : .clientSend ∉ (s.loops 0).stack.tail) : .clientSend ∉ (s.loops 0).stack := by
  cases here : (s.loops 0).stack with
  | nil => simp
  | cons f rest =>
    rw [top_eq here] at other
    rw [here] at below
    rw [List.mem_cons, not_or]
    exact ⟨fun same => other (congrArg some same.symm), below⟩

theorem top_ne_of_not_mem (none : .clientSend ∉ (s.loops 0).stack) :
    s.top 0 ≠ some .clientSend := by
  intro same
  obtain ⟨rest, here⟩ := List.head?_eq_some_iff.mp same
  rw [here] at none
  exact none List.mem_cons_self

/-- Between the send tasks. -/
theorem Inv.aside (inv : Inv w) (beside : Beside w.system s) (sound : Endpoint.Sound s)
    (client : s.holder.isServer = false) : Inv { w with system := s } := by
  cases beside with
  | thread stack ids channel same =>
    have top : s.top 0 = w.system.top 0 := congrArg List.head? stack
    refine ⟨sound, client, inv.captured.trans same.symm, inv.others, ?_, ?_, ?_, inv.inOrder⟩
    · rw [top]
      exact inv.executing
    · rw [stack]
      exact inv.below
    · rw [top, Established, ids, System.Closed, channel]
      exact inv.established
  | loop other none same =>
    have gone := none (not_mem_of_top other inv.below)
    have top := top_ne_of_not_mem gone
    refine ⟨sound, client, inv.captured.trans same.symm, inv.others, ?_, ?_, ?_, inv.inOrder⟩
    · have idle : w.executing.isSome ≠ true := fun busy => other (inv.executing.mpr busy)
      exact ⟨fun here => absurd here top, fun busy => absurd busy idle⟩
    · exact fun mem => gone (List.mem_of_mem_tail mem)
    · exact fun here => absurd here top

/-- `send` in the loop thread. -/
theorem Inv.send {data : Bytes} (inv : Inv w) (good : Established w.system)
    (taken : w.system.step cb .clientSend = some s) (sound : Endpoint.Sound s)
    (client : s.holder.isServer = false) :
    Inv { w with
      system := s, executing := some ⟨.loop, data⟩, issued := w.issued ++ [⟨.loop, data⟩] } := by
  obtain ⟨⟨-, user⟩, taken⟩ := Option.ite_none_right_eq_some.mp taken
  cases taken
  have other := top_ne_of_isUser user
  have idle : w.executing = none := by
    by_contra busy
    exact other (inv.executing.mpr (Option.isSome_iff_ne_none.mpr busy))
  have pushed : ((w.system.pushFrame 0 .clientSend).loops 0).stack =
      .clientSend :: (w.system.loops 0).stack := by
    simp [System.pushFrame, System.setStack, System.setLoop]
  refine ⟨sound, client, inv.captured.trans sends_pushFrame.symm, inv.others, ?_, ?_, fun _ => good,
    fun caller => ?_⟩
  · simp [top_eq pushed]
  · rw [pushed]
    exact not_mem_of_top other inv.below
  · have order := inv.inOrder caller
    rw [idle, Option.toList_none, List.append_nil] at order
    rw [sentBy_append, order, Option.toList_some, List.append_assoc, sentBy_append, sentBy_append,
      sentBy_append_comm rfl inv.others, sentBy_append, List.append_assoc]

/-- `send` in another thread. -/
theorem Inv.sendFrom {tid : Tid} {data : Bytes} (inv : Inv w)
    (taken : w.system.step cb .queueSend = some s) (sound : Endpoint.Sound s)
    (client : s.holder.isServer = false) :
    Inv { w with
      system := s, queued := w.queued ++ [⟨.other tid, data⟩],
      issued := w.issued ++ [⟨.other tid, data⟩] } := by
  obtain ⟨-, taken⟩ := Option.ite_none_right_eq_some.mp taken
  cases taken
  have stack : ((w.system.push 0 .clientSend).loops 0).stack = (w.system.loops 0).stack := by
    simp [System.push, System.setLoop]
  have top : (w.system.push 0 .clientSend).top 0 = w.system.top 0 := congrArg List.head? stack
  refine ⟨sound, client, ?_, ?_, ?_, ?_, ?_, fun caller => ?_⟩
  · rw [List.length_append, inv.captured, sends_push_clientSend]
    rfl
  · intro m mem
    rcases List.mem_append.mp mem with mem | mem
    · exact inv.others m mem
    · rw [List.mem_singleton.mp mem]
      simp
  · rw [top]
    exact inv.executing
  · rw [stack]
    exact inv.below
  · rw [top]
    exact inv.established
  · rw [sentBy_append, inv.inOrder caller, ← sentBy_append, List.append_assoc]

/-- The loop begins the send task that is next. -/
theorem begins_of_next (begun : s'.top 0 = some .clientSend) (idle : (s.loops 0).stack = [])
    (taken : s.nextStep 0 = some s') : (s.loops 0).phase.left.head? = some .clientSend ∧
      (s'.loops 0).stack = [.clientSend] ∧ sends s = sends s' + 1 ∧ s'.conns = s.conns ∧
      s'.nextConnId = s.nextConnId := by
  unfold System.nextStep at taken
  split at taken
  · cases taken
  · cases taken
    simp [System.top, System.setLoop, idle] at begun
  · cases taken
    simp [System.top, System.setLoop] at begun
  · cases taken
    simp [System.top, System.setLoop] at begun
  · next batch next here =>
    split at taken
    · next task atNext =>
      cases taken
      obtain rfl : task = .clientSend := by
        cases task <;> simp [System.top, System.setLoop, Task.frame] at begun ⊢
      obtain ⟨bound, at'⟩ := List.getElem?_eq_some_iff.mp atNext
      refine ⟨?_, by simp [System.setLoop, Task.frame], ?_, rfl, rfl⟩
      · simp [here, Phase.left, List.drop_eq_getElem_cons bound, at']
      · simp [sends, System.setLoop, here, Phase.left, List.drop_eq_getElem_cons bound, at']
    · cases taken
      simp [System.top, System.setPhase, System.setLoop, idle] at begun

theorem Inv.next (inv : Inv w) (begun : s.top 0 = some .clientSend)
    (good : (w.system.loops 0).phase.left.head? = some .clientSend → Established w.system)
    (taken : w.system.step cb (.next 0) = some s) (sound : Endpoint.Sound s)
    (client : s.holder.isServer = false) :
    Inv { w with system := s, executing := w.queued.head?, queued := w.queued.tail } := by
  obtain ⟨idle, taken⟩ := Option.ite_none_right_eq_some.mp taken
  obtain ⟨first, stack, fewer, conns, ids⟩ := begins_of_next begun idle taken
  have captured := inv.captured
  have free : w.executing = none := by
    by_contra busy
    have top := inv.executing.mpr (Option.isSome_iff_ne_none.mpr busy)
    rw [System.top, idle] at top
    cases top
  cases queue : w.queued with
  | nil =>
    rw [queue, fewer] at captured
    cases captured
  | cons m queued =>
    rw [queue, List.length_cons] at captured
    refine ⟨sound, client, by simp only [List.tail_cons]; omega, ?_, ?_, ?_, fun _ => ?_,
      fun caller => ?_⟩
    · exact fun m mem => inv.others m (queue ▸ List.mem_cons_of_mem _ mem)
    · simp [begun]
    · rw [stack]
      simp
    · rw [Established, System.Closed, ids, conns]
      exact good first
    · have order := inv.inOrder caller
      rw [free, queue] at order
      simpa using order

/-- The step of a send task while the connection is established. -/
theorem Inv.runs (cb : Callbacks) (inv : Inv w) (top : w.system.top 0 = some .clientSend) :
    w.system.holder ≠ .client none ∧
      ∃ w', step cb w (.step (.run 0 .silent)) = some w' ∧ Ran w w' := by
  obtain ⟨ids, opened⟩ := inv.established top
  obtain ⟨rest, here⟩ := List.head?_eq_some_iff.mp top
  obtain ⟨m, captured⟩ := Option.isSome_iff_exists.mp (inv.executing.mp top)
  -- the connection is owned by the client, as there is no `newConnection` of a server
  have owned : w.system.holder = .client (some 0) := by
    rcases inv.sound.kept 0 ids opened with mem | ⟨L, pc, mem⟩
    · cases holder : w.system.holder with
      | server connections =>
        have client := inv.client
        rw [holder] at client
        cases client
      | client connection =>
        rw [holder] at mem
        rw [Option.mem_toList.mp mem]
    · have server := (inv.sound.frames L _ mem).2
      rw [inv.client] at server
      cases server
  refine ⟨by rw [owned]; simp, ?_⟩
  have enabled : step cb w (.step (.run 0 .silent)) =
      ((clientSendStep w.system).map fun frames => w.system.setStack 0 (frames ++ rest)).map
        (w.follow (.run 0 .silent)) := by
    simp [step, ofClient, System.step, here, Endpoint.frameStep, Option.map_map, Function.comp_def]
  by_cases connected : (w.system.conns 0).state = .kConnected
  · have sent : clientSendStep w.system = some [.sendInLoop 0 .start] := by
      simp [clientSendStep, owned, connected]
    refine ⟨_, enabled.trans (by rw [sent]; rfl), m, 0, rest, captured, owned, here, ?_⟩
    rw [if_pos connected]
    simp [follow, top, captured, outcome, sent]
  · have dropped : clientSendStep w.system = some [] := by
      simp [clientSendStep, owned, connected]
    refine ⟨_, enabled.trans (by rw [dropped]; rfl), m, 0, rest, captured, owned, here, ?_⟩
    rw [if_neg connected]
    simp [follow, top, captured, outcome, dropped]

/-- A message has been handed over or dropped. -/
theorem Inv.ran (inv : Inv w) (ran : Ran w w') (sound : Endpoint.Sound w'.system)
    (client : w'.system.holder.isServer = false) : Inv w' := by
  obtain ⟨m, c, rest, captured, -, here, result⟩ := ran
  have below : .clientSend ∉ rest := by
    have below := inv.below
    rw [here] at below
    exact below
  have after : ∀ (stack : List Frame) (outcome : Outcome), .clientSend ∉ stack →
      w' = { w with
        system := w.system.setStack 0 stack, executing := none, ran := w.ran ++ [(m, outcome)] } →
      Inv w' := by
    rintro stack outcome none rfl
    have now : ((w.system.setStack 0 stack).loops 0).stack = stack := by
      simp [System.setStack, System.setLoop]
    have gone : (w.system.setStack 0 stack).top 0 ≠ some .clientSend :=
      top_ne_of_not_mem (by rw [now]; exact none)
    refine ⟨sound, client, inv.captured.trans (sends_setStack _).symm, inv.others, ?_, ?_, ?_,
      fun caller => ?_⟩
    · exact ⟨fun top => absurd top gone, fun busy => absurd busy (by simp)⟩
    · rw [now]
      exact fun mem => none (List.mem_of_mem_tail mem)
    · exact fun top => absurd top gone
    · rw [inv.inOrder caller, captured]
      simp
  split at result
  · exact after _ _ (by simpa using below) result
  · exact after _ _ below result

theorem follow_of_other {system : System}
    (notRun : ∀ answer, l = .run 0 answer → w.system.top 0 ≠ some .clientSend)
    (notNext : l = .next 0 → system.top 0 ≠ some .clientSend) (ofClient : ofClient l = true) :
    w.follow l system = { w with system } := by
  unfold follow
  split
  · next _ _ L answer m top captured =>
    obtain rfl : L = 0 := of_decide_eq_true ofClient
    exact absurd top (notRun answer rfl)
  · next _ _ L =>
    obtain rfl : L = 0 := of_decide_eq_true ofClient
    rw [if_neg (notNext rfl)]
  · rfl

theorem Inv.step_of_loop (inv : Inv w) (good : SendsEstablished w (.step l))
    (taken : step cb w (.step l) = some w') : Inv w' := by
  obtain ⟨here, taken'⟩ := Option.ite_none_right_eq_some.mp taken
  obtain ⟨s, moved, rfl⟩ := Option.map_eq_some_iff.mp taken'
  have sound : Endpoint.Sound s := inv.sound.step moved
  have client : s.holder.isServer = false :=
    (inv.sound.stepSpec_of_step moved).forward.isServer.trans inv.client
  by_cases runs : ∃ answer, l = .run 0 answer ∧ w.system.top 0 = some .clientSend
  · obtain ⟨answer, rfl, top⟩ := runs
    obtain ⟨rest, stack⟩ := List.head?_eq_some_iff.mp top
    obtain rfl : answer = .silent := by
      cases answer with
      | silent => rfl
      | read | wrote => simp [System.step, stack, Endpoint.frameStep] at moved
    obtain ⟨-, w', same, ran⟩ := inv.runs cb top
    obtain rfl := Option.some.inj (same.symm.trans taken)
    have kept : (w.follow (.run 0 .silent) s).system = s := by
      unfold follow
      split <;> first | rfl | (split <;> rfl)
    exact inv.ran ran (by rw [kept]; exact sound) (by rw [kept]; exact client)
  by_cases begins : l = .next 0 ∧ s.top 0 = some .clientSend
  · obtain ⟨rfl, begun⟩ := begins
    have followed : w.follow (.next 0) s =
        { w with system := s, executing := w.queued.head?, queued := w.queued.tail } := by
      simp [follow, begun]
    rw [followed]
    exact inv.next begun good moved sound client
  · have notRun : ∀ answer, l = .run 0 answer → w.system.top 0 ≠ some .clientSend :=
      fun answer same top => runs ⟨answer, same, top⟩
    have notNext : l = .next 0 → s.top 0 ≠ some .clientSend := fun same top => begins ⟨same, top⟩
    rw [follow_of_other notRun notNext here]
    exact inv.aside (beside_of_step here notRun notNext moved) sound client

theorem Inv.step {l : Label} (inv : Inv w) (good : SendsEstablished w l)
    (taken : step cb w l = some w') : Inv w' := by
  cases l with
  | send data =>
    obtain ⟨s, moved, rfl⟩ := Option.map_eq_some_iff.mp taken
    exact inv.send good moved (inv.sound.step moved)
      ((inv.sound.stepSpec_of_step moved).forward.isServer.trans inv.client)
  | sendFrom tid data =>
    obtain ⟨s, moved, rfl⟩ := Option.map_eq_some_iff.mp taken
    exact inv.sendFrom moved (inv.sound.step moved)
      ((inv.sound.stepSpec_of_step moved).forward.isServer.trans inv.client)
  | step l => exact inv.step_of_loop good taken

theorem inv_start : Inv start where
  sound := (Endpoint.sound_start : Endpoint.Sound (.start .client))
  client := rfl
  captured := rfl
  others := by simp [start]
  executing := by decide
  below := by decide
  established := by decide
  inOrder _ := rfl

/-- In every run in which a send task begins only while the connection is established, no task uses
a null `connection_`, a message is handed over exactly when the connection is connected and dropped
without any other effect when it is not, and the messages of each thread are run in order. -/
theorem sendsSafely_of_established (reached : Reaches (step cb) SendsEstablished start w) :
    SendsSafely cb w := by
  have inv : Inv w :=
    reached.invariant inv_start fun _ _ _ _ inv good taken => inv.step good taken
  exact ⟨fun top => (inv.runs cb top).1, fun top => (inv.runs cb top).2, inv.inOrder⟩

/-- The connection callback sends a message, another thread queues one, and the callback shuts the
connection down before its task runs. -/
def sendsTwice : List Label := List.flatten [
  [.step .accept, .step (.run 0 .silent), .send [1], .step (.run 0 .silent)],
  [.step (.run 0 (.wrote false)), .sendFrom 1 [2], .step (.call 0 0 .shutdown)],
  [.step (.run 0 .silent), .step (.ret 0), .step (.ret 0), .step (.next 0), .step (.poll 0 [])],
  [.step (.next 0), .step (.next 0)]]

theorem sendsSafely_of_sendsTwice : ∃ w, SendsSafely allCallbacks w ∧
    w.executing = some ⟨.other 1, [2]⟩ ∧ w.ran = [(⟨.loop, [1]⟩, .handed 0)] := by
  obtain ⟨w, reached, ended⟩ : ∃ w, Reaches (step allCallbacks) SendsEstablished start w ∧
      (w.executing = some ⟨.other 1, [2]⟩ ∧ w.ran = [(⟨.loop, [1]⟩, .handed 0)]) :=
    exists_reaches_of_exec sendsTwice (by decide +kernel)
  exact ⟨w, sendsSafely_of_established reached, ended⟩

/-- The peer closes the connection while the task of another thread is queued. -/
def closesBefore : List Label := List.flatten [
  [.step .accept, .step (.run 0 .silent), .step (.ret 0), .step (.ret 0), .step (.next 0)],
  [.step (.poll 0 [some (0, EPOLLIN)]), .sendFrom 1 [2], .step (.next 0)],
  List.replicate 3 (.step (.run 0 .silent)), [.step (.run 0 (.read (some [])))],
  List.replicate 4 (.step (.run 0 .silent)), [.step (.ret 0)],
  List.replicate 2 (.step (.run 0 .silent)), [.step (.next 0), .step (.next 0)]]

/-- A `send` before the connection is there, and one whose task runs after it has been closed. -/
theorem sends_through_null :
    (∃ w, Reaches (step allCallbacks) anyStep start w ∧ w.system.nextConnId = 0 ∧
      ¬SendsSafely allCallbacks w) ∧
    ∃ w, Reaches (step allCallbacks) anyStep start w ∧ w.system.nextConnId = 1 ∧
      ¬SendsSafely allCallbacks w := by
  constructor
  · obtain ⟨w, reached, ids, top, null⟩ :
        ∃ w, Reaches (step allCallbacks) anyStep start w ∧ w.system.nextConnId = 0 ∧
          w.system.top 0 = some .clientSend ∧ w.system.holder = .client none :=
      exists_reaches_of_exec [.send [1]] (by decide +kernel)
    exact ⟨w, reached, ids, fun safe => safe.nonNull top null⟩
  · obtain ⟨w, reached, ids, top, null⟩ :
        ∃ w, Reaches (step allCallbacks) anyStep start w ∧ w.system.nextConnId = 1 ∧
          w.system.top 0 = some .clientSend ∧ w.system.holder = .client none :=
      exists_reaches_of_exec closesBefore (by decide +kernel)
    exact ⟨w, reached, ids, fun safe => safe.nonNull top null⟩

end TcpClient

end Yvent
