import Yvent.Connection.SendFile
import Yvent.Connection.Shutdown

/-!
# A connection that takes no more output

Once `send` refuses and no file is attached any more, what goes out is what `outBuffer_`, the
executing `sendInLoop` and the file slot hold, in this order. This holds in every state, closed ones
included.
-/

namespace Yvent.TcpConnection

variable {cb : Callbacks} {c c' : TcpConnection} {f : Frame} {fs rest stack : List Frame}
  {answer : Answer} {start es : List Event} {s s' : System} {l : Label} {limit : Bytes}

/-- What `handleWrite` can still send from the file slot. -/
def pendingFile (stSize : Int) (file : Bytes) : Bytes := if stSize = 0 then [] else file

/-- What the connection holds for the socket. -/
def due (c : TcpConnection) (stack : List Frame) : Bytes :=
  c.outBuffer ++ (top stack).load ++ pendingFile c.stSize c.file

/-- The connection takes no more output, and what it has sent since `start` and holds stays within
`limit`. -/
structure Draining (start : List Event) (limit : Bytes) (s : System) : Prop where
  bytes : ∃ es, s.conn.trace = start ++ es ∧ sent es ++ due s.conn s.stack <+: limit
  direct : (top s.stack).direct = true → s.conn.outBuffer = []
  file : top s.stack = .handleWrite .sendfile → s.conn.stSize ≠ 0
  opened : ∀ data caller, top s.stack = .sendInLoop data (.check caller) →
    s.conn.state ≠ .kDisconnected
  refused : ∀ data, .send data ∈ s.stack → s.conn.state ≠ .kConnected
  begun : ∀ f ∈ s.stack, f.starting = false

/-- A settled frame holds nothing and relies on nothing. -/
theorem Frame.Settled.idle (settled : f.Settled) : f.load = [] ∧ f.direct = false ∧
    f ≠ .handleWrite .sendfile ∧ ∀ data caller, f ≠ .sendInLoop data (.check caller) := by
  refine ⟨settled.load, settled.direct, ?_, ?_⟩
  · rintro rfl
    cases settled.direct
  · rintro data caller rfl
    have none := settled.entering caller
    simp at none

/-- What a step of the frame `f` makes of the bytes that the connection holds. -/
structure Spends (c : TcpConnection) (f : Frame) (result : List Frame × TcpConnection) : Prop where
  trace : ∃ es, result.2.trace = c.trace ++ es ∧ sent es ++ due result.2 result.1 <+: due c [f]
  direct : (top result.1).direct = true → result.2.outBuffer = []
  file : top result.1 = .handleWrite .sendfile → result.2.stSize ≠ 0
  checks : ∀ data caller, top result.1 ≠ .sendInLoop data (.check caller)

/-- The frames that take the place of `f` are settled. -/
theorem spends_of_calm {result : List Frame × TcpConnection} (es : List Event)
    (trace : result.2.trace = c.trace ++ es)
    (bytes : sent es ++ due result.2 result.1 <+: due c [f])
    (calm : ∀ g ∈ result.1, g.calm = true) : Spends c f result := by
  have settled := (top_settled fun g mem => Frame.settled_of_calm (calm g mem)).idle
  refine ⟨⟨es, trace, bytes⟩, ?_, fun same => absurd same settled.2.2.1, settled.2.2.2⟩
  rw [settled.2.1]
  simp

theorem Neutral.spends {result : List Frame × TcpConnection} (neutral : Neutral c result)
    (calm : f.calm = true) : Spends c f result := by
  obtain ⟨es, trace, still⟩ := neutral.trace
  refine spends_of_calm es trace ?_ neutral.calm
  have old : f.load = [] := (Frame.settled_of_calm calm).load
  have new : (top result.1).load = [] :=
    (top_settled fun g mem => Frame.settled_of_calm (neutral.calm g mem)).load
  rw [(sent_of_still still).1, due, due, neutral.outBuffer, neutral.file, neutral.stSize, new,
    top_cons, old]
  exact List.prefix_refl _

theorem take_append_drop_append (n : Nat) (bs x : Bytes) :
    bs.take n ++ (bs.drop n ++ x) = bs ++ x := by
  rw [← List.append_assoc, List.take_append_drop]

theorem sendInLoopStep_spends {data : Bytes} {pc : SendInLoopPc} {result : Option Nat}
    (opened : ∀ caller, pc = .check caller → c.state ≠ .kDisconnected)
    (direct : pc = .write → c.outBuffer = []) :
    Spends c (.sendInLoop data pc) (sendInLoopStep cb c data pc result) := by
  cases pc with
  | check caller =>
    simp only [sendInLoopStep, if_neg (opened caller rfl)]
    split
    · next empty =>
      exact ⟨⟨[.executed caller data], rfl, by simp [due]⟩, fun _ => empty.2, by simp, by simp⟩
    · exact ⟨⟨[.executed caller data], rfl, by simp [due]⟩, by simp, by simp, by simp⟩
  | write =>
    have empty := direct rfl
    cases result with
    | none =>
      simp only [sendInLoopStep]
      exact ⟨⟨[.write data none], rfl, by simp [due]⟩, by simp, by simp, by simp⟩
    | some n =>
      simp only [sendInLoopStep]
      split
      · exact ⟨⟨[.write data (some n)], rfl, by simp [due, empty, take_append_drop_append]⟩, by simp,
          (by simp), by simp⟩
      · next all =>
        have written : data.take n = data := List.take_of_length_le (Nat.not_lt.mp all)
        have left : data.drop n = [] := List.drop_eq_nil_of_le (Nat.not_lt.mp all)
        split
        · exact ⟨⟨[.write data (some n), .writeCompleteCallback], by simp,
            by simp [due, empty, written]⟩, by simp, by simp, by simp⟩
        · exact ⟨⟨[.write data (some n)], rfl, by simp [due, empty, written, left]⟩,
            (by simp), by simp, by simp⟩
  | rest n =>
    simp only [sendInLoopStep]
    split
    · split <;>
        exact spends_of_calm [] (by simp [enableWrite]) (by simp [due, enableWrite]) (by simp)
    · next done =>
      rw [not_or, Nat.not_lt] at done
      have written : data.drop n = [] := List.drop_eq_nil_of_le done.1
      exact spends_of_calm [] (by simp) (by simp [due, written]) (by simp)

theorem handleWriteStep_spends {pc : HandleWritePc} {result : Option Nat}
    (direct : pc = .sendfile → c.outBuffer = []) (file : pc = .sendfile → c.stSize ≠ 0) :
    Spends c (.handleWrite pc) (handleWriteStep cb c pc result) := by
  cases pc with
  | test =>
    simp only [handleWriteStep]
    split
    · split
      · exact ⟨⟨[], by simp, by simp [due]⟩, by simp, by simp, by simp⟩
      · next empty =>
        split
        · next nonzero =>
          exact ⟨⟨[], by simp, by simp [due]⟩, fun _ => Decidable.not_not.mp empty,
            fun _ => nonzero, by simp⟩
        · exact spends_of_calm [] (by simp) (by simp [due]) (by simp)
    · exact spends_of_calm [] (by simp) (by simp [due]) (by simp)
  | write =>
    cases result with
    | none =>
      exact spends_of_calm [.write c.outBuffer none] rfl (by simp [handleWriteStep, due])
        (by simp [handleWriteStep])
    | some n =>
      simp only [handleWriteStep]
      split <;> exact spends_of_calm [.write c.outBuffer (some n)] rfl
        (by simp [due, disableWrite, take_append_drop_append]) (by simp)
  | drained | sent =>
    simp only [handleWriteStep]
    split <;> exact spends_of_calm [] (by simp) (by simp [due]) (by simp)
  | complete =>
    simp only [handleWriteStep]
    split
    · exact spends_of_calm [.writeCompleteCallback] rfl (by simp [due]) (by simp)
    · exact spends_of_calm [] (by simp) (by simp [due]) (by simp)
  | sendfile =>
    have empty := direct rfl
    have nonzero := file rfl
    cases result with
    | none =>
      exact spends_of_calm [.sendfile c.file none] rfl (by simp [handleWriteStep, due])
        (by simp [handleWriteStep])
    | some n =>
      simp only [handleWriteStep]
      split
      · next done =>
        refine spends_of_calm [.sendfile c.file (some n)] rfl ?_ (by simp)
        simp [due, pendingFile, disableWrite, empty, nonzero, done, List.take_prefix]
      · next more =>
        refine spends_of_calm [.sendfile c.file (some n)] rfl ?_ (by simp)
        simp [due, pendingFile, empty, nonzero, more]
  | closeFd =>
    exact spends_of_calm [.closeFd c.sendFd] rfl (by simp [handleWriteStep, due])
      (by simp [handleWriteStep])

theorem Draining.spends {result : List Frame × TcpConnection} (inv : Draining start limit s)
    (here : s.stack = f :: rest) (moved : FrameMove cb s.conn f answer result) :
    Spends s.conn f result := by
  have onTop : top s.stack = f := by rw [here, top_cons]
  by_cases neutral : f.neutral = true
  · exact (moved.neutral neutral).spends (Frame.calm_of_neutral neutral)
  cases moved with
  | handleClose pc =>
    cases pc with
    | notify =>
      simp only [handleCloseStep]
      split
      · exact spends_of_calm [.notifyDisconnected] rfl
          (by simp [due, disableAll, emit]) (by simp)
      · exact spends_of_calm [] (by simp) (by simp [due, disableAll]) (by simp)
    | assertConnected | assertDisconnecting | store | close => exact absurd rfl neutral
  | send data =>
    have refused := inv.refused data (here ▸ List.mem_cons_self)
    rw [sendStep, if_neg refused]
    exact spends_of_calm [] (by simp) (by simp [due]) (by simp)
  | sendInLoop data pc answer r fits =>
    refine sendInLoopStep_spends ?_ ?_
    · rintro caller rfl
      exact inv.opened data caller onTop
    · rintro rfl
      exact inv.direct (by rw [onTop]; rfl)
  | handleWrite pc answer r fits fitsFile =>
    refine handleWriteStep_spends ?_ ?_
    · rintro rfl
      exact inv.direct (by rw [onTop]; rfl)
    · rintro rfl
      exact inv.file onTop
  | shutdownInLoop =>
    unfold shutdownInLoopStep
    split
    · exact spends_of_calm [] (by simp) (by simp [due]) (by simp)
    · exact spends_of_calm [.shutdownWr] rfl (by simp [due, emit]) (by simp)
  | _ => exact absurd rfl neutral

/-- The executing frame goes on. -/
theorem Draining.run {result : List Frame × TcpConnection} (inv : Draining start limit s)
    (here : s.stack = f :: rest) (settled : ∀ g ∈ rest, g.Settled)
    (moved : FrameMove cb s.conn f answer result) :
    Draining start limit { s with conn := result.2, stack := result.1 ++ rest } := by
  obtain ⟨fs, c'⟩ := result
  obtain ⟨⟨es, trace, bytes⟩, direct, file, checks⟩ := inv.spends here moved
  obtain ⟨noLoad, notDirect, noFile, noCheck⟩ := (top_settled settled).idle
  have begun := inv.begun
  rw [here] at begun
  obtain ⟨fresh, begun⟩ := List.forall_mem_cons.mp begun
  have topCases : (fs = [] ∧ top (fs ++ rest) = top rest) ∨ top (fs ++ rest) = top fs := by
    cases fs with
    | nil => exact Or.inl ⟨rfl, rfl⟩
    | cons g fs => exact Or.inr rfl
  refine ⟨?_, ?_, ?_, ?_, ?_, ?_⟩
  · obtain ⟨earlier, before, within⟩ := inv.bytes
    rw [here] at within
    have sameDue : due c' (fs ++ rest) = due c' fs := by
      rw [due, due, top_load settled]
    refine ⟨earlier ++ es, ?_, ?_⟩
    · show c'.trace = _
      rw [trace, before, List.append_assoc]
    · show _ ++ due c' (fs ++ rest) <+: limit
      rw [sent_append, sameDue, List.append_assoc]
      exact ((List.prefix_append_right_inj _).mpr bytes).trans within
  · intro now
    rcases topCases with ⟨-, same⟩ | same
    · rw [show top (fs ++ rest) = top rest from same, notDirect] at now
      cases now
    · exact direct (same ▸ now)
  · intro now
    rcases topCases with ⟨-, same⟩ | same
    · exact absurd (same ▸ now) noFile
    · exact file (same ▸ now)
  · intro data caller now
    rcases topCases with ⟨-, same⟩ | same
    · exact absurd (same ▸ now) (noCheck data caller)
    · exact absurd (same ▸ now) (checks data caller)
  · intro data mem connected
    have noSend := moved.noSend
    have mem : .send data ∈ rest := by
      rcases List.mem_append.mp mem with mem | mem
      · cases noSend _ mem
      · exact mem
    have before := inv.refused data (here ▸ List.mem_cons_of_mem _ mem)
    rcases moved.controlled.state with same | late | ⟨rfl, -⟩
    · exact before (same ▸ connected)
    · exact (late_ne late).2 connected
    · cases fresh
  · intro g mem
    rcases List.mem_append.mp mem with mem | mem
    · by_contra yes
      rw [Bool.not_eq_false] at yes
      obtain ⟨rfl, -, -⟩ := moved.controlled.starting g mem yes
      cases fresh
    · exact begun g mem

/-- Something happens beside the bytes, or a frame begins or returns. -/
theorem Draining.aside (inv : Draining start limit s) (es : List Event)
    (trace : s'.conn.trace = s.conn.trace ++ es) (still : ∀ e ∈ es, e.moves = false)
    (same : s'.conn.outBuffer = s.conn.outBuffer ∧ s'.conn.file = s.conn.file ∧
      s'.conn.stSize = s.conn.stSize)
    (state : s'.conn.state = s.conn.state ∨ s'.conn.state = .kDisconnecting)
    (onTop : top s'.stack = top s.stack ∨ (top s'.stack).Settled)
    (load : (top s'.stack).load = (top s.stack).load)
    (sends : ∀ data, .send data ∈ s'.stack → s'.conn.state = .kConnected → .send data ∈ s.stack)
    (begun : ∀ f ∈ s'.stack, f.starting = false) : Draining start limit s' := by
  obtain ⟨outBuffer, file, stSize⟩ := same
  refine ⟨?_, fun now => ?_, fun now => ?_, fun data caller now => ?_, fun data mem connected => ?_,
    begun⟩
  · obtain ⟨earlier, before, within⟩ := inv.bytes
    refine ⟨earlier ++ es, by rw [trace, before, List.append_assoc], ?_⟩
    rw [sent_append, (sent_of_still still).1, List.append_nil, due, outBuffer, file, stSize, load]
    exact within
  · rw [outBuffer]
    rcases onTop with same | settled
    · exact inv.direct (same ▸ now)
    · rw [settled.idle.2.1] at now
      cases now
  · rw [stSize]
    rcases onTop with same | settled
    · exact inv.file (same ▸ now)
    · exact absurd now settled.idle.2.2.1
  · rcases onTop with same | settled
    · rcases state with kept | late
      · rw [kept]
        exact inv.opened data caller (same ▸ now)
      · rw [late]
        simp
    · exact absurd now (settled.idle.2.2.2 data caller)
  · have before := inv.refused data (sends data mem connected)
    rcases state with kept | late
    · exact before (kept ▸ connected)
    · rw [late] at connected
      cases connected

/-- Only the stack changes, and its top holds nothing. -/
theorem Draining.restack (inv : Draining start limit s) (conn : s'.conn = s.conn)
    (settled : (top s'.stack).Settled) (load : (top s.stack).load = [])
    (sends : ∀ data, .send data ∈ s'.stack → s.conn.state = .kConnected → .send data ∈ s.stack)
    (begun : ∀ f ∈ s'.stack, f.starting = false) : Draining start limit s' := by
  refine inv.aside [] (by simp [conn]) (by simp) (by simp [conn]) (Or.inl (by rw [conn]))
    (Or.inr settled) ?_ (by rwa [conn]) begun
  rw [load, settled.load]

/-- The calls that a draining connection is still given. -/
def Dull (s : System) : Call → Prop
  | .send _ => s.conn.state ≠ .kConnected
  | .setSendFd _ _ _ => False
  | .shutdown | .forceClose => True

theorem Draining.call {call : Call} (inv : Draining start limit s) (here : s.stack = .user :: rest)
    (dull : Dull s call) : Draining start limit (s.callStep call) := by
  have calm : ∀ g : Frame, g.calm = true → (top (g :: s.stack)).Settled := fun g calm =>
    Frame.settled_of_calm calm
  have load : (top s.stack).load = [] := by rw [here]; rfl
  have begun : ∀ g : Frame, g.starting = false → ∀ f ∈ g :: s.stack, f.starting = false :=
    fun g fresh => List.forall_mem_cons.mpr ⟨fresh, inv.begun⟩
  cases call with
  | send data =>
    refine inv.restack rfl (calm _ rfl) load (fun _ _ connected => ?_) (begun _ rfl)
    exact absurd connected dull
  | shutdown =>
    refine inv.aside [.shutdownCalled .loop] rfl (by simp [Event.moves]) ⟨rfl, rfl, rfl⟩
      (Or.inl rfl) (Or.inr (calm .shutdown rfl)) ?_ (fun data mem _ => ?_) (begun .shutdown rfl)
    · rw [load]
      rfl
    · exact (List.mem_cons.mp mem).resolve_left (by simp)
  | forceClose =>
    refine inv.restack rfl (calm _ rfl) load (fun data mem _ => ?_) (begun _ rfl)
    exact (List.mem_cons.mp mem).resolve_left (by simp)
  | setSendFd => cases dull

/-- A connection that is given no more output keeps to what it holds, whatever its loop and the
other threads do. -/
theorem Draining.move (inv : Draining start limit s) (settled : ∀ f ∈ s.stack.tail, f.Settled)
    (alone : ∀ caller, s.waiting caller = [])
    (refused : ∀ t data, l = .other t (.send data) → s.conn.state ≠ .kConnected)
    (dull : ∀ call, l = .call call → Dull s call) (taken : System.step cb s l = some s') :
    Draining start limit s' := by
  have stays : ∀ {s' : System} (es : List Event), s'.conn.trace = s.conn.trace ++ es →
      (∀ e ∈ es, e.moves = false) → s'.conn.outBuffer = s.conn.outBuffer ∧
        s'.conn.file = s.conn.file ∧ s'.conn.stSize = s.conn.stSize →
      (s'.conn.state = s.conn.state ∨ s'.conn.state = .kDisconnecting) → s'.stack = s.stack →
      Draining start limit s' := fun es trace still same state stack =>
    inv.aside es trace still same state (Or.inl (by rw [stack])) (by rw [stack])
      (fun data mem _ => stack ▸ mem) (stack ▸ inv.begun)
  have unchanged : ∀ {s' : System}, s'.conn = s.conn → s'.stack = s.stack → Draining start limit s' :=
    fun conn stack =>
      stays [] (by simp [conn]) (by simp) (by simp [conn]) (Or.inl (by rw [conn])) stack
  have begin : ∀ {s' : System} {f : Frame}, s.stack = [] → s'.conn = s.conn → s'.stack = [f] →
      f.calm = true → f.isSend = false → f.starting = false → Draining start limit s' := by
    intro s' f idle conn stack calm notSend fresh
    refine inv.restack conn (stack ▸ Frame.settled_of_calm calm) (by rw [idle]; rfl)
      (fun data mem _ => ?_) (stack ▸ List.forall_mem_singleton.mpr fresh)
    rw [stack] at mem
    rw [← List.mem_singleton.mp mem] at notSend
    cases notSend
  cases System.move_of_step taken with
  | run answer here moved => exact inv.run here (by rw [here] at settled; exact settled) moved
  | call call here => exact inv.call here (dull call rfl)
  | @ret rest here =>
    have under : ∀ f ∈ rest, f.Settled := by
      rw [here] at settled
      exact settled
    refine inv.restack rfl (top_settled under) (by rw [here]; rfl) (fun data mem _ => ?_)
      fun f mem => ?_
    · exact here ▸ List.mem_cons_of_mem _ mem
    · exact inv.begun f (here ▸ List.mem_cons_of_mem _ mem)
  | dispatchSelf idle | dispatchOther idle => exact begin idle rfl rfl rfl rfl rfl
  | @startTask task rest idle here =>
    have none := entering_startTask alone here
    cases task with
    | sendInLoop t data => exact absurd (none (.other t)) (by simp [Task.frame])
    | shutdownInLoop | forceCloseInLoop | user => exact begin idle rfl rfl rfl rfl rfl
  | acceptSend t data _ connected => exact absurd connected (refused t data rfl)
  | checkShutdown t | refuseShutdown t =>
    exact stays [.shutdownCalled (.other t)] rfl (by simp [Event.moves]) ⟨rfl, rfl, rfl⟩
      (Or.inl rfl) rfl
  | pushSend t data =>
    exact stays [.returned (.other t) data] rfl (by simp [Event.moves]) ⟨rfl, rfl, rfl⟩
      (Or.inl rfl) rfl
  | storeDisconnecting t =>
    exact stays [.store .kDisconnecting] rfl (by simp [Event.moves]) ⟨rfl, rfl, rfl⟩
      (Or.inr rfl) rfl
  | refuse | swapTasks | endTasks | poll | addTask | checkForceClose | pushShutdown
  | pushForceClose => exact unchanged rfl rfl

/-! ## Steps under an executing frame -/

/-- The step is one of user code. -/
@[simp] def Label.ofUser : Label → Bool
  | .call _ | .ret => true
  | _ => false

/-- What the other threads do while a frame of the connection executes. -/
structure Beside (s s' : System) : Prop where
  stack : s'.stack = s.stack
  outBuffer : s'.conn.outBuffer = s.conn.outBuffer
  file : s'.conn.file = s.conn.file
  stSize : s'.conn.stSize = s.conn.stSize
  trace : ∃ es, s'.conn.trace = s.conn.trace ++ es ∧ sent es = []

/-- User code takes steps in its own frames only. -/
theorem System.ofUser_of_busy (busy : s.stack = f :: rest) (notUser : f ≠ .user)
    (taken : System.step cb s l = some s') : l.ofUser = false := by
  cases System.move_of_step taken with
  | call call here | ret here =>
    rw [busy] at here
    cases here
    exact absurd rfl notUser
  | _ => rfl

/-- The loop thread is busy with `f`: either `f` takes a step, or another thread does. -/
theorem System.step_busy (busy : s.stack = f :: rest) (notUser : l.ofUser = false)
    (taken : System.step cb s l = some s') :
    (∃ answer result, FrameMove cb s.conn f answer result ∧
      s' = { s with conn := result.2, stack := result.1 ++ rest }) ∨ Beside s s' := by
  have stays : ∀ (es : List Event), s'.conn.trace = s.conn.trace ++ es → sent es = [] →
      s'.conn.outBuffer = s.conn.outBuffer ∧ s'.conn.file = s.conn.file ∧
        s'.conn.stSize = s.conn.stSize → s'.stack = s.stack → Beside s s' :=
    fun es trace still same stack => ⟨stack, same.1, same.2.1, same.2.2, es, trace, still⟩
  cases System.turn_of_step taken with
  | run answer here moved =>
    rw [busy] at here
    cases here
    exact Or.inl ⟨answer, _, moved, rfl⟩
  | call | ret => cases notUser
  | outside _ out =>
    refine Or.inr ?_
    cases out with
    | begin f idle =>
      rw [busy] at idle
      cases idle
    | event e other stack conn =>
      have still : sent [e] = [] := by
        cases e with
        | write | sendfile => cases other
        | _ => rfl
      exact stays [e] (by rw [conn]; rfl) still (by rw [conn]; exact ⟨rfl, rfl, rfl⟩) stack
    | store stack conn =>
      exact stays [.store .kDisconnecting] (by rw [conn]; rfl) rfl
        (by rw [conn]; exact ⟨rfl, rfl, rfl⟩) stack
    | silent stack conn =>
      exact stays [] (by rw [conn, List.append_nil]) rfl (by rw [conn]; exact ⟨rfl, rfl, rfl⟩)
        stack

/-- A connection that is not connected does not come back. -/
theorem System.unconnected_step (begun : ∀ f ∈ s.stack, f.starting = false)
    (unconnected : s.conn.state ≠ .kConnected) (taken : System.step cb s l = some s') :
    s'.conn.state ≠ .kConnected := by
  cases System.turn_of_step taken with
  | run answer here moved =>
    rcases moved.controlled.state with same | late | ⟨rfl, -⟩
    · rw [← same] at unconnected
      exact unconnected
    · exact (late_ne late).2
    · cases begun _ (here ▸ List.mem_cons_self)
  | call call => cases call <;> exact unconnected
  | ret => exact unconnected
  | outside _ out =>
    cases out with
    | begin _ _ _ _ conn | event _ _ _ conn | silent _ conn =>
      rw [conn]
      exact unconnected
    | store _ conn => simp [conn, store]

/-- No `enableRead` begins under a connection. -/
theorem System.begun_step (begun : ∀ f ∈ s.stack, f.starting = false)
    (taken : System.step cb s l = some s') : ∀ f ∈ s'.stack, f.starting = false := by
  cases System.turn_of_step taken with
  | @run f rest frames conn answer here moved =>
    rw [here] at begun
    obtain ⟨notStarting, begun⟩ := List.forall_mem_cons.mp begun
    intro g mem
    rcases List.mem_append.mp mem with mem | mem
    · by_contra starting
      rw [Bool.not_eq_false] at starting
      obtain ⟨rfl, -⟩ := moved.controlled.starting g mem starting
      cases notStarting
    · exact begun g mem
  | call call =>
    cases call with
    | send | shutdown | forceClose => exact List.forall_mem_cons.mpr ⟨rfl, begun⟩
    | setSendFd => exact begun
  | @ret rest here =>
    rw [here] at begun
    exact (List.forall_mem_cons.mp begun).2
  | outside _ out =>
    cases out with
    | begin f _ first stack =>
      rw [stack]
      exact List.forall_mem_singleton.mpr (System.starting_of_begins first)
    | event _ _ stack | store stack | silent stack =>
      rw [stack]
      exact begun

/-- `send` is begun by user code, so its frame is the executing one. -/
theorem System.below_step (below : ∀ f ∈ s.stack.tail, f.isSend = false)
    (taken : System.step cb s l = some s') : ∀ f ∈ s'.stack.tail, f.isSend = false := by
  cases System.turn_of_step taken with
  | @run f rest frames conn answer here moved =>
    intro g mem
    rcases List.mem_append.mp (List.mem_of_mem_tail mem) with mem | mem
    · exact moved.noSend g mem
    · exact below g (by rwa [here])
  | @call rest call here =>
    have all : ∀ f ∈ s.stack, f.isSend = false := by
      rw [here] at below ⊢
      exact List.forall_mem_cons.mpr ⟨rfl, below⟩
    cases call with
    | send | shutdown | forceClose => exact all
    | setSendFd => exact below
  | @ret rest here =>
    intro f mem
    exact below f (by rw [here]; exact List.mem_of_mem_tail mem)
  | outside _ out =>
    cases out with
    | begin _ _ _ stack => simp [stack]
    | event _ _ stack | store stack | silent stack =>
      rw [stack]
      exact below

end Yvent.TcpConnection
