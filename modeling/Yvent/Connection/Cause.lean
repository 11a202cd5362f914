import Yvent.Connection.Draining

/-!
# The causes of the events

Which function an event is due to, and which function changes the file slot. What a whole run does
with a descriptor or with a message is then a matter of the frames that were executed.
-/

namespace Yvent

open TcpConnection in
/-- What an event that the frame `f` adds says of `f` and of the connection before. -/
def Event.cause (c : TcpConnection) (f : Frame) : Event → Prop
  | .accepted caller data => f = .send data ∧ caller = .loop ∧ c.state = .kConnected
  | .write _ _ => f = .handleWrite .write ∨ ∃ data, f = .sendInLoop data .write
  | .writeCompleteCallback => f = .handleWrite .complete ∨ ∃ data, f = .sendInLoop data .write
  | .setSendFd _ _ => False
  | .sendfile _ _ => f = .handleWrite .sendfile
  | .closeFd fd => f = .handleWrite .closeFd ∧ fd = c.sendFd
  | _ => True

namespace TcpConnection

variable {cb : Callbacks} {c c' : TcpConnection} {f : Frame} {answer : Answer} {es : List Event}
  {s s' : System} {l : Label}

/-- A step of the frame `f`: each event has its cause, `sendFd_` is kept, and what is left of the
file changes in `sendfile` only. -/
structure Caused (c : TcpConnection) (f : Frame) (c' : TcpConnection) : Prop where
  events : ∃ es, c'.trace = c.trace ++ es ∧ ∀ e ∈ es, e.cause c f
  sendFd : c'.sendFd = c.sendFd
  slot : f ≠ .handleWrite .sendfile → c'.file = c.file ∧ c'.stSize = c.stSize

theorem caused_same (trace : c'.trace = c.trace) (sendFd : c'.sendFd = c.sendFd)
    (file : c'.file = c.file) (stSize : c'.stSize = c.stSize) : Caused c f c' :=
  ⟨⟨[], by rw [trace, List.append_nil], by simp⟩, sendFd, fun _ => ⟨file, stSize⟩⟩

theorem caused_emit {e : Event} (cause : e.cause c f) : Caused c f (c.emit e) :=
  ⟨⟨[e], rfl, by simpa using cause⟩, rfl, fun _ => ⟨rfl, rfl⟩⟩

theorem caused_store (st : ConnectionState) : Caused c f (c.store st) :=
  ⟨⟨[.store st], rfl, by simp [Event.cause]⟩, rfl, fun _ => ⟨rfl, rfl⟩⟩

theorem enableReadStep_caused (pc : EnableReadPc) :
    Caused c (.enableRead pc) (enableReadStep cb c pc).2 := by
  cases pc with
  | assert =>
    simp only [enableReadStep]
    split
    · exact caused_same rfl rfl rfl rfl
    · exact caused_emit trivial
  | store => exact caused_store _
  | enable =>
    simp only [enableReadStep]
    split
    · exact ⟨⟨[.notifyConnected], rfl, by simp [Event.cause]⟩, rfl, fun _ => ⟨rfl, rfl⟩⟩
    · exact caused_same rfl rfl rfl rfl

theorem handleReadStep_caused (result : Option Bytes) :
    Caused c .handleRead (handleReadStep cb c result).2 := by
  rcases result with _ | _ | ⟨b, data⟩
  · exact caused_same rfl rfl rfl rfl
  · exact caused_same rfl rfl rfl rfl
  · simp only [handleReadStep]
    split
    · exact caused_emit trivial
    · exact caused_same rfl rfl rfl rfl

theorem handleCloseStep_caused (pc : HandleClosePc) :
    Caused c (.handleClose pc) (handleCloseStep cb c pc).2 := by
  cases pc with
  | assertConnected =>
    simp only [handleCloseStep]
    split <;> exact caused_same rfl rfl rfl rfl
  | assertDisconnecting =>
    simp only [handleCloseStep]
    split
    · exact caused_same rfl rfl rfl rfl
    · exact caused_emit trivial
  | store => exact caused_store _
  | notify =>
    simp only [handleCloseStep]
    split
    · exact ⟨⟨[.notifyDisconnected], rfl, by simp [Event.cause]⟩, rfl, fun _ => ⟨rfl, rfl⟩⟩
    · exact caused_same rfl rfl rfl rfl
  | close =>
    simp only [handleCloseStep]
    split
    · exact caused_emit trivial
    · exact caused_same rfl rfl rfl rfl

theorem sendInLoopStep_caused (data : Bytes) (pc : SendInLoopPc) (result : Option Nat) :
    Caused c (.sendInLoop data pc) (sendInLoopStep cb c data pc result).2 := by
  cases pc with
  | check caller =>
    simp only [sendInLoopStep]
    split
    · exact caused_same rfl rfl rfl rfl
    · split <;> exact caused_emit trivial
  | write =>
    have write : ∀ r, (Event.write data r).cause c (.sendInLoop data .write) :=
      fun _ => Or.inr ⟨data, rfl⟩
    cases result with
    | none => exact caused_emit (write none)
    | some n =>
      simp only [sendInLoopStep]
      split
      · exact caused_emit (write (some n))
      · split
        · refine ⟨⟨[.write data (some n), .writeCompleteCallback], by simp, ?_⟩, rfl,
            fun _ => ⟨rfl, rfl⟩⟩
          exact List.forall_mem_cons.mpr ⟨write _, by simp [Event.cause]⟩
        · exact caused_emit (write (some n))
  | rest n =>
    simp only [sendInLoopStep]
    split
    · split <;> exact caused_same rfl rfl rfl rfl
    · exact caused_same rfl rfl rfl rfl

theorem handleWriteStep_caused (pc : HandleWritePc) (result : Option Nat) :
    Caused c (.handleWrite pc) (handleWriteStep cb c pc result).2 := by
  cases pc with
  | test =>
    simp only [handleWriteStep]
    repeat' split
    all_goals exact caused_same rfl rfl rfl rfl
  | write =>
    cases result with
    | none => exact caused_emit (Or.inl rfl)
    | some n =>
      have written : ∀ c' : TcpConnection, c'.trace = c.trace ++ [.write c.outBuffer (some n)] →
          c'.sendFd = c.sendFd → c'.file = c.file ∧ c'.stSize = c.stSize →
          Caused c (.handleWrite .write) c' :=
        fun _ trace sendFd slot => ⟨⟨_, trace, by simp [Event.cause]⟩, sendFd, fun _ => slot⟩
      simp only [handleWriteStep]
      split <;> exact written _ rfl rfl ⟨rfl, rfl⟩
  | drained | sent =>
    simp only [handleWriteStep]
    split <;> exact caused_same rfl rfl rfl rfl
  | complete =>
    simp only [handleWriteStep]
    split
    · exact caused_emit (Or.inl rfl)
    · exact caused_same rfl rfl rfl rfl
  | sendfile =>
    cases result with
    | none => exact caused_emit (f := .handleWrite .sendfile) rfl
    | some n =>
      have written : ∀ c' : TcpConnection, c'.trace = c.trace ++ [.sendfile c.file (some n)] →
          c'.sendFd = c.sendFd → Caused c (.handleWrite .sendfile) c' :=
        fun _ trace sendFd =>
          ⟨⟨_, trace, by simp [Event.cause]⟩, sendFd, fun other => absurd rfl other⟩
      simp only [handleWriteStep]
      split <;> exact written _ rfl rfl
  | closeFd => exact caused_emit (f := .handleWrite .closeFd) ⟨rfl, rfl⟩

theorem FrameMove.caused {result : List Frame × TcpConnection}
    (moved : FrameMove cb c f answer result) : Caused c f result.2 := by
  cases moved with
  | enableRead pc => exact enableReadStep_caused pc
  | handleRead r => exact handleReadStep_caused r
  | handleClose pc => exact handleCloseStep_caused pc
  | send data =>
    unfold sendStep
    split
    · next connected => exact caused_emit (f := .send data) ⟨rfl, rfl, connected⟩
    · exact caused_same rfl rfl rfl rfl
  | sendReturn data => exact caused_emit trivial
  | sendInLoop data pc answer r => exact sendInLoopStep_caused data pc r
  | handleWrite pc answer r => exact handleWriteStep_caused pc r
  | shutdownStore => exact caused_store _
  | shutdownInLoop =>
    unfold shutdownInLoopStep
    split
    · exact caused_same rfl rfl rfl rfl
    · exact caused_emit trivial
  | handleEvents | shutdown | forceClose | forceCloseInLoop => exact caused_same rfl rfl rfl rfl

theorem FrameMove.accepted {result : List Frame × TcpConnection}
    (moved : FrameMove cb c f answer result) :
    ∃ es, result.2.trace = c.trace ++ es ∧ (acceptedBy .loop es = [] ∨
      ∃ data, f = .send data ∧ c.state = .kConnected ∧
        top result.1 = .sendInLoop data (.check .loop) ∧ acceptedBy .loop es = [data]) := by
  by_cases sends : ∃ data, f = .send data
  · obtain ⟨data, rfl⟩ := sends
    cases moved
    unfold sendStep
    split
    · next connected =>
      exact ⟨[.accepted .loop data], rfl, Or.inr ⟨data, rfl, connected, rfl, rfl⟩⟩
    · exact ⟨[], (List.append_nil _).symm, Or.inl rfl⟩
  · obtain ⟨es, trace, cause⟩ := moved.caused.events
    refine ⟨es, trace, Or.inl (List.filterMap_eq_nil_iff.mpr fun e mem => ?_)⟩
    have caused := cause e mem
    cases e with
    | accepted caller data => exact absurd ⟨data, caused.1⟩ sends
    | _ => rfl

/-- The loop thread gives the connection a message only where a `send` finds it connected. -/
theorem System.accepted_step (taken : System.step cb s l = some s') :
    ∃ es, s'.conn.trace = s.conn.trace ++ es ∧ (acceptedBy .loop es = [] ∨
      ∃ data, top s.stack = .send data ∧ s.conn.state = .kConnected ∧
        top s'.stack = .sendInLoop data (.check .loop) ∧ acceptedBy .loop es = [data]) := by
  have quiet : ∀ {t : System} (es : List Event), t.conn.trace = s.conn.trace ++ es →
      acceptedBy .loop es = [] → ∃ es, t.conn.trace = s.conn.trace ++ es ∧
        (acceptedBy .loop es = [] ∨ ∃ data, top s.stack = .send data ∧
          s.conn.state = .kConnected ∧ top t.stack = .sendInLoop data (.check .loop) ∧
          acceptedBy .loop es = [data]) := fun es trace none => ⟨es, trace, Or.inl none⟩
  cases System.turn_of_step taken with
  | @run f rest frames conn answer here moved =>
    obtain ⟨es, trace, none | ⟨data, rfl, connected, next, one⟩⟩ := moved.accepted
    · exact quiet es trace none
    · refine ⟨es, trace, Or.inr ⟨data, by rw [here]; rfl, connected, ?_, one⟩⟩
      cases frames with
      | nil => cases next
      | cons => exact next
  | call call =>
    cases call with
    | send | forceClose => exact quiet [] (List.append_nil _).symm rfl
    | shutdown => exact quiet [.shutdownCalled .loop] rfl rfl
    | setSendFd fd file => exact quiet [.setSendFd fd file] rfl rfl
  | ret => exact quiet [] (List.append_nil _).symm rfl
  | outside _ out =>
    cases out with
    | begin _ _ _ _ conn | silent _ conn => exact quiet [] (by rw [conn, List.append_nil]) rfl
    | event e other _ conn =>
      refine quiet [e] (by rw [conn]; rfl) ?_
      cases e with
      | accepted caller =>
        cases caller with
        | loop => cases other
        | other t => rfl
      | _ => rfl
    | store _ conn => exact quiet [.store .kDisconnecting] (by rw [conn]; rfl) rfl

end TcpConnection

end Yvent
