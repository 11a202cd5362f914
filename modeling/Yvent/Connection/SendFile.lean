import Yvent.Connection.Stream

/-!
# Responses with a file

A response attaches a file with `setSendFd` and gives its head to `send`. `handleWrite` drains
`outBuffer_` before it sends from the file, and there is one file slot. So the bytes leave in the
order of the responses as long as no response meets a file of an earlier one: behind a pending file
a head would overtake it, and an attached file would take its place.
-/

namespace Yvent.TcpConnection

variable {cb : Callbacks} {c c' : TcpConnection} {f : Frame} {fs rest stack stack' : List Frame}
  {answer : Answer} {trace es : List Event} {s s' : System} {l : Label}
  {waiting : Caller → List Bytes}

/-- A response: what was given to `send`, and the file that was attached before. -/
structure Response where
  head : Bytes
  file : Bytes
  deriving DecidableEq, Repr

/-- A response as it should appear on the socket. -/
def Response.bytes (r : Response) : Bytes := r.head ++ r.file

/-- The responses of a history, and the file of the one whose `send` is still to come. -/
structure Issued where
  responses : List Response
  attached : Bytes
  deriving DecidableEq, Repr

/-- `send` issues a response with the file that was attached before. -/
def Issued.add (issued : Issued) : Event → Issued
  | .setSendFd _ file => { issued with attached := file }
  | .accepted _ head =>
    { responses := issued.responses ++ [{ head, file := issued.attached }], attached := [] }
  | _ => issued

/-- The responses of a history, in order, and the file attached for the next one. -/
def issued (trace : List Event) : Issued :=
  trace.foldl Issued.add { responses := [], attached := [] }

/-- What the responses of a history put on the socket, in their order. -/
def expected (trace : List Event) : Bytes := (issued trace).responses.flatMap Response.bytes

/-- The file of a response whose `send` is still to come. -/
def attached (trace : List Event) : Bytes := (issued trace).attached

/-- The side condition that the loop thread issues responses while the connection is connected: a
response is a `send`, or a `setSendFd` for a file of that size with a `send` right behind it. No
other thread sends. -/
def Responses (s : System) : Label → Prop
  | .call (.setSendFd _ file stSize) =>
    s.conn.state = .kConnected ∧ file ≠ [] ∧ stSize = file.length ∧ attached s.conn.trace = []
  | .call .shutdown | .call .forceClose | .ret => attached s.conn.trace = []
  | .other _ (.send _) => False
  | .resume t => s.pending t = .shutdownStore → attached s.conn.trace = []
  | _ => True

/-- The side condition that a response is issued only when the file of the one before has been
sent. -/
def SlotFree (s : System) : Label → Prop
  | .call (.setSendFd _ _ _) => s.conn.stSize = 0
  | .call (.send head) => head = [] ∨ attached s.conn.trace ≠ [] ∨ s.conn.stSize = 0
  | _ => True

/-- Responses only, and each while the slot for a file is free. -/
def InTurn (s : System) (l : Label) : Prop := Responses s l ∧ SlotFree s l

instance (s : System) : (l : Label) → Decidable (Responses s l)
  | .call (.setSendFd _ _ _) => inferInstanceAs (Decidable (_ ∧ _ ∧ _ ∧ _))
  | .call .shutdown | .call .forceClose | .ret => inferInstanceAs (Decidable (_ = _))
  | .other _ (.send _) => isFalse id
  | .resume _ => inferInstanceAs (Decidable (_ → _))
  | .call (.send _) | .other _ .shutdown | .other _ .forceClose | .other _ (.setSendFd _ _ _)
  | .run _ | .next | .poll _ | .addTask => isTrue trivial

instance (s : System) : (l : Label) → Decidable (SlotFree s l)
  | .call (.setSendFd _ _ _) => inferInstanceAs (Decidable (_ = _))
  | .call (.send _) => inferInstanceAs (Decidable (_ ∨ _ ∨ _))
  | .call .shutdown | .call .forceClose | .ret | .other _ _ | .resume _ | .run _ | .next | .poll _
  | .addTask => isTrue trivial

instance (s : System) (l : Label) : Decidable (InTurn s l) :=
  inferInstanceAs (Decidable (_ ∧ _))

/-- The bytes that an executing `sendInLoop` has neither written nor buffered. -/
@[simp] def Frame.load : Frame → Bytes
  | .sendInLoop data (.check _) => data
  | f => f.rest

/-- The frame belongs to a `sendInLoop`. -/
@[simp] def Frame.inSend : Frame → Bool
  | .sendInLoop _ _ => true
  | _ => false

/-- The frame is a `send` that begins. -/
@[simp] def Frame.isSend : Frame → Bool
  | .send _ => true
  | _ => false

/-- Events that issue a response. -/
@[simp] def responds : Event → Bool
  | .setSendFd _ _ | .accepted _ _ => true
  | _ => false

/-- The loop thread is in user code or enters `send`. -/
@[simp] def issuing : List Frame → Bool
  | .user :: _ | .send _ :: _ => true
  | _ => false

/-- A connection whose responses were issued in turn: what is still to be sent is what
`outBuffer_` holds, the load of the executing `sendInLoop` and the file, in this order. -/
structure FileInv (c : TcpConnection) (stack : List Frame) : Prop where
  below : ∀ f ∈ stack.tail, f.isSend = false
  size : c.stSize = c.file.length
  slot : attached c.trace ≠ [] →
    c.file = attached c.trace ∧ c.state = .kConnected ∧ issuing stack = true
  fresh : ∀ head, top stack = .send head → attached c.trace = [] → head = [] ∨ c.file = []
  order : sent c.trace ++ c.outBuffer ++ (top stack).load ++
    (if attached c.trace = [] then c.file else []) = expected c.trace
  enabled : attached c.trace = [] → c.file ≠ [] →
    c.isWriting = true ∨ ∃ f ∈ stack, f.inSend = true

/-! ## Histories of responses -/

theorem foldl_add_of_not_responds {responses : Issued} (still : ∀ e ∈ es, responds e = false) :
    es.foldl Issued.add responses = responses := by
  induction es with
  | nil => rfl
  | cons e es ih =>
    have same : responses.add e = responses := by
      have none := still e List.mem_cons_self
      cases e with
      | setSendFd | accepted => cases none
      | _ => rfl
    rw [List.foldl_cons, same]
    exact ih fun x mem => still x (List.mem_cons_of_mem _ mem)

theorem issued_append (still : ∀ e ∈ es, responds e = false) :
    issued (trace ++ es) = issued trace := by
  rw [issued, List.foldl_append]
  exact foldl_add_of_not_responds still

theorem attached_append (still : ∀ e ∈ es, responds e = false) :
    attached (trace ++ es) = attached trace := by
  rw [attached, issued_append still, attached]

theorem expected_append (still : ∀ e ∈ es, responds e = false) :
    expected (trace ++ es) = expected trace := by
  rw [expected, issued_append still, expected]

theorem issued_accepted (caller : Caller) (head : Bytes) :
    issued (trace ++ [.accepted caller head]) =
      { responses := (issued trace).responses ++ [{ head, file := attached trace }],
        attached := [] } := by
  rw [issued, List.foldl_append]
  rfl

theorem expected_accepted (caller : Caller) (head : Bytes) :
    expected (trace ++ [.accepted caller head]) = expected trace ++ (head ++ attached trace) := by
  rw [expected, issued_accepted, List.flatMap_append, List.flatMap_singleton]
  rfl

theorem issued_setSendFd (fd : Int) (file : Bytes) :
    issued (trace ++ [.setSendFd fd file]) = { issued trace with attached := file } := by
  rw [issued, List.foldl_append]
  rfl

theorem not_responds_of_still (still : ∀ e ∈ es, e.moves = false) :
    ∀ e ∈ es, responds e = false := by
  intro e mem
  have none := still e mem
  cases e with
  | setSendFd | accepted => cases none
  | _ => rfl

/-! ## Steps -/

theorem Frame.Settled.load (settled : f.Settled) : f.load = [] := by
  cases f with
  | sendInLoop data pc =>
    cases pc with
    | check caller =>
      have none := settled.entering caller
      simp at none
    | write | rest n => exact settled.rest
  | _ => exact settled.rest

theorem Frame.load_of_not_inSend (outside : f.inSend = false) : f.load = [] := by
  cases f with
  | sendInLoop => cases outside
  | _ => rfl

theorem top_load (settled : ∀ g ∈ rest, g.Settled) : (top (fs ++ rest)).load = (top fs).load := by
  cases fs with
  | nil => exact (top_settled settled).load
  | cons g fs => rfl

/-- Outside of user code and of `send`, no file waits for its head. -/
theorem top_ne_send (noSend : ∀ g ∈ stack, g.isSend = false) (head : Bytes) :
    top stack ≠ .send head := by
  intro onTop
  cases stack with
  | nil => cases onTop
  | cons g rest =>
    have isSend := noSend g List.mem_cons_self
    rw [show g = .send head from onTop] at isSend
    cases isSend

theorem FileInv.noFile (inv : FileInv c stack) (done : c.stSize = 0) : c.file = [] := by
  have size := inv.size
  rw [done] at size
  exact List.length_eq_zero_iff.mp (by omega)

theorem FileInv.attached_nil (inv : FileInv c stack) (outside : issuing stack = false) :
    attached c.trace = [] := by
  by_contra waits
  rw [(inv.slot waits).2.2] at outside
  cases outside

/-- A step of a function other than `send`, said of the bytes that it moves. -/
theorem FileInv.step (inv : FileInv c (f :: rest)) (settled : ∀ g ∈ rest, g.Settled)
    (outside : issuing (f :: rest) = false) (es : List Event) (trace : c'.trace = c.trace ++ es)
    (still : ∀ e ∈ es, responds e = false) (noSend : ∀ g ∈ fs, g.isSend = false)
    (size : c'.stSize = c'.file.length)
    (order : sent es ++ c'.outBuffer ++ (top fs).load ++ c'.file =
      c.outBuffer ++ f.load ++ c.file)
    (filed : c'.file ≠ [] → c.file ≠ [])
    (enabled : c'.file ≠ [] → f.inSend = false ∧ c'.isWriting = c.isWriting ∨
      c'.isWriting = true ∨ ∃ g ∈ fs, g.inSend = true) :
    FileInv c' (fs ++ rest) := by
  have none := inv.attached_nil outside
  have noneAfter : attached c'.trace = [] := by rw [trace, attached_append still, none]
  have notSend : ∀ g ∈ fs ++ rest, g.isSend = false := fun g mem =>
    (List.mem_append.mp mem).elim (noSend g) (inv.below g)
  refine ⟨fun g mem => notSend g (List.mem_of_mem_tail mem), size,
    fun waits => absurd noneAfter waits, ?_, ?_, ?_⟩
  · exact fun head onTop => absurd onTop (top_ne_send notSend head)
  · have earlier := inv.order
    rw [if_pos none, top_cons] at earlier
    rw [if_pos noneAfter, trace, expected_append still, ← earlier, sent_append, top_load settled]
    simp only [List.append_assoc] at order ⊢
    rw [order]
  · intro _ file
    rcases enabled file with ⟨notIn, same⟩ | writing | ⟨g, mem, inSend⟩
    · rw [same]
      rcases inv.enabled none (filed file) with writing | ⟨g, mem, inSend⟩
      · exact Or.inl writing
      · rcases List.mem_cons.mp mem with rfl | mem
        · rw [notIn] at inSend
          cases inSend
        · exact Or.inr ⟨g, List.mem_append_right _ mem, inSend⟩
    · exact Or.inl writing
    · exact Or.inr ⟨g, List.mem_append_left _ mem, inSend⟩

/-- `send` is begun by user code only. -/
theorem FrameMove.noSend {result : List Frame × TcpConnection}
    (moved : FrameMove cb c f answer result) : ∀ g ∈ result.1, g.isSend = false := by
  intro g mem
  have leads := moved.leadsTo g mem
  cases g with
  | send =>
    cases f with
    | handleWrite pc => cases pc <;> cases leads
    | _ => cases leads
  | _ => rfl

theorem FileInv.neutral {result : List Frame × TcpConnection} (inv : FileInv c (f :: rest))
    (settled : ∀ g ∈ rest, g.Settled) (outside : issuing (f :: rest) = false)
    (calm : f.calm = true) (neutral : Neutral c result)
    (noSend : ∀ g ∈ result.1, g.isSend = false) : FileInv result.2 (result.1 ++ rest) := by
  obtain ⟨es, trace, still⟩ := neutral.trace
  have old : f.load = [] := (Frame.settled_of_calm calm).load
  have new : (top result.1).load = [] :=
    (top_settled fun g mem => Frame.settled_of_calm (neutral.calm g mem)).load
  refine inv.step settled outside es trace (not_responds_of_still still) noSend ?_ ?_ ?_ ?_
  · rw [neutral.stSize, neutral.file]
    exact inv.size
  · rw [(sent_of_still still).1, neutral.outBuffer, neutral.file, old, new]
    rfl
  · rw [neutral.file]
    exact id
  · intro _
    refine Or.inl ⟨?_, neutral.isWriting⟩
    cases f with
    | sendInLoop => cases calm
    | _ => rfl

theorem sendStep_file {data : Bytes} (inv : FileInv c (.send data :: rest))
    (settled : ∀ g ∈ rest, g.Settled) :
    FileInv (sendStep c data).2 ((sendStep c data).1 ++ rest) := by
  have order := inv.order
  have below : ∀ g ∈ rest, g.isSend = false := inv.below
  simp only [top_cons, Frame.load, Frame.rest, List.append_nil] at order
  unfold sendStep
  split
  · next connected =>
    have done : attached (c.emit (.accepted .loop data)).trace = [] := by
      rw [attached, emit_trace, issued_accepted]
    refine ⟨List.forall_mem_cons.mpr ⟨rfl, below⟩, inv.size, fun waits => absurd done waits,
      (by simp), ?_, fun _ _ => Or.inr ⟨_, List.mem_cons_self, rfl⟩⟩
    rw [if_pos done, emit_trace, expected_accepted, ← order, sent_append]
    by_cases none : attached c.trace = []
    · -- no file of this response: the file of an earlier one is gone, or the head is empty
      rcases inv.fresh data rfl none with rfl | empty
      · simp [none]
      · simp [none, empty]
    · simp [none, (inv.slot none).1]
  · next refused =>
    have none : attached c.trace = [] := by
      by_contra waits
      exact refused (inv.slot waits).2.1
    refine ⟨fun g mem => below g (List.mem_of_mem_tail mem), inv.size,
      fun waits => absurd none waits, ?_, ?_, ?_⟩
    · exact fun head onTop => absurd onTop (top_ne_send below head)
    · rw [show top ([] ++ rest) = top rest from rfl, (top_settled settled).load, List.append_nil]
      exact order
    · intro _ file
      refine (inv.enabled none file).imp id ?_
      rintro ⟨g, mem, inSend⟩
      rcases List.mem_cons.mp mem with rfl | mem
      · cases inSend
      · exact ⟨g, mem, inSend⟩

theorem sendInLoopStep_file {data : Bytes} {pc : SendInLoopPc} {result : Option Nat}
    (inv : FileInv c (.sendInLoop data pc :: rest)) (settled : ∀ g ∈ rest, g.Settled)
    (opened : c.state ≠ .kDisconnected) (direct : pc = .write → c.outBuffer = []) :
    FileInv (sendInLoopStep cb c data pc result).2
      ((sendInLoopStep cb c data pc result).1 ++ rest) := by
  have goesOn : ∀ {fs : List Frame} {pc' : SendInLoopPc}, .sendInLoop data pc' ∈ fs →
      ∀ c' : TcpConnection, (Frame.sendInLoop data pc).inSend = false ∧
        c'.isWriting = c.isWriting ∨ c'.isWriting = true ∨ ∃ g ∈ fs, g.inSend = true :=
    fun mem _ => Or.inr (Or.inr ⟨_, mem, rfl⟩)
  cases pc with
  | check caller =>
    simp only [sendInLoopStep, if_neg opened]
    split <;>
      exact inv.step settled rfl [.executed caller data] rfl (by simp) (by simp) inv.size (by simp)
        id fun _ => goesOn List.mem_cons_self _
  | write =>
    cases result with
    | none =>
      exact inv.step settled rfl [.write data none] rfl (by simp) (by simp [sendInLoopStep])
        inv.size (by simp [sendInLoopStep]) id fun _ => goesOn List.mem_cons_self _
    | some n =>
      have empty := direct rfl
      simp only [sendInLoopStep]
      split
      · exact inv.step settled rfl [.write data (some n)] rfl (by simp) (by simp) inv.size
          (by simp [empty]) id fun _ => goesOn List.mem_cons_self _
      · next all =>
        have written : data.take n = data := List.take_of_length_le (Nat.not_lt.mp all)
        split
        · exact inv.step settled rfl [.write data (some n), .writeCompleteCallback] (by simp)
            (by simp) (by simp) inv.size (by simp [empty, written]) id
            fun _ => goesOn (List.mem_cons_of_mem _ List.mem_cons_self) _
        · exact inv.step settled rfl [.write data (some n)] rfl (by simp) (by simp) inv.size
            (by simp [empty]) id fun _ => goesOn List.mem_cons_self _
  | rest n =>
    simp only [sendInLoopStep]
    split
    · split
      · next writing =>
        exact inv.step settled rfl [] (by simp) (by simp) (by simp) inv.size (by simp) id
          fun _ => Or.inr (Or.inl writing)
      · exact inv.step settled rfl [] (by simp [enableWrite]) (by simp) (by simp) inv.size
          (by simp [enableWrite]) id fun _ => Or.inr (Or.inl (isWriting_enableWrite _))
    · next done =>
      rw [not_or, Nat.not_lt, not_not] at done
      have written : data.drop n = [] := List.drop_eq_nil_of_le done.1
      exact inv.step settled rfl [] (by simp) (by simp) (by simp) inv.size (by simp [written]) id
        fun file => absurd (inv.noFile done.2) file

theorem handleWriteStep_file {pc : HandleWritePc} {result : Option Nat}
    (inv : FileInv c (.handleWrite pc :: rest)) (settled : ∀ g ∈ rest, g.Settled)
    (direct : pc = .sendfile → c.outBuffer = [])
    (fits : pc = .sendfile → Fits c.file.length result) :
    FileInv (handleWriteStep cb c pc result).2
      ((handleWriteStep cb c pc result).1 ++ rest) := by
  have size := inv.size
  have same : ∀ {fs : List Frame} (es : List Event), (∀ e ∈ es, e.moves = false) →
      (∀ g ∈ fs, g.isSend = false) → (top fs).load = [] →
      FileInv { c with trace := c.trace ++ es } (fs ++ rest) := by
    intro fs es still noSend load
    refine inv.step settled rfl es rfl (not_responds_of_still still) noSend size ?_ id
      fun _ => Or.inl ⟨rfl, rfl⟩
    rw [(sent_of_still still).1, load]
    rfl
  have stays : ∀ {fs : List Frame}, (∀ g ∈ fs, g.isSend = false) → (top fs).load = [] →
      FileInv c (fs ++ rest) := fun noSend load => by
    simpa using same [] (by simp) noSend load
  cases pc with
  | test =>
    simp only [handleWriteStep]
    repeat' split
    all_goals exact stays (by simp) rfl
  | write =>
    cases result with
    | none =>
      exact inv.step settled rfl [.write c.outBuffer none] rfl (by simp) (by simp [handleWriteStep])
        size (by simp [handleWriteStep]) id fun _ => Or.inl ⟨rfl, rfl⟩
    | some n =>
      simp only [handleWriteStep]
      split
      · next drained =>
        exact inv.step settled rfl [.write c.outBuffer (some n)] rfl (by simp) (by simp) size
          (by simp [disableWrite]) id fun file => absurd (inv.noFile drained.2) file
      · exact inv.step settled rfl [.write c.outBuffer (some n)] rfl (by simp) (by simp) size
          (by simp) id fun _ => Or.inl ⟨rfl, rfl⟩
  | drained | sent =>
    simp only [handleWriteStep]
    split <;> exact stays (by simp) rfl
  | complete =>
    simp only [handleWriteStep]
    split
    · exact same [.writeCompleteCallback] (by simp [Event.moves]) (by simp) rfl
    · exact stays (by simp) rfl
  | sendfile =>
    have empty := direct rfl
    cases result with
    | none =>
      exact inv.step settled rfl [.sendfile c.file none] rfl (by simp) (by simp [handleWriteStep])
        size (by simp [handleWriteStep]) id fun _ => Or.inl ⟨rfl, rfl⟩
    | some n =>
      have fit : n ≤ c.file.length := fits rfl n rfl
      have left : c.stSize - n = (c.file.drop n).length := by
        rw [size, List.length_drop]
        omega
      have filed : c.file.drop n ≠ [] → c.file ≠ [] := fun more empty => more (by simp [empty])
      simp only [handleWriteStep]
      split
      · next sent =>
        have noFile : c.file.drop n = [] := by
          rw [show c.stSize - n = 0 from sent] at left
          exact List.length_eq_zero_iff.mp (by omega)
        exact inv.step settled rfl [.sendfile c.file (some n)] rfl (by simp) (by simp) left
          (by simp [disableWrite, empty]) filed fun file => absurd noFile file
      · exact inv.step settled rfl [.sendfile c.file (some n)] rfl (by simp) (by simp) left
          (by simp [empty]) filed fun _ => Or.inl ⟨rfl, rfl⟩
  | closeFd =>
    exact same [.closeFd c.sendFd] (by simp [Event.moves]) (by simp [handleWriteStep]) rfl

/-- One step of the executing frame. -/
theorem FrameMove.file {result : List Frame × TcpConnection} (inv : FileInv c (f :: rest))
    (out : Output c (f :: rest) waiting) (opened : Open result.2.trace) (before : Open c.trace)
    (moved : FrameMove cb c f answer result) : FileInv result.2 (result.1 ++ rest) := by
  have settled : ∀ g ∈ rest, g.Settled := out.settled
  have noSend := moved.noSend
  by_cases neutral : f.neutral = true
  · refine inv.neutral settled ?_ (Frame.calm_of_neutral neutral) (moved.neutral neutral) noSend
    cases moved with
    | send => cases neutral
    | _ => rfl
  cases moved with
  | handleClose pc =>
    cases pc with
    | notify => exact absurd before (out.closing List.mem_cons_self)
    | assertConnected | assertDisconnecting | store | close => exact absurd rfl neutral
  | send data => exact sendStep_file inv settled
  | sendInLoop data pc answer r fits =>
    refine sendInLoopStep_file inv settled (fun state => out.closed state before) ?_
    rintro rfl
    exact out.direct before rfl
  | handleWrite pc answer r fits fitsFile =>
    refine handleWriteStep_file inv settled ?_ fitsFile
    rintro rfl
    exact out.direct before rfl
  | shutdownInLoop =>
    unfold shutdownInLoopStep
    split
    · exact inv.step settled rfl [] (by simp) (by simp) (by simp) inv.size (by simp) id
        fun _ => Or.inl ⟨rfl, rfl⟩
    · exact inv.step settled rfl [.shutdownWr] rfl (by simp) (by simp) inv.size (by simp) id
        fun _ => Or.inl ⟨rfl, rfl⟩
  | _ => exact absurd rfl neutral

/-- A step beside the executing frame, or the begin of a frame. -/
theorem FileInv.aside (inv : FileInv c stack) (es : List Event) (trace : c'.trace = c.trace ++ es)
    (still : ∀ e ∈ es, e.moves = false)
    (same : c'.outBuffer = c.outBuffer ∧ c'.file = c.file ∧ c'.stSize = c.stSize ∧
      c'.isWriting = c.isWriting)
    (slot : attached c.trace ≠ [] →
      c'.state = c.state ∧ (issuing stack = true → issuing stack' = true))
    (below : ∀ f ∈ stack'.tail, f.isSend = false)
    (fresh : ∀ head, top stack' = .send head → attached c.trace = [] → head = [] ∨ c.file = [])
    (load : (top stack').load = (top stack).load)
    (kept : ∀ f ∈ stack, f.inSend = true → f ∈ stack') : FileInv c' stack' := by
  obtain ⟨outBuffer, file, stSize, isWriting⟩ := same
  have quiet := not_responds_of_still still
  have noneSent := (sent_of_still still).1
  refine ⟨below, ?_, ?_, ?_, ?_, ?_⟩
  · rw [stSize, file]
    exact inv.size
  · rw [trace, attached_append quiet, file]
    intro waits
    obtain ⟨sameFile, connected, user⟩ := inv.slot waits
    exact ⟨sameFile, (slot waits).1.trans connected, (slot waits).2 user⟩
  · rw [trace, attached_append quiet, file]
    exact fresh
  · rw [trace, attached_append quiet, expected_append quiet, sent_append, noneSent, List.append_nil,
      outBuffer, file, load]
    exact inv.order
  · rw [trace, attached_append quiet, file, isWriting]
    intro none pending
    refine (inv.enabled none pending).imp id ?_
    rintro ⟨g, mem, inSend⟩
    exact ⟨g, kept g mem inSend, inSend⟩

/-- Only the stack changes. -/
theorem FileInv.restack (inv : FileInv c stack)
    (slot : attached c.trace ≠ [] → issuing stack = true → issuing stack' = true)
    (begun : ∀ f ∈ stack', f.isSend = false) (load : (top stack').load = (top stack).load)
    (kept : ∀ f ∈ stack, f.inSend = true → f ∈ stack') : FileInv c stack' := by
  refine inv.aside [] (List.append_nil _).symm (by simp) ⟨rfl, rfl, rfl, rfl⟩
    (fun waits => ⟨rfl, slot waits⟩) (fun f mem => begun f (List.mem_of_mem_tail mem)) ?_ load kept
  exact fun head onTop => absurd onTop (top_ne_send begun head)

/-- The idle loop begins a frame. -/
theorem FileInv.begin (inv : FileInv c []) (begun : f.isSend = false) (load : f.load = []) :
    FileInv c [f] := by
  refine inv.restack ?_ (List.forall_mem_singleton.mpr begun) load (by simp)
  rintro - user
  cases user

/-! ## Runs -/

/-- The invariant of runs that issue their responses in turn. -/
structure FilesInv (s : System) : Prop where
  output : Output s.conn s.stack s.waiting
  alone : ∀ caller, s.waiting caller = []
  files : Open s.conn.trace → FileInv s.conn s.stack

theorem fileInv_start : FileInv create [.enableRead .assert, .user] where
  below := by simp
  size := rfl
  slot waits := absurd rfl waits
  fresh := by simp
  order := rfl
  enabled _ file := absurd rfl file

theorem filesInv_start : FilesInv .start where
  output := output_start
  alone caller := by cases caller <;> rfl
  files _ := fileInv_start

/-- Nothing that another thread was promised comes on its way. -/
theorem alone_step (out : Output s.conn s.stack s.waiting) (alone : ∀ caller, s.waiting caller = [])
    (refused : ∀ t data, l = .other t (.send data) → s.conn.state ≠ .kConnected)
    (taken : System.step cb s l = some s') (caller : Caller) : s'.waiting caller = [] := by
  have moved := System.move_of_step taken
  have kept := fun beside refused => waiting_step moved out.settled beside refused caller
  rw [alone, List.append_nil] at kept
  cases moved with
  | run => exact alone caller
  | call call => cases call <;> exact alone caller
  | ret => exact alone caller
  | startTask idle here =>
    have none := waiting_startTask here caller
    rw [alone] at none
    exact (List.append_eq_nil_iff.mp none).2
  | acceptSend t data _ connected => exact absurd connected (refused t data rfl)
  | dispatchSelf idle | dispatchOther idle =>
    have none := kept (by simp) (by simp)
    rw [idle] at none
    exact (List.append_eq_nil_iff.mp none).2
  | refuse => exact alone caller
  | swapTasks | endTasks | poll | addTask | checkShutdown | refuseShutdown | checkForceClose
  | pushSend | storeDisconnecting | pushShutdown | pushForceClose =>
    exact List.append_cancel_left ((kept (by simp) (by simp)).trans (List.append_nil _).symm)

theorem files_call {rest : List Frame} (call : Call) (inv : FileInv s.conn s.stack)
    (topFrame : s.stack = .user :: rest) (good : InTurn s (.call call)) :
    FileInv (s.callStep call).conn (s.callStep call).stack := by
  have below : ∀ g ∈ s.stack, g.isSend = false := by
    have tail := inv.below
    rw [topFrame] at tail ⊢
    exact List.forall_mem_cons.mpr ⟨rfl, tail⟩
  have push : ∀ {c' : TcpConnection} {g : Frame} (es : List Event),
      c' = { s.conn with trace := s.conn.trace ++ es } → (∀ e ∈ es, e.moves = false) →
      attached s.conn.trace = [] → g.isSend = false → g.load = [] →
      FileInv c' (g :: s.stack) := by
    rintro c' g es rfl still none notSend load
    refine inv.aside es rfl still ⟨rfl, rfl, rfl, rfl⟩ (fun waits => absurd none waits) below ?_ ?_
      fun f mem _ => List.mem_cons_of_mem _ mem
    · rintro head rfl
      cases notSend
    · rw [top_cons, load, topFrame]
      rfl
  obtain ⟨responses, free⟩ := good
  cases call with
  | send data =>
    refine inv.aside [] (by simp [System.callStep]) (by simp) ⟨rfl, rfl, rfl, rfl⟩
      (fun _ => ⟨rfl, fun _ => rfl⟩) below ?_ ?_ fun f mem _ => List.mem_cons_of_mem _ mem
    · rintro head onTop none
      obtain rfl : data = head := Frame.send.inj onTop
      rcases free with empty | waits | done
      · exact Or.inl empty
      · exact absurd none waits
      · exact Or.inr (inv.noFile done)
    · rw [topFrame]
      rfl
  | shutdown => exact push [.shutdownCalled .loop] rfl (by simp [Event.moves]) responses rfl rfl
  | forceClose => exact push [] (by simp [System.callStep]) (by simp) responses rfl rfl
  | setSendFd fd file stSize =>
    obtain ⟨connected, nonempty, size, none⟩ := responses
    have noFile : s.conn.file = [] := inv.noFile free
    have trace : (s.callStep (.setSendFd fd file stSize)).conn.trace =
        s.conn.trace ++ [.setSendFd fd file] := rfl
    have now : attached (s.callStep (.setSendFd fd file stSize)).conn.trace = file := by
      rw [attached, trace, issued_setSendFd]
    refine ⟨inv.below, size, fun _ => ⟨now.symm, connected, by simp [System.callStep, topFrame]⟩,
      ?_, ?_, fun waits => absurd (now.symm.trans waits) nonempty⟩
    · intro head onTop
      rw [show (s.callStep (.setSendFd fd file stSize)).stack = s.stack from rfl, topFrame] at onTop
      cases onTop
    · have order := inv.order
      rw [if_pos none, noFile] at order
      have unsent : sent (s.conn.trace ++ [.setSendFd fd file]) = sent s.conn.trace := by
        simp [sent_append]
      have same : expected (s.conn.trace ++ [.setSendFd fd file]) = expected s.conn.trace := by
        rw [expected, issued_setSendFd, expected]
      rw [now, if_neg nonempty, trace, unsent, same]
      exact order

theorem files_step (inv : FilesInv s) (good : InTurn s l) (taken : System.step cb s l = some s')
    (opened : Open s'.conn.trace) : FileInv s'.conn s'.stack := by
  obtain ⟨out, alone, files⟩ := inv
  have beside : ∀ (es : List Event) {c' : TcpConnection}, (∀ e ∈ es, e.moves = false) →
      c'.trace = s.conn.trace ++ es → (c'.outBuffer = s.conn.outBuffer ∧ c'.file = s.conn.file ∧
        c'.stSize = s.conn.stSize ∧ c'.isWriting = s.conn.isWriting) →
      (attached s.conn.trace ≠ [] → c'.state = s.conn.state) → Open c'.trace →
      FileInv c' s.stack := by
    intro es c' still trace same state opened
    have inv := files (open_append.mp (trace ▸ opened)).1
    exact inv.aside es trace still same (fun waits => ⟨state waits, id⟩) inv.below inv.fresh rfl
      fun _ mem _ => mem
  cases System.move_of_step taken with
  | run answer topFrame moved =>
    have before := moved.open_before opened
    rw [topFrame] at out files
    exact moved.file (files before) out opened before
  | call call topFrame =>
    have before : Open s.conn.trace := by
      cases call with
      | send | forceClose => exact opened
      | shutdown | setSendFd => exact (open_append.mp opened).1
    exact files_call call (files before) topFrame good
  | @ret rest topFrame =>
    have inv := files opened
    have tail : ∀ f ∈ rest, f.isSend = false := by
      have below := inv.below
      rw [topFrame] at below
      exact below
    have settled : ∀ f ∈ rest, f.Settled := by
      have under := out.settled
      rw [topFrame] at under
      exact under
    refine inv.restack (fun waits => absurd good.1 waits) tail ?_ ?_
    · rw [topFrame]
      exact (top_settled settled).load
    · intro f mem inSend
      rw [topFrame] at mem
      rcases List.mem_cons.mp mem with rfl | mem
      · cases inSend
      · exact mem
  | dispatchSelf idle | dispatchOther idle =>
    have inv : FileInv s.conn [] := idle ▸ files opened
    exact inv.begin rfl rfl
  | @startTask task rest idle here =>
    have inv : FileInv s.conn [] := idle ▸ files opened
    have none := entering_startTask alone here
    cases task with
    | sendInLoop t data => exact absurd (none (.other t)) (by simp [Task.frame])
    | shutdownInLoop | forceCloseInLoop | user => exact inv.begin rfl rfl
  | acceptSend => exact absurd good.1 id
  | refuse => exact files opened
  | checkShutdown t | refuseShutdown t =>
    exact beside [.shutdownCalled (.other t)] (by simp [Event.moves]) rfl ⟨rfl, rfl, rfl, rfl⟩
      (fun _ => rfl) opened
  | pushSend t data =>
    exact beside [.returned (.other t) data] (by simp [Event.moves]) rfl ⟨rfl, rfl, rfl, rfl⟩
      (fun _ => rfl) opened
  | storeDisconnecting t here =>
    exact beside [.store .kDisconnecting] (by simp [Event.moves]) rfl ⟨rfl, rfl, rfl, rfl⟩
      (fun waits => absurd (good.1 here) waits) opened
  | swapTasks | endTasks | poll | addTask | checkForceClose | pushShutdown | pushForceClose =>
    exact files opened

theorem filesInv_reachable (reached : Reaches (System.step cb) InTurn .start s) : FilesInv s := by
  refine reached.invariant filesInv_start fun t l u _ inv good taken => ?_
  refine ⟨output_step inv.output taken, alone_step inv.output inv.alone ?_ taken,
    files_step inv good taken⟩
  rintro t data rfl
  exact absurd good.1 id

/-- Before `handleClose`, the bytes on the socket are a prefix of the responses that were issued in
turn, and all of them once the channel is not write-enabled and no `sendInLoop` is executing. -/
theorem responses_inOrder (reached : Reaches (System.step cb) InTurn .start s)
    (opened : Open s.conn.trace) :
    sent s.conn.trace <+: expected s.conn.trace ∧
      (s.conn.isWriting = false → (∀ f ∈ s.stack, f.inSend = false) →
        sent s.conn.trace = expected s.conn.trace) := by
  obtain ⟨out, -, files⟩ := filesInv_reachable reached
  have inv := files opened
  have order := inv.order
  refine ⟨?_, fun notWriting outside => ?_⟩
  · rw [← order, List.append_assoc, List.append_assoc]
    exact List.prefix_append _ _
  · have empty : s.conn.outBuffer = [] := by
      by_contra nonempty
      rw [out.buffered opened nonempty] at notWriting
      cases notWriting
    have load : (top s.stack).load = [] := by
      cases stack : s.stack with
      | nil => rfl
      | cons g rest => exact Frame.load_of_not_inSend (outside g (stack ▸ List.mem_cons_self))
    have noFile : (if attached s.conn.trace = [] then s.conn.file else []) = [] := by
      split
      · next none =>
        by_contra file
        rcases inv.enabled none file with writing | ⟨g, mem, inSend⟩
        · rw [writing] at notWriting
          cases notWriting
        · rw [outside g mem] at inSend
          cases inSend
      · rfl
    rw [empty, load, noFile, List.append_nil, List.append_nil, List.append_nil] at order
    exact order

/-- A head that is written in two parts, then the file in two parts. -/
theorem responses_inOrder_after_file :
    ∃ s : System, expected s.conn.trace = [1, 2, 3, 4] ∧ sent s.conn.trace = expected s.conn.trace := by
  obtain ⟨s, reached, opened, notWriting, outside, all⟩ :
      ∃ s, Reaches (System.step allCallbacks) InTurn .start s ∧ Open s.conn.trace ∧
        s.conn.isWriting = false ∧ (∀ f ∈ s.stack, f.inSend = false) ∧
        expected s.conn.trace = [1, 2, 3, 4] :=
    exists_reaches_of_exec
      [.run .silent, .run .silent, .run .silent, .call (.setSendFd 5 [3, 4] 2),
        .call (.send [1, 2]), .run .silent, .run .silent, .run (.count (some 1)), .run .silent,
        .run .silent, .ret, .ret, .next, .poll [some EPOLLOUT], .next, .run .silent, .run .silent,
        .run .silent, .run .silent, .run .silent, .run (.count (some 1)), .next, .next,
        .poll [some EPOLLOUT], .next, .run .silent, .run .silent, .run .silent, .run .silent,
        .run .silent, .run (.count (some 1)), .next, .next, .poll [some EPOLLOUT], .next,
        .run .silent, .run .silent, .run .silent, .run .silent, .run .silent,
        .run (.count (some 1)), .run .silent, .run .silent]
      (by decide)
  exact ⟨s, all, (responses_inOrder reached opened).2 notWriting outside⟩

/-- A request arrives while a file is half sent, and its response has no file: `outBuffer_` is
drained before the rest of the file, so the head of the response overtakes it. -/
theorem head_overtakes_file :
    ∃ s, Reaches (System.step allCallbacks) Responses .start s ∧ Open s.conn.trace ∧
      expected s.conn.trace = [1, 2, 3, 4] ∧ sent s.conn.trace = [1, 2, 4] ∧
      ¬sent s.conn.trace <+: expected s.conn.trace := by
  refine exists_reaches_of_exec
      [.run .silent, .run .silent, .run .silent, .call (.setSendFd 5 [2, 3] 2), .call (.send [1]),
        .run .silent, .run .silent, .run (.count (some 1)), .ret, .run .silent, .run .silent, .ret,
        .ret, .next, .poll [some EPOLLOUT], .next, .run .silent, .run .silent, .run .silent,
        .run .silent, .run .silent, .run (.count (some 1)), .next, .next, .poll [some EPOLLIN],
        .next, .run .silent, .run .silent, .run .silent, .run (.bytes (some [9])),
        .call (.send [4]), .run .silent, .run .silent, .run .silent, .run .silent, .ret,
        .run .silent, .next, .next, .poll [some EPOLLOUT], .next, .run .silent, .run .silent,
        .run .silent, .run .silent, .run .silent, .run (.count (some 1))]
      (by decide)

end Yvent.TcpConnection
